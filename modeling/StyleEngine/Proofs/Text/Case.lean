import StyleEngine.Text.Ascii

/-!
# `Proofs/Text/Case.lean` — folding case

Folding moves the capitals and nothing else (`toNat_toLower`). So what is not a capital stays
(`toLower_eq_self_of_not_upper`), a folded character is no capital (`isUpper_toLower`), and a text
without capitals is folded already (`Ascii.lower_eq_self`).
-/

set_option autoImplicit false

namespace StyleEngine

theorem isUpper_iff {c : Char} : c.isUpper = true ↔ 65 ≤ c.toNat ∧ c.toNat ≤ 90 := by
  show decide (c.val ≥ 'A'.val ∧ c.val ≤ 'Z'.val) = true ↔ _
  simp only [decide_eq_true_eq, ge_iff_le, UInt32.le_iff_toNat_le]
  exact Iff.rfl

theorem isLower_iff {c : Char} : c.isLower = true ↔ 97 ≤ c.toNat ∧ c.toNat ≤ 122 := by
  show (decide (c.val ≥ 'a'.val) && decide (c.val ≤ 'z'.val)) = true ↔ _
  simp only [Bool.and_eq_true, decide_eq_true_eq, ge_iff_le, UInt32.le_iff_toNat_le]
  exact Iff.rfl

theorem isDigit_iff {c : Char} : c.isDigit = true ↔ 48 ≤ c.toNat ∧ c.toNat ≤ 57 := by
  simp only [Char.isDigit, Bool.and_eq_true, decide_eq_true_eq, ge_iff_le, UInt32.le_iff_toNat_le]
  exact Iff.rfl

theorem toLower_eq_self_of_not_upper {c : Char} (h : c.isUpper = false) : c.toLower = c := by
  refine dif_neg fun hupper => ?_
  exact of_decide_eq_false h hupper

/-- The letters stand in two blocks, 32 places apart. -/
theorem toNat_toLower {c : Char} (h : c.isUpper = true) : c.toLower.toNat = c.toNat + 32 := by
  obtain ⟨hA, hZ⟩ := isUpper_iff.mp h
  have hupper : c.val ≥ 'A'.val ∧ c.val ≤ 'Z'.val := of_decide_eq_true h
  have hlower : c.toLower.val = c.val + ('a'.val - 'A'.val) :=
    congrArg Char.val (dif_pos hupper)
  show c.toLower.val.toNat = c.val.toNat + 32
  rw [hlower, UInt32.toNat_add]
  exact Nat.mod_eq_of_lt (Nat.lt_of_le_of_lt (Nat.add_le_add_right hZ 32) (by decide))

theorem isUpper_toLower (c : Char) : c.toLower.isUpper = false := by
  by_cases h : c.isUpper = true
  · refine eq_false_of_ne_true fun hlower => ?_
    have hc := isUpper_iff.mp h
    have hmoved := isUpper_iff.mp hlower
    rw [toNat_toLower h] at hmoved
    omega
  · rw [toLower_eq_self_of_not_upper (eq_false_of_ne_true h)]
    exact eq_false_of_ne_true h

theorem toLower_toLower (c : Char) : c.toLower.toLower = c.toLower :=
  toLower_eq_self_of_not_upper (isUpper_toLower c)

theorem isUpper_of_isDigit {c : Char} (h : c.isDigit = true) : c.isUpper = false := by
  refine eq_false_of_ne_true fun hupper => ?_
  rw [isUpper_iff] at hupper
  rw [isDigit_iff] at h
  omega

theorem isDigit_toLower (c : Char) : c.toLower.isDigit = c.isDigit := by
  rw [Bool.eq_iff_iff, isDigit_iff, isDigit_iff]
  by_cases hupper : c.isUpper = true
  · have hc := isUpper_iff.mp hupper
    rw [toNat_toLower hupper]
    omega
  · rw [toLower_eq_self_of_not_upper (eq_false_of_ne_true hupper)]

namespace Ascii

/-- Without capitals there is nothing to fold. -/
theorem lower_eq_self {s : String} (h : ∀ c ∈ s.toList, c.isUpper = false) : lower s = s := by
  rw [← String.toList_inj, toList_lower]
  calc s.toList.map Char.toLower
      = s.toList.map id := List.map_congr_left fun c hc => toLower_eq_self_of_not_upper (h c hc)
    _ = s.toList := List.map_id _

theorem isUpper_of_mem_lower {s : String} {c : Char} (h : c ∈ (lower s).toList) :
    c.isUpper = false := by
  rw [toList_lower] at h
  obtain ⟨d, -, rfl⟩ := List.mem_map.mp h
  exact isUpper_toLower d

theorem lower_lower (s : String) : lower (lower s) = lower s :=
  lower_eq_self fun _ => isUpper_of_mem_lower

theorem sameIgnoringCase_of_lower {s t : String} (h : lower s = t) :
    sameIgnoringCase s t = true := by
  rw [sameIgnoringCase, ← h, lower_lower]
  exact decide_eq_true rfl

end Ascii

end StyleEngine
