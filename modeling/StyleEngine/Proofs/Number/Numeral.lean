import StyleEngine.Number.Decimal

/-!
# `Proofs/Number/Numeral.lean` — numerals, and that each of them is a number

`Number.ofChars?` reads more than a style sheet can contain: exponents, words for the
infinities, a point with nothing behind it. What a sheet can contain is a `Numeral`, given
here by its parts. Reading the characters of one never fails, and gives the number nearest
to the decimal that its digits make (`ofChars?_chars`).
-/

set_option autoImplicit false

namespace StyleEngine

/-- A numeral in its parts. A point is written only in front of digits. -/
structure Numeral where
  sign : List Char
  whole : List Char
  fraction : List Char
  sign_mem : sign ∈ [[], ['+'], ['-']]
  whole_digits : ∀ c ∈ whole, c.isDigit = true
  fraction_digits : ∀ c ∈ fraction, c.isDigit = true
  digits_ne_nil : whole ≠ [] ∨ fraction ≠ []

namespace Numeral

/-- The digits behind the point, with the point. -/
def pointed : List Char → List Char
  | [] => []
  | c :: digits => '.' :: c :: digits

def unsigned (n : Numeral) : List Char := n.whole ++ pointed n.fraction

def chars (n : Numeral) : List Char := n.sign ++ n.unsigned

def decimal (n : Numeral) : Decimal := .ofDigits n.whole n.fraction

/-- The number that a numeral stands for. -/
def value (n : Numeral) : Number := .ofDecimal (n.sign = ['-']) n.decimal

/-! ## The first character -/

theorem unsigned_eq_cons (n : Numeral) :
    ∃ c cs, n.unsigned = c :: cs ∧ (c.isDigit = true ∨ c = '.') := by
  rw [unsigned]
  cases hwhole : n.whole with
  | cons c whole =>
    refine ⟨c, whole ++ pointed n.fraction, rfl, .inl (n.whole_digits c ?_)⟩
    rw [hwhole]
    exact List.mem_cons_self
  | nil =>
    cases hfraction : n.fraction with
    | cons c digits => exact ⟨'.', c :: digits, rfl, .inr rfl⟩
    | nil => exact absurd n.digits_ne_nil (by simp [hwhole, hfraction])

theorem chars_ne_nil (n : Numeral) : n.chars ≠ [] := by
  obtain ⟨c, cs, hc, -⟩ := n.unsigned_eq_cons
  rw [chars, hc]
  simp

/-- Digits and the point come before the capitals, so folding case leaves them. -/
theorem toLower_eq_self {c : Char} (h : c.isDigit = true ∨ c = '.') : c.toLower = c := by
  have hlt : ¬c.val ≥ 'A'.val := by
    obtain h | rfl := h
    · have h9 : c.val ≤ '9'.val := by
        simp only [Char.isDigit, Bool.and_eq_true, decide_eq_true_eq] at h
        exact h.2
      intro hA
      exact absurd (UInt32.le_trans hA h9) (by decide)
    · decide
  exact dif_neg (fun hupper => hlt hupper.1)

theorem ne_of_isDigit_or_point {c d : Char} (h : c.isDigit = true ∨ c = '.')
    (hd : d.isDigit = false) (hp : d ≠ '.') : c ≠ d := by
  intro heq
  obtain h | h := h
  · rw [heq, hd] at h
    cases h
  · exact hp (heq.symm.trans h)

/-! ## Reading -/

theorem splitSign_chars (n : Numeral) : splitSign n.chars = (decide (n.sign = ['-']), n.unsigned) := by
  obtain ⟨c, cs, hc, hfirst⟩ := n.unsigned_eq_cons
  have hminus : c ≠ '-' := ne_of_isDigit_or_point hfirst rfl (by decide)
  have hplus : c ≠ '+' := ne_of_isDigit_or_point hfirst rfl (by decide)
  have hmem := n.sign_mem
  simp only [List.mem_cons, List.not_mem_nil, or_false] at hmem
  rw [chars, hc]
  obtain hsign | hsign | hsign := hmem
  · rw [hsign, List.nil_append]
    unfold splitSign
    split
    · rename_i heq
      exact absurd (List.cons.inj heq).1 hminus
    · rename_i heq
      exact absurd (List.cons.inj heq).1 hplus
    · rfl
  · rw [hsign]
    rfl
  · rw [hsign]
    rfl

theorem splitDigits_of_digits {digits rest : List Char} (h : ∀ c ∈ digits, c.isDigit = true)
    (hrest : rest.takeWhile Char.isDigit = []) : splitDigits (digits ++ rest) = (digits, rest) := by
  have hdrop : rest.dropWhile Char.isDigit = rest := by
    have happend := @List.takeWhile_append_dropWhile _ Char.isDigit rest
    rw [hrest, List.nil_append] at happend
    exact happend
  rw [splitDigits, List.takeWhile_append_of_pos h, List.dropWhile_append_of_pos h, hrest, hdrop,
    List.append_nil]

theorem takeWhile_pointed (digits : List Char) :
    (pointed digits).takeWhile Char.isDigit = [] := by
  cases digits <;> rfl

theorem decimal_ofChars?_unsigned (n : Numeral) :
    Decimal.ofChars? n.unsigned = some n.decimal := by
  have hwhole : splitDigits n.unsigned = (n.whole, pointed n.fraction) :=
    splitDigits_of_digits n.whole_digits (takeWhile_pointed n.fraction)
  have hscale : ∀ d : Decimal, d.scale 0 = d := by
    intro d
    rw [Decimal.scale, Int.add_zero]
  rw [Decimal.ofChars?, hwhole, decimal]
  have hne := n.digits_ne_nil
  cases hfraction : n.fraction with
  | nil =>
    rw [hfraction] at hne
    have hwhole' : n.whole ≠ [] := hne.resolve_right (fun h => h rfl)
    simp [pointed, hwhole', Decimal.exponentOf?, hscale]
  | cons c digits =>
    have hdigits : ∀ d ∈ c :: digits, d.isDigit = true := by
      rw [← hfraction]
      exact n.fraction_digits
    have hsplit : splitDigits (c :: digits) = (c :: digits, []) := by
      have happend := @splitDigits_of_digits (c :: digits) [] hdigits rfl
      rw [List.append_nil] at happend
      exact happend
    simp [pointed, hsplit, Decimal.exponentOf?, hscale]

/-- **Every numeral is a number.** -/
theorem ofChars?_chars (n : Numeral) : Number.ofChars? n.chars = some n.value := by
  obtain ⟨c, cs, hc, hfirst⟩ := n.unsigned_eq_cons
  -- No numeral is one of the words, since they begin with letters.
  have hword : n.unsigned.map Char.toLower = c :: cs.map Char.toLower := by
    rw [hc, List.map_cons, toLower_eq_self hfirst]
  have hi : c ≠ 'i' := ne_of_isDigit_or_point hfirst rfl (by decide)
  have hn : c ≠ 'n' := ne_of_isDigit_or_point hfirst rfl (by decide)
  rw [Number.ofChars?, splitSign_chars]
  simp only [hword, List.cons.injEq, hi, hn, false_and, or_self, if_false,
    decimal_ofChars?_unsigned, Option.map_some]
  rfl

end Numeral

end StyleEngine
