import StyleEngine.Proofs.Css.HexColor
import StyleEngine.Proofs.Text.Case

/-!
# `Proofs/Css/ColorForms.lean` — the ways to write a colour

`HexColor` says that a colour which was written reads back. There are other ways to write it: with
capitals, without the mark, with every digit once where it would stand twice, and with a full
alpha that could have been left out. This file says which texts are read at all (`Color.Writes`),
and when two of them are read alike.

All of it goes through one form of the digits, `Color.canonical`. It is made from what was
written, digit by digit and without any arithmetic, and it is what the colour is written as
(`Color.Writes.exists_color`). So the number that two digits make is dealt with once, for a single
byte (`Color.byteDigits_byte`). The main statement is **`Color.ofHex?_canonical`**.
-/

set_option autoImplicit false

namespace StyleEngine

/-! ## 1. Digits -/

namespace Ascii

theorem isHexDigit_iff {c : Char} :
    isHexDigit c = true ↔
      48 ≤ c.toNat ∧ c.toNat ≤ 57 ∨ 97 ≤ c.toNat ∧ c.toNat ≤ 102 ∨
        65 ≤ c.toNat ∧ c.toNat ≤ 70 := by
  simp only [isHexDigit, Bool.or_eq_true, Bool.and_eq_true, decide_eq_true_eq, isDigit_iff,
    Char.le_def, UInt32.le_iff_toNat_le, or_assoc]
  exact Iff.rfl

/-- What holds of all ASCII characters that are digits holds of all digits. -/
theorem forall_isHexDigit {P : Char → Prop}
    (h : ∀ n : Fin 128, isHexDigit (Char.ofNat n) = true → P (Char.ofNat n)) {c : Char}
    (hc : isHexDigit c = true) : P c := by
  have hlt : c.toNat < 128 := by
    have := isHexDigit_iff.mp hc
    omega
  have hP := h ⟨c.toNat, hlt⟩
  rw [Char.ofNat_toNat] at hP
  exact hP hc

theorem hexValue_lt {c : Char} (hc : isHexDigit c = true) : hexValue c < 16 :=
  forall_isHexDigit (P := fun c => hexValue c < 16) (by decide) hc

/-- A digit that is written again is in lower case. -/
theorem digitChar_hexValue {c : Char} (hc : isHexDigit c = true) :
    (hexValue c).digitChar = c.toLower :=
  forall_isHexDigit (P := fun c => (hexValue c).digitChar = c.toLower) (by decide) hc

theorem isHexDigit_toLower (c : Char) : isHexDigit c.toLower = isHexDigit c := by
  rw [Bool.eq_iff_iff, isHexDigit_iff, isHexDigit_iff]
  by_cases hupper : c.isUpper = true
  · have hc := isUpper_iff.mp hupper
    rw [toNat_toLower hupper]
    omega
  · rw [toLower_eq_self_of_not_upper (eq_false_of_ne_true hupper)]

theorem hexValue_toLower (c : Char) : hexValue c.toLower = hexValue c := by
  rw [hexValue, hexValue, isDigit_toLower, toLower_toLower]
  split
  · rename_i hdigit
    rw [toLower_eq_self_of_not_upper (isUpper_of_isDigit hdigit)]
  · rfl

end Ascii

namespace Color

/-! ## 2. Bytes -/

/-- **The digits of a byte are those it was read from**, in lower case. -/
theorem byteDigits_byte {high low : Char} (hhigh : Ascii.isHexDigit high = true)
    (hlow : Ascii.isHexDigit low = true) :
    byteDigits (byte high low) = [high.toLower, low.toLower] := by
  have hh := Ascii.hexValue_lt hhigh
  have hl := Ascii.hexValue_lt hlow
  have hvalue : (byte high low).toNat = 16 * Ascii.hexValue high + Ascii.hexValue low := by
    rw [byte, UInt8.toNat_ofNat']
    omega
  have hdiv : (16 * Ascii.hexValue high + Ascii.hexValue low) / 16 = Ascii.hexValue high := by omega
  have hmod : (16 * Ascii.hexValue high + Ascii.hexValue low) % 16 = Ascii.hexValue low := by omega
  rw [byteDigits, hvalue, hdiv, hmod, Ascii.digitChar_hexValue hhigh, Ascii.digitChar_hexValue hlow]

theorem byteDigits_injective {a b : UInt8} (h : byteDigits a = byteDigits b) : a = b := by
  obtain ⟨hhigh, hrest⟩ := List.cons.inj h
  obtain ⟨hlow, -⟩ := List.cons.inj hrest
  rw [← byte_byteDigits a, ← byte_byteDigits b, hhigh, hlow]

theorem byteDigits_eq_full_iff {b : UInt8} : byteDigits b = ['f', 'f'] ↔ b = 255 := by
  constructor
  · intro h
    exact byteDigits_injective h
  · rintro rfl
    decide

/-! ## 3. Forms -/

/-- Three, four, six or eight digits to base sixteen. -/
structure IsForm (digits : List Char) : Prop where
  hex : ∀ d ∈ digits, Ascii.isHexDigit d = true
  length_mem : digits.length ∈ [3, 4, 6, 8]

/-- The text is these digits, behind a mark or without one. -/
def Writes (s : String) (digits : List Char) : Prop :=
  (s.toList = digits ∨ s.toList = '#' :: digits) ∧ IsForm digits

/-- In a short form every digit counts twice. -/
def long (digits : List Char) : List Char :=
  if digits.length ≤ 4 then digits.flatMap fun d => [d, d] else digits

/-- Without an alpha that is full. -/
def dropFull (digits : List Char) : List Char :=
  if digits.drop 6 = ['f', 'f'] then digits.take 6 else digits

/-- The one form of all that are read alike: long, in lower case, and without a full alpha. -/
def canonical (digits : List Char) : List Char :=
  dropFull ((long digits).map Char.toLower)

theorem isSome_ofDigits?_iff {digits : List Char} :
    (ofDigits? digits).isSome = true ↔ digits.length ∈ [3, 4, 6, 8] := by
  match digits with
  | [] | [_] | [_, _] | [_, _, _] | [_, _, _, _] | [_, _, _, _, _] | [_, _, _, _, _, _]
  | [_, _, _, _, _, _, _] | [_, _, _, _, _, _, _, _] | _ :: _ :: _ :: _ :: _ :: _ :: _ :: _ :: _ :: _ =>
    simp [ofDigits?]

/-- The long form of a colour, of which a full alpha is dropped, is what is written. -/
theorem digits_eq_dropFull (c : Color) :
    c.digits = dropFull
      (byteDigits c.red ++ byteDigits c.green ++ byteDigits c.blue ++ byteDigits c.alpha) := by
  have hfull : byteDigits c.alpha = ['f', 'f'] ↔ c.alpha = 255 := byteDigits_eq_full_iff
  show _ = if byteDigits c.alpha = ['f', 'f'] then
    byteDigits c.red ++ byteDigits c.green ++ byteDigits c.blue else _
  rw [digits]
  simp only [hfull]
  split <;> simp

/-- **A colour is written in the canonical form** of the digits it was read from. -/
theorem digits_of_ofDigits? {digits : List Char} {color : Color}
    (hhex : ∀ d ∈ digits, Ascii.isHexDigit d = true) (h : ofDigits? digits = some color) :
    color.digits = canonical digits := by
  unfold ofDigits? at h
  split at h
  case h_5 => cases h
  all_goals
    obtain rfl := Option.some.inj h
    simp only [List.forall_mem_cons] at hhex
    simp only [digits_eq_dropFull, byteDigits_byte, hhex]
    rfl

/-! ## 4. Texts -/

section Texts

variable {s s₁ s₂ : String} {digits digits₁ digits₂ : List Char}

/-- A mark is no digit, so at most the one in front of the digits is dropped. -/
theorem dropMark_of_hex (hhex : ∀ d ∈ digits, Ascii.isHexDigit d = true) :
    dropMark digits = digits := by
  unfold dropMark
  split
  · exact absurd rfl (ne_mark_of_isHexDigit (hhex '#' List.mem_cons_self))
  · rfl

theorem dropMark_cases (cs : List Char) : cs = dropMark cs ∨ cs = '#' :: dropMark cs := by
  unfold dropMark
  split
  · exact .inr rfl
  · exact .inl rfl

theorem Writes.ofHex?_eq (h : Writes s digits) : ofHex? s = ofDigits? digits := by
  obtain ⟨hs, hhex, -⟩ := h
  have hmark : dropMark s.toList = digits := by
    obtain hs | hs := hs
    · rw [hs, dropMark_of_hex hhex]
    · rw [hs, dropMark]
  rw [ofHex?, hmark]
  exact if_pos (List.all_eq_true.mpr hhex)

/-- Nothing but these texts is read. -/
theorem isSome_ofHex?_iff : (ofHex? s).isSome = true ↔ ∃ digits, Writes s digits := by
  constructor
  · intro h
    rw [ofHex?] at h
    split at h
    · rename_i hhex
      exact ⟨dropMark s.toList, dropMark_cases s.toList, List.all_eq_true.mp hhex,
        isSome_ofDigits?_iff.mp h⟩
    · cases h
  · rintro ⟨digits, h⟩
    rw [h.ofHex?_eq]
    exact isSome_ofDigits?_iff.mpr h.2.length_mem

theorem writes_text (c : Color) : Writes c.text c.digits := by
  refine ⟨.inr c.toList_text, c.isHexDigit_of_mem_digits, isSome_ofDigits?_iff.mp ?_⟩
  rw [ofDigits?_digits]
  rfl

theorem Writes.exists_color (h : Writes s digits) :
    ∃ color, ofHex? s = some color ∧ color.digits = canonical digits := by
  obtain ⟨color, hcolor⟩ := Option.isSome_iff_exists.mp (isSome_ofHex?_iff.mpr ⟨digits, h⟩)
  exact ⟨color, hcolor, digits_of_ofDigits? h.2.hex (h.ofHex?_eq ▸ hcolor)⟩

theorem digits_injective {c₁ c₂ : Color} (h : c₁.digits = c₂.digits) : c₁ = c₂ :=
  Option.some.inj (by rw [← ofDigits?_digits c₁, h, ofDigits?_digits c₂])

/-- **Two texts are read alike if they come to one canonical form.** -/
theorem Writes.ofHex?_eq_iff (h₁ : Writes s₁ digits₁) (h₂ : Writes s₂ digits₂) :
    ofHex? s₁ = ofHex? s₂ ↔ canonical digits₁ = canonical digits₂ := by
  obtain ⟨c₁, hc₁, hdigits₁⟩ := h₁.exists_color
  obtain ⟨c₂, hc₂, hdigits₂⟩ := h₂.exists_color
  rw [hc₁, hc₂, Option.some.injEq, ← hdigits₁, ← hdigits₂]
  exact ⟨congrArg digits, digits_injective⟩

end Texts

/-! ## 5. Case -/

theorem ofDigits?_map_toLower (digits : List Char) :
    ofDigits? (digits.map Char.toLower) = ofDigits? digits := by
  match digits with
  | [] | [_] | [_, _] | [_, _, _] | [_, _, _, _] | [_, _, _, _, _] | [_, _, _, _, _, _]
  | [_, _, _, _, _, _, _] | [_, _, _, _, _, _, _, _] | _ :: _ :: _ :: _ :: _ :: _ :: _ :: _ :: _ :: _ =>
    simp [ofDigits?, byte, Ascii.hexValue_toLower]

theorem toLower_eq_mark_iff {c : Char} : c.toLower = '#' ↔ c = '#' := by
  constructor
  · intro h
    by_cases hupper : c.isUpper = true
    · have hmoved := toNat_toLower hupper
      rw [h] at hmoved
      have hc := isUpper_iff.mp hupper
      have hmark : '#'.toNat = 35 := rfl
      omega
    · rwa [toLower_eq_self_of_not_upper (eq_false_of_ne_true hupper)] at h
  · rintro rfl
    rfl

theorem dropMark_map_toLower (cs : List Char) :
    dropMark (cs.map Char.toLower) = (dropMark cs).map Char.toLower := by
  cases cs with
  | nil => rfl
  | cons c cs =>
    by_cases hc : c = '#'
    · rw [hc]
      rfl
    · have hlower : c.toLower ≠ '#' := mt toLower_eq_mark_iff.mp hc
      simp [dropMark, hc, hlower]

/-- Case does not matter. -/
theorem ofHex?_lower (s : String) : ofHex? (Ascii.lower s) = ofHex? s := by
  rw [ofHex?, ofHex?, Ascii.toList_lower, dropMark_map_toLower]
  simp only [List.all_map, Function.comp_def, Ascii.isHexDigit_toLower, ofDigits?_map_toLower]

/-! ## 6. All forms of a colour -/

/-- **The ways to write a colour.** A text is read exactly if it is three, four, six or eight
    digits, behind one mark or none. The colour is then written in the canonical form of these
    digits, and so two texts are read alike if this form is one and the same. What a colour is
    written as is a text that is read as this colour. -/
theorem ofHex?_canonical :
    (∀ s, (ofHex? s).isSome = true ↔ ∃ digits, Writes s digits) ∧
    (∀ s digits, Writes s digits →
      ∃ color, ofHex? s = some color ∧ color.text = String.ofList ('#' :: canonical digits)) ∧
    (∀ s₁ s₂ digits₁ digits₂, Writes s₁ digits₁ → Writes s₂ digits₂ →
      (ofHex? s₁ = ofHex? s₂ ↔ canonical digits₁ = canonical digits₂)) ∧
    ∀ color, ofHex? color.text = some color := by
  refine ⟨fun s => isSome_ofHex?_iff, ?_, fun s₁ s₂ d₁ d₂ => Writes.ofHex?_eq_iff, ?_⟩
  · intro s digits h
    obtain ⟨color, hcolor, hdigits⟩ := h.exists_color
    refine ⟨color, hcolor, ?_⟩
    rw [← String.toList_inj, toList_text, String.toList_ofList, hdigits]
  · intro color
    rw [color.writes_text.ofHex?_eq, ofDigits?_digits]

/-- Four digits and eight for one colour; a full alpha, and a mark too many. -/
example :
    ofHex? "#2aBf" = ofHex? "22AABBff" ∧
      (ofHex? "#2aBf").map text = some "#22aabb" ∧ ofHex? "##2ab" = none := by
  decide

end Color

end StyleEngine
