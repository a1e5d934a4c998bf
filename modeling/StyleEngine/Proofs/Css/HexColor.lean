import StyleEngine.Css.Color

/-!
# `Proofs/Css/HexColor.lean` — a colour that is written reads back

A byte is two digits to base sixteen, and the digits give the byte. A colour is written with
six of them or with eight, never in a short form, so they are read as they were written
(`Color.ofHex?_digits`). They are also characters of a name, which lets a token hold them.
-/

set_option autoImplicit false

namespace StyleEngine

/-! ## 1. Digits -/

theorem isHexDigit_digitChar {n : Nat} (h : n < 16) : Ascii.isHexDigit n.digitChar = true := by
  have hall : ∀ n : Fin 16, Ascii.isHexDigit (Nat.digitChar n) = true := by decide
  exact hall ⟨n, h⟩

theorem hexValue_digitChar {n : Nat} (h : n < 16) : Ascii.hexValue n.digitChar = n := by
  have hall : ∀ n : Fin 16, Ascii.hexValue (Nat.digitChar n) = n := by decide
  exact hall ⟨n, h⟩

theorem ne_mark_of_isHexDigit {c : Char} (h : Ascii.isHexDigit c = true) : c ≠ '#' := by
  rintro rfl
  cases h

namespace Color

theorem isHexDigit_of_mem_byteDigits (b : UInt8) :
    ∀ c ∈ byteDigits b, Ascii.isHexDigit c = true := by
  have hhigh : b.toNat / 16 < 16 := Nat.div_lt_of_lt_mul b.toNat_lt
  have hlow : b.toNat % 16 < 16 := Nat.mod_lt _ (by decide)
  simp [byteDigits, isHexDigit_digitChar hhigh, isHexDigit_digitChar hlow]

theorem byte_byteDigits (b : UInt8) :
    byte (b.toNat / 16).digitChar (b.toNat % 16).digitChar = b := by
  have hhigh : b.toNat / 16 < 16 := Nat.div_lt_of_lt_mul b.toNat_lt
  have hlow : b.toNat % 16 < 16 := Nat.mod_lt _ (by decide)
  rw [byte, hexValue_digitChar hhigh, hexValue_digitChar hlow, Nat.div_add_mod]
  exact UInt8.ofNat_toNat

/-! ## 2. Colours -/

/-- What stands behind the mark. A full alpha is left out. -/
def digits (c : Color) : List Char :=
  byteDigits c.red ++ byteDigits c.green ++ byteDigits c.blue ++
    if c.alpha = 255 then [] else byteDigits c.alpha

theorem toList_text (c : Color) : c.text.toList = '#' :: c.digits := by
  rw [text, digits, String.toList_ofList]
  split
  · rw [List.append_nil]
  · rfl

theorem isHexDigit_of_mem_digits (c : Color) : ∀ d ∈ c.digits, Ascii.isHexDigit d = true := by
  intro d hd
  rw [digits] at hd
  simp only [List.mem_append] at hd
  obtain ((hd | hd) | hd) | hd := hd
  · exact isHexDigit_of_mem_byteDigits _ d hd
  · exact isHexDigit_of_mem_byteDigits _ d hd
  · exact isHexDigit_of_mem_byteDigits _ d hd
  · split at hd
    · cases hd
    · exact isHexDigit_of_mem_byteDigits _ d hd

theorem digits_ne_nil (c : Color) : c.digits ≠ [] := by
  simp [digits, byteDigits]

theorem ofDigits?_digits (c : Color) : ofDigits? c.digits = some c := by
  rw [digits]
  split
  · rename_i halpha
    simp [byteDigits, ofDigits?, byte_byteDigits, ← halpha]
  · simp [byteDigits, ofDigits?, byte_byteDigits]

/-- **The digits of a colour give the colour.** -/
theorem ofHex?_digits (c : Color) : ofHex? (String.ofList c.digits) = some c := by
  have hmark : dropMark c.digits = c.digits := by
    unfold dropMark
    split
    · rename_i heq
      have hhex := c.isHexDigit_of_mem_digits '#' (heq ▸ List.mem_cons_self)
      exact absurd rfl (ne_mark_of_isHexDigit hhex)
    · rfl
  have hall : c.digits.all Ascii.isHexDigit = true :=
    List.all_eq_true.mpr c.isHexDigit_of_mem_digits
  rw [ofHex?, String.toList_ofList, hmark]
  simp only [hall, if_true, ofDigits?_digits]

end Color

end StyleEngine
