import Mathlib.Data.List.Forall2
import StyleEngine.Json.Reader
import StyleEngine.Proofs.Css.HexColor

/-!
# `Proofs/Json/RoundTrip.lean` — JSON that is written on one line reads back

The readers take a value from the front of a text, so each law is about a value with anything
behind it. A string goes character by character (`readChars_escape`); an array and an object go
item by item, and the loops do not care what the items are: if each is read as something, or
fails in some way, the array is read as these, or fails as the first that does
(**`readArray_compactItems`**). The loader of document trees has items of its own, and uses the
same law.

For plain values all of it comes together in **`readValue_compact`**. Only numbers are missing
there.

The turns that bound the loops are never used up. A text has more characters than turns are
taken, because what is written for an array has a comma between two items.
-/

set_option autoImplicit false

namespace StyleEngine.Json

/-! ## 1. Strings -/

theorem skipBlank_cons {c : Char} (h : isBlank c = false) (cs : List Char) :
    skipBlank (c :: cs) = c :: cs :=
  List.dropWhile_cons_of_neg (ne_true_of_eq_false h)

theorem hexUnit?_control {n : Nat} (h : n < 32) :
    hexUnit? '0' '0' (n / 16).digitChar (n % 16).digitChar = some n := by
  have hhigh : n / 16 < 16 := by omega
  have hlow : n % 16 < 16 := Nat.mod_lt _ (by decide)
  have hzero : Ascii.isHexDigit '0' = true := rfl
  have hvalue : Ascii.hexValue '0' = 0 := rfl
  have hdigits :
      ['0', '0', (n / 16).digitChar, (n % 16).digitChar].all Ascii.isHexDigit = true := by
    simp [hzero, isHexDigit_digitChar hhigh, isHexDigit_digitChar hlow]
  rw [hexUnit?, if_pos hdigits, hvalue, hexValue_digitChar hhigh, hexValue_digitChar hlow]
  congr 1
  omega

theorem ofUnit_control {n : Nat} (h : n < 32) (care : Care) :
    Escaped.ofUnit care n = .whole (Char.ofNat n) := by
  have htrailing : isTrailing n = false := by
    simp only [isTrailing, Bool.and_eq_false_iff, decide_eq_false_iff_not]
    omega
  have hleading : isLeading n = false := by
    simp only [isLeading, Bool.and_eq_false_iff, decide_eq_false_iff_not]
    omega
  simp [Escaped.ofUnit, htrailing, hleading]

/-- What is written for a character is read as the character. -/
theorem readChars_escape (care : Care) (c : Char) (more : List Char) :
    readChars care (escape c ++ more) = addChar c (readChars care more) := by
  unfold escape
  cases hshort : shortEscape? c with
  | some letter =>
    unfold shortEscape? at hshort
    split at hshort <;> cases hshort <;> rfl
  | none =>
    dsimp only
    split
    · rename_i hcontrol
      simp [readChars, hexUnit?_control hcontrol, ofUnit_control hcontrol, Char.ofNat_toNat]
    · rename_i hvisible
      have hquote : c ≠ '"' := by
        rintro rfl
        cases hshort
      have hslash : c ≠ '\\' := by
        rintro rfl
        cases hshort
      rw [List.singleton_append, readChars]
      · rw [if_neg hvisible]
      all_goals simp [hquote, hslash]

theorem readChars_flatMap_escape (care : Care) (cs rest : List Char) :
    readChars care (cs.flatMap escape ++ '"' :: rest) = .ok (cs, rest) := by
  induction cs with
  | nil => rfl
  | cons c cs ih =>
    rw [List.flatMap_cons, List.append_assoc, readChars_escape, ih]
    rfl

/-- **A string reads back**, behind its opening quote. -/
theorem readString_quote (care : Care) (s : String) (rest : List Char) :
    readString care (s.toList.flatMap escape ++ '"' :: rest) = .ok (s, rest) := by
  rw [readString, readChars_flatMap_escape]
  show Except.ok (String.ofList s.toList, rest) = _
  rw [String.ofList_toList]

/-! ## 2. Arrays -/

/-- The text begins with a character that is neither blank nor a closing bracket. -/
def Begins (cs : List Char) : Prop :=
  ∃ c rest, cs = c :: rest ∧ isBlank c = false ∧ c ≠ ']'

theorem length_le_compactItems {item : Json} {items : List Json} (h : item ∈ items) :
    item.compact.length ≤ (compactItems items).length := by
  induction items with
  | nil => cases h
  | cons first items ih =>
    cases items with
    | nil =>
      simp [List.mem_singleton.mp h, compactItems]
    | cons next items =>
      rw [compactItems, List.length_append, List.length_cons]
      obtain rfl | h := List.mem_cons.mp h
      · omega
      · have hitem := ih h
        omega

/-- There is a comma between two items, so it does not matter what the items are. -/
theorem length_items_le (items : List Json) : items.length ≤ (compactItems items).length + 1 := by
  induction items with
  | nil => exact Nat.zero_le _
  | cons item items ih =>
    cases items with
    | nil => exact Nat.le_add_left _ _
    | cons next items =>
      have hnext : (next :: items).length ≤ (compactItems (next :: items)).length + 1 := ih
      rw [compactItems, List.length_append, List.length_cons, @List.length_cons _ ',']
      omega

theorem mapM_ok {α : Type} (xs : List α) :
    xs.mapM (Except.ok : α → Except ReadError α) = .ok xs := by
  have hpure := @List.mapM_pure (Except ReadError) _ _ _ _ xs id
  rw [List.map_id] at hpure
  exact hpure

section Items

variable {α β : Type} {item : Reader α} {f : β → Except ReadError α}

/-- What is written for `x` is read as `f x`. -/
structure ReadsAs (item : Reader α) (f : β → Except ReadError α) (x : β) (j : Json) : Prop where
  begins : Begins j.compact
  reads : ∀ rest, item (j.compact ++ rest) = (f x).map (·, rest)

/-- Items are read as they are one by one, and the first that cannot be read is the error. -/
theorem readItems_compactItems {xs : List β} {js : List Json}
    (h : List.Forall₂ (ReadsAs item f) xs js) (hne : js ≠ []) {turns : Nat}
    (hturns : js.length ≤ turns) (rest : List Char) :
    readItems item turns (compactItems js ++ ']' :: rest) = (xs.mapM f).map (·, rest) := by
  induction h generalizing turns with
  | nil => exact absurd rfl hne
  | @cons x j xs js hj hjs ih =>
    obtain ⟨turns, rfl⟩ := Nat.exists_eq_add_of_le' (Nat.le_trans (Nat.le_add_left 1 _) hturns)
    rw [List.mapM_cons]
    cases js with
    | nil =>
      cases hjs
      rw [compactItems, readItems, hj.reads]
      cases f x <;> rfl
    | cons j' js =>
      rw [compactItems, List.append_assoc, readItems, hj.reads]
      cases f x with
      | error e => rfl
      | ok y =>
        have hrest := ih (List.cons_ne_nil _ _) (Nat.le_of_succ_le_succ hturns)
        show (readItems item turns (compactItems (j' :: js) ++ ']' :: rest) >>=
          fun taken => pure (y :: taken.1, taken.2)) = _
        rw [hrest]
        cases xs.mapM f <;> rfl

/-- **An array reads back as its items do**, behind its opening bracket. -/
theorem readArray_compactItems {xs : List β} {js : List Json}
    (h : List.Forall₂ (ReadsAs item f) xs js) {turns : Nat} (hturns : js.length ≤ turns)
    (rest : List Char) :
    readArray item turns (compactItems js ++ ']' :: rest) = (xs.mapM f).map (·, rest) := by
  cases js with
  | nil =>
    cases h
    rfl
  | cons j js =>
    have hitems := readItems_compactItems h (List.cons_ne_nil j js) hturns rest
    obtain ⟨c, cs, hc⟩ : Begins (compactItems (j :: js) ++ ']' :: rest) := by
      obtain ⟨c, cs, hcs, hc⟩ : Begins j.compact := by
        cases h with
        | cons hj _ => exact hj.begins
      cases js with
      | nil => exact ⟨c, _, by rw [compactItems, hcs]; rfl, hc⟩
      | cons j' js => exact ⟨c, _, by rw [compactItems, hcs]; rfl, hc⟩
    rw [hc.1] at hitems ⊢
    rw [readArray, skipBlank_cons hc.2.1, ← hitems]
    split
    · rename_i heq
      exact absurd (List.cons.inj heq).1 hc.2.2
    · rfl

end Items

/-! ## 3. Objects -/

theorem length_le_compactFields {field : String × Json} {fields : List (String × Json)}
    (h : field ∈ fields) : field.2.compact.length ≤ (compactFields fields).length := by
  induction fields with
  | nil => cases h
  | cons first fields ih =>
    obtain ⟨name, value⟩ := first
    cases fields with
    | nil =>
      rw [List.mem_singleton.mp h, compactFields, List.length_append, List.length_cons]
      dsimp only
      omega
    | cons next fields =>
      rw [compactFields, List.length_append, List.length_cons, List.length_append, List.length_cons]
      obtain rfl | h := List.mem_cons.mp h
      · dsimp only
        omega
      · have hfield := ih h
        omega

theorem length_fields_le (fields : List (String × Json)) :
    fields.length ≤ (compactFields fields).length := by
  induction fields with
  | nil => exact Nat.zero_le _
  | cons field fields ih =>
    obtain ⟨name, value⟩ := field
    cases fields with
    | nil =>
      rw [compactFields, List.length_append, List.length_cons, List.length_cons]
      exact Nat.le_add_left _ _
    | cons next fields =>
      have hnext : (next :: fields).length ≤ (compactFields (next :: fields)).length := ih
      rw [compactFields, List.length_append, List.length_cons, @List.length_cons _ ':',
        List.length_append, @List.length_cons _ ',']
      omega

section Members

variable {σ : Type} {care : Care}

/-- What stands behind a member. -/
def afterMember (more : σ → Reader σ) (taken : σ × List Char) : Except ReadError (σ × List Char) :=
  match skipBlank taken.2 with
  | [] => .error .incomplete
  | ',' :: rest => more taken.1 rest
  | '}' :: rest => .ok (taken.1, rest)
  | _ :: _ => .error .malformed

/-- One turn of the loop. -/
theorem readMembers_quote (member : String → σ → Reader σ) (turns : Nat) (state : σ)
    (name : String) (cs : List Char) :
    readMembers care member (turns + 1) state (quote name ++ cs) =
      member name state cs >>= afterMember (readMembers care member turns) := by
  have hquote : quote name ++ cs = '"' :: (name.toList.flatMap escape ++ '"' :: cs) := by
    simp [quote]
  have hblank : isBlank '"' = false := rfl
  rw [hquote, readMembers]
  simp only [skipBlank_cons hblank, readString_quote]
  rfl

/-- Fields that are kept, each of a kind that is read back. -/
theorem readMembers_compactFields {value : Reader Json} {fields : List (String × Json)}
    (h : ∀ field ∈ fields, ∀ rest, value (field.2.compact ++ rest) = .ok (field.2, rest))
    (hne : fields ≠ []) {turns : Nat} (hturns : fields.length ≤ turns)
    (found : List (String × Json)) (rest : List Char) :
    readMembers care (readField value) turns found (compactFields fields ++ '}' :: rest) =
      .ok (fields.reverse ++ found, rest) := by
  induction fields generalizing turns found with
  | nil => exact absurd rfl hne
  | cons field fields ih =>
    obtain ⟨name, v⟩ := field
    obtain ⟨hfield, hfields⟩ := List.forall_mem_cons.mp h
    obtain ⟨turns, rfl⟩ := Nat.exists_eq_add_of_le' (Nat.le_trans (Nat.le_add_left 1 _) hturns)
    have hmember : ∀ behind, readField value name found (':' :: (v.compact ++ behind)) =
        .ok ((name, v) :: found, behind) := by
      intro behind
      show (value (v.compact ++ behind) >>= fun taken =>
        pure ((name, taken.1) :: found, taken.2)) = _
      rw [hfield]
      rfl
    cases fields with
    | nil =>
      rw [compactFields, List.append_assoc, readMembers_quote, List.cons_append, hmember]
      rfl
    | cons next fields =>
      have hrest := ih hfields (List.cons_ne_nil _ _) (Nat.le_of_succ_le_succ hturns)
          ((name, v) :: found)
      rw [compactFields, List.append_assoc, readMembers_quote, List.cons_append, List.append_assoc,
        hmember]
      show readMembers care (readField value) turns _
        (compactFields (next :: fields) ++ '}' :: rest) = _
      rw [hrest]
      simp

/-- **An object reads back as its fields do**, behind its opening brace. -/
theorem readObject_compactFields {value : Reader Json} {fields : List (String × Json)}
    (h : ∀ field ∈ fields, ∀ rest, value (field.2.compact ++ rest) = .ok (field.2, rest))
    {turns : Nat} (hturns : fields.length ≤ turns) (rest : List Char) :
    readObject care (readField value) turns [] (compactFields fields ++ '}' :: rest) =
      .ok (fields.reverse, rest) := by
  cases fields with
  | nil => rfl
  | cons field fields =>
    have hmembers := @readMembers_compactFields care _ _ h (List.cons_ne_nil _ _) _ hturns [] rest
    rw [List.append_nil] at hmembers
    rw [← hmembers]
    cases fields <;> rfl

end Members

/-! ## 4. Values -/

/-- No number, and at most `n` brackets inside one another. A number is another matter: it may
    be rounded when it is read. -/
inductive Nests : Nat → Json → Prop where
  | null {n : Nat} : Nests n .null
  | bool {n : Nat} (value : Bool) : Nests n (.bool value)
  | string {n : Nat} (contents : String) : Nests n (.string contents)
  | array {n : Nat} {items : List Json} (h : ∀ item ∈ items, Nests n item) :
      Nests (n + 1) (.array items)
  | object {n : Nat} {fields : List (String × Json)} (h : ∀ field ∈ fields, Nests n field.2) :
      Nests (n + 1) (.object fields)

theorem Nests.begins {n : Nat} {j : Json} (h : Nests n j) : Begins j.compact := by
  cases h with
  | null => exact ⟨'n', _, rfl, by decide⟩
  | bool value => cases value <;> exact ⟨_, _, rfl, by decide⟩
  | string => exact ⟨'"', _, rfl, by decide⟩
  | array => exact ⟨'[', _, rfl, by decide⟩
  | object => exact ⟨'{', _, rfl, by decide⟩

theorem readValueWith_string (care : Care) (nested : Char → Reader Json) (contents : String)
    (rest : List Char) :
    readValueWith care nested ((Json.string contents).compact ++ rest) =
      .ok (.string contents, rest) := by
  have htext : (Json.string contents).compact ++ rest =
      '"' :: (contents.toList.flatMap escape ++ '"' :: rest) := by
    simp [compact, quote]
  rw [htext]
  show (readString care _ >>= fun taken => pure (Json.string taken.1, taken.2)) = _
  rw [readString_quote]
  rfl

/-- **A value reads back**, if it may nest as deep as it does. -/
theorem readValue_compact {n : Nat} {j : Json} (h : Nests n j) (care : Care) {turns levels : Nat}
    (hturns : j.compact.length ≤ turns) (hlevels : n ≤ levels) (rest : List Char) :
    readValue care turns levels (j.compact ++ rest) = .ok (j, rest) := by
  induction h generalizing levels rest with
  | null => cases levels <;> rfl
  | bool value => cases value <;> cases levels <;> rfl
  | string contents => cases levels <;> exact readValueWith_string care _ contents rest
  | @array n items hitems ih =>
    obtain ⟨levels, rfl⟩ := Nat.exists_eq_add_of_le' (Nat.le_trans (Nat.le_add_left 1 _) hlevels)
    rw [compact, List.length_cons, List.length_append] at hturns
    have hreads : List.Forall₂ (ReadsAs (readValue care turns levels) Except.ok) items items := by
      refine List.forall₂_same.mpr fun item hitem => ⟨(hitems item hitem).begins, fun behind => ?_⟩
      have hlength := length_le_compactItems hitem
      exact ih item hitem (by omega) (Nat.le_of_succ_le_succ hlevels) behind
    have hlength := length_items_le items
    have hcount : items.length ≤ turns := by
      rw [List.length_singleton] at hturns
      omega
    have harray := readArray_compactItems hreads hcount rest
    rw [mapM_ok] at harray
    rw [compact, List.cons_append, List.append_assoc]
    show (readArray (readValue care turns levels) turns (compactItems items ++ ']' :: rest) >>=
      fun taken => pure (Json.array taken.1, taken.2)) = _
    rw [harray]
    rfl
  | @object n fields hfields ih =>
    obtain ⟨levels, rfl⟩ := Nat.exists_eq_add_of_le' (Nat.le_trans (Nat.le_add_left 1 _) hlevels)
    rw [compact, List.length_cons, List.length_append] at hturns
    have hreads : ∀ field ∈ fields, ∀ behind,
        readValue care turns levels (field.2.compact ++ behind) = .ok (field.2, behind) := by
      intro field hfield behind
      have hlength := length_le_compactFields hfield
      exact ih field hfield (by omega) (Nat.le_of_succ_le_succ hlevels) behind
    have hlength := length_fields_le fields
    have hobject := @readObject_compactFields care _ _ hreads turns (by omega) rest
    rw [compact, List.cons_append, List.append_assoc]
    show (readObject care (readField (readValue care turns levels)) turns []
      (compactFields fields ++ '}' :: rest) >>=
        fun taken => pure (Json.object taken.1.reverse, taken.2)) = _
    rw [hobject]
    show Except.ok (Json.object fields.reverse.reverse, rest) = _
    rw [List.reverse_reverse]

end StyleEngine.Json
