import StyleEngine.Proofs.Cascade.Winner
import StyleEngine.Proofs.Css.HexColor
import StyleEngine.Proofs.Css.WellFormed
import StyleEngine.Proofs.Number.ReadBack

/-!
# `Proofs/Css/OneLine.lean` — what a sheet declares has no line feed in it

A value that is shown on a line of its own must not break it. For a value in general nothing is
known of this, since a keyword or a string can hold any text. In a sheet that was read, names
are identifiers and strings end at a line feed at the latest; numbers and colours never have one
when they are written. So the values of a node are on one line each, and their names are, too
(`Sheet.WellFormed.onOneLine`).
-/

set_option autoImplicit false

namespace StyleEngine

/-- There is no line feed in the text. -/
def OnOneLine (s : String) : Prop := '\n' ∉ s.toList

instance (s : String) : Decidable (OnOneLine s) :=
  inferInstanceAs (Decidable ('\n' ∉ s.toList))

namespace OnOneLine

theorem append {s t : String} (hs : OnOneLine s) (ht : OnOneLine t) : OnOneLine (s ++ t) := by
  rw [OnOneLine, String.toList_append, List.mem_append, not_or]
  exact ⟨hs, ht⟩

/-- The characters are of a kind that has no line feed. -/
theorem of_kind {s : String} {kind : Char → Bool} (h : ∀ c ∈ s.toList, kind c = true)
    (hkind : kind '\n' = false) : OnOneLine s := by
  intro hmem
  rw [h _ hmem] at hkind
  cases hkind

theorem of_isIdent {s : String} (h : IsIdent s.toList) : OnOneLine s :=
  of_kind h.chars rfl

theorem intercalate {parts : List String} (h : ∀ s ∈ parts, OnOneLine s) :
    OnOneLine (" ".intercalate parts) := by
  induction parts with
  | nil => exact List.not_mem_nil
  | cons s parts ih =>
    obtain ⟨hs, hparts⟩ := List.forall_mem_cons.mp h
    cases parts with
    | nil =>
      rw [String.intercalate_singleton]
      exact hs
    | cons t parts =>
      rw [String.intercalate_cons_cons]
      exact (hs.append (by decide)).append (ih hparts)

end OnOneLine

theorem Numeral.newline_not_mem_chars (n : Numeral) : '\n' ∉ n.chars := by
  have hdigits {digits : List Char} (h : ∀ c ∈ digits, c.isDigit = true) : '\n' ∉ digits :=
    fun hmem => absurd (h _ hmem) (by decide)
  have hsign : '\n' ∉ n.sign := by
    have hmem := n.sign_mem
    simp only [List.mem_cons, List.not_mem_nil, or_false] at hmem
    obtain hsign | hsign | hsign := hmem <;> rw [hsign] <;> decide
  have hfraction : '\n' ∉ pointed n.fraction := by
    have hnone := hdigits n.fraction_digits
    cases hparts : n.fraction with
    | nil => exact List.not_mem_nil
    | cons c digits =>
      rw [hparts] at hnone
      exact List.not_mem_cons_of_ne_of_not_mem (by decide) hnone
  rw [chars, unsigned, List.mem_append, List.mem_append, not_or, not_or]
  exact ⟨hsign, hdigits n.whole_digits, hfraction⟩

theorem Number.onOneLine_text (x : Number) : OnOneLine x.text := by
  rw [OnOneLine, text, String.toList_ofList]
  by_cases hx : x.isFinite = true
  · obtain ⟨n, hn, -⟩ := exists_numeral hx
    rw [hn]
    exact n.newline_not_mem_chars
  · cases x with
    | nan => decide
    | signed negative rank hrank =>
      have hinfinite : rank = Magnitude.infinity := by
        rw [isFinite, decide_eq_true_eq] at hx
        omega
      rw [Layout.number, if_pos hinfinite]
      cases negative <;> decide

theorem Color.onOneLine_text (c : Color) : OnOneLine c.text := by
  rw [OnOneLine, c.toList_text, List.mem_cons, not_or]
  refine ⟨by decide, fun hmem => ?_⟩
  exact absurd (c.isHexDigit_of_mem_digits _ hmem) (by decide)

theorem Value.IsComponent.onOneLine_text {v : Value} (h : v.IsComponent) : OnOneLine v.text := by
  cases v with
  | keyword word => exact .of_isIdent h
  | number x => exact x.onOneLine_text
  | dimension x unit =>
    refine x.onOneLine_text.append ?_
    obtain ⟨-, rfl | ⟨hunit, -⟩⟩ := h
    · decide
    · exact .of_isIdent hunit
  | color c => exact c.onOneLine_text
  | string contents =>
    have hquote : OnOneLine "\"" := by decide
    exact (hquote.append h).append hquote
  | list vs => exact h.elim

theorem Value.WellFormed.onOneLine_text {v : Value} (h : v.WellFormed) : OnOneLine v.text := by
  cases v with
  | list vs =>
    obtain ⟨-, hcomponents⟩ := h
    rw [text, texts_eq_map]
    refine .intercalate fun s hs => ?_
    obtain ⟨v, hv, rfl⟩ := List.mem_map.mp hs
    exact (hcomponents v hv).onOneLine_text
  | _ => exact IsComponent.onOneLine_text h

/-- **What a well-formed sheet gives to a node is on one line**, name and value. -/
theorem Sheet.WellFormed.onOneLine {sheet : Sheet} (h : sheet.WellFormed) {kind : NodeKind}
    {name : String} {value : Value}
    (hvalue : (specificValues sheet.bySpecificity.rules kind).get? name = some value) :
    OnOneLine name ∧ OnOneLine value.text := by
  obtain ⟨c, ⟨⟨rule, hrule, -, -, hdeclaration, rfl⟩, -⟩, rfl⟩ :=
    get?_eq_some_iff_wins.mp hvalue
  have hd := (h rule (List.mem_of_getElem? hrule)).declarations c.declaration
    (List.mem_of_getElem? hdeclaration)
  exact ⟨.of_isIdent hd.name, hd.value.onOneLine_text⟩

end StyleEngine
