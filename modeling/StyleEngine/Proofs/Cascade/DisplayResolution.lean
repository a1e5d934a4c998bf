import StyleEngine.Proofs.Cascade.Warnings
import StyleEngine.Proofs.Text.Case

/-!
# `Proofs/Cascade/DisplayResolution.lean` — which display a node has

The display of a node is found in three steps: the cascade, the keyword, the tag. This file says
what they come to, as a relation between a sheet, a node and a display (`Sheet.Displays`), and
**`display_build_iff`** says that the display of the relation is the one that is found.

Two things can be read off the relation. It knows no log, so what was said before does not
matter. And of all declarations it looks at the winner only: a winner that is no display does not
let the next one come forward. The node is then displayed as if there were no sheet.
-/

set_option autoImplicit false

namespace StyleEngine

/-! ## 1. Keywords -/

namespace Display

theorem keyword_injective {d₁ d₂ : Display} (h : d₁.keyword = d₂.keyword) : d₁ = d₂ := by
  have hall : ∀ d₁ ∈ all, ∀ d₂ ∈ all, d₁.keyword = d₂.keyword → d₁ = d₂ := by decide
  exact hall d₁ (mem_all d₁) d₂ (mem_all d₂) h

theorem lower_keyword (d : Display) : Ascii.lower d.keyword = d.keyword := by
  have hall : d.keyword.toList.all (!·.isUpper) = true := by cases d <;> decide
  refine Ascii.lower_eq_self fun c hc => ?_
  simpa using List.all_eq_true.mp hall c hc

/-- The value is a word, and but for case the word is the keyword of the display. -/
def Named (value : Value) (display : Display) : Prop :=
  ∃ word, value = .keyword word ∧ Ascii.sameIgnoringCase word display.keyword = true

theorem Named.unique {value : Value} {d₁ d₂ : Display} (h₁ : Named value d₁)
    (h₂ : Named value d₂) : d₁ = d₂ := by
  obtain ⟨word, rfl, hword₁⟩ := h₁
  obtain ⟨word', hvalue, hword₂⟩ := h₂
  obtain rfl := Value.keyword.inj hvalue
  refine keyword_injective ?_
  rw [← lower_keyword d₁, ← lower_keyword d₂]
  exact (of_decide_eq_true hword₁).symm.trans (of_decide_eq_true hword₂)

theorem named_of_ofValue? {value : Value} {display : Display}
    (h : ofValue? value = some display) : Named value display := by
  obtain ⟨word, hword, hdisplay⟩ := Option.bind_eq_some_iff.mp h
  cases value with
  | keyword word' =>
    obtain rfl := Option.some.inj hword
    have hsame := List.find?_some hdisplay
    exact ⟨word', rfl, hsame⟩
  | _ => cases hword

/-- A value asks for the display that it names. -/
theorem ofValue?_eq_some_iff {value : Value} {display : Display} :
    ofValue? value = some display ↔ Named value display := by
  refine ⟨named_of_ofValue?, fun hnamed => ?_⟩
  cases hfound : ofValue? value with
  | some d => rw [(named_of_ofValue? hfound).unique hnamed]
  | none =>
    obtain ⟨word, hvalue, hword⟩ := hnamed
    rw [ofValue?_eq_none_iff.mp hfound word display hvalue] at hword
    cases hword

theorem ofValue?_eq_none_iff_named {value : Value} :
    ofValue? value = none ↔ ∀ display, ¬Named value display := by
  simp only [Option.eq_none_iff_forall_ne_some, ne_eq, ofValue?_eq_some_iff]

/-! ## 2. Tags -/

/-- The displays that go with tags, each tag once and in lower case. -/
def tagTable : List (String × Display) :=
  blockTags.map (·, .block) ++ ("li", .listItem) :: hiddenTags.map (·, .noBox)

theorem nodup_tagTable : (tagTable.map (·.1)).Nodup := by decide

theorem mem_tagTable_iff {tag : String} {display : Display} :
    (tag, display) ∈ tagTable ↔
      tag ∈ blockTags ∧ display = .block ∨ tag = "li" ∧ display = .listItem ∨
        tag ∈ hiddenTags ∧ display = .noBox := by
  simp [tagTable, eq_comm]

/-- The entry for a tag is found, since there is no other. -/
theorem ofTag?_eq_some_iff {tagName : String} {display : Display} :
    ofTag? tagName = some display ↔ (Ascii.lower tagName, display) ∈ tagTable := by
  have hapart : ∀ tag ∈ blockTags, tag ≠ "li" ∧ tag ∉ hiddenTags := by decide
  have hitem : "li" ∉ blockTags ∧ "li" ∉ hiddenTags := by decide
  rw [mem_tagTable_iff, ofTag?]
  generalize Ascii.lower tagName = tag
  simp only [List.contains_iff_mem]
  split
  · rename_i hblock
    simp [hblock, hapart tag hblock, eq_comm]
  rename_i hblock
  split
  · rename_i hli
    simp [hli, hitem, eq_comm]
  · rename_i hli
    simp [hblock, hli, eq_comm]

theorem ofTag?_eq_none_iff {tagName : String} :
    ofTag? tagName = none ↔ ∀ display, (Ascii.lower tagName, display) ∉ tagTable := by
  simp only [Option.eq_none_iff_forall_ne_some, ne_eq, ofTag?_eq_some_iff]

end Display

/-- The display of a node without a declaration. -/
inductive NodeKind.ComesAs : NodeKind → Display → Prop where
  | entry {e : Element} {display : Display}
      (h : (Ascii.lower e.tagName, display) ∈ Display.tagTable) : ComesAs (.element e) display
  | noEntry {e : Element} (h : ∀ display, (Ascii.lower e.tagName, display) ∉ Display.tagTable) :
      ComesAs (.element e) .inline
  | text (contents : String) : ComesAs (.text contents) .inline

theorem Styled.defaultDisplay_eq_iff {kind : NodeKind} {display : Display} :
    defaultDisplay kind.tagName? = display ↔ kind.ComesAs display := by
  cases kind with
  | text contents =>
    constructor
    · rintro rfl
      exact .text contents
    · intro h
      cases h
      rfl
  | element e =>
    show (Display.ofTag? e.tagName).getD .inline = display ↔ _
    constructor
    · rintro rfl
      cases hfound : Display.ofTag? e.tagName with
      | some d => exact .entry (Display.ofTag?_eq_some_iff.mp hfound)
      | none => exact .noEntry (Display.ofTag?_eq_none_iff.mp hfound)
    · intro h
      cases h with
      | entry hentry => rw [Display.ofTag?_eq_some_iff.mpr hentry, Option.getD_some]
      | noEntry hnone => rw [Display.ofTag?_eq_none_iff.mpr hnone, Option.getD_none]

/-! ## 3. Nodes -/

/-- The display of a node under a sheet. The declaration that wins is asked, and no other. -/
inductive Sheet.Displays (sheet : Sheet) (kind : NodeKind) : Display → Prop where
  | declared {c : Contender} {display : Display} (hwins : sheet.Wins kind "display" c)
      (hnamed : Display.Named c.declaration.value display) : Displays sheet kind display
  | undeclared {display : Display}
      (hnone : ∀ c d, sheet.Wins kind "display" c → ¬Display.Named c.declaration.value d)
      (hdefault : kind.ComesAs display) : Displays sheet kind display

namespace Sheet

variable {sheet : Sheet} {kind : NodeKind}

/-- A winner that names a display leaves no other. -/
theorem Wins.displays_iff {c : Contender} {d display : Display}
    (hwins : sheet.Wins kind "display" c) (hnamed : Display.Named c.declaration.value d) :
    sheet.Displays kind display ↔ d = display := by
  constructor
  · intro h
    cases h with
    | declared hwins' hnamed' =>
      rw [← hwins.declaration_eq hwins'] at hnamed'
      exact hnamed.unique hnamed'
    | undeclared hnone _ => exact absurd hnamed (hnone c d hwins)
  · rintro rfl
    exact .declared hwins hnamed

/-- Without such a winner a node is displayed as it comes. -/
theorem displays_iff_comesAs {display : Display}
    (hnone : ∀ c d, sheet.Wins kind "display" c → ¬Display.Named c.declaration.value d) :
    sheet.Displays kind display ↔ kind.ComesAs display := by
  constructor
  · intro h
    cases h with
    | declared hwins hnamed => exact absurd hnamed (hnone _ _ hwins)
    | undeclared _ hdefault => exact hdefault
  · exact .undeclared hnone

theorem displays_empty_iff {display : Display} :
    empty.Displays kind display ↔ kind.ComesAs display := by
  refine displays_iff_comesAs ?_
  rintro c d ⟨⟨rule, hrule, _⟩, _⟩
  cases hrule

/-- **A winner that names no display hides all others.** What remains is as under no sheet. -/
theorem Wins.displays_iff_empty {c : Contender} {display : Display}
    (hwins : sheet.Wins kind "display" c) (hnone : ∀ d, ¬Display.Named c.declaration.value d) :
    sheet.Displays kind display ↔ empty.Displays kind display := by
  rw [displays_empty_iff]
  refine displays_iff_comesAs fun c' d hwins' => ?_
  rw [← hwins.declaration_eq hwins']
  exact hnone d

/-- Nothing wins for a text. -/
theorem displays_text (sheet : Sheet) (contents : String) :
    sheet.Displays (.text contents) .inline := by
  refine .undeclared (fun c d hwins => ?_) (.text contents)
  obtain ⟨e, he⟩ := hwins.exists_element
  cases he

end Sheet

namespace Styled

/-- What the log holds does not enter into the display. -/
theorem fst_run_display (styled : Styled) (log : WarningLog) :
    (styled.display.run log).1 =
      ((styled.value "display").bind Display.ofValue?).getD
        (defaultDisplay styled.kind.tagName?) := by
  rw [display, run_resolveDisplay]

/-- **The display that is found** is that of the relation. -/
theorem run_display_eq_iff {sheet : Sheet} {node : Node} {log : WarningLog} {d : Display} :
    ((build node sheet).display.run log).1 = d ↔ sheet.Displays node.kind d := by
  have hvalue : ∀ v, (build node sheet).value "display" = some v ↔
      ∃ c, sheet.Wins node.kind "display" c ∧ c.declaration.value = v := by
    intro v
    rw [build, value_ofNode]
    exact Sheet.get?_eq_some_iff_wins
  rw [fst_run_display, kind_build]
  cases hfound : ((build node sheet).value "display").bind Display.ofValue? with
  | some d' =>
    obtain ⟨v, hv, hd'⟩ := Option.bind_eq_some_iff.mp hfound
    obtain ⟨c, hwins, rfl⟩ := (hvalue v).mp hv
    exact (hwins.displays_iff (Display.ofValue?_eq_some_iff.mp hd')).symm
  | none =>
    have hnone : ∀ c d, sheet.Wins node.kind "display" c →
        ¬Display.Named c.declaration.value d := by
      intro c d hwins
      rw [(hvalue _).mpr ⟨c, hwins, rfl⟩, Option.bind_some] at hfound
      exact Display.ofValue?_eq_none_iff_named.mp hfound d
    exact defaultDisplay_eq_iff.trans (Sheet.displays_iff_comesAs hnone).symm

end Styled

/-! ## 4. Documents -/

/-- **The display of a node**, whatever was said before. It is named by the declaration that wins
    the cascade, or else it is the one that the node comes with. A winner that names none hides
    every other declaration: the node is displayed as under no sheet. Texts are inline. -/
theorem display_build_iff (root : Node) (sheet : Sheet) (path : List Nat) (node : Node)
    (h : root.at? path = some node) :
    ∃ styled, (Styled.build root sheet).at? path = some styled ∧
      (∀ log d, (styled.display.run log).1 = d ↔ sheet.Displays node.kind d) ∧
      (∀ c, sheet.Wins node.kind "display" c → (∀ d, ¬Display.Named c.declaration.value d) →
        ∀ log log', (styled.display.run log).1 =
          ((Styled.build node .empty).display.run log').1) ∧
      ∀ contents, node.kind = .text contents → ∀ log, (styled.display.run log).1 = .inline := by
  refine ⟨Styled.build node sheet, ?_, ?_, ?_, ?_⟩
  · rw [Styled.at?_build, h]
    rfl
  · intro log d
    exact Styled.run_display_eq_iff
  · intro c hwins hnone log log'
    rw [Styled.run_display_eq_iff, hwins.displays_iff_empty hnone]
    exact Styled.run_display_eq_iff.mp rfl
  · intro contents htext log
    rw [Styled.run_display_eq_iff, htext]
    exact sheet.displays_text contents

/-- A class that asks for what there is not, before a tag that asks for a flex box. -/
def sidewaysSheet : Sheet :=
  ⟨[⟨[.cls "odd"], [⟨⟨"display", by decide⟩, .keyword "sideways"⟩]⟩,
    ⟨[.tag "LI"], [⟨⟨"display", by decide⟩, .keyword "flex"⟩]⟩]⟩

def oddItem : Node := .ofElement "LI" [("class", "odd")] []

theorem sidewaysSheet_wins :
    sidewaysSheet.Wins oddItem.kind "display"
      ⟨0, .cls "odd", 0, ⟨⟨"display", by decide⟩, .keyword "sideways"⟩⟩ :=
  Sheet.wins_of_heavier (by decide) rfl (by decide)

/-- The item is one of a list, and no flex box. -/
theorem display_build_oddItem :
    (Node.ofElement "ul" [] [oddItem]).at? [0] = some oddItem ∧
      ∃ styled, (Styled.build (.ofElement "ul" [] [oddItem]) sidewaysSheet).at? [0] = some styled ∧
        ∀ log, (styled.display.run log).1 = .listItem := by
  obtain ⟨styled, hat, -, hhides, -⟩ :=
    display_build_iff (.ofElement "ul" [] [oddItem]) sidewaysSheet [0] oddItem rfl
  have hnone : ∀ d, ¬Display.Named (.keyword "sideways") d :=
    Display.ofValue?_eq_none_iff_named.mp (by decide +kernel)
  refine ⟨rfl, styled, hat, fun log => ?_⟩
  rw [hhides _ sidewaysSheet_wins hnone log log, Styled.run_display_eq_iff,
    Sheet.displays_empty_iff]
  exact .entry (by decide +kernel)

end StyleEngine
