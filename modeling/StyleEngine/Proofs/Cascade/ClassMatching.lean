import Mathlib.Data.List.Basic
import StyleEngine.Cascade.Matching

/-!
# `Proofs/Cascade/ClassMatching.lean` — a class is a whole word

An element has the classes that are left when the value of its `class` attribute is cut at
spaces. Which these are can be said without cutting anything: a class is a part of the value in
which there is no space, and next to which, on both sides, there is a space or nothing
(`Ascii.IsWordOf`). That a name also occurs inside of longer words is no obstacle, so the first
place where it is found does not decide.

The two are compared for lists that are cut at any kind of member (`mem_splitOnP_iff`). A list
has a first piece and, behind a separator, a rest that is cut in the same way. From the pieces
to their places it is this that the induction follows. Back there is nothing to follow, since
cutting at one separator leaves what is on both sides of it as it is.

**`matches_cls_iff`** is what comes of it for selectors.
-/

set_option autoImplicit false

namespace StyleEngine

/-! ## 1. Pieces of a list -/

section Pieces

variable {α : Type} {p : α → Bool} {piece : List α}

/-- A part of a list that has no separator in it, and a separator or nothing next to it. -/
def IsPiece (p : α → Bool) (piece l : List α) : Prop :=
  (∀ x ∈ piece, p x = false) ∧ ∃ front back, l = front ++ piece ++ back ∧
    (∀ x ∈ front.getLast?, p x = true) ∧ ∀ x ∈ back.head?, p x = true

/-- A list without a separator, or its first piece and what is behind the separator. -/
theorem cut_first (p : α → Bool) (l : List α) :
    (∀ x ∈ l, p x = false) ∨
      ∃ first sep rest, l = first ++ sep :: rest ∧ (∀ x ∈ first, p x = false) ∧ p sep = true := by
  cases hfind : l.find? p with
  | none => exact .inl fun x hx => eq_false_of_ne_true (List.find?_eq_none.mp hfind x hx)
  | some sep =>
    obtain ⟨hsep, first, rest, hl, hfirst⟩ := List.find?_eq_some_iff_append.mp hfind
    exact .inr ⟨first, sep, rest, hl, fun x hx => by simpa using hfirst x hx, hsep⟩

theorem forall_mem_getLast?_append {first front : List α} {sep : α} (hsep : p sep = true)
    (hfront : ∀ x ∈ front.getLast?, p x = true) :
    ∀ x ∈ (first ++ sep :: front).getLast?, p x = true := by
  rw [List.getLast?_append_cons, List.getLast?_cons]
  cases hlast : front.getLast? with
  | none => simpa using hsep
  | some y => simpa using hfront y hlast

theorem isPiece_of_mem_splitOnP {l : List α} (h : piece ∈ l.splitOnP p) : IsPiece p piece l := by
  rcases cut_first p l with hnone | ⟨first, sep, rest, hl, hfirst, hsep⟩
  · rw [List.splitOnP_eq_singleton hnone, List.mem_singleton] at h
    subst h
    exact ⟨hnone, [], [], (List.append_nil _).symm, nofun, nofun⟩
  · rw [hl, List.splitOnP_append_cons_of_forall_mem hfirst sep hsep, List.mem_cons] at h
    rcases h with rfl | h
    · exact ⟨hfirst, [], sep :: rest, hl, nofun, by simpa using hsep⟩
    · have hshorter : rest.length < l.length := by
        rw [hl, List.length_append, List.length_cons]
        omega
      obtain ⟨hpiece, front, back, hrest, hfront, hback⟩ := isPiece_of_mem_splitOnP h
      exact ⟨hpiece, first ++ sep :: front, back, by simp [hl, hrest],
        forall_mem_getLast?_append hsep hfront, hback⟩
termination_by l.length

theorem IsPiece.mem_splitOnP {l : List α} (h : IsPiece p piece l) : piece ∈ l.splitOnP p := by
  obtain ⟨hpiece, front, back, rfl, hfront, hback⟩ := h
  -- The separator behind the piece makes it the first piece from where it begins.
  obtain ⟨others, hothers⟩ : ∃ others, (piece ++ back).splitOnP p = piece :: others := by
    cases back with
    | nil =>
      rw [List.append_nil, List.splitOnP_eq_singleton hpiece]
      exact ⟨[], rfl⟩
    | cons sep back =>
      exact ⟨_, List.splitOnP_append_cons_of_forall_mem hpiece sep (hback sep rfl) back⟩
  rw [List.append_assoc]
  rcases List.eq_nil_or_concat' front with rfl | ⟨before, sep, rfl⟩
  · rw [List.nil_append, hothers]
    exact List.mem_cons_self
  · have hsep : p sep = true := hfront sep (by simp)
    rw [List.append_assoc, List.singleton_append, List.splitOnP_append_cons _ _ hsep, hothers]
    exact List.mem_append_right _ List.mem_cons_self

/-- **What a list is cut into.** -/
theorem mem_splitOnP_iff {l : List α} : piece ∈ l.splitOnP p ↔ IsPiece p piece l :=
  ⟨isPiece_of_mem_splitOnP, IsPiece.mem_splitOnP⟩

end Pieces

/-! ## 2. Words of a text -/

namespace Ascii

variable {name text : String}

/-- The name is a word of the text: it is not empty and has no space in it, what the text has in
    front of it is empty or ends in a space, and what it has behind it is empty or begins with
    one. -/
def IsWordOf (name text : String) : Prop :=
  name ≠ "" ∧ (∀ c ∈ name.toList, isSpace c = false) ∧
    ∃ front back : String, text = front ++ name ++ back ∧
      (front = "" ∨ ∃ c, front.toList.getLast? = some c ∧ isSpace c = true) ∧
      (back = "" ∨ ∃ c, back.toList.head? = some c ∧ isSpace c = true)

theorem ends_iff (s : String) :
    (s = "" ∨ ∃ c, s.toList.getLast? = some c ∧ isSpace c = true) ↔
      ∀ c ∈ s.toList.getLast?, isSpace c = true := by
  rw [← String.toList_eq_nil_iff, ← List.getLast?_eq_none_iff]
  cases s.toList.getLast? <;> simp

theorem begins_iff (s : String) :
    (s = "" ∨ ∃ c, s.toList.head? = some c ∧ isSpace c = true) ↔
      ∀ c ∈ s.toList.head?, isSpace c = true := by
  rw [← String.toList_eq_nil_iff, ← List.head?_eq_none_iff]
  cases s.toList.head? <;> simp

theorem isWordOf_iff : IsWordOf name text ↔
    name ≠ "" ∧ IsPiece isSpace name.toList text.toList := by
  rw [IsWordOf, IsPiece]
  refine and_congr_right fun _ => and_congr_right fun _ => ?_
  constructor
  · rintro ⟨front, back, rfl, hfront, hback⟩
    refine ⟨front.toList, back.toList, ?_, (ends_iff front).mp hfront, (begins_iff back).mp hback⟩
    rw [String.toList_append, String.toList_append]
  · rintro ⟨front, back, htext, hfront, hback⟩
    refine ⟨String.ofList front, String.ofList back, ?_, ?_, ?_⟩
    · rw [← String.toList_inj, htext]
      simp [String.toList_append]
    · rwa [ends_iff, String.toList_ofList]
    · rwa [begins_iff, String.toList_ofList]

/-- **Cutting finds the words.** -/
theorem mem_words_iff : name ∈ words text ↔ IsWordOf name text := by
  rw [isWordOf_iff, words, List.mem_map]
  constructor
  · rintro ⟨piece, hpiece, rfl⟩
    obtain ⟨hmem, hne⟩ := List.mem_filter.mp hpiece
    rw [String.toList_ofList, ← mem_splitOnP_iff]
    refine ⟨fun hempty => ?_, hmem⟩
    rw [String.ofList_eq_empty_iff.mp hempty] at hne
    cases hne
  · rintro ⟨hne, hpiece⟩
    refine ⟨name.toList, List.mem_filter.mpr ⟨mem_splitOnP_iff.mpr hpiece, ?_⟩, by simp⟩
    simpa using hne

end Ascii

/-! ## 3. Classes of an element -/

theorem Element.mem_classes_iff {e : Element} {name : String} :
    name ∈ e.classes ↔ ∃ text, e.attributes.get? "class" = some text ∧ Ascii.IsWordOf name text := by
  rw [classes]
  cases e.attributes.get? "class" with
  | none => simp
  | some text => simp [Ascii.mem_words_iff]

theorem Selector.matches_cls {e : Element} {name : String} :
    (cls name).matches (.element e) = true ↔ name ∈ e.classes :=
  List.contains_iff_mem

/-- **A class selector is about the elements that have its name as a word.** So it cannot tell
    elements with the same words apart. It is about none if its name is empty or has a space in
    it, nor if the name goes on, in front of it or behind it, wherever it is found. -/
theorem matches_cls_iff (e : Element) (name : String) :
    ((Selector.cls name).matches (.element e) = true ↔
      ∃ text, e.attributes.get? "class" = some text ∧ Ascii.IsWordOf name text) ∧
    (∀ e' : Element, (∀ word, word ∈ e.classes ↔ word ∈ e'.classes) →
      (Selector.cls name).matches (.element e) = (Selector.cls name).matches (.element e')) ∧
    (name = "" ∨ (∃ c ∈ name.toList, Ascii.isSpace c = true) →
      (Selector.cls name).matches (.element e) = false) ∧
    ((∀ text front back : String, e.attributes.get? "class" = some text →
        text = front ++ name ++ back →
        (∃ c, front.toList.getLast? = some c ∧ Ascii.isSpace c = false) ∨
          ∃ c, back.toList.head? = some c ∧ Ascii.isSpace c = false) →
      (Selector.cls name).matches (.element e) = false) := by
  have hword : (Selector.cls name).matches (.element e) = true ↔
      ∃ text, e.attributes.get? "class" = some text ∧ Ascii.IsWordOf name text :=
    Selector.matches_cls.trans Element.mem_classes_iff
  refine ⟨hword, fun e' hclasses => ?_, fun hname => ?_, fun hlonger => ?_⟩
  · rw [Bool.eq_iff_iff, Selector.matches_cls, Selector.matches_cls, hclasses]
  · rw [← Bool.not_eq_true, hword]
    rintro ⟨text, -, hne, hspaces, -⟩
    rcases hname with hempty | ⟨c, hc, hspace⟩
    · exact hne hempty
    · rw [hspaces c hc] at hspace
      cases hspace
  · rw [← Bool.not_eq_true, hword]
    rintro ⟨text, htext, -, -, front, back, hsplit, hfront, hback⟩
    rw [Ascii.ends_iff] at hfront
    rw [Ascii.begins_iff] at hback
    rcases hlonger text front back htext hsplit with ⟨c, hc, hletter⟩ | ⟨c, hc, hletter⟩
    · rw [hfront c hc] at hletter
      cases hletter
    · rw [hback c hc] at hletter
      cases hletter

/-- The name that is looked for begins a longer word before it is one, and a no-break space
    separates nothing. -/
def taggedItem : Element :=
  ⟨"li", .ofList [("class", "notes\tnote big\u00a0note")]⟩

/-- The same words in another order, and one of them twice. -/
def retaggedItem : Element :=
  ⟨"p", .ofList [("class", "\nbig\u00a0note  note notes note")]⟩

theorem mem_classes_taggedItem (word : String) :
    word ∈ taggedItem.classes ↔ word ∈ retaggedItem.classes := by
  have htagged : taggedItem.classes = ["notes", "note", "big\u00a0note"] := by decide +kernel
  have hretagged : retaggedItem.classes = ["big\u00a0note", "note", "notes", "note"] := by
    decide +kernel
  rw [htagged, hretagged]
  simp only [List.mem_cons, List.not_mem_nil]
  tauto

/-- In `bar` there is something behind `ba`. -/
theorem goesOn_of_bar {front back : String} (h : "bar" = front ++ "ba" ++ back) :
    ∃ c, back.toList.head? = some c ∧ Ascii.isSpace c = false := by
  have hlist := congrArg String.toList h
  simp only [String.toList_append] at hlist
  match front.toList, hlist with
  | [], hlist =>
    have hback : ['r'] = back.toList := by simpa using hlist
    exact ⟨'r', by rw [← hback]; rfl, by decide⟩
  | [_], hlist => simp at hlist
  | [_, _], hlist => simp at hlist
  | _ :: _ :: _ :: front, hlist =>
    have hlength := congrArg List.length hlist
    simp at hlength

theorem matches_cls_taggedItem :
    Ascii.IsWordOf "note" "notes\tnote big\u00a0note" ∧
    (Selector.cls "note").matches (.element taggedItem) = true ∧
    (Selector.cls "note").matches (.element taggedItem) =
      (Selector.cls "note").matches (.element retaggedItem) ∧
    (Selector.cls "note big\u00a0note").matches (.element taggedItem) = false ∧
    (Selector.cls "ba").matches (.element ⟨"p", .ofList [("class", "bar")]⟩) = false := by
  have hletters : ∀ c ∈ "note".toList, Ascii.isSpace c = false := by
    simp [Ascii.isSpace]
  have hfront : "notes\t".toList.getLast? = some '\t' := by decide +kernel
  have hback : " big\u00a0note".toList.head? = some ' ' := by decide +kernel
  have hword : Ascii.IsWordOf "note" "notes\tnote big\u00a0note" :=
    ⟨by decide, hletters, "notes\t", " big\u00a0note", rfl, .inr ⟨'\t', hfront, rfl⟩,
      .inr ⟨' ', hback, rfl⟩⟩
  refine ⟨hword, ?_, ?_, ?_, ?_⟩
  · exact (matches_cls_iff taggedItem "note").1.mpr ⟨_, rfl, hword⟩
  · exact (matches_cls_iff taggedItem "note").2.1 retaggedItem mem_classes_taggedItem
  · exact (matches_cls_iff taggedItem "note big\u00a0note").2.2.1 (.inr ⟨' ', by decide, rfl⟩)
  · refine (matches_cls_iff _ "ba").2.2.2 fun text front back htext hsplit => ?_
    obtain rfl : "bar" = text := Option.some.inj htext
    exact .inr (goesOn_of_bar hsplit)

end StyleEngine
