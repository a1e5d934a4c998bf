import Mathlib.Data.List.Basic
import Mathlib.Data.List.Induction
import StyleEngine.Proofs.Cascade.Mirror

/-!
# `Proofs/Cascade/Warnings.lean` — what becomes of warnings

A computation that may warn is a result and a list of warnings, and the log makes of the list
what is printed. Said so, the two can be looked at one by one.

* A log does with a list of warnings what it does with each in turn (`WarningLog.warnAll`). It
  remembers their lines (`mem_seen_warnAll`). A line is a component in brackets and a message,
  and it is the line of another warning too if the bracket and the space can be found further
  along (`Warning.key_eq_iff`). If the components are plain there is no such place, and every
  warning is given where it first occurs (`given_warnAll_empty`).
* The display of a node comes with one warning at most, about a declared value that is no
  display (`Styled.run_resolveDisplay`). The log is written and never read there: the display
  is the same under all logs. And the value is that of the declaration which wins the cascade,
  so nothing is said of those that lose, nor of texts (`Node.complaint?_eq_some_iff`).
-/

set_option autoImplicit false

namespace StyleEngine

/-! ## Lines -/

namespace Warning

theorem toList_key (w : Warning) :
    w.key.toList = '[' :: (w.component.toList ++ ']' :: ' ' :: w.message.toList) := by
  simp [key, String.toList_append, toString]

/-- What is printed of a warning, in yellow and with a line feed behind it. -/
theorem text_eq (w : Warning) :
    w.text = "\x1b[33m[Toy " ++ w.component ++ "] ⚠ " ++ w.message ++ "\x1b[39m\n" := by
  rw [← String.toList_inj]
  simp [text, Paint.apply, Paint.codes, Paint.switch, String.toList_append, toString]

/-- The component of the second goes on into the message of the first, over a bracket and a
    space that can be read as the end of either component. -/
def Shifted (w w' : Warning) : Prop :=
  ∃ piece, w'.component = w.component ++ "] " ++ piece ∧ w.message = piece ++ "] " ++ w'.message

theorem Shifted.key_eq {w w' : Warning} (h : w.Shifted w') : w.key = w'.key := by
  obtain ⟨piece, hcomponent, hmessage⟩ := h
  rw [← String.toList_inj, toList_key, toList_key, hcomponent, hmessage]
  simp [String.toList_append]

/-- A longer component on the other side takes up the bracket and the space. -/
theorem eq_or_shifted_of_append {w w' : Warning} {more : List Char}
    (hcomponent : w'.component.toList = w.component.toList ++ more)
    (hmessage : ']' :: ' ' :: w.message.toList = more ++ ']' :: ' ' :: w'.message.toList) :
    w = w' ∨ w.Shifted w' := by
  match more with
  | [] =>
    rw [List.append_nil] at hcomponent
    rw [List.nil_append, List.cons_inj_right, List.cons_inj_right] at hmessage
    obtain ⟨component, message⟩ := w
    rw [Warning.mk.injEq]
    exact Or.inl ⟨(String.toList_inj.mp hcomponent).symm, String.toList_inj.mp hmessage⟩
  | [c] =>
    obtain ⟨-, htail⟩ := List.cons.inj hmessage
    exact absurd (List.cons.inj htail).1 (by decide)
  | c :: d :: piece =>
    rw [List.cons_append, List.cons_append, List.cons.injEq, List.cons.injEq] at hmessage
    obtain ⟨rfl, rfl, hmessage⟩ := hmessage
    refine Or.inr ⟨String.ofList piece, ?_, ?_⟩
    · rw [← String.toList_inj, hcomponent]
      simp [String.toList_append]
    · rw [← String.toList_inj, hmessage]
      simp [String.toList_append]

/-- **What a line tells apart.** -/
theorem key_eq_iff {w w' : Warning} :
    w.key = w'.key ↔ w = w' ∨ w.Shifted w' ∨ w'.Shifted w := by
  constructor
  · intro hkey
    have hlist := congrArg String.toList hkey
    rw [toList_key, toList_key, List.cons_inj_right] at hlist
    rcases List.append_eq_append_iff.mp hlist with ⟨more, hcomponent, hmessage⟩ |
      ⟨more, hcomponent, hmessage⟩
    · exact (eq_or_shifted_of_append hcomponent hmessage).imp_right Or.inl
    · exact (eq_or_shifted_of_append hcomponent hmessage).imp Eq.symm Or.inr
  · rintro (rfl | hshifted | hshifted)
    · rfl
    · exact hshifted.key_eq
    · exact hshifted.key_eq.symm

/-- A component in which no bracket is followed by a space. -/
def IsPlain (w : Warning) : Prop :=
  ¬ [']', ' '] <:+: w.component.toList

theorem Shifted.not_isPlain {w w' : Warning} (h : w.Shifted w') : ¬ w'.IsPlain := by
  obtain ⟨piece, hcomponent, -⟩ := h
  rw [IsPlain, Decidable.not_not, hcomponent]
  exact ⟨w.component.toList, piece.toList, by simp [String.toList_append]⟩

/-- The line of a warning is its own, as long as the components are plain. -/
theorem eq_of_key {w w' : Warning} (h : w.IsPlain) (h' : w'.IsPlain) (hkey : w.key = w'.key) :
    w = w' := by
  rcases key_eq_iff.mp hkey with heq | hshifted | hshifted
  · exact heq
  · exact absurd h' hshifted.not_isPlain
  · exact absurd h hshifted.not_isPlain

end Warning

/-! ## Logs -/

namespace WarningLog

/-- Gives warnings one after the other, none of them twice. -/
def warnAll (log : WarningLog) (ws : List Warning) : WarningLog :=
  ws.foldl warnOnce log

@[simp] theorem warnAll_nil (log : WarningLog) : log.warnAll [] = log :=
  rfl

@[simp] theorem warnAll_singleton (log : WarningLog) (w : Warning) :
    log.warnAll [w] = log.warnOnce w :=
  rfl

theorem warnAll_append (log : WarningLog) (ws ws' : List Warning) :
    log.warnAll (ws ++ ws') = (log.warnAll ws).warnAll ws' :=
  List.foldl_append

theorem mem_seen_warnOnce {log : WarningLog} {w : Warning} {line : String} :
    line ∈ (log.warnOnce w).seen ↔ line ∈ log.seen ∨ w.key = line := by
  rw [warnOnce]
  split
  · rename_i hseen
    refine ⟨Or.inl, fun h => h.elim id fun hline => ?_⟩
    rw [← hline]
    exact List.contains_iff_mem.mp hseen
  · rw [List.mem_cons, or_comm, eq_comm]

theorem mem_seen_warnAll {log : WarningLog} {ws : List Warning} {line : String} :
    line ∈ (log.warnAll ws).seen ↔ line ∈ log.seen ∨ ∃ w ∈ ws, w.key = line := by
  induction ws generalizing log with
  | nil => simp
  | cons w ws ih =>
    rw [warnAll, List.foldl_cons]
    exact ih.trans (by rw [mem_seen_warnOnce, List.exists_mem_cons_iff, or_assoc])

theorem given_warnOnce (log : WarningLog) (w : Warning) :
    (log.warnOnce w).given = if w.key ∈ log.seen then log.given else log.given ++ [w] := by
  rw [warnOnce]
  simp only [List.contains_iff_mem]
  split <;> rfl

/-- **What a new log gives**: every warning once, where it first occurs. -/
theorem given_warnAll_empty {ws : List Warning} (h : ∀ w ∈ ws, w.IsPlain) :
    (empty.warnAll ws).given = ws.eraseDups := by
  induction ws using List.reverseRecOn with
  | nil => rfl
  | append_singleton ws w ih =>
    obtain ⟨hws, hw⟩ := List.forall_mem_append.mp h
    rw [List.forall_mem_singleton] at hw
    -- The line of `w` is remembered only if `w` was there before.
    have hseen : w.key ∈ (empty.warnAll ws).seen ↔ w ∈ ws := by
      rw [mem_seen_warnAll]
      constructor
      · rintro (hnone | ⟨w', hw', hkey⟩)
        · cases hnone
        · rwa [← Warning.eq_of_key (hws w' hw') hw hkey]
      · exact fun hmem => Or.inr ⟨w, hmem, rfl⟩
    rw [warnAll_append, warnAll_singleton, given_warnOnce, ih hws, List.eraseDups_append]
    simp only [hseen]
    split
    · rename_i hmem
      simp [List.removeAll, hmem]
    · rename_i hnew
      simp [List.removeAll, hnew, List.eraseDups_cons]

end WarningLog

/-! ## Displays -/

namespace Display

theorem mem_all (display : Display) : display ∈ all := by
  cases display <;> decide

/-- A value asks for no display unless it is a word that is a keyword but for case. -/
theorem ofValue?_eq_none_iff {value : Value} :
    ofValue? value = none ↔ ∀ (word : String) (display : Display), value = .keyword word →
      Ascii.sameIgnoringCase word display.keyword = false := by
  rw [ofValue?, Option.bind_eq_none_iff]
  constructor
  · rintro h word display rfl
    have hnone := List.find?_eq_none.mp (h word rfl) display (mem_all display)
    exact eq_false_of_ne_true hnone
  · intro h word hword
    have hvalue : value = .keyword word := by
      cases value with
      | keyword word' => exact congrArg Value.keyword (Option.some.inj hword)
      | _ => cases hword
    refine List.find?_eq_none.mpr fun display _ => ?_
    rw [h word display hvalue]
    exact Bool.false_ne_true

end Display

namespace Styled

/-- What is said of a value that is declared for the display, if anything is. -/
def complaint? (value : Value) : Option Warning :=
  match Display.ofValue? value with
  | some _ => none
  | none => some (displayWarning value)

theorem complaint?_eq_some_iff {value : Value} {w : Warning} :
    complaint? value = some w ↔ Display.ofValue? value = none ∧ w = displayWarning value := by
  rw [complaint?]
  split
  · rename_i hsome
    simp [hsome]
  · rename_i hnone
    simp [hnone, eq_comm]

theorem run_displayOf (value : Value) (log : WarningLog) :
    (displayOf value).run log = (Display.ofValue? value, log.warnAll (complaint? value).toList) := by
  rw [displayOf, complaint?]
  cases Display.ofValue? value <;> rfl

/-- **The display of a node and what is said of it.** -/
theorem run_resolveDisplay (tagName : Option String) (declared : Option Value) (log : WarningLog) :
    (resolveDisplay tagName declared).run log =
      ((declared.bind Display.ofValue?).getD (defaultDisplay tagName),
        log.warnAll (declared.bind complaint?).toList) := by
  cases declared with
  | none => rfl
  | some value =>
    rw [resolveDisplay, StateT.run_bind, run_displayOf]
    cases hdisplay : Display.ofValue? value <;> simp [hdisplay] <;> rfl

end Styled

/-! ## Nodes -/

/-- What is said of the display of a node under a sheet, if anything is. -/
def Node.complaint? (sheet : Sheet) (node : Node) : Option Warning :=
  ((Styled.build node sheet).value "display").bind Styled.complaint?

theorem Node.complaint?_eq (sheet : Sheet) (node : Node) :
    node.complaint? sheet =
      ((specificValues sheet.bySpecificity.rules node.kind).get? "display").bind
        Styled.complaint? := by
  rw [complaint?, Styled.build, Styled.value_ofNode]

theorem Node.complaint?_eq_some_iff {sheet : Sheet} {node : Node} {w : Warning} :
    node.complaint? sheet = some w ↔ ∃ e c, node.kind = .element e ∧
      sheet.Wins node.kind "display" c ∧
      (∀ (word : String) (display : Display), c.declaration.value = .keyword word →
        Ascii.sameIgnoringCase word display.keyword = false) ∧
      w = Styled.displayWarning c.declaration.value := by
  rw [Node.complaint?_eq, Option.bind_eq_some_iff]
  constructor
  · rintro ⟨value, hvalue, hw⟩
    obtain ⟨c, hwins, rfl⟩ := Sheet.get?_eq_some_iff_wins.mp hvalue
    obtain ⟨e, he⟩ := hwins.exists_element
    obtain ⟨hnone, rfl⟩ := Styled.complaint?_eq_some_iff.mp hw
    exact ⟨e, c, he, hwins, Display.ofValue?_eq_none_iff.mp hnone, rfl⟩
  · rintro ⟨e, c, _, hwins, hnone, rfl⟩
    exact ⟨c.declaration.value, Sheet.get?_eq_some_iff_wins.mpr ⟨c, hwins, rfl⟩,
      Styled.complaint?_eq_some_iff.mpr ⟨Display.ofValue?_eq_none_iff.mpr hnone, rfl⟩⟩

theorem Node.complaint?_text (sheet : Sheet) (contents : String) (children : List Node) :
    complaint? sheet ⟨.text contents, children⟩ = none := by
  rw [complaint?_eq, specificValues_text, Dict.get?_empty, Option.bind_none]

/-- What is said of nodes, one after the other. -/
def Node.complaints (sheet : Sheet) (nodes : List Node) : List Warning :=
  nodes.filterMap (Node.complaint? sheet)

theorem Node.complaints_cons (sheet : Sheet) (node : Node) (nodes : List Node) :
    Node.complaints sheet (node :: nodes) =
      (node.complaint? sheet).toList ++ Node.complaints sheet nodes := by
  rw [complaints, List.filterMap_cons]
  cases node.complaint? sheet <;> rfl

theorem Node.complaints_append (sheet : Sheet) (nodes others : List Node) :
    Node.complaints sheet (nodes ++ others) =
      Node.complaints sheet nodes ++ Node.complaints sheet others :=
  List.filterMap_append

end StyleEngine
