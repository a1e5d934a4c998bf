import Mathlib.Logic.Relation
import StyleEngine.Proofs.Css.EndOfText

/-!
# `Proofs/Css/Respacing.lean` — spaces do not matter where they may stand

Every point of the table takes a space and stays where it is, with two exceptions. Behind the
point of a class selector a space is wrong. Directly behind a selector it leads to another
point, `selectorGap` in place of `selectorEnd`, and the two differ: what touches a selector and
what is apart from it are at fault for different causes. But they are at fault both, so the two
points accept the same tokens and come to the same rules (`Progress.rules?_behindSpace`).

That is all a single space can do. An edit in the middle of a list is carried there by the
reader, who comes to the same point with both lists, if it comes there at all
(`Progress.rules?_append_imp`). **`ofTokens_respaced`** follows edit by edit, for any number of
them in any order. Its second half is the exception: in the middle of a class selector a space
is a fault, and what it is called does not depend on the rest of the sheet.
-/

set_option autoImplicit false

namespace StyleEngine

/-! ## 1. Edits -/

/-- One space less, or one more. None is put directly behind a point. -/
inductive SpaceEdit : List PlacedToken → List PlacedToken → Prop where
  | delete (before behind : List PlacedToken) {w : PlacedToken} (hw : w.token = .whitespace) :
      SpaceEdit (before ++ w :: behind) (before ++ behind)
  | insert (before behind : List PlacedToken) {w : PlacedToken} (hw : w.token = .whitespace)
      (hpoint : ∀ t, before.getLast? = some t → t.token ≠ .delim '.') :
      SpaceEdit (before ++ behind) (before ++ w :: behind)

/-- The same tokens but for spaces, which may be fewer, more, and in other places. -/
def Respaced : List PlacedToken → List PlacedToken → Prop :=
  Relation.ReflTransGen SpaceEdit

/-! ## 2. One space -/

namespace Progress

/-- The point behind a space. -/
def behindSpace : Progress → Progress
  | .selectorEnd ss => .selectorGap ss
  | p => p

theorem step_whitespace {p : Progress} (hp : ∀ ss, p ≠ .className ss) :
    p.step .whitespace = .next p.behindSpace := by
  cases p with
  | className ss => exact absurd rfl (hp ss)
  | _ => rfl

/-- What is wrong directly behind a selector is wrong behind a space, too. -/
theorem stepSelectorEnd_agrees (ss : List Selector) (t : Token) :
    (stepSelectorEnd ss t).Agrees (stepSelectorGap ss t) := by
  unfold stepSelectorEnd
  split
  case h_1 => exact .inr ⟨rfl, rfl⟩
  case h_2 => exact .inr ⟨rfl, rfl⟩
  case h_3 =>
    split
    case isFalse => exact .inl rfl
    case isTrue hstarts =>
      refine .inr ⟨rfl, ?_⟩
      unfold stepSelectorGap
      split
      case h_5 => rw [hstarts, Bool.or_true, if_pos rfl, Step.isFail]
      all_goals cases hstarts

/-- **A space changes nothing of what may follow.** -/
theorem rules?_behindSpace (p : Progress) (ts : List Token) :
    p.behindSpace.rules? ts = p.rules? ts := by
  cases p with
  | selectorEnd ss =>
    cases ts with
    | nil => rfl
    | cons t ts =>
      have hagrees := stepSelectorEnd_agrees ss t
      exact (@rules?_cons_of_agrees (selectorEnd ss) (selectorGap ss) t t ts ts hagrees
        (fun _ _ => rfl) (fun _ _ => rfl)).symm
  | _ => rfl

theorem rules?_whitespace {p : Progress} (hp : ∀ ss, p ≠ .className ss) (ts : List Token) :
    p.rules? (.whitespace :: ts) = p.rules? ts := by
  rw [rules?, step_whitespace hp]
  exact rules?_behindSpace p ts

/-! ## 3. An edit behind tokens -/

/-- What is accepted from the point behind tokens is accepted behind these tokens. -/
theorem rules?_append_imp {p : Progress} {before us us' : List Token} {rules : List Rule}
    (h : ∀ q rules, p.after? before = some q → q.rules? us = some rules →
      q.rules? us' = some rules)
    (hus : p.rules? (before ++ us) = some rules) : p.rules? (before ++ us') = some rules := by
  induction before generalizing p rules with
  | nil => exact h p rules rfl hus
  | cons t before ih =>
    simp only [after?_cons, next?] at h
    rw [List.cons_append, rules?] at hus ⊢
    cases hstep : p.step t with
    | next q =>
      rw [hstep] at h hus
      exact ih h hus
    | close rule =>
      rw [hstep] at h hus
      obtain ⟨rest, hrest, hrules⟩ := Option.map_eq_some_iff.mp hus
      exact Option.map_eq_some_iff.mpr ⟨rest, ih h hrest, hrules⟩
    | finish =>
      -- The sheet is over, and what follows is not looked at.
      rw [hstep] at hus
      exact hus
    | fail cause taken =>
      rw [hstep] at hus
      cases hus

end Progress

theorem Sheet.ofTokens_append_imp {before us us' : List PlacedToken} {sheet : Sheet}
    (h : ∀ q rules, Progress.top.after? (before.map (·.token)) = some q →
      q.rules? (us.map (·.token)) = some rules → q.rules? (us'.map (·.token)) = some rules)
    (hus : ofTokens (before ++ us) = .ok sheet) : ofTokens (before ++ us') = .ok sheet := by
  rw [ofTokens_eq_ok, List.map_append] at hus ⊢
  exact Progress.rules?_append_imp h hus

/-! ## 4. Sheets -/

/-- A single edit leaves the sheet what it was. -/
theorem SpaceEdit.ofTokens_eq_ok {ts us : List PlacedToken} {sheet : Sheet}
    (h : SpaceEdit ts us) (hts : Sheet.ofTokens ts = .ok sheet) : Sheet.ofTokens us = .ok sheet := by
  cases h with
  | delete before behind hw =>
    refine Sheet.ofTokens_append_imp ?_ hts
    intro q rules _ hrules
    rw [List.map_cons, hw] at hrules
    cases q with
    | className ss => cases hrules
    | _ =>
      rw [Progress.rules?_whitespace (by simp)] at hrules
      exact hrules
  | insert before behind hw hpoint =>
    refine Sheet.ofTokens_append_imp ?_ hts
    intro q rules hafter hrules
    have hname : ∀ ss, q ≠ .className ss := by
      intro ss hq
      have hlast := (Progress.after?_className_iff hafter).mp ⟨ss, hq⟩
      rw [List.getLast?_map] at hlast
      obtain ⟨t, ht, htoken⟩ := Option.map_eq_some_iff.mp hlast
      exact hpoint t ht htoken
    rw [List.map_cons, hw, Progress.rules?_whitespace hname]
    exact hrules

/-- Only a name follows the point of a class selector. -/
theorem exists_name_of_verdict {ss : List Selector} {t : PlacedToken} {ts : List PlacedToken}
    {rules : List Rule} (h : (Progress.className ss).verdict (t :: ts) = .ok rules) :
    ∃ name, t.token = .ident name := by
  obtain ⟨token, position⟩ := t
  cases token with
  | ident name => exact ⟨name, rfl⟩
  | _ => cases h

/-- In a sheet, a point leads to where the name of a class must follow. -/
theorem exists_after?_point {before behind : List PlacedToken} {dot : PlacedToken} {sheet : Sheet}
    (h : Sheet.ofTokens (before ++ dot :: behind) = .ok sheet)
    (hbefore : ∀ t ∈ before, t.token ≠ .eof) (hdot : dot.token = .delim '.') :
    ∃ ss, Progress.top.after? ((before ++ [dot]).map (·.token)) = some (.className ss) := by
  have hnoEnd : ∀ t ∈ before ++ [dot], t.token ≠ .eof := by
    refine List.forall_mem_append.mpr ⟨hbefore, List.forall_mem_singleton.mpr ?_⟩
    rw [hdot]
    exact Token.noConfusion
  have hbegins : BeginsSheet (before ++ [dot]) := by
    refine ⟨behind, sheet, ?_⟩
    rw [List.append_assoc]
    exact h
  obtain ⟨q, hq⟩ := exists_after?_of_beginsSheet hnoEnd hbegins
  have hlast : ((before ++ [dot]).map (·.token)).getLast? = some (.delim '.') := by
    rw [List.map_append, List.map_singleton, List.getLast?_concat, hdot]
  obtain ⟨ss, rfl⟩ := (Progress.after?_className_iff hq).mpr hlast
  exact ⟨ss, hq⟩

/-- **Spaces do not matter.** Tokens that spell a sheet spell it with spaces taken away, and
    with spaces put in anywhere but directly behind a point. A point in a sheet is that of a
    class selector, with a name behind it, and a space between the two is always a fault. -/
theorem ofTokens_respaced {ts : List PlacedToken} {sheet : Sheet}
    (h : Sheet.ofTokens ts = .ok sheet) :
    (∀ us, Respaced ts us → Sheet.ofTokens us = .ok sheet) ∧
    ∀ before dot next behind, ts = before ++ dot :: next :: behind →
      (∀ t ∈ before, t.token ≠ .eof) → dot.token = .delim '.' →
      (∃ name, next.token = .ident name) ∧
      ∀ w, w.token = .whitespace →
        Sheet.verdict (before ++ dot :: w :: next :: behind) =
          .error (.unexpectedToken "<whitespace>" .classSelector) := by
  refine ⟨?_, ?_⟩
  · intro us hus
    induction hus with
    | refl => exact h
    | tail _ hedit ih => exact hedit.ofTokens_eq_ok ih
  · intro before dot next behind hts hbefore hdot
    rw [hts] at h
    obtain ⟨ss, hpoint⟩ := exists_after?_point h hbefore hdot
    obtain ⟨f, hf⟩ := Progress.exists_verdict_append hpoint
    have hread : ∀ us, Sheet.verdict (before ++ dot :: us) =
        (((Progress.className ss).verdict us).map f).map Sheet.mk := by
      intro us
      rw [← hf us, ← Sheet.verdict_eq, List.append_assoc, List.singleton_append]
    refine ⟨?_, ?_⟩
    · rw [Sheet.ofTokens_eq_ok_iff_verdict, hread] at h
      cases hverdict : (Progress.className ss).verdict (next :: behind) with
      | error cause =>
        rw [hverdict] at h
        cases h
      | ok rules => exact exists_name_of_verdict hverdict
    · intro w hw
      rw [hread, Progress.verdict_cons, hw]
      rfl

/-- `.a ,b{}`, and the same with the space behind the comma. -/
def spacedBefore : List PlacedToken :=
  [⟨.delim '.', ⟨0, 1, 1⟩⟩, ⟨.ident "a", ⟨1, 1, 2⟩⟩, ⟨.whitespace, ⟨2, 1, 3⟩⟩,
    ⟨.comma, ⟨3, 1, 4⟩⟩, ⟨.ident "b", ⟨4, 1, 5⟩⟩, ⟨.openBrace, ⟨5, 1, 6⟩⟩,
    ⟨.closeBrace, ⟨6, 1, 7⟩⟩]

def spacedBehind : List PlacedToken :=
  [⟨.delim '.', ⟨0, 1, 1⟩⟩, ⟨.ident "a", ⟨1, 1, 2⟩⟩, ⟨.comma, ⟨3, 1, 4⟩⟩,
    ⟨.whitespace, ⟨4, 1, 5⟩⟩, ⟨.ident "b", ⟨4, 1, 5⟩⟩, ⟨.openBrace, ⟨5, 1, 6⟩⟩,
    ⟨.closeBrace, ⟨6, 1, 7⟩⟩]

theorem respaced_spacedBefore : Respaced spacedBefore spacedBehind := by
  have hspace : (⟨.whitespace, ⟨4, 1, 5⟩⟩ : PlacedToken).token = .whitespace := rfl
  have hdelete := SpaceEdit.delete (spacedBefore.take 2) (spacedBefore.drop 3)
    (w := ⟨.whitespace, ⟨2, 1, 3⟩⟩) rfl
  have hinsert := SpaceEdit.insert (spacedBehind.take 3) (spacedBehind.drop 4) hspace (by decide)
  exact (Relation.ReflTransGen.single hdelete).tail hinsert

theorem ofTokens_spacedBehind :
    Sheet.ofTokens spacedBefore = .ok ⟨[⟨[.cls "a", .tag "b"], []⟩]⟩ ∧
    Respaced spacedBefore spacedBehind ∧
    Sheet.ofTokens spacedBehind = .ok ⟨[⟨[.cls "a", .tag "b"], []⟩]⟩ ∧
    Sheet.verdict (⟨.delim '.', ⟨0, 1, 1⟩⟩ :: ⟨.whitespace, ⟨1, 1, 2⟩⟩ :: spacedBefore.tail) =
      .error (.unexpectedToken "<whitespace>" .classSelector) := by
  have hsheet : Sheet.ofTokens spacedBefore = .ok ⟨[⟨[.cls "a", .tag "b"], []⟩]⟩ := rfl
  obtain ⟨hrespaced, hpoint⟩ := ofTokens_respaced hsheet
  have hnone : ∀ t ∈ ([] : List PlacedToken), t.token ≠ .eof := by simp
  have hfault := (hpoint [] _ _ _ rfl hnone rfl).2 ⟨.whitespace, ⟨1, 1, 2⟩⟩ rfl
  exact ⟨hsheet, respaced_spacedBefore, hrespaced _ respaced_spacedBefore, hfault⟩

end StyleEngine
