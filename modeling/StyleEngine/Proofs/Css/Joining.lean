import StyleEngine.Proofs.Css.Lookahead
import StyleEngine.Proofs.Css.Reading

/-!
# `Proofs/Css/Joining.lean` — one sheet behind the other

Two texts with a line feed between them are one text, and it is the sheet of the first and
then the sheet of the second. Three things could spoil this, and each of them would make the
first text no sheet, or is excluded:

* a token across the joint. Nothing that looks ahead looks past a line feed
  (`stops_append_newline`), and of the tokens that a line feed goes on with, a space is
  skipped between rules and an open string leaves a declaration unfinished;
* a rule across the joint. The reader finishes between rules and nowhere else, and there it
  knows nothing of what came before;
* a comment across the joint. This does happen, so it is a condition (`ClosesComments`).

**`readText_append_newline`** is the first half, by induction on the tokens of the first text.
The second text is then read from another place (`readText_moved`), and a fault in it is
found as far behind.
-/

set_option autoImplicit false

namespace StyleEngine

/-! ## 1. Comments that are never ended -/

/-- What stands behind the last token of a text: nothing, or comments. -/
def behindTokens (cs : List Char) : List Char :=
  match _h : (splitComments cs).2 with
  | [] => cs
  | c :: rest => behindTokens (lex c rest).rest
termination_by cs.length
decreasing_by
  have h₁ := length_splitComments_le cs
  have h₂ := length_lex_rest c rest
  rw [_h] at h₁
  omega

/-- Every comment of a text has an end. In front of a token it always has one. -/
def ClosesComments (cs : List Char) : Prop := Comments (behindTokens cs)

theorem behindTokens_of_nil {cs : List Char} (h : (splitComments cs).2 = []) :
    behindTokens cs = cs := by
  rw [behindTokens]
  split
  · rfl
  · rename_i hcons
    rw [h] at hcons
    cases hcons

theorem behindTokens_of_cons {cs rest : List Char} {c : Char}
    (h : (splitComments cs).2 = c :: rest) : behindTokens cs = behindTokens (lex c rest).rest := by
  rw [behindTokens]
  split
  · rename_i hnil
    rw [h] at hnil
    cases hnil
  · rename_i c' rest' hcons
    rw [h] at hcons
    cases hcons
    rfl

/-! ## 2. A line feed in place of the end -/

/-- The two kinds of tokens that go on past a line feed, if the text ends with them: a space
    takes it, and a string is broken by it. -/
def Token.goesOn (t : Token) : Prop := t = .whitespace ∨ ∃ contents, t = .string contents

theorem stops_append_newline {t : Token} {text rest : List Char} (h : Stops t text rest)
    (hends : rest = [] → ¬t.goesOn) (more : List Char) : Stops t text (rest ++ '\n' :: more) := by
  refine h.append_break breaks_newline rest more fun hspace hnil => ?_
  exact absurd (.inl hspace) (hends hnil)

theorem Spells.isSpace {text rest : List Char} (h : Spells .whitespace text rest) :
    ∀ c ∈ text, Ascii.isSpace c = true := by
  cases h with
  | mark h => cases h
  | whitespace _ h => exact h

theorem spells_append_newline {t : Token} {text rest : List Char} (h : Spells t text rest)
    (hends : rest = [] → ¬t.goesOn) (more : List Char) : Spells t text (rest ++ '\n' :: more) := by
  refine h.of_rest ?_ ?_
  · intro hnil contents hstring
    exact hends hnil (.inr ⟨contents, hstring⟩)
  · rintro - behind rfl
    exact ⟨behind ++ '\n' :: more, rfl⟩

/-- The first token of a text is the same with a line feed and anything behind the text,
    unless the text ends with it and it goes on. -/
theorem tokensFrom_append_newline {cs rest : List Char} {c : Char}
    (hsplit : (splitComments cs).2 = c :: rest)
    (hends : (lex c rest).rest = [] → ¬(lex c rest).token.goesOn) (p : Position)
    (more : List Char) :
    tokensFrom p (cs ++ '\n' :: more) =
      ⟨(lex c rest).token, p.advance (splitComments cs).1⟩ ::
        tokensFrom (p.advance ((splitComments cs).1 ++ (lex c rest).text))
          ((lex c rest).rest ++ '\n' :: more) := by
  have hcs : cs = (splitComments cs).1 ++ ((lex c rest).text ++ (lex c rest).rest) := by
    rw [lex_append, ← hsplit, splitComments_append]
  have hcomment :
      startsComment ((lex c rest).text ++ ((lex c rest).rest ++ '\n' :: more)) = false := by
    rw [← List.append_assoc, lex_append,
      startsComment_append_cons (by decide) (fun _ => by decide), ← hsplit]
    exact startsComment_splitComments cs
  calc tokensFrom p (cs ++ '\n' :: more)
      = tokensFrom p ((splitComments cs).1 ++
          ((lex c rest).text ++ ((lex c rest).rest ++ '\n' :: more))) := by
        rw [← List.append_assoc (lex c rest).text, ← List.append_assoc, ← hcs]
    _ = tokensFrom (p.advance (splitComments cs).1)
          ((lex c rest).text ++ ((lex c rest).rest ++ '\n' :: more)) :=
        tokensFrom_comments (comments_of_cons hsplit) p _
    _ = _ := by
        rw [tokensFrom_spelling (spells_append_newline (spells_lex c rest) hends more)
          (stops_append_newline (stops_lex c rest) hends more) hcomment, Position.advance_append]

/-! ## 3. Reading a text -/

namespace Progress

/-- The rules that a text at a place spells from a point on, or what is wrong with it. -/
def readText (q : Progress) (p : Position) (cs : List Char) : Except Fault (List Rule) :=
  (q.read p (tokensFrom p cs)).result

/-- Where the last token stood matters only if there are no tokens, and a text has one. -/
theorem result_read_tokensFrom (q : Progress) (last p : Position) (cs : List Char) :
    (q.read last (tokensFrom p cs)).result = q.readText p cs := by
  rw [readText]
  cases hsplit : (splitComments cs).2 with
  | nil =>
    rw [tokensFrom_of_nil p hsplit]
    rfl
  | cons c rest =>
    rw [tokensFrom_of_cons p hsplit]
    rfl

/-- One token of a text is one step of the table. -/
theorem readText_of_cons {q : Progress} {p here p' : Position} {t : Token} {cs cs' : List Char}
    (h : tokensFrom p cs = ⟨t, here⟩ :: tokensFrom p' cs') :
    q.readText p cs =
      match q.step t with
      | .next q' => q'.readText p' cs'
      | .close rule => (top.readText p' cs').map (rule :: ·)
      | .finish => .ok []
      | .fail cause _ => .error ⟨cause, here⟩ := by
  rw [readText, h, read]
  cases q.step t with
  | next q' => exact q'.result_read_tokensFrom here p' cs'
  | close rule =>
    show ((top.read here (tokensFrom p' cs')).result).map (rule :: ·) = _
    rw [result_read_tokensFrom]
  | finish => rfl
  | fail cause taken => rfl

theorem readText_comments {comments : List Char} (h : Comments comments) (q : Progress)
    (p : Position) (rest : List Char) :
    q.readText p (comments ++ rest) = q.readText (p.advance comments) rest := by
  rw [readText, tokensFrom_comments h, result_read_tokensFrom]

/-! ### Where a text may end -/

/-- Only between rules may a text end. -/
theorem eq_top_of_readText_end {q : Progress} {p : Position} {cs : List Char} {rules : List Rule}
    (hcs : (splitComments cs).2 = []) (h : q.readText p cs = .ok rules) :
    q = .top ∧ rules = [] := by
  rw [readText, tokensFrom_of_nil p hcs] at h
  cases q with
  | top =>
    cases h
    exact ⟨rfl, rfl⟩
  | _ => cases h

/-- A last token that a line feed would go on with is a space between rules. -/
theorem eq_top_of_goesOn {q : Progress} {p here p' : Position} {t : Token} {cs : List Char}
    {rules : List Rule} (ht : t.goesOn) (hcs : tokensFrom p cs = ⟨t, here⟩ :: tokensFrom p' [])
    (h : q.readText p cs = .ok rules) : t = .whitespace ∧ q = .top ∧ rules = [] := by
  have hend : (splitComments []).2 = [] :=
    congrArg Prod.snd (splitComments_of_not_startsComment rfl)
  rw [readText_of_cons hcs] at h
  obtain rfl | ⟨contents, rfl⟩ := ht
  · cases q with
    | top => exact ⟨rfl, rfl, (eq_top_of_readText_end hend h).2⟩
    | className => cases h
    | _ => exact absurd (eq_top_of_readText_end hend h).1 Progress.noConfusion
  · cases q with
    | value => exact absurd (eq_top_of_readText_end hend h).1 Progress.noConfusion
    | _ => cases h

/-! ### Spaces between rules -/

theorem readText_spaces_of_next {spaces rest : List Char}
    (hspaces : ∀ c ∈ spaces, Ascii.isSpace c = true) (hrest : nextIs Ascii.isSpace rest = false)
    (p : Position) : top.readText p (spaces ++ rest) = top.readText (p.advance spaces) rest := by
  cases spaces with
  | nil => rfl
  | cons c spaces =>
    have hslash : c ≠ '/' := by
      rintro rfl
      cases hspaces _ List.mem_cons_self
    have htoken := tokensFrom_spelling (.whitespace (List.cons_ne_nil c spaces) hspaces) hrest
      (startsComment_of_ne hslash) p
    exact readText_of_cons htoken

/-- Spaces between rules leave no trace either. -/
theorem readText_spaces {spaces : List Char} (hspaces : ∀ c ∈ spaces, Ascii.isSpace c = true)
    (p : Position) (rest : List Char) :
    top.readText p (spaces ++ rest) = top.readText (p.advance spaces) rest := by
  -- The spaces that the rest begins with belong to the same token.
  have hmore : ∀ c ∈ rest.takeWhile Ascii.isSpace, Ascii.isSpace c = true :=
    List.all_eq_true.mp List.all_takeWhile
  have hall : ∀ c ∈ spaces ++ rest.takeWhile Ascii.isSpace, Ascii.isSpace c = true := by
    intro c hc
    exact (List.mem_append.mp hc).elim (hspaces c) (hmore c)
  have hnext := @nextIs_dropWhile Ascii.isSpace rest
  rw [← List.takeWhile_append_dropWhile (p := Ascii.isSpace) (l := rest), ← List.append_assoc,
    readText_spaces_of_next hall hnext, readText_spaces_of_next hmore hnext,
    Position.advance_append]

/-! ## 4. The first text -/

/-- **A text whose comments have ends is read to its end before what stands behind it**, and
    what stands behind it is read as if it stood alone. -/
theorem readText_append_newline {q : Progress} {p : Position} {cs : List Char} {rules : List Rule}
    (hclosed : ClosesComments cs) (h : q.readText p cs = .ok rules) (more : List Char) :
    q.readText p (cs ++ '\n' :: more) =
      (top.readText (p.advance cs) ('\n' :: more)).map (rules ++ ·) := by
  have hnil : ∀ r : Except Fault (List Rule), r.map ([] ++ ·) = r := by
    intro r
    cases r <;> rfl
  induction cs using cutting_induction generalizing q p rules with
  | atEnd cs hsplit =>
    obtain ⟨rfl, rfl⟩ := eq_top_of_readText_end hsplit h
    rw [ClosesComments, behindTokens_of_nil hsplit] at hclosed
    rw [readText_comments hclosed, hnil]
  | token cs c rest hsplit ih =>
    have htokens := tokensFrom_of_cons p hsplit
    have hcs : (splitComments cs).1 ++ (lex c rest).text ++ (lex c rest).rest = cs := by
      rw [List.append_assoc, lex_append, ← hsplit, splitComments_append]
    by_cases hends : (lex c rest).rest = [] ∧ (lex c rest).token.goesOn
    · obtain ⟨hrest, hgoes⟩ := hends
      rw [hrest] at htokens
      obtain ⟨hspace, rfl, rfl⟩ := eq_top_of_goesOn hgoes htokens h
      have hspells := spells_lex c rest
      rw [hspace] at hspells
      rw [hrest, List.append_nil] at hcs
      rw [hnil, ← hcs, List.append_assoc, readText_comments (comments_of_cons hsplit),
        readText_spaces hspells.isSpace, Position.advance_append]
    · have hends' : (lex c rest).rest = [] → ¬(lex c rest).token.goesOn :=
        fun hrest hgoes => hends ⟨hrest, hgoes⟩
      have hplace : (p.advance ((splitComments cs).1 ++ (lex c rest).text)).advance
          (lex c rest).rest = p.advance cs := by
        rw [← Position.advance_append, hcs]
      rw [ClosesComments, behindTokens_of_cons hsplit] at hclosed
      rw [readText_of_cons htokens] at h
      rw [readText_of_cons (tokensFrom_append_newline hsplit hends' p more)]
      cases hstep : q.step (lex c rest).token with
      | next q' =>
        rw [hstep] at h
        dsimp only at h ⊢
        rw [ih hclosed h, hplace]
      | close rule =>
        rw [hstep] at h
        dsimp only at h ⊢
        cases hrest : top.readText (p.advance ((splitComments cs).1 ++ (lex c rest).text))
            (lex c rest).rest with
        | error fault =>
          rw [hrest] at h
          cases h
        | ok rules' =>
          rw [hrest] at h
          cases h
          rw [ih hclosed hrest, hplace]
          cases top.readText (p.advance cs) ('\n' :: more) <;> rfl
      | finish => exact absurd (eq_eof_of_step hstep) (spells_lex c rest).ne_eof
      | fail cause taken =>
        rw [hstep] at h
        cases h

end Progress

/-! ## 5. The second text -/

def Fault.moved (fault : Fault) (characters lines : Nat) : Fault :=
  ⟨fault.cause, fault.position.moved characters lines⟩

namespace Progress

/-- The rules do not depend on where the tokens stand, and the fault is moved with them. -/
theorem result_read_moved (q : Progress) (last : Position) (ts : List PlacedToken)
    (characters lines : Nat) :
    (q.read (last.moved characters lines) (ts.map (·.moved characters lines))).result =
      (q.read last ts).result.mapError (·.moved characters lines) := by
  induction ts generalizing q last with
  | nil =>
    rw [List.map_nil, read, read]
    cases q.atEnd <;> rfl
  | cons t ts ih =>
    have htoken : (t.moved characters lines).token = t.token := rfl
    rw [List.map_cons, read, read, htoken]
    cases q.step t.token with
    | next q' => exact ih q' t.position
    | close rule =>
      have hrest := ih top t.position
      show Except.map (rule :: ·) (top.read _ _).result = _
      rw [PlacedToken.moved, hrest]
      show _ = Except.mapError _ (Except.map _ (top.read t.position ts).result)
      cases (top.read t.position ts).result <;> rfl
    | finish => rfl
    | fail cause taken => rfl

theorem readText_moved (q : Progress) (p : Position) (cs : List Char) (characters lines : Nat) :
    q.readText (p.moved characters lines) cs =
      (q.readText p cs).mapError (·.moved characters lines) := by
  rw [readText, tokensFrom_moved, result_read_moved]
  rfl

end Progress

namespace Sheet

theorem ofText_eq_readText (source : String) :
    ofText source = (Progress.top.readText .start source.toList).map Sheet.mk :=
  rfl

/-- What a text comes to that stands behind another one. -/
theorem ofText_append {t : String} {sheet : Sheet} (ht : ofText t = .ok sheet)
    (hclosed : ClosesComments t.toList) (r : String) :
    ofText (t ++ "\n" ++ r) =
      ((ofText r).mapError (·.moved (t.length + 1) (t.toList.count '\n' + 1))).map
        fun next => ⟨sheet.rules ++ next.rules⟩ := by
  have hfirst : Progress.top.readText .start t.toList = .ok sheet.rules := by
    rw [ofText_eq_readText] at ht
    cases hread : Progress.top.readText .start t.toList with
    | error fault =>
      rw [hread] at ht
      cases ht
    | ok rules =>
      rw [hread] at ht
      cases ht
      rfl
  have hchars : (t ++ "\n" ++ r).toList = t.toList ++ '\n' :: r.toList := by simp
  have hline : ∀ c ∈ ['\n'], Ascii.isSpace c = true := List.forall_mem_singleton.mpr rfl
  have hsecond : Progress.top.readText (Position.start.advance t.toList) ('\n' :: r.toList) =
      (Progress.top.readText .start r.toList).mapError
        (·.moved (t.length + 1) (t.toList.count '\n' + 1)) := by
    rw [← Progress.readText_moved, ← String.length_toList, ← Position.start_advance_newline,
      Position.advance_append, ← Progress.readText_spaces hline]
    rfl
  rw [ofText_eq_readText, ofText_eq_readText, hchars,
    Progress.readText_append_newline hclosed hfirst, hsecond]
  cases Progress.top.readText .start r.toList <;> rfl

end Sheet

/-- **The sheets of two texts make up the sheet of the text that they make up**, with a line
    feed between them. A fault in the second text is found there, as many characters and
    lines further as the first one has. -/
theorem ofText_append_newline {t : String} {sheet : Sheet} (ht : Sheet.ofText t = .ok sheet)
    (hclosed : ClosesComments t.toList) (r : String) :
    (∀ next, Sheet.ofText r = .ok next →
      Sheet.ofText (t ++ "\n" ++ r) = .ok ⟨sheet.rules ++ next.rules⟩) ∧
    (∀ fault, Sheet.ofText r = .error fault →
      Sheet.ofText (t ++ "\n" ++ r) = .error ⟨fault.cause,
        ⟨fault.position.offset + (t.length + 1), fault.position.line + (1 + t.toList.count '\n'),
          fault.position.column⟩⟩) := by
  have hboth := Sheet.ofText_append ht hclosed r
  refine ⟨?_, ?_⟩
  · intro next hr
    rw [hboth, hr]
    rfl
  · intro fault hr
    rw [hboth, hr, Nat.add_comm 1]
    rfl

/-- A rule and a comment, with another rule or a stray brace behind it. -/
theorem ofText_append_newline_remarked :
    Sheet.ofText "a\x7b\x7d/**/" = .ok ⟨[⟨[.tag "a"], []⟩]⟩ ∧ ClosesComments "a\x7b\x7d/**/".toList ∧
    Sheet.ofText "b\x7b\x7d" = .ok ⟨[⟨[.tag "b"], []⟩]⟩ ∧
    Sheet.ofText "a\x7b\x7d/**/\nb\x7b\x7d" = .ok ⟨[⟨[.tag "a"], []⟩, ⟨[.tag "b"], []⟩]⟩ ∧
    Sheet.ofText "\n\x7d" = .error ⟨.unmatchedBrace, ⟨1, 2, 1⟩⟩ ∧
    Sheet.ofText "a\x7b\x7d/**/\n\n\x7d" = .error ⟨.unmatchedBrace, ⟨9, 3, 1⟩⟩ := by
  have htokens : tokenize "a\x7b\x7d/**/" = [⟨.ident "a", ⟨0, 1, 1⟩⟩, ⟨.openBrace, ⟨1, 1, 2⟩⟩,
      ⟨.closeBrace, ⟨2, 1, 3⟩⟩, ⟨.eof, ⟨7, 1, 8⟩⟩] := by decide +kernel
  have ht : Sheet.ofText "a\x7b\x7d/**/" = .ok ⟨[⟨[.tag "a"], []⟩]⟩ := by
    rw [Sheet.ofText, htokens]
    rfl
  have hbehind : behindTokens "a\x7b\x7d/**/".toList = ['/', '*', '*', '/'] := by decide +kernel
  have hclosed : ClosesComments "a\x7b\x7d/**/".toList := by
    rw [ClosesComments, hbehind]
    exact .cons IsRemark.nil .nil
  have htokens₁ : tokenize "b\x7b\x7d" = [⟨.ident "b", ⟨0, 1, 1⟩⟩, ⟨.openBrace, ⟨1, 1, 2⟩⟩,
      ⟨.closeBrace, ⟨2, 1, 3⟩⟩, ⟨.eof, ⟨3, 1, 4⟩⟩] := by decide +kernel
  have hr₁ : Sheet.ofText "b\x7b\x7d" = .ok ⟨[⟨[.tag "b"], []⟩]⟩ := by
    rw [Sheet.ofText, htokens₁]
    rfl
  have htokens₂ : tokenize "\n\x7d" = [⟨.whitespace, ⟨0, 1, 1⟩⟩, ⟨.closeBrace, ⟨1, 2, 1⟩⟩,
      ⟨.eof, ⟨2, 2, 2⟩⟩] := by decide +kernel
  have hr₂ : Sheet.ofText "\n\x7d" = .error ⟨.unmatchedBrace, ⟨1, 2, 1⟩⟩ := by
    rw [Sheet.ofText, htokens₂]
    rfl
  exact ⟨ht, hclosed, hr₁, (ofText_append_newline ht hclosed "b\x7b\x7d").1 _ hr₁, hr₂,
    (ofText_append_newline ht hclosed "\n\x7d").2 _ hr₂⟩

end StyleEngine
