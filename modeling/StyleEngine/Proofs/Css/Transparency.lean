import StyleEngine.Proofs.Css.Lookahead
import StyleEngine.Proofs.Css.Reading

/-!
# `Proofs/Css/Transparency.lean` — a comment may stand in front of any token

Comments leave no trace, but that is only half of why they can be put anywhere. A comment
between two tokens also stands behind the first one, and there it is two characters that the
lexer looks at before it knows where the first token ends. `1` in front of `.5` is no token,
and `1` in front of `/**/.5` is.

So the front of a text is taken as it is cut (`Cut`), and shown to be cut in the same way in
front of a comment (`Cut.append_comment`). What stands behind a token is then either the same
characters as before, or fewer of them and a slash, and neither goes on with a token that had
stopped. One kind of token does not stop of itself: a string that a line feed broke needs the
line feed directly behind it. In front of that no comment may be put.

**`tokenize_insertAt_comment`** says it for whole texts. The reader looks at nothing but the
tokens, so it comes to the same sheet, or fails for the same cause.
-/

set_option autoImplicit false

namespace StyleEngine

/-! ## 1. The front of a text -/

/-- In front of `back`, the characters `front` are cut into these tokens, with comments before
    each of them and behind the last. -/
inductive Cut : List Char → List Char → List Token → Prop where
  | comments {comments back : List Char} (h : Comments comments) : Cut comments back []
  | token {comments text front back : List Char} {t : Token} {ts : List Token}
      (hcomments : Comments comments) (h : Spells t text (front ++ back))
      (hstops : Stops t text (front ++ back))
      (hstart : startsComment (text ++ (front ++ back)) = false) (hfront : Cut front back ts) :
      Cut (comments ++ (text ++ front)) back (t :: ts)

namespace Cut

variable {front back : List Char} {ts : List Token}

theorem tokens_append (h : Cut front back ts) (p q : Position) :
    (tokensFrom p (front ++ back)).map (·.token) = ts ++ (tokensFrom q back).map (·.token) := by
  induction h generalizing p with
  | comments h =>
    rw [tokensFrom_comments h]
    exact tokens_tokensFrom _ q _
  | token hcomments h hstops hstart _ ih =>
    rw [List.append_assoc, List.append_assoc, tokensFrom_comments hcomments,
      tokensFrom_spelling h hstops hstart, List.map_cons, ih]
    rfl

theorem front_ne_nil {t : Token} (h : Cut front back (t :: ts)) : front ≠ [] := by
  cases h with
  | token _ h _ _ _ =>
    intro hnil
    obtain ⟨-, htext⟩ := List.append_eq_nil_iff.mp hnil
    exact h.text_ne_nil (List.append_eq_nil_iff.mp htext).1

end Cut

/-- In front of each of its tokens but the last, a text is cut into those before. -/
theorem exists_cut {p : Position} {cs : List Char} {before behind : List PlacedToken}
    {t : PlacedToken} (h : tokensFrom p cs = before ++ t :: behind) (ht : t.token ≠ .eof) :
    ∃ front back, cs = front ++ back ∧ back ≠ [] ∧ t.position = p.advance front ∧
      Cut front back (before.map (·.token)) := by
  induction before generalizing p cs with
  | nil =>
    cases hsplit : (splitComments cs).2 with
    | nil =>
      rw [tokensFrom_of_nil p hsplit] at h
      obtain ⟨rfl, -⟩ := List.cons.inj h
      exact absurd rfl ht
    | cons c rest =>
      rw [tokensFrom_of_cons p hsplit] at h
      obtain ⟨rfl, -⟩ := List.cons.inj h
      refine ⟨(splitComments cs).1, c :: rest, ?_, List.cons_ne_nil c rest, rfl, ?_⟩
      · rw [← hsplit, splitComments_append]
      · exact .comments (comments_of_cons hsplit)
  | cons u before ih =>
    cases hsplit : (splitComments cs).2 with
    | nil =>
      -- The end of the text is the last token, and `u` is not.
      rw [tokensFrom_of_nil p hsplit] at h
      simp at h
    | cons c rest =>
      -- `u` and the comments before it go to the front, and the rest of the front is behind it.
      rw [tokensFrom_of_cons p hsplit] at h
      obtain ⟨rfl, hrest⟩ := List.cons.inj h
      obtain ⟨front, back, happend, hback, hposition, hcut⟩ := ih hrest
      have htext : (lex c rest).text ++ (front ++ back) = c :: rest := by
        rw [← happend, lex_append]
      refine ⟨(splitComments cs).1 ++ ((lex c rest).text ++ front), back, ?_, hback, ?_, ?_⟩
      · rw [List.append_assoc, List.append_assoc, htext, ← hsplit, splitComments_append]
      · rw [hposition, ← Position.advance_append, List.append_assoc]
      · have hspells := spells_lex c rest
        have hstops := stops_lex c rest
        have hstart := startsComment_splitComments cs
        rw [happend] at hspells hstops
        rw [hsplit, ← htext] at hstart
        exact .token (comments_of_cons hsplit) hspells hstops hstart hcut

/-! ## 2. A comment at the end of the front -/

theorem comments_singleton {body : List Char} (h : IsRemark body) :
    Comments ('/' :: '*' :: (body ++ ['*', '/'])) :=
  .cons h .nil

/-- A slash in place of what stood there does not touch the tokens before it. -/
theorem startsComment_append_slash {cs back : List Char} (hne : cs ≠ [])
    (h : startsComment (cs ++ back) = false) (more : List Char) :
    startsComment (cs ++ '/' :: more) = false := by
  rw [startsComment_append_cons (by decide) (fun hnil => absurd hnil hne)]
  exact startsComment_of_append h

theorem Cut.append_comment {front back body : List Char} {ts : List Token}
    (h : Cut front back ts) (hback : back ≠ []) (hlast : ts.getLast? ≠ some .badString)
    (hbody : IsRemark body) :
    Cut (front ++ '/' :: '*' :: (body ++ ['*', '/'])) back ts := by
  induction h with
  | comments h => exact .comments (h.append (comments_singleton hbody))
  | @token comments text front back t ts hcomments h hstops hstart hfront ih =>
    have hlast' : ts.getLast? ≠ some .badString := by
      intro hbad
      rw [List.getLast?_cons, hbad] at hlast
      exact hlast rfl
    -- Behind this token come what is left of the front and then the slash, so that is where it
    -- has to be spelled, to stop and to begin no comment.
    have hslash : front ++ '/' :: '*' :: (body ++ ['*', '/']) ++ back =
        front ++ '/' :: ('*' :: (body ++ ['*', '/']) ++ back) := by
      rw [List.append_assoc, List.cons_append]
    have hspells : Spells t text (front ++ '/' :: ('*' :: (body ++ ['*', '/']) ++ back)) := by
      refine h.of_rest ?_ ?_
      · intro hnil
        exact absurd (List.append_eq_nil_iff.mp hnil).2 hback
      · -- The line feed belongs to the front, since the string is not the last token there.
        rintro rfl more hmore
        cases front with
        | nil =>
          cases ts with
          | nil => exact absurd rfl hlast
          | cons u us => exact absurd rfl hfront.front_ne_nil
        | cons c front =>
          obtain ⟨rfl, -⟩ := List.cons.inj hmore
          exact ⟨_, rfl⟩
    have hstops' := hstops.of_append.append_break breaks_slash front
      ('*' :: (body ++ ['*', '/']) ++ back) fun _ _ => rfl
    have hne : text ++ front ≠ [] := List.append_ne_nil_of_left_ne_nil h.text_ne_nil front
    rw [← List.append_assoc] at hstart
    have hstart' := startsComment_append_slash hne hstart ('*' :: (body ++ ['*', '/']) ++ back)
    rw [List.append_assoc] at hstart'
    rw [List.append_assoc, List.append_assoc]
    rw [← hslash] at hspells hstops' hstart'
    exact .token hcomments hspells hstops' hstart' (ih hback hlast')

/-! ## 3. Texts -/

/-- A comment with this body. -/
def commentText (body : String) : String := "/*" ++ body ++ "*/"

/-- A text with another one put in behind its first characters. -/
def insertAt (offset : Nat) (inserted s : String) : String :=
  String.ofList (s.toList.take offset ++ (inserted.toList ++ s.toList.drop offset))

theorem toList_insertAt_append {front back : List Char} {s : String} (h : s.toList = front ++ back)
    (inserted : String) :
    (insertAt front.length inserted s).toList = front ++ inserted.toList ++ back := by
  rw [insertAt, String.toList_ofList, h, List.take_left, List.drop_left, List.append_assoc]

/-- Texts with the same tokens spell the same sheet, or no sheet for the same cause. -/
theorem Sheet.mapError_ofText_congr {s s' : String}
    (h : (tokenize s).map (·.token) = (tokenize s').map (·.token)) :
    (ofText s).mapError (·.cause) = (ofText s').mapError (·.cause) := by
  have hrules := Progress.mapError_read_congr h .top .start .start
  have hsheet : ∀ r : Except Fault (List Rule),
      (r.map Sheet.mk).mapError (·.cause) = (r.mapError (·.cause)).map Sheet.mk := by
    intro r
    cases r <;> rfl
  show Except.mapError _ (Except.map Sheet.mk (Progress.top.read .start (tokenize s)).result) =
    Except.mapError _ (Except.map Sheet.mk (Progress.top.read .start (tokenize s')).result)
  rw [hsheet, hsheet, hrules]

/-- The places of the tokens are all that a fault can differ in. -/
theorem Sheet.ofText_of_same_tokens {s s' : String}
    (h : (tokenize s').map (·.token) = (tokenize s).map (·.token)) :
    (∀ sheet, ofText s = .ok sheet → ofText s' = .ok sheet) ∧
    (∀ fault, ofText s = .error fault → ∃ position, ofText s' = .error ⟨fault.cause, position⟩) := by
  have hcause := mapError_ofText_congr h
  refine ⟨?_, ?_⟩
  · intro sheet hsheet
    rw [hsheet] at hcause
    cases hother : ofText s' with
    | error fault =>
      rw [hother] at hcause
      cases hcause
    | ok sheet' =>
      rw [hother] at hcause
      cases hcause
      rfl
  · intro fault hfault
    rw [hfault] at hcause
    cases hother : ofText s' with
    | error fault' =>
      rw [hother] at hcause
      obtain ⟨cause, position⟩ := fault'
      cases hcause
      exact ⟨position, rfl⟩
    | ok sheet =>
      rw [hother] at hcause
      cases hcause

/-- **A comment in front of a token is not seen.** Put in where the token begins, it leaves all
    tokens what they were, and the sheet, or the cause why there is none. Behind a string that
    a line feed broke there is no such place. -/
theorem tokenize_insertAt_comment {source : String} {before behind : List PlacedToken}
    {t : PlacedToken} (h : tokenize source = before ++ t :: behind) (ht : t.token ≠ .eof)
    (hbefore : ∀ u, before.getLast? = some u → u.token ≠ .badString) {body : String}
    (hbody : IsRemark body.toList) :
    (tokenize (insertAt t.position.offset (commentText body) source)).map (·.token) =
      (tokenize source).map (·.token) ∧
    (∀ sheet, Sheet.ofText source = .ok sheet →
      Sheet.ofText (insertAt t.position.offset (commentText body) source) = .ok sheet) ∧
    (∀ fault, Sheet.ofText source = .error fault → ∃ position,
      Sheet.ofText (insertAt t.position.offset (commentText body) source) =
        .error ⟨fault.cause, position⟩) := by
  obtain ⟨front, back, hsource, hback, hposition, hcut⟩ := exists_cut h ht
  have hoffset : t.position.offset = front.length := by
    rw [hposition, Position.offset_advance]
    exact Nat.zero_add _
  have hlast : (before.map (·.token)).getLast? ≠ some .badString := by
    rw [List.getLast?_map]
    intro hbad
    obtain ⟨u, hu, htoken⟩ := Option.map_eq_some_iff.mp hbad
    exact hbefore u hu htoken
  have hcomment : (commentText body).toList = '/' :: '*' :: (body.toList ++ ['*', '/']) := by
    simp [commentText]
  have htokens : (tokenize (insertAt t.position.offset (commentText body) source)).map (·.token) =
      (tokenize source).map (·.token) := by
    rw [tokenize, tokenize, hoffset, toList_insertAt_append hsource, hcomment, hsource,
      (hcut.append_comment hback hlast hbody).tokens_append .start .start,
      hcut.tokens_append .start .start]
  exact ⟨htokens, Sheet.ofText_of_same_tokens htokens⟩

/-- A comment over two lines, with a quote in it, between a point and the name of the class. -/
theorem tokenize_insertAt_comment_class :
    tokenize ".b\x7b\x7d" = [⟨.delim '.', ⟨0, 1, 1⟩⟩, ⟨.ident "b", ⟨1, 1, 2⟩⟩,
      ⟨.openBrace, ⟨2, 1, 3⟩⟩, ⟨.closeBrace, ⟨3, 1, 4⟩⟩, ⟨.eof, ⟨4, 1, 5⟩⟩] ∧
    IsRemark "'/*\n*".toList ∧
    insertAt 1 (commentText "'/*\n*") ".b\x7b\x7d" = "./*'/*\n**/b\x7b\x7d" ∧
    (tokenize "./*'/*\n**/b\x7b\x7d").map (·.token) =
      [.delim '.', .ident "b", .openBrace, .closeBrace, .eof] ∧
    Sheet.ofText ".b\x7b\x7d" = .ok ⟨[⟨[.cls "b"], []⟩]⟩ ∧
    Sheet.ofText "./*'/*\n**/b\x7b\x7d" = .ok ⟨[⟨[.cls "b"], []⟩]⟩ := by
  have htokens : tokenize ".b\x7b\x7d" = [⟨.delim '.', ⟨0, 1, 1⟩⟩] ++ ⟨.ident "b", ⟨1, 1, 2⟩⟩ ::
      [⟨.openBrace, ⟨2, 1, 3⟩⟩, ⟨.closeBrace, ⟨3, 1, 4⟩⟩, ⟨.eof, ⟨4, 1, 5⟩⟩] := by decide +kernel
  have hbefore : ∀ u : PlacedToken, [⟨Token.delim '.', ⟨0, 1, 1⟩⟩].getLast? = some u →
      u.token ≠ .badString := by
    intro u hu
    cases hu
    exact Token.noConfusion
  have hbody : IsRemark "'/*\n*".toList := by
    unfold IsRemark
    decide +kernel
  have hsheet : Sheet.ofText ".b\x7b\x7d" = .ok ⟨[⟨[.cls "b"], []⟩]⟩ := by
    rw [Sheet.ofText, htokens]
    rfl
  have htext : insertAt 1 (commentText "'/*\n*") ".b\x7b\x7d" = "./*'/*\n**/b\x7b\x7d" := by
    decide +kernel
  have hseen := tokenize_insertAt_comment htokens Token.noConfusion hbefore hbody
  rw [htext, htokens] at hseen
  exact ⟨htokens, hbody, htext, hseen.1, hsheet, hseen.2.1 _ hsheet⟩

end StyleEngine
