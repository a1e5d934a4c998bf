import StyleEngine.Proofs.Css.LongestMatch
import StyleEngine.Proofs.Css.Lossless

/-!
# `Proofs/Css/Cutting.lean` — where a text may be cut

`Lossless` takes a text and finds its pieces. Here the pieces are given, and the question is
whether the text is cut into these. There are two laws, one for each part of a piece:

* **`tokensFrom_comments`**: comments in front of a text change nothing but the place where
  it begins;
* **`tokensFrom_spelling`**: a spelling that stops is the first token, and cutting goes on
  behind it.

In the other direction, the tokens from any one on are those of the text that begins at its
place (`exists_tokensFrom_eq`).

Further laws are about places. Where a text begins does not change what its tokens are
(`tokens_tokensFrom`), and if it begins some characters and lines further, each of them stands
as much further (`tokensFrom_moved`).
-/

set_option autoImplicit false

namespace StyleEngine

/-! ## 1. Comments in front -/

def startsComment : List Char → Bool
  | '/' :: '*' :: _ => true
  | _ => false

theorem startsComment_of_ne {c : Char} {cs : List Char} (hc : c ≠ '/') :
    startsComment (c :: cs) = false := by
  simp [startsComment, hc]

theorem splitComments_of_not_startsComment {cs : List Char} (h : startsComment cs = false) :
    splitComments cs = ([], cs) := by
  unfold splitComments
  split
  · cases h
  · rfl

/-- Behind the comments no other one begins. -/
theorem startsComment_splitComments (cs : List Char) :
    startsComment (splitComments cs).2 = false := by
  fun_induction splitComments cs with
  | case1 cs next ih => exact ih
  | case2 cs hne =>
    rw [startsComment]
    exact hne

theorem splitComment_remark {body : List Char} (hbody : IsRemark body) (rest : List Char) :
    splitComment (body ++ '*' :: '/' :: rest) = (body ++ ['*', '/'], rest) := by
  induction body with
  | nil => rfl
  | cons c body ih =>
    have htail : IsRemark body := fun hinfix => hbody (List.infix_cons hinfix)
    have hmark : ∀ more, c = '*' → body ++ '*' :: '/' :: rest ≠ '/' :: more := by
      rintro more rfl heq
      cases body with
      | nil => cases heq
      | cons d body =>
        obtain ⟨rfl, -⟩ := List.cons.inj heq
        exact hbody (List.prefix_append ['*', '/'] body).isInfix
    rw [List.cons_append, splitComment, ih htail]
    · rfl
    · exact hmark

theorem splitComments_comments {comments : List Char} (h : Comments comments) (rest : List Char) :
    splitComments (comments ++ rest) =
      (comments ++ (splitComments rest).1, (splitComments rest).2) := by
  induction h with
  | nil => rfl
  | @cons body cs hbody _ ih =>
    have hcut : '/' :: '*' :: (body ++ '*' :: '/' :: cs) ++ rest =
        '/' :: '*' :: (body ++ '*' :: '/' :: (cs ++ rest)) := by
      simp
    rw [hcut, splitComments, splitComment_remark hbody, ih]
    simp

/-! ## 2. Tokens -/

/-- Comments in front leave no trace. -/
theorem tokensFrom_comments {comments : List Char} (h : Comments comments) (p : Position)
    (rest : List Char) :
    tokensFrom p (comments ++ rest) = tokensFrom (p.advance comments) rest := by
  have hsplit := splitComments_comments h rest
  cases hrest : (splitComments rest).2 with
  | nil =>
    have hnil : (splitComments (comments ++ rest)).2 = [] := by rw [hsplit, hrest]
    rw [tokensFrom_of_nil p hnil, tokensFrom_of_nil _ hrest, Position.advance_append]
  | cons c behind =>
    have hcons : (splitComments (comments ++ rest)).2 = c :: behind := by rw [hsplit, hrest]
    rw [tokensFrom_of_cons p hcons, tokensFrom_of_cons _ hrest, hsplit]
    simp only [Position.advance_append]

theorem tokensFrom_nil (p : Position) : tokensFrom p [] = [⟨.eof, p⟩] := by
  have hnone : startsComment [] = false := rfl
  have hsplit := splitComments_of_not_startsComment hnone
  exact tokensFrom_of_nil p (congrArg Prod.snd hsplit)

/-- **A spelling that stops is the first token.** -/
theorem tokensFrom_spelling {t : Token} {text rest : List Char} (h : Spells t text rest)
    (hstops : Stops t text rest) (hcomment : startsComment (text ++ rest) = false) (p : Position) :
    tokensFrom p (text ++ rest) = ⟨t, p⟩ :: tokensFrom (p.advance text) rest := by
  obtain ⟨c, cs, rfl⟩ := List.exists_cons_of_ne_nil h.text_ne_nil
  have hsplit := splitComments_of_not_startsComment hcomment
  have hcons : (splitComments (c :: cs ++ rest)).2 = c :: (cs ++ rest) := by rw [hsplit]; rfl
  rw [tokensFrom_of_cons p hcons, hsplit, lex_eq_of_spells h hstops]
  rfl

/-- From one of its tokens on, the tokens of a text are those of the text that begins there. -/
theorem exists_tokensFrom_eq {p : Position} {cs : List Char} {before behind : List PlacedToken}
    {t : PlacedToken} (h : tokensFrom p cs = before ++ t :: behind) :
    ∃ front back, cs = front ++ back ∧ startsComment back = false ∧
      t.position = p.advance front ∧ tokensFrom t.position back = t :: behind := by
  induction before generalizing p cs with
  | nil =>
    have hcs := splitComments_append cs
    refine ⟨(splitComments cs).1, (splitComments cs).2, hcs.symm, startsComment_splitComments cs, ?_⟩
    cases hsplit : (splitComments cs).2 with
    | nil =>
      rw [hsplit, List.append_nil] at hcs
      rw [tokensFrom_of_nil p hsplit] at h
      obtain ⟨rfl, rfl⟩ := List.cons.inj h
      rw [hcs]
      exact ⟨rfl, tokensFrom_nil _⟩
    | cons c rest =>
      have hposition : t.position = p.advance (splitComments cs).1 := by
        rw [tokensFrom_of_cons p hsplit] at h
        obtain ⟨rfl, -⟩ := List.cons.inj h
        rfl
      refine ⟨hposition, ?_⟩
      rw [hposition, ← hsplit, ← tokensFrom_comments (comments_of_cons hsplit), hcs, h]
      rfl
  | cons u before ih =>
    cases hsplit : (splitComments cs).2 with
    | nil =>
      -- The end of the text is the last token, and `u` is not.
      rw [tokensFrom_of_nil p hsplit] at h
      simp at h
    | cons c rest =>
      rw [tokensFrom_of_cons p hsplit] at h
      obtain ⟨rfl, hbehind⟩ := List.cons.inj h
      obtain ⟨front, back, hrest, hcomment, hposition, htokens⟩ := ih hbehind
      refine ⟨(splitComments cs).1 ++ (lex c rest).text ++ front, back, ?_, hcomment, ?_, htokens⟩
      · rw [List.append_assoc, ← hrest, List.append_assoc, lex_append, ← hsplit,
          splitComments_append]
      · rw [hposition, ← Position.advance_append]

/-! ## 3. Places -/

theorem tokens_tokensFrom (p q : Position) (cs : List Char) :
    (tokensFrom p cs).map (·.token) = (tokensFrom q cs).map (·.token) := by
  induction cs using cutting_induction generalizing p q with
  | atEnd cs hsplit =>
    rw [tokensFrom_of_nil p hsplit, tokensFrom_of_nil q hsplit]
    rfl
  | token cs c rest hsplit ih =>
    rw [tokensFrom_of_cons p hsplit, tokensFrom_of_cons q hsplit, List.map_cons, List.map_cons]
    exact congrArg _ (ih _ _)

/-- The place so many characters and lines further, in the same column. -/
def Position.moved (p : Position) (characters lines : Nat) : Position :=
  ⟨p.offset + characters, p.line + lines, p.column⟩

def PlacedToken.moved (t : PlacedToken) (characters lines : Nat) : PlacedToken :=
  ⟨t.token, t.position.moved characters lines⟩

section Moved

variable {characters lines : Nat}

theorem Position.step_moved (p : Position) (c : Char) :
    (p.moved characters lines).step c = (p.step c).moved characters lines := by
  have hoffset : p.offset + characters + 1 = p.offset + 1 + characters := by omega
  have hline : p.line + lines + 1 = p.line + 1 + lines := by omega
  unfold step
  split
  · simp only [moved, hoffset, hline]
  · simp only [moved, hoffset]

theorem Position.advance_moved (p : Position) (cs : List Char) :
    (p.moved characters lines).advance cs = (p.advance cs).moved characters lines := by
  induction cs generalizing p with
  | nil => rfl
  | cons c cs ih => rw [advance_cons, step_moved, ih, advance_cons]

theorem tokensFrom_moved (p : Position) (cs : List Char) :
    tokensFrom (p.moved characters lines) cs =
      (tokensFrom p cs).map (·.moved characters lines) := by
  induction cs using cutting_induction generalizing p with
  | atEnd cs hsplit =>
    rw [tokensFrom_of_nil _ hsplit, tokensFrom_of_nil _ hsplit, Position.advance_moved]
    rfl
  | token cs c rest hsplit ih =>
    rw [tokensFrom_of_cons _ hsplit, tokensFrom_of_cons _ hsplit, Position.advance_moved,
      Position.advance_moved, ih]
    rfl

/-- Lines are counted by the line feeds. -/
theorem Position.line_advance (p : Position) (cs : List Char) :
    (p.advance cs).line = p.line + cs.count '\n' := by
  induction cs generalizing p with
  | nil => rfl
  | cons c cs ih =>
    rw [advance_cons, ih, List.count_cons, step]
    by_cases hc : c = '\n'
    · simp only [hc, if_true, beq_self_eq_true]
      omega
    · simp [hc]

/-- Behind a line feed a text goes on as if it began there, some characters and lines
    further. -/
theorem Position.start_advance_newline (cs : List Char) :
    start.advance (cs ++ ['\n']) = start.moved (cs.length + 1) (cs.count '\n' + 1) := by
  have hoffset := offset_advance start cs
  have hline := line_advance start cs
  rw [advance_append, advance_cons, advance_nil, step, if_pos rfl, hoffset, hline, moved]
  simp only [Position.mk.injEq]
  exact ⟨by omega, by omega, rfl⟩

end Moved

end StyleEngine
