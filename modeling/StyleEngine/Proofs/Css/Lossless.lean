import StyleEngine.Proofs.Css.Spelling

/-!
# `Proofs/Css/Lossless.lean` — nothing of a text is lost between its tokens

The tokens of a text do not contain it: comments are gone, and a space is a space whatever
it was. But nothing is hidden either. A text falls into pieces, one for each token but the
last, and each piece is comments and then a spelling of its token; behind the pieces there
may be comments, and the last token stands at the end of the text.

`tokensFrom_pieces` says that from any place in a text, by induction on the tokens. What
it needs of a single token is `spells_lex`, and of comments that they end where they first
can (`splitComments_cases`). **`tokenize_lossless`** reads it off for a whole text.
-/

set_option autoImplicit false

namespace StyleEngine

/-! ## 1. Comments -/

/-- What may stand in a comment: all but the mark that ends it. -/
def IsRemark (body : List Char) : Prop := ¬['*', '/'] <:+: body

/-- Comments one directly behind the other, each ended by the first mark that can end it. -/
inductive Comments : List Char → Prop where
  | nil : Comments []
  | cons {body cs : List Char} (hbody : IsRemark body) (hcs : Comments cs) :
      Comments ('/' :: '*' :: (body ++ '*' :: '/' :: cs))

/-- Comments of which only the last is never ended. -/
inductive OpenComments : List Char → Prop where
  | last {body : List Char} (hbody : IsRemark body) : OpenComments ('/' :: '*' :: body)
  | cons {body cs : List Char} (hbody : IsRemark body) (hcs : OpenComments cs) :
      OpenComments ('/' :: '*' :: (body ++ '*' :: '/' :: cs))

theorem IsRemark.nil : IsRemark [] := by
  intro h
  have hlength := h.length_le
  exact absurd hlength (by decide)

theorem IsRemark.cons {c : Char} {body : List Char} (h : IsRemark body)
    (hc : ∀ rest, c = '*' → body ≠ '/' :: rest) : IsRemark (c :: body) := by
  intro hinfix
  obtain ⟨rest, hrest⟩ | hinfix := List.infix_cons_iff.mp hinfix
  · obtain ⟨hstar, hslash⟩ := List.cons.inj hrest
    exact hc rest hstar.symm hslash.symm
  · exact h hinfix

/-- A comment is ended by the first mark that can end it, or by nothing. -/
theorem splitComment_cases (cs : List Char) :
    (∃ body, IsRemark body ∧ (splitComment cs).1 = body ++ ['*', '/']) ∨
    (IsRemark (splitComment cs).1 ∧ (splitComment cs).2 = []) := by
  fun_induction splitComment cs with
  | case1 rest => exact .inl ⟨[], IsRemark.nil, rfl⟩
  | case2 c rest hmark ih =>
    -- The character is no part of a mark, since the text does not begin with one.
    have hfirst : ∀ body more, (splitComment rest).1 = body ++ more →
        ∀ behind, c = '*' → body ≠ '/' :: behind := by
      intro body more hbody behind hc hslash
      have hrest := splitComment_append rest
      rw [hbody, hslash] at hrest
      exact hmark _ hc hrest.symm
    obtain ⟨body, hremark, hbody⟩ | ⟨hremark, hend⟩ := ih
    · refine .inl ⟨c :: body, hremark.cons (hfirst body _ hbody), ?_⟩
      rw [hbody, List.cons_append]
    · refine .inr ⟨hremark.cons (hfirst _ [] (List.append_nil _).symm), hend⟩
  | case3 => exact .inr ⟨IsRemark.nil, rfl⟩

theorem splitComments_cases (cs : List Char) :
    Comments (splitComments cs).1 ∨
    (OpenComments (splitComments cs).1 ∧ (splitComments cs).2 = []) := by
  fun_induction splitComments cs with
  | case1 cs next ih =>
    obtain ⟨body, hremark, hbody⟩ | ⟨hremark, hend⟩ := splitComment_cases cs
    · rw [hbody, List.append_assoc]
      obtain hnext | ⟨hnext, hnil⟩ := ih
      · exact .inl (.cons hremark hnext)
      · exact .inr ⟨.cons hremark hnext, hnil⟩
    · have hnext : next = ([], []) := by
        show splitComments (splitComment cs).2 = ([], [])
        rw [hend, splitComments]
        simp
      rw [hnext, List.append_nil]
      exact .inr ⟨.last hremark, rfl⟩
  | case2 cs _ => exact .inl .nil

theorem Comments.append {cs ds : List Char} (hcs : Comments cs) (hds : Comments ds) :
    Comments (cs ++ ds) := by
  induction hcs with
  | nil => exact hds
  | cons hbody _ ih =>
    rw [List.cons_append, List.cons_append, List.append_assoc, List.cons_append, List.cons_append]
    exact .cons hbody ih

/-- Comments in front of something are all ended. -/
theorem comments_of_cons {cs rest : List Char} {c : Char} (h : (splitComments cs).2 = c :: rest) :
    Comments (splitComments cs).1 := by
  obtain hclosed | ⟨-, hnil⟩ := splitComments_cases cs
  · exact hclosed
  · rw [h] at hnil
    cases hnil

theorem comments_of_nil {cs : List Char} (h : (splitComments cs).2 = []) :
    Comments cs ∨ OpenComments cs := by
  have hcs := splitComments_append cs
  rw [h, List.append_nil] at hcs
  have hcases := splitComments_cases cs
  rw [hcs] at hcases
  obtain hclosed | ⟨hopen, -⟩ := hcases
  · exact .inl hclosed
  · exact .inr hopen

/-! ## 2. Pieces -/

/-- A token with its text and the comments in front of it. -/
structure Piece where
  comments : List Char
  text : List Char
  placed : PlacedToken

namespace Piece

def chars (piece : Piece) : List Char := piece.comments ++ piece.text

/-- The text that pieces make up. -/
def join (pieces : List Piece) : List Char := pieces.flatMap chars

theorem join_cons (piece : Piece) (pieces : List Piece) :
    join (piece :: pieces) = piece.chars ++ join pieces :=
  List.flatMap_cons

/-- What is right about a piece that begins at `p` and has `rest` behind it. -/
structure Fits (piece : Piece) (p : Position) (rest : List Char) : Prop where
  comments : Comments piece.comments
  position : piece.placed.position = p.advance piece.comments
  spells : Spells piece.placed.token piece.text rest

/-- The pieces of a text that begins at `p` and ends in `last` are all right. -/
def AllFit (p : Position) (pieces : List Piece) (last : List Char) : Prop :=
  ∀ before piece behind, pieces = before ++ piece :: behind →
    piece.Fits (p.advance (join before)) (join behind ++ last)

theorem AllFit.nil (p : Position) (last : List Char) : AllFit p [] last := by
  intro before piece behind h
  exact absurd h (by simp)

theorem AllFit.cons {p : Position} {first : Piece} {pieces : List Piece} {last : List Char}
    (hfirst : first.Fits p (join pieces ++ last)) (h : AllFit (p.advance first.chars) pieces last) :
    AllFit p (first :: pieces) last := by
  intro before piece behind hpieces
  cases before with
  | nil =>
    obtain ⟨rfl, rfl⟩ := List.cons.inj hpieces
    exact hfirst
  | cons piece' before =>
    obtain ⟨rfl, htail⟩ := List.cons.inj hpieces
    rw [join_cons, Position.advance_append]
    exact h before piece behind htail

end Piece

/-! ## 3. The tokens from a place on -/

theorem tokensFrom_of_nil {cs : List Char} (p : Position) (h : (splitComments cs).2 = []) :
    tokensFrom p cs = [⟨.eof, p.advance cs⟩] := by
  have hcs := splitComments_append cs
  rw [h, List.append_nil] at hcs
  rw [tokensFrom]
  split
  · rw [hcs]
  · rename_i c rest hcons
    rw [h] at hcons
    cases hcons

theorem tokensFrom_of_cons {cs rest : List Char} {c : Char} (p : Position)
    (h : (splitComments cs).2 = c :: rest) :
    tokensFrom p cs = ⟨(lex c rest).token, p.advance (splitComments cs).1⟩ ::
      tokensFrom (p.advance ((splitComments cs).1 ++ (lex c rest).text)) (lex c rest).rest := by
  rw [tokensFrom]
  split
  · rename_i hnil
    rw [h] at hnil
    cases hnil
  · rename_i c' rest' hcons
    rw [h] at hcons
    cases hcons
    rw [Position.advance_append]

/-- Every token shortens the text. So what holds of texts without tokens, and of a text if it
    holds behind its first token, holds of all texts. -/
@[elab_as_elim]
theorem cutting_induction {motive : List Char → Prop}
    (atEnd : ∀ cs, (splitComments cs).2 = [] → motive cs)
    (token : ∀ cs c rest, (splitComments cs).2 = c :: rest → motive (lex c rest).rest → motive cs)
    (cs : List Char) : motive cs := by
  induction hn : cs.length using Nat.strongRecOn generalizing cs with
  | ind n ih =>
    cases hsplit : (splitComments cs).2 with
    | nil => exact atEnd cs hsplit
    | cons c rest =>
      have hlt : (lex c rest).rest.length < n := by
        have h₁ := length_splitComments_le cs
        have h₂ := length_lex_rest c rest
        rw [hsplit] at h₁
        omega
      exact token cs c rest hsplit (ih _ hlt _ rfl)

/-- The piece that a text begins with: comments, and then a lexeme. -/
def firstPiece (p : Position) (comments : List Char) (lexeme : Lexeme) : Piece :=
  ⟨comments, lexeme.text, ⟨lexeme.token, p.advance comments⟩⟩

/-- **The pieces of a text that begins at `p`.** -/
theorem tokensFrom_pieces (p : Position) (cs : List Char) :
    ∃ pieces last, cs = Piece.join pieces ++ last ∧ (Comments last ∨ OpenComments last) ∧
      tokensFrom p cs = pieces.map (·.placed) ++ [⟨.eof, p.advance cs⟩] ∧
      Piece.AllFit p pieces last := by
  induction cs using cutting_induction generalizing p with
  | atEnd cs hsplit =>
    exact ⟨[], cs, rfl, comments_of_nil hsplit, tokensFrom_of_nil p hsplit, .nil p cs⟩
  | token cs c rest hsplit ih =>
    have hcs : cs = (splitComments cs).1 ++ (lex c rest).text ++ (lex c rest).rest := by
      rw [List.append_assoc, lex_append, ← hsplit, splitComments_append]
    obtain ⟨pieces, last, hjoin, hlast, htokens, hfits⟩ :=
      ih (p.advance ((splitComments cs).1 ++ (lex c rest).text))
    refine ⟨firstPiece p (splitComments cs).1 (lex c rest) :: pieces, last, ?_, hlast, ?_, ?_⟩
    · rw [Piece.join_cons, List.append_assoc, ← hjoin]
      exact hcs
    · rw [tokensFrom_of_cons p hsplit, htokens, ← Position.advance_append, ← hcs]
      rfl
    · refine Piece.AllFit.cons ⟨comments_of_cons hsplit, rfl, ?_⟩ hfits
      rw [← hjoin]
      exact spells_lex c rest

/-! ## 4. Whole texts -/

/-- **Tokenizing loses nothing.** A text is the pieces of its tokens, in their order, and
    perhaps comments behind them, of which alone the last may be without an end. Each
    token stands where its spelling begins, and the last one at the end of the text. -/
theorem tokenize_lossless (source : String) :
    ∃ (pieces : List Piece) (last : List Char) (theEnd : Position),
      source.toList = Piece.join pieces ++ last ∧ (Comments last ∨ OpenComments last) ∧
      tokenize source = pieces.map (·.placed) ++ [⟨.eof, theEnd⟩] ∧
      theEnd.offset = source.length ∧
      ∀ before piece behind, pieces = before ++ piece :: behind →
        Comments piece.comments ∧ piece.text ≠ [] ∧ piece.placed.token ≠ .eof ∧
        piece.placed.position.offset = (Piece.join before ++ piece.comments).length ∧
        Spells piece.placed.token piece.text (Piece.join behind ++ last) := by
  obtain ⟨pieces, last, hjoin, hlast, htokens, hfits⟩ := tokensFrom_pieces .start source.toList
  have hoffset : ∀ cs, (Position.start.advance cs).offset = cs.length := by
    intro cs
    rw [Position.offset_advance]
    exact Nat.zero_add _
  refine ⟨pieces, last, Position.start.advance source.toList, hjoin, hlast, htokens, ?_, ?_⟩
  · rw [hoffset, String.length_toList]
  · intro before piece behind hpieces
    have hfit := hfits before piece behind hpieces
    refine ⟨hfit.comments, hfit.spells.text_ne_nil, hfit.spells.ne_eof, ?_, hfit.spells⟩
    rw [hfit.position, ← Position.advance_append, hoffset]

end StyleEngine
