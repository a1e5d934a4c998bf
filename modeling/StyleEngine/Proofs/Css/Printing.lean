import StyleEngine.Proofs.Css.Cutting
import StyleEngine.Proofs.Css.Acceptance

/-!
# `Proofs/Css/Printing.lean` — text that is put together from tokens

A text without comments is cut into tokens if each of them is spelled, and stops, in front of
the others (`CutInto`). To print something is to know its tokens before the text is complete:
what a piece of text is cut into may depend on what follows, so a piece is `Printed` as tokens
*in front of* some texts. Pieces are put together by `Printed.append`, where each has to be fit
to follow the one before.

`CutInto.ofText_eq_ok` leads back to the grammar: such a text spells the sheet that its tokens
derive.
-/

set_option autoImplicit false

namespace StyleEngine

/-! ## 1. Texts without comments -/

/-- Characters that are the spellings of these tokens, one directly behind the other. -/
inductive CutInto : List Char → List Token → Prop where
  | nil : CutInto [] []
  | cons {t : Token} {text rest : List Char} {ts : List Token} (h : Spells t text rest)
      (hstops : Stops t text rest) (hcomment : startsComment (text ++ rest) = false)
      (hrest : CutInto rest ts) : CutInto (text ++ rest) (t :: ts)

theorem CutInto.tokensFrom {cs : List Char} {ts : List Token} (h : CutInto cs ts) (p : Position) :
    (tokensFrom p cs).map (·.token) = ts ++ [.eof] := by
  induction h generalizing p with
  | nil =>
    rw [tokensFrom_nil]
    rfl
  | cons h hstops hcomment _ ih =>
    rw [tokensFrom_spelling h hstops hcomment, List.map_cons, ih, List.cons_append]

theorem CutInto.ne_eof {cs : List Char} {ts : List Token} (h : CutInto cs ts) :
    ∀ t ∈ ts, t ≠ .eof := by
  induction h with
  | nil => exact fun t ht => nomatch ht
  | cons h _ _ _ ih => exact List.forall_mem_cons.mpr ⟨h.ne_eof, ih⟩

theorem beforeEnd_append_eof {ts : List Token} (h : ∀ t ∈ ts, t ≠ .eof) :
    beforeEnd (ts ++ [.eof]) = ts := by
  rw [beforeEnd, List.takeWhile_append_of_pos fun t ht => decide_eq_true (h t ht),
    List.takeWhile_cons_of_neg (by simp), List.append_nil]

/-- **A text that is cut into tokens spells what they derive.** -/
theorem CutInto.ofText_eq_ok {source : String} {ts : List Token} {sheet : Sheet}
    (h : CutInto source.toList ts) :
    Sheet.ofText source = .ok sheet ↔ DerivesSheet ts sheet := by
  rw [Sheet.ofText, Sheet.ofTokens_eq_ok, tokenize, h.tokensFrom, rules?_eq_some_iff_remains,
    beforeEnd_append_eof h.ne_eof]
  exact Iff.rfl

/-! ## 2. What may follow -/

/-- A character that goes on with no name and no numeral. -/
def Separated (rest : List Char) : Prop :=
  ∃ c cs, rest = c :: cs ∧ c ∈ [' ', ',', ':', ';']

/-- No space. The end of the text is none. -/
def SpacesEnd (rest : List Char) : Prop := nextIs Ascii.isSpace rest = false

/-- A character that begins a token, and neither a space nor a comment. -/
def Opens (rest : List Char) : Prop :=
  ∃ c cs, rest = c :: cs ∧ Ascii.isSpace c = false ∧ c ≠ '/'

theorem Opens.append {cs : List Char} (h : Opens cs) (rest : List Char) : Opens (cs ++ rest) := by
  obtain ⟨c, cs, rfl, hc⟩ := h
  exact ⟨c, cs ++ rest, rfl, hc⟩

theorem Opens.spacesEnd {cs : List Char} (h : Opens cs) : SpacesEnd cs := by
  obtain ⟨c, cs, rfl, hspace, -⟩ := h
  exact hspace

theorem Opens.startsComment {cs : List Char} (h : Opens cs) : startsComment cs = false := by
  obtain ⟨c, cs, rfl, -, hslash⟩ := h
  exact startsComment_of_ne hslash

theorem isSpace_of_not_mem_leaders {c : Char} (h : c ∉ leaders) : Ascii.isSpace c = false := by
  simp only [leaders, List.mem_cons, List.not_mem_nil, or_false, not_or] at h
  simp [Ascii.isSpace, h]

theorem opens_of_startsNumber {cs : List Char} (h : startsNumber cs = true) : Opens cs := by
  cases cs with
  | nil => cases h
  | cons c cs =>
    refine ⟨c, cs, rfl, isSpace_of_not_mem_leaders (not_mem_leaders_of_startsNumber h), ?_⟩
    rintro rfl
    cases h

theorem opens_of_startsIdent {cs : List Char} (h : startsIdent cs = true) : Opens cs := by
  cases cs with
  | nil => cases h
  | cons c cs =>
    refine ⟨c, cs, rfl, isSpace_of_not_mem_leaders (not_mem_leaders_of_startsIdent h), ?_⟩
    rintro rfl
    cases h

theorem IsIdent.opens {name : List Char} (h : IsIdent name) : Opens name :=
  opens_of_startsIdent h.starts

theorem Numeral.opens (n : Numeral) : Opens n.chars := by
  have hstarts := n.startsNumber_append []
  rw [List.append_nil] at hstarts
  exact opens_of_startsNumber hstarts

theorem Separated.nextIs {rest : List Char} (h : Separated rest) {kind : Char → Bool}
    (hspace : kind ' ' = false) (hcomma : kind ',' = false) (hcolon : kind ':' = false)
    (hsemicolon : kind ';' = false) : nextIs kind rest = false := by
  obtain ⟨c, cs, rfl, hc⟩ := h
  simp only [List.mem_cons, List.not_mem_nil, or_false] at hc
  obtain rfl | rfl | rfl | rfl := hc <;> assumption

/-- Whatever has a name or a numeral stops there. -/
theorem Separated.stops {rest : List Char} (h : Separated rest) {t : Token} {text : List Char}
    (hspace : t ≠ .whitespace) (hdelim : ∀ c, t = .delim c → c = '*') : Stops t text rest := by
  cases t with
  | whitespace => exact absurd rfl hspace
  | delim c =>
    obtain rfl := hdelim c rfl
    obtain ⟨d, cs, rfl, -⟩ := h
    refine ⟨?_, ?_, ?_, ?_⟩
    · rfl
    · rfl
    · intro hhash
      cases hhash
    · intro hat
      cases hat
  | number x =>
    refine ⟨?_, ?_, ?_, h.nextIs rfl rfl rfl rfl⟩
    · rw [startsDigits_eq_nextIs]
      exact h.nextIs rfl rfl rfl rfl
    · intro
      obtain ⟨c, cs, rfl, hc⟩ := h
      simp only [List.mem_cons, List.not_mem_nil, or_false] at hc
      obtain rfl | rfl | rfl | rfl := hc <;> rfl
    · obtain ⟨c, cs, rfl, hc⟩ := h
      simp only [List.mem_cons, List.not_mem_nil, or_false] at hc
      obtain rfl | rfl | rfl | rfl := hc <;> cases cs <;> rfl
  | ident | atKeyword | hash | dimension => exact h.nextIs rfl rfl rfl rfl
  | _ => trivial

/-! ## 3. Pieces of text -/

/-- In front of a text of some kind, the characters are cut into these tokens. -/
def Printed (cs : List Char) (us : List Token) (kind : List Char → Prop) : Prop :=
  ∀ (rest : List Char) (ts : List Token), kind rest → CutInto rest ts →
    CutInto (cs ++ rest) (us ++ ts)

namespace Printed

variable {kind : List Char → Prop}

theorem nil : Printed [] [] kind := fun _ _ _ hrest => hrest

theorem append {cs ds : List Char} {us vs : List Token} {kind' : List Char → Prop}
    (h : Printed cs us kind) (h' : Printed ds vs kind')
    (hfit : ∀ rest, kind' rest → kind (ds ++ rest)) : Printed (cs ++ ds) (us ++ vs) kind' := by
  intro rest ts hkind hrest
  rw [List.append_assoc, List.append_assoc]
  exact h _ _ (hfit rest hkind) (h' rest ts hkind hrest)

theorem token {t : Token} {text : List Char} (hopens : Opens text)
    (h : ∀ rest, kind rest → Spells t text rest ∧ Stops t text rest) : Printed text [t] kind := by
  intro rest ts hkind hrest
  obtain ⟨hspells, hstops⟩ := h rest hkind
  exact .cons hspells hstops (hopens.append rest).startsComment hrest

theorem space {c : Char} (hc : Ascii.isSpace c = true) : Printed [c] [.whitespace] SpacesEnd := by
  intro rest ts hkind hrest
  have hslash : c ≠ '/' := by
    rintro rfl
    cases hc
  have hspaces : ∀ d ∈ [c], Ascii.isSpace d = true := by
    intro d hd
    rw [List.mem_singleton.mp hd]
    exact hc
  exact .cons (.whitespace (List.cons_ne_nil c []) hspaces) hkind (startsComment_of_ne hslash) hrest

/-- A mark is the same in front of everything. -/
theorem mark {t : Token} {c : Char} (h : t.mark? = some c) : Printed [c] [t] kind := by
  have hopens : Opens [c] := by
    refine ⟨c, [], rfl, ?_⟩
    cases t <;> cases h <;> decide
  refine token hopens fun rest _ => ⟨.mark h, ?_⟩
  cases t <;> trivial

theorem mark_space {t : Token} {c d : Char} (h : t.mark? = some c) (hd : Ascii.isSpace d = true) :
    Printed [c, d] [t, .whitespace] SpacesEnd := by
  have hmark : Printed [c] [t] fun _ => True := mark h
  exact hmark.append (space hd) fun _ _ => trivial

/-- Two pieces with a mark between them that keeps them apart. -/
theorem join {cs sep ds : List Char} {us ws vs : List Token} (h : Printed cs us Separated)
    (hsep : Printed sep ws SpacesEnd) (hmark : ∀ rest, Separated (sep ++ rest))
    (hopens : Opens ds) (h' : Printed ds vs Separated) :
    Printed (cs ++ (sep ++ ds)) (us ++ (ws ++ vs)) Separated := by
  have hbehind := hsep.append h' fun rest _ => (hopens.append rest).spacesEnd
  refine h.append hbehind fun rest _ => ?_
  rw [List.append_assoc]
  exact hmark (ds ++ rest)

end Printed

end StyleEngine
