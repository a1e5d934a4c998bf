import Mathlib.Data.List.DropRight
import StyleEngine.Css.LineTable
import StyleEngine.Proofs.Css.Cutting

/-!
# `Proofs/Css/Places.lean` — where a token stands

The lexer moves a place along with the characters it takes (`Position.advance`). The place of
a token is named three times more here, and each time without the lexer:

* by counting in the text before the token, line feeds for the line and the characters behind
  the last of them for the column (`Position.start_advance`);
* by looking its offset up in the table of line starts (`Position.locate_eq`), where no line
  starts behind the offset that it was found for (`lineStartAt_le`);
* by the other tokens: each stands some characters behind the one before it
  (`pairwise_tokensFrom`), and a place some characters further is a later one
  (`Position.before_advance`).

**`tokenize_places`** says all of it for the tokens of a text.
-/

set_option autoImplicit false

namespace StyleEngine

/-! ## 1. Counting -/

/-- What stands behind the last line feed. -/
def lastLine (cs : List Char) : List Char := cs.rtakeWhile (· ≠ '\n')

theorem lastLine_newline (cs : List Char) : lastLine (cs ++ ['\n']) = [] := by
  rw [lastLine, List.rtakeWhile_concat_neg]
  decide

theorem lastLine_append_singleton {c : Char} (hc : c ≠ '\n') (cs : List Char) :
    lastLine (cs ++ [c]) = lastLine cs ++ [c] := by
  rw [lastLine, List.rtakeWhile_concat_pos, lastLine]
  simp [hc]

namespace Position

theorem advance_append_singleton (p : Position) (cs : List Char) (c : Char) :
    p.advance (cs ++ [c]) = (p.advance cs).step c := by
  rw [advance_append, advance_cons, advance_nil]

/-- Columns are counted from the last line feed. -/
theorem column_start_advance (cs : List Char) :
    (start.advance cs).column = 1 + (lastLine cs).length := by
  induction cs using List.reverseRecOn with
  | nil => rfl
  | append_singleton cs c ih =>
    rw [advance_append_singleton, step]
    by_cases hc : c = '\n'
    · rw [if_pos hc, hc, lastLine_newline]
      rfl
    · rw [if_neg hc, ih, lastLine_append_singleton hc, List.length_append]
      simp only [List.length_singleton]
      omega

/-- **A place by counting.** -/
theorem start_advance (cs : List Char) :
    start.advance cs = ⟨cs.length, 1 + cs.count '\n', 1 + (lastLine cs).length⟩ := by
  have hoffset := offset_advance start cs
  have hline := line_advance start cs
  have hcolumn := column_start_advance cs
  generalize start.advance cs = p at hoffset hline hcolumn
  obtain ⟨offset, line, column⟩ := p
  simp only [start] at hoffset hline hcolumn
  simp only [Position.mk.injEq]
  exact ⟨by omega, hline, hcolumn⟩

/-! ## 2. Later places -/

/-- On an earlier line, or on the same one and further to the left. -/
def Before (p q : Position) : Prop :=
  p.line < q.line ∨ p.line = q.line ∧ p.column < q.column

theorem Before.trans {p q r : Position} (hpq : p.Before q) (hqr : q.Before r) : p.Before r := by
  unfold Before at *
  omega

theorem before_step (p : Position) (c : Char) : p.Before (p.step c) := by
  unfold step
  split
  · exact .inl (Nat.lt_succ_self p.line)
  · exact .inr ⟨rfl, Nat.lt_succ_self p.column⟩

/-- Some characters further is later. -/
theorem before_advance {cs : List Char} (hne : cs ≠ []) (p : Position) :
    p.Before (p.advance cs) := by
  induction cs using List.reverseRecOn with
  | nil => exact absurd rfl hne
  | append_singleton cs c ih =>
    rw [advance_append_singleton]
    by_cases hcs : cs = []
    · rw [hcs, advance_nil]
      exact before_step p c
    · exact (ih hcs).trans (before_step _ c)

theorem offset_lt_advance {cs : List Char} (hne : cs ≠ []) (p : Position) :
    p.offset < (p.advance cs).offset := by
  have hlength := List.length_pos_iff.mpr hne
  rw [offset_advance]
  omega

end Position

/-! ## 3. The table of line starts -/

/-- Halving finds the index before which `holds` holds and from which on it fails. -/
theorem partitionPoint_eq {holds : Nat → Bool} {point : Nat} (low size : Nat)
    (hlow : low ≤ point) (hhigh : point ≤ low + size)
    (h : ∀ i, i < low + size → (holds i = true ↔ i < point)) :
    partitionPoint holds low size = point := by
  fun_induction partitionPoint holds low size with
  | case1 low => omega
  | case2 low size hsize half hmiddle ih =>
    have hlt := (h (low + half) (by omega)).mp hmiddle
    exact ih (by omega) (by omega) fun i hi => h i (by omega)
  | case3 low size hsize half hmiddle ih =>
    have hle : point ≤ low + half := by
      by_contra hgt
      exact hmiddle ((h (low + half) (by omega)).mpr (by omega))
    exact ih hlow hle fun i hi => h i (by omega)

/-- The starts that are not behind the offset come first, and their number is the line. -/
theorem lineAt_append {before behind : List Nat} {offset : Nat}
    (hbefore : ∀ s ∈ before, s ≤ offset) (hbehind : ∀ s ∈ behind, offset < s) :
    lineAt (before ++ behind) offset = before.length := by
  refine partitionPoint_eq 0 _ (Nat.zero_le _) (by simp) fun i hi => ?_
  by_cases hlt : i < before.length
  · have hstart := hbefore before[i] (List.getElem_mem hlt)
    simp [List.getElem?_append_left hlt, hlt, hstart]
  · have hle : before.length ≤ i := Nat.le_of_not_lt hlt
    have hlength : i - before.length < behind.length := by
      simp only [List.length_append] at hi
      omega
    have hstart := hbehind behind[i - before.length] (List.getElem_mem hlength)
    simp only [List.getElem?_append_right hle, List.getElem?_eq_getElem hlength, Option.any_some,
      decide_eq_true_eq]
    omega

/-- Behind the front of a text, lines start behind the offset at which the front ends. -/
theorem lineStarts_append (front back : List Char) :
    ∃ behind, lineStarts (front ++ back) = lineStarts front ++ behind ∧
      ∀ s ∈ behind, front.length < s := by
  refine ⟨((back.zipIdx front.length).filter (·.1 = '\n')).map (·.2 + 1), ?_, ?_⟩
  · simp [lineStarts, List.zipIdx_append]
  · intro s hs
    obtain ⟨⟨c, i⟩, hmem, rfl⟩ := List.mem_map.mp hs
    have hi := List.le_snd_of_mem_zipIdx (List.mem_of_mem_filter hmem)
    exact Nat.lt_succ_of_le hi

theorem lineStarts_append_singleton (cs : List Char) (c : Char) :
    lineStarts (cs ++ [c]) = lineStarts cs ++ (if c = '\n' then [cs.length + 1] else []) := by
  by_cases hc : c = '\n' <;> simp [lineStarts, List.zipIdx_append, hc]

/-- The last line of a text starts where what stands behind its last line feed begins. -/
theorem lineStarts_eq_concat (cs : List Char) :
    ∃ before start, lineStarts cs = before ++ [start] ∧ before.length = cs.count '\n' ∧
      start + (lastLine cs).length = cs.length := by
  induction cs using List.reverseRecOn with
  | nil => exact ⟨[], 0, rfl, rfl, rfl⟩
  | append_singleton cs c ih =>
    obtain ⟨before, start, hstarts, hcount, hlength⟩ := ih
    rw [lineStarts_append_singleton, hstarts]
    by_cases hc : c = '\n'
    · refine ⟨before ++ [start], cs.length + 1, by simp [hc], ?_, ?_⟩
      · simp [hc, hcount]
      · simp [hc, lastLine_newline]
    · refine ⟨before, start, by simp [hc], ?_, ?_⟩
      · simp [hc, hcount]
      · rw [lastLine_append_singleton hc, List.length_append, List.length_append]
        omega

theorem le_of_mem_lineStarts {cs : List Char} {s : Nat} (hs : s ∈ lineStarts cs) :
    s ≤ cs.length := by
  obtain rfl | hs := List.mem_cons.mp hs
  · exact Nat.zero_le _
  · obtain ⟨⟨c, i⟩, hmem, rfl⟩ := List.mem_map.mp hs
    have hi := List.snd_lt_of_mem_zipIdx (List.mem_of_mem_filter hmem)
    exact Nat.succ_le_of_lt (by simpa using hi)

/-- What the table gives for the offset at which the front of a text ends. -/
theorem lineAt_lineStarts (front back : List Char) :
    lineAt (lineStarts (front ++ back)) front.length = 1 + front.count '\n' ∧
      lineStartAt (lineStarts (front ++ back)) front.length + (lastLine front).length =
        front.length := by
  obtain ⟨behind, happend, hbehind⟩ := lineStarts_append front back
  obtain ⟨before, start, hstarts, hcount, hlength⟩ := lineStarts_eq_concat front
  have hline : lineAt (lineStarts (front ++ back)) front.length = before.length + 1 := by
    rw [happend, lineAt_append (fun _ => le_of_mem_lineStarts) hbehind, hstarts,
      List.length_append, List.length_singleton]
  have hstart : lineStartAt (lineStarts (front ++ back)) front.length = start := by
    rw [lineStartAt, hline, happend, hstarts]
    simp
  rw [hline, hstart]
  exact ⟨by omega, hlength⟩

/-- No line starts behind the offset that it was found for. -/
theorem lineStartAt_le (front back : List Char) :
    lineStartAt (lineStarts (front ++ back)) front.length ≤ front.length := by
  obtain ⟨-, hstart⟩ := lineAt_lineStarts front back
  omega

/-- **A place by the table.** -/
theorem Position.locate_eq (front back : List Char) :
    locate (lineStarts (front ++ back)) front.length = start.advance front := by
  obtain ⟨hline, hstart⟩ := lineAt_lineStarts front back
  have hcolumn : front.length - lineStartAt (lineStarts (front ++ back)) front.length + 1 =
      1 + (lastLine front).length := by omega
  rw [locate, start_advance, hline, hcolumn]

/-- A line feed stands on the line that it ends. -/
example : [1, 2, 3].map (Position.locate (lineStarts "a\n\nb".toList)) =
    [⟨1, 1, 2⟩, ⟨2, 2, 1⟩, ⟨3, 3, 1⟩] := by
  decide +kernel

/-! ## 4. Tokens -/

/-- A token stands where some characters of the text end. -/
theorem exists_advance_of_mem_tokensFrom {p : Position} {cs : List Char} {t : PlacedToken}
    (ht : t ∈ tokensFrom p cs) :
    ∃ front back, cs = front ++ back ∧ t.position = p.advance front := by
  obtain ⟨before, behind, htokens⟩ := List.append_of_mem ht
  obtain ⟨front, back, hcs, -, hposition, -⟩ := exists_tokensFrom_eq htokens
  exact ⟨front, back, hcs, hposition⟩

/-- Every token stands some characters behind those before it. -/
theorem pairwise_tokensFrom (p : Position) (cs : List Char) :
    (tokensFrom p cs).Pairwise fun t u =>
      ∃ between, between ≠ [] ∧ u.position = t.position.advance between := by
  induction cs using cutting_induction generalizing p with
  | atEnd cs hsplit =>
    rw [tokensFrom_of_nil p hsplit]
    exact List.pairwise_singleton _ _
  | token cs c rest hsplit ih =>
    rw [tokensFrom_of_cons p hsplit]
    refine List.pairwise_cons.mpr ⟨fun u hu => ?_, ih _⟩
    -- Between the two stand at least the characters of the first.
    obtain ⟨front, back, -, hposition⟩ := exists_advance_of_mem_tokensFrom hu
    refine ⟨(lex c rest).text ++ front, ?_, ?_⟩
    · exact List.append_ne_nil_of_left_ne_nil (lex_text_ne_nil c rest) front
    · rw [hposition, Position.advance_append, ← Position.advance_append]

/-- **The places of tokens are exact.** Each is what counting in the text before the token
    gives, and what the table of line starts gives for its offset. From token to token offsets
    and places go up, so no two tokens share one. -/
theorem tokenize_places (source : String) :
    (∀ t ∈ tokenize source,
      t.position.offset ≤ source.length ∧
      t.position.line = 1 + (source.toList.take t.position.offset).count '\n' ∧
      t.position.column = 1 + (lastLine (source.toList.take t.position.offset)).length ∧
      0 < t.position.line ∧ 0 < t.position.column ∧
      t.position = Position.locate (lineStarts source.toList) t.position.offset ∧
      lineStartAt (lineStarts source.toList) t.position.offset ≤ t.position.offset) ∧
    (tokenize source).Pairwise (fun t u =>
      t.position.offset < u.position.offset ∧ t.position.Before u.position) ∧
    ((tokenize source).map (·.position)).Nodup := by
  have hpairs := pairwise_tokensFrom .start source.toList
  refine ⟨fun t ht => ?_, ?_, ?_⟩
  · obtain ⟨front, back, hsource, hposition⟩ := exists_advance_of_mem_tokensFrom ht
    have hcounted := hposition
    rw [Position.start_advance] at hcounted
    have hoffset : t.position.offset = front.length := by rw [hcounted]
    have htake : source.toList.take t.position.offset = front := by
      rw [hoffset, hsource, List.take_left]
    have hlength : source.length = front.length + back.length := by
      rw [← String.length_toList, hsource, List.length_append]
    have hline : t.position.line = 1 + front.count '\n' := by rw [hcounted]
    have hcolumn : t.position.column = 1 + (lastLine front).length := by rw [hcounted]
    rw [htake, hoffset]
    refine ⟨by omega, hline, hcolumn, by omega, by omega, ?_, ?_⟩
    · rw [hsource, Position.locate_eq, hposition]
    · rw [hsource]
      exact lineStartAt_le front back
  · refine hpairs.imp fun ⟨between, hne, hposition⟩ => ?_
    rw [hposition]
    exact ⟨Position.offset_lt_advance hne _, Position.before_advance hne _⟩
  · refine List.pairwise_map.mpr (hpairs.imp ?_)
    intro t u ⟨between, hne, hposition⟩ hsame
    have hlt := Position.offset_lt_advance hne t.position
    rw [← hposition, hsame] at hlt
    exact Nat.lt_irrefl _ hlt

end StyleEngine
