import StyleEngine.Proofs.Css.Reading

/-!
# `Proofs/Css/EarliestFault.lean` — a fault is found at the first token it can be seen at

A fault names a place. Two things are wanted of the token there. Up to it and with it the
tokens are enough to know the fault, so the reader has not looked behind it; and without
it there is nothing wrong yet, since what stands before it is the beginning of some sheet.

`Blames` says both of a reading from any point. It holds of the token a reading stops at
and moves back over every token that was taken (`Blames.cons`), because taking a token
only changes the point to read from and what is done with the rules (`read_cons_cases`).
That the tokens taken so far can be completed is `rules?_completion`.
-/

set_option autoImplicit false

namespace StyleEngine

/-! ## The place of a token -/

/-- The token at an index, and the last one behind them all. -/
def tokenOrLast (ts : List PlacedToken) (k : Nat) : Option PlacedToken :=
  ts[k]?.or ts.getLast?

theorem tokenOrLast_cons_succ (t : PlacedToken) (ts : List PlacedToken) (k : Nat) :
    tokenOrLast (t :: ts) (k + 1) = (tokenOrLast ts k).or (some t) := by
  rw [tokenOrLast, tokenOrLast, List.getElem?_cons_succ, List.getLast?_cons]
  cases ts[k]? with
  | some u => rfl
  | none => cases ts.getLast? <;> rfl

theorem exists_tokenOrLast {ts : List PlacedToken} (h : ts ≠ []) (k : Nat) :
    ∃ t, tokenOrLast ts k = some t := by
  have hlast : ts.getLast? = some (ts.getLast h) := List.getLast?_eq_some_getLast h
  rw [tokenOrLast, hlast]
  cases ts[k]? with
  | some u => exact ⟨u, rfl⟩
  | none => exact ⟨ts.getLast h, rfl⟩

namespace Progress

/-! ## One token -/

/-- A token either hands the rest to another point, or ends the reading there and then. -/
theorem read_cons_cases (p : Progress) (t : PlacedToken) :
    (∃ (q : Progress) (f : List Rule → List Rule), ∀ last ts,
        (p.read last (t :: ts)).result = (q.read t.position ts).result.map f) ∨
    (∀ last ts, (p.read last (t :: ts)).result = .ok []) ∨
    ∃ cause, ∀ last ts, (p.read last (t :: ts)).result = .error ⟨cause, t.position⟩ := by
  cases hstep : p.step t.token with
  | next q =>
    refine .inl ⟨q, id, ?_⟩
    intro last ts
    rw [read, hstep]
    dsimp only
    cases (q.read t.position ts).result <;> rfl
  | close rule =>
    refine .inl ⟨top, (rule :: ·), ?_⟩
    intro last ts
    rw [read, hstep]
    rfl
  | finish =>
    refine .inr (.inl ?_)
    intro last ts
    rw [read, hstep]
  | fail cause taken =>
    refine .inr (.inr ⟨cause, ?_⟩)
    intro last ts
    rw [read, hstep]

/-- From every point some tokens lead to the end of a sheet, wherever they stand. -/
theorem exists_read_eq_ok (p : Progress) (last : Position) :
    ∃ more rules, (p.read last more).result = .ok rules := by
  obtain ⟨rules, hrules⟩ := p.rules?_completion
  have hplaced : (p.completion.map (PlacedToken.mk · last)).map (·.token) = p.completion := by
    rw [List.map_map]
    exact List.map_id _
  refine ⟨p.completion.map (PlacedToken.mk · last), rules, ?_⟩
  rw [read_eq_ok_iff, hplaced]
  exact hrules

/-! ## The token to blame -/

/-- A reading from `p` that ends in `fault` has no one to blame but the token at `k`. -/
structure Blames (p : Progress) (last : Position) (ts : List PlacedToken) (fault : Fault)
    (k : Nat) : Prop where
  le_length : k ≤ ts.length
  position : ((tokenOrLast ts k).map (·.position)).getD last = fault.position
  decided : k < ts.length → ∀ others, others.take (k + 1) = ts.take (k + 1) →
    (p.read last others).result = .error fault
  viable : ∃ more rules, (p.read last (ts.take k ++ more)).result = .ok rules

/-- At the end of the tokens the last one is named. -/
theorem Blames.nil {p : Progress} {last : Position} {fault : Fault}
    (h : (p.read last []).result = .error fault) : Blames p last [] fault 0 where
  le_length := Nat.le_refl 0
  position := by
    rw [read] at h
    cases hend : p.atEnd with
    | none => rw [hend] at h; cases h
    | some cause =>
      rw [hend] at h
      cases h
      rfl
  decided := by
    intro hlt
    exact absurd hlt (Nat.lt_irrefl 0)
  viable := p.exists_read_eq_ok last

/-- The token that ends the reading is named. -/
theorem Blames.head {p : Progress} {t : PlacedToken} {cause : Cause}
    (h : ∀ last ts, (p.read last (t :: ts)).result = .error ⟨cause, t.position⟩)
    (last : Position) (ts : List PlacedToken) :
    Blames p last (t :: ts) ⟨cause, t.position⟩ 0 where
  le_length := Nat.zero_le _
  position := rfl
  decided := by
    intro _ others hothers
    cases others with
    | nil => cases hothers
    | cons u others =>
      -- Of the others only the first token matters, and that is `t`.
      cases hothers
      exact h last others
  viable := p.exists_read_eq_ok last

/-- What is to blame behind a token that was taken is to blame in front of it. -/
theorem Blames.cons {p q : Progress} {t : PlacedToken} {f : List Rule → List Rule}
    (hread : ∀ last ts,
      (p.read last (t :: ts)).result = (q.read t.position ts).result.map f)
    {ts : List PlacedToken} {fault : Fault} {k : Nat}
    (h : Blames q t.position ts fault k) (last : Position) :
    Blames p last (t :: ts) fault (k + 1) where
  le_length := Nat.succ_le_succ h.le_length
  position := by
    have hplace := h.position
    rw [tokenOrLast_cons_succ]
    cases hblamed : tokenOrLast ts k with
    | none => rw [hblamed] at hplace; exact hplace
    | some u => rw [hblamed] at hplace; exact hplace
  decided := by
    intro hlt others hothers
    cases others with
    | nil => cases hothers
    | cons u others =>
      rw [List.take_succ_cons, List.take_succ_cons] at hothers
      obtain ⟨rfl, htake⟩ := List.cons.inj hothers
      rw [hread, h.decided (Nat.lt_of_succ_lt_succ hlt) others htake]
      rfl
  viable := by
    obtain ⟨more, rules, hmore⟩ := h.viable
    refine ⟨more, f rules, ?_⟩
    rw [List.take_succ_cons, List.cons_append, hread, hmore]
    rfl

/-- **Every fault has a token to blame.** -/
theorem exists_blames {p : Progress} {last : Position} {ts : List PlacedToken} {fault : Fault}
    (h : (p.read last ts).result = .error fault) : ∃ k, Blames p last ts fault k := by
  induction ts generalizing p last with
  | nil => exact ⟨0, .nil h⟩
  | cons t ts ih =>
    obtain ⟨q, f, hread⟩ | hread | ⟨cause, hread⟩ := p.read_cons_cases t
    · rw [hread] at h
      cases hrest : (q.read t.position ts).result with
      | ok rules => rw [hrest] at h; cases h
      | error fault' =>
        -- The rules in front do not change the fault.
        rw [hrest] at h
        cases h
        obtain ⟨k, hk⟩ := ih hrest
        exact ⟨k + 1, .cons hread hk last⟩
    · rw [hread] at h
      cases h
    · rw [hread] at h
      cases h
      exact ⟨0, .head hread last ts⟩

end Progress

/-! ## Sheets -/

theorem Sheet.ofTokens_eq_error_iff {ts : List PlacedToken} {fault : Fault} :
    Sheet.ofTokens ts = .error fault ↔ (Progress.top.read .start ts).result = .error fault := by
  rw [ofTokens, Reading.sheet, readRules]
  cases (Progress.top.read .start ts).result with
  | error fault' => simp [Except.map]
  | ok rules => simp [Except.map]

/-- **The first fault is the earliest there can be.** It is placed at a token such that the
    tokens up to and with it are at fault in the same way whatever follows, and those
    before it can be completed to a sheet. -/
theorem ofTokens_error_earliest {tokens : List PlacedToken} {fault : Fault}
    (h : Sheet.ofTokens tokens = .error fault) :
    ∃ k, k ≤ tokens.length ∧
      (tokenOrLast tokens k).map (·.position) = some fault.position ∧
      (k < tokens.length → ∀ others, others.take (k + 1) = tokens.take (k + 1) →
        Sheet.ofTokens others = .error fault) ∧
      ∃ more sheet, Sheet.ofTokens (tokens.take k ++ more) = .ok sheet := by
  obtain ⟨k, hk⟩ := Progress.exists_blames (Sheet.ofTokens_eq_error_iff.mp h)
  refine ⟨k, hk.le_length, ?_, ?_, ?_⟩
  · -- No tokens are a sheet, so there is a token to name.
    have hne : tokens ≠ [] := by
      intro hnil
      rw [hnil] at h
      cases h
    obtain ⟨t, ht⟩ := exists_tokenOrLast hne k
    have hplace := hk.position
    rw [ht] at hplace ⊢
    exact congrArg some hplace
  · intro hlt others hothers
    exact Sheet.ofTokens_eq_error_iff.mpr (hk.decided hlt others hothers)
  · obtain ⟨more, rules, hmore⟩ := hk.viable
    refine ⟨more, ⟨rules⟩, ?_⟩
    rw [Sheet.ofTokens, Reading.sheet, readRules, hmore]
    rfl

/-- `a,{}` lacks a selector, and the brace is where that is seen. -/
def missingSelector : List PlacedToken :=
  [⟨.ident "a", ⟨0, 1, 1⟩⟩, ⟨.comma, ⟨1, 1, 2⟩⟩, ⟨.openBrace, ⟨2, 1, 3⟩⟩,
    ⟨.closeBrace, ⟨3, 1, 4⟩⟩]

theorem missingSelector_earliest :
    Sheet.ofTokens missingSelector = .error ⟨.emptySelector, ⟨2, 1, 3⟩⟩ ∧
    ∃ k, k ≤ missingSelector.length ∧
      (tokenOrLast missingSelector k).map (·.position) = some ⟨2, 1, 3⟩ ∧
      (k < missingSelector.length → ∀ others,
        others.take (k + 1) = missingSelector.take (k + 1) →
        Sheet.ofTokens others = .error ⟨.emptySelector, ⟨2, 1, 3⟩⟩) ∧
      ∃ more sheet, Sheet.ofTokens (missingSelector.take k ++ more) = .ok sheet := by
  have h : Sheet.ofTokens missingSelector = .error ⟨.emptySelector, ⟨2, 1, 3⟩⟩ := rfl
  exact ⟨h, ofTokens_error_earliest h⟩

end StyleEngine
