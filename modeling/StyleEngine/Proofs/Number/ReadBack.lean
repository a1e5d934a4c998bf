import StyleEngine.Number.Layout
import StyleEngine.Proofs.Number.Numeral

/-!
# `Proofs/Number/ReadBack.lean` — a number that is written reads back

`Decimal.shortest` looks for digits by trial, and gives the exact value where no trial
succeeds. The trials need no proof, since each is a reading (`Decimal.rank_ofWidth?`). The
exact value does: that it reads back is a fact about rounding, namely that nothing is rounded
(`Magnitude.nearestUnits_units`). Together they give `Decimal.rank_shortest`.

What remains is the point. It may stand among the digits, or zeros are put before or behind
them until it can; `Layout.plain` writes a numeral in each case, and it stands for the same
magnitude. **`Number.exists_numeral`** is the result: a finite number is written as a
`Numeral` that stands for it. Only the plain form is looked at here, since the other one has
exponents, and these no sheet can read.
-/

set_option autoImplicit false

namespace StyleEngine

/-! ## 1. A magnitude is nearest to itself -/

namespace Magnitude

theorem binade_pos : 0 < binade := by decide

theorem log2_lt_of_lt_two_binade {n : Nat} (hn : n ≠ 0) (h : n < 2 * binade) : n.log2 ≤ 52 := by
  have hpow : 2 * binade = 2 ^ 53 := by decide
  rw [hpow] at h
  exact Nat.le_of_lt_succ ((Nat.log2_lt hn).mpr h)

theorem units_ne_zero {rank : Nat} (hrank : rank ≠ 0) : units rank ≠ 0 := by
  have hsignificand : significand rank ≠ 0 := by
    rw [significand]
    split
    · exact hrank
    · exact Nat.ne_of_gt (Nat.add_pos_left binade_pos _)
  exact Nat.mul_ne_zero hsignificand (Nat.ne_of_gt (Nat.two_pow_pos _))

/-- The surplus bits of a magnitude are its doublings. -/
theorem log2_units {rank : Nat} (hrank : rank ≠ 0) : (units rank).log2 - 52 = doublings rank := by
  have hpos := binade_pos
  by_cases hsmall : rank < 2 * binade
  · have hdiv : rank / binade < 2 := (Nat.div_lt_iff_lt_mul hpos).mpr hsmall
    have hdoublings : doublings rank = 0 := by
      rw [doublings]
      omega
    have hunits : units rank = rank := by
      rw [units, hdoublings, significand, if_pos hsmall]
      exact Nat.mul_one rank
    have hlog := log2_lt_of_lt_two_binade hrank hsmall
    rw [hunits, hdoublings]
    omega
  · have hmod := Nat.mod_lt rank hpos
    have hbinade : binade = 2 ^ 52 := by decide
    have hne := units_ne_zero hrank
    have hlog : (units rank).log2 = 52 + doublings rank := by
      rw [Nat.log2_eq_iff hne, units, significand, if_neg hsmall, Nat.pow_eq]
      refine ⟨?_, ?_⟩
      · rw [Nat.pow_add]
        refine Nat.mul_le_mul_right _ ?_
        omega
      · rw [Nat.add_right_comm, Nat.pow_add]
        refine Nat.mul_lt_mul_of_pos_right ?_ (Nat.two_pow_pos _)
        omega
    omega

theorem doublings_mul_binade (rank : Nat) : doublings rank * binade + significand rank = rank := by
  have hpos := binade_pos
  have hdiv := Nat.div_add_mod rank binade
  by_cases hsmall : rank < 2 * binade
  · have hlt : rank / binade < 2 := (Nat.div_lt_iff_lt_mul hpos).mpr hsmall
    have hdoublings : doublings rank = 0 := by
      rw [doublings]
      omega
    rw [hdoublings, significand, if_pos hsmall, Nat.zero_mul, Nat.zero_add]
  · have hle : 2 ≤ rank / binade := (Nat.le_div_iff_mul_le hpos).mpr (Nat.le_of_not_lt hsmall)
    obtain ⟨k, hk⟩ := Nat.exists_eq_add_of_le hle
    rw [doublings, significand, if_neg hsmall]
    have hmul : (rank / binade - 1) * binade + binade = binade * (rank / binade) := by
      rw [hk, Nat.mul_comm binade, Nat.add_comm 2 k]
      show (k + 1) * binade + binade = (k + 1 + 1) * binade
      rw [Nat.succ_mul (k + 1)]
    omega

/-- **A magnitude is nearest to itself**, over any denominator. -/
theorem nearestUnits_units {rank b : Nat} (hrank : rank ≠ 0) (hle : rank ≤ infinity) (hb : 0 < b) :
    nearestUnits (units rank * b) b = rank := by
  have hpow : 0 < b * Nat.pow 2 (doublings rank) := Nat.mul_pos hb (Nat.two_pow_pos _)
  have hnumerator : units rank * b = significand rank * (b * Nat.pow 2 (doublings rank)) := by
    rw [units, Nat.mul_assoc, Nat.mul_comm b]
  unfold nearestUnits
  simp only [Nat.mul_div_cancel _ hb, log2_units hrank]
  rw [hnumerator, divideToEven_of_dvd hpow, doublings_mul_binade]
  exact Nat.min_eq_right hle

end Magnitude

/-! ## 2. Digits read back -/

namespace Decimal

theorem five_pow_mul_two_pow (n : Nat) : Nat.pow 5 n * Nat.pow 2 n = Nat.pow 10 n :=
  (Nat.mul_pow 5 2 n).symm

theorem mul_five_pow_ne_zero {m : Nat} (hm : m ≠ 0) (n : Nat) : m * Nat.pow 5 n ≠ 0 :=
  Nat.mul_ne_zero hm (Nat.ne_of_gt (Nat.pow_pos (by decide)))

theorem le_log2_mul_five_pow {m : Nat} (hm : m ≠ 0) (n : Nat) :
    2 * n ≤ (m * Nat.pow 5 n).log2 := by
  rw [Nat.le_log2 (mul_five_pow_ne_zero hm n)]
  calc 2 ^ (2 * n) = 4 ^ n := Nat.pow_mul 2 2 n
    _ ≤ 5 ^ n := Nat.pow_le_pow_left (by decide) n
    _ ≤ m * Nat.pow 5 n := Nat.le_mul_of_pos_left _ (Nat.pos_of_ne_zero hm)

/-- The exact value is read as what it is. -/
theorem rank_exact {rank : Nat} (hrank : rank ≠ 0) (hfinite : rank < Magnitude.infinity) :
    (exact rank).rank = rank := by
  have hunits := Magnitude.units_ne_zero hrank
  have hlog := le_log2_mul_five_pow hunits 1074
  have hdigits := mul_five_pow_ne_zero hunits 1074
  -- The exact value is far from so small that it would count as zero.
  have hsmall : ∀ n, 2 * 1074 ≤ n → ¬n + 1101 ≤ 3 * (1073 + 1) := by
    intro n hn
    omega
  have hten : ∀ n, 0 < Nat.pow 10 n := fun n => Nat.pow_pos (by decide)
  have hexponent : (-1074 : Int) = .negSucc 1073 := rfl
  rw [exact, Decimal.rank, if_neg hdigits]
  simp only [hexponent, if_neg (hsmall _ hlog)]
  rw [Magnitude.nearest, Magnitude.unitsPerOne, Nat.mul_assoc, five_pow_mul_two_pow]
  exact Magnitude.nearestUnits_units hrank (Nat.le_of_lt hfinite) (hten _)

/-- **What is written reads back.** -/
theorem rank_shortest (tie : Tie) {rank : Nat} (hfinite : rank < Magnitude.infinity) :
    (shortest tie rank).rank = rank := by
  by_cases hrank : rank = 0
  · subst hrank
    rfl
  rw [shortest, if_neg hrank]
  cases hfound : (List.range 17).findSome? fun n => ofWidth? tie rank (n + 1) with
  | none => exact rank_exact hrank hfinite
  | some d =>
    obtain ⟨n, -, hn⟩ := List.exists_of_findSome?_eq_some hfound
    exact rank_ofWidth? hn

end Decimal

/-! ## 3. The point -/

section Point

variable {digits : List Char}

theorem isDigit_of_mem_zeros {n : Nat} : ∀ c ∈ List.replicate n '0', c.isDigit = true := by
  intro c hc
  rw [List.eq_of_mem_replicate hc]
  rfl

/-- A numeral without a sign. -/
def Numeral.ofParts (whole fraction : List Char) (hwhole : ∀ c ∈ whole, c.isDigit = true)
    (hfraction : ∀ c ∈ fraction, c.isDigit = true) (hne : whole ≠ [] ∨ fraction ≠ []) : Numeral :=
  ⟨[], whole, fraction, List.mem_cons_self, hwhole, hfraction, hne⟩

theorem Numeral.pointed_of_ne_nil {fraction : List Char} (h : fraction ≠ []) :
    pointed fraction = '.' :: fraction := by
  cases fraction with
  | nil => exact absurd rfl h
  | cons c fraction => rfl

/-- The digits, and in front of them a zero, the point and more zeros. -/
theorem exists_numeral_before (hdigits : ∀ c ∈ digits, c.isDigit = true) (hne : digits ≠ [])
    (zeros : Nat) :
    ∃ n : Numeral, '0' :: '.' :: (List.replicate zeros '0' ++ digits) = n.unsigned ∧
      n.decimal = ⟨Nat.ofDigitChars 10 digits 0, -zeros - digits.length⟩ := by
  have hzero : ∀ c ∈ ['0'], c.isDigit = true := List.forall_mem_singleton.mpr rfl
  have hfraction : ∀ c ∈ List.replicate zeros '0' ++ digits, c.isDigit = true := by
    intro c hc
    exact (List.mem_append.mp hc).elim (isDigit_of_mem_zeros c) (hdigits c)
  have hfractionNe : List.replicate zeros '0' ++ digits ≠ [] :=
    List.append_ne_nil_of_right_ne_nil _ hne
  have hvalue : Nat.ofDigitChars 10 ('0' :: (List.replicate zeros '0' ++ digits)) 0 =
      Nat.ofDigitChars 10 digits 0 := by
    rw [← List.cons_append, ← List.replicate_succ, Nat.ofDigitChars_append,
      Nat.ofDigitChars_replicate_zero, Nat.mul_zero]
  refine ⟨.ofParts ['0'] _ hzero hfraction (.inr hfractionNe), ?_, ?_⟩
  · simp only [Numeral.unsigned, Numeral.ofParts, Numeral.pointed_of_ne_nil hfractionNe,
      List.cons_append, List.nil_append]
  · simp only [Numeral.decimal, Numeral.ofParts, Decimal.ofDigits, List.cons_append,
      List.nil_append, hvalue, List.length_append, List.length_replicate, Decimal.mk.injEq,
      true_and]
    omega

/-- The digits, and the point between two of them. -/
theorem exists_numeral_among (hdigits : ∀ c ∈ digits, c.isDigit = true) {n : Nat}
    (hn : n < digits.length) :
    ∃ numeral : Numeral, digits.take n ++ '.' :: digits.drop n = numeral.unsigned ∧
      numeral.decimal = ⟨Nat.ofDigitChars 10 digits 0, n - digits.length⟩ := by
  have hdropNe : digits.drop n ≠ [] := by
    rw [ne_eq, List.drop_eq_nil_iff]
    omega
  refine ⟨.ofParts (digits.take n) (digits.drop n) (fun c hc => hdigits c (List.mem_of_mem_take hc))
    (fun c hc => hdigits c (List.mem_of_mem_drop hc)) (.inr hdropNe), ?_, ?_⟩
  · simp only [Numeral.unsigned, Numeral.ofParts, Numeral.pointed_of_ne_nil hdropNe]
  · simp only [Numeral.decimal, Numeral.ofParts, Decimal.ofDigits, List.take_append_drop,
      List.length_drop, Decimal.mk.injEq, true_and]
    omega

/-- The digits, and more zeros behind them. -/
theorem exists_numeral_behind (hdigits : ∀ c ∈ digits, c.isDigit = true) (hne : digits ≠ [])
    (zeros : Nat) :
    ∃ n : Numeral, digits ++ List.replicate zeros '0' = n.unsigned ∧
      n.decimal = ⟨Nat.pow 10 zeros * Nat.ofDigitChars 10 digits 0, 0⟩ := by
  have hwhole : ∀ c ∈ digits ++ List.replicate zeros '0', c.isDigit = true := by
    intro c hc
    exact (List.mem_append.mp hc).elim (hdigits c) (isDigit_of_mem_zeros c)
  refine ⟨.ofParts _ [] hwhole (fun c hc => nomatch hc)
    (.inl (List.append_ne_nil_of_left_ne_nil hne _)), ?_, ?_⟩
  · exact (List.append_nil _).symm
  · simp [Numeral.decimal, Numeral.ofParts, Decimal.ofDigits, Nat.ofDigitChars_append,
      Nat.ofDigitChars_replicate_zero]

/-- What `placePoint` writes is a numeral. The point stands where it was asked for, or zeros
    stand for a power of ten. -/
theorem exists_numeral_placePoint (hdigits : ∀ c ∈ digits, c.isDigit = true) (hne : digits ≠ [])
    (place : Int) :
    ∃ n : Numeral, Layout.placePoint false digits place = n.unsigned ∧
      (n.decimal = ⟨Nat.ofDigitChars 10 digits 0, place - digits.length⟩ ∨
        ∃ zeros : Nat, place = digits.length + zeros ∧
          n.decimal = ⟨Nat.pow 10 zeros * Nat.ofDigitChars 10 digits 0, 0⟩) := by
  unfold Layout.placePoint
  split
  · rename_i n
    obtain ⟨numeral, htext, hvalue⟩ := exists_numeral_before hdigits hne (n + 1)
    exact ⟨numeral, htext, .inl hvalue⟩
  · obtain ⟨numeral, htext, hvalue⟩ := exists_numeral_before hdigits hne 0
    refine ⟨numeral, htext, .inl ?_⟩
    rw [hvalue]
    rfl
  · rename_i n hn
    split
    · rename_i hlt
      obtain ⟨numeral, htext, hvalue⟩ := exists_numeral_among hdigits hlt
      exact ⟨numeral, htext, .inl hvalue⟩
    · rename_i hle
      obtain ⟨numeral, htext, hvalue⟩ :=
        exists_numeral_behind hdigits hne (n - digits.length)
      refine ⟨numeral, htext, .inr ⟨_, ?_, hvalue⟩⟩
      rw [Int.ofNat_eq_natCast]
      omega

end Point

theorem Decimal.rank_natCast {m : Nat} (hm : m ≠ 0) (zeros : Nat) :
    (Decimal.mk m zeros).rank =
      if 400 < zeros then Magnitude.infinity else Magnitude.nearest (m * Nat.pow 10 zeros) 1 := by
  rw [Decimal.rank, if_neg hm]

/-- Zeros stand for a power of ten, unless this is past every magnitude. -/
theorem Decimal.rank_zeros {m zeros : Nat} (h : (Decimal.mk m zeros).rank < Magnitude.infinity) :
    (Decimal.mk (Nat.pow 10 zeros * m) 0).rank = (Decimal.mk m zeros).rank := by
  by_cases hm : m = 0
  · simp [Decimal.rank, hm]
  have hpow : Nat.pow 10 zeros * m ≠ 0 :=
    Nat.mul_ne_zero (Nat.ne_of_gt (Nat.pow_pos (by decide))) hm
  have hwhole := Decimal.rank_natCast hpow 0
  rw [if_neg (Nat.not_lt_zero _)] at hwhole
  have hzeros : ¬400 < zeros := by
    intro hlarge
    rw [Decimal.rank_natCast hm, if_pos hlarge] at h
    exact Nat.lt_irrefl _ h
  rw [Decimal.rank_natCast hm, if_neg hzeros]
  refine hwhole.trans ?_
  rw [Nat.mul_comm (Nat.pow 10 zeros)]
  exact congrArg (Magnitude.nearest · 1) (Nat.mul_one _)

/-- A decimal is written as a numeral with the same magnitude. -/
theorem Layout.exists_numeral_decimal {d : Decimal} (h : d.rank < Magnitude.infinity) :
    ∃ n : Numeral, plain.decimal d = n.unsigned ∧ n.decimal.rank = d.rank := by
  by_cases hd : d.digits = 0
  · refine ⟨.ofParts ['0'] [] (List.forall_mem_singleton.mpr rfl) (fun c hc => nomatch hc)
      (.inl (List.cons_ne_nil _ _)), ?_, ?_⟩
    · rw [decimal]
      exact if_pos hd
    · have hrank : d.rank = 0 := if_pos hd
      rw [hrank]
      rfl
  have hdigits : ∀ c ∈ Nat.toDigits 10 d.digits, c.isDigit = true :=
    fun c hc => Nat.isDigit_of_mem_toDigits (by decide) (by decide) hc
  have hplain : plain.decimal d =
      placePoint false (Nat.toDigits 10 d.digits)
        (d.exponent + (Nat.toDigits 10 d.digits).length) := by
    rw [decimal]
    exact if_neg hd
  obtain ⟨n, htext, hvalue⟩ := exists_numeral_placePoint hdigits Nat.toDigits_ne_nil
    (d.exponent + (Nat.toDigits 10 d.digits).length)
  rw [Nat.ofDigitChars_ten_toDigits] at hvalue
  refine ⟨n, hplain.trans htext, ?_⟩
  obtain hvalue | ⟨zeros, hplace, hvalue⟩ := hvalue
  · rw [hvalue, Int.add_sub_cancel]
  · obtain ⟨digits, exponent⟩ := d
    have hexponent : exponent = zeros := by
      dsimp only at hplace
      omega
    subst hexponent
    rw [hvalue]
    exact Decimal.rank_zeros h

/-! ## 4. Numbers -/

/-- **A finite number is written as a numeral that stands for it.** -/
theorem Number.exists_numeral {x : Number} (hx : x.isFinite = true) :
    ∃ n : Numeral, Layout.plain.number x = n.chars ∧ n.value = x := by
  cases x with
  | nan => cases hx
  | signed negative rank hrank =>
    have hfinite : rank < Magnitude.infinity := of_decide_eq_true hx
    have hshortest := Decimal.rank_shortest .up hfinite
    have hwritten : (Decimal.shortest .up rank).rank < Magnitude.infinity := by
      rw [hshortest]
      exact hfinite
    obtain ⟨n, htext, hvalue⟩ := Layout.exists_numeral_decimal hwritten
    have hnumber : ofDecimal negative n.decimal = .signed negative rank hrank := by
      rw [ofDecimal, ofRank, Number.signed.injEq]
      refine ⟨rfl, ?_⟩
      rw [hvalue, hshortest]
      exact Nat.min_eq_left hrank
    have hplain : Layout.plain.number (.signed negative rank hrank) =
        if negative then '-' :: n.unsigned else n.unsigned := by
      rw [Layout.number, if_neg (Nat.ne_of_lt hfinite), ← htext]
      rfl
    rw [hplain]
    cases negative with
    | false => exact ⟨{ n with sign := [], sign_mem := by simp }, rfl, hnumber⟩
    | true => exact ⟨{ n with sign := ['-'], sign_mem := by simp }, rfl, hnumber⟩

end StyleEngine
