import Mathlib.Data.List.Induction
import StyleEngine.Proofs.Cascade.Warnings

/-!
# `Proofs/Cascade/WarningHistory.lean` — which calls print

Whoever uses a log gives warnings and clears it, in any order. Whether a call prints depends on
all calls before it, and this file says how.

The invariant is about the lines that a log remembers: they are those of the warnings that were
given since it was last cleared, printed or not (`WarningLog.mem_seen_run`). One call keeps it,
by what a call does to that set of warnings (`WarningLog.sinceClear_append_singleton`), and then
every history does.

What follows is not that a warning is printed unless it was given before. The log compares
lines, and two warnings can have the same line (`Warning.key_eq_iff`). Then the second is not
printed, though it is new (`not_forall_prints_run_iff`). With plain components this cannot
happen.
-/

set_option autoImplicit false

namespace StyleEngine

/-- What can be done with a log. -/
inductive WarningCall where
  | warn (w : Warning)
  | clear

namespace WarningLog

/-- The log behind a call. -/
def call (log : WarningLog) : WarningCall → WarningLog
  | .warn w => log.warnOnce w
  | .clear => log.clear

/-- The log behind calls, one after the other. -/
def run (log : WarningLog) (calls : List WarningCall) : WarningLog :=
  calls.foldl call log

theorem run_append_singleton (log : WarningLog) (calls : List WarningCall) (c : WarningCall) :
    log.run (calls ++ [c]) = (log.run calls).call c := by
  rw [run, List.foldl_append]
  rfl

/-! ## 1. What was given since the log was cleared -/

/-- A warning is among those that were given behind the last clearing. -/
def SinceClear (calls : List WarningCall) (w : Warning) : Prop :=
  ∃ before behind, calls = before ++ .warn w :: behind ∧ .clear ∉ behind

theorem not_sinceClear_nil (w : Warning) : ¬ SinceClear [] w := by
  rintro ⟨before, behind, hsplit, -⟩
  exact absurd hsplit.symm (List.append_ne_nil_of_right_ne_nil _ (List.cons_ne_nil _ _))

theorem SinceClear.mem {calls : List WarningCall} {w : Warning} (h : SinceClear calls w) :
    .warn w ∈ calls := by
  obtain ⟨before, behind, rfl, -⟩ := h
  exact List.mem_append_right _ List.mem_cons_self

/-- One more call adds its own warning, and keeps the others unless it clears the log. -/
theorem sinceClear_append_singleton {calls : List WarningCall} {c : WarningCall} {w : Warning} :
    SinceClear (calls ++ [c]) w ↔ c = .warn w ∨ c ≠ .clear ∧ SinceClear calls w := by
  constructor
  · rintro ⟨before, behind, hsplit, hbehind⟩
    rcases List.eq_nil_or_concat' behind with rfl | ⟨behind, last, rfl⟩
    · obtain ⟨-, hlast⟩ := List.append_inj' hsplit rfl
      exact Or.inl (List.cons.inj hlast).1
    · rw [← List.cons_append, ← List.append_assoc] at hsplit
      obtain ⟨hcalls, hlast⟩ := List.append_inj' hsplit rfl
      obtain rfl := (List.cons.inj hlast).1
      rw [List.mem_append, List.mem_singleton, not_or] at hbehind
      exact Or.inr ⟨Ne.symm hbehind.2, before, behind, hcalls, hbehind.1⟩
  · rintro (rfl | ⟨hclear, before, behind, rfl, hbehind⟩)
    · exact ⟨calls, [], rfl, List.not_mem_nil⟩
    · refine ⟨before, behind ++ [c], by simp, ?_⟩
      rw [List.mem_append, List.mem_singleton, not_or]
      exact ⟨hbehind, Ne.symm hclear⟩

/-- **What a log remembers** of a history: the lines of what was given since it was cleared. -/
theorem mem_seen_run {log : WarningLog} {calls : List WarningCall} {line : String} :
    line ∈ (log.clear.run calls).seen ↔ ∃ w, SinceClear calls w ∧ w.key = line := by
  induction calls using List.reverseRecOn with
  | nil =>
    constructor
    · intro hmem
      cases hmem
    · rintro ⟨w, hw, -⟩
      exact absurd hw (not_sinceClear_nil w)
  | append_singleton calls c ih =>
    rw [run_append_singleton]
    simp only [sinceClear_append_singleton]
    cases c with
    | warn w' =>
      rw [call, mem_seen_warnOnce, ih]
      simp [or_and_right, exists_or, or_comm]
    | clear =>
      simp [call, clear]

end WarningLog

/-! ## 2. Printing -/

theorem Warning.text_ne_empty (w : Warning) : w.text ≠ "" := by
  intro hempty
  have hlist := congrArg String.toList hempty
  rw [Warning.text, String.toList_append] at hlist
  exact absurd hlist (List.append_ne_nil_of_right_ne_nil _ (by decide))

namespace WarningLog

/-- Whether the warning is printed if it is given now. -/
def Prints (log : WarningLog) (w : Warning) : Prop :=
  (log.warnOnce w).text = log.text ++ w.text

theorem prints_iff {log : WarningLog} {w : Warning} : log.Prints w ↔ w.key ∉ log.seen := by
  rw [Prints, text, given_warnOnce]
  split
  · rename_i hseen
    refine iff_of_false ?_ (not_not_intro hseen)
    intro hsame
    exact w.text_ne_empty (String.append_eq_left_iff.mp hsame.symm)
  · rename_i hnew
    refine iff_of_true ?_ hnew
    rw [List.map_append, String.join_append]
    simp [text]

/-- What is not printed changes nothing. -/
theorem warnOnce_eq_self_of_not_prints {log : WarningLog} {w : Warning} (h : ¬ log.Prints w) :
    log.warnOnce w = log := by
  rw [prints_iff, not_not] at h
  rw [warnOnce, if_pos (List.contains_iff_mem.mpr h)]

/-- A call prints unless the line of its warning was that of one given before. -/
theorem prints_run_iff_key {log : WarningLog} {calls : List WarningCall} {w : Warning} :
    (log.clear.run calls).Prints w ↔ ∀ w', SinceClear calls w' → w'.key ≠ w.key := by
  rw [prints_iff, mem_seen_run]
  simp only [not_exists, not_and, ne_eq]

end WarningLog

/-- **Which calls print.** On a log that was cleared and then used in any way, a warning is
    printed exactly if, since the log was last cleared, neither it was given nor another one of
    which a piece can be moved between component and message; and if it is not printed, nothing
    happens at all. As long as all components are plain there are no such others, and a warning
    is printed exactly if it was not given before. -/
theorem prints_run_iff (log : WarningLog) (calls : List WarningCall) (w : Warning) :
    ((log.clear.run calls).Prints w ↔
      ∀ w', WarningLog.SinceClear calls w' → w' ≠ w ∧ ¬ w'.Shifted w ∧ ¬ w.Shifted w') ∧
    (¬ (log.clear.run calls).Prints w →
      (log.clear.run calls).warnOnce w = log.clear.run calls) ∧
    ((∀ w', .warn w' ∈ calls ++ [.warn w] → w'.IsPlain) →
      ((log.clear.run calls).Prints w ↔ ¬ WarningLog.SinceClear calls w)) := by
  refine ⟨?_, WarningLog.warnOnce_eq_self_of_not_prints, ?_⟩
  · rw [WarningLog.prints_run_iff_key]
    simp only [ne_eq, Warning.key_eq_iff, not_or]
  · intro hplain
    rw [WarningLog.prints_run_iff_key]
    constructor
    · intro hnew hgiven
      exact hnew w hgiven rfl
    · intro hnew w' hgiven hkey
      have hplain' := hplain w' (List.mem_append_left _ hgiven.mem)
      have hplainw := hplain w (List.mem_append_right _ List.mem_cons_self)
      rw [Warning.eq_of_key hplain' hplainw hkey] at hgiven
      exact hnew hgiven

/-- A new warning that is not printed: `[a] b] c` is the line of both. -/
theorem not_forall_prints_run_iff :
    ¬ ∀ (log : WarningLog) (calls : List WarningCall) (w : Warning),
      (log.clear.run calls).Prints w ↔ ¬ WarningLog.SinceClear calls w := by
  intro hall
  have hnew : ¬ WarningLog.SinceClear [.warn ⟨"a", "b] c"⟩] ⟨"a] b", "c"⟩ := by
    intro hgiven
    have hmem := hgiven.mem
    simp at hmem
  have hgiven : WarningLog.SinceClear [.warn ⟨"a", "b] c"⟩] ⟨"a", "b] c"⟩ :=
    ⟨[], [], rfl, List.not_mem_nil⟩
  have hkey : Warning.key ⟨"a", "b] c"⟩ = Warning.key ⟨"a] b", "c"⟩ := by decide
  have hprints := (hall .empty [.warn ⟨"a", "b] c"⟩] ⟨"a] b", "c"⟩).mpr hnew
  exact WarningLog.prints_run_iff_key.mp hprints _ hgiven hkey

end StyleEngine
