import Mathlib.Data.Prod.Lex
import StyleEngine.Cascade.Order

/-!
# `Proofs/Cascade/Order.lean` — the places of rules survive the ordering

`Sheet.bySpecificity` compares weights and nothing else, and what it gives back no longer
says where a rule stood. That rules of equal weight keep the order of the text is left to
the stability of the sort. Here that is made a statement:

* an `Entry` is a selector together with the place of its rule, so `Sheet.entries` is
  `Sheet.split` with the places still there;
* `Sheet.ordered` sorts entries as `Sheet.bySpecificity` sorts rules, and
  `rules_bySpecificity` says that dropping the places gives the ordered sheet;
* **`pairwise_rank_ordered`**: ordered entries go up by weight and then by place.

Nothing is said about nodes or values. What a fold over the ordered rules comes to is in
`Proofs/Cascade/Winner.lean`.
-/

set_option autoImplicit false

namespace StyleEngine

/-! ## A stable sort, in one statement -/

/-- **Stability.** What relates the members of a list from left to right relates, behind
    the sort, those that the order does not tell apart. -/
theorem pairwise_mergeSort_stable {α : Type} {le : α → α → Bool} {R : α → α → Prop}
    (trans : ∀ a b c, le a b → le b c → le a c) (total : ∀ a b, le a b || le b a)
    (refl : ∀ a, R a a) {l : List α} (h : l.Pairwise R) :
    (l.mergeSort le).Pairwise fun a b => le a b ∧ (le b a → R a b) := by
  -- The library states stability by numbering the list, so the places come from there.
  rw [← List.mergeSort_zipIdx, List.pairwise_map]
  have hsort : (l.zipIdx.mergeSort (List.zipIdxLE le)).Pairwise fun a b => List.zipIdxLE le a b :=
    List.pairwise_mergeSort (List.zipIdxLE_trans trans) (List.zipIdxLE_total total) _
  refine hsort.imp_of_mem ?_
  intro a b ha hb hab
  have ha' := List.mem_zipIdx_iff_getElem?.mp (List.mem_mergeSort.mp ha)
  have hb' := List.mem_zipIdx_iff_getElem?.mp (List.mem_mergeSort.mp hb)
  unfold List.zipIdxLE at hab
  split at hab
  · rename_i hle
    refine ⟨hle, fun hge => ?_⟩
    rw [if_pos hge] at hab
    rcases Nat.lt_or_eq_of_le (of_decide_eq_true hab) with hlt | heq
    · obtain ⟨hi, hai⟩ := List.getElem?_eq_some_iff.mp ha'
      obtain ⟨hj, hbj⟩ := List.getElem?_eq_some_iff.mp hb'
      rw [← hai, ← hbj]
      exact List.pairwise_iff_getElem.mp h a.2 b.2 hi hj hlt
    · rw [heq, hb'] at ha'
      rw [Option.some.inj ha']
      exact refl a.1
  · cases hab

/-! ## Weights -/

namespace Specificity

theorem atMost_iff {s₁ s₂ : Specificity} : s₁.atMost s₂ = true ↔ s₁.level ≤ s₂.level := by
  rw [atMost, decide_eq_true_eq]

theorem atMost_trans (s₁ s₂ s₃ : Specificity) (h : s₁.atMost s₂ = true)
    (h' : s₂.atMost s₃ = true) : s₁.atMost s₃ = true := by
  rw [atMost_iff] at h h' ⊢
  exact Nat.le_trans h h'

theorem atMost_total (s₁ s₂ : Specificity) : (s₁.atMost s₂ || s₂.atMost s₁) = true := by
  rw [Bool.or_eq_true, atMost_iff, atMost_iff]
  exact Nat.le_total _ _

end Specificity

/-! ## Entries -/

/-- One selector of a rule, with the place of the rule in its sheet. -/
structure Entry where
  place : Nat
  selector : Selector
  declarations : List Declaration

namespace Entry

def rule (e : Entry) : Rule := ⟨[e.selector], e.declarations⟩

/-- How much an entry counts: its weight, and among equals its place. -/
def rank (e : Entry) : Nat ×ₗ Nat := toLex (e.selector.specificity.level, e.place)

/-- No heavier than. This is all that the sort looks at. -/
def atMost (a b : Entry) : Bool := a.selector.specificity.atMost b.selector.specificity

theorem rank_le {a b : Entry} (h : a.atMost b = true) (hp : b.atMost a = true → a.place ≤ b.place) :
    a.rank ≤ b.rank := by
  rw [atMost, Specificity.atMost_iff] at h hp
  rw [rank, rank, Prod.Lex.toLex_le_toLex]
  rcases Nat.lt_or_eq_of_le h with hlt | heq
  · exact Or.inl hlt
  · exact Or.inr ⟨heq, hp heq.ge⟩

end Entry

namespace Sheet

/-- The entries of a sheet in the order of the text. -/
def entries (sheet : Sheet) : List Entry :=
  sheet.rules.zipIdx.flatMap fun (rule, place) =>
    rule.selectors.map fun selector => ⟨place, selector, rule.declarations⟩

/-- The entries of a sheet in the order in which they count. -/
def ordered (sheet : Sheet) : List Entry :=
  sheet.entries.mergeSort Entry.atMost

theorem mem_entries {sheet : Sheet} {e : Entry} :
    e ∈ sheet.entries ↔ ∃ rule, sheet.rules[e.place]? = some rule ∧
      e.selector ∈ rule.selectors ∧ e.declarations = rule.declarations := by
  simp only [entries, List.mem_flatMap, List.mem_map]
  constructor
  · rintro ⟨⟨rule, place⟩, hrule, selector, hsel, rfl⟩
    exact ⟨rule, List.mem_zipIdx_iff_getElem?.mp hrule, hsel, rfl⟩
  · rintro ⟨rule, hrule, hsel, hdecl⟩
    refine ⟨(rule, e.place), List.mem_zipIdx_iff_getElem?.mpr hrule, e.selector, hsel, ?_⟩
    rw [← hdecl]

theorem mem_ordered {sheet : Sheet} {e : Entry} : e ∈ sheet.ordered ↔ e ∈ sheet.entries :=
  List.mem_mergeSort

theorem pairwise_place_entries (sheet : Sheet) :
    sheet.entries.Pairwise fun a b => a.place ≤ b.place := by
  refine List.pairwise_flatMap.mpr ⟨?_, ?_⟩
  · intro a _
    exact List.pairwise_map.mpr (List.pairwise_of_forall fun _ _ => Nat.le_refl _)
  · refine List.pairwise_iff_getElem.mpr ?_
    intro i j hi hj hij x hx y hy
    simp only [List.getElem_zipIdx, List.mem_map] at hx hy
    obtain ⟨_, _, rfl⟩ := hx
    obtain ⟨_, _, rfl⟩ := hy
    simp only
    omega

theorem split_eq_map_entries (sheet : Sheet) :
    sheet.split = sheet.entries.map fun e => (e.selector.specificity, e.rule) := by
  rw [entries, List.map_flatMap]
  simp only [List.map_map]
  calc sheet.split
      = (sheet.rules.zipIdx.map Prod.fst).flatMap Rule.split := by rw [List.zipIdx_map_fst, split]
    _ = sheet.rules.zipIdx.flatMap fun numbered => numbered.1.split := by rw [List.flatMap_map]

/-! ## The order -/

/-- Without its places, the ordered list of entries is the ordered sheet. -/
theorem rules_bySpecificity (sheet : Sheet) :
    sheet.bySpecificity.rules = sheet.ordered.map Entry.rule := by
  have hsort : (sheet.entries.mergeSort Entry.atMost).map
        (fun e => (e.selector.specificity, e.rule)) =
      (sheet.entries.map fun e => (e.selector.specificity, e.rule)).mergeSort
        fun a b => a.1.atMost b.1 :=
    List.map_mergeSort fun _ _ _ _ => rfl
  rw [bySpecificity, split_eq_map_entries, ← hsort, List.map_map]
  rfl

/-- **Ordered entries go up by weight, and among equals by place.** -/
theorem pairwise_rank_ordered (sheet : Sheet) :
    sheet.ordered.Pairwise fun a b => a.rank ≤ b.rank := by
  have trans : ∀ a b c : Entry, a.atMost b → b.atMost c → a.atMost c :=
    fun _ _ _ => Specificity.atMost_trans _ _ _
  have total : ∀ a b : Entry, a.atMost b || b.atMost a := fun _ _ => Specificity.atMost_total _ _
  have hstable := pairwise_mergeSort_stable trans total (fun a => Nat.le_refl a.place)
    sheet.pairwise_place_entries
  exact hstable.imp fun h => Entry.rank_le h.1 h.2

end Sheet

end StyleEngine
