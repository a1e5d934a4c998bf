import Mathlib.Algebra.Ring.Nat
import Mathlib.Data.List.Basic
import StyleEngine.Cascade.Styled
import StyleEngine.Proofs.Cascade.Order

/-!
# `Proofs/Cascade/Buckets.lean` — putting a sheet in order is dealing it into four piles

`Sheet.bySpecificity` compares weights and sorts. There are only four weights, so the sheet
could as well be gone through four times, each time for the selectors of one weight
(`Sheet.pile`), and the four piles laid one behind the other. **`bySpecificity_eq_piles`** says
that this is the same.

Two facts about a sort by weight carry it. The members of one weight keep their order, because
the sort is stable (`filter_mergeSort_weight`), and a list that goes up is its four parts in a
row (`eq_flatMap_filter_of_pairwise`). The rest is counting: what was in order stays as it is,
so nothing changes when a sheet is put in order again, at its own hand or by the cascade.
-/

set_option autoImplicit false

namespace StyleEngine

/-! ## 1. Sorting by weight -/

section Weight

variable {α : Type} (weight : α → Specificity)

/-- **Members of one weight keep their order**, and none is lost or doubled. -/
theorem filter_mergeSort_weight (s : Specificity) (l : List α) :
    (l.mergeSort fun a b => (weight a).atMost (weight b)).filter (weight · = s) =
      l.filter (weight · = s) := by
  -- Among themselves they are in order already, so the sort leaves them in this order.
  have hpart : (l.filter (weight · = s)).Pairwise fun a b => (weight a).atMost (weight b) = true := by
    refine List.pairwise_of_forall_mem_list ?_
    intro a ha b hb
    have hweight : weight a = weight b := by
      rw [of_decide_eq_true (List.mem_filter.mp ha).2, of_decide_eq_true (List.mem_filter.mp hb).2]
    exact Specificity.atMost_iff.mpr (Nat.le_of_eq (congrArg Specificity.level hweight))
  have hsub := List.sublist_mergeSort
    (fun a b c => Specificity.atMost_trans (weight a) (weight b) (weight c))
    (fun a b => Specificity.atMost_total (weight a) (weight b)) hpart List.filter_sublist
  have hfilter := hsub.filter (weight · = s)
  rw [List.filter_filter] at hfilter
  simp only [Bool.and_self] at hfilter
  have hlength := ((List.mergeSort_perm l fun a b => (weight a).atMost (weight b)).filter
    (weight · = s)).length_eq
  exact (hfilter.eq_of_length hlength.symm).symm

/-- **A list that goes up by weight is its four parts in a row.** -/
theorem eq_flatMap_filter_of_pairwise {l : List α}
    (h : l.Pairwise fun a b => (weight a).atMost (weight b) = true) :
    l = Specificity.all.flatMap fun s => l.filter (weight · = s) := by
  induction l with
  | nil => rfl
  | cons a l ih =>
    obtain ⟨hfirst, htail⟩ := List.pairwise_cons.mp h
    -- Nothing lighter than the first member stands behind it.
    have hnone : ∀ s : Specificity, s.level < (weight a).level → l.filter (weight · = s) = [] := by
      intro s hs
      rw [List.filter_eq_nil_iff]
      intro b hb heq
      have hle := Specificity.atMost_iff.mp (hfirst b hb)
      rw [of_decide_eq_true heq] at hle
      exact Nat.not_lt.mpr hle hs
    have hrest := ih htail
    simp only [Specificity.all, List.flatMap_cons, List.flatMap_nil, List.append_nil,
      List.filter_cons] at hrest ⊢
    cases hweight : weight a with
    | universal => simpa using hrest
    | tag =>
      rw [hweight] at hnone
      rw [hnone .universal (by decide)] at hrest ⊢
      simpa using hrest
    | cls =>
      rw [hweight] at hnone
      rw [hnone .universal (by decide), hnone .tag (by decide)] at hrest ⊢
      simpa using hrest
    | id =>
      rw [hweight] at hnone
      rw [hnone .universal (by decide), hnone .tag (by decide), hnone .cls (by decide)] at hrest ⊢
      simpa using hrest

end Weight

/-! ## 2. Piles -/

/-- The selectors of one weight in a rule, each made a rule with the same declarations. -/
def Rule.pile (rule : Rule) (s : Specificity) : List Rule :=
  (rule.selectors.filter (·.specificity = s)).map fun selector => ⟨[selector], rule.declarations⟩

theorem Rule.filter_split (s : Specificity) (rule : Rule) :
    (rule.split.filter (·.1 = s)).map (·.2) = rule.pile s := by
  rw [split, List.filter_map, List.map_map]
  rfl

namespace Sheet

/-- The single-selector rules of one weight, in the order of the text. -/
def pile (sheet : Sheet) (s : Specificity) : List Rule :=
  sheet.rules.flatMap (·.pile s)

theorem filter_split (s : Specificity) (sheet : Sheet) :
    (sheet.split.filter (·.1 = s)).map (·.2) = sheet.pile s := by
  rw [split, List.filter_flatMap, List.map_flatMap]
  exact List.flatMap_congr fun rule _ => rule.filter_split s

/-- The single-selector rules in order, with their weights. -/
def sorted (sheet : Sheet) : List (Specificity × Rule) :=
  sheet.split.mergeSort fun a b => a.1.atMost b.1

theorem pairwise_sorted (sheet : Sheet) :
    sheet.sorted.Pairwise fun a b => a.1.atMost b.1 = true :=
  List.pairwise_mergeSort (fun a b c => Specificity.atMost_trans a.1 b.1 c.1)
    (fun a b => Specificity.atMost_total a.1 b.1) sheet.split

/-- **The ordered sheet is its four piles**, from the lightest to the heaviest. -/
theorem rules_bySpecificity_eq_piles (sheet : Sheet) :
    sheet.bySpecificity.rules = Specificity.all.flatMap sheet.pile := by
  have hparts := eq_flatMap_filter_of_pairwise (fun e : Specificity × Rule => e.1)
    sheet.pairwise_sorted
  have hpile : ∀ s, (sheet.sorted.filter (·.1 = s)).map (·.2) = sheet.pile s := by
    intro s
    rw [sorted, filter_mergeSort_weight (fun e : Specificity × Rule => e.1), filter_split]
  calc sheet.bySpecificity.rules
      = sheet.sorted.map (·.2) := rfl
    _ = (Specificity.all.flatMap fun s => sheet.sorted.filter (·.1 = s)).map (·.2) :=
        congrArg _ hparts
    _ = Specificity.all.flatMap fun s => (sheet.sorted.filter (·.1 = s)).map (·.2) :=
        List.map_flatMap
    _ = Specificity.all.flatMap sheet.pile := List.flatMap_congr fun s _ => hpile s

/-! ## 3. Nothing is lost -/

theorem perm_bySpecificity (sheet : Sheet) :
    sheet.bySpecificity.rules.Perm (sheet.split.map (·.2)) :=
  (List.mergeSort_perm _ _).map _

theorem exists_of_mem_split {sheet : Sheet} {e : Specificity × Rule} (h : e ∈ sheet.split) :
    ∃ selector declarations, e = (selector.specificity, ⟨[selector], declarations⟩) := by
  obtain ⟨rule, -, hrule⟩ := List.mem_flatMap.mp h
  obtain ⟨selector, -, rfl⟩ := List.mem_map.mp hrule
  exact ⟨selector, rule.declarations, rfl⟩

theorem exists_selectors_eq {sheet : Sheet} {rule : Rule} (h : rule ∈ sheet.bySpecificity.rules) :
    ∃ selector, rule.selectors = [selector] := by
  obtain ⟨e, he, rfl⟩ := List.mem_map.mp (sheet.perm_bySpecificity.mem_iff.mp h)
  obtain ⟨selector, declarations, rfl⟩ := exists_of_mem_split he
  exact ⟨selector, rfl⟩

end Sheet

end StyleEngine
