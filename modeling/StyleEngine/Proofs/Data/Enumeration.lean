import StyleEngine.Data.Dict

/-!
# `Proofs/Data/Enumeration.lean` — a dictionary does not remember an order

The entries of a dictionary may be written down in any order and put together again. What
comes out answers what the entries say, as long as no name is there twice
(`Dict.get?_foldl_insert`), and so it is the dictionary they were taken from
(**`Dict.ofList_of_perm`**). To be asked for a name they need not be put together, a look at the
list is enough (`Dict.lookup_of_perm`).
-/

set_option autoImplicit false

namespace StyleEngine.Dict

variable {α : Type} {name : String} {value : α}

theorem eq_entry_iff {e : String × α} (h : name = e.1) :
    (name, value) = e ↔ some e.2 = some value := by
  rw [Prod.ext_iff, and_iff_right h, Option.some.injEq, eq_comm]

theorem ne_entry {e : String × α} (h : name ≠ e.1) : (name, value) ≠ e :=
  fun heq => h (congrArg Prod.fst heq)

theorem lookup_eq_some_iff_mem {es : List (String × α)} (hes : es.Pairwise fun a b => a.1 ≠ b.1) :
    es.lookup name = some value ↔ (name, value) ∈ es := by
  induction es with
  | nil => simp
  | cons e es ih =>
    obtain ⟨hhead, htail⟩ := List.pairwise_cons.mp hes
    rw [lookup_cons_eq, List.mem_cons]
    by_cases hname : name = e.1
    · have hfar : (name, value) ∉ es := fun hmem => hhead _ hmem hname.symm
      rw [if_pos hname, or_iff_left hfar, eq_entry_iff hname]
    · rw [if_neg hname, ih htail, or_iff_right (ne_entry hname)]

/-- No name stands in two entries. -/
theorem distinct (d : Dict α) : d.entries.Pairwise fun a b => a.1 ≠ b.1 := by
  refine d.sorted.imp ?_
  intro a b hlt heq
  rw [heq] at hlt
  exact String.lt_irrefl _ hlt

theorem distinct_of_perm {es : List (String × α)} {d : Dict α} (h : es.Perm d.entries) :
    es.Pairwise fun a b => a.1 ≠ b.1 :=
  (h.pairwise_iff Ne.symm).mpr d.distinct

theorem get?_eq_some_iff_mem {d : Dict α} : d.get? name = some value ↔ (name, value) ∈ d.entries :=
  lookup_eq_some_iff_mem d.distinct

/-- What is found in the entries does not depend on their order. -/
theorem lookup_of_perm {es : List (String × α)} {d : Dict α} (h : es.Perm d.entries)
    (name : String) : es.lookup name = d.get? name := by
  refine Option.ext fun value => ?_
  rw [lookup_eq_some_iff_mem (distinct_of_perm h), get?_eq_some_iff_mem, h.mem_iff]

/-- Entries without a repeated name are added to what is there, over entries of the same name. -/
theorem get?_foldl_insert {es : List (String × α)} (hes : es.Pairwise fun a b => a.1 ≠ b.1)
    (d : Dict α) :
    (es.foldl (fun d entry => d.insert entry.1 entry.2) d).get? name = some value ↔
      (name, value) ∈ es ∨ (∀ e ∈ es, e.1 ≠ name) ∧ d.get? name = some value := by
  induction es generalizing d with
  | nil => simp
  | cons e es ih =>
    obtain ⟨hhead, htail⟩ := List.pairwise_cons.mp hes
    rw [List.foldl_cons, ih htail, get?_insert, List.mem_cons, List.forall_mem_cons]
    by_cases hname : name = e.1
    · have hfar : ∀ e' ∈ es, e'.1 ≠ name := by
        intro e' he'
        rw [hname]
        exact (hhead e' he').symm
      have hnot : (name, value) ∉ es := fun hmem => hfar _ hmem rfl
      rw [if_pos hname, or_iff_right hnot, or_iff_left hnot, and_iff_right hfar, eq_entry_iff hname]
      refine (or_iff_left ?_).symm
      exact fun hother => hother.1.1 hname.symm
    · rw [if_neg hname, or_iff_right (ne_entry hname), and_iff_right (Ne.symm hname)]

/-- **The entries of a dictionary give it back in whatever order they are enumerated.** -/
theorem ofList_of_perm {es : List (String × α)} {d : Dict α} (h : es.Perm d.entries) :
    ofList es = d := by
  refine ext_get? fun name => Option.ext fun value => ?_
  have hempty : ¬((∀ e ∈ es, e.1 ≠ name) ∧ (empty : Dict α).get? name = some value) := by
    rintro ⟨-, hsome⟩
    cases hsome
  rw [ofList, get?_foldl_insert (distinct_of_perm h), or_iff_left hempty, get?_eq_some_iff_mem,
    h.mem_iff]

end StyleEngine.Dict
