/-!
# `Data/Dict.lean` — finite maps from names

A dictionary holds one value for each of finitely many names. Its entries are kept in
the strict order of their names. That is part of the type, and so a dictionary is
determined by what it answers (`Dict.ext_get?`): the order in which names were put in
leaves no trace, and neither do values that were replaced.
-/

set_option autoImplicit false

namespace StyleEngine

/-- A finite map from names. -/
structure Dict (α : Type) where
  entries : List (String × α)
  sorted : entries.Pairwise fun a b => a.1 < b.1
deriving DecidableEq

namespace Dict

variable {α : Type}

/-! ## Operations -/

def empty : Dict α := ⟨[], .nil⟩

/-- The value for a name. -/
def get? (d : Dict α) (name : String) : Option α :=
  d.entries.lookup name

/-- The names that have a value, in order. -/
def names (d : Dict α) : List String :=
  d.entries.map (·.1)

/-- Puts an entry in its place, over one of the same name. -/
def insertEntry (name : String) (value : α) : List (String × α) → List (String × α)
  | [] => [(name, value)]
  | entry :: entries =>
    if name < entry.1 then (name, value) :: entry :: entries
    else if name = entry.1 then (name, value) :: entries
    else entry :: insertEntry name value entries

theorem mem_insertEntry {name : String} {value : α} {entries : List (String × α)}
    {e : String × α} (h : e ∈ insertEntry name value entries) :
    e = (name, value) ∨ e ∈ entries := by
  induction entries with
  | nil => simpa [insertEntry] using h
  | cons entry entries ih =>
    unfold insertEntry at h
    split at h
    · simpa using h
    · split at h
      · rcases List.mem_cons.mp h with h | h
        · exact .inl h
        · exact .inr (List.mem_cons_of_mem _ h)
      · rcases List.mem_cons.mp h with h | h
        · exact .inr (h ▸ List.mem_cons_self)
        · exact (ih h).imp_right (List.mem_cons_of_mem _)

/-- Neither before nor equal is behind. -/
theorem lt_of_not_lt_of_ne {s t : String} (h : ¬ s < t) (hne : s ≠ t) : t < s :=
  Decidable.byContradiction fun h' => hne (String.le_antisymm h' h)

theorem sorted_insertEntry (name : String) (value : α) {entries : List (String × α)}
    (h : entries.Pairwise fun a b => a.1 < b.1) :
    (insertEntry name value entries).Pairwise fun a b => a.1 < b.1 := by
  induction entries with
  | nil => exact List.pairwise_singleton _ _
  | cons entry entries ih =>
    obtain ⟨hhead, htail⟩ := List.pairwise_cons.mp h
    unfold insertEntry
    split
    · rename_i hlt
      refine List.pairwise_cons.mpr ⟨fun e he => ?_, h⟩
      rcases List.mem_cons.mp he with rfl | he
      · exact hlt
      · exact String.lt_trans hlt (hhead e he)
    · rename_i hnlt
      split
      · rename_i heq
        exact List.pairwise_cons.mpr ⟨fun e he => heq ▸ hhead e he, htail⟩
      · rename_i hne
        refine List.pairwise_cons.mpr ⟨fun e he => ?_, ih htail⟩
        rcases mem_insertEntry he with rfl | he
        · exact lt_of_not_lt_of_ne hnlt hne
        · exact hhead e he

/-- The dictionary with this value for the name. -/
def insert (d : Dict α) (name : String) (value : α) : Dict α :=
  ⟨insertEntry name value d.entries, sorted_insertEntry name value d.sorted⟩

/-- The dictionary of these entries; of several with one name the last counts. -/
def ofList (entries : List (String × α)) : Dict α :=
  entries.foldl (fun d entry => d.insert entry.1 entry.2) empty

/-! ## What a dictionary answers -/

@[simp] theorem get?_empty (name : String) : (empty : Dict α).get? name = none := rfl

theorem lookup_cons_eq (name : String) (entry : String × α) (entries : List (String × α)) :
    (entry :: entries).lookup name =
      if name = entry.1 then some entry.2 else entries.lookup name := by
  obtain ⟨key, value⟩ := entry
  by_cases h : name = key
  · simp [h]
  · rw [List.lookup_cons, beq_false_of_ne h, if_neg h]

theorem lookup_eq_none_of_lt {name : String} {entries : List (String × α)}
    (h : ∀ e ∈ entries, name < e.1) : entries.lookup name = none := by
  induction entries with
  | nil => rfl
  | cons entry entries ih =>
    have hne : name ≠ entry.1 := fun heq =>
      String.lt_irrefl _ (heq ▸ h entry List.mem_cons_self)
    rw [lookup_cons_eq, if_neg hne]
    exact ih fun e he => h e (List.mem_cons_of_mem _ he)

theorem lookup_insertEntry (name : String) (value : α) (entries : List (String × α))
    (other : String) :
    (insertEntry name value entries).lookup other =
      if other = name then some value else entries.lookup other := by
  induction entries with
  | nil => rw [insertEntry, lookup_cons_eq]
  | cons entry entries ih =>
    unfold insertEntry
    split
    · rw [lookup_cons_eq]
    · split
      · rename_i heq
        rw [lookup_cons_eq, lookup_cons_eq, ← heq]
        split <;> rfl
      · rename_i hne
        rw [lookup_cons_eq, lookup_cons_eq, ih]
        by_cases h : other = entry.1
        · rw [if_pos h, if_pos h, if_neg (h ▸ Ne.symm hne)]
        · rw [if_neg h, if_neg h]

theorem get?_insert (d : Dict α) (name : String) (value : α) (other : String) :
    (d.insert name value).get? other = if other = name then some value else d.get? other :=
  lookup_insertEntry name value d.entries other

theorem get?_insert_self (d : Dict α) (name : String) (value : α) :
    (d.insert name value).get? name = some value := by
  simp [get?_insert]

theorem get?_insert_of_ne (d : Dict α) {name other : String} (value : α) (h : other ≠ name) :
    (d.insert name value).get? other = d.get? other := by
  simp [get?_insert, h]

theorem entries_ext {es₁ es₂ : List (String × α)}
    (h₁ : es₁.Pairwise fun a b => a.1 < b.1) (h₂ : es₂.Pairwise fun a b => a.1 < b.1)
    (h : ∀ name, es₁.lookup name = es₂.lookup name) : es₁ = es₂ := by
  induction es₁ generalizing es₂ with
  | nil =>
    cases es₂ with
    | nil => rfl
    | cons e₂ es₂ => simpa [lookup_cons_eq] using h e₂.1
  | cons e₁ es₁ ih =>
    cases es₂ with
    | nil => simpa [lookup_cons_eq] using h e₁.1
    | cons e₂ es₂ =>
      obtain ⟨head₁, tail₁⟩ := List.pairwise_cons.mp h₁
      obtain ⟨head₂, tail₂⟩ := List.pairwise_cons.mp h₂
      have hname : e₁.1 = e₂.1 := by
        refine String.le_antisymm (fun hlt => ?_) fun hlt => ?_
        · have := h e₂.1
          rw [lookup_eq_none_of_lt (List.forall_mem_cons.mpr
            ⟨hlt, fun e he => String.lt_trans hlt (head₁ e he)⟩)] at this
          simp [lookup_cons_eq] at this
        · have := h e₁.1
          rw [lookup_eq_none_of_lt (List.forall_mem_cons.mpr
            ⟨hlt, fun e he => String.lt_trans hlt (head₂ e he)⟩)] at this
          simp [lookup_cons_eq] at this
      have hvalue : e₁.2 = e₂.2 := by
        have := h e₁.1
        rw [lookup_cons_eq, lookup_cons_eq, if_pos rfl, if_pos hname] at this
        exact Option.some.inj this
      have htail : es₁ = es₂ := by
        refine ih tail₁ tail₂ fun name => ?_
        by_cases hn : name = e₁.1
        · rw [lookup_eq_none_of_lt (hn ▸ head₁), lookup_eq_none_of_lt (hn ▸ hname ▸ head₂)]
        · have := h name
          rwa [lookup_cons_eq, lookup_cons_eq, if_neg hn, if_neg (hname ▸ hn)] at this
      rw [Prod.ext hname hvalue, htail]

/-- Dictionaries that answer alike are equal. -/
theorem ext_get? {d₁ d₂ : Dict α} (h : ∀ name, d₁.get? name = d₂.get? name) : d₁ = d₂ := by
  obtain ⟨es₁, hs₁⟩ := d₁
  obtain ⟨es₂, hs₂⟩ := d₂
  obtain rfl : es₁ = es₂ := entries_ext hs₁ hs₂ h
  rfl

end Dict

end StyleEngine
