import StyleEngine.Proofs.Cascade.Buckets
import StyleEngine.Proofs.Cascade.Winner

/-!
# `Proofs/Cascade/Exchange.lean` — rules that may change places

Neighbours in a sheet may change places if no property is declared by both, or no weight occurs
among the selectors of both (`Rule.Apart`). **`build_exchange`** says that no document notices.

The two rules do not stay neighbours in the ordered sheet: each falls apart into rules of several
weights, with others in between. So rules are not compared one by one. For one property of one
node a list of rules is a list of answers (`answers`), of which the last counts. Pile by pile, the
exchange moves answers of the one rule past answers of the other only, and of rules that are apart
one has no answer in the pile. The answers stay the same list.
-/

set_option autoImplicit false

namespace StyleEngine

/-- No property is declared by both rules, or no weight occurs among the selectors of both. -/
def Rule.Apart (r₁ r₂ : Rule) : Prop :=
  (∀ d₁ ∈ r₁.declarations, ∀ d₂ ∈ r₂.declarations, d₁.name ≠ d₂.name) ∨
    ∀ s₁ ∈ r₁.selectors, ∀ s₂ ∈ r₂.selectors, s₁.specificity ≠ s₂.specificity

/-! ## 1. Answers -/

/-- What rules say about a property of a node, from the first to the last. -/
def answers (kind : NodeKind) (property : String) (rules : List Rule) : List Value :=
  rules.filterMap (·.valueFor? kind property)

section Answers

variable {kind : NodeKind} {property : String}

theorem answers_append (rules others : List Rule) :
    answers kind property (rules ++ others) =
      answers kind property rules ++ answers kind property others :=
  List.filterMap_append

theorem answers_flatMap {α : Type} (l : List α) (f : α → List Rule) :
    answers kind property (l.flatMap f) = l.flatMap fun a => answers kind property (f a) :=
  List.filterMap_flatMap

/-- The last answer counts. -/
theorem get?_specificValues_eq_getLast? (rules : List Rule) :
    (specificValues rules kind).get? property = (answers kind property rules).getLast? := by
  rw [get?_specificValues, ← List.head?_filterMap, List.filterMap_reverse, List.head?_reverse]
  rfl

/-- Rules with the same answers to everything give the same values. -/
theorem specificValues_eq_of_answers {rules others : List Rule}
    (h : ∀ property, answers kind property rules = answers kind property others) :
    specificValues rules kind = specificValues others kind := by
  refine Dict.ext_get? fun property => ?_
  rw [get?_specificValues_eq_getLast?, get?_specificValues_eq_getLast?, h]

end Answers

/-! ## 2. Rules that are apart -/

namespace Rule

variable {rule r₁ r₂ : Rule} (kind : NodeKind) {property : String}

/-- Whoever does not declare a property has no answer. -/
theorem answers_pile_of_name (h : ∀ d ∈ rule.declarations, d.name.text ≠ property)
    (s : Specificity) : answers kind property (rule.pile s) = [] := by
  refine List.filterMap_eq_nil_iff.mpr fun single hsingle => ?_
  obtain ⟨selector, -, rfl⟩ := List.mem_map.mp hsingle
  rw [valueFor?]
  split
  · refine List.findSome?_eq_none_iff.mpr fun d hd => ?_
    have hne : property ≠ d.name.text := (h d (List.mem_reverse.mp hd)).symm
    rw [Declaration.valueFor?, if_neg hne]
  · rfl

/-- Whoever has no selector of a weight has nothing in its pile. -/
theorem answers_pile_of_weight (property : String) {s : Specificity}
    (h : ∀ t ∈ rule.selectors, t.specificity ≠ s) : answers kind property (rule.pile s) = [] := by
  have hnone : rule.selectors.filter (·.specificity = s) = [] := by
    refine List.filter_eq_nil_iff.mpr fun t ht heq => ?_
    exact h t ht (of_decide_eq_true heq)
  rw [pile, hnone]
  rfl

/-- **In one pile only one of two rules that are apart has answers.** -/
theorem Apart.answers_pile (h : r₁.Apart r₂) (property : String) (s : Specificity) :
    answers kind property (r₁.pile s) = [] ∨ answers kind property (r₂.pile s) = [] := by
  obtain hname | hweight := h
  · by_cases hfirst : ∀ d ∈ r₁.declarations, d.name.text ≠ property
    · exact .inl (answers_pile_of_name kind hfirst s)
    · simp only [not_forall, not_not] at hfirst
      obtain ⟨d₁, hd₁, rfl⟩ := hfirst
      refine .inr (answers_pile_of_name kind (fun d₂ hd₂ heq => ?_) s)
      exact hname d₁ hd₁ d₂ hd₂ (PropertyName.ext heq.symm)
  · by_cases hfirst : ∀ t ∈ r₁.selectors, t.specificity ≠ s
    · exact .inl (answers_pile_of_weight kind property hfirst)
    · simp only [not_forall, not_not] at hfirst
      obtain ⟨t₁, ht₁, rfl⟩ := hfirst
      exact .inr (answers_pile_of_weight kind property fun t₂ ht₂ => (hweight t₁ ht₁ t₂ ht₂).symm)

end Rule

/-! ## 3. Sheets and documents -/

section Exchange

variable {r₁ r₂ : Rule} (before behind : List Rule)

theorem answers_pile_exchange (h : r₁.Apart r₂) (kind : NodeKind) (property : String)
    (s : Specificity) :
    answers kind property (Sheet.pile ⟨before ++ r₁ :: r₂ :: behind⟩ s) =
      answers kind property (Sheet.pile ⟨before ++ r₂ :: r₁ :: behind⟩ s) := by
  simp only [Sheet.pile, List.flatMap_append, List.flatMap_cons, answers_append]
  obtain hnil | hnil := h.answers_pile kind property s
  · rw [hnil, List.nil_append, List.nil_append]
  · rw [hnil, List.nil_append, List.nil_append]

theorem specificValues_exchange (h : r₁.Apart r₂) (kind : NodeKind) :
    specificValues (Sheet.bySpecificity ⟨before ++ r₁ :: r₂ :: behind⟩).rules kind =
      specificValues (Sheet.bySpecificity ⟨before ++ r₂ :: r₁ :: behind⟩).rules kind := by
  refine specificValues_eq_of_answers fun property => ?_
  rw [Sheet.rules_bySpecificity_eq_piles, Sheet.rules_bySpecificity_eq_piles, answers_flatMap,
    answers_flatMap]
  exact List.flatMap_congr fun s _ => answers_pile_exchange before behind h kind property s

end Exchange

namespace Styled

mutual

theorem ofNode_congr {rules others : List Rule}
    (h : ∀ kind, specificValues rules kind = specificValues others kind) :
    ∀ node, ofNode rules node = ofNode others node
  | ⟨kind, children⟩ => by rw [ofNode, ofNode, h kind, ofNodes_congr h children]

theorem ofNodes_congr {rules others : List Rule}
    (h : ∀ kind, specificValues rules kind = specificValues others kind) :
    ∀ nodes, ofNodes rules nodes = ofNodes others nodes
  | [] => rfl
  | node :: nodes => by rw [ofNodes, ofNodes, ofNode_congr h node, ofNodes_congr h nodes]

end

end Styled

/-- **Neighbours that are apart may change places.** Wherever they stand in a sheet, every
    document is styled to the same tree, with the same values at every node. -/
theorem build_exchange {r₁ r₂ : Rule} (h : r₁.Apart r₂) (before behind : List Rule)
    (root : Node) :
    Styled.build root ⟨before ++ r₁ :: r₂ :: behind⟩ =
      Styled.build root ⟨before ++ r₂ :: r₁ :: behind⟩ :=
  Styled.ofNode_congr (specificValues_exchange before behind h) root

/-- Two rules that declare one property, with weights that alternate. -/
def warmRule : Rule := ⟨[.cls "note", .universal], [⟨⟨"color", rfl⟩, .keyword "red"⟩]⟩

def coldRule : Rule := ⟨[.id "a", .tag "p"], [⟨⟨"color", rfl⟩, .keyword "blue"⟩]⟩

theorem build_exchange_warm_cold :
    warmRule.Apart coldRule ∧
    Styled.build (.ofElement "p" [("class", "note")] [.ofText "x"])
        ⟨noteSheet.rules ++ warmRule :: coldRule :: noteSheet.rules⟩ =
      Styled.build (.ofElement "p" [("class", "note")] [.ofText "x"])
        ⟨noteSheet.rules ++ coldRule :: warmRule :: noteSheet.rules⟩ := by
  have hapart : warmRule.Apart coldRule := .inr (by decide)
  exact ⟨hapart, build_exchange hapart noteSheet.rules noteSheet.rules _⟩

end StyleEngine
