import StyleEngine.Proofs.Css.HexColor
import StyleEngine.Proofs.Css.Printing
import StyleEngine.Proofs.Css.WellFormed
import StyleEngine.Proofs.Number.ReadBack

/-!
# `Proofs/Css/RoundTrip.lean` — a sheet that is written reads back

`Sheet.text` writes the rules of a sheet with spaces in fixed places. Not every sheet is read
back from that: a tag with a brace in its name is not, and there is no way to write a double
quote inside a string. But a sheet that was read from a text is well formed, and of those only
two kinds of values are lost, strings with a double quote and the infinite numbers that
numerals too large are rounded to (`Value.Printable`).

Each part of a sheet is printed as tokens which derive it, part by part: selectors, components
and values, declarations, rules. **`ofText_text`** is the result for the whole sheet.
-/

set_option autoImplicit false

namespace StyleEngine

/-! ## 1. Sheets as text -/

def Declaration.text (d : Declaration) : String :=
  d.name.text ++ (": " ++ (d.value.text ++ "; "))

def Rule.text (rule : Rule) : String :=
  ", ".intercalate (rule.selectors.map Selector.text) ++
    (" \x7b " ++ (String.join (rule.declarations.map Declaration.text) ++ "\x7d\n"))

/-- A sheet as text, one rule a line. -/
def Sheet.text (sheet : Sheet) : String :=
  String.join (sheet.rules.map Rule.text)

/-- No string in a value has a double quote, and every number is finite. -/
inductive Value.Printable : Value → Prop where
  | keyword (word : String) : Printable (.keyword word)
  | dimension {x : Number} {unit : String} (h : x.isFinite = true) : Printable (.dimension x unit)
  | number {x : Number} (h : x.isFinite = true) : Printable (.number x)
  | color (color : Color) : Printable (.color color)
  | string {contents : String} (h : '"' ∉ contents.toList) : Printable (.string contents)
  | list {values : List Value} (h : ∀ v ∈ values, v.Printable) : Printable (.list values)

def Sheet.Printable (sheet : Sheet) : Prop :=
  ∀ rule ∈ sheet.rules, ∀ d ∈ rule.declarations, d.value.Printable

/-! ## 2. Selectors -/

theorem printed_ident {name : String} (h : IsIdent name.toList) :
    Printed name.toList [.ident name] Separated := by
  refine .token h.opens fun rest hrest => ⟨?_, hrest.stops (by simp) (by simp)⟩
  have hspells := @Spells.ident name.toList rest h
  rw [String.ofList_toList] at hspells
  exact hspells

theorem printed_hash {name : List Char} (hne : name ≠ [])
    (h : ∀ c ∈ name, isIdentChar c = true) :
    Printed ('#' :: name) [.hash (String.ofList name) (startsIdent name)] Separated := by
  refine .token ⟨'#', name, rfl, by decide⟩ fun rest hrest => ⟨.hash hne h, ?_⟩
  exact hrest.stops (by simp) (by simp)

theorem isLone_of_selector {c : Char} (h : c = '*' ∨ c = '.') : IsLone c := by
  obtain rfl | rfl := h
  all_goals
    refine ⟨rfl, by unfold IsQuote; decide, rfl, rfl, ?_⟩
    intro t ht
    cases t <;> cases ht

theorem printed_star : Printed ['*'] [.delim '*'] Separated := by
  have hlone : IsLone '*' := isLone_of_selector (.inl rfl)
  refine .token ⟨'*', [], rfl, by decide⟩ fun rest hrest => ⟨.delim hlone, ?_⟩
  exact hrest.stops (by simp) fun c hc => (Token.delim.inj hc).symm

/-- A point in front of a name begins no numeral. -/
theorem printed_point : Printed ['.'] [.delim '.'] (fun rest => startsIdent rest = true) := by
  have hlone : IsLone '.' := isLone_of_selector (.inr rfl)
  refine .token ⟨'.', [], rfl, by decide⟩ fun rest hrest => ⟨.delim hlone, ?_⟩
  have hunsigned := startsUnsigned_of_startsIdent hrest
  rw [startsUnsigned, Bool.or_eq_false_iff] at hunsigned
  refine ⟨?_, ?_, ?_, ?_⟩
  · show (false || startsDigits rest) = false
    rw [hunsigned.1]
    rfl
  · cases rest <;> rfl
  · intro hhash
    cases hhash
  · intro hat
    cases hat

theorem Selector.WellFormed.printed {s : Selector} (h : s.WellFormed) :
    ∃ us, DerivesSelector us s ∧ Opens s.text.toList ∧ Printed s.text.toList us Separated := by
  cases s with
  | universal => exact ⟨_, .universal, ⟨'*', [], rfl, by decide⟩, printed_star⟩
  | tag name => exact ⟨_, .tag name, IsIdent.opens h, printed_ident h⟩
  | cls name =>
    have htext : (Selector.cls name).text.toList = ['.'] ++ name.toList := by
      simp [Selector.text]
    rw [htext]
    refine ⟨_, .cls name, ⟨'.', name.toList, rfl, by decide⟩, ?_⟩
    exact printed_point.append (printed_ident h) fun rest _ => startsIdent_append h.starts rest
  | id name =>
    have htext : (Selector.id name).text.toList = '#' :: name.toList := by
      simp [Selector.text]
    rw [htext]
    refine ⟨_, .id name, ⟨'#', name.toList, rfl, by decide⟩, ?_⟩
    have hprinted := printed_hash h.ne_nil h.chars
    rw [String.ofList_toList, h.starts] at hprinted
    exact hprinted

theorem printed_selectors {ss : List Selector} (hne : ss ≠ []) (h : ∀ s ∈ ss, s.WellFormed) :
    ∃ us, DerivesSelectors us ss ∧ Opens (", ".intercalate (ss.map Selector.text)).toList ∧
      Printed (", ".intercalate (ss.map Selector.text)).toList us Separated := by
  induction ss with
  | nil => exact absurd rfl hne
  | cons s ss ih =>
    obtain ⟨hs, hss⟩ := List.forall_mem_cons.mp h
    obtain ⟨us, hderives, hopens, hprinted⟩ := hs.printed
    cases ss with
    | nil =>
      rw [List.map_cons, List.map_nil, String.intercalate_singleton]
      exact ⟨us, .one hderives, hopens, hprinted⟩
    | cons s' ss =>
      obtain ⟨vs, hderives', hopens', hprinted'⟩ := ih (List.cons_ne_nil _ _) hss
      have htext : (", ".intercalate ((s :: s' :: ss).map Selector.text)).toList =
          s.text.toList ++
            ([',', ' '] ++ (", ".intercalate ((s' :: ss).map Selector.text)).toList) := by
        simp [String.intercalate_cons_cons]
      have hcomma : Printed [',', ' '] [.comma, .whitespace] SpacesEnd := .mark_space rfl rfl
      rw [htext]
      refine ⟨us ++ ([.comma, .whitespace] ++ vs), ?_, hopens.append _, ?_⟩
      · exact @DerivesSelectors.more us [] [.whitespace] vs s _ hderives spaces_nil
          (spaces_cons spaces_nil) hderives'
      · exact hprinted.join hcomma (fun rest => ⟨',', _, rfl, by simp⟩) hopens' hprinted'

/-! ## 3. Values -/

theorem printed_number {x : Number} (h : x.isFinite = true) :
    Opens x.text.toList ∧ Printed x.text.toList [.number x] Separated ∧
      Printed (x.text.toList ++ ['%']) [.percentage x] Separated ∧
      ∀ unit : String, IsIdent unit.toList →
        Printed (x.text.toList ++ unit.toList) [.dimension x unit] Separated := by
  obtain ⟨n, htext, rfl⟩ := Number.exists_numeral h
  rw [Number.text, String.toList_ofList, htext]
  refine ⟨n.opens, ?_, ?_, ?_⟩
  · exact .token n.opens fun rest hrest => ⟨.number n, hrest.stops (by simp) (by simp)⟩
  · exact .token (n.opens.append _) fun rest hrest => ⟨.percentage n, trivial⟩
  · intro unit hunit
    refine .token (n.opens.append _) fun rest hrest => ⟨?_, hrest.stops (by simp) (by simp)⟩
    have hspells := @Spells.dimension unit.toList rest n hunit
    rw [String.ofList_toList] at hspells
    exact hspells

theorem printed_string {contents : String} (hline : '\n' ∉ contents.toList)
    (hquote : '"' ∉ contents.toList) :
    Printed ('"' :: (contents.toList ++ ['"'])) [.string contents] Separated := by
  have hquotable : IsQuotable '"' contents.toList := by
    intro c hc
    refine ⟨?_, ?_⟩
    · rintro rfl
      exact hquote hc
    · rintro rfl
      exact hline hc
  refine .token ⟨'"', _, rfl, by decide⟩ fun rest hrest => ⟨?_, trivial⟩
  have hspells := @Spells.string '"' contents.toList rest (.inl rfl) hquotable
  rw [String.ofList_toList] at hspells
  exact hspells

theorem isIdentChar_of_isHexDigit {c : Char} (h : Ascii.isHexDigit c = true) :
    isIdentChar c = true := by
  simp only [Ascii.isHexDigit, Bool.or_eq_true, Bool.and_eq_true, decide_eq_true_eq, Char.le_def,
    UInt32.le_iff_toNat_le] at h
  have hletter : isIdentStart c = true ∨ c.isDigit = true := by
    obtain (hdigit | hlower) | hupper := h
    · exact .inr hdigit
    · refine .inl (isIdentStart_iff.mpr (.inr (.inl ?_)))
      exact ⟨hlower.1, Nat.le_trans hlower.2 (by decide)⟩
    · refine .inl (isIdentStart_iff.mpr (.inl ?_))
      exact ⟨hupper.1, Nat.le_trans hupper.2 (by decide)⟩
  obtain hletter | hdigit := hletter
  · exact isIdentChar_of_isIdentStart hletter
  · simp [isIdentChar, hdigit]

theorem Value.IsComponent.printed {v : Value} (h : v.IsComponent) (hp : v.Printable) :
    ∃ t, DerivesComponent t v ∧ Opens v.text.toList ∧ Printed v.text.toList [t] Separated := by
  cases hp with
  | keyword word => exact ⟨_, .keyword word, IsIdent.opens h, printed_ident h⟩
  | @number x hx =>
    obtain ⟨hopens, hprinted, -, -⟩ := printed_number hx
    exact ⟨_, .number x, hopens, hprinted⟩
  | @dimension x unit hx =>
    obtain ⟨hopens, -, hpercentage, hdimension⟩ := printed_number hx
    have htext : (Value.dimension x unit).text.toList = x.text.toList ++ unit.toList := by
      simp [Value.text]
    rw [htext]
    obtain ⟨-, rfl | ⟨hunit, hlower⟩⟩ := h
    · exact ⟨_, .percentage x, hopens.append _, hpercentage⟩
    · have hderives := DerivesComponent.dimension x unit
      rw [Ascii.lower_eq_self hlower] at hderives
      exact ⟨_, hderives, hopens.append _, hdimension unit hunit⟩
  | color c =>
    have htext : (Value.color c).text.toList = '#' :: c.digits := c.toList_text
    rw [htext]
    have hprinted := printed_hash c.digits_ne_nil fun d hd =>
      isIdentChar_of_isHexDigit (c.isHexDigit_of_mem_digits d hd)
    exact ⟨_, .color c.ofHex?_digits, ⟨'#', _, rfl, by decide⟩, hprinted⟩
  | @string contents hquote =>
    have htext : (Value.string contents).text.toList = '"' :: (contents.toList ++ ['"']) := by
      simp [Value.text]
    rw [htext]
    exact ⟨_, .string contents, ⟨'"', _, rfl, by decide⟩, printed_string h hquote⟩
  | list _ => exact h.elim

theorem printed_components {vs : List Value} (hne : vs ≠ []) (h : ∀ v ∈ vs, v.IsComponent)
    (hp : ∀ v ∈ vs, v.Printable) :
    ∃ us, DerivesComponents us vs ∧ Opens (" ".intercalate (vs.map Value.text)).toList ∧
      Printed (" ".intercalate (vs.map Value.text)).toList us Separated := by
  induction vs with
  | nil => exact absurd rfl hne
  | cons v vs ih =>
    obtain ⟨hv, hvs⟩ := List.forall_mem_cons.mp h
    obtain ⟨hpv, hpvs⟩ := List.forall_mem_cons.mp hp
    obtain ⟨t, hderives, hopens, hprinted⟩ := hv.printed hpv
    cases vs with
    | nil =>
      rw [List.map_cons, List.map_nil, String.intercalate_singleton]
      exact ⟨[t], .component hderives .nil, hopens, hprinted⟩
    | cons v' vs =>
      obtain ⟨us, hderives', hopens', hprinted'⟩ := ih (List.cons_ne_nil _ _) hvs hpvs
      have htext : (" ".intercalate ((v :: v' :: vs).map Value.text)).toList =
          v.text.toList ++ ([' '] ++ (" ".intercalate ((v' :: vs).map Value.text)).toList) := by
        simp [String.intercalate_cons_cons]
      have hspace : Printed [' '] [.whitespace] SpacesEnd := .space rfl
      rw [htext]
      refine ⟨_, .component hderives (.space hderives'), hopens.append _, ?_⟩
      exact hprinted.join hspace (fun rest => ⟨' ', _, rfl, by simp⟩) hopens' hprinted'

theorem Value.WellFormed.printed {v : Value} (h : v.WellFormed) (hp : v.Printable) :
    ∃ us vs, DerivesComponents us vs ∧ DerivesValue vs v ∧ Opens v.text.toList ∧
      Printed v.text.toList us Separated := by
  have hone : v.IsComponent → ∃ us vs, DerivesComponents us vs ∧ DerivesValue vs v ∧
      Opens v.text.toList ∧ Printed v.text.toList us Separated := by
    intro hv
    obtain ⟨t, hderives, hopens, hprinted⟩ := hv.printed hp
    exact ⟨[t], [v], .component hderives .nil, .one v, hopens, hprinted⟩
  cases hp with
  | @list vs hvs =>
    obtain ⟨hlength, hcomponents⟩ := h
    have hne : vs ≠ [] := by
      rintro rfl
      cases hlength
    obtain ⟨us, hderives, hopens, hprinted⟩ := printed_components hne hcomponents hvs
    have hvalue : DerivesValue vs (.list vs) := by
      match vs, hlength with
      | v₁ :: v₂ :: vs, _ => exact .list v₁ v₂ vs
    rw [Value.text, Value.texts_eq_map]
    exact ⟨us, vs, hderives, hvalue, hopens, hprinted⟩
  | _ => exact hone h

/-! ## 4. Declarations -/

theorem isUpper_of_isPropertyChar {c : Char} (h : isPropertyChar c = true) : c.isUpper = false := by
  refine eq_false_of_ne_true fun hupper => ?_
  have hc := isUpper_iff.mp hupper
  simp only [isPropertyChar, Bool.or_eq_true, decide_eq_true_eq] at h
  obtain ((hlower | hdigit) | rfl) | rfl := h
  · rw [isLower_iff] at hlower
    omega
  · rw [isDigit_iff] at hdigit
    omega
  · cases hupper
  · cases hupper

theorem PropertyName.isPropertyChar (name : PropertyName) :
    ∀ c ∈ name.text.toList, isPropertyChar c = true :=
  (isPropertyName_iff.mp name.valid).2.2

/-- The name of a property is in lower case already. -/
theorem PropertyName.ofText?_text (name : PropertyName) : ofText? name.text = some name := by
  have hlower : Ascii.lower name.text = name.text :=
    Ascii.lower_eq_self fun c hc => isUpper_of_isPropertyChar (name.isPropertyChar c hc)
  unfold ofText?
  simp only [hlower, name.valid, dif_pos]

theorem Declaration.WellFormed.printed {d : Declaration} (h : d.WellFormed)
    (hp : d.value.Printable) :
    ∃ us, DerivesDeclaration us d ∧ Opens d.text.toList ∧
      Printed d.text.toList (us ++ [.semicolon, .whitespace]) SpacesEnd := by
  obtain ⟨us, vs, hcomponents, hvalue, hopens, hprinted⟩ := h.value.printed hp
  have htext : d.text.toList =
      d.name.text.toList ++ ([':', ' '] ++ (d.value.text.toList ++ [';', ' '])) := by
    simp [Declaration.text]
  have hcolon : Printed [':', ' '] [.colon, .whitespace] SpacesEnd := .mark_space rfl rfl
  have hsemicolon : Printed [';', ' '] [.semicolon, .whitespace] SpacesEnd := .mark_space rfl rfl
  have hderives :
      DerivesDeclaration (.ident d.name.text :: ([] ++ .colon :: (.whitespace :: us))) d :=
    .mk d.name.ofText?_text spaces_nil hcomponents.space hvalue
  rw [htext]
  refine ⟨_, hderives, h.name.opens.append _, ?_⟩
  have hpair := (printed_ident h.name).join hcolon (fun rest => ⟨':', _, rfl, by simp⟩) hopens
    hprinted
  have hall := hpair.append hsemicolon fun rest _ => ⟨';', _, rfl, by simp⟩
  simpa using hall

theorem printed_items {ds : List Declaration} (h : ∀ d ∈ ds, d.WellFormed)
    (hp : ∀ d ∈ ds, d.value.Printable) :
    ∃ us, DerivesItems us ds ∧
      (∀ rest, Opens rest → Opens ((String.join (ds.map Declaration.text)).toList ++ rest)) ∧
      Printed (String.join (ds.map Declaration.text)).toList us Opens := by
  induction ds with
  | nil => exact ⟨[], .nil, fun rest hrest => hrest, .nil⟩
  | cons d ds ih =>
    obtain ⟨hd, hds⟩ := List.forall_mem_cons.mp h
    obtain ⟨hpd, hpds⟩ := List.forall_mem_cons.mp hp
    obtain ⟨us, hderives, hopens, hprinted⟩ := hd.printed hpd
    obtain ⟨vs, hderives', hopens', hprinted'⟩ := ih hds hpds
    have htext : (String.join ((d :: ds).map Declaration.text)).toList =
        d.text.toList ++ (String.join (ds.map Declaration.text)).toList := by
      simp [String.join_cons]
    rw [htext]
    refine ⟨us ++ (.semicolon :: .whitespace :: vs), ?_, ?_, ?_⟩
    · exact .declaration hderives (.inr rfl) hderives'.space.semicolon
    · intro rest _
      exact (hopens.append _).append rest
    · have hall := hprinted.append hprinted' fun rest hrest => (hopens' rest hrest).spacesEnd
      simpa using hall

/-! ## 5. Rules -/

theorem Rule.WellFormed.printed {rule : Rule} (h : rule.WellFormed)
    (hp : ∀ d ∈ rule.declarations, d.value.Printable) :
    ∃ us, DerivesRule us rule ∧ Opens rule.text.toList ∧
      Printed rule.text.toList (us ++ [.whitespace]) SpacesEnd := by
  obtain ⟨us, hselectors, hopens, hprinted⟩ := printed_selectors h.selectors_ne_nil h.selectors
  obtain ⟨vs, hitems, hopens', hprinted'⟩ := printed_items h.declarations hp
  have htext : rule.text.toList = (", ".intercalate (rule.selectors.map Selector.text)).toList ++
      ([' '] ++ (['{', ' '] ++ ((String.join (rule.declarations.map Declaration.text)).toList ++
        ['}', '\n']))) := by
    simp [Rule.text]
  have hspace : Printed [' '] [.whitespace] SpacesEnd := .space rfl
  have hopen : Printed ['{', ' '] [.openBrace, .whitespace] SpacesEnd := .mark_space rfl rfl
  have hclose : Printed ['}', '\n'] [.closeBrace, .whitespace] SpacesEnd := .mark_space rfl rfl
  have hderives : DerivesRule (us ++ ([.whitespace] ++ .openBrace ::
      ((.whitespace :: vs) ++ [.closeBrace]))) rule :=
    .mk hselectors (spaces_cons spaces_nil) hitems.space
  rw [htext]
  refine ⟨_, hderives, hopens.append _, ?_⟩
  have hbrace : ∀ rest, Opens (['}', '\n'] ++ rest) := fun rest => ⟨'}', _, rfl, by decide⟩
  have hblock := hopen.append (hprinted'.append hclose fun rest _ => hbrace rest) fun rest _ => by
    rw [List.append_assoc]
    exact (hopens' _ (hbrace rest)).spacesEnd
  have hbehind := hspace.append hblock fun rest _ => rfl
  have hall := hprinted.append hbehind fun rest _ => ⟨' ', _, rfl, by simp⟩
  simpa using hall

theorem printed_rules {rules : List Rule} (h : ∀ rule ∈ rules, rule.WellFormed)
    (hp : ∀ rule ∈ rules, ∀ d ∈ rule.declarations, d.value.Printable) :
    ∃ us, DerivesRules us rules ∧
      (∀ rest, SpacesEnd rest → SpacesEnd ((String.join (rules.map Rule.text)).toList ++ rest)) ∧
      Printed (String.join (rules.map Rule.text)).toList us SpacesEnd := by
  induction rules with
  | nil => exact ⟨[], .nil, fun rest hrest => hrest, .nil⟩
  | cons rule rules ih =>
    obtain ⟨hrule, hrules⟩ := List.forall_mem_cons.mp h
    obtain ⟨hprule, hprules⟩ := List.forall_mem_cons.mp hp
    obtain ⟨us, hderives, hopens, hprinted⟩ := hrule.printed hprule
    obtain ⟨vs, hderives', hspaces, hprinted'⟩ := ih hrules hprules
    have htext : (String.join ((rule :: rules).map Rule.text)).toList =
        rule.text.toList ++ (String.join (rules.map Rule.text)).toList := by
      simp [String.join_cons]
    rw [htext]
    refine ⟨us ++ ([.whitespace] ++ vs), .rule hderives (spaces_cons spaces_nil) hderives', ?_, ?_⟩
    · intro rest _
      exact ((hopens.append _).append rest).spacesEnd
    · have hall := hprinted.append hprinted' hspaces
      simpa using hall

/-! ## 6. Equality -/

theorem Number.equals_self_of_isFinite {x : Number} (h : x.isFinite = true) :
    x.equals x = true := by
  refine equals_self ?_
  rintro rfl
  cases h

theorem Value.Printable.equals_self {v : Value} (h : v.Printable) : v.equals v = true := by
  induction h with
  | keyword word => exact decide_eq_true rfl
  | dimension h => simp [equals, Number.equals_self_of_isFinite h]
  | number h => exact Number.equals_self_of_isFinite h
  | color c => exact decide_eq_true rfl
  | string h => exact decide_eq_true rfl
  | list _ ih => exact allEqual_self ih

theorem Sheet.Printable.equals_self {sheet : Sheet} (h : sheet.Printable) :
    sheet.equals sheet = true :=
  Sheet.equals_self fun rule hrule d hd => (h rule hrule d hd).equals_self

/-! ## 7. The round trip -/

theorem Sheet.WellFormed.read_text {sheet : Sheet} (h : sheet.WellFormed) (hp : sheet.Printable) :
    Sheet.ofText sheet.text = .ok sheet := by
  obtain ⟨us, hderives, -, hprinted⟩ := printed_rules h hp
  have hcut := hprinted [] [] rfl .nil
  rw [List.append_nil, List.append_nil] at hcut
  have hsheet : CutInto sheet.text.toList us := hcut
  exact hsheet.ofText_eq_ok.mpr ⟨[], us, rfl, spaces_nil, hderives⟩

/-- **A sheet that was read from a text, and then written, reads back.** -/
theorem ofText_text {source : String} {sheet : Sheet} (h : Sheet.ofText source = .ok sheet)
    (hp : sheet.Printable) :
    Sheet.ofText sheet.text = .ok sheet ∧ sheet.equals sheet = true := by
  have hwellFormed := Sheet.WellFormed.of_ofText h
  exact ⟨hwellFormed.read_text hp, hp.equals_self⟩

theorem foldedSheet_printable : foldedSheet.Printable := by
  simp only [Sheet.Printable, foldedSheet, List.forall_mem_singleton]
  refine .list ?_
  simp only [List.forall_mem_cons]
  exact ⟨.dimension (by decide), .color _, .string (by decide), List.forall_mem_nil _⟩

theorem ofText_text_folded :
    Sheet.ofText "A,.b\x7bWidth:-1.50E3 #FA0/**/\"x\"\x7d" = .ok foldedSheet ∧ foldedSheet.Printable ∧
    foldedSheet.text = "A, .b \x7b width: -1.5e3 #ffaa00 \"x\"; \x7d\n" ∧
    Sheet.ofText foldedSheet.text = .ok foldedSheet ∧ foldedSheet.equals foldedSheet = true := by
  have htext : foldedSheet.text = "A, .b \x7b width: -1.5e3 #ffaa00 \"x\"; \x7d\n" := by
    decide +kernel
  exact ⟨ofText_folded, foldedSheet_printable, htext, ofText_text ofText_folded foldedSheet_printable⟩

end StyleEngine
