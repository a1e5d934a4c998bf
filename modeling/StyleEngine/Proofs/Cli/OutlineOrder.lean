import StyleEngine.Proofs.Cascade.DisplayResolution
import StyleEngine.Proofs.Cli.StyleWarnings
import StyleEngine.Proofs.Css.OneLine
import StyleEngine.Proofs.Data.Enumeration

/-!
# `Proofs/Cli/OutlineOrder.lean` — the outline shows no order of a map

The values of a node and the attributes of an element come from maps, and a map may be enumerated
in any order, at every node in another one. A `Listed` tree is a tree with all these orders
settled, and it is from such a tree that the outline is drawn. `Styled.ListedAs` says which trees
these are.

* Nothing of the orders is drawn. An attribute is looked up by its name, which no second entry
  has (`heading_of_perm`), and values are sorted by theirs, so that all orders of them come down
  to one (`inOrder_of_perm`). The rest is the induction over the tree (`lines_of_listedAs`).
* What is drawn is laid out as `Styled.Outlined` says (`outlined_lines`), where every line stands
  as text, from the spaces in front of it on. The relation names no order of enumeration and no
  way to sort: the lines of the values are those of all entries, with the names going up. That
  each of them is one line depends on the sheet, which must have been read from a text.

**`output_style_unordered`** says both of what the command prints.
-/

set_option autoImplicit false

namespace StyleEngine

open Cli

/-! ## 1. Listings -/

/-- A listing of a styled tree, with the entries of every map in some order. The values of a
    text are not listed. -/
inductive Styled.ListedAs : Styled → Listed → Prop where
  | text {contents : String} {values : PropertyMap} {children : List Styled}
      {listed : List Listed} (hchildren : List.Forall₂ Styled.ListedAs children listed) :
      Styled.ListedAs ⟨.text contents, values, children⟩ (.text contents listed)
  | element {e : Element} {attributes : List (String × String)} {values : PropertyMap}
      {shown : List (String × Value)} {children : List Styled} {listed : List Listed}
      (hattributes : attributes.Perm e.attributes.entries) (hvalues : shown.Perm values.entries)
      (hchildren : List.Forall₂ Styled.ListedAs children listed) :
      Styled.ListedAs ⟨.element e, values, children⟩ (.element e.tagName attributes shown listed)

namespace Cli.Listed

mutual

/-- The order of the names is one of the orders. -/
theorem listedAs_ofStyled : ∀ styled : Styled, styled.ListedAs (ofStyled styled)
  | ⟨.text _, _, children⟩ => .text (listedAs_ofAll children)
  | ⟨.element _, _, children⟩ => .element (.refl _) (.refl _) (listedAs_ofAll children)

theorem listedAs_ofAll : ∀ nodes : List Styled, List.Forall₂ Styled.ListedAs nodes (ofAll nodes)
  | [] => .nil
  | styled :: nodes => .cons (listedAs_ofStyled styled) (listedAs_ofAll nodes)

end

theorem pairwise_inOrder {shown : List (String × Value)}
    (h : shown.Pairwise fun a b => a.1 ≠ b.1) :
    (inOrder shown).Pairwise fun a b => a.1 < b.1 := by
  have hle : (inOrder shown).Pairwise fun a b => decide (a.1 ≤ b.1) = true := by
    refine List.pairwise_mergeSort (fun a b c hab hbc => ?_) (fun a b => ?_) shown
    · rw [decide_eq_true_eq] at hab hbc ⊢
      exact String.le_trans hab hbc
    · simpa using String.le_total a.1 b.1
  have hne : (inOrder shown).Pairwise fun a b => a.1 ≠ b.1 :=
    ((List.mergeSort_perm shown _).pairwise_iff Ne.symm).mpr h
  refine (hle.and hne).imp ?_
  intro a b hab
  rw [decide_eq_true_eq] at hab
  exact String.not_le.mp fun hba => hab.2 (String.le_antisymm hab.1 hba)

/-- **Sorting forgets the order of a listing.** -/
theorem inOrder_of_perm {shown : List (String × Value)} {values : PropertyMap}
    (h : shown.Perm values.entries) : inOrder shown = values.entries := by
  have hsorted := pairwise_inOrder (Dict.distinct_of_perm h)
  refine List.Perm.eq_of_pairwise ?_ hsorted values.sorted ((List.mergeSort_perm shown _).trans h)
  intro a b _ _ hab hba
  exact absurd (String.lt_trans hab hba) (String.lt_irrefl _)

theorem heading_of_perm {attributes : List (String × String)} {e : Element}
    (h : attributes.Perm e.attributes.entries) (depth : Nat) (display : Display) :
    heading depth e.tagName attributes display =
      heading depth e.tagName e.attributes.entries display := by
  have htext (name : String) :
      attributeText attributes name = attributeText e.attributes.entries name := by
    rw [attributeText, attributeText, Dict.lookup_of_perm h, ← Dict.get?]
  rw [heading, heading, htext, htext]

mutual

/-- **All listings of a tree are drawn alike**, and the same is said of its nodes. -/
theorem lines_of_listedAs : ∀ (styled : Styled) {listed : Listed}, styled.ListedAs listed →
    ∀ depth, listed.lines depth = (ofStyled styled).lines depth
  | ⟨.text contents, values, children⟩, _, .text hchildren, depth => by
    rw [ofStyled, lines, lines, linesOf_of_listedAs children hchildren]
  | ⟨.element e, values, children⟩, _, .element hattributes hvalues hchildren, depth => by
    rw [ofStyled, lines, lines, linesOf_of_listedAs children hchildren,
      Dict.lookup_of_perm hvalues, inOrder_of_perm hvalues, inOrder_of_perm (.refl _)]
    simp only [heading_of_perm hattributes]
    rfl

theorem linesOf_of_listedAs : ∀ (nodes : List Styled) {listed : List Listed},
    List.Forall₂ Styled.ListedAs nodes listed →
      ∀ depth, linesOf depth listed = linesOf depth (ofAll nodes)
  | [], _, .nil, _ => rfl
  | styled :: nodes, _, .cons hstyled hnodes, depth => by
    rw [ofAll, linesOf, linesOf, lines_of_listedAs styled hstyled,
      linesOf_of_listedAs nodes hnodes]

end

end Cli.Listed

/-! ## 2. The layout -/

namespace Styled

/-- What stands in front of a line: two spaces for each step in. -/
def margin (depth : Nat) : String :=
  String.ofList (List.replicate (2 * depth) ' ')

mutual

/-- How a node stands in the outline, with all below it. A text has its line unless it is blank.
    An element has its heading, then a line for each of its values, in the order of their names,
    and then what is below it, one step further in.

    A line of a value is one line. Of a heading this is not said: the tag name, the id and the
    classes are shown as they are, and if there is a line feed in one of them, then so there is in
    the heading. -/
inductive Outlined : Nat → Styled → List String → Prop where
  | blank {depth : Nat} {contents : String} {values : PropertyMap} {children : List Styled}
      {below : List String} (hblank : trimBlank contents.toList = [])
      (hbelow : OutlinedAll (depth + 1) children below) :
      Outlined depth ⟨.text contents, values, children⟩ below
  | text {depth : Nat} {contents : String} {values : PropertyMap} {children : List Styled}
      {below : List String} (hshown : trimBlank contents.toList ≠ [])
      (hbelow : OutlinedAll (depth + 1) children below) :
      Outlined depth ⟨.text contents, values, children⟩
        ((margin depth ++ String.ofList (Quoted.quote (trimBlank contents.toList))) :: below)
  | element {depth : Nat} {e : Element} {values : PropertyMap} {children : List Styled}
      {display : Display} {shown : List (String × Value)} {valueLines below : List String}
      (hdisplay : ∀ log, ((Styled.display ⟨.element e, values, children⟩).run log).1 = display)
      (hascending : shown.Pairwise fun a b => a.1 < b.1)
      (hshown : ∀ name value, (name, value) ∈ shown ↔ values.get? name = some value)
      (hvalues : valueLines = shown.map fun entry =>
        margin depth ++ "  \x1b[32m" ++ entry.1 ++ "\x1b[39m: " ++ entry.2.text)
      (hlines : ∀ line ∈ valueLines, OnOneLine line)
      (hbelow : OutlinedAll (depth + 1) children below) :
      Outlined depth ⟨.element e, values, children⟩
        ((margin depth ++ "\x1b[36m<" ++ e.tagName ++
          (e.attributes.get? "id").elim "" (" id=\"" ++ · ++ "\"") ++
          (e.attributes.get? "class").elim "" (" class=\"" ++ · ++ "\"") ++
          ">\x1b[39m \x1b[2m[" ++ display.keyword ++ "]\x1b[0m") ::
            (valueLines ++ below))

/-- Nodes stand one below the other. -/
inductive OutlinedAll : Nat → List Styled → List String → Prop where
  | nil {depth : Nat} : OutlinedAll depth [] []
  | cons {depth : Nat} {styled : Styled} {nodes : List Styled} {first rest : List String}
      (hfirst : Outlined depth styled first) (hrest : OutlinedAll depth nodes rest) :
      OutlinedAll depth (styled :: nodes) (first ++ rest)

end

end Styled

namespace Cli.Listed

theorem indent_eq (depth : Nat) : indent depth = Styled.margin depth :=
  rfl

theorem textLines_of_blank {contents : String} (h : trimBlank contents.toList = []) (depth : Nat) :
    textLines depth contents = [] := by
  rw [textLines, h]

theorem textLines_of_ne {contents : String} (h : trimBlank contents.toList ≠ []) (depth : Nat) :
    textLines depth contents =
      [Styled.margin depth ++ String.ofList (Quoted.quote (trimBlank contents.toList))] := by
  rw [textLines]
  split
  · contradiction
  · rfl

theorem attributeText_eq (e : Element) (name : String) :
    attributeText e.attributes.entries name =
      (e.attributes.get? name).elim "" (" " ++ name ++ "=\"" ++ · ++ "\"") := by
  rw [attributeText, ← Dict.get?]
  cases e.attributes.get? name <;> rfl

theorem heading_eq (depth : Nat) (e : Element) (display : Display) :
    heading depth e.tagName e.attributes.entries display =
      Styled.margin depth ++ "\x1b[36m<" ++ e.tagName ++
          (e.attributes.get? "id").elim "" (" id=\"" ++ · ++ "\"") ++
          (e.attributes.get? "class").elim "" (" class=\"" ++ · ++ "\"") ++
          ">\x1b[39m \x1b[2m[" ++ display.keyword ++ "]\x1b[0m" := by
  have hid : " " ++ "id" ++ "=\"" = " id=\"" := by decide
  have hclass : " " ++ "class" ++ "=\"" = " class=\"" := by decide
  rw [heading, attributeText_eq, attributeText_eq, hid, hclass, ← String.toList_inj]
  simp [indent_eq, Paint.apply, Paint.codes, Paint.switch, String.toList_append, toString]

theorem valueLine_eq (depth : Nat) (entry : String × Value) :
    valueLine depth entry =
      Styled.margin depth ++ "  \x1b[32m" ++ entry.1 ++ "\x1b[39m: " ++ entry.2.text := by
  rw [valueLine, ← String.toList_inj]
  simp [indent_eq, Paint.apply, Paint.codes, Paint.switch, String.toList_append]

theorem onOneLine_valueLine {name : String} {value : Value} (hname : OnOneLine name)
    (hvalue : OnOneLine value.text) (depth : Nat) : OnOneLine (valueLine depth (name, value)) := by
  have hmargin : OnOneLine (Styled.margin depth) := by
    rw [OnOneLine, Styled.margin, String.toList_ofList, List.mem_replicate]
    exact fun h => absurd h.2 (by decide)
  rw [valueLine_eq]
  have hgreen : OnOneLine "  \x1b[32m" := by decide
  have hcolon : OnOneLine "\x1b[39m: " := by decide
  exact (((hmargin.append hgreen).append hname).append hcolon).append hvalue

theorem fst_lines_text (depth : Nat) (log : WarningLog) (contents : String)
    (children : List Listed) :
    ((lines depth (.text contents children)).run log).1 =
      textLines depth contents ++ ((linesOf (depth + 1) children).run log).1 :=
  rfl

theorem fst_linesOf_nil (depth : Nat) (log : WarningLog) : ((linesOf depth []).run log).1 = [] :=
  rfl

theorem fst_linesOf_cons (depth : Nat) (log : WarningLog) (node : Listed) (nodes : List Listed) :
    ((linesOf depth (node :: nodes)).run log).1 = ((lines depth node).run log).1 ++
      ((linesOf depth nodes).run ((lines depth node).run log).2).1 :=
  rfl

theorem fst_lines_element (depth : Nat) (log : WarningLog) (tagName : String)
    (attributes : List (String × String)) (values : List (String × Value))
    (children : List Listed) :
    ((lines depth (.element tagName attributes values children)).run log).1 =
      heading depth tagName attributes
          (((values.lookup "display").bind Display.ofValue?).getD
            (Styled.defaultDisplay (some tagName))) ::
        ((inOrder values).map (valueLine depth) ++
          ((linesOf (depth + 1) children).run (log.warnAll
            ((values.lookup "display").bind Styled.complaint?).toList)).1) := by
  have hdisplay := Styled.run_resolveDisplay (some tagName) (values.lookup "display") log
  rw [lines, StateT.run_bind, hdisplay]
  rfl

mutual

/-- **What is drawn is laid out so**, whatever has been warned of before. -/
theorem outlined_lines {sheet : Sheet} (h : sheet.WellFormed) (depth : Nat) (log : WarningLog) :
    ∀ node : Node, (Styled.build node sheet).Outlined depth
      (((ofStyled (.build node sheet)).lines depth).run log).1
  | ⟨.text contents, children⟩ => by
    have hbelow := outlinedAll_linesOf h (depth + 1) log children
    rw [Styled.build, Styled.ofNode, ofStyled, fst_lines_text]
    by_cases hblank : trimBlank contents.toList = []
    · rw [textLines_of_blank hblank, List.nil_append]
      exact .blank hblank hbelow
    · rw [textLines_of_ne hblank, List.singleton_append]
      exact .text hblank hbelow
  | ⟨.element e, children⟩ => by
    have hlines : ∀ line ∈ (specificValues sheet.bySpecificity.rules (.element e)).entries.map
        (valueLine depth), OnOneLine line := by
      intro line hline
      obtain ⟨⟨name, value⟩, hentry, rfl⟩ := List.mem_map.mp hline
      obtain ⟨hname, hvalue⟩ := h.onOneLine (Dict.get?_eq_some_iff_mem.mpr hentry)
      exact onOneLine_valueLine hname hvalue depth
    have hbelow (log : WarningLog) := outlinedAll_linesOf h (depth + 1) log children
    rw [Styled.build, Styled.ofNode, ofStyled, fst_lines_element, inOrder_of_perm (.refl _),
      heading_eq]
    exact .element (fun log => Styled.fst_run_display _ log) (Dict.sorted _)
      (fun _ _ => Dict.get?_eq_some_iff_mem.symm) (by rw [funext (valueLine_eq depth)]) hlines
      (hbelow _)

theorem outlinedAll_linesOf {sheet : Sheet} (h : sheet.WellFormed) (depth : Nat)
    (log : WarningLog) : ∀ nodes : List Node,
    Styled.OutlinedAll depth (Styled.ofNodes sheet.bySpecificity.rules nodes)
      ((linesOf depth (ofAll (Styled.ofNodes sheet.bySpecificity.rules nodes))).run log).1
  | [] => .nil
  | node :: nodes =>
    .cons (outlined_lines h depth log node) (outlinedAll_linesOf h depth _ nodes)

end

end Cli.Listed

/-! ## 3. The command -/

namespace Cli

/-- The line above the outline. -/
def countLine (root : Node) (sheet : Sheet) : String :=
  s!"=== Styled Tree ({root.count} nodes, {sheet.rules.length} rules) ==="

/-- What `style` does with a document and a sheet if the maps come as they are listed here. -/
def styleListed (root : Node) (sheet : Sheet) (listed : Listed) : Warned Output := do
  warnIfEmpty sheet
  let lines ← listed.lines 0
  return .lines (countLine root sheet :: lines)

/-- What it prints then. -/
def printedListed (root : Node) (sheet : Sheet) (listed : Listed) : String :=
  ((styleListed root sheet listed).run .empty).1.text

theorem styleOutput_eq_styleListed (root : Node) (sheet : Sheet) :
    styleOutput root sheet false = styleListed root sheet (.ofStyled (.build root sheet)) :=
  rfl

theorem styleListed_of_listedAs {root : Node} {sheet : Sheet} {listed : Listed}
    (h : (Styled.build root sheet).ListedAs listed) :
    styleListed root sheet listed = styleOutput root sheet false := by
  rw [styleOutput_eq_styleListed, styleListed, styleListed, Listed.lines_of_listedAs _ h]

theorem countLine_eq (root : Node) (sheet : Sheet) :
    countLine root sheet = "=== Styled Tree (" ++ toString root.count ++ " nodes, " ++
      toString sheet.rules.length ++ " rules) ===" :=
  rfl

theorem printedListed_eq (root : Node) (sheet : Sheet) (listed : Listed) :
    ∃ log, printedListed root sheet listed =
      joinLines (countLine root sheet :: ((listed.lines 0).run log).1) :=
  ⟨((warnIfEmpty sheet).run .empty).2, rfl⟩

section Style

variable {files : Files} {css dom : Source} {sheet : Sheet} {root : Node}

theorem wellFormed_of_readSheet (h : css.readSheet files = .ok sheet) : sheet.WellFormed := by
  rw [Source.readSheet] at h
  cases htext : css.read files with
  | error failure =>
    rw [htext] at h
    cases h
  | ok text =>
    rw [htext] at h
    cases hread : Sheet.ofText text with
    | error fault =>
      simp [bind, Except.bind, hread, Except.mapError] at h
    | ok found =>
      obtain rfl : found = sheet := by simpa [bind, Except.bind, hread, Except.mapError] using h
      exact Sheet.WellFormed.of_ofText hread

/-- **What `style` prints does not depend on the order in which a map is enumerated.** Whatever
    the orders are, at all nodes, it is a line that counts, and below it the document in its
    order: of each element the heading, a line for each of its values, with their names going
    up, and then its children, two spaces further in. Behind each of these there is a line feed.
    Only a heading may have more of them, from its tag name, its id or its classes. -/
theorem output_style_unordered (hsheet : css.readSheet files = .ok sheet)
    (hroot : dom.readTree files = .ok root) :
    (∀ listed₁ listed₂, (Styled.build root sheet).ListedAs listed₁ →
      (Styled.build root sheet).ListedAs listed₂ →
      printedListed root sheet listed₁ = printedListed root sheet listed₂) ∧
    (∀ listed, (Styled.build root sheet).ListedAs listed →
      ((Command.style css dom false).run files).output = printedListed root sheet listed) ∧
    ∃ block, (Styled.build root sheet).Outlined 0 block ∧
      ((Command.style css dom false).run files).output =
        String.join ((("=== Styled Tree (" ++ toString root.count ++ " nodes, " ++
          toString sheet.rules.length ++ " rules) ===") :: block).map (· ++ "\n")) := by
  have houtput {listed : Listed} (h : (Styled.build root sheet).ListedAs listed) :
      ((Command.style css dom false).run files).output = printedListed root sheet listed := by
    rw [run_style hsheet hroot, ← styleListed_of_listedAs h]
    rfl
  refine ⟨fun listed₁ listed₂ h₁ h₂ => ?_, fun listed h => houtput h, ?_⟩
  · rw [← houtput h₁, houtput h₂]
  · obtain ⟨log, hprinted⟩ := printedListed_eq root sheet (.ofStyled (.build root sheet))
    refine ⟨_, Listed.outlined_lines (wellFormed_of_readSheet hsheet) 0 log root, ?_⟩
    rw [houtput (Listed.listedAs_ofStyled _), hprinted, joinLines, countLine_eq]

end Style

/-- Two values for one element. -/
def coverText : String :=
  "a\x7bmargin:auto;border:none\x7d"

def coverRule : Rule :=
  ⟨[.tag "a"], [⟨⟨"margin", rfl⟩, .keyword "auto"⟩, ⟨⟨"border", rfl⟩, .keyword "none"⟩]⟩

def coverSheet : Sheet :=
  ⟨[coverRule]⟩

def coverLink : Node :=
  .ofElement "a" [("class", "x"), ("id", "y")] [.ofText "top"]

def coverPage : Node :=
  .ofElement "div" [] [coverLink]

/-- The maps of the link in the order of the text, which is not that of the names. -/
def linkListed : Listed :=
  .element "a" [("id", "y"), ("class", "x")]
    [("margin", .keyword "auto"), ("border", .keyword "none")] [.text "top" []]

def pageListed : Listed :=
  .element "div" [] [] [linkListed]

/-- What is printed of the page. -/
def coverOutput : String :=
  "=== Styled Tree (3 nodes, 1 rules) ===\n" ++
  "\x1b[36m<div>\x1b[39m \x1b[2m[block]\x1b[0m\n" ++
  "  \x1b[36m<a id=\"y\" class=\"x\">\x1b[39m \x1b[2m[inline]\x1b[0m\n" ++
  "    \x1b[32mborder\x1b[39m: none\n" ++
  "    \x1b[32mmargin\x1b[39m: auto\n" ++
  "    \"top\"\n"

theorem ofText_cover : Sheet.ofText coverText = .ok coverSheet := by
  have htokens : (tokenize coverText).map (·.token) =
      [.ident "a", .openBrace, .ident "margin", .colon, .ident "auto", .semicolon,
        .ident "border", .colon, .ident "none", .closeBrace, .eof] := by decide +kernel
  have hmargin : PropertyName.ofText? "margin" = some ⟨"margin", rfl⟩ := by decide +kernel
  have hborder : PropertyName.ofText? "border" = some ⟨"border", rfl⟩ := by decide +kernel
  rw [Sheet.ofText, Sheet.ofTokens_eq_ok, htokens]
  simp [Progress.rules?, Progress.step, stepTop, stepSelectorStart, stepSelectorEnd,
    stepSelectorGap, stepBlock, stepNameEnd, stepValue, Token.startsSelector, Token.component,
    Value.ofComponents?, hmargin, hborder, coverSheet, coverRule]

theorem load_cover : Node.load coverPage.toJson.text = .ok coverPage := by
  rw [Node.load, Node.parse_of_written coverPage.written_toJson]
  rfl

theorem values_cover (kind : NodeKind) :
    specificValues coverSheet.bySpecificity.rules kind = .apply kind .empty coverRule := by
  rw [Sheet.rules_bySpecificity_eq_piles]
  rfl

theorem entries_page : (specificValues coverSheet.bySpecificity.rules coverPage.kind).entries =
    [] := by
  have hmatch : coverRule.matches coverPage.kind = false := by decide
  rw [values_cover, PropertyMap.apply, hmatch]
  rfl

theorem entries_link : (specificValues coverSheet.bySpecificity.rules coverLink.kind).entries =
    [("border", .keyword "none"), ("margin", .keyword "auto")] := by
  have hmatch : coverRule.matches coverLink.kind = true := by decide
  rw [values_cover, PropertyMap.apply, if_pos hmatch]
  rfl

theorem perm_entries_link : [("margin", .keyword "auto"), ("border", .keyword "none")].Perm
    (specificValues coverSheet.bySpecificity.rules coverLink.kind).entries := by
  rw [entries_link]
  exact .swap _ _ _

theorem linkListed_listed : (Styled.build coverLink coverSheet).ListedAs linkListed := by
  have hattributes : (Dict.ofList [("class", "x"), ("id", "y")]).entries =
      [("class", "x"), ("id", "y")] := by decide +kernel
  refine .element (e := ⟨"a", .ofList [("class", "x"), ("id", "y")]⟩) ?_ perm_entries_link
    (.cons (.text .nil) .nil)
  rw [hattributes]
  exact .swap _ _ _

theorem pageListed_listed : (Styled.build coverPage coverSheet).ListedAs pageListed :=
  .element (e := ⟨"div", .ofList []⟩) (.refl _) (.of_eq entries_page.symm)
    (.cons linkListed_listed .nil)

theorem printedListed_cover : printedListed coverPage coverSheet pageListed = coverOutput := by
  have hnone : Listed.inOrder [] = [] := List.mergeSort_nil
  have hlink : Listed.inOrder [("margin", .keyword "auto"), ("border", .keyword "none")] =
      [("border", .keyword "none"), ("margin", .keyword "auto")] :=
    (Listed.inOrder_of_perm perm_entries_link).trans entries_link
  obtain ⟨log, hprinted⟩ := printedListed_eq coverPage coverSheet pageListed
  rw [hprinted, pageListed, linkListed]
  simp only [Listed.fst_lines_element, Listed.fst_lines_text, Listed.fst_linesOf_cons,
    Listed.fst_linesOf_nil, hnone, hlink]
  decide +kernel

theorem output_style_unordered_cover :
    (Source.inline coverText).readSheet (Folder.ofList []).files = .ok coverSheet ∧
    (Source.inline coverPage.toJson.text).readTree (Folder.ofList []).files = .ok coverPage ∧
    (Styled.build coverPage coverSheet).ListedAs pageListed ∧
    printedListed coverPage coverSheet pageListed =
      printedListed coverPage coverSheet (.ofStyled (.build coverPage coverSheet)) ∧
    ((Command.style (.inline coverText) (.inline coverPage.toJson.text) false).run
        (Folder.ofList []).files).output = coverOutput := by
  have hsheet : (Source.inline coverText).readSheet (Folder.ofList []).files = .ok coverSheet := by
    rw [readSheet_inline, ofText_cover]
    rfl
  have hroot : (Source.inline coverPage.toJson.text).readTree (Folder.ofList []).files =
      .ok coverPage := by
    rw [readTree_inline, load_cover]
    rfl
  obtain ⟨htwo, hprinted, -⟩ := output_style_unordered hsheet hroot
  refine ⟨hsheet, hroot, pageListed_listed, ?_, ?_⟩
  · exact htwo _ _ pageListed_listed (Listed.listedAs_ofStyled _)
  · rw [hprinted pageListed pageListed_listed, printedListed_cover]

end Cli

end StyleEngine
