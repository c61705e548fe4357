import Mathlib.Data.List.Forall2
import CFrontEnd.Proofs.Listing.Assembly
import CFrontEnd.Proofs.Listing.Labels
import CFrontEnd.Proofs.Scan.Origins
import CFrontEnd.Proofs.Schema.Program

/-!
The lines of a listing. Everything in it is written in one line but what is meant for the assembler, which
is taken as it is: a listing has one line for each node unless a line ends in such a text.
-/

namespace CFrontEnd

/-! ## Counting line feeds -/

def lineFeeds (text : String) : Nat := text.toList.count '\n'

@[simp] theorem lineFeeds_append (first second : String) :
    lineFeeds (first ++ second) = lineFeeds first + lineFeeds second := by
  simp [lineFeeds]

theorem lineFeeds_eq_zero {text : String} : lineFeeds text = 0 ↔ IsOneLine text :=
  List.count_eq_zero

theorem lineFeeds_join (texts : List String) :
    lineFeeds (String.join texts) = (texts.map lineFeeds).sum := by
  induction texts with
  | nil => rfl
  | cons text rest ih => rw [String.join_cons, lineFeeds_append, ih, List.map_cons, List.sum_cons]

theorem lineFeeds_closed (texts : List String) :
    lineFeeds (String.join (texts.map (· ++ "\n"))) = texts.length + (texts.map lineFeeds).sum := by
  induction texts with
  | nil => rfl
  | cons text rest ih =>
    have closing : lineFeeds "\n" = 1 := by decide
    rw [List.map_cons, String.join_cons, lineFeeds_append, lineFeeds_append, ih, closing,
      List.length_cons, List.map_cons, List.sum_cons]
    omega

namespace Node

/-! ## The line of a node -/

/-- The template of an assembly statement. -/
def template? (node : Node) : Option String :=
  if node.kind = .assembly then node.name? else none

/-- The assembler name of an object. -/
def symbol? (node : Node) : Option String := node.declarationInfo?.bind DeclarationInfo.symbol

/-- What the node has for the assembler and shows in a listing. -/
def assemblyTexts (node : Node) : List String := node.template?.toList ++ node.symbol?.toList

/-- Two blanks for each level, and the kind. -/
def heading (node : Node) (depth : Nat) : String :=
  String.join (List.replicate depth "  ") ++ node.kind.name

def labelText (node : Node) : String :=
  (node.label?.map fun label => " '" ++ label ++ "'").getD ""

def remarkText (node : Node) : String := String.join (node.remarks.map fun remark => " " ++ remark)

/-- The line without its end. -/
def lineText (node : Node) (depth : Nat) : String :=
  node.heading depth ++ node.labelText ++ node.remarkText

variable {node : Node}

theorem isOneLine_heading (node : Node) (depth : Nat) : IsOneLine (node.heading depth) := by
  refine .append (.join fun blanks isBlanks => ?_) node.kind.isOneLine_name
  rw [List.eq_of_mem_replicate isBlanks]
  decide

theorem isOneLine_label (named : ∀ name ∈ node.name?, IsOneLine name) :
    ∀ label ∈ node.label?, IsOneLine label := by
  intro label isLabel
  unfold label? at isLabel
  split at isLabel
  · rename_i isOperator
    cases isLabel
    exact isOneLine_operatorSpelling isOperator
  · cases isLabel
    exact Literal.isOneLine_label _
  · split at isLabel
    · cases isLabel
      rename_i value _ _ _
      cases value <;> decide
    · cases isLabel
  · cases isLabel
    exact Qualifiers.isOneLine_text _
  · exact named label isLabel

/-- Only the template of an assembly statement can have line feeds in a label. -/
theorem lineFeeds_labelText (conforms : node.Conforms)
    (named : node.kind ≠ .assembly → ∀ name ∈ node.name?, IsOneLine name) :
    lineFeeds node.labelText = (node.template?.toList.map lineFeeds).sum := by
  have opening : lineFeeds " '" = 0 := by decide
  have closing : lineFeeds "'" = 0 := by decide
  have quoted (label : String) : lineFeeds (" '" ++ label ++ "'") = lineFeeds label := by
    simp [opening, closing]
  by_cases isAssembly : node.kind = .assembly
  · obtain ⟨kind, place, payload, children⟩ := node
    subst isAssembly
    have form : payload.form = .name := conforms.payload
    cases payload with
    | name template =>
      change _ = [lineFeeds template].sum
      rw [List.sum_singleton]
      exact quoted template
    | _ => cases form
  · rw [template?, if_neg isAssembly, labelText]
    cases isLabel : node.label? with
    | none => rfl
    | some label =>
      exact (quoted label).trans
        (lineFeeds_eq_zero.mpr (isOneLine_label (named isAssembly) label isLabel))

theorem isOneLine_wordsThatHold {words : List (String × Bool)}
    (all : ∀ word ∈ words, IsOneLine word.1) : ∀ word ∈ wordsThatHold words, IsOneLine word := by
  intro word inWords
  obtain ⟨⟨candidate, holds⟩, inList, isKept⟩ := List.mem_filterMap.mp inWords
  simp only at isKept
  split at isKept
  · cases isKept
    exact all _ inList
  · cases isKept

theorem isOneLine_storageWords {storage : Option StorageClass} :
    ∀ word ∈ storageWords storage, IsOneLine word := by
  intro word inWords
  obtain ⟨kept, _, rfl⟩ := Option.map_eq_some_iff.mp (Option.mem_toList.mp inWords)
  exact kept.isOneLine_spelling

theorem lineFeeds_remarks {remarks : List String} (all : ∀ remark ∈ remarks, IsOneLine remark) :
    lineFeeds (String.join (remarks.map fun remark => " " ++ remark)) = 0 := by
  refine lineFeeds_eq_zero.mpr (.join fun text inTexts => ?_)
  obtain ⟨remark, inRemarks, rfl⟩ := List.mem_map.mp inTexts
  exact .append (by decide) (all remark inRemarks)

/-- Only an assembler name can have line feeds in a remark. -/
theorem lineFeeds_remarkText (node : Node) :
    lineFeeds node.remarkText = (node.symbol?.toList.map lineFeeds).sum := by
  obtain ⟨kind, place, payload, children⟩ := node
  cases payload with
  -- Of all payloads only this one holds a text that is not made of names and words.
  | declaration info =>
    have words : ∀ word ∈ storageWords info.storage ++
        wordsThatHold [("thread_local", info.isThreadLocal)], IsOneLine word :=
      List.forall_mem_append.mpr
        ⟨isOneLine_storageWords, isOneLine_wordsThatHold (by simp [IsOneLine])⟩
    have blank : lineFeeds " " = 0 := by decide
    have opening : lineFeeds "asm(\"" = 0 := by decide
    have closing : lineFeeds "\")" = 0 := by decide
    have isText : remarkText ⟨kind, place, .declaration info, children⟩ = String.join
        ((storageWords info.storage ++ wordsThatHold [("thread_local", info.isThreadLocal)] ++
          (info.symbol.map fun symbol => "asm(\"" ++ symbol ++ "\")").toList).map (" " ++ ·)) := rfl
    rw [isText, List.map_append, lineFeeds_join, List.map_append, List.sum_append, ← lineFeeds_join,
      lineFeeds_remarks words]
    change _ = (info.symbol.toList.map lineFeeds).sum
    cases info.symbol with
    | none => rfl
    | some symbol => simp [blank, opening, closing]
  | function info =>
    exact lineFeeds_remarks (List.forall_mem_append.mpr
      ⟨isOneLine_storageWords, isOneLine_wordsThatHold (by simp [IsOneLine])⟩)
  | tag name hasBody => exact lineFeeds_remarks (isOneLine_wordsThatHold (by simp [IsOneLine]))
  | array qualifiers isStatic isStar =>
    have text := qualifiers.isOneLine_text
    exact lineFeeds_remarks (isOneLine_wordsThatHold (by simp [IsOneLine] at text ⊢; exact text))
  | functionType isVariadic isPrototyped =>
    exact lineFeeds_remarks (isOneLine_wordsThatHold (by simp [IsOneLine]))
  | flag value => exact lineFeeds_remarks (isOneLine_wordsThatHold (by simp [IsOneLine]))
  | none | name _ | literal _ | qualifiers _ => exact lineFeeds_remarks (List.forall_mem_nil _)

theorem lineFeeds_lineText (conforms : node.Conforms)
    (named : node.kind ≠ .assembly → ∀ name ∈ node.name?, IsOneLine name) (depth : Nat) :
    lineFeeds (node.lineText depth) = lineFeeds (String.join node.assemblyTexts) := by
  rw [lineText, lineFeeds_append, lineFeeds_append, lineFeeds_labelText conforms named,
    lineFeeds_remarkText, lineFeeds_eq_zero.mpr (node.isOneLine_heading depth), lineFeeds_join,
    assemblyTexts, List.map_append, List.sum_append, Nat.zero_add]

end Node

/-! ## The lines of a tree -/

/-- One line for each node, parents before children: two blanks for each level above the node, then its
kind, and what else there is to say behind a blank. -/
structure Node.IsListedAs (tree : Node) (lines : List String) : Prop where
  whole : tree.listing = String.join (lines.map (· ++ "\n"))
  apart : ∀ line ∈ lines, '\n' ∉ line.toList
  asMany : lines.length = tree.size
  begin : List.Forall₂
    (fun line (node, depth) => ∃ more,
      line.toList = List.replicate (2 * depth) ' ' ++ node.kind.name.toList ++ more ∧
        (more = [] ∨ more.head? = some ' '))
    lines (tree.levels 0)

namespace Node

variable {tokens : TokenStream} {node tree : Node}

theorem listing_eq (tree : Node) :
    tree.listing = String.join
      (((tree.levels 0).map fun (node, depth) => node.lineText depth).map (· ++ "\n")) := by
  rw [listing, outline_eq, List.map_map]
  rfl

/-- The names of a text are written in one line if its tokens are. -/
theorem WellFormed.isOneLine_name (wellFormed : node.WellFormed tokens)
    (inLine : ∀ token ∈ tokens.toList, InLine token.lexeme.toList)
    (notAssembly : node.kind ≠ .assembly) : ∀ name ∈ node.name?, IsOneLine name := by
  intro name isName
  rcases wellFormed.named notAssembly name isName with ⟨token, inText, rfl⟩ | ⟨words, isType⟩
  · exact fun inLexeme => absurd (inLine token inText '\n' inLexeme) (by decide)
  · exact isOneLine_builtinTypeName isType

theorem WellFormed.lineFeeds_lineText (wellFormed : tree.WellFormed tokens)
    (inLine : ∀ token ∈ tokens.toList, InLine token.lexeme.toList) :
    ∀ item ∈ tree.levels 0,
      lineFeeds (item.1.lineText item.2) = lineFeeds (String.join item.1.assemblyTexts) := by
  intro item inLevels
  have below := wellFormed.of_mem_descendants (mem_descendants_of_mem_levels inLevels)
  exact Node.lineFeeds_lineText below.conforms (below.isOneLine_name inLine) item.2

theorem sum_lineFeeds {items : List (Node × Nat)}
    (lines : ∀ item ∈ items,
      lineFeeds (item.1.lineText item.2) = lineFeeds (String.join item.1.assemblyTexts)) :
    ((items.map fun (node, depth) => node.lineText depth).map lineFeeds).sum =
      lineFeeds (String.join ((items.map Prod.fst).flatMap assemblyTexts)) := by
  induction items with
  | nil => rfl
  | cons item rest ih =>
    obtain ⟨first, others⟩ := List.forall_mem_cons.mp lines
    have behind := ih others
    rw [lineFeeds_join] at first behind ⊢
    simp only [List.map_cons, List.sum_cons, List.flatMap_cons, List.map_append, List.sum_append,
      behind, first]

/-- The listing has a line feed for each node, and those of the texts for the assembler. -/
theorem WellFormed.lineFeeds_listing (wellFormed : tree.WellFormed tokens)
    (inLine : ∀ token ∈ tokens.toList, InLine token.lexeme.toList) :
    lineFeeds tree.listing =
      tree.size + lineFeeds (String.join (tree.descendants.flatMap assemblyTexts)) := by
  have lines := wellFormed.lineFeeds_lineText inLine
  rw [listing_eq, lineFeeds_closed, List.length_map, length_levels, descendants_eq,
    sum_lineFeeds lines]

theorem toList_heading (node : Node) (depth : Nat) :
    (node.heading depth).toList = List.replicate (2 * depth) ' ' ++ node.kind.name.toList := by
  have blanks : (String.join (List.replicate depth "  ")).toList = List.replicate (2 * depth) ' ' := by
    induction depth with
    | zero => rfl
    | succ depth ih =>
      rw [List.replicate_succ, String.join_cons, String.toList_append, ih]
      rfl
  rw [heading, String.toList_append, blanks]

theorem behind_heading (node : Node) :
    (node.labelText ++ node.remarkText).toList = [] ∨
      (node.labelText ++ node.remarkText).toList.head? = some ' ' := by
  rw [String.toList_append]
  cases isLabel : node.label? with
  | some label =>
    refine .inr ?_
    simp [labelText, isLabel]
  | none =>
    cases isRemarks : node.remarks with
    | nil => simp [labelText, isLabel, remarkText, isRemarks]
    | cons remark rest => simp [labelText, isLabel, remarkText, isRemarks]

theorem WellFormed.isListedAs_iff (wellFormed : tree.WellFormed tokens)
    (inLine : ∀ token ∈ tokens.toList, InLine token.lexeme.toList) :
    (∃ lines, tree.IsListedAs lines) ↔
      ∀ node ∈ tree.descendants, ∀ text ∈ node.assemblyTexts, '\n' ∉ text.toList := by
  constructor
  · rintro ⟨lines, whole, apart, asMany, _⟩
    have counted := wellFormed.lineFeeds_listing inLine
    have noneInside : (lines.map lineFeeds).sum = 0 := by
      rw [← lineFeeds_join]
      exact lineFeeds_eq_zero.mpr (.join apart)
    rw [whole, lineFeeds_closed, asMany, noneInside] at counted
    have none : lineFeeds (String.join (tree.descendants.flatMap assemblyTexts)) = 0 := by omega
    intro node isNode text isText
    exact (lineFeeds_eq_zero.mp none).of_join text (List.mem_flatMap.mpr ⟨node, isNode, isText⟩)
  · intro noFeeds
    have lines := wellFormed.lineFeeds_lineText inLine
    refine ⟨(tree.levels 0).map fun (node, depth) => node.lineText depth, tree.listing_eq, ?_, ?_, ?_⟩
    · intro line inLines
      obtain ⟨⟨node, depth⟩, inLevels, rfl⟩ := List.mem_map.mp inLines
      have isNode : node ∈ tree.descendants := mem_descendants_of_mem_levels inLevels
      have noneInside : lineFeeds (String.join node.assemblyTexts) = 0 :=
        lineFeeds_eq_zero.mpr (.join (noFeeds node isNode))
      exact lineFeeds_eq_zero.mp ((lines _ inLevels).trans noneInside)
    · rw [List.length_map, length_levels]
    · rw [List.forall₂_map_left_iff, List.forall₂_same]
      rintro ⟨node, depth⟩ _
      refine ⟨(node.labelText ++ node.remarkText).toList, ?_, node.behind_heading⟩
      simp only [lineText, String.toList_append, toList_heading, List.append_assoc]

end Node

/-- The listing of a tree, from whatever rule of C it was parsed, has the nodes in the order of the
tree. It has a line feed for each of them, and those that the texts for the assembler have in them. Each
node has one line of its own just if there is no line feed in those texts. -/
theorem listing_lines (dialect : Dialect) (buffer : SourceBuffer) (before after : Diagnostics)
    (tokens : TokenStream) (tokenized : tokenize (cLanguage dialect) buffer before = (tokens, after))
    (tree : Node)
    (parsed : (∃ name, ((cLanguage dialect).parseRule name tokens after).1 = some tree) ∨
      ((cLanguage dialect).parse tokens after).1 = tree) :
    (tree.levels 0).map Prod.fst = tree.descendants ∧
      lineFeeds tree.listing =
        tree.size + lineFeeds (String.join (tree.descendants.flatMap Node.assemblyTexts)) ∧
      ((∃ lines, tree.IsListedAs lines) ↔
        ∀ node ∈ tree.descendants, ∀ text ∈ node.assemblyTexts, '\n' ∉ text.toList) := by
  have inLine := tokenize_inLine tokenized
  have wellFormed : tree.WellFormed tokens := by
    rcases parsed with ⟨name, parsed⟩ | rfl
    · exact wellFormed_parseRule parsed
    · exact wellFormed_parse
  exact ⟨tree.descendants_eq.symm, wellFormed.lineFeeds_listing inLine,
    wellFormed.isListedAs_iff inLine⟩

/-- The statement that holds a processor up. -/
theorem listing_lines_pause :
    ∃ tokens tree,
      tokenize (cLanguage gnuC17) ⟨"<input>", assemblySource [0x6E, 0x6F, 0x70]⟩ .empty =
        (tokens, .empty) ∧
      (cLanguage gnuC17).parseRule "statement" tokens .empty = (some tree, .empty) ∧
      (tree.levels 0).map Prod.fst = tree.descendants ∧
      lineFeeds tree.listing =
        tree.size + lineFeeds (String.join (tree.descendants.flatMap Node.assemblyTexts)) ∧
      ((∃ lines, tree.IsListedAs lines) ↔
        ∀ node ∈ tree.descendants, ∀ text ∈ node.assemblyTexts, '\n' ∉ text.toList) := by
  have fits : ∀ unit ∈ [0x6E, 0x6F, 0x70], unit ≤ Encoding.plain.maxUnit := by decide
  obtain ⟨tokens, place, tokenized, parsed⟩ := parseRule_assemblySource fits "<input>" .empty
  exact ⟨tokens, _, tokenized, parsed, listing_lines gnuC17 _ .empty .empty tokens tokenized _
    (.inl ⟨"statement", congrArg Prod.fst parsed⟩)⟩

/-- A template with a line feed in it is parsed without a problem and is not listed in one line. -/
theorem not_listing_lines_feed :
    ∃ tokens place, let tree : Node := ⟨.assembly, place, .name "a\nb", []⟩
      tokenize (cLanguage gnuC17) ⟨"<input>", "__asm__(\"a\\012b\");"⟩ .empty = (tokens, .empty) ∧
      (cLanguage gnuC17).parseRule "statement" tokens .empty = (some tree, .empty) ∧
      ¬ ∃ lines, tree.IsListedAs lines := by
  have fits : ∀ unit ∈ [0x61, 0xA, 0x62], unit ≤ Encoding.plain.maxUnit := by decide
  have isSource : assemblySource [0x61, 0xA, 0x62] = "__asm__(\"a\\012b\");" := by decide +kernel
  have isTemplate : Encoding.plain.decode [0x61, 0xA, 0x62] = "a\nb" := by decide +kernel
  obtain ⟨tokens, place, tokenized, parsed⟩ := parseRule_assemblySource fits "<input>" .empty
  rw [isSource] at tokenized
  rw [isTemplate] at parsed
  refine ⟨tokens, place, tokenized, parsed, fun isListed => ?_⟩
  have wellFormed := wellFormed_parseRule (congrArg Prod.fst parsed)
  have noFeeds := (wellFormed.isListedAs_iff (tokenize_inLine tokenized)).mp isListed
  refine noFeeds ⟨.assembly, place, .name "a\nb", []⟩ ?_ "a\nb" (.head _) (by decide)
  simp [Node.descendants_eq, Node.levels]

end CFrontEnd
