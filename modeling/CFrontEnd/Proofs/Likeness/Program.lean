import CFrontEnd.Proofs.Blocks.Program
import CFrontEnd.Proofs.Likeness.Statements

/-!
Whole texts that are alike. Where their tokens stand decides where nodes and problems stand and nothing
else.
-/

namespace CFrontEnd

open Parse Productions

variable {twins : Twins} {level : Productions}

/-! ## Rules -/

theorem agree_wholeText (inside : level.AgreeOn twins) :
    ReadsAlike twins (StartRule.wholeText level) :=
  agree_bind agree_location fun _ _ placed =>
    agree_bind (agree_recoveringItems (fun _ => false) (agree_externalDeclaration inside))
      fun _ _ nodes => agree_pure (.ofChildren placed nodes)

theorem agree_production (rule : StartRule) (inside : level.AgreeOn twins) :
    ReadsAlike twins (rule.production level) := by
  cases rule with
  | program => exact agree_wholeText inside
  | externalDeclaration =>
    exact agree_bind agree_location fun _ _ placed =>
      agree_bind (agree_completed (agree_externalDeclaration inside)) fun _ _ nodes =>
        agree_pure (alike_groupDeclarations placed nodes)
  | declaration => exact agree_groupedDeclaration inside
  | statement => exact inside.statement
  | compoundStatement => exact agree_block inside
  | expression => exact agree_expression inside
  | assignmentExpression => exact inside.assignment
  | typeName => exact agree_typeName inside
  | initializer => exact agree_initializer inside

section Named

variable {name : String} (written : twins.like.Writes name)
  (known : twins.like.Writes twins.first.language.name)

include written known

theorem agree_fromRule : ReadsAlike twins (fromRule name) := by
  intro state partner states
  unfold fromRule
  rw [twins.language]
  dsimp only
  split
  · exact agree_production _ (agreeOn_ofLevels maxNesting) state partner states
  · obtain ⟨recorded⟩ := states
    refine .error (.intro (recorded.report .internal (twins.tokens.get state.position).placed ?_))
    exact Likeness.writes_append (Likeness.writes_between written (by decide) (by decide)) known

theorem agree_wholeRule : ReadsAlike twins (wholeRule name) := by
  refine agree_bind (agree_fromRule written known) fun _ _ node => ?_
  refine agree_then agree_atEnd fun _ => agree_ite (agree_bind agree_peek ?_) (agree_pure node)
  rintro _ _ ⟨placed, _, lexeme⟩
  have quoted := List.forall_mem_cons.mpr ⟨lexeme, List.forall_mem_singleton.mpr written⟩
  exact agree_then (agree_complain placed rfl quoted) fun _ => agree_pure node

end Named

/-! ## Texts -/

section Texts

variable {like : Likeness} {tokens others : TokenStream}

/-- Texts that are alike, parsed in the language, with the problems found before. -/
def Language.pair (language : Language) (alike : tokens.Alike like others)
    (diagnostics : Diagnostics) : Twins where
  like := like
  first := { tokens := tokens, language := language, dialect := language.dialect }
  second := { tokens := others, language := language, dialect := language.dialect }
  tokens := alike
  language := rfl
  dialect := rfl
  earlier := diagnostics

theorem alike_run (language : Language) (alike : tokens.Alike like others) (diagnostics : Diagnostics)
    {production : Parse Node}
    (reads : ReadsAlike (language.pair alike diagnostics) production) :
    OutcomesAlike (language.pair alike diagnostics) (Node.Alike like)
      (language.run production tokens diagnostics) (language.run production others diagnostics) := by
  have nothingNew : Diagnostics.Alike like diagnostics diagnostics diagnostics :=
    ⟨[], [], by simp, by simp, .nil⟩
  exact reads _ _ (.of { diagnostics := diagnostics } nothingNew)

-- Where lexemes may have any characters, nothing is asked of the names that problems repeat.
theorem alike_parseRule (language : Language) (name : String) (alike : tokens.Alike like others)
    (diagnostics : Diagnostics) (written : like.Writes name := by exact fun _ _ => trivial)
    (known : like.Writes language.name := by exact fun _ _ => trivial) :
    Option.Rel (Node.Alike like) (language.parseRule name tokens diagnostics).1
        (language.parseRule name others diagnostics).1 ∧
      Diagnostics.Alike like diagnostics (language.parseRule name tokens diagnostics).2
        (language.parseRule name others diagnostics).2 := by
  have outcomes := alike_run language alike diagnostics (agree_wholeRule written known)
  unfold Language.parseRule
  generalize language.run _ tokens diagnostics = outcome at outcomes ⊢
  generalize language.run _ others diagnostics = other at outcomes ⊢
  cases outcomes with
  | ok node states =>
    obtain ⟨recorded⟩ := states
    exact ⟨.some node, recorded⟩
  | error states =>
    obtain ⟨recorded⟩ := states
    exact ⟨.none, recorded⟩

theorem alike_parse (language : Language) (alike : tokens.Alike like others)
    (diagnostics : Diagnostics)
    (written : like.Writes language.startRule := by exact fun _ _ => trivial)
    (known : like.Writes language.name := by exact fun _ _ => trivial) :
    (language.parse tokens diagnostics).1.Alike like (language.parse others diagnostics).1 ∧
      Diagnostics.Alike like diagnostics (language.parse tokens diagnostics).2
        (language.parse others diagnostics).2 := by
  have outcomes := alike_run language alike diagnostics (agree_fromRule written known)
  unfold Language.parse
  generalize language.run _ tokens diagnostics = outcome at outcomes ⊢
  generalize language.run _ others diagnostics = other at outcomes ⊢
  cases outcomes with
  | ok node states =>
    obtain ⟨recorded⟩ := states
    exact ⟨node, recorded⟩
  | error states =>
    obtain ⟨recorded⟩ := states
    exact ⟨.intro (alike.get _).placed (.same nofun) .nil, recorded⟩

end Texts

/-! ## Texts in other places -/

section Relocation

variable (move : SourceLocation → SourceLocation)

def Token.relocated (token : Token) : Token := { token with location := move token.location }

def TokenStream.relocated (tokens : TokenStream) : TokenStream :=
  ⟨tokens.body.map (Token.relocated move), move tokens.endLocation⟩

def Diagnostic.relocated (diagnostic : Diagnostic) : Diagnostic :=
  { diagnostic with location := move diagnostic.location }

mutual

def Node.relocated : Node → Node
  | ⟨kind, place, payload, children⟩ => ⟨kind, move place, payload, Node.relocatedAll children⟩

def Node.relocatedAll : List Node → List Node
  | [] => []
  | node :: rest => Node.relocated node :: Node.relocatedAll rest

end

/-- The same problems behind the earlier ones, at the places that `move` leads to. -/
def Diagnostics.Relocated (earlier diagnostics others : Diagnostics) : Prop :=
  ∃ new, diagnostics.toList = earlier.toList ++ new ∧
    others.toList = earlier.toList ++ new.map (Diagnostic.relocated move)

/-- Alike with `move` as the way from one place to the other. -/
def Likeness.relocation : Likeness where
  places place other := other = move place
  values value other := other = value
  zero := rfl
  characters _ := True
  inLine _ _ := trivial

variable {move}

theorem Literal.Alike.eq {literal other : Literal}
    (alike : literal.Alike (.relocation move) other) : other = literal := by
  cases alike with
  | floating _ valued => rw [valued]
  | _ => rfl

theorem Payload.Alike.eq {payload other : Payload}
    (alike : payload.Alike (.relocation move) other) : other = payload := by
  cases alike with
  | literal valued => rw [valued.eq]
  | same => rfl

mutual

theorem Node.Alike.eq_relocated :
    ∀ {node other : Node}, node.Alike (.relocation move) other → other = node.relocated move
  | ⟨_, _, _, _⟩, _, .intro placed payloads below => by
    rw [Node.relocated, placed, payloads.eq, Nodes.Alike.eq_relocated below]

theorem Nodes.Alike.eq_relocated :
    ∀ {nodes others : List Node}, List.Forall₂ (Node.Alike (.relocation move)) nodes others →
      others = Node.relocatedAll move nodes
  | _, _, .nil => by rw [Node.relocatedAll]
  | _, _, .cons first rest => by
    rw [Node.relocatedAll, first.eq_relocated, Nodes.Alike.eq_relocated rest]

end

theorem alike_relocated (move : SourceLocation → SourceLocation) (tokens : TokenStream) :
    tokens.Alike (.relocation move) (tokens.relocated move) := by
  have token (token : Token) : token.Alike (.relocation move) (token.relocated move) :=
    .moved (fun _ => rfl) rfl fun _ _ => trivial
  refine ⟨?_, rfl⟩
  rw [TokenStream.relocated, Array.toList_map, List.forall₂_map_right_iff]
  exact List.forall₂_same.mpr fun current _ => token current

theorem Diagnostics.Alike.relocated {earlier diagnostics others : Diagnostics}
    (alike : Diagnostics.Alike (.relocation move) earlier diagnostics others) :
    Diagnostics.Relocated move earlier diagnostics others := by
  obtain ⟨new, otherNew, first, second, pairs⟩ := alike
  have moved : otherNew = new.map (Diagnostic.relocated move) := by
    clear first second
    induction pairs with
    | nil => rfl
    | cons pair _ ih =>
      obtain ⟨placed⟩ := pair
      rw [List.map_cons, ← ih, Diagnostic.relocated, placed]
  exact ⟨new, first, moved ▸ second⟩

end Relocation

/-! ## Texts with the same words -/

/-- Tokens that say the same. Values are compared as the trees compare them. -/
def Token.SaysSame (token other : Token) : Prop :=
  token.kind = other.kind ∧ token.lexeme = other.lexeme ∧ (token.value == other.value) = true

def TokenStream.SaysSame (tokens others : TokenStream) : Prop :=
  List.Forall₂ Token.SaysSame tokens.body.toList others.body.toList

/-- Problems without their places. -/
def Diagnostics.messages (diagnostics : Diagnostics) : List (DiagnosticKind × String) :=
  diagnostics.toList.map fun diagnostic => (diagnostic.kind, diagnostic.message)

/-- Alike wherever the tokens stand. -/
def Likeness.sameWords : Likeness where
  places _ _ := True
  values value other := (value == other) = true
  zero := by decide
  characters _ := True
  inLine _ _ := trivial

theorem Literal.Alike.beq {literal other : Literal} (alike : literal.Alike .sameWords other) :
    (literal == other) = true := by
  cases alike with
  | integer value suffix =>
    change (decide (value = value) && decide (suffix = suffix)) = true
    simp
  | @floating value other suffix valued =>
    change ((value == other) && decide (suffix = suffix)) = true
    rw [Bool.and_eq_true]
    exact ⟨valued, by simp⟩
  | character value encoding =>
    change (decide (value = value) && decide (encoding = encoding)) = true
    simp
  | string units encoding =>
    change ((units == units) && decide (encoding = encoding)) = true
    simp

theorem Literal.alike_of_beq {literal other : Literal} (same : (literal == other) = true) :
    literal.Alike .sameWords other := by
  cases literal <;> cases other <;> try cases same
  case integer.integer value suffix other otherSuffix =>
    replace same : (decide (value = other) && decide (suffix = otherSuffix)) = true := same
    simp only [Bool.and_eq_true, decide_eq_true_eq] at same
    obtain ⟨rfl, rfl⟩ := same
    exact .integer value suffix
  case floating.floating value suffix other otherSuffix =>
    replace same : ((value == other) && decide (suffix = otherSuffix)) = true := same
    rw [Bool.and_eq_true, decide_eq_true_eq] at same
    obtain ⟨valued, rfl⟩ := same
    exact .floating suffix valued
  case character.character value encoding other otherEncoding =>
    replace same : (decide (value = other) && decide (encoding = otherEncoding)) = true := same
    simp only [Bool.and_eq_true, decide_eq_true_eq] at same
    obtain ⟨rfl, rfl⟩ := same
    exact .character value encoding
  case string.string units encoding other otherEncoding =>
    replace same : ((units == other) && decide (encoding = otherEncoding)) = true := same
    simp only [Bool.and_eq_true, beq_iff_eq, decide_eq_true_eq] at same
    obtain ⟨rfl, rfl⟩ := same
    exact .string units encoding

theorem Payload.Alike.beq {payload other : Payload} (alike : payload.Alike .sameWords other) :
    (payload == other) = true := by
  cases alike with
  | literal valued => exact valued.beq
  | same noLiteral =>
    cases payload with
    | literal value => exact absurd rfl (noLiteral value)
    | _ => simp

mutual

theorem Node.Alike.sameShape :
    ∀ {node other : Node}, node.Alike .sameWords other → node.sameShape other = true
  | ⟨_, _, _, _⟩, _, .intro _ payloads below => by
    simp [Node.sameShape, payloads.beq, Nodes.Alike.sameShapes below]

theorem Nodes.Alike.sameShapes :
    ∀ {nodes others : List Node}, List.Forall₂ (Node.Alike .sameWords) nodes others →
      Node.sameShapes nodes others = true
  | _, _, .nil => by rw [Node.sameShapes]
  | _, _, .cons first rest => by
    rw [Node.sameShapes, first.sameShape, Nodes.Alike.sameShapes rest, Bool.and_self]

end

theorem TokenStream.SaysSame.alike {tokens others : TokenStream} (same : tokens.SaysSame others) :
    tokens.Alike .sameWords others := by
  refine ⟨same.imp ?_, trivial⟩
  rintro ⟨kind, lexeme, place, value⟩ ⟨_, _, otherPlace, otherValue⟩ ⟨rfl, rfl, values⟩
  refine .intro trivial ?_ fun _ _ => trivial
  cases value <;> cases otherValue <;> try cases values
  case none.none => exact .none
  case some.some literal other => exact .some (Literal.alike_of_beq values)

theorem saysSame_ofWords {words : List Word} {place other : SourceLocation}
    (known : ∀ word ∈ words, (word.value == word.value) = true) :
    (TokenStream.ofWords words place).SaysSame (.ofWords words other) := by
  simp only [TokenStream.SaysSame, TokenStream.ofWords, List.forall₂_map_left_iff,
    List.forall₂_map_right_iff, List.forall₂_same]
  exact fun word member => ⟨rfl, rfl, known word member⟩

theorem Diagnostics.Alike.messages {like : Likeness} {earlier diagnostics others : Diagnostics}
    (alike : Diagnostics.Alike like earlier diagnostics others) :
    others.messages = diagnostics.messages := by
  obtain ⟨new, otherNew, first, second, pairs⟩ := alike
  have same : otherNew.map (fun diagnostic => (diagnostic.kind, diagnostic.message)) =
      new.map fun diagnostic => (diagnostic.kind, diagnostic.message) := by
    clear first second
    induction pairs with
    | nil => rfl
    | cons pair _ ih =>
      obtain ⟨_⟩ := pair
      rw [List.map_cons, List.map_cons, ih]
  rw [Diagnostics.messages, Diagnostics.messages, first, second, List.map_append, List.map_append,
    same]

/-! ## Parsing and layout -/

/-- With its tokens in other places, a text leads to the same tree and the same new problems in those
places. Texts whose tokens say the same lead to trees of one shape, with the same messages. -/
theorem parsing_ignores_places (language : Language) (tokens : TokenStream)
    (diagnostics : Diagnostics) :
    (∀ move,
      (∀ name,
        (language.parseRule name (tokens.relocated move) diagnostics).1 =
            (language.parseRule name tokens diagnostics).1.map (Node.relocated move) ∧
          Diagnostics.Relocated move diagnostics (language.parseRule name tokens diagnostics).2
            (language.parseRule name (tokens.relocated move) diagnostics).2) ∧
      (language.parse (tokens.relocated move) diagnostics).1 =
          (language.parse tokens diagnostics).1.relocated move ∧
        Diagnostics.Relocated move diagnostics (language.parse tokens diagnostics).2
          (language.parse (tokens.relocated move) diagnostics).2) ∧
    ∀ others, tokens.SaysSame others →
      (∀ name,
        Option.Rel (fun tree other => tree.sameShape other = true)
            (language.parseRule name tokens diagnostics).1
            (language.parseRule name others diagnostics).1 ∧
          (language.parseRule name others diagnostics).2.messages =
            (language.parseRule name tokens diagnostics).2.messages) ∧
      (language.parse tokens diagnostics).1.sameShape (language.parse others diagnostics).1 = true ∧
        (language.parse others diagnostics).2.messages =
          (language.parse tokens diagnostics).2.messages := by
  constructor
  -- Moved tokens and tokens that say the same are two instances of likeness, so one theorem about
  -- the parser serves both.
  · intro move
    have moved := alike_relocated move tokens
    refine ⟨fun name => ?_, ?_⟩
    · obtain ⟨trees, problems⟩ := alike_parseRule language name moved diagnostics
      refine ⟨?_, problems.relocated⟩
      generalize (language.parseRule name tokens diagnostics).1 = tree at trees ⊢
      generalize (language.parseRule name (tokens.relocated move) diagnostics).1 = other at trees ⊢
      cases trees with
      | none => rfl
      | some node => rw [node.eq_relocated, Option.map_some]
    · obtain ⟨tree, problems⟩ := alike_parse language moved diagnostics
      exact ⟨tree.eq_relocated, problems.relocated⟩
  · intro others same
    refine ⟨fun name => ?_, ?_⟩
    · obtain ⟨trees, problems⟩ := alike_parseRule language name same.alike diagnostics
      refine ⟨?_, problems.messages⟩
      generalize (language.parseRule name tokens diagnostics).1 = tree at trees ⊢
      generalize (language.parseRule name others diagnostics).1 = other at trees ⊢
      cases trees with
      | none => exact .none
      | some node => exact .some node.sameShape
    · obtain ⟨tree, problems⟩ := alike_parse language same.alike diagnostics
      exact ⟨tree.sameShape, problems.messages⟩

/-- The text has a problem in it, and a tree. -/
theorem parsing_ignores_places_shadowing :
    let tokens := TokenStream.ofWords BlockItems.shadowing.functionWords ⟨"<input>", 1, 1, 0⟩
    let others := TokenStream.ofWords BlockItems.shadowing.functionWords ⟨"other", 7, 3, 60⟩
    let move (place : SourceLocation) : SourceLocation := { place with line := place.line + 1 }
    let parse := fun stream => ((cLanguage ⟨.c17, true⟩).parseRule "translation_unit" stream .empty).1
    tokens.SaysSame others ∧
      ∃ tree other, parse tokens = some tree ∧
        parse (tokens.relocated move) = some (tree.relocated move) ∧
        parse others = some other ∧ tree.sameShape other = true := by
  intro tokens others move parse
  have plain : ∀ name ∈ BlockItems.shadowing.names, name ≠ "__builtin_va_list" := by decide
  have deep : BlockItems.shadowing.depth + 5 ≤ 1023 + 1 := by decide
  have isText : tokens.body.toList.map Token.word = BlockItems.shadowing.functionWords := rfl
  obtain ⟨tree, next, read, ends, _⟩ := @wholeText_functionWords ⟨.c17, true⟩ _ _ _ deep plain isText
    .empty ⟨"<input>", 1, 1, 0⟩
  have parsed : parse tokens = some tree :=
    congrArg Prod.fst (Language.parseRule_ok .program read ends)
  have same : tokens.SaysSame others := by
    have values : ∀ word ∈ BlockItems.shadowing.functionWords, (word.value == word.value) = true := by
      decide
    exact saysSame_ofWords values
  have blind := parsing_ignores_places (cLanguage ⟨.c17, true⟩) tokens .empty
  have moved : parse (tokens.relocated move) = some (tree.relocated move) := by
    have first := ((blind.1 move).1 "translation_unit").1
    change parse (tokens.relocated move) = (parse tokens).map _ at first
    rw [first, parsed, Option.map_some]
  have shapes := ((blind.2 others same).1 "translation_unit").1
  change Option.Rel _ (parse tokens) (parse others) at shapes
  rw [parsed] at shapes
  generalize parse others = other at shapes ⊢
  cases shapes with
  | some shape => exact ⟨same, tree, _, parsed, moved, rfl, shape⟩

end CFrontEnd
