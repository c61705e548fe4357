import Mathlib.Data.List.Forall2
import CFrontEnd.Grammar.Problem
import CFrontEnd.Grammar.Recovery
import CFrontEnd.Grammar.Rules.Declarators
import CFrontEnd.Grammar.Specifiers
import CFrontEnd.Proofs.Scan.Pieces

/-!
Texts and trees that are alike. What is alike differs in its places only, and in floating-point values
that are taken for one another.
-/

namespace CFrontEnd

/-- Which places may stand for each other, and which floating-point values. Lexemes are written in
characters that include all that end no line. -/
structure Likeness where
  places : SourceLocation → SourceLocation → Prop
  values : Float → Float → Prop
  /-- Zero is the value of a constant that comes without one. -/
  zero : values 0 0
  characters : Char → Prop
  inLine : ∀ character, isLineEnd character = false → characters character

variable {like : Likeness}

/-! ## Words -/

def Likeness.Writes (like : Likeness) (text : String) : Prop :=
  ∀ character ∈ text.toList, like.characters character

namespace Likeness

theorem writes_line {text : String} (line : InLine text.toList) : like.Writes text :=
  fun character member => like.inLine character (line character member)

theorem writes_append {first second : String} (begins : like.Writes first)
    (ends : like.Writes second) : like.Writes (first ++ second) := by
  intro character member
  rw [String.toList_append, List.mem_append] at member
  exact member.elim (begins character) (ends character)

end Likeness

/-! ## Tokens -/

inductive Literal.Alike (like : Likeness) : Literal → Literal → Prop
  | integer (value : Nat) (suffix : IntegerSuffix) :
      Alike like (.integer value suffix) (.integer value suffix)
  | floating {value other : Float} (suffix : FloatSuffix) (valued : like.values value other) :
      Alike like (.floating value suffix) (.floating other suffix)
  | character (value : Nat) (encoding : Encoding) :
      Alike like (.character value encoding) (.character value encoding)
  | string (units : List Nat) (encoding : Encoding) :
      Alike like (.string units encoding) (.string units encoding)

theorem Literal.Alike.kind {literal other : Literal} (alike : literal.Alike like other) :
    other.kind = literal.kind := by
  cases alike <;> rfl

theorem Literal.Alike.refl (same : ∀ value, like.values value value) (literal : Literal) :
    literal.Alike like literal := by
  cases literal with
  | integer value suffix => exact .integer value suffix
  | floating value suffix => exact .floating suffix (same value)
  | character value encoding => exact .character value encoding
  | string units encoding => exact .string units encoding

inductive Token.Alike (like : Likeness) : Token → Token → Prop
  | intro {kind : TokenKind} {lexeme : String} {place other : SourceLocation}
      {value otherValue : Option Literal} (placed : like.places place other)
      (valued : Option.Rel (Literal.Alike like) value otherValue) (written : like.Writes lexeme) :
      Alike like ⟨kind, lexeme, place, value⟩ ⟨kind, lexeme, other, otherValue⟩

namespace Token.Alike

variable {token other : Token}

theorem moved (same : ∀ value, like.values value value) {place : SourceLocation}
    (placed : like.places token.location place) (written : like.Writes token.lexeme) :
    token.Alike like { token with location := place } := by
  have values (value : Option Literal) : Option.Rel (Literal.Alike like) value value := by
    cases value with
    | none => exact .none
    | some literal => exact .some (.refl same literal)
  exact .intro placed (values token.value) written

theorem kind (alike : token.Alike like other) : other.kind = token.kind := by
  cases alike
  rfl

theorem placed (alike : token.Alike like other) : like.places token.location other.location := by
  cases alike
  assumption

theorem literalOf (alike : token.Alike like other) (kind : LiteralKind) :
    (token.literalOf kind).Alike like (other.literalOf kind) := by
  have default : kind.defaultValue.Alike like kind.defaultValue := by
    cases kind with
    | integer => exact .integer 0 {}
    | floating => exact .floating .none like.zero
    | character => exact .character 0 .plain
    | string => exact .string [] .plain
  obtain ⟨placed, valued, _⟩ := alike
  cases valued with
  | none => exact default
  | some valued =>
    unfold Token.literalOf
    simp only [Option.filter, valued.kind]
    split
    · exact valued
    · exact default

end Token.Alike

structure TokenStream.Alike (like : Likeness) (stream other : TokenStream) : Prop where
  body : List.Forall₂ (Token.Alike like) stream.body.toList other.body.toList
  finish : like.places stream.endLocation other.endLocation

/-! ## Problems -/

/-- The texts from elsewhere that the message repeats. -/
def GrammarProblem.quoted : GrammarProblem → List String
  | .expected what found => [what, found.lexeme]
  | .unexpected found => [found.lexeme]
  | .unexpectedTypeName name => [name]
  | .unexpectedStorageClass found => [found.lexeme]
  | .unfinishedRule found rule => [found.lexeme, rule]
  | .invalidTypeWords words => words
  | .tagOfOtherKind name => [name]
  | .tagRedeclared name _ => [name]
  | .unknownTypeName name => [name]
  | _ => []

namespace Likeness

theorem writes_words {words : List Char} (line : InLine words) : like.Writes (String.ofList words) :=
  writes_line (inLine_ofList line)

theorem writes_spelling (word : Keyword) : like.Writes word.spelling := by
  cases word <;> exact writes_words (by decide)

theorem writes_token {token : Token} (written : like.Writes token.lexeme) :
    like.Writes token.text := by
  unfold Token.text
  split
  · exact writes_words (by decide)
  · exact writes_append (writes_append (writes_words (by decide)) written) (writes_words (by decide))

theorem writes_between {text : String} {before behind : List Char} (written : like.Writes text)
    (begins : InLine before) (ends : InLine behind) :
    like.Writes (String.ofList before ++ text ++ String.ofList behind) :=
  writes_append (writes_append (writes_words begins) written) (writes_words ends)

theorem writes_joined {words : List String} (written : ∀ word ∈ words, like.Writes word) :
    like.Writes (" ".intercalate words) := by
  induction words with
  | nil => exact writes_words (by decide)
  | cons first rest ih =>
    have others := ih fun word member => written word (List.mem_cons_of_mem _ member)
    cases rest with
    | nil => exact String.intercalate_singleton ▸ written first (List.mem_singleton_self _)
    | cons second rest =>
      rw [String.intercalate_cons_cons]
      exact writes_append (writes_append (written first List.mem_cons_self)
        (writes_words (by decide))) others

theorem writes_ruleName {rule : String} (written : like.Writes rule) :
    like.Writes (rule.map fun c => if c == '_' then ' ' else c) := by
  intro character member
  rw [String.toList_map, List.mem_map] at member
  obtain ⟨letter, inRule, rfl⟩ := member
  split
  · exact like.inLine ' ' rfl
  · exact written letter inRule

/-- A message has no other characters than the texts that it repeats, apart from its own words. -/
theorem writes_message {problem : GrammarProblem}
    (written : ∀ text ∈ problem.quoted, like.Writes text) : like.Writes problem.message := by
  cases problem with
  | expected what found =>
    have quoted := List.forall_mem_cons.mp written
    have found := writes_token (quoted.2 found.lexeme (List.mem_singleton_self _))
    exact writes_append (writes_between quoted.1 (by decide) (by decide)) found
  | unexpected found =>
    exact writes_append (writes_words (by decide)) (writes_token (List.forall_mem_singleton.mp written))
  | unexpectedTypeName name =>
    exact writes_between (List.forall_mem_singleton.mp written) (by decide) (by decide)
  | unexpectedStorageClass found =>
    exact writes_append (writes_words (by decide)) (writes_token (List.forall_mem_singleton.mp written))
  | unfinishedRule found rule =>
    have quoted := List.forall_mem_cons.mp written
    have rule := writes_ruleName (quoted.2 rule (List.mem_singleton_self _))
    exact writes_append (writes_between (writes_token quoted.1) (by decide) (by decide)) rule
  | invalidTypeWords words =>
    exact writes_between (writes_joined written) (by decide) (by decide)
  | tagOfOtherKind name =>
    exact writes_between (List.forall_mem_singleton.mp written) (by decide) (by decide)
  | tagRedeclared name earlier =>
    have name := List.forall_mem_singleton.mp written
    have earlier : like.Writes earlier.spelling := by cases earlier <;> exact writes_words (by decide)
    exact writes_append (writes_append (writes_between name (by decide) (by decide)) earlier)
      (writes_words (by decide))
  | unknownTypeName name =>
    exact writes_between (List.forall_mem_singleton.mp written) (by decide) (by decide)
  | _ => exact writes_words (by decide)

end Likeness

/-! ## Trees -/

inductive Payload.Alike (like : Likeness) : Payload → Payload → Prop
  | literal {value other : Literal} (valued : value.Alike like other) :
      Alike like (.literal value) (.literal other)
  | same {payload : Payload} (noLiteral : ∀ value, payload ≠ .literal value) :
      Alike like payload payload

theorem Payload.Alike.name? {payload other : Payload} (alike : payload.Alike like other) :
    other.name? = payload.name? := by
  cases alike <;> rfl

inductive Node.Alike (like : Likeness) : Node → Node → Prop
  | intro {kind : NodeKind} {place other : SourceLocation} {payload otherPayload : Payload}
      {children others : List Node} (placed : like.places place other)
      (payloads : payload.Alike like otherPayload)
      (below : List.Forall₂ (Node.Alike like) children others) :
      Node.Alike like ⟨kind, place, payload, children⟩ ⟨kind, other, otherPayload, others⟩

/-- Nodes that are alike one by one. -/
abbrev Nodes.Alike (like : Likeness) (nodes others : Array Node) : Prop :=
  List.Forall₂ (Node.Alike like) nodes.toList others.toList

namespace Node.Alike

variable {place otherPlace : SourceLocation} {node other : Node}

theorem ofChildren {kind : NodeKind} {nodes others : List Node}
    (placed : like.places place otherPlace) (below : List.Forall₂ (Node.Alike like) nodes others) :
    (Node.ofChildren kind place nodes).Alike like (.ofChildren kind otherPlace others) :=
  .intro placed (.same nofun) below

theorem named {kind : NodeKind} {name : String} (placed : like.places place otherPlace) :
    (Node.named kind place name).Alike like (.named kind otherPlace name) :=
  .intro placed (.same nofun) .nil

theorem kind (alike : node.Alike like other) : other.kind = node.kind := by
  cases alike
  rfl

theorem name? (alike : node.Alike like other) : other.name? = node.name? := by
  obtain ⟨_, payloads, _⟩ := alike
  exact payloads.name?

theorem children (alike : node.Alike like other) :
    List.Forall₂ (Node.Alike like) node.children other.children := by
  cases alike
  assumption

end Node.Alike

namespace Nodes.Alike

variable {nodes others more otherMore : List Node} {node other : Node}

theorem append (first : List.Forall₂ (Node.Alike like) nodes others)
    (second : List.Forall₂ (Node.Alike like) more otherMore) :
    List.Forall₂ (Node.Alike like) (nodes ++ more) (others ++ otherMore) :=
  List.rel_append first second

theorem single (alike : node.Alike like other) :
    List.Forall₂ (Node.Alike like) [node] [other] :=
  .cons alike .nil

theorem optional {found otherFound : Option Node}
    (alike : Option.Rel (Node.Alike like) found otherFound) :
    List.Forall₂ (Node.Alike like) found.toList otherFound.toList := by
  cases alike with
  | none => exact .nil
  | some alike => exact single alike

theorem push {nodes others : Array Node} (first : Nodes.Alike like nodes others)
    (alike : node.Alike like other) : Nodes.Alike like (nodes.push node) (others.push other) := by
  rw [Nodes.Alike, Array.toList_push, Array.toList_push]
  exact append first (single alike)

theorem join {nodes others more otherMore : Array Node} (first : Nodes.Alike like nodes others)
    (second : Nodes.Alike like more otherMore) :
    Nodes.Alike like (nodes ++ more) (others ++ otherMore) := by
  rw [Nodes.Alike, Array.toList_append, Array.toList_append]
  exact append first second

theorem isEmpty {nodes others : Array Node} (alike : Nodes.Alike like nodes others) :
    others.isEmpty = nodes.isEmpty := by
  have sizes : others.size = nodes.size := by simpa using alike.length_eq.symm
  rw [Array.isEmpty, Array.isEmpty, sizes]

theorem getLast? (alike : List.Forall₂ (Node.Alike like) nodes others) :
    Option.Rel (Node.Alike like) nodes.getLast? others.getLast? := by
  induction alike with
  | nil => exact .none
  | cons first rest ih =>
    cases rest with
    | nil => exact .some first
    | cons second rest => simpa only [List.getLast?_cons_cons] using ih

end Nodes.Alike

namespace Node.Alike

variable {node other : Node}

theorem parameters (alike : node.Alike like other) :
    List.Forall₂ (Node.Alike like) node.parameters other.parameters := by
  rw [Node.parameters, Node.parameters, alike.kind]
  split
  · refine List.rel_filter (fun first second pair => ?_) alike.children
    simp only [pair.kind]
  · exact .nil

theorem isSome_body? (alike : node.Alike like other) : other.body?.isSome = node.body?.isSome := by
  rw [Node.body?, Node.body?, alike.kind]
  split
  · have last := Nodes.Alike.getLast? alike.children
    generalize node.children.getLast? = final at last ⊢
    generalize other.children.getLast? = otherFinal at last ⊢
    cases last with
    | none => rfl
    | some last => simp [Option.isSome_filter, last.kind]
  · rfl

end Node.Alike

/-! ## What productions gather -/

inductive Diagnostic.Alike (like : Likeness) : Diagnostic → Diagnostic → Prop
  | intro {kind : DiagnosticKind} {place other : SourceLocation} {message : String}
      (placed : like.places place other) (written : like.Writes message) :
      Alike like ⟨kind, place, message⟩ ⟨kind, other, message⟩

/-- Items of which as many were read, and which were completed or not on both sides. -/
inductive Items.Alike (like : Likeness) : Items → Items → Prop
  | intro {nodes others : Array Node} {completed : Bool} (alike : Nodes.Alike like nodes others) :
      Alike like ⟨nodes, completed⟩ ⟨others, completed⟩

inductive TypeDerivation.Alike (like : Likeness) : TypeDerivation → TypeDerivation → Prop
  | pointer {place other : SourceLocation} (qualifiers : Qualifiers)
      (placed : like.places place other) :
      Alike like (.pointer place qualifiers) (.pointer other qualifiers)
  | array {place other : SourceLocation} (qualifiers : Qualifiers) (isStatic isStar : Bool)
      {length otherLength : Option Node} (placed : like.places place other)
      (sized : Option.Rel (Node.Alike like) length otherLength) :
      Alike like (.array place qualifiers isStatic isStar length)
        (.array other qualifiers isStatic isStar otherLength)
  | function {place other : SourceLocation} {parameters others : List Node}
      (isVariadic isPrototyped : Bool) (placed : like.places place other)
      (declared : List.Forall₂ (Node.Alike like) parameters others) :
      Alike like (.function place parameters isVariadic isPrototyped)
        (.function other others isVariadic isPrototyped)

inductive Declarator.Alike (like : Likeness) : Declarator → Declarator → Prop
  | intro {name : Option String} {place other : SourceLocation}
      {derivations others : List TypeDerivation} (placed : like.places place other)
      (derived : List.Forall₂ (TypeDerivation.Alike like) derivations others) :
      Alike like ⟨name, place, derivations⟩ ⟨name, other, others⟩

inductive DeclarationSpecifiers.Alike (like : Likeness) :
    DeclarationSpecifiers → DeclarationSpecifiers → Prop
  | intro {specifiers : DeclarationSpecifiers} {other : SourceLocation} {alignments : Array Node}
      {named : Option Node} (placed : like.places specifiers.location other)
      (aligned : Nodes.Alike like specifiers.alignments alignments)
      (types : Option.Rel (Node.Alike like) specifiers.named named) :
      Alike like specifiers
        { specifiers with location := other, alignments := alignments, named := named }

namespace DeclarationSpecifiers.Alike

theorem of (specifiers : DeclarationSpecifiers) {other : SourceLocation} {alignments : Array Node}
    {named : Option Node} (placed : like.places specifiers.location other)
    (aligned : Nodes.Alike like specifiers.alignments alignments)
    (types : Option.Rel (Node.Alike like) specifiers.named named) :
    specifiers.Alike like
      { specifiers with location := other, alignments := alignments, named := named } :=
  .intro placed aligned types

variable {specifiers other : DeclarationSpecifiers} (alike : specifiers.Alike like other)

include alike

theorem isPresent : other.isPresent = specifiers.isPresent := by
  cases alike
  rfl

theorem isSome_named : other.named.isSome = specifiers.named.isSome := by
  obtain ⟨_, _, types⟩ := alike
  dsimp only
  generalize specifiers.named = named at types
  cases types <;> rfl

theorem isNone_named : other.named.isNone = specifiers.named.isNone := by
  rw [← Option.not_isSome, ← Option.not_isSome, alike.isSome_named]

end DeclarationSpecifiers.Alike

inductive Productions.ParameterList.Alike (like : Likeness) :
    Productions.ParameterList → Productions.ParameterList → Prop
  | intro {nodes others : Array Node} {isVariadic isPrototyped : Bool}
      (alike : Nodes.Alike like nodes others) :
      Alike like ⟨nodes, isVariadic, isPrototyped⟩ ⟨others, isVariadic, isPrototyped⟩

/-! ## Types of declarators -/

theorem Qualifiers.alike_apply (qualifiers : Qualifiers) {place other : SourceLocation}
    {type otherType : Node} (placed : like.places place other) (alike : type.Alike like otherType) :
    (qualifiers.apply place type).Alike like (qualifiers.apply other otherType) := by
  unfold Qualifiers.apply
  split
  · exact alike
  · exact .intro placed (.same nofun) (Nodes.Alike.single alike)

theorem TypeDerivation.Alike.apply {derivation other : TypeDerivation} {base otherBase : Node}
    (alike : derivation.Alike like other) (based : base.Alike like otherBase) :
    (derivation.apply base).Alike like (other.apply otherBase) := by
  cases alike with
  | pointer qualifiers placed =>
    exact qualifiers.alike_apply placed (.ofChildren placed (Nodes.Alike.single based))
  | array _ _ _ placed sized =>
    exact .intro placed (.same nofun) (.cons based (Nodes.Alike.optional sized))
  | function _ _ placed declared =>
    exact .intro placed (.same nofun) (.cons based declared)

namespace Declarator.Alike

variable {declarator other : Declarator} {base otherBase : Node}

theorem placed (alike : declarator.Alike like other) :
    like.places declarator.location other.location := by
  cases alike
  assumption

theorem name (alike : declarator.Alike like other) : other.name = declarator.name := by
  cases alike
  rfl

theorem append {more otherMore : List TypeDerivation} (alike : declarator.Alike like other)
    (further : List.Forall₂ (TypeDerivation.Alike like) more otherMore) :
    (declarator.append more).Alike like (other.append otherMore) := by
  obtain ⟨placed, derived⟩ := alike
  exact .intro placed (List.rel_append derived further)

theorem type (alike : declarator.Alike like other) (based : base.Alike like otherBase) :
    (declarator.type base).Alike like (other.type otherBase) := by
  obtain ⟨_, derived⟩ := alike
  -- From the base outward: the step nearest to the name is applied last.
  induction derived with
  | nil => exact based
  | cons first rest ih => exact first.apply ih

theorem isFunction (alike : declarator.Alike like other) :
    other.isFunction = declarator.isFunction := by
  obtain ⟨_, derived⟩ := alike
  cases derived with
  | nil => rfl
  | cons first _ => cases first <;> rfl

end Declarator.Alike

end CFrontEnd
