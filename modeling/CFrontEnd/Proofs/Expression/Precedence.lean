import CFrontEnd.Proofs.Expression.Reading
import CFrontEnd.Proofs.Grammar.Start
import CFrontEnd.Proofs.Grammar.Statements
import CFrontEnd.Proofs.Grammar.Words

/-!
Names with binary operators between them, in a language with any table of operators. They are grouped as
the precedences and associativities of the table say, and there is one way only to do so.
-/

namespace CFrontEnd

open Parse Productions

/-! ## Chains -/

/-- A name that stands for no type at the top of a text. -/
structure OperandName (language : Language) where
  token : Token
  isName : token.kind = .identifier
  noType : language.isTypeName ScopeStack.initial.isTypedefName token.lexeme = false

/-- A binary operator that the table of the language has at a level of such operators. -/
structure InfixOperator (language : Language) where
  token : Token
  symbol : Operator
  entry : OperatorEntry
  binary : BinaryOperator
  isSymbol : token.kind = .operator symbol
  hasEntry : language.operatorEntry? symbol = some entry
  isBinary : BinaryOperator.ofOperator? symbol = some binary
  low : 3 ≤ entry.precedence
  high : entry.precedence ≤ 12

namespace InfixOperator

variable {language : Language}

def precedence (operator : InfixOperator language) : Nat := operator.entry.precedence

def associativity (operator : InfixOperator language) : Associativity := operator.entry.associativity

theorem rightLevel_le_iff (operator : InfixOperator language) {level : Nat} :
    operator.entry.rightLevel ≤ level ↔
      operator.precedence < level ∨
        operator.precedence = level ∧ operator.associativity = .right := by
  unfold OperatorEntry.rightLevel precedence associativity
  split
  · rename_i isRight
    simp only [isRight, and_true]
    omega
  · rename_i notRight
    simp only [notRight, and_false, or_false]
    omega

end InfixOperator

/-- A name, and behind it operators with a name behind each. -/
structure InfixChain (language : Language) where
  first : OperandName language
  rest : List (InfixOperator language × OperandName language)

namespace InfixChain

variable {language : Language}

/-- The tokens behind the first name. -/
def restTokens (rest : List (InfixOperator language × OperandName language)) : List Token :=
  rest.flatMap fun (operator, name) => [operator.token, name.token]

def tokens (chain : InfixChain language) : List Token := chain.first.token :: restTokens chain.rest

/-- Operators of one precedence associate alike. -/
def Consistent (rest : List (InfixOperator language × OperandName language)) : Prop :=
  ∀ first ∈ rest, ∀ second ∈ rest,
    first.1.precedence = second.1.precedence → first.1.associativity = second.1.associativity

theorem Consistent.mono {part whole : List (InfixOperator language × OperandName language)}
    (consistent : Consistent whole) (within : part ⊆ whole) : Consistent part :=
  fun first isFirst second isSecond =>
    consistent first (within isFirst) second (within isSecond)

theorem length_restTokens (rest : List (InfixOperator language × OperandName language)) :
    (restTokens rest).length = 2 * rest.length := by
  induction rest with
  | nil => rfl
  | cons pair rest ih =>
    rw [restTokens, List.flatMap_cons, List.length_append, ← restTokens, ih]
    simp
    omega

end InfixChain

/-! ## Trees -/

inductive OperatorTree (language : Language)
  | name (operand : OperandName language)
  | apply (left : OperatorTree language) (operator : InfixOperator language)
    (right : OperatorTree language)

namespace OperatorTree

variable {language : Language}

def first : OperatorTree language → OperandName language
  | .name operand => operand
  | .apply left _ _ => left.first

def rest : OperatorTree language → List (InfixOperator language × OperandName language)
  | .name _ => []
  | .apply left operator right => left.rest ++ (operator, right.first) :: right.rest

/-- The names and operators of the tree in order. -/
def chain (tree : OperatorTree language) : InfixChain language := ⟨tree.first, tree.rest⟩

def root? : OperatorTree language → Option (InfixOperator language)
  | .name _ => none
  | .apply _ operator _ => some operator

def node : OperatorTree language → Node
  | .name operand => .named .identifier operand.token.location operand.token.lexeme
  | .apply left operator right =>
    .ofChildren (.binary operator.binary) operator.token.location [left.node, right.node]

/-- Operands are grouped as the table of the language says. -/
inductive Follows : OperatorTree language → Prop
  | name (operand : OperandName language) : Follows (.name operand)
  | apply {left right : OperatorTree language} {operator : InfixOperator language}
      (first : left.Follows) (second : right.Follows)
      (onLeft : ∀ inner ∈ left.root?, operator.precedence < inner.precedence ∨
        operator.precedence = inner.precedence ∧ operator.associativity ≠ .right)
      (onRight : ∀ inner ∈ right.root?, operator.precedence < inner.precedence ∨
        operator.precedence = inner.precedence ∧ operator.associativity = .right) :
      Follows (.apply left operator right)

/-! ## There is one grouping -/

theorem Follows.root_le {tree : OperatorTree language} (follows : tree.Follows) :
    ∀ root ∈ tree.root?, ∀ pair ∈ tree.rest, root.precedence ≤ pair.1.precedence := by
  induction follows with
  | name => simp [root?]
  | @apply left right operator _ _ onLeft onRight ihLeft ihRight =>
    -- What is inside an operand is at least as tight as its root, which is as tight as the operator.
    have inside (operand : OperatorTree language)
        (bound : ∀ root ∈ operand.root?, ∀ pair ∈ operand.rest, root.precedence ≤ pair.1.precedence)
        (tight : ∀ root ∈ operand.root?, operator.precedence ≤ root.precedence) :
        ∀ pair ∈ operand.rest, operator.precedence ≤ pair.1.precedence := by
      intro pair member
      cases operand with
      | name => simp [rest] at member
      | apply _ inner _ => exact Nat.le_trans (tight inner rfl) (bound inner rfl pair member)
    rintro _ ⟨⟩ pair member
    rw [rest, List.mem_append, List.mem_cons] at member
    rcases member with member | rfl | member
    · refine inside left ihLeft (fun root isRoot => ?_) pair member
      rcases onLeft root isRoot with tighter | ⟨same, _⟩ <;> omega
    · exact Nat.le_refl _
    · refine inside right ihRight (fun root isRoot => ?_) pair member
      rcases onRight root isRoot with tighter | ⟨same, _⟩ <;> omega

/-- A condition on the root of an operand holds of all operators in it. -/
theorem Follows.everywhere {operand : OperatorTree language} {level : Nat} {allowed : Prop}
    (follows : operand.Follows)
    (atRoot : ∀ inner ∈ operand.root?, level < inner.precedence ∨ level = inner.precedence ∧ allowed) :
    ∀ pair ∈ operand.rest, level < pair.1.precedence ∨ level = pair.1.precedence ∧ allowed := by
  intro pair member
  cases operand with
  | name => simp [rest] at member
  | apply _ inner _ =>
    have bound := follows.root_le inner rfl pair member
    rcases atRoot inner rfl with tighter | ⟨same, allowed⟩
    · exact .inl (by omega)
    · rcases Nat.lt_or_ge level pair.1.precedence with tighter | notTighter
      · exact .inl tighter
      · exact .inr ⟨by omega, allowed⟩

/-- Of two operators each cannot have the other in its operand, the first on its right and the second on
its left. -/
theorem not_crossed {left right left' right' : OperatorTree language}
    {operator operator' : InfixOperator language} {name name' : OperandName language}
    (follows : (apply left operator right).Follows) (follows' : (apply left' operator' right').Follows)
    (consistent : operator.precedence = operator'.precedence →
      operator.associativity = operator'.associativity)
    (onRight : (operator', name') ∈ right.rest) (onLeft : (operator, name) ∈ left'.rest) : False := by
  cases follows with
  | apply _ second _ onRoot =>
    cases follows' with
    | apply first' _ onRoot' _ =>
      have tight := second.everywhere onRoot _ onRight
      have tight' := first'.everywhere onRoot' _ onLeft
      dsimp only at tight tight'
      rcases tight with tighter | ⟨same, isRight⟩
      · rcases tight' with tighter' | ⟨same', _⟩ <;> omega
      · rcases tight' with tighter' | ⟨_, notRight⟩
        · omega
        · exact notRight (consistent same ▸ isRight)

/-- The items that two cuts of one list single out are the same, or each stands on one side of the
other. -/
theorem cuts_cases {α : Type} {front back front' back' : List α} {item item' : α}
    (same : front' ++ item' :: back' = front ++ item :: back) :
    (front' = front ∧ item' = item ∧ back' = back) ∨ (item ∈ front' ∧ item' ∈ back) ∨
      (item' ∈ front ∧ item ∈ back') := by
  rcases List.append_eq_append_iff.mp same with ⟨gap, fronts, backs⟩ | ⟨gap, fronts, backs⟩
  · cases gap with
    | nil =>
      obtain ⟨items, tails⟩ := List.cons.inj backs
      exact .inl ⟨by simpa using fronts.symm, items, tails⟩
    | cons other gap =>
      obtain ⟨rfl, tails⟩ := List.cons.inj backs
      exact .inr (.inr ⟨by simp [fronts], by simp [tails]⟩)
  · cases gap with
    | nil =>
      obtain ⟨items, tails⟩ := List.cons.inj backs
      exact .inl ⟨by simpa using fronts, items.symm, tails.symm⟩
    | cons other gap =>
      obtain ⟨rfl, tails⟩ := List.cons.inj backs
      exact .inr (.inl ⟨by simp [fronts], by simp [tails]⟩)

/-- Two trees that follow the table and have the same in them are the same. -/
theorem Follows.unique {tree other : OperatorTree language} (follows : tree.Follows)
    (consistent : InfixChain.Consistent tree.rest) (otherFollows : other.Follows)
    (sameFirst : other.first = tree.first) (sameRest : other.rest = tree.rest) : other = tree := by
  induction follows generalizing other with
  | name operand =>
    cases otherFollows with
    | name => exact congrArg OperatorTree.name sameFirst
    | apply => simp [rest] at sameRest
  | @apply left right operator leftFollows rightFollows onLeft onRight ihLeft ihRight =>
    have whole := Follows.apply leftFollows rightFollows onLeft onRight
    cases otherFollows with
    | name => simp [rest] at sameRest
    | @apply left' right' operator' leftFollows' rightFollows' onLeft' onRight' =>
      have whole' := Follows.apply leftFollows' rightFollows' onLeft' onRight'
      rw [rest] at consistent
      have inLeft {pair} (member : pair ∈ left.rest) :
          pair ∈ left.rest ++ (operator, right.first) :: right.rest :=
        List.mem_append_left _ member
      have inRight {pair} (member : pair ∈ right.rest) :
          pair ∈ left.rest ++ (operator, right.first) :: right.rest :=
        List.mem_append_right _ (List.mem_cons_of_mem _ member)
      have here : (operator, right.first) ∈ left.rest ++ (operator, right.first) :: right.rest :=
        List.mem_append_right _ List.mem_cons_self
      -- Both trees cut the same chain at their root. Cut at one place they have the same halves;
      -- cut at two places, the operator of each root stands inside the other tree, and their
      -- levels cross.
      rcases cuts_cases sameRest with ⟨lefts, pairs, rights⟩ | ⟨onLeft, onRight⟩ | ⟨onLeft, onRight⟩
      · obtain ⟨rfl, names⟩ := Prod.mk.inj pairs
        have sameLeft := ihLeft (fun first member second other =>
          consistent first (inLeft member) second (inLeft other)) leftFollows' sameFirst lefts
        have sameRight := ihRight (fun first member second other =>
          consistent first (inRight member) second (inRight other)) rightFollows' names rights
        rw [sameLeft, sameRight]
      · exact (not_crossed whole whole' (consistent _ here _ (inRight onRight)) onRight onLeft).elim
      · exact (not_crossed whole' whole (consistent _ (inLeft onLeft) _ here) onRight onLeft).elim

end OperatorTree

/-! ## Climbing -/

/-- From `position` on there is the rest of a chain, and then the text ends. -/
structure InfixChain.RestsAt {language : Language} (tokens : TokenStream) (position : Nat)
    (rest : List (InfixOperator language × OperandName language)) : Prop where
  has : tokens.HasAt position (InfixChain.restTokens rest)
  ends : (tokens.get (position + 2 * rest.length)).kind = .endOfFile

namespace InfixChain.RestsAt

variable {language : Language} {tokens : TokenStream} {position : Nat}
  {pair : InfixOperator language × OperandName language}
  {rest consumed after : List (InfixOperator language × OperandName language)}

theorem cons (rests : RestsAt tokens position (pair :: rest)) :
    tokens.get position = pair.1.token ∧ tokens.get (position + 1) = pair.2.token ∧
      RestsAt tokens (position + 2) rest := by
  obtain ⟨⟨_, operator, _, name, has⟩, ends⟩ := rests
  refine ⟨operator, name, has, ?_⟩
  rw [← ends, List.length_cons]
  congr 2
  omega

theorem drop (rests : RestsAt tokens position (consumed ++ after)) :
    RestsAt tokens (position + 2 * consumed.length) after := by
  induction consumed generalizing position with
  | nil => exact rests
  | cons pair consumed ih =>
    have further := ih rests.cons.2.2
    rwa [List.length_cons, show position + 2 * (consumed.length + 1) =
      position + 2 + 2 * consumed.length by omega]

/-- No token behind a name in the chain makes a longer operand of it. -/
theorem extendsOperand (rests : RestsAt tokens position rest) :
    (tokens.get position).kind.extendsOperand = false := by
  cases rest with
  | nil =>
    have ends := rests.ends
    rw [List.length_nil, Nat.mul_zero, Nat.add_zero] at ends
    rw [ends]
    rfl
  | cons pair rest =>
    obtain ⟨⟨_, symbol, _, binary, isSymbol, _, isBinary, _, _⟩, _⟩ := pair
    obtain ⟨same, _⟩ := rests.cons
    rw [same, isSymbol]
    cases symbol <;> first | rfl | cases isBinary

end InfixChain.RestsAt

section Climbing

variable {context : ParseContext} {state : ParseState} {levels least steps : Nat}
  {rest : List (InfixOperator context.language × OperandName context.language)}

theorem atBinary?_operator {operator : InfixOperator context.language}
    (here : context.tokens.get state.position = operator.token) :
    atBinary? least context state =
      .ok (if least ≤ operator.precedence then some (operator.binary, operator.entry.rightLevel)
        else none) state := by
  have low := operator.low
  have high := operator.high
  by_cases enough : least ≤ operator.precedence
  · have enough' : least ≤ operator.entry.precedence := enough
    simp [atBinary?, here, operator.isSymbol, operator.hasEntry, operator.isBinary, enough, enough', low,
      high, Precedence.level]
  · have enough' : ¬ least ≤ operator.entry.precedence := enough
    simp [atBinary?, here, operator.isSymbol, operator.hasEntry, enough, enough']

theorem cast_operandName {operand : OperandName context.language} (initial : state.scopes = .initial)
    (here : context.tokens.get state.position = operand.token)
    (ends : (context.tokens.get (state.position + 1)).kind.extendsOperand = false) :
    (ofLevels (levels + 2)).cast context state =
      .ok (OperatorTree.name operand).node (state.movedTo (state.position + 1)) := by
  have read : castRule (rules (ofLevels levels)) context state = _ :=
    castRule_name (by rw [here, operand.isName]) (by rw [here, initial, operand.noType]) ends
  rw [here] at read
  exact read

/-- A tree for a chain up to the first operator that is looser than `least`. -/
structure Climbed {language : Language} (least : Nat) (tree : OperatorTree language)
    (after : List (InfixOperator language × OperandName language)) : Prop where
  follows : tree.Follows
  tight : ∀ root ∈ tree.root?, least ≤ root.precedence
  stops : ∀ pair ∈ after.head?, pair.1.precedence < least

/-- With so many steps, climbing gets through chains of fewer operators. -/
def Climbs (context : ParseContext) (levels steps : Nat) : Prop :=
  ∀ (least : Nat) (state : ParseState) (chain : InfixChain context.language),
    chain.rest.length < steps → InfixChain.Consistent chain.rest → state.scopes = .initial →
    context.tokens.get state.position = chain.first.token →
    InfixChain.RestsAt context.tokens (state.position + 1) chain.rest →
    ∃ (tree : OperatorTree context.language)
      (after : List (InfixOperator context.language × OperandName context.language)),
      tree.first = chain.first ∧ chain.rest = tree.rest ++ after ∧ Climbed least tree after ∧
      binaryWithin (ofLevels (levels + 2)) steps least context state =
        .ok tree.node (state.movedTo (state.position + 1 + 2 * tree.rest.length))

/-- The operator that comes next may take the tree as its left operand. -/
def OperatorTree.StandsLeftOf {language : Language} (tree : OperatorTree language)
    (rest : List (InfixOperator language × OperandName language)) : Prop :=
  ∀ root ∈ tree.root?, ∀ pair ∈ rest.head?, pair.1.precedence < root.precedence ∨
    pair.1.precedence = root.precedence ∧ pair.1.associativity ≠ .right

section Step

variable {language : Language} {operator : InfixOperator language} {operand : OperandName language}
  {tree right : OperatorTree language}
  {middle after : List (InfixOperator language × OperandName language)}

/-- A right operand that was climbed for makes a grouped tree with the left one. -/
theorem Climbed.follows_apply (climbed : Climbed operator.entry.rightLevel right after)
    (follows : tree.Follows) (left : tree.StandsLeftOf ((operator, operand) :: middle)) :
    (OperatorTree.apply tree operator right).Follows :=
  .apply follows climbed.follows (fun root isRoot => left root isRoot _ rfl)
    (fun root isRoot => operator.rightLevel_le_iff.mp (climbed.tight root isRoot))

/-- What stops the right operand takes the whole tree on its left, because operators of one level
associate alike. -/
theorem Climbed.standsLeftOf (climbed : Climbed operator.entry.rightLevel right after)
    (consistent : InfixChain.Consistent ((operator, operand) :: (middle ++ after))) :
    (OperatorTree.apply tree operator right).StandsLeftOf after := by
  rintro _ ⟨⟩ pair isNext
  have looser := mt operator.rightLevel_le_iff.mpr (Nat.not_le.mpr (climbed.stops pair isNext))
  have next := List.mem_append_right middle (List.mem_of_mem_head? isNext)
  have alike := consistent _ List.mem_cons_self pair (List.mem_cons_of_mem _ next)
  rw [not_or, not_and, Nat.not_lt] at looser
  rcases Nat.lt_or_eq_of_le looser.1 with less | same
  · exact .inl less
  · exact .inr ⟨same, alike same.symm ▸ looser.2 same.symm⟩

end Step

/-- Climbing ends where the chain does, or at an operator that is looser than `least`. -/
theorem repeatFrom_stops (rests : InfixChain.RestsAt context.tokens state.position rest)
    (stops : ∀ pair ∈ rest.head?, pair.1.precedence < least) (left : Node) :
    repeatFrom (binaryStep (ofLevels (levels + 2)) steps least) left context state =
      .ok left state := by
  cases rest with
  | nil =>
    have ends := rests.ends
    rw [List.length_nil, Nat.mul_zero, Nat.add_zero] at ends
    have none : atBinary? least context state = .ok none state := by simp [atBinary?, ends]
    exact binaryStep_none none
  | cons pair rest =>
    have loose : ¬ least ≤ pair.1.precedence := Nat.not_le_of_lt (stops pair rfl)
    have none : atBinary? least context state = .ok none state := by
      rw [atBinary?_operator rests.cons.1, if_neg loose]
    exact binaryStep_none none

/-- A tight operator makes a tree of what was read on its left and what is climbed for on its right. -/
theorem repeatFrom_applies (inner : Climbs context levels steps)
    {operator : InfixOperator context.language} {operand : OperandName context.language}
    (enough : least ≤ operator.precedence) (few : rest.length < steps)
    (consistent : InfixChain.Consistent rest)
    (rests : InfixChain.RestsAt context.tokens state.position ((operator, operand) :: rest))
    (initial : state.scopes = .initial) (tree : OperatorTree context.language) :
    ∃ (right : OperatorTree context.language)
      (after : List (InfixOperator context.language × OperandName context.language)),
      right.first = operand ∧ rest = right.rest ++ after ∧
      Climbed operator.entry.rightLevel right after ∧
      repeatFrom (binaryStep (ofLevels (levels + 2)) steps least) tree.node context state =
        repeatFrom (binaryStep (ofLevels (levels + 2)) steps least)
          (OperatorTree.apply tree operator right).node context
          (state.movedTo (state.position + 2 + 2 * right.rest.length)) := by
  obtain ⟨here, behind, restsOn⟩ := rests.cons
  have found : atBinary? least context state =
      .ok (some (operator.binary, operator.entry.rightLevel)) state := by
    rw [atBinary?_operator here, if_pos enough]
  have notEnd : (context.tokens.get state.position).kind ≠ .endOfFile := by
    simp [here, operator.isSymbol]
  obtain ⟨right, after, sameFirst, sameRest, climbed, read⟩ :=
    inner operator.entry.rightLevel (state.movedTo (state.position + 1)) ⟨operand, rest⟩ few
      consistent initial behind restsOn
  have agrees : Agrees False .empty
      (repeatFrom (binaryStep (ofLevels (levels + 2)) steps least) tree.node context state) _ :=
    binaryStep_some notEnd found (.inl read) (by rw [ParseState.position_movedTo]; omega)
  refine ⟨right, after, sameFirst, sameRest, climbed, ?_⟩
  rw [agrees.eq, here]
  rfl

theorem repeatFrom_climbs (inner : Climbs context levels steps) (least : Nat) (state : ParseState)
    (tree : OperatorTree context.language) (few : rest.length ≤ steps)
    (consistent : InfixChain.Consistent rest)
    (rests : InfixChain.RestsAt context.tokens state.position rest)
    (initial : state.scopes = .initial) (follows : tree.Follows)
    (tight : ∀ root ∈ tree.root?, least ≤ root.precedence) (left : tree.StandsLeftOf rest) :
    ∃ (whole : OperatorTree context.language)
      (consumed after : List (InfixOperator context.language × OperandName context.language)),
      whole.first = tree.first ∧ whole.rest = tree.rest ++ consumed ∧ rest = consumed ++ after ∧
      Climbed least whole after ∧
      repeatFrom (binaryStep (ofLevels (levels + 2)) steps least) tree.node context state =
        .ok whole.node (state.movedTo (state.position + 2 * consumed.length)) := by
  -- On the length of the chain: the right operand takes a part of it that is not known
  -- beforehand.
  induction length : rest.length using Nat.strongRecOn generalizing rest tree state with
  | ind length ih =>
    subst length
    by_cases stops : ∀ pair ∈ rest.head?, pair.1.precedence < least
    · exact ⟨tree, [], rest, rfl, by simp, rfl, ⟨follows, tight, stops⟩,
        repeatFrom_stops rests stops tree.node⟩
    · obtain ⟨operator, operand, rest, rfl, enough⟩ :
          ∃ operator operand others, rest = (operator, operand) :: others ∧
            least ≤ operator.precedence := by
        cases rest with
        | nil => simp at stops
        | cons pair others => exact ⟨pair.1, pair.2, others, rfl, by simpa using stops⟩
      have consistentBehind : InfixChain.Consistent rest :=
        consistent.mono (List.subset_cons_self _ _)
      obtain ⟨right, after, sameFirst, rfl, climbed, applied⟩ :=
        repeatFrom_applies inner enough few consistentBehind rests initial tree
      have lengths : ((operator, operand) :: (right.rest ++ after)).length =
          right.rest.length + after.length + 1 := by
        rw [List.length_cons, List.length_append]
      have consistentNext : InfixChain.Consistent after :=
        consistentBehind.mono (List.subset_append_right _ _)
      have restsNext : InfixChain.RestsAt context.tokens
          (state.movedTo (state.position + 2 + 2 * right.rest.length)).position after :=
        rests.cons.2.2.drop
      obtain ⟨whole, consumed, after, wholeFirst, wholeRest, rfl, done, readOn⟩ :=
        ih after.length (by omega) _ (.apply tree operator right) (by omega) consistentNext
          restsNext initial (climbed.follows_apply follows left) (by rintro _ ⟨⟩; exact enough)
          (climbed.standsLeftOf consistent) rfl
      refine ⟨whole, (operator, right.first) :: right.rest ++ consumed, after, wholeFirst, ?_, ?_, done,
        ?_⟩
      · rw [wholeRest, OperatorTree.rest, List.append_assoc]
      · rw [sameFirst]
        simp
      · rw [applied]
        refine readOn.trans (congrArg _ (congrArg state.movedTo ?_))
        simp only [ParseState.position_movedTo, List.cons_append, List.length_cons,
          List.length_append]
        omega

theorem climbs (steps : Nat) : Climbs context levels steps := by
  induction steps with
  | zero => exact fun _ _ _ few => absurd few (Nat.not_lt_zero _)
  | succ steps ih =>
    rintro least state ⟨operand, rest⟩ few consistent initial here rests
    have read : (ofLevels (levels + 2)).cast context state = _ :=
      cast_operandName initial here rests.extendsOperand
    obtain ⟨tree, consumed, after, sameFirst, sameRest, rfl, done, readOn⟩ :=
      repeatFrom_climbs ih least (state.movedTo (state.position + 1)) (.name operand)
        (Nat.le_of_lt_succ few) consistent rests initial (.name operand)
        (by rintro _ ⟨⟩) (by rintro _ ⟨⟩)
    obtain rfl : tree.rest = consumed := by simpa [OperatorTree.rest] using sameRest
    refine ⟨tree, after, sameFirst, rfl, done, ?_⟩
    rw [binaryWithin_succ, bind_apply, read]
    exact readOn

theorem expression_climbs (chain : InfixChain context.language)
    (consistent : InfixChain.Consistent chain.rest) (initial : state.scopes = .initial)
    (start : state.position = 0) (isText : context.tokens.body.toList = chain.tokens) :
    ∃ tree : OperatorTree context.language, tree.first = chain.first ∧ tree.rest = chain.rest ∧
      tree.Follows ∧
      (ofLevels (levels + 4)).expression context state =
        .ok tree.node (state.movedTo context.tokens.body.size) := by
  have size : context.tokens.body.size = 1 + 2 * chain.rest.length := by
    rw [← Array.length_toList, isText, InfixChain.tokens, List.length_cons,
      InfixChain.length_restTokens, Nat.add_comm]
  have ends := context.tokens.get_size
  obtain ⟨_, here, has⟩ := isText ▸ context.tokens.hasAt_body
  have rests : InfixChain.RestsAt context.tokens (state.position + 1) chain.rest := by
    rw [start]
    exact ⟨has, by rwa [Nat.zero_add, ← size]⟩
  have few : chain.rest.length < state.remaining context := by
    simp only [ParseState.remaining, TokenStream.remaining, TokenStream.length, start, size]
    omega
  obtain ⟨tree, after, sameFirst, sameRest, done, read⟩ :=
    climbs (state.remaining context) 3 state chain few consistent initial (by rw [start, here]) rests
  -- All operators are as tight as the loosest level, so that none is left over.
  obtain rfl : after = [] := by
    cases after with
    | nil => rfl
    | cons pair _ => exact absurd (done.stops pair rfl) (Nat.not_lt.mpr pair.1.low)
  rw [List.append_nil] at sameRest
  have stop : state.position + 1 + 2 * tree.rest.length = context.tokens.body.size := by
    rw [start, ← sameRest, size, Nat.zero_add]
  rw [stop] at read
  have binary : binary (ofLevels (levels + 2)) context state = _ := read
  have conditional : Agrees False .empty (conditionalRule (ofLevels (levels + 2)) context state) _ :=
    conditionalRule_plain (.inl binary) (by simp [ends])
  have assignment : (ofLevels (levels + 4)).assignment context state = _ :=
    assignment_of_conditional conditional.eq (by simp [ends])
  exact ⟨tree, sameFirst, sameRest.symm, done.follows,
    expression_of_single assignment (by simp [ends])⟩

end Climbing

/-! ## Texts -/

/-- Whatever the table of the language, names with binary operators between them are parsed without a
problem into the one tree that is grouped as the table says. -/
theorem parseRule_infixChain (language : Language) (known : language.hasRule "expression" = true)
    (chain : InfixChain language) (consistent : InfixChain.Consistent chain.rest)
    (tokens : TokenStream) (isText : tokens.body.toList = chain.tokens) (diagnostics : Diagnostics) :
    ∃ tree : OperatorTree language,
      language.parseRule "expression" tokens diagnostics = (some tree.node, diagnostics) ∧
        tree.chain = chain ∧ tree.Follows ∧
        ∀ other : OperatorTree language, other.chain = chain → other.Follows → other = tree := by
  obtain ⟨tree, sameFirst, sameRest, follows, read⟩ :
      ∃ tree : OperatorTree language, tree.first = chain.first ∧ tree.rest = chain.rest ∧
        tree.Follows ∧
        (ofLevels (1020 + 4)).expression (language.context tokens) (.first diagnostics) =
          .ok tree.node ((ParseState.first diagnostics).movedTo tokens.body.size) :=
    @expression_climbs (language.context tokens) _ _ chain consistent rfl rfl isText
  refine ⟨tree, ?_, ?_, follows, fun other same otherFollows => ?_⟩
  · have named : StartRule.ofName? "expression" = some .expression := by decide
    have started : fromRule "expression" (language.context tokens) (.first diagnostics) =
        .ok tree.node ((ParseState.first diagnostics).movedTo tokens.body.size) := by
      have isKnown : (language.context tokens).language.hasRule "expression" = true := known
      simp only [fromRule, isKnown, if_true, named]
      exact read
    have noneNew : (ParseState.first diagnostics).diagnostics = diagnostics := rfl
    exact Language.parseRule_of_run
      (by simp [wholeRule, started, TokenStream.get_size, noneNew])
  · exact congr (congrArg InfixChain.mk sameFirst) sameRest
  · refine follows.unique (sameRest ▸ consistent) otherFollows ?_ ?_
    · exact (congrArg InfixChain.first same).trans sameFirst.symm
    · exact (congrArg InfixChain.rest same).trans sameRest.symm

/-! A language whose differences are tighter than its products and group from the right. -/

section Differences

def differences : Language where
  name := "differences"
  version := "c17"
  operators := [⟨"*", .star, 3, .left⟩, ⟨"-", .minus, 5, .right⟩]
  rules := ["expression"]

def differencesName (column : Nat) (name : String) : OperandName differences where
  token := { kind := .identifier, lexeme := name, location := ⟨"<input>", 1, column, column - 1⟩ }
  isName := rfl
  noType := rfl

def differencesTimes (column : Nat) : InfixOperator differences where
  token := { kind := .operator .star, lexeme := "*", location := ⟨"<input>", 1, column, column - 1⟩ }
  symbol := .star
  entry := ⟨"*", .star, 3, .left⟩
  binary := .multiply
  isSymbol := rfl
  hasEntry := rfl
  isBinary := rfl
  low := by decide
  high := by decide

def differencesMinus (column : Nat) : InfixOperator differences where
  token := { kind := .operator .minus, lexeme := "-", location := ⟨"<input>", 1, column, column - 1⟩ }
  symbol := .minus
  entry := ⟨"-", .minus, 5, .right⟩
  binary := .subtract
  isSymbol := rfl
  hasEntry := rfl
  isBinary := rfl
  low := by decide
  high := by decide

/-- `b-c-d` -/
def differencesInner : OperatorTree differences :=
  .apply (.name (differencesName 3 "b")) (differencesMinus 4)
    (.apply (.name (differencesName 5 "c")) (differencesMinus 6) (.name (differencesName 7 "d")))

/-- `a*b-c-d*e`, which is `(a*(b-(c-d)))*e`. -/
def differencesTree : OperatorTree differences :=
  .apply (.apply (.name (differencesName 1 "a")) (differencesTimes 2) differencesInner)
    (differencesTimes 8) (.name (differencesName 9 "e"))

theorem parseRule_infixChain_differences :
    differences.hasRule "expression" = true ∧
      InfixChain.Consistent differencesTree.chain.rest ∧
      differences.parseRule "expression"
        ⟨differencesTree.chain.tokens.toArray, ⟨"<input>", 1, 10, 9⟩⟩ .empty =
          (some differencesTree.node, .empty) := by
  have known : differences.hasRule "expression" = true := by decide
  have consistent : InfixChain.Consistent differencesTree.chain.rest := by
    unfold InfixChain.Consistent
    decide
  have inner : differencesInner.Follows := by
    refine .apply (.name _) (.apply (.name _) (.name _) ?_ ?_) ?_ ?_ <;>
      simp [OperatorTree.root?, InfixOperator.precedence, InfixOperator.associativity, differencesMinus]
  have follows : differencesTree.Follows := by
    refine .apply (.apply (.name _) inner ?_ ?_) (.name _) ?_ ?_ <;>
      simp [OperatorTree.root?, differencesInner, InfixOperator.precedence,
        InfixOperator.associativity, differencesMinus, differencesTimes]
  obtain ⟨tree, parsed, _, _, unique⟩ := parseRule_infixChain differences known differencesTree.chain
    consistent ⟨differencesTree.chain.tokens.toArray, ⟨"<input>", 1, 10, 9⟩⟩ rfl .empty
  exact ⟨known, consistent, by rw [parsed, unique differencesTree rfl follows]⟩

end Differences

end CFrontEnd
