import CFrontEnd.Proofs.Grammar.Evaluation
import CFrontEnd.Proofs.Schema.Layout

/-!
What can be said of every result of a production, from whatever state it starts. Such a statement
composes along the production; nothing is said where the production gives up.
-/

namespace CFrontEnd

open Parse

variable {α β : Type} {context : ParseContext} {production other : Parse α}
  {continuation : α → Parse β} {good weaker : α → Prop} {last : β → Prop}

/-- Every result of the production is good. -/
def Yields (context : ParseContext) (production : Parse α) (good : α → Prop) : Prop :=
  ∀ state value next, production context state = .ok value next → good value

theorem Yields.mono (yields : Yields context production good)
    (weaken : ∀ value, good value → weaker value) : Yields context production weaker :=
  fun state value next run => weaken value (yields state value next run)

theorem yields_any : Yields context production fun _ => True := fun _ _ _ _ => trivial

/-! ## Composition -/

theorem yields_pure {value : α} (holds : good value) : Yields context (pure value) good := by
  intro state result next run
  cases run
  exact holds

theorem yields_bind (first : Yields context production good)
    (rest : ∀ value, good value → Yields context (continuation value) last) :
    Yields context (production >>= continuation) last := by
  intro state result next run
  rw [bind_apply] at run
  split at run
  · rename_i value middle read
    exact rest value (first state value middle read) middle result next run
  · cases run

theorem yields_then (rest : ∀ value, Yields context (continuation value) last) :
    Yields context (production >>= continuation) last :=
  yields_bind yields_any fun value _ => rest value

theorem yields_map {change : α → β} (yields : Yields context production good)
    (changed : ∀ value, good value → last (change value)) :
    Yields context (change <$> production) last := by
  intro state result next run
  rw [map_apply] at run
  split at run
  · rename_i value middle read
    cases run
    exact changed value (yields state value _ read)
  · cases run

theorem yields_ite {condition : Prop} [Decidable condition]
    (holds : condition → Yields context production good)
    (fails : ¬condition → Yields context other good) :
    Yields context (if condition then production else other) good := by
  split
  · exact holds ‹_›
  · exact fails ‹_›

theorem yields_either {condition : Prop} [Decidable condition]
    (holds : condition → Yields context production good)
    (fails : ¬condition → Yields context other good)
    (rest : ∀ value, good value → Yields context (continuation value) last) :
    Yields context
      (if condition then production >>= continuation else other >>= continuation) last :=
  yields_ite (fun decided => yields_bind (holds decided) rest)
    fun decided => yields_bind (fails decided) rest

theorem yields_optional {condition : Prop} [Decidable condition]
    {continuation : Option α → Parse β} (holds : Yields context production good)
    (rest : ∀ found, (∀ value ∈ found, good value) → Yields context (continuation found) last) :
    Yields context
      (if condition then some <$> production >>= continuation else pure none >>= continuation)
      last := by
  refine yields_either (fun _ => yields_map holds fun value found => ?_)
    (fun _ => yields_pure (by simp)) rest
  simpa using found

theorem yields_unless {condition : Prop} [Decidable condition]
    {continuation : Option α → Parse β} (fails : Yields context production good)
    (rest : ∀ found, (∀ value ∈ found, good value) → Yields context (continuation found) last) :
    Yields context
      (if condition then pure none >>= continuation else some <$> production >>= continuation)
      last := by
  refine yields_either (fun _ => yields_pure (by simp))
    (fun _ => yields_map fails fun value found => ?_) rest
  simpa using found

theorem yields_when {condition : Prop} [Decidable condition] {action : Parse Unit}
    {continuation : Unit → Parse β} (rest : Yields context (continuation ()) last) :
    Yields context (if condition then action >>= continuation else continuation ()) last :=
  yields_ite (fun _ => yields_then fun _ => rest) fun _ => rest

theorem yields_giveUp {place : SourceLocation} {problem : GrammarProblem} :
    Yields context (giveUp place problem : Parse α) good := by
  intro state value next run
  unfold giveUp at run
  split at run <;> cases run

theorem yields_unexpected {what : String} : Yields context (unexpected what : Parse α) good :=
  yields_then fun _ => yields_giveUp

theorem yields_attempt (yields : Yields context production good) :
    Yields context (attempt production) fun found => ∀ value ∈ found, good value := by
  intro state found next run
  unfold attempt at run
  split at run
  · rename_i value middle read
    cases run
    simpa using yields state value _ read
  · cases run
    simp

theorem yields_inNewScope (yields : Yields context production good) :
    Yields context (inNewScope production) good := by
  intro state value next run
  unfold inNewScope at run
  split at run
  · rename_i read
    cases run
    exact yields _ _ _ read
  · cases run

/-! ## Repetition -/

/-- A step of a repetition: what it ends with is good, and also what it goes on with, which can be gone
on from. -/
def Stepped (admitted good : α → Prop) : ForInStep α → Prop
  | .done result => good result
  | .yield result => admitted result ∧ good result

theorem yields_iterate {admitted : α → Prop} {start : α} {step : α → Parse (ForInStep α)}
    (first : admitted start)
    (stepped : ∀ value, admitted value → Yields context (step value) (Stepped admitted good)) :
    Yields context (iterate start step) good := by
  intro state result next run
  change repeatFrom step start context state = _ at run
  -- A step that used up no token ends the repetition with what it has, which is why what a step goes
  -- on with has to be good as well.
  fun_induction repeatFrom step start context state with
  | case1 value state outcome last ran =>
    cases run
    exact stepped value first state _ _ ran
  | case2 value state middle between ran progress ih =>
    exact ih (stepped value first state _ _ ran).1 run
  | case3 value state middle between ran stalls =>
    cases run
    exact (stepped value first state _ _ ran).2
  | case4 => cases run

theorem yields_iterateKeeping {start : α} {step : α → Parse (ForInStep α)} (first : good start)
    (stepped : ∀ value, good value → Yields context (step value) (Stepped good good)) :
    Yields context (iterate start step) good :=
  yields_iterate first stepped

/-! ## Places and names -/

namespace TokenStream

variable {tokens : TokenStream}

theorem get_mem_toList (tokens : TokenStream) (position : Nat) :
    tokens.get position ∈ tokens.toList := by
  unfold get toList
  split
  · exact List.mem_append_left _ (Array.getElem_mem_toList _)
  · exact List.mem_append_right _ List.mem_cons_self

theorem hasPlace_get {position : Nat} : tokens.HasPlace (tokens.get position).location :=
  hasPlace_of_mem (tokens.get_mem_toList position)

end TokenStream

theorem yields_location : Yields context location context.tokens.HasPlace := by
  intro state place next run
  cases run
  exact TokenStream.hasPlace_get

/-- The token is one of the text. -/
def TokenStream.HasToken (tokens : TokenStream) (token : Token) : Prop :=
  tokens.HasPlace token.location

theorem yields_peekToken : Yields context peek (· ∈ context.tokens.toList) := by
  intro state token next run
  cases run
  exact TokenStream.get_mem_toList _ _

theorem yields_advanceToken : Yields context advance (· ∈ context.tokens.toList) := by
  intro state token next run
  cases run
  exact TokenStream.get_mem_toList _ _

theorem yields_expectToken {kind : TokenKind} {what : String} :
    Yields context (expect kind what) (· ∈ context.tokens.toList) :=
  yields_then fun _ => yields_ite (fun _ => yields_advanceToken) fun _ => yields_unexpected

theorem yields_peek : Yields context peek context.tokens.HasToken :=
  yields_peekToken.mono fun _ => TokenStream.hasPlace_of_mem

theorem yields_advance : Yields context advance context.tokens.HasToken :=
  yields_advanceToken.mono fun _ => TokenStream.hasPlace_of_mem

theorem yields_expect {kind : TokenKind} {what : String} :
    Yields context (expect kind what) context.tokens.HasToken :=
  yields_expectToken.mono fun _ => TokenStream.hasPlace_of_mem

theorem yields_optionalIdentifier :
    Yields context optionalIdentifier fun found => ∀ token ∈ found, token ∈ context.tokens.toList :=
  yields_then fun _ => yields_ite
    (fun _ => yields_map yields_advanceToken fun _ inText => by simpa using inText)
    fun _ => yields_pure (by simp)

/-! ## Lists of nodes -/

/-- Nodes that are all of a sort. -/
def AllAre (tokens : TokenStream) (sort : NodeKind → Bool) (nodes : Array Node) : Prop :=
  ∀ node ∈ nodes.toList, node.Is tokens sort

namespace AllAre

variable {tokens : TokenStream} {sort : NodeKind → Bool} {nodes more : Array Node} {node : Node}

theorem empty : AllAre tokens sort #[] := by simp [AllAre]

theorem push (all : AllAre tokens sort nodes) (is : node.Is tokens sort) :
    AllAre tokens sort (nodes.push node) := by
  intro other member
  rw [Array.toList_push, List.mem_append, List.mem_singleton] at member
  rcases member with earlier | rfl
  · exact all other earlier
  · exact is

theorem singleton (is : node.Is tokens sort) : AllAre tokens sort #[node] := empty.push is

theorem append (all : AllAre tokens sort nodes) (others : AllAre tokens sort more) :
    AllAre tokens sort (nodes ++ more) := by
  intro other member
  rw [Array.toList_append, List.mem_append] at member
  exact member.elim (all other) (others other)

theorem appendList {list : List Node} (all : AllAre tokens sort nodes)
    (others : ∀ node ∈ list, node.Is tokens sort) : AllAre tokens sort (nodes ++ list) := by
  intro other member
  rw [Array.toList_appendList, List.mem_append] at member
  exact member.elim (all other) (others other)

theorem mono {wider : NodeKind → Bool} (all : AllAre tokens sort nodes)
    (weaken : ∀ kind, sort kind = true → wider kind = true) : AllAre tokens wider nodes :=
  fun node member => (all node member).mono weaken

end AllAre

variable {sort : NodeKind → Bool} {item : Parse Node}

/-- What was read of items is of the sort, also where they are not completed. -/
abbrev Items.Are (tokens : TokenStream) (sort : NodeKind → Bool) (items : Items) : Prop :=
  AllAre tokens sort items.nodes

theorem yields_single (yields : Yields context item (·.Is context.tokens sort)) :
    Yields context (single item) (Items.Are context.tokens sort) :=
  yields_bind yields fun _ is => yields_pure (AllAre.singleton is)

theorem yields_thenFinish {items : Items} {finish : Parse Unit} {good : Array Node → Prop}
    (all : good items.nodes) :
    Yields context (thenFinish items finish) fun items => good items.nodes := by
  refine yields_ite (fun _ => yields_then fun finished => ?_) fun _ => yields_pure all
  cases finished with
  | some => exact yields_pure all
  | none => exact yields_pure all

theorem yields_completed {production : Parse Items} {good : Items → Prop}
    (yields : Yields context production good) :
    Yields context (completed production) fun nodes => good ⟨nodes, true⟩ := by
  refine yields_bind yields fun ⟨nodes, isCompleted⟩ holds => ?_
  cases isCompleted with
  | true => exact yields_pure holds
  | false =>
    intro state value next run
    cases run

/-- Items that are completed are not none. -/
theorem yields_separatedItems (yields : Yields context item (·.Is context.tokens sort)) :
    Yields context (separatedItems item) fun items =>
      items.Are context.tokens sort ∧ (items.completed = true → items.nodes ≠ #[]) := by
  have none : Items.Are context.tokens sort {} := AllAre.empty
  refine yields_iterate none fun items all => ?_
  refine yields_bind (yields_attempt yields) fun found is => ?_
  cases found with
  | none => exact yields_pure ⟨all, by simp⟩
  | some node =>
    have more := AllAre.push all (is node rfl)
    refine yields_then fun _ => yields_ite (fun _ => ?_) fun _ => ?_
    · exact yields_pure ⟨more, more, by simp⟩
    · exact yields_pure ⟨more, by simp⟩

theorem yields_recoveringItems {stops : Token → Bool} {item : Parse Items}
    (yields : Yields context item (Items.Are context.tokens sort)) :
    Yields context (recoveringItems stops item) (AllAre context.tokens sort) := by
  refine yields_iterateKeeping AllAre.empty fun nodes all => yields_then fun token => ?_
  refine yields_ite (fun _ => yields_pure all) fun _ => yields_then fun start => ?_
  refine yields_bind (yields_attempt yields) fun found is => ?_
  have more : AllAre context.tokens sort
      (nodes ++ (found.getD { completed := false }).nodes) := by
    refine all.append ?_
    cases found with
    | none => exact AllAre.empty
    | some items => exact is items rfl
  exact yields_when (yields_pure ⟨more, more⟩)

end CFrontEnd
