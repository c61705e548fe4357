import CFrontEnd.Tree.Walk
import Mathlib.Data.List.Infix
import Mathlib.Data.List.Lex

/-!
Walks through a tree by addresses, with any answers given on the way. The address of a node says which
child to take at each step down from the root, so that equal nodes at different places are told apart,
and parents stand before children in the lexicographic order of addresses.
-/

namespace CFrontEnd

namespace Node

/-- The node at an address, if there is one. -/
def at? (node : Node) : List Nat → Option Node
  | [] => some node
  | index :: rest => (node.child? index).bind fun child => child.at? rest

/-- The nodes with the addresses below `path` that begin with `index`. -/
def addressed (path : List Nat) (index : Nat) : List Node → List (List Nat × Node)
  | [] => []
  | node :: rest => (path ++ [index], node) :: addressed path (index + 1) rest

end Node

/-- What happens at an address. `opens` is the answer that is given there. -/
inductive Step
  | enter (path : List Nat) (opens : Bool)
  | leave (path : List Nat)

namespace Step

def path : Step → List Nat
  | enter path _ => path
  | leave path => path

def entered : Step → Option (List Nat)
  | enter path _ => some path
  | leave _ => none

end Step

/-- The node at the address was entered, whatever was answered. -/
def Entered (steps : List Step) (path : List Nat) : Prop := ∃ opens, Step.enter path opens ∈ steps

/-- Every step into a node is answered by one out of the same node, with brackets in between. -/
inductive Bracketed : List Step → Prop
  | nil : Bracketed []
  | node {inside rest : List Step} (path : List Nat) (opens : Bool) (nested : Bracketed inside)
      (behind : Bracketed rest) :
      Bracketed (.enter path opens :: (inside ++ .leave path :: rest))

/-- The steps go through the tree: they enter exactly the nodes with no refused node above them, in the
order of addresses, and every entered node is left once, behind all that is visited below it. -/
structure IsTraversal (root : Node) (steps : List Step) : Prop where
  entered : ∀ path, Entered steps path ↔
    (root.at? path).isSome ∧
      ∀ front, front <+: path → front ≠ path → Step.enter front false ∉ steps
  ordered : (steps.filterMap Step.entered).Pairwise (· < ·)
  bracketed : Bracketed steps
  left : ∀ path opens, Step.enter path opens ∈ steps →
    ∃ before inside after,
      steps = before ++ .enter path opens :: (inside ++ .leave path :: after) ∧
      (∀ step ∈ inside, path <+: step.path ∧ step.path ≠ path) ∧
      ∀ step ∈ before ++ after, ¬ path <+: step.path

/-- The steps through the trees at the given addresses, one after the other. Of a node that is refused
the children are left out. -/
inductive Walks : List (List Nat × Node) → List Step → Prop
  | nil : Walks [] []
  | node {path : List Nat} {node : Node} {opens : Bool} {pending : List (List Nat × Node)}
      {inside rest : List Step}
      (nested : Walks (Node.addressed path 0 (if opens then node.children else [])) inside)
      (behind : Walks pending rest) :
      Walks ((path, node) :: pending) (.enter path opens :: (inside ++ .leave path :: rest))

/-! ## Addresses -/

/-- The addresses part, and the first one goes to the left there. -/
def Before (first second : List Nat) : Prop :=
  ∃ front left right firstRest secondRest, left < right ∧
    first = front ++ left :: firstRest ∧ second = front ++ right :: secondRest

namespace Before

variable {first second path other : List Nat}

/-- What is below the one is in front of all that is below the other. -/
theorem extend (before : Before first second) (below : first <+: path) (otherBelow : second <+: other) :
    Before path other := by
  obtain ⟨front, left, right, firstRest, secondRest, less, rfl, rfl⟩ := before
  obtain ⟨more, rfl⟩ := below
  obtain ⟨otherMore, rfl⟩ := otherBelow
  exact ⟨front, left, right, firstRest ++ more, secondRest ++ otherMore, less, by simp, by simp⟩

theorem lt (before : Before first second) : first < second := by
  obtain ⟨front, left, right, firstRest, secondRest, less, rfl, rfl⟩ := before
  exact List.Lex.append_left _ (.rel less) front

theorem notAbove (before : Before first second) : ¬ first <+: second ∧ ¬ second <+: first := by
  obtain ⟨front, left, right, firstRest, secondRest, less, rfl, rfl⟩ := before
  simp only [List.prefix_append_right_inj, List.cons_prefix_cons]
  omega

end Before

theorem lt_of_below {path other : List Nat} (below : path <+: other) (differs : other ≠ path) :
    path < other := by
  obtain ⟨more, rfl⟩ := below
  cases more with
  | nil => exact absurd (List.append_nil path) differs
  | cons index rest =>
    have shorter : [] < index :: rest := .nil
    simpa using List.Lex.append_left _ shorter path

namespace Node

variable {path : List Nat} {index : Nat} {nodes : List Node} {item : List Nat × Node}

theorem at?_append (node : Node) (first second : List Nat) :
    node.at? (first ++ second) = (node.at? first).bind fun below => below.at? second := by
  induction first generalizing node with
  | nil => rfl
  | cons index rest ih =>
    simp only [List.cons_append, at?]
    cases node.child? index with
    | none => rfl
    | some child => exact ih child

theorem mem_addressed : item ∈ addressed path index nodes ↔
    ∃ place child, nodes[place]? = some child ∧ item = (path ++ [index + place], child) := by
  induction nodes generalizing index with
  | nil => simp [addressed]
  | cons node rest ih =>
    rw [addressed, List.mem_cons, ih]
    constructor
    · rintro (rfl | ⟨place, child, found, rfl⟩)
      · exact ⟨0, node, rfl, rfl⟩
      · refine ⟨place + 1, child, found, ?_⟩
        rw [Nat.add_assoc, Nat.add_comm 1 place]
    · rintro ⟨place, child, found, rfl⟩
      cases place with
      | zero =>
        obtain rfl : node = child := Option.some.inj found
        exact .inl rfl
      | succ place =>
        refine .inr ⟨place, child, found, ?_⟩
        rw [Nat.add_assoc, Nat.add_comm 1 place]

theorem before_addressed :
    (addressed path index nodes).Pairwise fun first second => Before first.1 second.1 := by
  induction nodes generalizing index with
  | nil => exact .nil
  | cons node rest ih =>
    refine List.pairwise_cons.mpr ⟨?_, ih⟩
    intro item member
    obtain ⟨place, child, _, rfl⟩ := mem_addressed.mp member
    exact ⟨path, index, index + 1 + place, [], [], by omega, rfl, rfl⟩

end Node

/-! ## What holds of every walk -/

theorem mem_entered {steps : List Step} {path : List Nat} :
    path ∈ steps.filterMap Step.entered ↔ Entered steps path := by
  rw [List.mem_filterMap]
  constructor
  · rintro ⟨step, member, enters⟩
    cases step with
    | enter other opens =>
      cases enters
      exact ⟨opens, member⟩
    | leave _ => cases enters
  · rintro ⟨opens, member⟩
    exact ⟨_, member, rfl⟩

theorem entered_node (path : List Nat) (opens : Bool) (inside rest : List Step) :
    (Step.enter path opens :: (inside ++ .leave path :: rest)).filterMap Step.entered =
      path :: (inside.filterMap Step.entered ++ rest.filterMap Step.entered) := by
  have enters : Step.entered (.enter path opens) = some path := rfl
  have leaves : Step.entered (.leave path) = none := rfl
  rw [List.filterMap_cons_some enters, List.filterMap_append, List.filterMap_cons_none leaves]

namespace Walks

variable {path : List Nat} {nodes : List Node} {pending : List (List Nat × Node)}
  {steps inside rest : List Step}

/-- Nothing happens but at the given addresses and below them. -/
theorem within (walks : Walks pending steps) :
    ∀ step ∈ steps, ∃ item ∈ pending, item.1 <+: step.path := by
  induction walks with
  | nil =>
    intro step member
    cases member
  | @node path node opens pending inside rest _ _ ihInside ih =>
    intro step member
    rcases List.mem_cons.mp member with rfl | member
    · exact ⟨_, List.mem_cons_self, List.prefix_refl _⟩
    rcases List.mem_append.mp member with member | member
    · obtain ⟨item, isItem, below⟩ := ihInside step member
      obtain ⟨place, child, _, rfl⟩ := Node.mem_addressed.mp isItem
      exact ⟨_, List.mem_cons_self, (List.prefix_append _ _).trans below⟩
    rcases List.mem_cons.mp member with rfl | member
    · exact ⟨_, List.mem_cons_self, List.prefix_refl _⟩
    · obtain ⟨item, isItem, below⟩ := ih step member
      exact ⟨item, List.mem_cons_of_mem _ isItem, below⟩

/-- Among the children of a node everything is properly below the node. -/
theorem properly_below (nested : Walks (Node.addressed path 0 nodes) inside) :
    ∀ step ∈ inside, path <+: step.path ∧ step.path ≠ path := by
  intro step member
  obtain ⟨item, isItem, below⟩ := nested.within step member
  obtain ⟨place, child, _, rfl⟩ := Node.mem_addressed.mp isItem
  refine ⟨(List.prefix_append _ _).trans below, ?_⟩
  intro same
  have longer := below.length_le
  rw [same, List.length_append, List.length_singleton] at longer
  omega

theorem before_behind (behind : Walks pending rest)
    (before : ∀ item ∈ pending, Before path item.1) :
    ∀ step ∈ rest, Before path step.path := by
  intro step member
  obtain ⟨item, isItem, below⟩ := behind.within step member
  exact (before item isItem).extend (List.prefix_refl _) below

theorem bracketed (walks : Walks pending steps) : Bracketed steps := by
  induction walks with
  | nil => exact .nil
  | @node path node opens _ _ _ _ _ ihInside ih => exact .node path opens ihInside ih

/-- The addresses are entered in their order: a node in front of those below it, and these in front of
what is behind the node. -/
theorem ordered (walks : Walks pending steps)
    (apart : pending.Pairwise fun first second => Before first.1 second.1) :
    (steps.filterMap Step.entered).Pairwise (· < ·) := by
  induction walks with
  | nil => exact .nil
  | @node path node opens pending inside rest nested behind ihInside ih =>
    obtain ⟨before, apart⟩ := List.pairwise_cons.mp apart
    have below := nested.properly_below
    have later := behind.before_behind before
    rw [entered_node]
    refine List.pairwise_cons.mpr ⟨?_, List.pairwise_append.mpr
      ⟨ihInside Node.before_addressed, ih apart, ?_⟩⟩
    · intro other member
      rcases List.mem_append.mp member with member | member
      · obtain ⟨answer, isStep⟩ := mem_entered.mp member
        exact lt_of_below (below _ isStep).1 (below _ isStep).2
      · obtain ⟨answer, isStep⟩ := mem_entered.mp member
        exact (later _ isStep).lt
    · intro first isFirst second isSecond
      obtain ⟨answer, isStep⟩ := mem_entered.mp isFirst
      obtain ⟨otherAnswer, isOther⟩ := mem_entered.mp isSecond
      exact ((later _ isOther).extend (below _ isStep).1 (List.prefix_refl _)).lt

theorem left (walks : Walks pending steps)
    (apart : pending.Pairwise fun first second => Before first.1 second.1) {opens : Bool}
    (member : Step.enter path opens ∈ steps) :
    ∃ before inside after, steps = before ++ .enter path opens :: (inside ++ .leave path :: after) ∧
      (∀ step ∈ inside, path <+: step.path ∧ step.path ≠ path) ∧
      ∀ step ∈ before ++ after, ¬ path <+: step.path := by
  -- What is entered among the children or behind the node is left there, and nothing of the rest is
  -- below it.
  induction walks with
  | nil => cases member
  | @node here node answer pending inside rest nested behind ihInside ih =>
    obtain ⟨before, apart⟩ := List.pairwise_cons.mp apart
    have below := nested.properly_below
    have later := behind.before_behind before
    rcases List.mem_cons.mp member with same | member
    · cases same
      refine ⟨[], inside, rest, rfl, below, ?_⟩
      intro step isStep
      exact (later step isStep).notAbove.1
    rcases List.mem_append.mp member with isInside | member
    · obtain ⟨front, between, behindIt, rfl, deeper, elsewhere⟩ :=
        ihInside Node.before_addressed isInside
      have lower := below _ isInside
      refine ⟨.enter here answer :: front, between, behindIt ++ .leave here :: rest,
        by simp, deeper, ?_⟩
      have notHere : ¬ path <+: here := by
        intro above
        exact lower.2 (above.eq_of_length (Nat.le_antisymm above.length_le lower.1.length_le))
      intro step isStep
      simp only [List.cons_append, List.mem_cons, List.mem_append] at isStep
      rcases isStep with rfl | isFront | isBehind | rfl | isRest
      · exact notHere
      · exact elsewhere step (List.mem_append_left _ isFront)
      · exact elsewhere step (List.mem_append_right _ isBehind)
      · exact notHere
      · exact ((later step isRest).extend lower.1 (List.prefix_refl _)).notAbove.1
    rcases List.mem_cons.mp member with same | member
    · cases same
    · obtain ⟨front, between, behindIt, rfl, deeper, elsewhere⟩ := ih apart member
      have apartFrom := later _ member
      refine ⟨.enter here answer :: (inside ++ .leave here :: front), between, behindIt,
        by simp, deeper, ?_⟩
      intro step isStep
      simp only [List.cons_append, List.append_assoc, List.mem_cons, List.mem_append] at isStep
      rcases isStep with rfl | isInside | rfl | isFront | isBehind
      · exact apartFrom.notAbove.2
      · exact (apartFrom.extend (below step isInside).1 (List.prefix_refl _)).notAbove.2
      · exact apartFrom.notAbove.2
      · exact elsewhere step (List.mem_append_left _ isFront)
      · exact elsewhere step (List.mem_append_right _ isBehind)

/-- A node is given one answer only. -/
theorem not_refused (walks : Walks pending steps)
    (apart : pending.Pairwise fun first second => Before first.1 second.1)
    (opened : Step.enter path true ∈ steps) : Step.enter path false ∉ steps := by
  obtain ⟨before, inside, after, rfl, below, elsewhere⟩ := walks.left apart opened
  intro refused
  simp only [List.mem_append, List.mem_cons] at refused
  rcases refused with isBefore | same | isInside | same | isAfter
  · exact elsewhere _ (List.mem_append_left _ isBefore) (List.prefix_refl _)
  · cases same
  · exact (below _ isInside).2 rfl
  · cases same
  · exact elsewhere _ (List.mem_append_right _ isAfter) (List.prefix_refl _)

end Walks

/-! ## What is entered -/

/-- The address is that of the tree or below it, with nothing refused from the tree on above it. -/
def IsReached (refused : List Nat → Prop) (item : List Nat × Node) (path : List Nat) : Prop :=
  ∃ tail, path = item.1 ++ tail ∧ (item.2.at? tail).isSome ∧
    ∀ front, front <+: tail → front ≠ tail → ¬ refused (item.1 ++ front)

theorem isReached_iff {refused : List Nat → Prop} {here path : List Nat} {node : Node} :
    IsReached refused (here, node) path ↔
      path = here ∨
        ¬ refused here ∧ ∃ item ∈ Node.addressed here 0 node.children, IsReached refused item path := by
  constructor
  · rintro ⟨tail, rfl, isSome, free⟩
    -- The node itself is reached; anything further is reached through one of the children.
    cases tail with
    | nil => exact .inl (List.append_nil here)
    | cons index rest =>
      have freeHere := free [] ⟨index :: rest, rfl⟩ (List.cons_ne_nil index rest).symm
      rw [List.append_nil] at freeHere
      obtain ⟨below, found⟩ := Option.isSome_iff_exists.mp isSome
      obtain ⟨child, isChild, foundBelow⟩ := Option.bind_eq_some_iff.mp found
      refine .inr ⟨freeHere, (here ++ [index], child), ?_, rest, by simp, by simp [foundBelow], ?_⟩
      · exact Node.mem_addressed.mpr ⟨index, child, isChild, by simp⟩
      · intro front isFront differs
        have freeBelow := free (index :: front) (List.cons_prefix_cons.mpr ⟨rfl, isFront⟩)
          (by simpa using differs)
        simpa using freeBelow
  · rintro (rfl | ⟨freeHere, item, isItem, tail, rfl, isSome, free⟩)
    · refine ⟨[], by simp, rfl, ?_⟩
      intro front isFront differs
      exact absurd (List.prefix_nil.mp isFront) differs
    · obtain ⟨place, child, isChild, rfl⟩ := Node.mem_addressed.mp isItem
      refine ⟨place :: tail, by simp, ?_, ?_⟩
      · have found : node.child? place = some child := isChild
        simpa [Node.at?, found] using isSome
      · intro front isFront differs
        cases front with
        | nil => simpa using freeHere
        | cons index rest =>
          obtain ⟨rfl, isRest⟩ := List.cons_prefix_cons.mp isFront
          have freeBelow := free rest isRest (by simpa using differs)
          simpa using freeBelow

theorem entered_iff_node {path here : List Nat} {opens : Bool} {inside rest : List Step} :
    Entered (.enter here opens :: (inside ++ .leave here :: rest)) path ↔
      path = here ∨ Entered inside path ∨ Entered rest path := by
  rw [← mem_entered, entered_node, List.mem_cons, List.mem_append, mem_entered, mem_entered]

/-- A walk enters what is reached without passing a refused address. -/
theorem Walks.entered_iff {pending : List (List Nat × Node)} {steps : List Step}
    (walks : Walks pending steps) {refused : List Nat → Prop}
    (refuses : ∀ path, Step.enter path false ∈ steps → refused path)
    (opens : ∀ path, Step.enter path true ∈ steps → ¬ refused path) (path : List Nat) :
    Entered steps path ↔ ∃ item ∈ pending, IsReached refused item path := by
  induction walks with
  | nil => simp [Entered]
  | @node here node answer pending inside rest nested behind ihInside ih =>
    have entersInside := ihInside
      (fun path isStep => refuses path (by simp [isStep]))
      (fun path isStep => opens path (by simp [isStep]))
    have entersRest := ih
      (fun path isStep => refuses path (by simp [isStep]))
      (fun path isStep => opens path (by simp [isStep]))
    have answered : (∃ item ∈ Node.addressed here 0 (if answer then node.children else []),
          IsReached refused item path) ↔
        ¬ refused here ∧ ∃ item ∈ Node.addressed here 0 node.children,
          IsReached refused item path := by
      cases answer with
      | true => simp [opens here (by simp)]
      | false => simp [refuses here (by simp), Node.addressed]
    rw [entered_iff_node, entersInside, entersRest, answered, ← or_assoc, ← isReached_iff]
    simp

theorem Walks.isTraversal {root : Node} {steps : List Step} (walks : Walks [([], root)] steps) :
    IsTraversal root steps := by
  have apart : [([], root)].Pairwise fun first second : List Nat × Node =>
      Before first.1 second.1 := List.pairwise_singleton _ _
  constructor
  · intro path
    have refuses : ∀ path, Step.enter path false ∈ steps → Step.enter path false ∈ steps :=
      fun _ refused => refused
    have opens : ∀ path, Step.enter path true ∈ steps → ¬ Step.enter path false ∈ steps :=
      fun _ opened => walks.not_refused apart opened
    rw [walks.entered_iff refuses opens]
    simp [IsReached]
  · exact walks.ordered apart
  · exact walks.bracketed
  · intro path opens member
    exact walks.left apart member

end CFrontEnd
