import CFrontEnd.Proofs.Listing.Labels
import CFrontEnd.Proofs.Tree.Traversal
import CFrontEnd.Tree.Visitor
import Mathlib.Data.List.Forall2

/-!
The ways through a tree lead along the same nodes: the worklist, the walk that decides by a node and its
depth, and the walk of a visitor who may decide by all that went before.
-/

namespace CFrontEnd

/-- The record tells of the step: of the node at its address, as deep as the address is long. -/
inductive Records (root : Node) : Step → VisitRecord → Prop
  | enter {path : List Nat} {node : Node} {opens : Bool} (stands : root.at? path = some node) :
      Records root (.enter path opens) (.enter node path.length opens)
  | leave {path : List Nat} {node : Node} (stands : root.at? path = some node) :
      Records root (.leave path) (.leave node path.length)

/-- The records tell of a traversal of the tree. -/
def Node.IsTraversed (root : Node) (records : List VisitRecord) : Prop :=
  ∃ steps, List.Forall₂ (Records root) steps records ∧ IsTraversal root steps

/-- The visit with the answer that is given by the node and its depth. -/
def Visit.answered (opens : Node → Nat → Bool) : Visit → VisitRecord
  | .enter node depth => .enter node depth (opens node depth)
  | .leave node depth => .leave node depth

namespace Visitor

variable {σ : Type} {root : Node}

mutual

/-- A visitor who writes down what happens goes the same way, and the records tell of a walk. -/
theorem recording_walkFrom (visitor : Visitor σ) (path : List Nat) (state : σ)
    (log : List VisitRecord) : ∀ node : Node, root.at? path = some node →
    ∃ opens inside records,
      visitor.recording.walkFrom path.length (state, log) node =
        (visitor.walkFrom path.length state node, log ++ records) ∧
      List.Forall₂ (Records root) (.enter path opens :: (inside ++ [.leave path])) records ∧
      Walks (Node.addressed path 0 (if opens then node.children else [])) inside
  | ⟨kind, location, payload, children⟩, stands => by
    let node : Node := ⟨kind, location, payload, children⟩
    let opens := (visitor.enter node path.length state).1
    let entered := (visitor.enter node path.length state).2
    let begun := log ++ [.enter node path.length opens]
    have inTree : ∀ place child, children[place]? = some child →
        root.at? (path ++ [0 + place]) = some child := by
      intro place child found
      rw [Node.at?_append, stands]
      simpa [Node.at?, Node.child?] using found
    -- Where the visitor does not go in, nothing is written down between entering and leaving.
    have below : ∃ inside records,
        (if opens then visitor.recording.walkAll (path.length + 1) (entered, begun) children
          else (entered, begun)) =
          (if opens then visitor.walkAll (path.length + 1) entered children else entered,
            begun ++ records) ∧
        List.Forall₂ (Records root) inside records ∧
        Walks (Node.addressed path 0 (if opens then children else [])) inside := by
      cases opens with
      | true => exact recording_walkAll visitor path 0 entered begun children inTree
      | false => exact ⟨[], [], by simp, .nil, .nil⟩
    obtain ⟨inside, records, ran, tells, walks⟩ := below
    refine ⟨opens, inside, .enter node path.length opens :: (records ++ [.leave node path.length]),
      ?_, ?_, walks⟩
    · have whole : visitor.recording.walkFrom path.length (state, log) node =
          visitor.recording.leave node path.length
            (if opens then visitor.recording.walkAll (path.length + 1) (entered, begun) children
              else (entered, begun)) := by
        rw [walkFrom]
        rfl
      have plain : visitor.walkFrom path.length state node =
          visitor.leave node path.length
            (if opens then visitor.walkAll (path.length + 1) entered children else entered) := by
        rw [walkFrom]
      rw [whole, ran, plain]
      simp [recording, begun]
    · exact .cons (.enter stands) (List.rel_append tells (.cons (.leave stands) .nil))

theorem recording_walkAll (visitor : Visitor σ) (path : List Nat) (index : Nat) (state : σ)
    (log : List VisitRecord) : ∀ nodes : List Node,
    (∀ place child, nodes[place]? = some child → root.at? (path ++ [index + place]) = some child) →
    ∃ steps records,
      visitor.recording.walkAll (path.length + 1) (state, log) nodes =
        (visitor.walkAll (path.length + 1) state nodes, log ++ records) ∧
      List.Forall₂ (Records root) steps records ∧ Walks (Node.addressed path index nodes) steps
  | [], _ => ⟨[], [], by simp [walkAll], .nil, .nil⟩
  | node :: rest, inTree => by
    have stands : root.at? (path ++ [index]) = some node := inTree 0 node rfl
    obtain ⟨opens, inside, records, ran, tells, nested⟩ :=
      recording_walkFrom visitor (path ++ [index]) state log node stands
    have behind : ∀ place child, rest[place]? = some child →
        root.at? (path ++ [index + 1 + place]) = some child := by
      intro place child found
      rw [Nat.add_assoc, Nat.add_comm 1]
      exact inTree (place + 1) child found
    rw [List.length_append, List.length_singleton] at ran
    obtain ⟨steps, more, ranRest, tellsRest, walks⟩ := recording_walkAll visitor path (index + 1)
      (visitor.walkFrom (path.length + 1) state node) (log ++ records) rest behind
    refine ⟨.enter (path ++ [index]) opens :: (inside ++ .leave (path ++ [index]) :: steps),
      records ++ more, ?_, ?_, .node nested walks⟩
    · rw [walkAll, ran, ranRest, walkAll, List.append_assoc]
    · have both := List.rel_append tells tellsRest
      simpa using both

end

theorem recording_walk (visitor : Visitor σ) (root : Node) (state : σ) :
    ∃ records, visitor.recording.walk root (state, []) = (visitor.walk root state, records) ∧
      root.IsTraversed records := by
  have stands : root.at? [] = some root := rfl
  obtain ⟨opens, inside, records, ran, tells, nested⟩ :=
    recording_walkFrom visitor [] state [] root stands
  have walks : Walks [([], root)] (.enter [] opens :: (inside ++ [.leave []])) := .node nested .nil
  exact ⟨records, ran, _, tells, walks.isTraversal⟩

/-! ## Deciding by the node and its depth -/

mutual

theorem deciding_walkFrom (opens : Node → Nat → Bool) (depth : Nat) (log : List VisitRecord)
    (after : List Visit) : ∀ node : Node,
    ((deciding opens).recording.walkFrom depth ((), log) node).2 ++
        after.map (Visit.answered opens) =
      log ++ (Node.walkFrom opens depth after node).map (Visit.answered opens)
  | ⟨kind, location, payload, children⟩ => by
    let node : Node := ⟨kind, location, payload, children⟩
    let begun := log ++ [.enter node depth (opens node depth)]
    have inside := deciding_walkAll opens (depth + 1) begun (.leave node depth :: after) children
    have ran : (deciding opens).recording.walkFrom depth ((), log) node =
        (deciding opens).recording.leave node depth
          (if opens node depth then
            (deciding opens).recording.walkAll (depth + 1) ((), begun) children
          else ((), begun)) := by
      rw [walkFrom]
      rfl
    have left (records : List VisitRecord) :
        ((deciding opens).recording.leave node depth ((), records)).2 ++
            after.map (Visit.answered opens) =
          records ++ (Visit.leave node depth :: after).map (Visit.answered opens) := by
      simp [recording, Visit.answered]
    rw [ran, Node.walkFrom, List.map_cons]
    -- The plain walk hands on what is still to come, the visitor has written down what has been.
    by_cases opened : opens node depth = true
    · rw [if_pos opened, if_pos opened]
      calc
        _ = ((deciding opens).recording.walkAll (depth + 1) ((), begun) children).2 ++
              (Visit.leave node depth :: after).map (Visit.answered opens) := left _
        _ = _ := inside
        _ = _ := List.append_assoc log _ _
    · rw [if_neg opened, if_neg opened]
      calc
        _ = begun ++ (Visit.leave node depth :: after).map (Visit.answered opens) := left _
        _ = _ := List.append_assoc log _ _

theorem deciding_walkAll (opens : Node → Nat → Bool) (depth : Nat) (log : List VisitRecord)
    (after : List Visit) : ∀ nodes : List Node,
    ((deciding opens).recording.walkAll depth ((), log) nodes).2 ++
        after.map (Visit.answered opens) =
      log ++ (Node.walkAll opens depth after nodes).map (Visit.answered opens)
  | [] => by rw [walkAll, Node.walkAll]
  | node :: rest => by
    have first := deciding_walkFrom opens depth log (Node.walkAll opens depth after rest) node
    have behind := deciding_walkAll opens depth
      ((deciding opens).recording.walkFrom depth ((), log) node).2 after rest
    rw [walkAll, Node.walkAll, ← first]
    exact behind

end

end Visitor

theorem Node.isTraversed_walk (root : Node) (opens : Node → Nat → Bool) :
    root.IsTraversed ((root.walk opens).map (Visit.answered opens)) := by
  obtain ⟨records, ran, traversed⟩ := (Visitor.deciding opens).recording_walk root ()
  have same := Visitor.deciding_walkFrom opens 0 [] [] root
  rw [List.map_nil, List.append_nil, List.nil_append] at same
  have recorded : records = (root.walk opens).map (Visit.answered opens) :=
    (congrArg Prod.snd ran).symm.trans same
  rwa [← recorded]

/-- The walk that opens every node enters what the worklist yields, which are as many nodes as the tree
has. Whatever is decided by a node and its depth, or by a visitor with a state of their own, the walk is
a traversal: it enters the nodes that no refused node is above, in order and with their depths, and leaves
each of them behind all that it has entered below it. -/
theorem walk_traverses (root : Node) :
    ((root.walk fun _ _ => true).filterMap Node.entered).map Prod.fst = root.descendants ∧
    root.descendants.length = root.size ∧
    (∀ opens, root.IsTraversed ((root.walk opens).map (Visit.answered opens))) ∧
    ∀ (σ : Type) (visitor : Visitor σ) (state : σ), ∃ records,
      visitor.recording.walk root (state, []) = (visitor.walk root state, records) ∧
      root.IsTraversed records := by
  refine ⟨?_, ?_, root.isTraversed_walk, ?_⟩
  · rw [Node.descendants_eq, ← Node.outline_eq]
    rfl
  · rw [Node.descendants_eq, List.length_map, Node.length_levels]
  · intro σ visitor state
    exact visitor.recording_walk root state

end CFrontEnd
