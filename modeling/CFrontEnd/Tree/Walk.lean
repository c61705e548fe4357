import CFrontEnd.Tree.Node

/-!
Two ways through a tree, both depth first and parents before children: a worklist that yields every
node, and a walk that says when it enters and leaves a node and may pass over what is below one.
-/

namespace CFrontEnd

namespace Node

/-- The trees of `pending`, one after the other. -/
def preorder : List Node → List Node
  | [] => []
  | node :: pending => node :: preorder (node.children ++ pending)
termination_by pending => sizes pending
decreasing_by
  rw [sizes_append, sizes, size_eq]
  omega

/-- The node and all nodes below it. -/
def descendants (node : Node) : List Node := preorder [node]

end Node

/-- What happens on a walk, and how far below the root it happens. -/
inductive Visit
  | enter (node : Node) (depth : Nat)
  | leave (node : Node) (depth : Nat)

namespace Node

mutual

/-- The visits of one tree, and `after` them what follows. Where `opens` refuses a node, the walk
leaves it again without a look at its children. -/
def walkFrom (opens : Node → Nat → Bool) (depth : Nat) (after : List Visit) : Node → List Visit
  | ⟨kind, location, payload, children⟩ =>
    let node := ⟨kind, location, payload, children⟩
    let leaving := .leave node depth :: after
    .enter node depth
      :: if opens node depth then walkAll opens (depth + 1) leaving children else leaving

def walkAll (opens : Node → Nat → Bool) (depth : Nat) (after : List Visit) :
    List Node → List Visit
  | [] => after
  | node :: rest => walkFrom opens depth (walkAll opens depth after rest) node

end

def walk (opens : Node → Nat → Bool) (node : Node) : List Visit := walkFrom opens 0 [] node

/-- The nodes with their depths, parents before children. -/
def outline (node : Node) : List (Node × Nat) :=
  (node.walk fun _ _ => true).filterMap fun visit =>
    match visit with
    | .enter node depth => some (node, depth)
    | .leave _ _ => none

end Node

end CFrontEnd
