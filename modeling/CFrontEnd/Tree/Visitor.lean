import CFrontEnd.Tree.Walk

/-!
Visitors that are led through a tree and have a state of their own, so that what they answer may depend
on all that they have seen.
-/

namespace CFrontEnd

/-- `enter` says whether the nodes below are to be visited; `leave` is told in any case. -/
structure Visitor (σ : Type) where
  enter : Node → Nat → σ → Bool × σ
  leave : Node → Nat → σ → σ

/-- What a visitor sees and answers. -/
inductive VisitRecord
  | enter (node : Node) (depth : Nat) (opens : Bool)
  | leave (node : Node) (depth : Nat)

namespace Visitor

variable {σ : Type}

mutual

/-- The state of the visitor behind the tree. -/
def walkFrom (visitor : Visitor σ) (depth : Nat) (state : σ) : Node → σ
  | ⟨kind, location, payload, children⟩ =>
    let node := ⟨kind, location, payload, children⟩
    let (opens, entered) := visitor.enter node depth state
    visitor.leave node depth
      (if opens then walkAll visitor (depth + 1) entered children else entered)

def walkAll (visitor : Visitor σ) (depth : Nat) (state : σ) : List Node → σ
  | [] => state
  | node :: rest => walkAll visitor depth (walkFrom visitor depth state node) rest

end

def walk (visitor : Visitor σ) (node : Node) (state : σ) : σ := visitor.walkFrom 0 state node

/-- The same visitor, who also writes down what happens. -/
def recording (visitor : Visitor σ) : Visitor (σ × List VisitRecord) where
  enter node depth state :=
    let (opens, entered) := visitor.enter node depth state.1
    (opens, entered, state.2 ++ [.enter node depth opens])
  leave node depth state :=
    (visitor.leave node depth state.1, state.2 ++ [.leave node depth])

/-- The visitor who decides by the node and its depth alone. -/
def deciding (opens : Node → Nat → Bool) : Visitor Unit where
  enter node depth _ := (opens node depth, ())
  leave _ _ _ := ()

end Visitor

end CFrontEnd
