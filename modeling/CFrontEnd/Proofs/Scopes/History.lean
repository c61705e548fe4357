import CFrontEnd.Scope

/-!
Lexical scoping read off a history of what was done to the scopes, without a stack: a declaration counts
as long as the scope it was made in has not been left.
-/

namespace CFrontEnd

/-- What can be done to the scopes. -/
inductive ScopeChange
  | enter
  | exit
  | addTypedef (name : String)
  | addOrdinary (name : String)
  | addTag (kind : TagKind) (name : String)
  deriving DecidableEq, Repr

namespace ScopeChange

def declares : ScopeChange → Bool
  | enter | exit => false
  | addTypedef _ | addOrdinary _ | addTag _ _ => true

/-- The declaration of a name as a typedef or as an ordinary identifier. -/
def addName (name : String) : NameKind → ScopeChange
  | .typedefName => addTypedef name
  | .ordinary => addOrdinary name

def addTagged (name : String) (kind : TagKind) : ScopeChange := addTag kind name

/-- How many scopes are open around the innermost one. The file scope is never left. -/
def depth (history : List ScopeChange) : Nat :=
  history.foldl
    (fun depth change =>
      match change with
      | enter => depth + 1
      | exit => depth - 1
      | _ => depth)
    0

end ScopeChange

open ScopeChange

/-- The change was made as the one at `index`, in the scope that many scopes in, and that scope has not
been left since. -/
structure Survives (history : List ScopeChange) (level index : Nat) (change : ScopeChange) :
    Prop where
  made : history[index]? = some change
  reached : depth (history.take index) = level
  kept : ∀ later, index < later → later ≤ history.length → level ≤ depth (history.take later)

variable {κ : Type}

/-- What the surviving declarations in one scope come to, of which the one counts that `wins` against
each of them. -/
def CountsAt (history : List ScopeChange) (wins : Nat → Nat → Prop) (declare : κ → ScopeChange)
    (level : Nat) (kind : κ) : Prop :=
  ∃ index, Survives history level index (declare kind) ∧
    ∀ other otherKind, Survives history level other (declare otherKind) → wins index other

/-- What they come to in the innermost scope that has one of them. -/
def Counts (history : List ScopeChange) (wins : Nat → Nat → Prop) (declare : κ → ScopeChange)
    (kind : κ) : Prop :=
  ∃ level, CountsAt history wins declare level kind ∧
    ∀ inner index otherKind, Survives history inner index (declare otherKind) → inner ≤ level

/-- The name is what its latest declaration makes of it. -/
abbrev NameCounts (history : List ScopeChange) (name : String) (kind : NameKind) : Prop :=
  Counts history (fun index other => other ≤ index) (addName name) kind

/-- A tag is of the kind that it was first declared with. -/
abbrev TagCountsAt (history : List ScopeChange) (name : String) (level : Nat) (kind : TagKind) :
    Prop :=
  CountsAt history (fun index other => index ≤ other) (addTagged name) level kind

abbrev TagCounts (history : List ScopeChange) (name : String) (kind : TagKind) : Prop :=
  Counts history (fun index other => index ≤ other) (addTagged name) kind

/-! ## Longer histories -/

namespace ScopeChange

variable {history : List ScopeChange} {change : ScopeChange}

theorem depth_append_enter : depth (history ++ [enter]) = depth history + 1 := by
  simp [depth]

theorem depth_append_exit : depth (history ++ [exit]) = depth history - 1 := by
  simp [depth]

theorem depth_append_declaration (declares : change.declares = true) :
    depth (history ++ [change]) = depth history := by
  cases change with
  | enter => cases declares
  | exit => cases declares
  | _ => simp [depth]

theorem declares_addName (name : String) (kind : NameKind) :
    (addName name kind).declares = true := by
  cases kind <;> rfl

theorem addName_injective {name other : String} {kind otherKind : NameKind}
    (same : addName name kind = addName other otherKind) : name = other ∧ kind = otherKind := by
  cases kind <;> cases otherKind <;> simp_all [addName]

end ScopeChange

namespace Survives

variable {history : List ScopeChange} {level index : Nat} {change last : ScopeChange}

theorem index_lt (survives : Survives history level index change) : index < history.length :=
  (List.getElem?_eq_some_iff.mp survives.made).1

theorem level_le (survives : Survives history level index change) : level ≤ depth history := by
  have whole := survives.kept history.length survives.index_lt (Nat.le_refl _)
  rwa [List.take_length] at whole

/-- What survives one more change was there before and is not in a scope that the change leaves, or it
is the change itself. -/
theorem append_iff :
    Survives (history ++ [last]) level index change ↔
      (Survives history level index change ∧ level ≤ depth (history ++ [last])) ∨
      (index = history.length ∧ change = last ∧ level = depth history ∧
        level ≤ depth (history ++ [last])) := by
  constructor
  · intro survives
    have bound := survives.level_le
    have before := survives.index_lt
    rw [List.length_append, List.length_singleton] at before
    -- Only the index of the last change tells the two sides of the disjunction apart.
    by_cases isLast : index = history.length
    · subst isLast
      refine .inr ⟨rfl, ?_, ?_, bound⟩
      · simpa using survives.made.symm
      · simpa using survives.reached.symm
    · refine .inl ⟨⟨?_, ?_, ?_⟩, bound⟩
      · rw [← survives.made, List.getElem?_append_left (by omega)]
      · rw [← survives.reached, List.take_append_of_le_length (by omega)]
      · intro later further inside
        have kept := survives.kept later further (by simp; omega)
        rwa [List.take_append_of_le_length inside] at kept
  · rintro (⟨survives, bound⟩ | ⟨rfl, rfl, rfl, bound⟩)
    · have before := survives.index_lt
      constructor
      · rw [List.getElem?_append_left before, survives.made]
      · rw [List.take_append_of_le_length (Nat.le_of_lt before), survives.reached]
      · intro later further inside
        rw [List.length_append, List.length_singleton] at inside
        by_cases isLast : later = history.length + 1
        · rwa [List.take_of_length_le (by simp [isLast])]
        · rw [List.take_append_of_le_length (by omega)]
          exact survives.kept later further (by omega)
    · constructor
      · simp
      · simp
      · intro later further inside
        rw [List.length_append, List.length_singleton] at inside
        rwa [List.take_of_length_le (by simp; omega)]

theorem append_enter (declares : change.declares = true) :
    Survives (history ++ [enter]) level index change ↔ Survives history level index change := by
  rw [append_iff, depth_append_enter]
  constructor
  · rintro (⟨survives, -⟩ | ⟨-, rfl, -, -⟩)
    · exact survives
    · cases declares
  · intro survives
    have bound := survives.level_le
    exact .inl ⟨survives, by omega⟩

theorem append_exit (declares : change.declares = true) :
    Survives (history ++ [exit]) level index change ↔
      Survives history level index change ∧ level ≤ depth history - 1 := by
  rw [append_iff, depth_append_exit]
  constructor
  · rintro (survives | ⟨-, rfl, -, -⟩)
    · exact survives
    · cases declares
  · exact .inl

theorem append_declaration (declares : last.declares = true) :
    Survives (history ++ [last]) level index change ↔
      Survives history level index change ∨
        (index = history.length ∧ change = last ∧ level = depth history) := by
  rw [append_iff, depth_append_declaration declares]
  constructor
  · rintro (⟨survives, -⟩ | ⟨place, same, here, -⟩)
    · exact .inl survives
    · exact .inr ⟨place, same, here⟩
  · rintro (survives | ⟨place, same, here⟩)
    · exact .inl ⟨survives, survives.level_le⟩
    · exact .inr ⟨place, same, here, Nat.le_of_eq here⟩

end Survives

/-! ## What counts is one thing -/

variable {history : List ScopeChange} {wins : Nat → Nat → Prop} {declare : κ → ScopeChange}
  {level otherLevel : Nat} {kind otherKind : κ}

theorem CountsAt.unique
    (antisymm : ∀ first second, wins first second → wins second first → first = second)
    (injective : ∀ first second, declare first = declare second → first = second)
    (counts : CountsAt history wins declare level kind)
    (otherCounts : CountsAt history wins declare level otherKind) : kind = otherKind := by
  obtain ⟨index, survives, best⟩ := counts
  obtain ⟨other, otherSurvives, otherBest⟩ := otherCounts
  obtain rfl : index = other :=
    antisymm _ _ (best _ _ otherSurvives) (otherBest _ _ survives)
  apply injective
  exact Option.some.inj (survives.made.symm.trans otherSurvives.made)

theorem Counts.unique
    (antisymm : ∀ first second, wins first second → wins second first → first = second)
    (injective : ∀ first second, declare first = declare second → first = second)
    (counts : Counts history wins declare kind)
    (otherCounts : Counts history wins declare otherKind) : kind = otherKind := by
  obtain ⟨level, countsAt, innermost⟩ := counts
  obtain ⟨otherLevel, otherCountsAt, otherInnermost⟩ := otherCounts
  have ⟨index, survives, _⟩ := countsAt
  have ⟨other, otherSurvives, _⟩ := otherCountsAt
  obtain rfl : level = otherLevel :=
    Nat.le_antisymm (otherInnermost _ _ _ survives) (innermost _ _ _ otherSurvives)
  exact CountsAt.unique antisymm injective countsAt otherCountsAt

end CFrontEnd
