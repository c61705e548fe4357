import CFrontEnd.Proofs.Blocks.Scoping
import CFrontEnd.Proofs.Scopes.History
import Mathlib.Data.List.Induction

/-!
The stack of scopes answers as the history of what was done to it says. Each scope on the stack holds what
the surviving declarations of its level come to, and every change keeps it so.
-/

namespace CFrontEnd

open ScopeChange

namespace ScopeStack

/-- A tag that clashes with an earlier one changes nothing. -/
def apply (scopes : ScopeStack) : ScopeChange → ScopeStack
  | .enter => scopes.enter
  | .exit => scopes.exit
  | .addTypedef name => scopes.addTypedef name
  | .addOrdinary name => scopes.addOrdinary name
  | .addTag kind name =>
    match scopes.addTag kind name with
    | .ok changed => changed
    | .error _ => scopes

def applyAll (scopes : ScopeStack) (changes : List ScopeChange) : ScopeStack :=
  changes.foldl apply scopes

/-- The scopes after all that was done to them from the beginning. -/
def ofHistory (history : List ScopeChange) : ScopeStack := initial.applyAll history

theorem applyAll_append (scopes : ScopeStack) (first second : List ScopeChange) :
    scopes.applyAll (first ++ second) = (scopes.applyAll first).applyAll second := by
  rw [applyAll, List.foldl_append]
  rfl

theorem ofHistory_append (history : List ScopeChange) (change : ScopeChange) :
    ofHistory (history ++ [change]) = (ofHistory history).apply change :=
  applyAll_append initial history [change]

theorem outer_apply {change : ScopeChange} (declares : change.declares = true) (scopes : ScopeStack) :
    (scopes.apply change).outer = scopes.outer := by
  cases change with
  | enter => cases declares
  | exit => cases declares
  | addTypedef name => rfl
  | addOrdinary name => rfl
  | addTag kind name =>
    cases declared : scopes.innermost.tags.lookup name with
    | none => simp [apply, addTag, declared]
    | some earlier => by_cases same : earlier = kind <;> simp [apply, addTag, declared, same]

end ScopeStack

/-! ## Balanced changes -/

/-- Every scope that is entered is left again, and no other one is. -/
inductive Balanced : List ScopeChange → Prop
  | nil : Balanced []
  | declaration {change : ScopeChange} {rest : List ScopeChange} (declares : change.declares = true)
      (balanced : Balanced rest) : Balanced (change :: rest)
  | nested {inside rest : List ScopeChange} (balancedInside : Balanced inside)
      (balanced : Balanced rest) : Balanced (.enter :: (inside ++ .exit :: rest))

theorem Balanced.outer_applyAll {changes : List ScopeChange} (balanced : Balanced changes)
    (scopes : ScopeStack) : (scopes.applyAll changes).outer = scopes.outer := by
  induction balanced generalizing scopes with
  | nil => rfl
  | @declaration change rest declares _ ih =>
    change ((scopes.apply change).applyAll rest).outer = _
    rw [ih, ScopeStack.outer_apply declares]
  | @nested inside rest _ _ ihInside ih =>
    have left : ((scopes.enter).applyAll inside).exit = scopes :=
      ScopeStack.exit_of_outer (ihInside scopes.enter)
    change ((scopes.enter).applyAll (inside ++ .exit :: rest)).outer = _
    rw [ScopeStack.applyAll_append]
    change ((((scopes.enter).applyAll inside).exit).applyAll rest).outer = _
    rw [left, ih]

theorem Balanced.applyAll_nested {inside : List ScopeChange} (balanced : Balanced inside)
    (scopes : ScopeStack) : scopes.applyAll (.enter :: (inside ++ [.exit])) = scopes := by
  change (scopes.enter).applyAll (inside ++ [.exit]) = scopes
  rw [ScopeStack.applyAll_append]
  exact ScopeStack.exit_of_outer (balanced.outer_applyAll scopes.enter)

/-! ## What a scope holds -/

variable {κ : Type} {history later : List ScopeChange} {wins : Nat → Nat → Prop}
  {declare : κ → ScopeChange} {level : Nat} {told : Option κ} {kind : κ}

/-- What a scope tells of the declarations made in it. -/
def Tells (history : List ScopeChange) (wins : Nat → Nat → Prop) (declare : κ → ScopeChange)
    (level : Nat) : Option κ → Prop
  | none => ∀ index kind, ¬ Survives history level index (declare kind)
  | some kind => CountsAt history wins declare level kind

namespace Tells

theorem congr (tells : Tells history wins declare level told)
    (same : ∀ index kind, Survives later level index (declare kind) ↔
      Survives history level index (declare kind)) :
    Tells later wins declare level told := by
  cases told with
  | none =>
    intro index kind survives
    exact tells index kind ((same index kind).mp survives)
  | some kind =>
    obtain ⟨index, survives, best⟩ := tells
    refine ⟨index, (same index kind).mpr survives, ?_⟩
    intro other otherKind otherSurvives
    exact best other otherKind ((same other otherKind).mp otherSurvives)

/-- Nothing is told of a scope that is entered only now. -/
theorem entered (declares : ∀ kind, (declare kind).declares = true) :
    Tells (history ++ [.enter]) wins declare (depth history + 1) none := by
  intro index kind survives
  have bound := ((Survives.append_enter (declares kind)).mp survives).level_le
  omega

theorem other {change : ScopeChange} (tells : Tells history wins declare level told)
    (declares : change.declares = true) (apart : ∀ kind, declare kind ≠ change) :
    Tells (history ++ [change]) wins declare level told := by
  refine tells.congr fun index kind => ?_
  rw [Survives.append_declaration declares]
  constructor
  · rintro (survives | ⟨-, isLast, -⟩)
    · exact survives
    · exact absurd isLast (apart kind)
  · exact .inl

/-- Where the latest one wins, it is a new declaration. -/
theorem latest (declares : (declare kind).declares = true) :
    Tells (history ++ [declare kind]) (fun index other => other ≤ index) declare (depth history)
      (some kind) := by
  refine ⟨history.length, (Survives.append_declaration declares).mpr (.inr ⟨rfl, rfl, rfl⟩), ?_⟩
  intro other otherKind survives
  have bound := survives.index_lt
  rw [List.length_append, List.length_singleton] at bound
  omega

/-- Where the first one wins, a new declaration counts only if it is the first. -/
theorem first (declares : (declare kind).declares = true)
    (tells : Tells history (fun index other => index ≤ other) declare (depth history) told) :
    Tells (history ++ [declare kind]) (fun index other => index ≤ other) declare (depth history)
      (some (told.getD kind)) := by
  cases told with
  | none =>
    refine ⟨history.length, (Survives.append_declaration declares).mpr (.inr ⟨rfl, rfl, rfl⟩), ?_⟩
    intro other otherKind survives
    rcases (Survives.append_declaration declares).mp survives with earlier | ⟨place, -⟩
    · exact absurd earlier (tells other otherKind)
    · exact Nat.le_of_eq place.symm
  | some earlierKind =>
    obtain ⟨index, counted, best⟩ := tells
    refine ⟨index, (Survives.append_declaration declares).mpr (.inl counted), ?_⟩
    intro other otherKind survives
    rcases (Survives.append_declaration declares).mp survives with earlier | ⟨place, -⟩
    · exact best other otherKind earlier
    · have before := counted.index_lt
      omega

end Tells

/-- The scope holds what the declarations of its level come to: of a name the latest, of a tag the
first. -/
structure DescribesScope (history : List ScopeChange) (level : Nat) (scope : Scope) : Prop where
  names : ∀ name, Tells history (fun index other => other ≤ index) (addName name) level
    (scope.names.lookup name)
  tags : ∀ name, Tells history (fun index other => index ≤ other) (addTagged name) level
    (scope.tags.lookup name)

theorem DescribesScope.congr {scope : Scope} (describes : DescribesScope history level scope)
    (same : ∀ index change, change.declares = true →
      (Survives later level index change ↔ Survives history level index change)) :
    DescribesScope later level scope := by
  constructor
  · intro name
    exact (describes.names name).congr fun index kind => same index _ (declares_addName name kind)
  · intro name
    exact (describes.tags name).congr fun index kind => same index _ rfl

/-- Each of the scopes, innermost first, is described by the history. -/
inductive DescribesScopes (history : List ScopeChange) : List Scope → Prop
  | nil : DescribesScopes history []
  | cons {scope : Scope} {outer : List Scope} (innermost : DescribesScope history outer.length scope)
      (rest : DescribesScopes history outer) : DescribesScopes history (scope :: outer)

theorem DescribesScopes.congr {scopes : List Scope} (described : DescribesScopes history scopes)
    (same : ∀ level index change, level < scopes.length → change.declares = true →
      (Survives later level index change ↔ Survives history level index change)) :
    DescribesScopes later scopes := by
  induction described with
  | nil => exact .nil
  | @cons scope outer innermost _ ih =>
    apply DescribesScopes.cons
    · exact innermost.congr fun index change => same _ index change (Nat.lt_succ_self _)
    · refine ih fun level index change inside => same level index change ?_
      exact Nat.lt_succ_of_lt inside

/-! ## One more change -/

/-- The stack has one scope for each level of the history, and each holds what it should. -/
structure Refines (history : List ScopeChange) (scopes : ScopeStack) : Prop where
  levels : scopes.outer.length = depth history
  described : DescribesScopes history scopes.toList

namespace Refines

variable {scopes : ScopeStack}

theorem innermost (refines : Refines history scopes) :
    DescribesScope history (depth history) scopes.innermost := by
  have described := refines.described
  cases described with
  | cons innermost _ => rwa [← refines.levels]

theorem outer (refines : Refines history scopes) : DescribesScopes history scopes.outer := by
  have described := refines.described
  cases described with
  | cons _ rest => exact rest

theorem initial : Refines [] ScopeStack.initial := by
  constructor
  · rfl
  · refine .cons ?_ .nil
    constructor
    · intro name index kind survives
      exact absurd survives.index_lt (Nat.not_lt_zero _)
    · intro name index kind survives
      exact absurd survives.index_lt (Nat.not_lt_zero _)

theorem enter (refines : Refines history scopes) :
    Refines (history ++ [.enter]) scopes.enter := by
  have levels : scopes.toList.length = depth history + 1 := by
    rw [← refines.levels]
    rfl
  constructor
  · rw [depth_append_enter, ← levels]
    rfl
  · refine .cons ?_ (refines.described.congr fun _ _ _ _ => Survives.append_enter)
    change DescribesScope _ scopes.toList.length {}
    rw [levels]
    constructor
    · intro name
      exact Tells.entered (declares_addName name)
    · intro name
      exact Tells.entered fun _ => rfl

theorem exit (refines : Refines history scopes) : Refines (history ++ [.exit]) scopes.exit := by
  have levels := refines.levels
  have outer := refines.outer
  -- Leaving the file scope leaves everything as it is; else the innermost scope is gone.
  cases rest : scopes.outer with
  | nil =>
    rw [rest, List.length_nil] at levels
    have same : scopes.exit = scopes := by simp [ScopeStack.exit, rest]
    rw [same]
    constructor
    · rw [depth_append_exit, rest, ← levels]
      rfl
    · refine refines.described.congr fun level index change _ declares => ?_
      rw [Survives.append_exit declares]
      refine ⟨And.left, fun survives => ⟨survives, ?_⟩⟩
      have bound := survives.level_le
      omega
  | cons scope further =>
    rw [rest, List.length_cons] at levels
    rw [rest] at outer
    have left : scopes.exit = ⟨scope, further⟩ := by simp [ScopeStack.exit, rest]
    rw [left]
    constructor
    · rw [depth_append_exit, ← levels]
      rfl
    · refine outer.congr fun level index change inside declares => ?_
      rw [List.length_cons] at inside
      rw [Survives.append_exit declares]
      refine ⟨And.left, fun survives => ⟨survives, ?_⟩⟩
      omega

/-- A declaration changes the innermost scope only. -/
theorem declaration {change : ScopeChange} {changed : Scope} (refines : Refines history scopes)
    (declares : change.declares = true)
    (describes : DescribesScope (history ++ [change]) (depth history) changed) :
    Refines (history ++ [change]) ⟨changed, scopes.outer⟩ := by
  have levels := refines.levels
  constructor
  · rw [depth_append_declaration declares]
    exact levels
  · refine .cons ?_ (refines.outer.congr fun level index other inside _ => ?_)
    · rwa [levels]
    · rw [Survives.append_declaration declares]
      constructor
      · rintro (survives | ⟨-, -, here⟩)
        · exact survives
        · omega
      · exact .inl

theorem bind (refines : Refines history scopes) (name : String) (kind : NameKind) :
    Refines (history ++ [addName name kind]) (scopes.bind name kind) := by
  have declares := declares_addName name kind
  refine refines.declaration declares ?_
  constructor
  · intro other
    by_cases same : other = name
    · subst same
      rw [List.lookup_cons_self]
      exact Tells.latest declares
    · rw [List.lookup_cons, beq_false_of_ne same]
      refine (refines.innermost.names other).other declares fun otherKind isLast => ?_
      exact same (addName_injective isLast).1
  · intro other
    refine (refines.innermost.tags other).other declares fun otherKind isLast => ?_
    cases kind <;> cases isLast

/-- The tag is of the kind that it had, or else of the new one; nothing else changes. -/
theorem describes_tag {kind : TagKind} {name : String} {changed : Scope}
    (refines : Refines history scopes) (names : changed.names = scopes.innermost.names)
    (others : ∀ other, other ≠ name →
      changed.tags.lookup other = scopes.innermost.tags.lookup other)
    (here : changed.tags.lookup name = some ((scopes.innermost.tags.lookup name).getD kind)) :
    DescribesScope (history ++ [addTagged name kind]) (depth history) changed := by
  have declares : (addTagged name kind).declares = true := rfl
  constructor
  · intro other
    rw [names]
    refine (refines.innermost.names other).other declares fun otherKind isLast => ?_
    cases otherKind <;> cases isLast
  · intro other
    by_cases same : other = name
    · subst same
      rw [here]
      exact (refines.innermost.tags other).first declares
    · rw [others other same]
      refine (refines.innermost.tags other).other declares fun otherKind isLast => ?_
      cases isLast
      exact same rfl

theorem addTag (refines : Refines history scopes) (kind : TagKind) (name : String) :
    Refines (history ++ [.addTag kind name]) (scopes.apply (.addTag kind name)) := by
  have declares : (addTagged name kind).declares = true := rfl
  cases declared : scopes.innermost.tags.lookup name with
  | none =>
    have applied : scopes.apply (.addTag kind name) =
        ⟨{ scopes.innermost with tags := (name, kind) :: scopes.innermost.tags }, scopes.outer⟩ := by
      simp [ScopeStack.apply, ScopeStack.addTag, declared]
    rw [applied]
    refine refines.declaration declares (refines.describes_tag rfl ?_ ?_)
    · intro other differs
      rw [List.lookup_cons, beq_false_of_ne differs]
    · rw [List.lookup_cons_self, declared]
      rfl
  | some earlier =>
    have applied : scopes.apply (.addTag kind name) = scopes := by
      by_cases same : earlier = kind <;>
        simp [ScopeStack.apply, ScopeStack.addTag, declared, same]
    rw [applied]
    refine refines.declaration declares (refines.describes_tag rfl (fun _ _ => rfl) ?_)
    simp [declared]

theorem apply (refines : Refines history scopes) (change : ScopeChange) :
    Refines (history ++ [change]) (scopes.apply change) := by
  cases change with
  | enter => exact refines.enter
  | exit => exact refines.exit
  | addTypedef name => exact refines.bind name .typedefName
  | addOrdinary name => exact refines.bind name .ordinary
  | addTag kind name => exact refines.addTag kind name

end Refines

theorem refines_ofHistory (history : List ScopeChange) :
    Refines history (ScopeStack.ofHistory history) := by
  induction history using List.reverseRecOn with
  | nil => exact .initial
  | append_singleton history change ih =>
    rw [ScopeStack.ofHistory_append]
    exact ih.apply change

/-! ## Answers -/

/-- What a search through the scopes tells of the declarations in so many levels. -/
def TellsWithin (history : List ScopeChange) (wins : Nat → Nat → Prop) (declare : κ → ScopeChange)
    (levels : Nat) : Option κ → Prop
  | none => ∀ level index kind, level < levels → ¬ Survives history level index (declare kind)
  | some kind => ∃ level, CountsAt history wins declare level kind ∧
      ∀ inner index otherKind, inner < levels →
        Survives history inner index (declare otherKind) → inner ≤ level

variable {look : Scope → Option κ}

theorem DescribesScopes.tellsWithin {scopes : List Scope} (described : DescribesScopes history scopes)
    (tells : ∀ level scope, DescribesScope history level scope →
      Tells history wins declare level (look scope)) :
    TellsWithin history wins declare scopes.length (scopes.findSome? look) := by
  -- A scope that tells nothing leaves the answer to those around it.
  induction described with
  | nil =>
    intro level index kind inside
    exact absurd inside (Nat.not_lt_zero _)
  | @cons scope outer innermost _ ih =>
    have here := tells _ scope innermost
    rw [List.findSome?_cons, List.length_cons]
    cases told : look scope with
    | some kind =>
      rw [told] at here
      refine ⟨outer.length, here, ?_⟩
      intro inner index otherKind inside _
      omega
    | none =>
      rw [told] at here
      dsimp only
      cases outside : outer.findSome? look with
      | none =>
        rw [outside] at ih
        intro level index kind inside
        by_cases same : level = outer.length
        · rw [same]
          exact here index kind
        · exact ih level index kind (by omega)
      | some kind =>
        rw [outside] at ih
        obtain ⟨level, counts, innermost⟩ := ih
        refine ⟨level, counts, ?_⟩
        intro inner index otherKind inside survives
        by_cases same : inner = outer.length
        · rw [same] at survives
          exact absurd survives (here index otherKind)
        · exact innermost inner index otherKind (by omega) survives

theorem Refines.findSome?_iff {scopes : ScopeStack} (refines : Refines history scopes)
    (tells : ∀ level scope, DescribesScope history level scope →
      Tells history wins declare level (look scope))
    (antisymm : ∀ first second, wins first second → wins second first → first = second)
    (injective : ∀ first second, declare first = declare second → first = second) :
    scopes.toList.findSome? look = some kind ↔ Counts history wins declare kind := by
  have within := refines.described.tellsWithin tells
  have levels : scopes.toList.length = depth history + 1 := congrArg (· + 1) refines.levels
  have counts : ∀ other, scopes.toList.findSome? look = some other →
      Counts history wins declare other := by
    intro other found
    rw [found] at within
    obtain ⟨level, counts, innermost⟩ := within
    refine ⟨level, counts, ?_⟩
    intro inner index otherKind survives
    have bound := survives.level_le
    exact innermost inner index otherKind (by omega) survives
  constructor
  · exact counts kind
  · intro expected
    cases found : scopes.toList.findSome? look with
    | none =>
      rw [found] at within
      obtain ⟨level, ⟨index, survives, -⟩, -⟩ := expected
      have bound := survives.level_le
      exact absurd survives (within level index kind (by omega))
    | some other => rw [(counts other found).unique antisymm injective expected]

theorem Refines.isTypedefName_iff {scopes : ScopeStack} (refines : Refines history scopes)
    (name : String) :
    scopes.isTypedefName name = true ↔ NameCounts history name .typedefName := by
  rw [ScopeStack.isTypedefName, beq_iff_eq]
  apply refines.findSome?_iff
  · exact fun level scope describes => describes.names name
  · intro first second below above
    exact Nat.le_antisymm above below
  · exact fun first second same => (addName_injective same).2

theorem Refines.lookupTag?_iff {scopes : ScopeStack} (refines : Refines history scopes)
    (name : String) (kind : TagKind) :
    scopes.lookupTag? name = some kind ↔ TagCounts history name kind := by
  apply refines.findSome?_iff
  · exact fun level scope describes => describes.tags name
  · exact fun first second => Nat.le_antisymm
  · intro first second same
    cases same
    rfl

theorem Refines.addTag_error_iff {scopes : ScopeStack} (refines : Refines history scopes)
    (name : String) (kind earlier : TagKind) :
    scopes.addTag kind name = .error earlier ↔
      TagCountsAt history name (depth history) earlier ∧ earlier ≠ kind := by
  have here := refines.innermost.tags name
  cases declared : scopes.innermost.tags.lookup name with
  | none =>
    rw [declared] at here
    simp only [ScopeStack.addTag, declared]
    constructor
    · intro same
      cases same
    · rintro ⟨⟨index, survives, -⟩, -⟩
      exact absurd survives (here index earlier)
  | some other =>
    rw [declared] at here
    simp only [ScopeStack.addTag, declared]
    constructor
    · intro same
      split at same
      · cases same
      · rename_i differs
        cases same
        exact ⟨here, differs⟩
    · rintro ⟨counts, differs⟩
      -- Only one kind counts for a name in a scope.
      obtain rfl : other = earlier := by
        refine CountsAt.unique (fun _ _ => Nat.le_antisymm) (fun _ _ same => ?_) here counts
        cases same
        rfl
      rw [if_neg differs]

/-- Whatever was done to the scopes, a name is a typedef name if that is what its latest surviving
declaration in the innermost scope with one says, and a tag is of the kind of the first one there. A tag
is refused exactly if it has another kind in the current scope, which then stays what it is, and what
is done in a scope of its own leaves nothing behind. -/
theorem scopes_refine_history (history : List ScopeChange) :
    (∀ name, (ScopeStack.ofHistory history).isTypedefName name = true ↔
      NameCounts history name .typedefName) ∧
    (∀ name kind, (ScopeStack.ofHistory history).lookupTag? name = some kind ↔
      TagCounts history name kind) ∧
    (∀ name kind earlier, (ScopeStack.ofHistory history).addTag kind name = .error earlier ↔
      TagCountsAt history name (depth history) earlier ∧ earlier ≠ kind) ∧
    (∀ name kind earlier, (ScopeStack.ofHistory history).addTag kind name = .error earlier →
      ScopeStack.ofHistory (history ++ [.addTag kind name]) = ScopeStack.ofHistory history) ∧
    ∀ inside, Balanced inside →
      ScopeStack.ofHistory (history ++ .enter :: (inside ++ [.exit])) =
        ScopeStack.ofHistory history := by
  have refines := refines_ofHistory history
  refine ⟨refines.isTypedefName_iff, refines.lookupTag?_iff, refines.addTag_error_iff, ?_, ?_⟩
  · intro name kind earlier refused
    rw [ScopeStack.ofHistory_append]
    simp [ScopeStack.apply, refused]
  · intro inside balanced
    rw [ScopeStack.ofHistory, ScopeStack.applyAll_append]
    exact balanced.applyAll_nested _

end CFrontEnd
