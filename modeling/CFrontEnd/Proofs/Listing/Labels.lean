import CFrontEnd.Grammar.TypeWords
import CFrontEnd.Proofs.Text.Numerals
import CFrontEnd.Tree.Listing
import CFrontEnd.Tree.Walk
import Mathlib.Data.List.Basic

/-!
The outline of a tree: every node once, in the order of the worklist, and one level deeper than the node
that it is a child of. What stands in a listing beside names and texts for the assembler is written in one
line, whatever is in the literals.
-/

namespace CFrontEnd

/-! ## The outline -/

namespace Node

mutual

/-- The nodes of a tree with their depths. -/
def levels (depth : Nat) : Node → List (Node × Nat)
  | ⟨kind, location, payload, children⟩ =>
    (⟨kind, location, payload, children⟩, depth) :: levelsBelow (depth + 1) children

/-- The same for the children of one node. -/
def levelsBelow (depth : Nat) : List Node → List (Node × Nat)
  | [] => []
  | node :: rest => levels depth node ++ levelsBelow depth rest

end

theorem levels_eq (depth : Nat) (node : Node) :
    node.levels depth = (node, depth) :: levelsBelow (depth + 1) node.children := by
  cases node
  rw [levels]

/-- What is entered on a walk. -/
def entered : Visit → Option (Node × Nat)
  | .enter node depth => some (node, depth)
  | .leave _ _ => none

mutual

theorem entered_walkFrom (depth : Nat) (after : List Visit) : ∀ node : Node,
    (walkFrom (fun _ _ => true) depth after node).filterMap entered =
      node.levels depth ++ after.filterMap entered
  | ⟨kind, location, payload, children⟩ => by
    have leaving (node : Node) : (Visit.leave node depth :: after).filterMap entered =
        after.filterMap entered := rfl
    rw [walkFrom, if_pos rfl, levels, List.cons_append, ← leaving, ← entered_walkAll]
    rfl

theorem entered_walkAll (depth : Nat) (after : List Visit) : ∀ nodes : List Node,
    (walkAll (fun _ _ => true) depth after nodes).filterMap entered =
      levelsBelow depth nodes ++ after.filterMap entered
  | [] => by simp [walkAll, levelsBelow]
  | node :: rest => by
    rw [walkAll, levelsBelow, entered_walkFrom, entered_walkAll, List.append_assoc]

end

theorem outline_eq (node : Node) : node.outline = node.levels 0 := by
  have whole := entered_walkFrom 0 [] node
  rw [List.filterMap_nil, List.append_nil] at whole
  rw [← whole]
  rfl

mutual

theorem length_levels (depth : Nat) : ∀ node : Node, (node.levels depth).length = node.size
  | ⟨kind, location, payload, children⟩ => by
    rw [levels, size, List.length_cons, length_levelsBelow, Nat.add_comm]

theorem length_levelsBelow (depth : Nat) : ∀ nodes : List Node,
    (levelsBelow depth nodes).length = sizes nodes
  | [] => by simp [levelsBelow, sizes]
  | node :: rest => by
    rw [levelsBelow, sizes, List.length_append, length_levels, length_levelsBelow]

end

mutual

theorem map_fst_levels (depth other : Nat) : ∀ node : Node,
    (node.levels depth).map Prod.fst = (node.levels other).map Prod.fst
  | ⟨kind, location, payload, children⟩ => by
    simp only [levels, List.map_cons, map_fst_levelsBelow (depth + 1) (other + 1) children]

theorem map_fst_levelsBelow (depth other : Nat) : ∀ nodes : List Node,
    (levelsBelow depth nodes).map Prod.fst = (levelsBelow other nodes).map Prod.fst
  | [] => by simp only [levelsBelow]
  | node :: rest => by
    simp only [levelsBelow, List.map_append, map_fst_levels depth other node,
      map_fst_levelsBelow depth other rest]

end

theorem levelsBelow_append (depth : Nat) (first second : List Node) :
    levelsBelow depth (first ++ second) = levelsBelow depth first ++ levelsBelow depth second := by
  induction first with
  | nil => simp [levelsBelow]
  | cons node rest ih => simp [levelsBelow, ih]

theorem preorder_eq (pending : List Node) :
    preorder pending = (levelsBelow 0 pending).map Prod.fst := by
  -- A node on the worklist gives way to its children.
  induction pending using preorder.induct with
  | case1 => simp [preorder, levelsBelow]
  | case2 node pending ih =>
    have children := map_fst_levelsBelow 0 1 node.children
    rw [preorder, ih, levelsBelow_append, List.map_append, children, levelsBelow, levels_eq]
    simp

theorem descendants_eq (node : Node) : node.descendants = (node.levels 0).map Prod.fst := by
  rw [descendants, preorder_eq]
  simp [levelsBelow]

theorem mem_descendants_of_mem_levels {node : Node} {item : Node × Nat}
    (inLevels : item ∈ node.levels 0) : item.1 ∈ node.descendants := by
  rw [descendants_eq]
  exact List.mem_map_of_mem inLevels

end Node

/-- No line ends in the text. -/
def IsOneLine (text : String) : Prop := '\n' ∉ text.toList

instance (text : String) : Decidable (IsOneLine text) :=
  inferInstanceAs (Decidable ('\n' ∉ text.toList))

namespace IsOneLine

variable {first second : String} {texts : List String} {characters : List Char}

theorem append (isFirst : IsOneLine first) (isSecond : IsOneLine second) :
    IsOneLine (first ++ second) := by
  rw [IsOneLine, String.toList_append, List.mem_append]
  exact not_or.mpr ⟨isFirst, isSecond⟩

theorem join (all : ∀ text ∈ texts, IsOneLine text) : IsOneLine (String.join texts) := by
  induction texts with
  | nil => exact List.not_mem_nil
  | cons text rest ih =>
    obtain ⟨isText, areRest⟩ := List.forall_mem_cons.mp all
    rw [String.join_cons]
    exact isText.append (ih areRest)

theorem of_join (whole : IsOneLine (String.join texts)) : ∀ text ∈ texts, IsOneLine text := by
  induction texts with
  | nil => exact nofun
  | cons text rest ih =>
    rw [IsOneLine, String.join_cons, String.toList_append, List.mem_append, not_or] at whole
    exact List.forall_mem_cons.mpr ⟨whole.1, ih whole.2⟩

theorem ofList (inLine : '\n' ∉ characters) : IsOneLine (String.ofList characters) := by
  rwa [IsOneLine, String.toList_ofList]

end IsOneLine

/-! ## Fixed words -/

theorem NodeKind.isOneLine_name (kind : NodeKind) : IsOneLine kind.name := by
  unfold name
  split <;> decide

theorem StorageClass.isOneLine_spelling (storage : StorageClass) : IsOneLine storage.spelling := by
  cases storage <;> decide

theorem Qualifiers.isOneLine_text (qualifiers : Qualifiers) : IsOneLine qualifiers.text := by
  obtain ⟨isConst, isVolatile, isRestrict, isAtomic⟩ := qualifiers
  cases isConst <;> cases isVolatile <;> cases isRestrict <;> cases isAtomic <;> decide

theorem Node.isOneLine_operatorSpelling {node : Node} {spelling : String}
    (isOperator : node.operatorSpelling? = some spelling) : IsOneLine spelling := by
  unfold operatorSpelling? at isOperator
  split at isOperator
  · rename_i operator _
    obtain rfl := Option.some.inj isOperator
    cases operator <;> decide
  · rename_i operator _
    obtain rfl := Option.some.inj isOperator
    cases operator <;> decide
  · rename_i operator _
    obtain rfl := Option.some.inj isOperator
    cases operator <;> decide
  · cases isOperator

theorem Keyword.isOneLine_spelling (word : Keyword) : IsOneLine word.spelling := by
  cases word <;> decide

namespace TypeRefinement

variable {refinement : TypeRefinement} {name : String}

theorem isOneLine_integerName (isName : IsOneLine name) :
    IsOneLine (refinement.integerName name) := by
  unfold integerName
  split
  · exact .append (by decide) isName
  · exact isName

theorem isOneLine_complexName (isName : IsOneLine name) :
    IsOneLine (refinement.complexName name) := by
  unfold complexName
  split
  · exact isName.append (by decide)
  · exact isName

theorem isOneLine_sortlessName (isName : refinement.sortlessName? = some name) : IsOneLine name := by
  unfold sortlessName? at isName
  split at isName
  · split at isName <;> cases isName
    decide
  · split at isName
    · split at isName <;> cases isName
      exact isOneLine_integerName (by decide)
    · split at isName <;> cases isName <;> exact isOneLine_integerName (by decide)

theorem isOneLine_nameOfSort {sort : Keyword} (isName : refinement.nameOfSort? sort = some name) :
    IsOneLine name := by
  unfold nameOfSort? at isName
  split at isName
  · split at isName <;> cases isName
    exact Keyword.isOneLine_spelling _
  · split at isName <;> cases isName
    exact Keyword.isOneLine_spelling _
  · split at isName
    · cases isName
    · split at isName <;> cases isName
      · decide
      · exact isOneLine_integerName (by decide)
  · split at isName <;> cases isName
    exact isOneLine_integerName (by decide)
  · split at isName
    · cases isName
    · split at isName <;> cases isName <;> exact isOneLine_complexName (by decide)
  · split at isName <;> cases isName
    exact isOneLine_complexName (Keyword.isOneLine_spelling _)

end TypeRefinement

theorem isOneLine_builtinTypeName {words : List Keyword} {name : String}
    (isName : builtinTypeName? words = some name) : IsOneLine name := by
  simp only [builtinTypeName?] at isName
  split at isName
  · cases isName
  · split at isName
    · exact TypeRefinement.isOneLine_sortlessName isName
    · exact TypeRefinement.isOneLine_nameOfSort isName
    · cases isName

/-! ## Literals -/

theorem isOneLine_number (value : Nat) : IsOneLine (toString value) := by
  have digits : (toString value).toList = Nat.toDigits 10 value := by simp
  rw [IsOneLine, digits]
  intro inDigits
  exact absurd (Nat.isDigit_of_mem_toDigits (by decide) (by decide) inDigits) (by decide)

namespace Decimal

/-- The line feed is no digit. -/
theorem notMem_places (decimal : Decimal) :
    '\n' ∉ decimal.places.1 ∧ '\n' ∉ decimal.places.2 := by
  have notDigit : '\n' ∉ decimal.digits := by
    intro inDigits
    exact absurd (Nat.isDigit_of_mem_toDigits (by decide) (by decide) inDigits) (by decide)
  have notZero (count : Nat) : '\n' ∉ zeros count :=
    fun inZeros => absurd (List.eq_of_mem_replicate inZeros) (by decide)
  unfold places
  split
  · exact ⟨List.not_mem_append notDigit (notZero _), List.not_mem_nil⟩
  · have notPadded (count : Nat) : '\n' ∉ zeros count ++ decimal.digits :=
      List.not_mem_append (notZero _) notDigit
    exact ⟨fun taken => notPadded _ (List.mem_of_mem_take taken),
      fun dropped => notPadded _ (List.mem_of_mem_drop dropped)⟩

theorem isOneLine_positional (decimal : Decimal) : IsOneLine decimal.positional := by
  obtain ⟨notWhole, notFraction⟩ := decimal.notMem_places
  have notPoint : '\n' ≠ '.' := by decide
  change IsOneLine (withPoint decimal.places.1 decimal.places.2)
  refine .ofList ?_
  split
  · exact notWhole
  · exact List.not_mem_append notWhole (List.not_mem_cons_of_ne_of_not_mem notPoint notFraction)

end Decimal

theorem isOneLine_positionalText (value : Float) : IsOneLine (positionalText value) := by
  have sign (isNegative : Bool) : IsOneLine (if isNegative then "-" else "") := by
    cases isNegative <;> decide
  simp only [positionalText, doubleText]
  split
  · decide
  · exact (sign _).append (by decide)
  · exact (sign _).append (Decimal.isOneLine_positional _)
  · exact (sign _).append (Decimal.isOneLine_positional _)

theorem IsOneLine.singleton {character : Char} (notFeed : character ≠ '\n') :
    IsOneLine (String.singleton character) := by
  simpa [IsOneLine] using notFeed.symm

theorem isOneLine_hexDigits (value : Nat) : IsOneLine (hexDigits value) :=
  .ofList fun inDigits => absurd (isHexDigit_of_mem_toDigits inDigits) (by decide)

theorem isOneLine_escapeCharacter (character : Char) : IsOneLine (escapeCharacter character) := by
  unfold escapeCharacter
  split
  case h_7 other _ _ notFeed _ _ _ =>
    split
    · exact .singleton notFeed
    · exact .append (.append (by decide) (isOneLine_hexDigits _)) (by decide)
  all_goals decide

theorem isOneLine_escapeText (text : String) : IsOneLine (escapeText text) := by
  refine .join fun escaped inEscaped => ?_
  obtain ⟨character, _, rfl⟩ := List.mem_map.mp inEscaped
  exact isOneLine_escapeCharacter character

theorem isOneLine_characterLabel (value : Nat) (encoding : Encoding) :
    IsOneLine (characterLabel value encoding) := by
  unfold characterLabel
  split
  · rename_i character _
    split
    · rename_i isShown
      refine .singleton ?_
      rintro rfl
      have isControl : isControl '\n' = true := by decide
      simp [isControl] at isShown
    · exact isOneLine_number value
  · exact isOneLine_number value

theorem Literal.isOneLine_label (literal : Literal) : IsOneLine literal.label := by
  cases literal with
  | integer value _ => exact isOneLine_number value
  | floating value _ => exact isOneLine_positionalText value
  | character value encoding => exact isOneLine_characterLabel value encoding
  | string units encoding => exact isOneLine_escapeText _

end CFrontEnd
