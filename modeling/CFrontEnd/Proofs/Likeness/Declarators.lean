import CFrontEnd.Grammar.Rules.Declarators
import CFrontEnd.Proofs.Likeness.Specifiers

/-!
Declarators of texts that are alike: the same steps lead to the name on both sides.
-/

namespace CFrontEnd

open Parse Productions

variable {twins : Twins} {deeper : Productions} {form : DeclaratorForm}

/-! ## Pointers -/

theorem agree_pointerQualifiers : Agree twins Eq pointerQualifiers pointerQualifiers := by
  refine agree_iterateSame fun qualifiers => agree_bind agree_peek ?_
  rintro _ _ ⟨_, _⟩
  dsimp only
  split
  · exact agree_then agree_skipAttributes fun _ => agree_pure rfl
  · split
    · exact agree_then agree_discard_advance fun _ => agree_pure rfl
    · exact agree_pure rfl
  · exact agree_pure rfl

theorem agree_pointers :
    Agree twins (List.Forall₂ (TypeDerivation.Alike twins.like)) pointers pointers := by
  refine agree_iterate .nil fun _ _ nearest => agree_bind agree_location fun _ _ placed => ?_
  refine agree_then agree_consume fun _ => agree_ite ?_ (agree_pure (.done nearest))
  exact agree_then agree_pointerQualifiers fun qualifiers =>
    agree_pure (.yield (.cons (.pointer qualifiers placed) nearest))

/-! ## Questions -/

theorem agree_atOldStyleParameters :
    Agree twins Eq atOldStyleParameters atOldStyleParameters := by
  refine agree_bind agree_peek ?_
  rintro _ _ ⟨_, _⟩
  refine agree_bind agree_peekAhead ?_
  rintro _ _ ⟨_, _⟩
  exact agree_ite (agree_then agree_isTypeName fun _ => agree_pure rfl) (agree_pure rfl)

theorem agree_enclosesDeclarator {next other : Token} (alike : next.Alike twins.like other) :
    Agree twins Eq (enclosesDeclarator form next) (enclosesDeclarator form other) := by
  obtain ⟨_, _⟩ := alike
  refine agree_ite (agree_pure rfl) ?_
  dsimp only
  split
  · exact agree_pure rfl
  · exact agree_pure rfl
  · exact agree_pure rfl
  · exact agree_pure rfl
  · exact agree_ite (agree_then agree_isTypeName fun _ => agree_pure rfl) (agree_pure rfl)
  · exact agree_pure rfl

theorem agree_atEnclosedDeclarator :
    Agree twins Eq (atEnclosedDeclarator form) (atEnclosedDeclarator form) :=
  agree_then agree_atPunctuator fun _ =>
    agree_ite (agree_bind agree_peekAhead fun _ _ => agree_enclosesDeclarator) (agree_pure rfl)

theorem agree_arrayWords : Agree twins Eq arrayWords arrayWords := by
  refine agree_iterateSame fun words => agree_bind agree_peek ?_
  rintro _ _ ⟨_, _⟩
  dsimp only
  split
  · exact agree_then agree_discard_advance fun _ => agree_pure rfl
  · split
    · exact agree_then agree_discard_advance fun _ => agree_pure rfl
    · exact agree_pure rfl
  · exact agree_pure rfl

theorem agree_atOpenLength : Agree twins Eq atOpenLength atOpenLength := by
  refine agree_then agree_atOperator fun _ => agree_ite (agree_bind agree_peekAhead ?_) (agree_pure rfl)
  rintro _ _ ⟨_, _⟩
  exact agree_pure rfl

theorem agree_expectClosingBracket : Agree twins Eq expectClosingBracket expectClosingBracket :=
  agree_expectPunctuator (by decide)

variable (inside : deeper.AgreeOn twins)

include inside

/-! ## Parameters -/

theorem agree_parameterDeclaration : ReadsAlike twins (parameterDeclaration deeper) := by
  refine agree_bind agree_location fun start otherStart started => ?_
  refine agree_bind (inside.specifiers true) fun _ _ specified => ?_
  have based := agree_baseType specified
  obtain ⟨_, _, _⟩ := specified
  refine agree_ite (agree_bind agree_peek ?_) (agree_when (agree_complain started rfl nofun) ?_)
  · rintro _ _ ⟨placed, _, written⟩
    have quoted := List.forall_mem_singleton.mpr written
    exact agree_ite (agree_giveUp placed rfl quoted) (agree_unexpected (by decide))
  · refine agree_bind based fun _ _ base => ?_
    refine agree_bind (inside.declarator .either) fun declarator other declared => ?_
    have type := declared.type base
    refine agree_then agree_skipAttributes fun _ => ?_
    have either : twins.like.places
        (if declarator.name.isSome = true then declarator.location else start)
        (if other.name.isSome = true then other.location else otherStart) := by
      rw [declared.name]
      split
      · exact declared.placed
      · exact started
    obtain ⟨_, _⟩ := declared
    dsimp only at either ⊢
    split
    · exact agree_then agree_addOrdinary fun _ =>
        agree_pure (.intro either (.same nofun) (Nodes.Alike.single type))
    · exact agree_pure (.intro either (.same nofun) (Nodes.Alike.single type))

theorem agree_parameters :
    Agree twins (ParameterList.Alike twins.like) (parameters deeper) (parameters deeper) := by
  refine agree_iterate (.intro .nil) ?_
  rintro _ _ ⟨nodes⟩
  refine agree_then agree_consumePunctuator fun _ => agree_ite (agree_pure (.done (.intro nodes))) ?_
  refine agree_bind (agree_parameterDeclaration inside) fun _ _ node => ?_
  have more := Nodes.Alike.push nodes node
  exact agree_then agree_consumePunctuator fun _ =>
    agree_ite (agree_pure (.yield (.intro more))) (agree_pure (.done (.intro more)))

theorem agree_parameterList :
    Agree twins (ParameterList.Alike twins.like) (parameterList deeper) (parameterList deeper) := by
  refine agree_then agree_consumePunctuator fun _ => agree_ite (agree_pure (.intro .nil)) ?_
  refine agree_bind agree_peek ?_
  rintro _ _ ⟨placed, _⟩
  refine agree_bind agree_peekAhead ?_
  rintro _ _ ⟨_, _⟩
  refine agree_ite ?_ (agree_then agree_atOldStyleParameters fun _ => agree_ite ?_ ?_)
  · exact agree_then agree_discard_advance fun _ => agree_then agree_discard_advance fun _ =>
      agree_pure (.intro .nil)
  · exact agree_giveUp placed rfl nofun
  · exact agree_bind (agree_parameters inside) fun _ _ list =>
      agree_then (agree_expectPunctuator (by decide)) fun _ => agree_pure list

theorem agree_functionDerivation :
    Agree twins (TypeDerivation.Alike twins.like) (functionDerivation deeper)
      (functionDerivation deeper) := by
  refine agree_bind agree_location fun _ _ placed => agree_then agree_discard_advance fun _ => ?_
  refine agree_bind (agree_inNewScope (agree_parameterList inside)) ?_
  rintro _ _ ⟨nodes⟩
  exact agree_pure (.function _ _ placed nodes)

theorem agree_arrayDerivation :
    Agree twins (TypeDerivation.Alike twins.like) (arrayDerivation deeper)
      (arrayDerivation deeper) := by
  refine agree_bind agree_location fun _ _ placed => agree_then agree_discard_advance fun _ => ?_
  refine agree_then agree_arrayWords fun _ => agree_then agree_atOpenLength fun _ => ?_
  refine agree_when agree_discard_advance (agree_then agree_atPunctuator fun _ => ?_)
  refine agree_unless inside.assignment fun _ _ sized => ?_
  exact agree_then agree_expectClosingBracket fun _ => agree_pure (.array _ _ _ placed sized)

/-! ## Declarators -/

theorem agree_addDerivation {declarator other : Declarator}
    (alike : declarator.Alike twins.like other) :
    Agree twins (StepsAlike (Declarator.Alike twins.like)) (addDerivation deeper declarator)
      (addDerivation deeper other) := by
  refine agree_bind agree_peek ?_
  rintro _ _ ⟨_, _⟩
  refine agree_then agree_atBrackets fun _ => agree_ite ?_ (agree_ite ?_ (agree_pure (.done alike)))
  · exact agree_bind (agree_arrayDerivation inside) fun _ _ derivation =>
      agree_pure (.yield (alike.append (.cons derivation .nil)))
  · exact agree_bind (agree_functionDerivation inside) fun _ _ derivation =>
      agree_pure (.yield (alike.append (.cons derivation .nil)))

theorem agree_declaratorCore :
    Agree twins (Declarator.Alike twins.like) (declaratorCore deeper form)
      (declaratorCore deeper form) := by
  refine agree_then agree_atEnclosedDeclarator fun _ => agree_ite ?_ (agree_bind agree_peek ?_)
  · refine agree_then agree_discard_advance fun _ => agree_then agree_skipAttributes fun _ => ?_
    exact agree_bind (inside.declarator form) fun _ _ inner =>
      agree_then agree_expectClosingParen fun _ => agree_pure inner
  · rintro _ _ ⟨placed, _⟩
    refine agree_ite (agree_then agree_discard_advance fun _ => agree_pure (.intro placed .nil)) ?_
    exact agree_ite (agree_unexpected (by decide)) (agree_pure (.intro placed .nil))

theorem agree_directDeclarator :
    Agree twins (Declarator.Alike twins.like) (directDeclarator deeper form)
      (directDeclarator deeper form) :=
  agree_bind (agree_declaratorCore inside) fun _ _ core =>
    agree_iterate core fun _ _ => agree_addDerivation inside

theorem agree_declaratorRule :
    Agree twins (Declarator.Alike twins.like) (declaratorRule deeper form)
      (declaratorRule deeper form) :=
  agree_bind agree_pointers fun _ _ pointers =>
    agree_bind (agree_directDeclarator inside) fun _ _ declared =>
      agree_pure (declared.append pointers)

end CFrontEnd
