import CFrontEnd.Grammar.Lookahead
import CFrontEnd.Grammar.StringLiteral
import CFrontEnd.Proofs.Likeness.Rules

/-!
Lookahead and recovery on texts that are alike. Both go by the kinds of tokens, so they lead to one
place on both sides.
-/

namespace CFrontEnd

open Parse

/-! ## Ways through the tokens -/

namespace TokenStream.Alike

variable {like : Likeness} {stream other : TokenStream}

/-- What goes forward through the tokens and asks for kinds only comes to one answer on both sides. Each
step may rely on all that begins further on. -/
theorem forward (tokens : stream.Alike like other) {motive : Nat → Prop}
    (ended : ∀ position, ¬ position < stream.body.size → ¬ position < other.body.size → motive position)
    (step : ∀ position (inside : position < stream.body.size)
      (otherInside : position < other.body.size),
      other.body[position].kind = stream.body[position].kind → motive (position + 1) →
      motive position) (position : Nat) : motive position := by
  induction left : stream.body.size - position generalizing position with
  | zero =>
    have outside : ¬ position < stream.body.size := by omega
    exact ended position outside (tokens.size ▸ outside)
  | succ left ih =>
    have inside : position < stream.body.size := by omega
    have otherInside : position < other.body.size := tokens.size ▸ inside
    exact step position inside otherInside (tokens.kind_getElem inside otherInside)
      (ih (position + 1) (by omega))

theorem afterBalanced (tokens : stream.Alike like other) (opener closer : Punctuator)
    (position : Nat) : ∀ depth, other.afterBalanced opener closer depth position =
      stream.afterBalanced opener closer depth position := by
  refine tokens.forward
    (motive := fun position => ∀ depth, other.afterBalanced opener closer depth position =
      stream.afterBalanced opener closer depth position)
    (fun position outside otherOutside depth => ?_)
    (fun position inside otherInside kind rest depth => ?_) position
  · rw [afterBalanced.eq_def other, afterBalanced.eq_def stream, dif_neg outside, dif_neg otherOutside]
  · rw [afterBalanced.eq_def other, afterBalanced.eq_def stream, dif_pos inside, dif_pos otherInside]
    simp only [Token.isEndOfFile, Token.isPunctuator, kind, rest]
    rfl

theorem afterExtensions (tokens : stream.Alike like other) (position : Nat) :
    other.afterExtensions position = stream.afterExtensions position := by
  refine tokens.forward
    (motive := fun position => other.afterExtensions position = stream.afterExtensions position)
    (fun position outside otherOutside => ?_)
    (fun position inside otherInside kind rest => ?_) position
  · rw [afterExtensions.eq_def other, afterExtensions.eq_def stream, dif_neg outside,
      dif_neg otherOutside]
  · rw [afterExtensions.eq_def other, afterExtensions.eq_def stream, dif_pos inside,
      dif_pos otherInside]
    simp only [Token.isKeyword, kind, rest]
    rfl

theorem resumption (tokens : stream.Alike like other) (start position : Nat) :
    ∀ braces, other.resumption start braces position = stream.resumption start braces position := by
  refine tokens.forward
    (motive := fun position => ∀ braces, other.resumption start braces position =
      stream.resumption start braces position)
    (fun position outside otherOutside braces => ?_)
    (fun position inside otherInside kind rest braces => ?_) position
  · rw [resumption.eq_def other, resumption.eq_def stream, dif_neg outside, dif_neg otherOutside]
  · rw [resumption.eq_def other, resumption.eq_def stream, dif_pos inside, dif_pos otherInside]
    simp only [kind, rest]

theorem isKeyword (tokens : stream.Alike like other) (position : Nat) (word : Keyword) :
    (other.get position).isKeyword word = (stream.get position).isKeyword word := by
  rw [Token.isKeyword, Token.isKeyword, (tokens.get position).kind]

theorem isPunctuator (tokens : stream.Alike like other) (position : Nat) (punctuator : Punctuator) :
    (other.get position).isPunctuator punctuator = (stream.get position).isPunctuator punctuator := by
  rw [Token.isPunctuator, Token.isPunctuator, (tokens.get position).kind]

theorem startsBrackets (tokens : stream.Alike like other) (position : Nat) :
    other.startsBrackets position = stream.startsBrackets position := by
  rw [TokenStream.startsBrackets, TokenStream.startsBrackets, tokens.isPunctuator,
    tokens.isPunctuator]

theorem afterAttributes (tokens : stream.Alike like other) (position : Nat) :
    other.afterAttributes position = stream.afterAttributes position := by
  -- On the tokens that are left: an attribute that is closed leaves fewer of them.
  induction left : stream.remaining position using Nat.strongRecOn generalizing position with
  | ind left ih =>
    subst left
    rw [afterAttributes.eq_def other, afterAttributes.eq_def stream]
    simp only [tokens.isKeyword, tokens.isPunctuator,
      tokens.startsBrackets, tokens.afterBalanced, tokens.remaining]
    split
    · rfl
    · split
      · rename_i further
        exact ih _ further.2 _ rfl
      · rfl

end TokenStream.Alike

/-! ## Lookahead -/

variable {twins : Twins} {token other : Token}

theorem agree_isTypeStart (alike : token.Alike twins.like other) :
    Agree twins Eq (isTypeStart token) (isTypeStart other) := by
  obtain ⟨_, _⟩ := alike
  unfold isTypeStart
  dsimp only
  split
  · exact agree_pure rfl
  · exact agree_isTypeName
  · exact agree_pure rfl

theorem agree_atParenthesizedType : Agree twins Eq atParenthesizedType atParenthesizedType :=
  agree_then agree_atPunctuator fun _ =>
    agree_ite (agree_bind agree_peekAhead fun _ _ => agree_isTypeStart) (agree_pure rfl)

theorem agree_startsDeclaration : Agree twins Eq startsDeclaration startsDeclaration := by
  rintro state _ ⟨recorded⟩
  have same (place : Nat) := twins.tokens.get place
  simp only [startsDeclaration, twins.tokens.afterExtensions, twins.tokens.afterAttributes,
    twins.language]
  have token := twins.tokens.get
    (twins.first.tokens.afterAttributes (twins.first.tokens.afterExtensions state.position))
  rw [twins.tokens.isPunctuator]
  generalize twins.first.tokens.get _ = current at token ⊢
  generalize twins.second.tokens.get _ = otherCurrent at token ⊢
  obtain ⟨_, _⟩ := token
  exact .ok rfl (.intro recorded)

theorem agree_atBrackets : Agree twins Eq atBrackets atBrackets :=
  agree_look TokenStream.startsBrackets fun position =>
    (twins.tokens.startsBrackets position).symm

/-- A step to a place that the kinds of tokens decide, with an answer that they decide as well. -/
theorem agree_leap {α : Type} (leap : TokenStream → Nat → Nat × α)
    (same : ∀ position, leap twins.second.tokens position = leap twins.first.tokens position) :
    Agree twins Eq
      (fun context state =>
        let (position, answer) := leap context.tokens state.position
        .ok answer { state with position := position })
      (fun context state =>
        let (position, answer) := leap context.tokens state.position
        .ok answer { state with position := position }) := by
  rintro state _ ⟨recorded⟩
  dsimp only
  rw [same]
  exact .ok rfl (.of (state.movedTo _) recorded)

theorem agree_skipBalanced {opener closer : Punctuator} {depth : Nat} :
    Agree twins Eq (skipBalanced opener closer depth) (skipBalanced opener closer depth) := by
  refine agree_then (agree_leap (fun tokens => tokens.afterBalanced opener closer depth) fun position => ?_) fun _ => ?_
  · exact twins.tokens.afterBalanced opener closer position depth
  · exact agree_ite (agree_unexpected (by decide)) (agree_pure rfl)

theorem agree_skipAttributes : Agree twins Eq skipAttributes skipAttributes := by
  refine agree_iterateSame fun _ => agree_then agree_consume fun _ => agree_ite ?_ ?_
  · exact agree_then (agree_expectPunctuator (by decide)) fun _ => agree_then agree_skipBalanced fun _ =>
      agree_pure rfl
  · refine agree_then agree_atBrackets fun _ => agree_ite ?_ (agree_pure rfl)
    exact agree_then agree_discard_advance fun _ => agree_then agree_discard_advance fun _ =>
      agree_then agree_skipBalanced fun _ => agree_pure rfl

theorem agree_skipExtensions : Agree twins Eq skipExtensions skipExtensions :=
  agree_iterateSame fun _ => agree_then agree_consume fun _ =>
    agree_ite (agree_pure rfl) (agree_pure rfl)

/-! ## Recovery -/

theorem agree_synchronize : Agree twins Eq synchronize synchronize := by
  rintro state _ ⟨recorded⟩
  unfold synchronize
  dsimp only
  rw [twins.tokens.resumption]
  exact .ok rfl (.of { state with position := _, panicking := false } recorded)

theorem agree_recoverFrom {start : Nat} : Agree twins Eq (recoverFrom start) (recoverFrom start) :=
  agree_then agree_synchronize fun _ => agree_then agree_position fun _ =>
    agree_ite agree_discard_advance (agree_pure rfl)

/-! ## Items -/

variable {item : Parse Node}

theorem agree_single (agree : Agree twins (Node.Alike twins.like) item item) :
    Agree twins (Items.Alike twins.like) (single item) (single item) :=
  agree_bind agree fun _ _ alike => agree_pure (.intro (Nodes.Alike.single alike))

theorem agree_thenFinish {items otherItems : Items} {finish : Parse Unit}
    (alike : items.Alike twins.like otherItems) (agree : Agree twins Eq finish finish) :
    Agree twins (Items.Alike twins.like) (thenFinish items finish) (thenFinish otherItems finish) := by
  obtain ⟨alike⟩ := alike
  refine agree_ite (agree_bind (agree_attempt agree) fun found otherFound finished => ?_)
    (agree_pure (.intro alike))
  cases finished with
  | none => exact agree_pure (.intro alike)
  | some _ => exact agree_pure (.intro alike)

theorem agree_separatedItems {otherItem : Parse Node}
    (agree : Agree twins (Node.Alike twins.like) item otherItem) :
    Agree twins (Items.Alike twins.like) (separatedItems item) (separatedItems otherItem) := by
  refine agree_iterate (.intro .nil) ?_
  rintro _ _ ⟨alike⟩
  refine agree_bind (agree_attempt agree) fun found otherFound founds => ?_
  cases founds with
  | none => exact agree_pure (.done (.intro alike))
  | some node =>
    have more := Nodes.Alike.push alike node
    exact agree_then agree_consumePunctuator fun _ =>
      agree_ite (agree_pure (.yield (.intro more))) (agree_pure (.done (.intro more)))

theorem agree_recoveringItems (stops : TokenKind → Bool) {items : Parse Items}
    (agree : Agree twins (Items.Alike twins.like) items items) :
    Agree twins (Nodes.Alike twins.like) (recoveringItems (fun token => stops token.kind) items)
      (recoveringItems (fun token => stops token.kind) items) := by
  refine agree_iterate .nil fun nodes others alike => agree_bind agree_peek ?_
  rintro _ _ ⟨_, _⟩
  refine agree_ite (agree_pure (.done alike)) (agree_then agree_position fun start => ?_)
  refine agree_bind (agree_attempt agree) fun found otherFound founds => ?_
  have read : (found.getD { completed := false }).Alike twins.like
      (otherFound.getD { completed := false }) := by
    cases founds with
    | none => exact .intro .nil
    | some items => exact items
  generalize found.getD { completed := false } = added at read ⊢
  generalize otherFound.getD { completed := false } = otherAdded at read ⊢
  obtain ⟨more⟩ := read
  exact agree_when agree_recoverFrom (agree_pure (.yield (Nodes.Alike.join alike more)))

theorem agree_completed {production otherProduction : Parse Items}
    (agree : Agree twins (Items.Alike twins.like) production otherProduction) :
    Agree twins (Nodes.Alike twins.like) (completed production) (completed otherProduction) := by
  refine agree_bind agree ?_
  rintro _ _ ⟨alike⟩
  exact agree_ite (agree_pure alike) fun _ _ states => .error states

theorem alike_groupDeclarations {like : Likeness} {place otherPlace : SourceLocation}
    {nodes others : Array Node} (placed : like.places place otherPlace)
    (alike : Nodes.Alike like nodes others) :
    (groupDeclarations place nodes).Alike like (groupDeclarations otherPlace others) := by
  unfold Nodes.Alike at alike
  unfold groupDeclarations
  generalize nodes.toList = list at alike ⊢
  generalize others.toList = otherList at alike ⊢
  cases alike with
  | nil => exact .ofChildren placed .nil
  | cons first rest =>
    cases rest with
    | nil => exact first
    | cons second rest => exact .ofChildren placed (.cons first (.cons second rest))

/-! ## Strings -/

theorem agree_stringPieces : Agree twins Eq stringPieces stringPieces := by
  refine agree_bind agree_peek ?_
  rintro _ _ ⟨_, _⟩
  refine agree_ite (agree_unexpected (by decide)) (agree_iterate rfl ?_)
  rintro soFar _ rfl
  refine agree_bind agree_peek ?_
  rintro _ _ ⟨placed, valued⟩
  refine agree_ite (agree_pure (.done rfl)) (agree_then agree_discard_advance fun _ => ?_)
  cases valued with
  | none => exact agree_pure (.yield rfl)
  | some valued =>
    cases valued with
    | string units encoding => exact agree_when (agree_complain placed rfl nofun) (agree_pure (.yield rfl))
    | _ => exact agree_pure (.yield rfl)

theorem agree_stringLiteral :
    Agree twins (Node.Alike twins.like) stringLiteral stringLiteral := by
  refine agree_bind agree_location fun _ _ placed => agree_then agree_stringPieces fun pieces => ?_
  exact agree_pure (.intro placed (.literal (.string pieces.units pieces.encoding)) .nil)

theorem agree_stringText : Agree twins Eq stringText stringText :=
  agree_then agree_stringPieces fun _ => agree_pure rfl

end CFrontEnd
