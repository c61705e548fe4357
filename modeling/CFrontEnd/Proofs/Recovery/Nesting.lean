import CFrontEnd.Proofs.Grammar.Questions
import CFrontEnd.Proofs.Grammar.Words
import CFrontEnd.Grammar.Recovery

/-!
Brackets that close in the order in which they open, and what passing over tokens comes to between
them: neither the place where parsing resumes nor the end of an attribute lies behind the bracket that
closes what is around.
-/

namespace CFrontEnd

inductive Bracket
  | paren
  | square
  | brace
  deriving DecidableEq

namespace Bracket

def opening : Bracket → Punctuator
  | paren => .openParen
  | square => .openBracket
  | brace => .openBrace

def closing : Bracket → Punctuator
  | paren => .closeParen
  | square => .closeBracket
  | brace => .closeBrace

end Bracket

def TokenKind.isBracket : TokenKind → Bool
  | .punctuator .openParen | .punctuator .openBracket | .punctuator .openBrace
  | .punctuator .closeParen | .punctuator .closeBracket | .punctuator .closeBrace => true
  | _ => false

theorem TokenKind.isBracket_opening (bracket : Bracket) :
    (TokenKind.punctuator bracket.opening).isBracket = true := by
  cases bracket <;> rfl

theorem TokenKind.isBracket_closing (bracket : Bracket) :
    (TokenKind.punctuator bracket.closing).isBracket = true := by
  cases bracket <;> rfl

/-- The tokens are properly nested in parentheses, square brackets and braces, and go on to no end of
file. -/
inductive Nested : List Token → Prop
  | nil : Nested []
  | plain {token : Token} {rest : List Token} (noBracket : token.kind.isBracket = false)
      (notEnd : token.kind ≠ .endOfFile) (nested : Nested rest) : Nested (token :: rest)
  | enclosed {opening closing : Token} {inner rest : List Token} (bracket : Bracket)
      (opens : opening.kind = .punctuator bracket.opening)
      (closes : closing.kind = .punctuator bracket.closing)
      (inside : Nested inner) (nested : Nested rest) :
      Nested (opening :: (inner ++ closing :: rest))

namespace TokenStream

/-- The tokens from `first` up to `stop` are properly nested. -/
inductive NestedFrom (stream : TokenStream) : Nat → Nat → Prop
  | nil (position : Nat) : NestedFrom stream position position
  | plain {first stop : Nat} (noBracket : (stream.get first).kind.isBracket = false)
      (notEnd : (stream.get first).kind ≠ .endOfFile)
      (nested : NestedFrom stream (first + 1) stop) : NestedFrom stream first stop
  | enclosed {first close stop : Nat} (bracket : Bracket)
      (opens : (stream.get first).kind = .punctuator bracket.opening)
      (closes : (stream.get close).kind = .punctuator bracket.closing)
      (inside : NestedFrom stream (first + 1) close)
      (nested : NestedFrom stream (close + 1) stop) : NestedFrom stream first stop

/-- Every bracket that opens from `first` on closes in front of `stop`. -/
def ClosesWithin (stream : TokenStream) (first stop : Nat) : Prop :=
  ∀ position, first ≤ position → position < stop → ∀ bracket : Bracket,
    (stream.get position).kind = .punctuator bracket.opening →
    ∃ close, position < close ∧ close < stop ∧ stream.NestedFrom (position + 1) close ∧
      (stream.get close).kind = .punctuator bracket.closing

variable {stream : TokenStream} {first stop position start depth : Nat}

theorem NestedFrom.le (nested : stream.NestedFrom first stop) : first ≤ stop := by
  induction nested with
  | nil => exact Nat.le_refl _
  | plain _ _ _ ih => omega
  | enclosed _ _ _ _ _ ihInside ih => omega

theorem NestedFrom.closesWithin (nested : stream.NestedFrom first stop) :
    stream.ClosesWithin first stop := by
  induction nested with
  | nil => intro position; omega
  | @plain first stop noBracket _ _ ih =>
    intro position low high bracket opens
    by_cases here : position = first
    · rw [here] at opens
      rw [opens, TokenKind.isBracket_opening] at noBracket
      cases noBracket
    · exact ih position (by omega) high bracket opens
  | @enclosed first close stop outer opensOuter closesOuter inside nested ihInside ih =>
    intro position low high bracket opens
    have before := inside.le
    have behind := nested.le
    -- The bracket is the one at the beginning, or inside of that one, or behind it.
    by_cases here : position = first
    · subst here
      obtain rfl : bracket = outer := by
        rw [opensOuter] at opens
        cases bracket <;> cases outer <;> simp_all [Bracket.opening]
      exact ⟨close, by omega, by omega, inside, closesOuter⟩
    · by_cases within : position < close
      · obtain ⟨match', low, high, rest⟩ := ihInside position (by omega) within bracket opens
        exact ⟨match', low, by omega, rest⟩
      · by_cases atClose : position = close
        · rw [atClose, closesOuter] at opens
          cases bracket <;> cases outer <;> simp [Bracket.opening, Bracket.closing] at opens
        · exact ih position (by omega) high bracket opens

/-- What follows a bracket that opens in front of one that closes is cut in two by the bracket that
closes it. -/
theorem NestedFrom.opened {other : Bracket} (nested : stream.NestedFrom first stop)
    (bracket : Bracket) (opens : (stream.get first).kind = .punctuator bracket.opening)
    (ends : (stream.get stop).kind = .punctuator other.closing) :
    ∃ close, first < close ∧ close < stop ∧ stream.NestedFrom (first + 1) close ∧
      (stream.get close).kind = .punctuator bracket.closing ∧
      stream.NestedFrom (close + 1) stop := by
  cases nested with
  | nil =>
    rw [opens] at ends
    cases bracket <;> cases other <;> simp [Bracket.opening, Bracket.closing] at ends
  | plain noBracket =>
    rw [opens, TokenKind.isBracket_opening] at noBracket
    cases noBracket
  | @enclosed _ close _ outer opensOuter closes inside nested =>
    obtain rfl : bracket = outer := by
      rw [opensOuter] at opens
      cases bracket <;> cases outer <;> simp_all [Bracket.opening]
    have before := inside.le
    have behind := nested.le
    exact ⟨close, by omega, by omega, inside, closes, nested⟩

theorem NestedFrom.of_nested {tokens : List Token} (nested : Nested tokens)
    (has : stream.HasAt position tokens) :
    stream.NestedFrom position (position + tokens.length) := by
  induction nested generalizing position with
  | nil => exact .nil position
  | plain noBracket notEnd _ ih =>
    obtain ⟨_, same, hasRest⟩ := has
    have rest := ih hasRest
    rw [List.length_cons, ← Nat.add_assoc, Nat.add_right_comm]
    exact .plain (by rwa [same]) (by rwa [same]) rest
  | @enclosed opening closing inner rest bracket opens closes _ _ ihInside ih =>
    obtain ⟨_, same, hasRest⟩ := has
    obtain ⟨hasInner, _, sameClosing, hasRest⟩ := (hasAt_append _ _ _).mp hasRest
    have whole : position + (opening :: (inner ++ closing :: rest)).length =
        position + 1 + inner.length + 1 + rest.length := by
      simp only [List.length_cons, List.length_append]
      omega
    rw [whole]
    exact .enclosed bracket (by rw [same, opens]) (by rw [sameClosing, closes]) (ihInside hasInner)
      (ih hasRest)

/-! ## Where parsing resumes -/

theorem getElem_body (inside : position < stream.body.size) :
    stream.body[position] = stream.get position := by
  simp [get, inside]

theorem kind_of_size_le (outside : stream.body.size ≤ position) :
    (stream.get position).kind = .endOfFile := by
  simp [get, Nat.not_lt.mpr outside, final, Token.endOfFile]

/-- Inside of a block one token is passed over like the other; only braces count. -/
theorem resumption_plain {braces : Nat}
    (noBrace : (stream.get position).kind ≠ .punctuator .openBrace)
    (noClose : (stream.get position).kind ≠ .punctuator .closeBrace)
    (notEnd : (stream.get position).kind ≠ .endOfFile) :
    stream.resumption start (braces + 1) position =
      stream.resumption start (braces + 1) (position + 1) := by
  have inside := lt_size_of_kind notEnd
  rw [resumption, dif_pos inside, getElem_body inside]
  cases kind : (stream.get position).kind with
  | endOfFile => exact absurd kind notEnd
  | punctuator punctuator => cases punctuator <;> simp_all
  | _ => rfl

theorem resumption_openBrace {braces : Nat}
    (opens : (stream.get position).kind = .punctuator .openBrace) :
    stream.resumption start braces position =
      stream.resumption start (braces + 1) (position + 1) := by
  have inside : position < stream.body.size := lt_size_of_kind (by simp [opens])
  rw [resumption, dif_pos inside, getElem_body inside, opens]

theorem resumption_closeBrace {braces : Nat}
    (closes : (stream.get position).kind = .punctuator .closeBrace) :
    stream.resumption start (braces + 1) position =
      stream.resumption start braces (position + 1) := by
  have inside : position < stream.body.size := lt_size_of_kind (by simp [closes])
  rw [resumption, dif_pos inside, getElem_body inside, closes]

/-- Inside of a block what is properly nested is passed over whole. -/
theorem NestedFrom.resumption (nested : stream.NestedFrom first stop) (braces : Nat) :
    stream.resumption start (braces + 1) first = stream.resumption start (braces + 1) stop := by
  induction nested generalizing braces with
  | nil => rfl
  | plain noBracket notEnd _ ih =>
    rw [resumption_plain (by intro same; simp [same, TokenKind.isBracket] at noBracket)
      (by intro same; simp [same, TokenKind.isBracket] at noBracket) notEnd, ih]
  | enclosed bracket opens closes _ _ ihInside ih =>
    cases bracket with
    | brace =>
      rw [resumption_openBrace opens, ihInside, resumption_closeBrace closes, ih]
    | paren =>
      rw [resumption_plain (by simp [opens, Bracket.opening]) (by simp [opens, Bracket.opening])
        (by simp [opens]), ihInside, resumption_plain (by simp [closes, Bracket.closing])
        (by simp [closes, Bracket.closing]) (by simp [closes]), ih]
    | square =>
      rw [resumption_plain (by simp [opens, Bracket.opening]) (by simp [opens, Bracket.opening])
        (by simp [opens]), ihInside, resumption_plain (by simp [closes, Bracket.closing])
        (by simp [closes, Bracket.closing]) (by simp [closes]), ih]

theorem resumption_cases (start position : Nat) :
    stream.resumption start 0 position = position ∨
    stream.resumption start 0 position = position + 1 ∧
      (stream.get position).kind = .punctuator .semicolon ∨
    stream.resumption start 0 position = stream.resumption start 1 (position + 1) ∧
      (stream.get position).kind = .punctuator .openBrace ∨
    stream.resumption start 0 position = stream.resumption start 0 (position + 1) ∧
      (stream.get position).kind ≠ .punctuator .semicolon ∧
      (stream.get position).kind ≠ .punctuator .closeBrace := by
  by_cases inside : position < stream.body.size
  · rw [resumption, dif_pos inside, getElem_body inside]
    cases kind : (stream.get position).kind with
    | punctuator punctuator => cases punctuator <;> simp
    | keyword word =>
      by_cases stops : (word.resumesParsing && position != start) = true <;> simp [stops]
    | _ => simp
  · rw [resumption, dif_neg inside]
    exact .inl rfl

theorem le_resumption (stream : TokenStream) (start braces position : Nat) :
    position ≤ stream.resumption start braces position := by
  fun_induction stream.resumption start braces position <;> omega

/-- The place behind the token at `stop`, if that is a semicolon and may be used up. -/
def behind (stream : TokenStream) (stop : Nat) : Nat :=
  if (stream.get stop).kind = .punctuator .semicolon then stop + 1 else stop

theorem le_behind (stream : TokenStream) (stop : Nat) : stop ≤ stream.behind stop := by
  rw [behind]
  split <;> omega

/-- Parsing resumes no later than at the brace that closes what is around, or behind the semicolon
that ends it. -/
theorem resumption_le_behind (closed : stream.ClosesWithin first stop) (low : first ≤ position)
    (high : position ≤ stop)
    (ends : (stream.get stop).kind = .punctuator .closeBrace ∨
      (stream.get stop).kind = .punctuator .semicolon) :
    stream.resumption start 0 position ≤ stream.behind stop := by
  -- On the distance to the end of what is around; a group inside is passed over as a whole.
  induction left : stop - position using Nat.strongRecOn generalizing position with
  | ind left ih =>
    subst left
    have bound := stream.le_behind stop
    have earlier : position ≠ stop → position < stop := by omega
    rcases stream.resumption_cases start position with
      same | ⟨same, semicolon⟩ | ⟨same, opens⟩ | ⟨same, noSemicolon, noClose⟩
    · omega
    · by_cases atStop : position = stop
      · subst atStop
        rw [behind, if_pos semicolon]
        omega
      · omega
    · have before : position < stop := by
        apply earlier
        rintro rfl
        simp [opens] at ends
      obtain ⟨close, _, closeBound, inside, closes⟩ := closed position low before .brace opens
      rw [same, inside.resumption 0, resumption_closeBrace closes]
      exact ih _ (by omega) (by omega) (by omega) rfl
    · have before : position < stop := by
        apply earlier
        rintro rfl
        simp [noSemicolon, noClose] at ends
      rw [same]
      exact ih _ (by omega) (by omega) (by omega) rfl

/-! ## The end of an attribute -/

section AfterBalanced

variable {bracket : Bracket}

theorem afterBalanced_opening
    (opens : (stream.get position).kind = .punctuator bracket.opening) :
    stream.afterBalanced bracket.opening bracket.closing depth position =
      stream.afterBalanced bracket.opening bracket.closing (depth + 1) (position + 1) := by
  have inside : position < stream.body.size := lt_size_of_kind (by simp [opens])
  rw [afterBalanced, dif_pos inside, getElem_body inside]
  simp [opens]

theorem afterBalanced_closing
    (closes : (stream.get position).kind = .punctuator bracket.closing) :
    stream.afterBalanced bracket.opening bracket.closing (depth + 2) position =
      stream.afterBalanced bracket.opening bracket.closing (depth + 1) (position + 1) := by
  have inside : position < stream.body.size := lt_size_of_kind (by simp [closes])
  have differ : bracket.closing ≠ bracket.opening := by cases bracket <;> decide
  rw [afterBalanced, dif_pos inside, getElem_body inside]
  simp [closes, differ]

theorem afterBalanced_last
    (closes : (stream.get position).kind = .punctuator bracket.closing) :
    stream.afterBalanced bracket.opening bracket.closing 1 position = (position + 1, true) := by
  have inside : position < stream.body.size := lt_size_of_kind (by simp [closes])
  have differ : bracket.closing ≠ bracket.opening := by cases bracket <;> decide
  rw [afterBalanced, dif_pos inside, getElem_body inside]
  simp [closes, differ]

theorem afterBalanced_other (notEnd : (stream.get position).kind ≠ .endOfFile)
    (noOpening : (stream.get position).kind ≠ .punctuator bracket.opening)
    (noClosing : (stream.get position).kind ≠ .punctuator bracket.closing) :
    stream.afterBalanced bracket.opening bracket.closing depth position =
      stream.afterBalanced bracket.opening bracket.closing depth (position + 1) := by
  have inside := lt_size_of_kind notEnd
  rw [afterBalanced, dif_pos inside, getElem_body inside]
  simp [notEnd, noOpening, noClosing]

/-- Between brackets that are properly nested the number of open ones does not change. -/
theorem NestedFrom.afterBalanced (nested : stream.NestedFrom first stop) (bracket : Bracket)
    (depth : Nat) :
    stream.afterBalanced bracket.opening bracket.closing (depth + 1) first =
      stream.afterBalanced bracket.opening bracket.closing (depth + 1) stop := by
  induction nested generalizing depth with
  | nil => rfl
  | @plain first stop noBracket notEnd _ ih =>
    rw [afterBalanced_other notEnd, ih]
    · intro same
      simp [same, TokenKind.isBracket_opening] at noBracket
    · intro same
      simp [same, TokenKind.isBracket_closing] at noBracket
  | @enclosed first close stop other opens closes _ _ ihInside ih =>
    by_cases same : other = bracket
    · subst same
      rw [afterBalanced_opening opens, ihInside, afterBalanced_closing closes, ih]
    · have differ : ∀ punctuator ∈ [bracket.opening, bracket.closing],
          other.opening ≠ punctuator ∧ other.closing ≠ punctuator := by
        cases bracket <;> cases other <;> simp_all [Bracket.opening, Bracket.closing]
      have fromOpening := differ bracket.opening (by simp)
      have fromClosing := differ bracket.closing (by simp)
      rw [afterBalanced_other (by simp [opens]) (by simp [opens, fromOpening.1])
        (by simp [opens, fromClosing.1]), ihInside,
        afterBalanced_other (by simp [closes]) (by simp [closes, fromOpening.2])
          (by simp [closes, fromClosing.2]), ih]

end AfterBalanced

end TokenStream

end CFrontEnd
