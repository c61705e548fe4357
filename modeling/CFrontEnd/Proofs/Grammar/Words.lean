import CFrontEnd.Spelling.Literal
import CFrontEnd.Token.Stream

/-!
Stretches of tokens in a stream, and tokens without their places.
-/

namespace CFrontEnd

/-! ## Stretches -/

/-- The end of a stretch with a token in the middle, counted from that token on. -/
theorem length_append_cons {Item : Type} (position : Nat) (left right : List Item) (item : Item) :
    position + (left ++ item :: right).length = position + left.length + 1 + right.length := by
  simp only [List.length_append, List.length_cons]
  omega

/-- The end of a stretch between two tokens, counted from the first of them on. -/
theorem length_enclosed {Item : Type} (position : Nat) (inner : List Item)
    (opening closing : Item) :
    position + (opening :: (inner ++ [closing])).length = position + 1 + inner.length + 1 := by
  simp only [List.length_append, List.length_cons, List.length_nil]
  omega

namespace TokenStream

/-- The tokens stand in the stream one after the other, the first of them at `position`. -/
def HasAt (stream : TokenStream) : Nat → List Token → Prop
  | _, [] => True
  | position, token :: rest =>
    position < stream.body.size ∧ stream.get position = token ∧ stream.HasAt (position + 1) rest

variable {stream : TokenStream}

@[simp] theorem hasAt_nil (position : Nat) : stream.HasAt position [] := trivial

@[simp] theorem hasAt_cons (position : Nat) (token : Token) (rest : List Token) :
    stream.HasAt position (token :: rest) ↔
      position < stream.body.size ∧ stream.get position = token ∧
        stream.HasAt (position + 1) rest :=
  Iff.rfl

@[simp] theorem hasAt_append (position : Nat) (first second : List Token) :
    stream.HasAt position (first ++ second) ↔
      stream.HasAt position first ∧ stream.HasAt (position + first.length) second := by
  induction first generalizing position with
  | nil => simp
  | cons token rest ih =>
      simp only [List.cons_append, hasAt_cons, ih, List.length_cons, and_assoc]
      rw [show position + (rest.length + 1) = position + 1 + rest.length by omega]

theorem hasAt_body (stream : TokenStream) : stream.HasAt 0 stream.body.toList := by
  suffices general : ∀ (tokens : List Token) (position : Nat),
      stream.body.toList.drop position = tokens → stream.HasAt position tokens by
    exact general _ 0 rfl
  intro tokens
  induction tokens with
  | nil => intros; trivial
  | cons token rest ih =>
      intro position rest_eq
      have inside : position < stream.body.size := by
        by_cases inside : position < stream.body.size
        · exact inside
        · rw [List.drop_eq_nil_of_le (by simpa using Nat.le_of_not_lt inside)] at rest_eq
          cases rest_eq
      rw [List.drop_eq_getElem_cons (by simpa using inside)] at rest_eq
      obtain ⟨head, tail⟩ := List.cons.inj rest_eq
      exact ⟨inside, by simpa [get, inside] using head, ih _ tail⟩

theorem HasAt.length_le {tokens : List Token} {position : Nat}
    (has : stream.HasAt position tokens) : tokens.length ≤ stream.body.size - position := by
  induction tokens generalizing position with
  | nil => simp
  | cons token rest ih =>
      obtain ⟨inside, _, hasRest⟩ := has
      have bound := ih hasRest
      simp only [List.length_cons]
      omega

theorem HasAt.eq_body {tokens : List Token} (has : stream.HasAt 0 tokens)
    (whole : tokens.length = stream.body.size) : tokens = stream.body.toList := by
  suffices general : ∀ (tokens : List Token) (position : Nat), stream.HasAt position tokens →
      tokens = (stream.body.toList.drop position).take tokens.length by
    rw [general tokens 0 has, whole, List.drop_zero, ← Array.length_toList, List.take_length]
  intro tokens
  induction tokens with
  | nil => intros; simp
  | cons token rest ih =>
      rintro position ⟨inside, same, hasRest⟩
      rw [List.drop_eq_getElem_cons (by simpa using inside), List.length_cons, List.take_succ_cons,
        ← ih _ hasRest]
      simpa [get, inside] using same.symm

end TokenStream

/-! ## Words -/

structure Word where
  kind : TokenKind
  lexeme : String
  value : Option Literal := none
  deriving BEq, Repr

def Token.word (token : Token) : Word := ⟨token.kind, token.lexeme, token.value⟩

@[simp] theorem Token.word_eq_mk {token : Token} {kind : TokenKind} {lexeme : String}
    {value : Option Literal} :
    token.word = ⟨kind, lexeme, value⟩ ↔
      token.kind = kind ∧ token.lexeme = lexeme ∧ token.value = value := by
  simp [word]

namespace Word

def operator (operator : Operator) (symbol : String) : Word := ⟨.operator operator, symbol, none⟩

def punctuator (punctuator : Punctuator) (symbol : String) : Word :=
  ⟨.punctuator punctuator, symbol, none⟩

def identifier (name : String) : Word := ⟨.identifier, name, none⟩

def keyword (word : Keyword) (spelling : String) : Word := ⟨.keyword word, spelling, none⟩

def integer (value : Nat) (suffix : IntegerSuffix) : Word :=
  ⟨.literal .integer, (Literal.integer value suffix).spelling, some (.integer value suffix)⟩

def openParen : Word := punctuator .openParen "("

def closeParen : Word := punctuator .closeParen ")"

def openBracket : Word := punctuator .openBracket "["

def closeBracket : Word := punctuator .closeBracket "]"

def comma : Word := punctuator .comma ","

def semicolon : Word := punctuator .semicolon ";"

def ellipsis : Word := punctuator .ellipsis "..."

def star : Word := operator .star "*"

end Word

namespace TokenStream

/-- The tokens at `position` and behind it are these words. -/
def HasWordsAt (stream : TokenStream) : Nat → List Word → Prop
  | _, [] => True
  | position, word :: rest =>
    (stream.get position).word = word ∧ stream.HasWordsAt (position + 1) rest

variable {stream : TokenStream}

@[simp] theorem hasWordsAt_nil (position : Nat) : stream.HasWordsAt position [] := trivial

@[simp] theorem hasWordsAt_cons (position : Nat) (word : Word) (rest : List Word) :
    stream.HasWordsAt position (word :: rest) ↔
      (stream.get position).word = word ∧ stream.HasWordsAt (position + 1) rest :=
  Iff.rfl

@[simp] theorem hasWordsAt_append (position : Nat) (first second : List Word) :
    stream.HasWordsAt position (first ++ second) ↔
      stream.HasWordsAt position first ∧
        stream.HasWordsAt (position + first.length) second := by
  induction first generalizing position with
  | nil => simp
  | cons word rest ih =>
      have later : position + (rest.length + 1) = position + 1 + rest.length := by omega
      simp only [List.cons_append, hasWordsAt_cons, ih, List.length_cons, and_assoc, later]

theorem HasWordsAt.mem {words : List Word} {start position : Nat}
    (has : stream.HasWordsAt start words) (low : start ≤ position)
    (high : position < start + words.length) : (stream.get position).word ∈ words := by
  induction words generalizing start with
  | nil => exact absurd high (Nat.not_lt.mpr low)
  | cons word rest ih =>
    obtain ⟨same, hasRest⟩ := has
    by_cases here : position = start
    · rw [here, same]
      exact List.mem_cons_self
    · rw [List.length_cons] at high
      exact List.mem_cons_of_mem _ (ih hasRest (by omega) (by omega))

theorem hasWordsAt_body (stream : TokenStream) :
    stream.HasWordsAt 0 (stream.body.toList.map Token.word) := by
  suffices general : ∀ (tokens : List Token) (position : Nat),
      stream.body.toList.drop position = tokens →
        stream.HasWordsAt position (tokens.map Token.word) by
    exact general _ 0 rfl
  intro tokens
  induction tokens with
  | nil => intros; trivial
  | cons token rest ih =>
      intro position same
      have inside : position < stream.body.size := by
        by_cases inside : position < stream.body.size
        · exact inside
        · rw [List.drop_eq_nil_of_le (by simpa using Nat.le_of_not_lt inside)] at same
          cases same
      rw [List.drop_eq_getElem_cons (by simpa using inside)] at same
      obtain ⟨isToken, isRest⟩ := List.cons.inj same
      refine ⟨?_, ih _ isRest⟩
      simp [get, inside, ← isToken]

end TokenStream

end CFrontEnd
