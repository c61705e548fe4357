import CFrontEnd.Proofs.Recovery.Nesting

/-!
Where parsing resumes, said without the way there: at the first place that is safe. How many braces are
open at a place is counted from where parsing stopped.
-/

namespace CFrontEnd

namespace TokenStream

/-- How often the punctuator stands from `start` on in front of `position`. -/
def tally (stream : TokenStream) (punctuator : Punctuator) (start position : Nat) : Nat :=
  (List.range' start (position - start)).countP fun place =>
    (stream.get place).isPunctuator punctuator

/-- The braces that open from `start` on in front of `position`, less those that close there. -/
def openBraces (stream : TokenStream) (start position : Nat) : Int :=
  stream.tally .openBrace start position - stream.tally .closeBrace start position

/-- The places where parsing that stopped at `start` may resume. -/
inductive IsSafe (stream : TokenStream) (start position : Nat) : Prop
  | endOfFile (ends : (stream.get position).kind = .endOfFile)
  | closeBrace (level : stream.openBraces start position = 0)
      (closes : (stream.get position).kind = .punctuator .closeBrace)
  | keyword (word : Keyword) (level : stream.openBraces start position = 0)
      (further : start < position) (isWord : (stream.get position).kind = .keyword word)
      (resumes : word.resumesParsing = true)
  | semicolon (further : start < position)
      (before : (stream.get (position - 1)).kind = .punctuator .semicolon)
      (level : stream.openBraces start (position - 1) = 0)

/-- The first of these places, with no more braces closed than opened on the way to it. -/
structure IsFirstSafe (stream : TokenStream) (start position : Nat) : Prop where
  forward : start ≤ position
  nonneg : ∀ place, start ≤ place → place ≤ position → 0 ≤ stream.openBraces start place
  safe : stream.IsSafe start position
  first : ∀ place, start ≤ place → place < position → ¬ stream.IsSafe start place

variable {stream : TokenStream} {start position braces : Nat} {punctuator : Punctuator}

theorem IsFirstSafe.unique {other : Nat} (isFirst : stream.IsFirstSafe start position)
    (otherFirst : stream.IsFirstSafe start other) : other = position := by
  by_cases earlier : other < position
  · exact absurd otherFirst.safe (isFirst.first other otherFirst.forward earlier)
  · by_cases later : position < other
    · exact absurd isFirst.safe (otherFirst.first position isFirst.forward later)
    · omega

/-! ## Counting braces -/

theorem tally_start : stream.tally punctuator start start = 0 := by
  simp [tally]

theorem tally_succ (forward : start ≤ position) :
    stream.tally punctuator start (position + 1) =
      stream.tally punctuator start position +
        if (stream.get position).kind = .punctuator punctuator then 1 else 0 := by
  have length : position + 1 - start = position - start + 1 := by omega
  have last : start + 1 * (position - start) = position := by omega
  rw [tally, length, List.range'_concat, last, List.countP_append, List.countP_singleton, tally]
  simp

theorem openBraces_start : stream.openBraces start start = 0 := by
  simp [openBraces, tally_start]

theorem openBraces_open (forward : start ≤ position)
    (opens : (stream.get position).kind = .punctuator .openBrace) :
    stream.openBraces start (position + 1) = stream.openBraces start position + 1 := by
  simp only [openBraces, tally_succ forward, opens]
  simp
  omega

theorem openBraces_close (forward : start ≤ position)
    (closes : (stream.get position).kind = .punctuator .closeBrace) :
    stream.openBraces start (position + 1) = stream.openBraces start position - 1 := by
  simp only [openBraces, tally_succ forward, closes]
  simp
  omega

theorem openBraces_other (forward : start ≤ position)
    (noOpen : (stream.get position).kind ≠ .punctuator .openBrace)
    (noClose : (stream.get position).kind ≠ .punctuator .closeBrace) :
    stream.openBraces start (position + 1) = stream.openBraces start position := by
  simp only [openBraces, tally_succ forward, if_neg noOpen, if_neg noClose, Nat.add_zero]

/-! ## The search -/

/-- On the way to `position` nothing was safe, and `braces` are open there. What makes the place itself
safe can only be the token that stands there. -/
structure Searched (stream : TokenStream) (start braces position : Nat) : Prop where
  forward : start ≤ position
  level : stream.openBraces start position = braces
  nonneg : ∀ place, start ≤ place → place ≤ position → 0 ≤ stream.openBraces start place
  passed : ∀ place, start ≤ place → place < position → ¬ stream.IsSafe start place
  noSemicolon : start < position → (stream.get (position - 1)).kind = .punctuator .semicolon →
    stream.openBraces start (position - 1) ≠ 0

namespace Searched

theorem begin (stream : TokenStream) (start : Nat) : stream.Searched start 0 start := by
  constructor
  · exact Nat.le_refl _
  · exact openBraces_start
  · intro place low high
    obtain rfl : place = start := by omega
    exact Int.le_of_eq openBraces_start.symm
  · intro place low high
    omega
  · intro further
    omega

theorem finish (searched : stream.Searched start braces position)
    (safe : stream.IsSafe start position) : stream.IsFirstSafe start position :=
  ⟨searched.forward, searched.nonneg, safe, searched.passed⟩

/-- Behind a semicolon outside of all braces it ends as well. -/
theorem finish_semicolon (searched : stream.Searched start 0 position)
    (notSafe : ¬ stream.IsSafe start position)
    (ends : (stream.get position).kind = .punctuator .semicolon) :
    stream.IsFirstSafe start (position + 1) := by
  have forward := searched.forward
  have level : stream.openBraces start (position + 1) = 0 := by
    rw [openBraces_other forward (by simp [ends]) (by simp [ends])]
    exact searched.level
  constructor
  · omega
  · intro place low high
    by_cases here : place = position + 1
    · rw [here]
      exact Int.le_of_eq level.symm
    · exact searched.nonneg place low (by omega)
  · exact .semicolon (by omega) ends searched.level
  · intro place low high
    by_cases here : place = position
    · rwa [here]
    · exact searched.passed place low (by omega)

theorem next {after : Nat} (searched : stream.Searched start braces position)
    (notSafe : ¬ stream.IsSafe start position)
    (level : stream.openBraces start (position + 1) = after)
    (noSemicolon : (stream.get position).kind = .punctuator .semicolon → braces ≠ 0) :
    stream.Searched start after (position + 1) := by
  have forward := searched.forward
  constructor
  · omega
  · exact level
  · intro place low high
    by_cases here : place = position + 1
    · rw [here, level]
      omega
    · exact searched.nonneg place low (by omega)
  · intro place low high
    by_cases here : place = position
    · rwa [here]
    · exact searched.passed place low (by omega)
  · intro _ ends closed
    have same := searched.level
    simp only [Nat.add_sub_cancel] at ends closed
    exact noSemicolon ends (by omega)

theorem other (searched : stream.Searched start braces position)
    (notSafe : ¬ stream.IsSafe start position)
    (noOpen : (stream.get position).kind ≠ .punctuator .openBrace)
    (noClose : (stream.get position).kind ≠ .punctuator .closeBrace)
    (noSemicolon : (stream.get position).kind = .punctuator .semicolon → braces ≠ 0) :
    stream.Searched start braces (position + 1) := by
  have level := openBraces_other searched.forward noOpen noClose
  exact searched.next notSafe (level.trans searched.level) noSemicolon

/-- The place is not safe where its token ends nothing: it is not the end of the tokens and, outside
of braces, neither a closing brace nor a word to resume at. -/
theorem notSafe (searched : stream.Searched start braces position)
    (notEnd : (stream.get position).kind ≠ .endOfFile)
    (noBrace : (stream.get position).kind = .punctuator .closeBrace → braces ≠ 0)
    (noWord : ∀ word, (stream.get position).kind = .keyword word → word.resumesParsing = true →
      start < position → braces ≠ 0) :
    ¬ stream.IsSafe start position := by
  have same := searched.level
  intro safe
  cases safe with
  | endOfFile ends => exact notEnd ends
  | closeBrace level closes => exact noBrace closes (by omega)
  | keyword word level further isWord resumes =>
    exact noWord word isWord resumes further (by omega)
  | semicolon further before level => exact searched.noSemicolon further before level

end Searched

theorem isFirstSafe_resumption (searched : stream.Searched start braces position) :
    stream.IsFirstSafe start (stream.resumption start braces position) := by
  -- Each step of the search ends at a safe place or passes over one that is not.
  fun_induction stream.resumption start braces position with
  | case1 braces position inside ends =>
    rw [getElem_body inside] at ends
    exact searched.finish (.endOfFile ends)
  | case2 position inside braces opens ih =>
    rw [getElem_body inside] at opens
    have notSafe := searched.notSafe (by simp [opens]) (by simp [opens]) (by simp [opens])
    have level := openBraces_open searched.forward opens
    have same := searched.level
    exact ih (searched.next notSafe (by omega) (by simp [opens]))
  | case3 position inside closes =>
    rw [getElem_body inside] at closes
    exact searched.finish (.closeBrace searched.level closes)
  | case4 position inside braces closes ih =>
    rw [getElem_body inside] at closes
    have notSafe := searched.notSafe (by simp [closes]) (by simp) (by simp [closes])
    have level := openBraces_close searched.forward closes
    have same := searched.level
    exact ih (searched.next notSafe (by omega) (by simp))
  | case5 position inside braces notEnd noOpen noClose ih =>
    rw [getElem_body inside] at notEnd noOpen noClose
    have notSafe := searched.notSafe notEnd (by simp) (by simp)
    exact ih (searched.other notSafe noOpen noClose (by simp))
  | case6 position inside ends =>
    rw [getElem_body inside] at ends
    have notSafe := searched.notSafe (by simp [ends]) (by simp [ends]) (by simp [ends])
    exact searched.finish_semicolon notSafe ends
  | case7 position inside word isWord resumes =>
    rw [getElem_body inside] at isWord
    simp only [Bool.and_eq_true, bne_iff_ne, ne_eq] at resumes
    have further : start < position := by
      have forward := searched.forward
      omega
    exact searched.finish (.keyword word searched.level further isWord resumes.1)
  | case8 position inside word isWord stays ih =>
    rw [getElem_body inside] at isWord
    have notSafe : ¬ stream.IsSafe start position := by
      apply searched.notSafe
      · simp [isWord]
      · simp [isWord]
      · intro other isOther resumes further
        obtain rfl : word = other := by simpa [isWord] using isOther
        have elsewhere : position ≠ start := by omega
        simp [resumes, elsewhere] at stays
    exact ih (searched.other notSafe (by simp [isWord]) (by simp [isWord]) (by simp [isWord]))
  | case9 position inside notEnd noOpen noClose noSemicolon noWord ih =>
    rw [getElem_body inside] at notEnd noOpen noClose noSemicolon noWord
    have notSafe := searched.notSafe notEnd (fun closes => absurd closes noClose)
      fun word isWord => absurd isWord (noWord word)
    exact ih (searched.other notSafe noOpen noClose fun ends => absurd ends noSemicolon)
  | case10 braces position outside =>
    exact searched.finish (.endOfFile (kind_of_size_le (Nat.le_of_not_lt outside)))

end TokenStream

/-- From every state parsing resumes at the one place that is the first safe one, out of the panic and
with all else as it was. -/
theorem Parse.synchronize_stops (context : ParseContext) (state : ParseState) :
    ∃ place,
      synchronize context state = .ok () { state with position := place, panicking := false } ∧
      context.tokens.IsFirstSafe state.position place ∧
      ∀ other, context.tokens.IsFirstSafe state.position other → other = place := by
  have isFirst := TokenStream.isFirstSafe_resumption (.begin context.tokens state.position)
  exact ⟨_, rfl, isFirst, fun other otherFirst => isFirst.unique otherFirst⟩

end CFrontEnd
