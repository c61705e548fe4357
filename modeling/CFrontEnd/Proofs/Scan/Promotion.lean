import CFrontEnd.Proofs.Language.Tables
import CFrontEnd.Proofs.Scan.Composition

/-!
A language with more words. Words decide on the kind of a name and on nothing else: the text is cut in
the same places, with the same values and the same problems, and only names become words.
-/

namespace CFrontEnd

namespace Language

def withWords (language : Language) (version : String) (keywords : List (String × Keyword)) :
    Language :=
  { language with version := version, keywords := keywords }

/-- The kind of a token that is spelled like a name. -/
def kindOfName (language : Language) (lexeme : String) : TokenKind :=
  match language.keyword? lexeme with
  | some word => .keyword word
  | none => .identifier

/-- The later language has the words of the earlier one, and the same tables otherwise. -/
structure Extends (newer older : Language) : Prop where
  tables : newer = older.withWords newer.version newer.keywords
  words : ∀ lexeme word, older.keyword? lexeme = some word → newer.keyword? lexeme = some word

end Language

theorem cLanguage_extends {older newer : Standard} (inOrder : older ≤ newer) :
    (cLanguage ⟨newer, true⟩).Extends (cLanguage ⟨older, true⟩) :=
  ⟨rfl, fun _ _ => keyword?_later inOrder⟩

/-- The kind is the same, or that of a name is now that of a word. -/
inductive TokenKind.PromotesTo : TokenKind → TokenKind → Prop
  | same (kind : TokenKind) : PromotesTo kind kind
  | reserved (word : Keyword) : PromotesTo .identifier (.keyword word)

structure Token.PromotesTo (older newer : Token) : Prop where
  kind : older.kind.PromotesTo newer.kind
  lexeme : newer.lexeme = older.lexeme
  location : newer.location = older.location
  value : newer.value = older.value

variable {older newer : Language}

theorem Language.Extends.kindOfName (more : newer.Extends older) (lexeme : String) :
    (older.kindOfName lexeme).PromotesTo (newer.kindOfName lexeme) := by
  simp only [Language.kindOfName]
  cases known : older.keyword? lexeme with
  | some word =>
    rw [more.words _ _ known]
    exact .same _
  | none =>
    cases newer.keyword? lexeme with
    | some word => exact .reserved word
    | none => exact .same _

/-! ## One segment -/

namespace Segment

/-- The segments are the same, or one token of which only the kind has changed. -/
inductive PromotesTo : Segment → Segment → Prop
  | same (segment : Segment) : PromotesTo segment segment
  | token {older newer : TokenKind} (promotes : older.PromotesTo newer) (length : Nat)
      (positive : 0 < length) :
      PromotesTo { kind := .token older none, length := length, length_pos := positive }
        { kind := .token newer none, length := length, length_pos := positive }

theorem promotes_refl (segment : Option Segment) : Option.Rel PromotesTo segment segment := by
  cases segment with
  | none => exact .none
  | some segment => exact .some (.same segment)

theorem promotes_orElse {first second third fourth : Option Segment}
    (isFirst : Option.Rel PromotesTo first second) (isNext : Option.Rel PromotesTo third fourth) :
    Option.Rel PromotesTo (first <|> third) (second <|> fourth) := by
  cases isFirst with
  | some promotes => exact .some promotes
  | none => exact isNext

theorem promotes_getD {first second : Option Segment} (found : Option.Rel PromotesTo first second)
    (stray : Segment) : PromotesTo (first.getD stray) (second.getD stray) := by
  cases found with
  | some promotes => exact promotes
  | none => exact .same stray

/-- A name of the kind that is given, or the literal that it gives its encoding. -/
def nameAt? (language : Language) (kind : String → TokenKind) (first : Char) (rest : List Char) :
    Option Segment :=
  if language.classes.startsIdentifier first then
    let word := first :: rest.takeWhile language.classes.continuesIdentifier
    let literal := (Encoding.ofSpelling? word).bind fun encoding =>
      quotedAt? language encoding word.length (rest.drop (word.length - 1))
    literal <|> some
      { kind := .token (kind (String.ofList word)) none
        length := word.length
        length_pos := Nat.succ_pos _ }
  else none

theorem wordAt?_eq_nameAt? (language : Language) :
    wordAt? language = nameAt? language language.kindOfName := rfl

theorem nameAt?_promotes (language : Language) {kind other : String → TokenKind}
    (promotes : ∀ lexeme, (kind lexeme).PromotesTo (other lexeme)) (first : Char)
    (rest : List Char) :
    Option.Rel PromotesTo (nameAt? language kind first rest) (nameAt? language other first rest) := by
  simp only [nameAt?]
  split
  · exact promotes_orElse (promotes_refl _) (.some (.token (promotes _) _ _))
  · exact .none

theorem wordAt?_promotes (more : newer.Extends older) (first : Char) (rest : List Char) :
    Option.Rel PromotesTo (wordAt? older first rest) (wordAt? newer first rest) := by
  have sameNames : nameAt? newer = nameAt? older := by
    rw [more.tables]
    rfl
  rw [wordAt?_eq_nameAt?, wordAt?_eq_nameAt?, sameNames]
  exact nameAt?_promotes older more.kindOfName first rest

theorem tokenAt?_promotes (more : newer.Extends older) (first : Char) (rest : List Char) :
    Option.Rel PromotesTo (tokenAt? older first rest) (tokenAt? newer first rest) := by
  have sameNumbers : numberAt? newer = numberAt? older := by
    rw [more.tables]
    rfl
  have sameQuoted : quotedAt? newer = quotedAt? older := by
    rw [more.tables]
    rfl
  have sameSymbols : symbolAt? newer = symbolAt? older := by
    rw [more.tables]
    rfl
  simp only [tokenAt?, sameNumbers, sameQuoted, sameSymbols]
  refine promotes_orElse (promotes_refl _) (promotes_orElse (promotes_refl _) ?_)
  exact promotes_orElse (wordAt?_promotes more first rest) (promotes_refl _)

/-- The words of a language do not change where a segment ends, or what is wrong with it. -/
theorem first_promotes (more : newer.Extends older) (atLineStart : Bool) (first : Char)
    (rest : List Char) :
    PromotesTo (Segment.first older atLineStart first rest)
      (Segment.first newer atLineStart first rest) := by
  have sameBlanks : newer.classes.isBlank = older.classes.isBlank := by
    rw [more.tables]
    rfl
  have sameDirectives : directiveAt? newer = directiveAt? older := by
    rw [more.tables]
    rfl
  have sameLineComments : lineCommentAt? newer = lineCommentAt? older := by
    rw [more.tables]
    rfl
  have sameBlockComments : blockCommentAt? newer = blockCommentAt? older := by
    rw [more.tables]
    rfl
  simp only [Segment.first, sameBlanks, sameDirectives, sameLineComments, sameBlockComments]
  split
  · exact .same _
  · have found := promotes_orElse (promotes_refl (spliceAt? first rest))
      (promotes_orElse (promotes_refl (directiveAt? older atLineStart first rest))
        (promotes_orElse (promotes_refl (lineCommentAt? older first rest))
          (promotes_orElse (promotes_refl (blockCommentAt? older first rest))
            (tokenAt?_promotes more first rest))))
    exact promotes_getD found _

end Segment

/-! ## A whole text -/

namespace Scanner

variable {scanner : Scanner} {segment other : Segment}

theorem skip_promotes (promotes : segment.PromotesTo other) :
    scanner.skip other = scanner.skip segment := by
  cases promotes <;> rfl

theorem problemsOf_promotes (promotes : segment.PromotesTo other) :
    scanner.problemsOf other = scanner.problemsOf segment := by
  cases promotes <;> rfl

theorem tokenOf_promotes (promotes : segment.PromotesTo other) :
    List.Forall₂ Token.PromotesTo (scanner.tokenOf segment).toList (scanner.tokenOf other).toList := by
  cases promotes with
  | same segment =>
    exact List.forall₂_same.mpr fun token _ => ⟨.same token.kind, rfl, rfl, rfl⟩
  | token promotes length positive => exact .cons ⟨promotes, rfl, rfl, rfl⟩ .nil

theorem findings_promote (more : newer.Extends older) (scanner : Scanner) :
    List.Forall₂ Token.PromotesTo (scanner.findings older).tokens (scanner.findings newer).tokens ∧
      (scanner.findings newer).problems = (scanner.findings older).problems ∧
      (scanner.findings newer).finish = (scanner.findings older).finish := by
  induction scanner using segmentInduction older with
  | ended scanner ahead =>
    rw [findings_nil ahead, findings_nil ahead]
    exact ⟨.nil, rfl, rfl⟩
  | step scanner first rest ahead ih =>
    have promotes : (scanner.segment older first rest).PromotesTo
        (scanner.segment newer first rest) := Segment.first_promotes more _ first rest
    obtain ⟨tokens, problems, finish⟩ := ih
    rw [findings_cons ahead, findings_cons ahead, skip_promotes promotes,
      problemsOf_promotes promotes, problems, finish]
    exact ⟨List.rel_append (tokenOf_promotes promotes) tokens, rfl, rfl⟩

end Scanner

theorem TokenStream.promotes {before after : TokenStream}
    (tokens : List.Forall₂ Token.PromotesTo before.body.toList after.body.toList)
    (finish : after.endLocation = before.endLocation) :
    List.Forall₂ Token.PromotesTo before.toList after.toList := by
  have ends : before.final.PromotesTo after.final := by
    rw [final, final, finish]
    exact ⟨.same _, rfl, rfl, rfl⟩
  exact List.rel_append tokens (.cons ends .nil)

/-- A later standard with the extensions of GNU reserves more names and changes nothing else about the
tokens of a text and its problems. -/
theorem tokenize_promotes {older newer : Standard} (inOrder : older ≤ newer) (buffer : SourceBuffer)
    (diagnostics : Diagnostics) :
    let before := tokenize (cLanguage ⟨older, true⟩) buffer diagnostics
    let after := tokenize (cLanguage ⟨newer, true⟩) buffer diagnostics
    List.Forall₂ Token.PromotesTo before.1.toList after.1.toList ∧ after.2 = before.2 := by
  obtain ⟨tokens, problems, finish⟩ :=
    (Scanner.ofBuffer buffer diagnostics).findings_promote (cLanguage_extends inOrder)
  simp only [tokenize_findings, problems, and_true]
  exact TokenStream.promotes tokens finish

/-- What is a word in all standards, what becomes one, and a name. -/
theorem tokenize_promotes_inline :
    Standard.c89 ≤ Standard.c23 ∧
      (let before := tokenize (cLanguage ⟨.c89, true⟩) ⟨"a", "int bool 'x"⟩ .empty
       let after := tokenize (cLanguage ⟨.c23, true⟩) ⟨"a", "int bool 'x"⟩ .empty
       List.Forall₂ Token.PromotesTo before.1.toList after.1.toList ∧ after.2 = before.2) :=
  have inOrder : Standard.c89 ≤ Standard.c23 := by decide
  ⟨inOrder, tokenize_promotes inOrder ⟨"a", "int bool 'x"⟩ .empty⟩

end CFrontEnd
