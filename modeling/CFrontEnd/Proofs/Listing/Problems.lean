import CFrontEnd.Proofs.Conduct.StartRule
import CFrontEnd.Proofs.Likeness.Program
import CFrontEnd.Proofs.Listing.Lines
import CFrontEnd.Proofs.Scan.Messages

/-!
Listings of problems. A problem is told in one line, in whatever text it was found, so the lines of a listing
are the problems.
-/

namespace CFrontEnd

open Parse Productions

variable {dialect : Dialect}

/-! ## Lines -/

/-- Texts that are closed with line feeds are found again between these. -/
theorem splitOn_closed {texts : List String} (oneLine : ∀ text ∈ texts, IsOneLine text) :
    (String.join (texts.map (· ++ "\n"))).toList.splitOn '\n' = texts.map String.toList ++ [[]] := by
  induction texts with
  | nil => rfl
  | cons text rest ih =>
    obtain ⟨isOne, others⟩ := List.forall_mem_cons.mp oneLine
    have closed : (text ++ "\n").toList = text.toList ++ ['\n'] := String.toList_append
    rw [List.map_cons, String.join_cons, String.toList_append, closed, List.append_assoc,
      List.singleton_append, List.splitOn_append_cons_self_of_not_mem isOne, ih others]
    rfl

theorem IsOneLine.of_inLine {text : String} (inLine : InLine text.toList) : IsOneLine text :=
  fun inText => absurd (inLine '\n' inText) (by decide)

/-! ## The problems of the grammar -/

/-- Alike with itself is what stands in a file with a name in one line and is written in one line. -/
def Likeness.oneLine : Likeness where
  places place other := other = place ∧ InLine place.file.toList
  values _ _ := True
  zero := trivial
  characters character := isLineEnd character = false
  inLine _ inLine := inLine

theorem TokenStream.alike_oneLine {tokens : TokenStream}
    (named : ∀ token ∈ tokens.body, InLine token.location.file.toList)
    (written : ∀ token ∈ tokens.body, InLine token.lexeme.toList)
    (finish : InLine tokens.endLocation.file.toList) : tokens.Alike .oneLine tokens := by
  refine ⟨List.forall₂_same.mpr fun token inText => ?_, rfl, finish⟩
  have inBody := Array.mem_toList_iff.mp inText
  exact .moved (fun _ => trivial) ⟨rfl, named token inBody⟩ (written token inBody)

theorem inLine_of_alike {diagnostics others : List Diagnostic}
    (alike : List.Forall₂ (Diagnostic.Alike .oneLine) diagnostics others) :
    ∀ diagnostic ∈ diagnostics, InLine diagnostic.text.toList := by
  induction alike with
  | nil => exact nofun
  | cons first _ ih =>
    obtain ⟨placed, written⟩ := first
    exact List.forall_mem_cons.mpr ⟨Diagnostic.inLine_text placed.2 written, ih⟩

/-- With tokens in one line each there are no problems that are told in more. -/
theorem inLine_parse {tokens : TokenStream} (alike : tokens.Alike .oneLine tokens)
    {diagnostics : Diagnostics}
    (earlier : ∀ diagnostic ∈ diagnostics.toList, InLine diagnostic.text.toList) :
    ∀ diagnostic ∈ ((cLanguage dialect).parse tokens diagnostics).2.toList,
      InLine diagnostic.text.toList := by
  have rule : InLine "translation_unit".toList := inLine_ofList (by decide)
  have name : InLine "C".toList := inLine_ofList (by decide)
  obtain ⟨_, new, _, recorded, _, pairs⟩ := alike_parse (cLanguage dialect) alike diagnostics
    (Likeness.writes_line rule) (Likeness.writes_line name)
  rw [recorded, List.forall_mem_append]
  exact ⟨earlier, inLine_of_alike pairs⟩

theorem parse_nothing (place : SourceLocation) (diagnostics : Diagnostics) :
    ((cLanguage dialect).parse ⟨#[], place⟩ diagnostics).2 = diagnostics := by
  have stops := @recoveringStep_stop ((cLanguage dialect).context ⟨#[], place⟩) (.first diagnostics)
    (fun _ => false) (externalDeclaration (ofLevels maxNesting)) #[] (.inl rfl)
  have whole : Parse.fromRule (cLanguage dialect).startRule
      ((cLanguage dialect).context ⟨#[], place⟩) (.first diagnostics) =
        .ok (.ofChildren .program place []) (.first diagnostics) := by
    refine (Language.fromRule_context .program).trans ?_
    simp only [StartRule.production, StartRule.wholeText, recoveringItems_eq]
    simp [stops]
    rfl
  rw [Language.parse_ok whole]
  rfl

/-! ## All problems of a text -/

/-- Each problem of a text is told in one line, and the lines of the listing are the problems in the order in
which they were found. -/
theorem parseSource_problemLines (dialect : Dialect) (buffer : SourceBuffer)
    (named : InLine buffer.name.toList) :
    let diagnostics := ((cLanguage dialect).parseSource buffer).2
    (∀ diagnostic ∈ diagnostics.toList, InLine diagnostic.text.toList) ∧
      lineFeeds diagnostics.listing = diagnostics.count ∧
      diagnostics.listing.toList.splitOn '\n' =
        diagnostics.toList.map (fun diagnostic => diagnostic.text.toList) ++ [[]] := by
  intro diagnostics
  have inLine : ∀ diagnostic ∈ diagnostics.toList, InLine diagnostic.text.toList := by
    -- The scanner tells its problems in one line each and has no line end in a lexeme; the parser
    -- puts lexemes into its messages and adds no line end of its own.
    obtain ⟨tokens, after, tokenized⟩ : ∃ tokens after,
      tokenize (cLanguage dialect) buffer .empty = (tokens, after) := ⟨_, _, rfl⟩
    have told := tokenize_tellsInLine dialect named .empty
    rw [tokenized] at told
    obtain ⟨places, finish, new, recorded, problems⟩ := told
    have lexemes := tokenize_inLine tokenized
    have alike := TokenStream.alike_oneLine places
      (fun token inBody => lexemes token (List.mem_append_left _ (Array.mem_toList_iff.mpr inBody))) finish
    simp only [diagnostics, Language.parseSource, tokenized]
    exact inLine_parse alike (recorded ▸ problems)
  have listed : diagnostics.listing =
      String.join ((diagnostics.toList.map Diagnostic.text).map (· ++ "\n")) := by
    rw [List.map_map]
    rfl
  have oneLine : ∀ text ∈ diagnostics.toList.map Diagnostic.text, IsOneLine text :=
    List.forall_mem_map.mpr fun diagnostic inList => .of_inLine (inLine diagnostic inList)
  refine ⟨inLine, ?_, ?_⟩
  · have noneInside : ((diagnostics.toList.map Diagnostic.text).map lineFeeds).sum = 0 := by
      rw [← lineFeeds_join]
      exact lineFeeds_eq_zero.mpr (.join oneLine)
    rw [listed, lineFeeds_closed, noneInside, List.length_map]
    rfl
  · rw [listed, splitOn_closed oneLine, List.map_map]
    rfl

/-- A linemarker names the file of the comment behind it, which has no end. -/
def markedComment : SourceBuffer := ⟨"main.c", "#2 \"b\"\n/*"⟩

theorem tokenize_markedComment :
    tokenize (cLanguage gnuC17) markedComment .empty =
      (⟨#[], ⟨"b", 2, 3, 9⟩⟩,
        Diagnostics.empty.report .lexical ⟨"b", 2, 1, 7⟩ "unterminated comment") := by
  have ahead : (Scanner.ofBuffer markedComment .empty).reader.rest =
      '#' :: ['2', ' ', '"', 'b', '"', '\n', '/', '*'] := by decide
  rw [tokenize, Scanner.drain_cons _ ahead, Scanner.drain_cons _ (rfl : _ = '/' :: ['*']),
    Scanner.drain_nil _ rfl]
  rfl

theorem parseSource_problemLines_comment :
    let diagnostics := ((cLanguage gnuC17).parseSource markedComment).2
    InLine markedComment.name.toList ∧
      diagnostics.listing = "b:2:1: lex error: unterminated comment\n" ∧
      (∀ diagnostic ∈ diagnostics.toList, InLine diagnostic.text.toList) ∧
      lineFeeds diagnostics.listing = diagnostics.count ∧
      diagnostics.listing.toList.splitOn '\n' =
        diagnostics.toList.map (fun diagnostic => diagnostic.text.toList) ++ [[]] := by
  intro diagnostics
  have named : InLine markedComment.name.toList := inLine_ofList (by decide)
  refine ⟨named, ?_, parseSource_problemLines gnuC17 markedComment named⟩
  simp only [diagnostics, Language.parseSource, tokenize_markedComment, parse_nothing]
  decide

end CFrontEnd
