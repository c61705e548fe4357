import CFrontEnd.Proofs.Scan.Positions

/-!
The lines of a text and the places in it. The lines, each with what ends it, are the whole text; a line
and a column stand for one offset, and they are in the order of the offsets.
-/

namespace CFrontEnd

namespace SourceBuffer

/-! ## Lines -/

/-- What ends a line in front of `rest`: LF, CR and LF, or a CR that no LF follows. -/
inductive EndsLine : List Char → List Char → Prop
  | feed (rest : List Char) : EndsLine ['\n'] rest
  | both (rest : List Char) : EndsLine ['\r', '\n'] rest
  | carriageReturn {rest : List Char} (alone : rest.head? ≠ some '\n') : EndsLine ['\r'] rest

/-- A text that begins at `offset`, taken apart into lines: where each one begins and what is in it. -/
inductive LaidOut : Nat → List Char → List (Nat × String) → Prop
  | last {offset : Nat} {line : List Char}
      (unbroken : ∀ character ∈ line, isLineEnd character = false) :
      LaidOut offset line [(offset, String.ofList line)]
  | ended {offset : Nat} {line ending rest : List Char} {lines : List (Nat × String)}
      (unbroken : ∀ character ∈ line, isLineEnd character = false) (ends : EndsLine ending rest)
      (below : LaidOut (offset + byteLength line + byteLength ending) rest lines) :
      LaidOut offset (line ++ ending ++ rest) ((offset, String.ofList line) :: lines)

/-- What stands in the line that begins at `start`. -/
def lineFrom (buffer : SourceBuffer) (start : Nat) : String :=
  String.ofList ((dropBytes start buffer.characters).takeWhile fun character =>
    !isLineEnd character)

theorem lineText_succ (buffer : SourceBuffer) (index : Nat) :
    buffer.lineText (index + 1) = buffer.lineStarts[index]?.map buffer.lineFrom := by
  rw [lineText, if_neg (Nat.succ_ne_zero index)]
  rfl

variable {buffer : SourceBuffer} {offset : Nat} {front rest : List Char} {character : Char}

theorem lineFrom_append (isText : buffer.characters = front ++ rest) :
    buffer.lineFrom (byteLength front) =
      String.ofList (rest.takeWhile fun character => !isLineEnd character) := by
  rw [lineFrom, isText, dropBytes_append]

/-- A character that ends no line belongs to the line that goes on behind it. -/
theorem LaidOut.cons {line : String} {lines : List (Nat × String)} {start : Nat}
    (inLine : isLineEnd character = false)
    (laidOut : LaidOut (offset + character.utf8Size) rest ((start, line) :: lines)) :
    LaidOut offset (character :: rest) ((offset, String.ofList (character :: line.toList)) :: lines) := by
  cases laidOut with
  | last unbroken =>
    rw [String.toList_ofList]
    exact .last (List.forall_mem_cons.mpr ⟨inLine, unbroken⟩)
  | @ended _ line ending rest lines unbroken ends below =>
    rw [String.toList_ofList]
    refine @LaidOut.ended offset (character :: line) ending rest lines
      (List.forall_mem_cons.mpr ⟨inLine, unbroken⟩) ends ?_
    rwa [byteLength, ← Nat.add_assoc offset]

theorem LaidOut.endLine {ending : List Char} {lines : List (Nat × String)}
    (isText : buffer.characters = front ++ (ending ++ rest)) (ends : EndsLine ending rest)
    (below : LaidOut (byteLength (front ++ ending)) rest lines) :
    LaidOut (byteLength front) (ending ++ rest)
      ((byteLength front, buffer.lineFrom (byteLength front)) :: lines) := by
  have isEmpty : buffer.lineFrom (byteLength front) = String.ofList [] := by
    rw [lineFrom_append isText]
    cases ends <;> rfl
  rw [byteLength_append] at below
  rw [isEmpty]
  exact @LaidOut.ended _ [] ending rest lines nofun ends below

/-- From any place on, the table of line starts takes the rest of the text apart. -/
theorem laidOut_append (isText : buffer.characters = front ++ rest) :
    LaidOut (byteLength front) rest
      ((byteLength front :: lineStartsFrom (byteLength front) rest).map fun start =>
        (start, buffer.lineFrom start)) := by
  generalize isOffset : byteLength front = offset
  fun_induction lineStartsFrom offset rest generalizing front with
  | case1 offset =>
    subst isOffset
    rw [List.map_singleton, lineFrom_append isText]
    exact .last nofun
  | case2 offset rest ih =>
    subst isOffset
    -- The characters passed so far stand in front, so each step moves the line end over to them.
    have below := @ih (front ++ ['\r', '\n']) (by simp [isText]) (byteLength_append ..)
    exact .endLine isText (.both rest) (byteLength_append front _ ▸ below)
  | case3 offset rest notFeed ih =>
    subst isOffset
    have alone : rest.head? ≠ some '\n' := by
      intro feed
      obtain ⟨later, isRest⟩ := List.head?_eq_some_iff.mp feed
      exact notFeed later isRest
    have below := @ih (front ++ ['\r']) (by simp [isText]) (byteLength_append ..)
    exact .endLine isText (.carriageReturn alone) (byteLength_append front _ ▸ below)
  | case4 offset rest ih =>
    subst isOffset
    have below := @ih (front ++ ['\n']) (by simp [isText]) (byteLength_append ..)
    exact .endLine isText (.feed rest) (byteLength_append front _ ▸ below)
  | case5 offset character rest notBoth notReturn notFeed ih =>
    subst isOffset
    have inLine : isLineEnd character = false := by
      simp [isLineEnd, show character ≠ '\n' from notFeed, show character ≠ '\r' from notReturn]
    have behind := byteLength_concat front character
    have isBehind : buffer.characters = front ++ [character] ++ rest := by simp [isText]
    have below := LaidOut.cons inLine (ih isBehind behind)
    rw [← behind, lineFrom_append isBehind, String.toList_ofList] at below
    rw [List.map_cons, lineFrom_append isText, List.takeWhile_cons_of_pos (by simp [inLine])]
    rwa [behind] at below

/-! ## Places -/

/-- Where a character of the text begins, or where the text ends. -/
def IsBoundary (buffer : SourceBuffer) (offset : Nat) : Prop :=
  ∃ front, front <+: buffer.characters ∧ byteLength front = offset

/-- The offset is behind `inLine`, which is what stands in its line in front of it. -/
inductive Marks (buffer : SourceBuffer) (offset : Nat) : (line column : Nat) → Prop
  | intro {index start : Nat} {inLine : List Char}
      (isStart : buffer.lineStarts[index]? = some start)
      (inText : inLine <+: dropBytes start buffer.characters)
      (isOffset : offset = start + byteLength inLine) :
      Marks buffer offset (index + 1) (inLine.length + 1)

/-- Character by character, each one at the end of its line or inside of it. -/
theorem Reached.append {starts : List Nat} {earlier line : List Char}
    (place : buffer.Reached starts earlier line (front ++ rest)) :
    ∃ starts behind inLine, buffer.Reached starts behind inLine rest ∧
      behind ++ inLine = earlier ++ line ++ front := by
  induction front generalizing starts earlier line with
  | nil => exact ⟨starts, earlier, line, place, by simp⟩
  | cons character front ih =>
    cases closes : closesLine character (front ++ rest).head? with
    | true =>
      obtain ⟨starts, behind, inLine, reached, same⟩ := ih (place.close closes)
      exact ⟨starts, behind, inLine, reached, by simpa using same⟩
    | false =>
      obtain ⟨starts, behind, inLine, reached, same⟩ := ih (place.extend closes)
      exact ⟨starts, behind, inLine, reached, by simpa using same⟩

theorem IsBoundary.exists_reached (boundary : buffer.IsBoundary offset) :
    ∃ starts earlier line rest, buffer.Reached starts earlier line rest ∧
      byteLength (earlier ++ line) = offset := by
  obtain ⟨front, ⟨rest, isText⟩, rfl⟩ := boundary
  obtain ⟨starts, earlier, line, place, rfl⟩ := (isText ▸ buffer.reached_nil).append
  exact ⟨starts, earlier, line, rest, place, rfl⟩

theorem IsBoundary.marks (boundary : buffer.IsBoundary offset) :
    buffer.Marks offset (buffer.locationAt offset).line (buffer.locationAt offset).column := by
  obtain ⟨starts, earlier, line, rest, place, rfl⟩ := boundary.exists_reached
  rw [place.locationAt]
  have nonempty : 0 < starts.length :=
    List.length_pos_of_mem (List.mem_of_mem_getLast? place.last)
  have isStart : buffer.lineStarts[starts.length - 1]? = some (byteLength earlier) := by
    rw [place.table, List.getElem?_append_left (by omega), ← List.getLast?_eq_getElem?, place.last]
  have inText : line <+: dropBytes (byteLength earlier) buffer.characters := by
    rw [place.text, List.append_assoc, dropBytes_append]
    exact List.prefix_append line rest
  have marks := Marks.intro isStart inText (byteLength_append earlier line)
  rwa [Nat.sub_add_cancel nonempty] at marks

variable (buffer) in
/-- The lines that have begun at an offset have begun at every later one. -/
theorem line_locationAt_mono {first second : Nat} (before : first ≤ second) :
    (buffer.locationAt first).line ≤ (buffer.locationAt second).line := by
  have narrower : buffer.lineStarts.takeWhile (· ≤ min first buffer.size) =
      (buffer.lineStarts.takeWhile (· ≤ min second buffer.size)).takeWhile
        (· ≤ min first buffer.size) := by
    rw [List.takeWhile_takeWhile]
    congr 1
    funext start
    rw [Bool.eq_iff_iff]
    simp only [decide_eq_true_eq]
    omega
  have shorter : (buffer.lineStarts.takeWhile (· ≤ min first buffer.size)).length ≤
      (buffer.lineStarts.takeWhile (· ≤ min second buffer.size)).length :=
    narrower ▸ (List.takeWhile_prefix _).length_le
  exact shorter

/-- In one line a later offset has a larger column. -/
theorem Marks.column_lt {first second line firstColumn secondColumn : Nat}
    (firstMarks : buffer.Marks first line firstColumn)
    (secondMarks : buffer.Marks second line secondColumn) (before : first < second) :
    firstColumn < secondColumn := by
  obtain ⟨firstStart, firstText, firstOffset⟩ := firstMarks
  obtain ⟨secondStart, secondText, secondOffset⟩ := secondMarks
  obtain rfl := Option.some.inj (firstStart.symm.trans secondStart)
  by_contra notBehind
  have shorter := List.prefix_of_prefix_length_le secondText firstText (by omega)
  obtain ⟨more, rfl⟩ := shorter
  rw [byteLength_append] at firstOffset
  omega

end SourceBuffer

end CFrontEnd
