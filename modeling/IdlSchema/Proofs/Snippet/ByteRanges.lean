import IdlSchema.Proofs.TextParts
import IdlSchema.Snippet.ByteRange
import IdlSchema.Snippet.Span

/-!
# Ranges of bytes are whole words

A position leads to a place in a text: in its line, at most at the end of the line, or at the end of
the text.  The range of bytes at a position starts there and holds the word that follows, or else the
one character that follows.  All cuts on the way are made between characters.
-/

namespace IdlSchema

namespace Text

variable {text front middle back : List Char}

/-! ## Cuts -/

@[simp]
theorem byteLength_nil : byteLength [] = 0 := rfl

@[simp]
theorem byteLength_cons (c : Char) (text : List Char) :
    byteLength (c :: text) = c.utf8Size + byteLength text := rfl

@[simp]
theorem byteLength_append (front back : List Char) :
    byteLength (front ++ back) = byteLength front + byteLength back := by
  induction front with
  | nil => exact (Nat.zero_add _).symm
  | cons c front induction =>
      rw [List.cons_append, byteLength_cons, induction, byteLength_cons, Nat.add_assoc]

theorem byteLength_eq_zero_iff : byteLength text = 0 ↔ text = [] := by
  cases text with
  | nil => simp
  | cons c text =>
      rw [byteLength_cons]
      have size := c.utf8Size_pos
      exact iff_of_false (by omega) (List.cons_ne_nil c text)

theorem utf8ByteSize_eq (text : String) : text.utf8ByteSize = byteLength text.toList := by
  have each (chars : List Char) : (String.ofList chars).utf8ByteSize = byteLength chars := by
    induction chars with
    | nil => rfl
    | cons c chars induction =>
        rw [String.ofList_cons, String.utf8ByteSize_append, String.utf8ByteSize_singleton,
          induction, byteLength_cons]
  rw [← each, String.ofList_toList]

theorem splitBytes?_append (front back : List Char) :
    splitBytes? (byteLength front) (front ++ back) = some (front, back) := by
  induction front with
  | nil => rw [byteLength_nil, List.nil_append, splitBytes?]
  | cons c front induction =>
      obtain ⟨size, positive⟩ := Nat.exists_eq_add_of_lt c.utf8Size_pos
      rw [Nat.zero_add] at positive
      have whole : byteLength (c :: front) = size + byteLength front + 1 := by
        rw [byteLength_cons, positive]
        omega
      rw [List.cons_append, whole, splitBytes?, if_pos (by omega), positive]
      have left : size + byteLength front + 1 - (size + 1) = byteLength front := by omega
      rw [left, induction]
      rfl

/-- A text is cut where parts of it meet. -/
theorem slice?_append (front middle back : List Char) :
    slice? (front ++ middle ++ back) (byteLength front) (byteLength front + byteLength middle) =
      some middle := by
  rw [slice?, if_pos (Nat.le_add_right ..), List.append_assoc, splitBytes?_append,
    Nat.add_sub_cancel_left]
  dsimp only [Option.bind_eq_bind, Option.bind_some]
  rw [splitBytes?_append]
  rfl

theorem slice?_rest (front back : List Char) :
    slice? (front ++ back) (byteLength front) (byteLength (front ++ back)) = some back := by
  have whole := slice?_append front back []
  rwa [List.append_nil, ← byteLength_append] at whole

theorem elim_add (found : Option Nat) (start length : Nat) :
    found.elim (start + length) (start + ·) = start + found.getD length := by
  cases found <;> rfl

/-- What is in front of the first character with a property, or else everything. -/
theorem getD_findByte? (p : Char → Bool) (text : List Char) :
    (findByte? p text).getD (byteLength text) = byteLength (text.takeWhile (!p ·)) := by
  induction text with
  | nil => rfl
  | cons c text induction =>
      rw [findByte?, List.takeWhile_cons]
      cases p c with
      | true => rfl
      | false =>
          rw [if_neg Bool.false_ne_true, Bool.not_false, if_pos rfl, byteLength_cons,
            byteLength_cons, ← induction]
          cases findByte? p text <;> rfl

theorem getD_byteOfChar? (text : List Char) (index : Nat) :
    (byteOfChar? text index).getD (byteLength text) = byteLength (text.take index) := by
  rw [byteOfChar?]
  split
  · rfl
  · rename_i outside
    rw [List.take_of_length_le (Nat.le_of_not_lt outside)]
    rfl


/-! ## Lines -/

/-- The lines of a text: what stands between its line feeds. -/
def lines (text : List Char) : List (List Char) :=
  partsBetween (· == '\n') text

theorem lines_of_plain (plain : '\n' ∉ text) : lines text = [text] :=
  partsBetween_of_plain fun _ member => beq_false_of_ne fun same => plain (same ▸ member)

theorem lines_append {line : List Char} (rest : List Char) (plain : '\n' ∉ line) :
    lines (line ++ '\n' :: rest) = line :: lines rest :=
  partsBetween_append (fun _ member => beq_false_of_ne fun same => plain (same ▸ member))
    (beq_self_eq_true '\n')

theorem length_lines_pos (text : List Char) : 0 < (lines text).length :=
  List.length_pos_of_ne_nil (partsBetween_ne_nil _ text)

theorem flatten_linesWithBreaks (text : List Char) : (linesWithBreaks text).flatten = text := by
  induction text with
  | nil => rfl
  | cons c text induction =>
      rw [linesWithBreaks]
      split
      · rw [List.flatten_cons, induction]
        rfl
      · cases broken : linesWithBreaks text <;> rw [broken] at induction <;> rw [← induction] <;> rfl

theorem length_linesWithBreaks_le (plain : '\n' ∉ text) : (linesWithBreaks text).length ≤ 1 := by
  induction text with
  | nil => exact Nat.zero_le 1
  | cons c text induction =>
      obtain ⟨other, plain⟩ := not_or.mp (mt List.mem_cons.mpr plain)
      have before := induction plain
      rw [linesWithBreaks, if_neg (Ne.symm other)]
      cases broken : linesWithBreaks text with
      | nil => exact Nat.le_refl 1
      | cons line lines =>
          rw [broken] at before
          exact before

theorem linesWithBreaks_append {line : List Char} (rest : List Char) (plain : '\n' ∉ line) :
    linesWithBreaks (line ++ '\n' :: rest) = (line ++ ['\n']) :: linesWithBreaks rest := by
  induction line with
  | nil => rw [List.nil_append, linesWithBreaks, if_pos rfl, List.nil_append]
  | cons c line induction =>
      obtain ⟨other, plain⟩ := not_or.mp (mt List.mem_cons.mpr plain)
      rw [List.cons_append, linesWithBreaks, if_neg (Ne.symm other), induction plain]
      rfl

theorem dropLines_zero (text : List Char) : Span.dropLines 0 text = text := by
  rw [Span.dropLines]

theorem dropLines_succ_of_plain (index : Nat) (plain : '\n' ∉ text) :
    Span.dropLines (index + 1) text = [] := by
  induction text with
  | nil => rfl
  | cons c text induction =>
      obtain ⟨other, plain⟩ := not_or.mp (mt List.mem_cons.mpr plain)
      rw [Span.dropLines, if_neg (Ne.symm other), induction plain]

theorem dropLines_succ_append {line : List Char} (index : Nat) (rest : List Char)
    (plain : '\n' ∉ line) :
    Span.dropLines (index + 1) (line ++ '\n' :: rest) = Span.dropLines index rest := by
  induction line with
  | nil => rw [List.nil_append, Span.dropLines, if_pos rfl]
  | cons c line induction =>
      obtain ⟨other, plain⟩ := not_or.mp (mt List.mem_cons.mpr plain)
      rw [List.cons_append, Span.dropLines, if_neg (Ne.symm other), induction plain]

/--
A text around one of its lines, which are counted from zero.  A line that the text does not have is
empty and stands at the end.
-/
structure Around (text : List Char) (index : Nat) (front line behind : List Char) : Prop where
  whole : text = front ++ (line ++ behind)
  broken : ((linesWithBreaks text).take index).flatten = front
  dropped : Span.dropLines index text = line ++ behind
  plain : '\n' ∉ line
  own_line : line = (lines text)[index]?.getD []
  own_front : index < (lines text).length →
    front = ((lines text).take index).flatMap (· ++ ['\n'])
  followed : index + 1 < (lines text).length → behind.head? = some '\n'
  last : (lines text).length ≤ index + 1 → behind = []

/-- Every line stands somewhere.  The induction follows the line feeds in front of it. -/
theorem exists_around (text : List Char) (index : Nat) :
    ∃ front line behind, Around text index front line behind := by
  induction index generalizing text with
  | zero =>
      by_cases broken : '\n' ∈ text
      · obtain ⟨line, rest, rfl, plain⟩ := List.eq_append_cons_of_mem broken
        refine ⟨[], line, '\n' :: rest, rfl, rfl, dropLines_zero _, plain, ?_, fun _ => rfl,
          fun _ => rfl, ?_⟩
        · rw [lines_append rest plain]
          rfl
        · rw [lines_append rest plain, List.length_cons]
          have some := length_lines_pos rest
          omega
      · refine ⟨[], text, [], ?_, rfl, ?_, broken, ?_, fun _ => rfl, ?_, fun _ => rfl⟩
        · rw [List.append_nil, List.nil_append]
        · rw [List.append_nil, dropLines_zero]
        · rw [lines_of_plain broken]
          rfl
        · rw [lines_of_plain broken]
          exact fun less => absurd less (Nat.lt_irrefl 1)
  | succ index induction =>
      by_cases broken : '\n' ∈ text
      · obtain ⟨first, rest, rfl, plain⟩ := List.eq_append_cons_of_mem broken
        obtain ⟨front, line, behind, around⟩ := induction rest
        refine ⟨first ++ '\n' :: front, line, behind, ?_, ?_, ?_, around.plain, ?_, ?_, ?_, ?_⟩
        · rw [List.append_assoc, List.cons_append, ← around.whole]
        · rw [linesWithBreaks_append rest plain, List.take_succ_cons, List.flatten_cons,
            around.broken, List.append_assoc]
          rfl
        · rw [dropLines_succ_append index rest plain, around.dropped]
        · rw [lines_append rest plain, List.getElem?_cons_succ, around.own_line]
        · rw [lines_append rest plain, List.take_succ_cons, List.flatMap_cons, List.length_cons]
          intro less
          rw [← around.own_front (Nat.lt_of_succ_lt_succ less), List.append_assoc]
          rfl
        · rw [lines_append rest plain, List.length_cons]
          exact fun less => around.followed (Nat.lt_of_succ_lt_succ less)
        · rw [lines_append rest plain, List.length_cons]
          exact fun less => around.last (Nat.le_of_succ_le_succ less)
      · have one := lines_of_plain broken
        refine ⟨text, [], [], ?_, ?_, dropLines_succ_of_plain index broken, List.not_mem_nil,
          ?_, ?_, ?_, fun _ => rfl⟩
        · rw [List.append_nil, List.append_nil]
        · have single := length_linesWithBreaks_le broken
          rw [List.take_of_length_le (by omega), flatten_linesWithBreaks]
        · rw [one]
          rfl
        · rw [one]
          exact fun less => absurd less (Nat.not_lt.mpr (Nat.le_add_left 1 index))
        · rw [one]
          exact fun less => absurd less (by simp)

namespace Around

variable {index : Nat} {line : List Char}

theorem takeWhile_dropped (around : Around text index front line behind) :
    (line ++ behind).takeWhile (· != '\n') = line := by
  have inside : ∀ c ∈ line, (c != '\n') = true :=
    fun c member => bne_iff_ne.mpr fun same => around.plain (same ▸ member)
  rw [List.takeWhile_append_of_pos inside]
  rcases Nat.lt_or_ge (index + 1) (lines text).length with more | last
  · obtain ⟨rest, rfl⟩ := List.head?_eq_some_iff.mp (around.followed more)
    rw [List.takeWhile_cons, if_neg (by simp), List.append_nil]
  · rw [around.last last, List.takeWhile_nil, List.append_nil]

theorem whole_at (around : Around text index front line behind) (column : Nat) :
    text = front ++ line.take column ++ (line.drop column ++ behind) := by
  rw [around.whole, List.append_assoc, ← List.append_assoc (line.take column),
    List.take_append_drop]

end Around

/-! ## The characters at a place -/

/-- The word at the start of the rest of a line, or else the character there or behind the line. -/
def wordOrNext (rest behind : List Char) : List Char :=
  if rest.takeWhile isWordCharacter = [] then (rest ++ behind).take 1
  else rest.takeWhile isWordCharacter

variable {rest behind : List Char}

theorem exists_wordOrNext_append (rest behind : List Char) :
    ∃ back, rest ++ behind = wordOrNext rest behind ++ back := by
  rw [wordOrNext]
  split
  · exact ⟨(rest ++ behind).drop 1, (List.take_append_drop 1 _).symm⟩
  · refine ⟨rest.dropWhile isWordCharacter ++ behind, ?_⟩
    rw [← List.append_assoc, List.takeWhile_append_dropWhile]

theorem append_eq_nil_of_wordOrNext (none : wordOrNext rest behind = []) : rest ++ behind = [] := by
  rw [wordOrNext] at none
  split at none
  · exact (List.take_eq_nil_iff.mp none).resolve_left Nat.one_ne_zero
  · contradiction

theorem wordOrNext_of_word {c : Char} (first : rest.head? = some c) (word : isWordCharacter c) :
    wordOrNext rest behind = rest.takeWhile isWordCharacter := by
  obtain ⟨others, rfl⟩ := List.head?_eq_some_iff.mp first
  rw [wordOrNext, List.takeWhile_cons, if_pos word, if_neg (List.cons_ne_nil c _)]

theorem wordOrNext_of_not_word {c : Char} (first : rest.head? = some c)
    (other : ¬ isWordCharacter c) : wordOrNext rest behind = [c] := by
  obtain ⟨others, rfl⟩ := List.head?_eq_some_iff.mp first
  rw [wordOrNext, List.takeWhile_cons, if_neg other, if_pos rfl]
  rfl

end Text

namespace Location

open Text

variable {text front line behind : List Char} {location : Location}

/-- The range of bytes starts behind the columns in front of it and holds the word. -/
theorem byteRange?_eq (around : Around text (location.line.toNat - 1) front line behind) :
    let before := front ++ line.take (location.column.toNat - 1)
    let word := wordOrNext (line.drop (location.column.toNat - 1)) behind
    location.byteRange? text = some (byteLength before, byteLength before + byteLength word) := by
  set column := location.column.toNat - 1 with column_eq
  intro before word
  have whole := around.whole_at column
  have ownLength : byteLength front + byteLength line =
      byteLength before + byteLength (line.drop column) := by
    rw [← byteLength_append, ← byteLength_append, List.append_assoc, List.take_append_drop]
  -- The four slices are made where the parts of the text meet.
  have fromLine : slice? text (byteLength front) (byteLength text) = some (line ++ behind) := by
    rw [around.whole]
    exact slice?_rest front (line ++ behind)
  have ownLine : slice? text (byteLength front) (byteLength front + byteLength line) =
      some line := by
    rw [around.whole, ← List.append_assoc]
    exact slice?_append front line behind
  have rest : slice? text (byteLength before) (byteLength front + byteLength line) =
      some (line.drop column) := by
    rw [ownLength, whole, ← List.append_assoc]
    exact slice?_append before (line.drop column) behind
  have fromStart : slice? text (byteLength before) (byteLength text) =
      some (line.drop column ++ behind) := by
    rw [whole]
    exact slice?_rest before (line.drop column ++ behind)
  -- The places that are searched for are where the parts meet as well.
  have lineEnd : (findByte? (· == '\n') (line ++ behind)).elim (byteLength text)
      (byteLength front + ·) = byteLength front + byteLength line := by
    rw [around.whole, byteLength_append front, elim_add, getD_findByte?]
    exact congrArg (byteLength front + byteLength ·) around.takeWhile_dropped
  have start : (byteOfChar? line column).elim (byteLength front + byteLength line)
      (byteLength front + ·) = byteLength before := by
    rw [elim_add, getD_byteOfChar?, byteLength_append]
  have wordLength : (findByte? (!isWordCharacter ·) (line.drop column)).getD
      (byteLength front + byteLength line - byteLength before) =
        byteLength ((line.drop column).takeWhile isWordCharacter) := by
    rw [ownLength, Nat.add_sub_cancel_left, getD_findByte?]
    simp only [Bool.not_not]
  rw [byteRange?, around.broken, fromLine]
  simp only [Option.bind_eq_bind, Option.bind_some, ← column_eq, lineEnd, ownLine, start, rest,
    wordLength, fromStart, byteLength_eq_zero_iff, word, wordOrNext]
  split
  · cases line.drop column ++ behind <;> rfl
  · rfl

/-- The stretch that is drawn counts the same places in characters. -/
theorem ofLocation_eq (around : Around text (location.line.toNat - 1) front line behind) :
    let before := front ++ line.take (location.column.toNat - 1)
    let word := wordOrNext (line.drop (location.column.toNat - 1)) behind
    Span.ofLocation location text = ⟨before.length, before.length + word.length⟩ := by
  set column := location.column.toNat - 1 with column_eq
  intro before word
  have rest : Span.restOfLine (location.line.toNat - 1) column text = line.drop column := by
    rw [Span.restOfLine, around.dropped, around.takeWhile_dropped]
  have start : Span.startOf (location.line.toNat - 1) column text = before.length := by
    rw [Span.startOf, rest, around.dropped, around.takeWhile_dropped, around.whole]
    simp only [before, List.length_append, List.length_take, List.length_drop]
    omega
  have whole : text.length = before.length + (line.drop column ++ behind).length := by
    rw [← List.length_append, ← around.whole_at column]
  rw [Span.ofLocation, Span.wordAt, ← column_eq, rest, start]
  cases taken : (line.drop column).takeWhile isWordCharacter with
  | nil =>
      have stop : min (before.length + 1) text.length = before.length + word.length := by
        simp only [word, wordOrNext, taken, if_pos, List.length_take, whole]
        omega
      exact congrArg _ stop
  | cons c others =>
      have run : word = c :: others := by
        simp only [word, wordOrNext, taken, reduceCtorEq, if_false]
      rw [run]
      rfl

end Location

namespace Text

theorem isValid_byteLength {text : String} {front back : List Char}
    (whole : text.toList = front ++ back) : String.Pos.Raw.IsValid text ⟨byteLength front⟩ := by
  refine String.Pos.Raw.isValid_iff_exists_append.mpr ⟨.ofList front, .ofList back, ?_, ?_⟩
  · rw [← String.ofList_append, ← whole, String.ofList_toList]
  · rw [String.Pos.Raw.ext_iff, String.byteIdx_rawEndPos, utf8ByteSize_eq, String.toList_ofList]

/--
A range of bytes of a text that belongs to a column of a line, both counted from zero: the word
there, or else one character.  Behind the end of a line it is the line feed, and behind the end of the
text it is empty.
-/
structure WordRange (text : String) (index column start stop : Nat) : Prop where
  ordered : start ≤ stop
  inside : stop ≤ text.utf8ByteSize
  start_valid : String.Pos.Raw.IsValid text ⟨start⟩
  stop_valid : String.Pos.Raw.IsValid text ⟨stop⟩
  empty : start = stop → start = text.utf8ByteSize
  start_eq : ∀ own, (lines text.toList)[index]? = some own →
    start = byteLength (((lines text.toList).take index).flatMap (· ++ ['\n']) ++ own.take column)
  word : ∀ own c, (lines text.toList)[index]? = some own → own[column]? = some c →
    isWordCharacter c →
      slice? text.toList start stop = some ((own.drop column).takeWhile isWordCharacter)
  character : ∀ own c, (lines text.toList)[index]? = some own → own[column]? = some c →
    ¬ isWordCharacter c → slice? text.toList start stop = some [c]
  lineFeed : ∀ own, (lines text.toList)[index]? = some own → own.length ≤ column →
    index + 1 < (lines text.toList).length → slice? text.toList start stop = some ['\n']
  last : ∀ own, (lines text.toList)[index]? = some own → own.length ≤ column →
    (lines text.toList).length = index + 1 → start = text.utf8ByteSize
  outside : (lines text.toList).length ≤ index → start = text.utf8ByteSize

/-- A word behind the columns in front of it is a range of bytes as it should be. -/
theorem Around.wordRange {text : String} {index : Nat} {front line behind : List Char}
    (around : Around text.toList index front line behind) (column : Nat) :
    let before := front ++ line.take column
    let word := wordOrNext (line.drop column) behind
    WordRange text index column (byteLength before) (byteLength before + byteLength word) := by
  intro before word
  have whole := around.whole_at column
  obtain ⟨back, rest_eq⟩ := exists_wordOrNext_append (line.drop column) behind
  have cut : text.toList = before ++ word ++ back := by
    rw [whole, rest_eq, ← List.append_assoc]
  have all : text.utf8ByteSize = byteLength before + byteLength word + byteLength back := by
    rw [utf8ByteSize_eq, cut, byteLength_append, byteLength_append]
  have slice : slice? text.toList (byteLength before) (byteLength before + byteLength word) =
      some word := by
    rw [cut]
    exact slice?_append before word back
  have at_end (none : line.drop column ++ behind = []) :
      byteLength before = text.utf8ByteSize := by
    rw [utf8ByteSize_eq, whole, none, List.append_nil]
  have own {other : List Char} (found : (lines text.toList)[index]? = some other) :
      line = other := by
    rw [around.own_line, found, Option.getD_some]
  exact {
    ordered := Nat.le_add_right ..
    inside := by omega
    start_valid := isValid_byteLength whole
    stop_valid := by
      rw [← byteLength_append]
      exact isValid_byteLength cut
    empty := by
      intro same
      have none : word = [] := byteLength_eq_zero_iff.mp (by omega)
      exact at_end (append_eq_nil_of_wordOrNext none)
    start_eq := by
      intro other found
      rw [← own found, ← around.own_front (List.getElem?_eq_some_iff.mp found).1]
    word := by
      intro other c found first isWord
      rw [← own found] at first ⊢
      rw [← List.head?_drop] at first
      rw [slice, show word = _ from wordOrNext_of_word first isWord]
    character := by
      intro other c found first isOther
      rw [← own found, ← List.head?_drop] at first
      rw [slice, show word = _ from wordOrNext_of_not_word first isOther]
    lineFeed := by
      intro other found short more
      rw [← own found] at short
      obtain ⟨others, rfl⟩ := List.head?_eq_some_iff.mp (around.followed more)
      rw [slice]
      simp only [word, List.drop_of_length_le short]
      rfl
    last := by
      intro other found short final
      rw [← own found] at short
      exact at_end (by rw [List.drop_of_length_le short, around.last final.le, List.append_nil])
    outside := by
      intro few
      have none : line = [] := by
        rw [around.own_line, List.getElem?_eq_none few, Option.getD_none]
      refine at_end ?_
      rw [none, around.last (Nat.le_succ_of_le few), List.drop_nil, List.append_nil] }

end Text

/--
The range of bytes at a position is found in every text, and it is the word there, or else one
character.  The stretch that is drawn starts and ends at the same places.
-/
theorem Location.underlinesWord (location : Location) (text : String) :
    let span := Span.ofLocation location text.toList
    let start := Text.byteLength (text.toList.take span.start)
    let stop := Text.byteLength (text.toList.take span.stop)
    location.byteRange? text.toList = some (start, stop) ∧
      Text.WordRange text (location.line.toNat - 1) (location.column.toNat - 1) start stop ∧
        span.stop ≤ text.length := by
  intro span start stop
  obtain ⟨front, line, behind, around⟩ := Text.exists_around text.toList (location.line.toNat - 1)
  set column := location.column.toNat - 1
  set before := front ++ line.take column
  set word := Text.wordOrNext (line.drop column) behind
  have span_eq : span = ⟨before.length, before.length + word.length⟩ := ofLocation_eq around
  obtain ⟨back, rest_eq⟩ := Text.exists_wordOrNext_append (line.drop column) behind
  have cut : text.toList = before ++ word ++ back := by
    rw [around.whole_at column, rest_eq, ← List.append_assoc]
  have start_eq : start = Text.byteLength before := by
    simp only [start, span_eq, cut, List.append_assoc, List.take_left]
  have stop_eq : stop = Text.byteLength before + Text.byteLength word := by
    rw [← Text.byteLength_append]
    simp only [stop, span_eq, cut, ← List.length_append, List.take_left]
  have inside : span.stop ≤ text.length := by
    have part := (List.prefix_append (before ++ word) back).length_le
    rw [← cut, String.length_toList, List.length_append] at part
    rwa [span_eq]
  refine ⟨?_, ?_, inside⟩
  · rw [start_eq, stop_eq]
    exact byteRange?_eq around
  · rw [start_eq, stop_eq]
    exact around.wordRange column

/-- Columns count characters, and the range counts bytes. -/
example : Location.byteRange? ⟨"a.thrift", 1, 7⟩ "// éé Foo\nstruct A {}\n".toList = some (8, 11) := by
  decide

end IdlSchema
