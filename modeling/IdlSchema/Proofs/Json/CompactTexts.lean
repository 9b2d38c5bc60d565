import Mathlib
import IdlSchema.Proofs.Json.Numerals

/-!
# Reading what was written

A value that has a text is read back from it: strings with every escape, numerals digit by digit,
arrays and objects item by item.  The main result is `Json.read_compact`; it holds of every value
without an ill-formed part, whatever its depth.
-/

namespace IdlSchema
namespace Json

/-! ## Strings -/

/-- Whether a character is written by its number. -/
def isNumbered (c : Char) : Bool :=
  c.toNat < 32 && c ∉ ['\x08', '\x0c', '\n', '\r', '\t']

/-- The part of a string that is read for a character that was written. -/
def partOf (c : Char) : StringPart :=
  if isNumbered c then .unit c.toNat else .char c

/-- A control character is read from the two digits of its number. -/
theorem hexValue4?_hexDigit :
    ∀ code < 32, hexValue4? '0' '0' (hexDigit (code / 16)) (hexDigit (code % 16)) = some code := by
  decide

theorem readParts_escape (seen : List StringPart) (c : Char) (rest : List Char) :
    readParts seen (escape c ++ rest) = readParts (partOf c :: seen) rest := by
  rw [escape]
  split_ifs with quotation backslash backspace formFeed lineFeed carriage tab control
  · subst quotation; rfl
  · subst backslash; rfl
  · subst backspace; rfl
  · subst formFeed; rfl
  · subst lineFeed; rfl
  · subst carriage; rfl
  · subst tab; rfl
  · have numbered : partOf c = .unit c.toNat := by
      simp [partOf, isNumbered, backspace, formFeed, lineFeed, carriage, tab, control]
    simp only [List.cons_append, List.nil_append, readParts, hexValue4?_hexDigit c.toNat control,
      numbered]
  · have plain : partOf c = .char c := by
      simp [partOf, isNumbered, control]
    rw [List.singleton_append, plain, readParts]
    · rw [if_neg control]
    · exact quotation
    · exact fun _ _ _ _ _ same _ => backslash same
    · exact fun _ _ same _ => backslash same

/-- The parts of a string are read up to its closing mark. -/
theorem readParts_flatMap_escape (text : List Char) (seen : List StringPart) (rest : List Char) :
    readParts seen (text.flatMap escape ++ '"' :: rest) =
      .ok (seen.reverse ++ text.map partOf, rest) := by
  induction text generalizing seen with
  | nil => rw [List.flatMap_nil, List.nil_append, readParts, List.map_nil, List.append_nil]
  | cons c text induction =>
      rw [List.flatMap_cons, List.append_assoc, readParts_escape, induction, List.reverse_cons,
        List.append_assoc, List.map_cons, List.singleton_append]

theorem charsOfParts?_map_partOf (text : List Char) :
    charsOfParts? (text.map partOf) = some text := by
  induction text with
  | nil => rfl
  | cons c text induction =>
      rw [List.map_cons, partOf]
      split
      next numbered =>
        have control : c.toNat < 32 := by
          simp only [isNumbered, Bool.and_eq_true, decide_eq_true_eq] at numbered
          exact numbered.1
        -- A control character is no half of a pair, whatever follows it.
        have not_leading : isLeading c.toNat = false := by
          simp only [isLeading, Bool.and_eq_false_iff, decide_eq_false_iff_not]
          omega
        have not_trailing : isTrailing c.toNat = false := by
          simp only [isTrailing, Bool.and_eq_false_iff, decide_eq_false_iff_not]
          omega
        rw [charsOfParts?.eq_def]
        cases parts : text.map partOf with
        | nil =>
            rw [parts] at induction
            simp only [not_leading, not_trailing, induction, Char.ofNat_toNat, Bool.or_self,
              Bool.false_eq_true, if_false, Option.map_some]
        | cons part others =>
            rw [parts] at induction
            cases part <;>
              simp only [not_leading, not_trailing, induction, Char.ofNat_toNat, Bool.or_self,
                Bool.false_eq_true, if_false, Option.map_some]
      next => rw [charsOfParts?, induction, Option.map_some]

/-- The characters of a string with its marks. -/
theorem toList_quote (text : String) :
    (quote text).toList = '"' :: (text.toList.flatMap escape ++ ['"']) := by
  rw [quote, String.toList_append, String.toList_append,
    String.toList_ofList (l := text.toList.flatMap escape)]
  rfl

/-- A string is read back from what is written for it, behind the opening mark. -/
theorem readString_flatMap_escape (text : String) (rest : List Char) :
    readString (text.toList.flatMap escape ++ '"' :: rest) = .ok (some text, rest) := by
  rw [readString, readParts_flatMap_escape]
  simp only [Except.map, List.reverse_nil, List.nil_append, charsOfParts?_map_partOf,
    Option.map_some, String.ofList_toList]

/-- A key is read back from what is written for it. -/
theorem readKey_quote (key : String) (rest : List Char) :
    readKey ((quote key).toList ++ ':' :: rest) = .ok (some key, rest) := by
  have read := readString_flatMap_escape key (':' :: rest)
  rw [toList_quote, List.cons_append, List.append_assoc, List.singleton_append, readKey]
  simp only [skipGaps, List.dropWhile_cons_of_neg (show ¬isGap '"' = true by decide), read,
    Reading.andThen, readColon, List.dropWhile_cons_of_neg (show ¬isGap ':' = true by decide)]

/-! ## Values that have a text -/

/-- A value that is text in every part: nothing is ill-formed, and all digits are decimal. -/
inductive IsText : Json → Prop
  | null : IsText .null
  | bool (value : Bool) : IsText (.bool value)
  | number {numeral : Numeral} (decimal : numeral.IsDecimal) : IsText (.number numeral)
  | string (text : String) : IsText (.string text)
  | array {items : List Json} (each : ∀ item ∈ items, IsText item) : IsText (.array items)
  | object {fields : List (String × Json)} (each : ∀ field ∈ fields, IsText field.2) :
      IsText (.object fields)

/-- The characters of a value. -/
def chars (json : Json) : List Char :=
  json.compact.toList

theorem chars_null : null.chars = ['n', 'u', 'l', 'l'] := rfl

theorem chars_number (numeral : Numeral) : (number numeral).chars = numeral.text.toList := rfl

theorem chars_string (text : String) :
    (string text).chars = '"' :: (text.toList.flatMap escape ++ ['"']) :=
  toList_quote text

theorem compactItems_eq_map (items : List Json) : compactItems items = items.map compact := by
  induction items with
  | nil => rfl
  | cons item items induction => rw [compactItems, induction, List.map_cons]

/-- The text of one field of an object. -/
def fieldChars (field : String × Json) : List Char :=
  (quote field.1).toList ++ ':' :: field.2.chars

theorem toList_compactFields (fields : List (String × Json)) :
    (compactFields fields).map String.toList = fields.map fieldChars := by
  induction fields with
  | nil => rfl
  | cons field fields induction =>
      obtain ⟨key, value⟩ := field
      rw [compactFields, List.map_cons, induction, List.map_cons, fieldChars,
        String.toList_append, String.toList_append, List.append_assoc]
      rfl

/-- Some texts with commas between them. -/
def joined (texts : List (List Char)) : List Char :=
  [','].intercalate texts

theorem joined_singleton (text : List Char) : joined [text] = text :=
  List.intercalate_singleton

theorem joined_cons_cons (text next : List Char) (texts : List (List Char)) :
    joined (text :: next :: texts) = text ++ ',' :: joined (next :: texts) := by
  rw [joined, List.intercalate_cons_cons, List.append_assoc, List.singleton_append, joined]

/-- Some texts with commas between them start as the first of them does. -/
theorem joined_starts {first : List Char} {c : Char} {others : List Char}
    (same : first = c :: others) (texts : List (List Char)) :
    ∃ more, joined (first :: texts) = c :: more := by
  cases texts with
  | nil => exact ⟨others, by rw [joined_singleton, same]⟩
  | cons next texts => exact ⟨_, by rw [joined_cons_cons, same, List.cons_append]⟩

theorem chars_array (items : List Json) :
    (array items).chars = '[' :: (joined (items.map chars) ++ [']']) := by
  rw [chars, compact, String.toList_append, String.toList_append, String.toList_intercalate,
    compactItems_eq_map, List.map_map]
  rfl

theorem chars_object (fields : List (String × Json)) :
    (object fields).chars = '\x7b' :: (joined (fields.map fieldChars) ++ ['\x7d']) := by
  rw [chars, compact, String.toList_append, String.toList_append, String.toList_intercalate,
    toList_compactFields]
  rfl

/-- A character with which a value can start: no gap and no closing mark. -/
def Starts (c : Char) : Prop :=
  isGap c = false ∧ c ≠ ']' ∧ c ≠ '\x7d'

instance (c : Char) : Decidable (Starts c) :=
  inferInstanceAs (Decidable (_ ∧ _))

theorem Starts.of_isDigit {c : Char} (digit : c.isDigit = true) : Starts c := by
  refine ⟨?_, ?_, ?_⟩
  · simp only [isGap, Bool.or_eq_false_iff, beq_eq_false_iff_ne]
    refine ⟨⟨⟨?_, ?_⟩, ?_⟩, ?_⟩ <;> rintro rfl <;> cases digit
  · rintro rfl; cases digit
  · rintro rfl; cases digit

/-- A numeral starts with its sign or a digit. -/
theorem Numeral.head_text (numeral : Numeral) :
    ∃ c others, numeral.text.toList = c :: others ∧ (c = '-' ∨ c.isDigit = true) := by
  rw [Numeral.toList_text]
  cases numeral.negative with
  | true => exact ⟨'-', _, rfl, .inl rfl⟩
  | false =>
      cases digits : Nat.toDigits 10 numeral.whole with
      | nil => exact absurd digits Nat.toDigits_ne_nil
      | cons c others =>
          exact ⟨c, _, rfl, .inr
            (isDigit_of_mem_decimal (n := numeral.whole) (digits ▸ List.mem_cons_self))⟩

/-- What is written for a value starts it. -/
theorem IsText.starts {json : Json} (text : json.IsText) :
    ∃ c others, json.chars = c :: others ∧ Starts c := by
  cases text with
  | null => exact ⟨_, _, rfl, by decide⟩
  | bool value => cases value <;> exact ⟨_, _, rfl, by decide⟩
  | number decimal =>
      rename_i numeral
      obtain ⟨c, others, same, sign | digit⟩ := numeral.head_text
      · exact ⟨c, others, same, sign ▸ by decide⟩
      · exact ⟨c, others, same, .of_isDigit digit⟩
  | string text => exact ⟨_, _, chars_string text, by decide⟩
  | array each => exact ⟨_, _, chars_array _, by decide⟩
  | object each => exact ⟨_, _, chars_object _, by decide⟩

theorem IsText.chars_pos {json : Json} (text : json.IsText) : 0 < json.chars.length := by
  obtain ⟨c, others, same, _⟩ := text.starts
  rw [same]
  exact Nat.succ_pos _

theorem skipGaps_cons {c : Char} (starts : isGap c = false) (rest : List Char) :
    skipGaps (c :: rest) = c :: rest := by
  rw [skipGaps, List.dropWhile_cons_of_neg (by simp [starts])]

/-! ## Reading values -/

/-- Only a comma or a closing mark may follow a value. -/
def Closes (rest : List Char) : Prop :=
  ∀ c ∈ rest.head?, c = ',' ∨ c = ']' ∨ c = '\x7d'

theorem Closes.nil : Closes [] :=
  fun _ member => nomatch member

theorem Closes.cons {c : Char} (closing : c = ',' ∨ c = ']' ∨ c = '\x7d') (rest : List Char) :
    Closes (c :: rest) := by
  intro head member
  obtain rfl : c = head := Option.some.inj member
  exact closing

/-- A value is read back from its text, with fuel for its characters. -/
def ReadsBackWithin (json : Json) : Prop :=
  ∀ (fuel : Nat) (rest : List Char), 2 * json.chars.length ≤ fuel + 1 → Closes rest →
    readValue fuel (json.chars ++ rest) = .ok (json, rest)

/-- A sign or a digit starts a number. -/
theorem readValue_numeral {c : Char} (first : c = '-' ∨ c.isDigit = true) (fuel : Nat)
    (others : List Char) :
    readValue (fuel + 1) (c :: others) =
      (readNumeral (c :: others)).map fun (numeral, rest) => (.number numeral, rest) := by
  have starts : isGap c = false := by
    rcases first with rfl | digit
    · rfl
    · exact (Starts.of_isDigit digit).1
  have no_word : c ≠ 'n' ∧ c ≠ 't' ∧ c ≠ 'f' ∧ c ≠ '"' ∧ c ≠ '[' ∧ c ≠ '\x7b' := by
    rcases first with rfl | digit
    · decide
    · refine ⟨?_, ?_, ?_, ?_, ?_, ?_⟩ <;> rintro rfl <;> cases digit
  obtain ⟨no_null, no_true, no_false, no_string, no_array, no_object⟩ := no_word
  rw [readValue, skipGaps_cons starts]
  split
  case h_1 same => exact absurd (List.cons.inj same).1 no_null
  case h_2 same => exact absurd (List.cons.inj same).1 no_true
  case h_3 same => exact absurd (List.cons.inj same).1 no_false
  case h_4 same => exact absurd (List.cons.inj same).1 no_string
  case h_5 same => exact absurd (List.cons.inj same).1 no_array
  case h_6 same => exact absurd (List.cons.inj same).1 no_object
  case h_7 same =>
    obtain ⟨rfl, rfl⟩ := List.cons.inj same
    rw [if_pos (by simpa using first)]
  case h_8 same => cases same

/-- What does not close an array starts its items. -/
theorem readValue_array {c : Char} (starts : Starts c) (fuel : Nat) (others : List Char) :
    readValue (fuel + 1) ('[' :: c :: others) =
      (readItems fuel (c :: others)).map fun (items, rest) => (.array items, rest) := by
  rw [readValue, skipGaps_cons (show isGap '[' = false by decide)]
  simp only [skipGaps_cons starts.1]
  split
  · rename_i same
    exact absurd (List.cons.inj same).1 starts.2.1
  · rfl

/-- What does not close an object starts its fields. -/
theorem readValue_object {c : Char} (starts : Starts c) (fuel : Nat) (others : List Char) :
    readValue (fuel + 1) ('\x7b' :: c :: others) =
      (readFields fuel (c :: others)).map fun (fields, rest) => (ofFields fields, rest) := by
  rw [readValue, skipGaps_cons (show isGap '\x7b' = false by decide)]
  simp only [skipGaps_cons starts.1]
  split
  · rename_i same
    exact absurd (List.cons.inj same).1 starts.2.2
  · rfl

/-- The items of an array are read up to its closing mark. -/
theorem readItems_joined {first : Json} {items : List Json}
    (texts : ∀ item ∈ first :: items, item.IsText)
    (read : ∀ item ∈ first :: items, item.ReadsBackWithin) {fuel : Nat}
    (enough : 2 * (joined ((first :: items).map chars)).length ≤ fuel) (rest : List Char) :
    readItems fuel (joined ((first :: items).map chars) ++ ']' :: rest) =
      .ok (first :: items, rest) := by
  induction items generalizing first fuel with
  | nil =>
      rw [List.map_singleton, joined_singleton] at enough ⊢
      have positive := (texts first List.mem_cons_self).chars_pos
      obtain ⟨fuel, rfl⟩ : ∃ less, fuel = less + 1 := ⟨fuel - 1, by omega⟩
      rw [readItems, read first List.mem_cons_self fuel (']' :: rest) (by omega)
        (.cons (.inr (.inl rfl)) rest)]
      rfl
  | cons next items induction =>
      rw [List.map_cons, List.map_cons, joined_cons_cons, List.length_append,
        List.length_cons] at enough
      obtain ⟨fuel, rfl⟩ : ∃ less, fuel = less + 1 := ⟨fuel - 1, by omega⟩
      have later : readItems fuel (joined ((next :: items).map chars) ++ ']' :: rest) = _ :=
        induction (fun item member => texts item (.tail _ member))
          (fun item member => read item (.tail _ member)) (by
            rw [List.map_cons]
            omega)
      rw [List.map_cons, List.map_cons, joined_cons_cons, List.append_assoc, List.cons_append,
        readItems, read first List.mem_cons_self fuel _ (by omega) (.cons (.inl rfl) _)]
      rw [List.map_cons] at later
      simp only [Reading.andThen, skipGaps_cons (show isGap ',' = false by decide), later,
        Except.map]

/-- The fields of an object are read up to its closing mark. -/
theorem readFields_joined {first : String × Json} {fields : List (String × Json)}
    (read : ∀ field ∈ first :: fields, field.2.ReadsBackWithin) {fuel : Nat}
    (enough : 2 * (joined ((first :: fields).map fieldChars)).length ≤ fuel) (rest : List Char) :
    readFields fuel (joined ((first :: fields).map fieldChars) ++ '\x7d' :: rest) =
      .ok ((first :: fields).map fun field => (some field.1, field.2), rest) := by
  have field_length (field : String × Json) :
      field.2.chars.length + 2 ≤ (fieldChars field).length := by
    rw [fieldChars, toList_quote, List.length_append, List.length_cons, List.length_cons]
    omega
  induction fields generalizing first fuel with
  | nil =>
      rw [List.map_singleton, joined_singleton] at enough ⊢
      have length := field_length first
      obtain ⟨fuel, rfl⟩ : ∃ less, fuel = less + 1 := ⟨fuel - 1, by omega⟩
      have value := read first List.mem_cons_self fuel ('\x7d' :: rest) (by omega)
        (.cons (.inr (.inr rfl)) rest)
      rw [fieldChars, List.append_assoc, List.cons_append, readFields, readKey_quote]
      simp only [Reading.andThen, value, skipGaps_cons (show isGap '\x7d' = false by decide),
        List.map_cons, List.map_nil]
  | cons next fields induction =>
      rw [List.map_cons, List.map_cons, joined_cons_cons, List.length_append,
        List.length_cons] at enough
      have length := field_length first
      obtain ⟨fuel, rfl⟩ : ∃ less, fuel = less + 1 := ⟨fuel - 1, by omega⟩
      have later : readFields fuel (joined ((next :: fields).map fieldChars) ++ '\x7d' :: rest) =
          _ :=
        induction (fun field member => read field (.tail _ member)) (by
          rw [List.map_cons]
          omega)
      have value := read first List.mem_cons_self fuel
        (',' :: (joined (fieldChars next :: fields.map fieldChars) ++ '\x7d' :: rest)) (by omega)
        (.cons (.inl rfl) _)
      rw [List.map_cons, List.map_cons, joined_cons_cons, fieldChars, List.append_assoc,
        List.append_assoc, List.cons_append, List.cons_append, readFields, readKey_quote]
      rw [List.map_cons] at later
      simp only [Reading.andThen, value, skipGaps_cons (show isGap ',' = false by decide), later,
        Except.map, List.map_cons]

/-- Values that are restored one by one are restored as a list. -/
theorem mapM_map_eq_some {α β : Type} {encode : α → β} {decode : β → Option α} {values : List α}
    (each : ∀ value ∈ values, decode (encode value) = some value) :
    (values.map encode).mapM decode = some values := by
  induction values with
  | nil => rfl
  | cons value values induction =>
      rw [List.map_cons, List.mapM_cons, each value List.mem_cons_self,
        induction fun value member => each value (.tail _ member)]
      rfl

/-- The fields of an object whose keys are texts. -/
theorem ofFields_map (fields : List (String × Json)) :
    ofFields (fields.map fun field => (some field.1, field.2)) = .object fields := by
  rw [ofFields, mapM_map_eq_some]
  exact fun _ _ => rfl

/-- Every value that is text is read back from what is written for it. -/
theorem IsText.readsBackWithin {json : Json} (text : json.IsText) : json.ReadsBackWithin := by
  induction text with
  | null =>
      intro fuel rest enough _
      obtain ⟨fuel, rfl⟩ : ∃ less, fuel = less + 1 := ⟨fuel - 1, by
        rw [chars_null] at enough
        simp at enough
        omega⟩
      rfl
  | bool value =>
      intro fuel rest enough _
      cases value <;> cases fuel <;> first | rfl | exact absurd enough (by decide)
  | number decimal =>
      rename_i numeral
      intro fuel rest enough closes
      rw [chars_number] at enough ⊢
      obtain ⟨c, others, same, first⟩ := numeral.head_text
      have read : readNumeral (numeral.text.toList ++ rest) = _ :=
        Numeral.readNumeral_text decimal fun c member => by
          rcases closes c member with rfl | rfl | rfl <;> decide
      obtain ⟨fuel, rfl⟩ : ∃ less, fuel = less + 1 := ⟨fuel - 1, by
        rw [same, List.length_cons] at enough
        omega⟩
      rw [same, List.cons_append] at read ⊢
      rw [readValue_numeral first, read, Except.map]
  | string text =>
      intro fuel rest enough _
      rw [chars_string] at enough ⊢
      obtain ⟨fuel, rfl⟩ : ∃ less, fuel = less + 1 := ⟨fuel - 1, by
        rw [List.length_cons] at enough
        omega⟩
      rw [List.cons_append, List.append_assoc, List.singleton_append, readValue,
        skipGaps_cons (by decide)]
      simp only [readString_flatMap_escape, Except.map, ofString?]
  | array each read =>
      rename_i items
      intro fuel rest enough _
      rw [chars_array] at enough ⊢
      rw [List.length_cons, List.length_append, List.length_singleton] at enough
      obtain ⟨fuel, rfl⟩ : ∃ less, fuel = less + 1 := ⟨fuel - 1, by omega⟩
      cases items with
      | nil => rfl
      | cons first items =>
          have later : readItems fuel (joined ((first :: items).map chars) ++ ']' :: rest) = _ :=
            readItems_joined each read (by omega) rest
          obtain ⟨c, others, same, starts⟩ := (each first List.mem_cons_self).starts
          obtain ⟨more, written⟩ := joined_starts same (items.map chars)
          rw [List.cons_append, List.append_assoc, List.singleton_append]
          rw [List.map_cons, written, List.cons_append] at later ⊢
          rw [readValue_array starts, later, Except.map]
  | object each read =>
      rename_i fields
      intro fuel rest enough _
      rw [chars_object] at enough ⊢
      rw [List.length_cons, List.length_append, List.length_singleton] at enough
      obtain ⟨fuel, rfl⟩ : ∃ less, fuel = less + 1 := ⟨fuel - 1, by omega⟩
      cases fields with
      | nil => rfl
      | cons first fields =>
          have later : readFields fuel (joined ((first :: fields).map fieldChars) ++
              '\x7d' :: rest) = _ :=
            readFields_joined read (by omega) rest
          obtain ⟨others, same⟩ : ∃ others, fieldChars first = '"' :: others :=
            ⟨_, by rw [fieldChars, toList_quote, List.cons_append]⟩
          obtain ⟨more, written⟩ := joined_starts same (fields.map fieldChars)
          rw [List.cons_append, List.append_assoc, List.singleton_append]
          rw [List.map_cons, written, List.cons_append] at later ⊢
          rw [readValue_object (by decide), later, Except.map]
          exact congrArg (fun json => Except.ok (json, rest)) (ofFields_map (first :: fields))

/-- A text gives back the value that it was written for. -/
theorem read_compact {json : Json} (text : json.IsText) : read json.compact = .ok json := by
  have value := text.readsBackWithin (2 * json.chars.length + 2) [] (by omega) .nil
  rw [List.append_nil] at value
  rw [read]
  simp only [chars] at value
  simp only [value, skipGaps, List.dropWhile_nil]

end Json
end IdlSchema
