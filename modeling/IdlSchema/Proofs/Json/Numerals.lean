import Mathlib
import IdlSchema.Json.Reader
import IdlSchema.Json.Writer

/-!
# Numerals in a text

The text of a numeral is read back as the same numeral, sign, leading zeros and exponent included,
as long as nothing follows that goes on with it.  The numeral of an integer has the integer for its
significand, so an integer of 64 bits is never too large for a float.
-/

namespace IdlSchema
namespace Json

/-! ## Digits -/

/-- A text does not go on with a digit. -/
def NoDigit (text : List Char) : Prop :=
  ∀ c ∈ text.head?, c.isDigit = false

theorem NoDigit.cons {c : Char} {text : List Char} (other : c.isDigit = false) :
    NoDigit (c :: text) := by
  intro head member
  obtain rfl : c = head := Option.some.inj member
  exact other

/-- All digits at the front of a text are read. -/
theorem readDigits_append {digits rest : List Char} (some_digit : digits ≠ [])
    (all_digits : ∀ c ∈ digits, c.isDigit = true) (ends : NoDigit rest) :
    readDigits (digits ++ rest) = .ok (digits.map digitValue, rest) := by
  have front : (digits ++ rest).takeWhile Char.isDigit = digits := by
    rw [List.takeWhile_append_of_pos all_digits]
    cases rest with
    | nil => exact List.append_nil digits
    | cons c rest =>
        rw [List.takeWhile_cons_of_neg (by simp [ends c rfl]), List.append_nil]
  have behind : (digits ++ rest).dropWhile Char.isDigit = rest := by
    rw [List.dropWhile_append_of_pos all_digits]
    cases rest with
    | nil => rfl
    | cons c rest => rw [List.dropWhile_cons_of_neg (by simp [ends c rfl])]
  rw [readDigits, front, behind]
  simp [some_digit]

theorem toList_toString (n : Nat) : (toString n).toList = Nat.toDigits 10 n :=
  Nat.toList_repr

theorem isDigit_of_mem_decimal {n : Nat} {c : Char} (member : c ∈ Nat.toDigits 10 n) :
    c.isDigit = true :=
  Nat.isDigit_of_mem_toDigits (by decide) (by decide) member

/-- The digits of a number denote the number. -/
theorem foldl_decimal (n : Nat) :
    ((Nat.toDigits 10 n).map digitValue).foldl (fun n digit => 10 * n + digit) 0 = n := by
  have denoted := Nat.ofDigitChars_ten_toDigits (n := n)
  rw [Nat.ofDigitChars_eq_foldl] at denoted
  rw [List.foldl_map]
  exact denoted

/-- Only zero itself has a zero in front. -/
theorem digitValue_head_decimal {n : Nat} (positive : 0 < n) :
    ∀ c ∈ (Nat.toDigits 10 n).head?, digitValue c ≠ 0 := by
  induction n using Nat.strongRecOn with
  | ind n induction =>
      by_cases small : n < 10
      · rw [Nat.toDigits_of_lt_base small]
        intro c member
        obtain rfl := Option.some.inj member
        rw [digitValue]
        exact (Nat.toNat_digitChar_sub_48_of_lt_ten small).trans_ne positive.ne'
      · rw [Nat.toDigits_of_base_le (by decide) (by omega),
          List.head?_append_of_ne_nil _ Nat.toDigits_ne_nil]
        exact induction (n / 10) (by omega) (by omega)

/-- A number is read from its decimal digits. -/
theorem readWhole_decimal (n : Nat) {rest : List Char} (ends : NoDigit rest) :
    readWhole (Nat.toDigits 10 n ++ rest) = .ok (n, rest) := by
  have denoted := foldl_decimal n
  rw [readWhole, readDigits_append Nat.toDigits_ne_nil (fun _ => isDigit_of_mem_decimal) ends]
  dsimp only [Reading.andThen]
  split
  · rename_i more same
    -- A zero in front of another digit would be the head of a positive number.
    exfalso
    rcases Nat.eq_zero_or_pos n with rfl | positive
    · cases same
    · cases digits : Nat.toDigits 10 n with
      | nil => exact Nat.toDigits_ne_nil digits
      | cons c others =>
          rw [digits, List.map_cons, List.cons.injEq] at same
          exact digitValue_head_decimal positive c (by rw [digits]; rfl) same.1
  · rw [denoted]

/-! ## Numerals -/

namespace Numeral

/-- The digits behind the point are decimal digits. -/
def IsDecimal (numeral : Numeral) : Prop :=
  ∀ digit ∈ numeral.fraction, digit < 10

/-- The characters of the point and the digits behind it. -/
def fractionChars (numeral : Numeral) : List Char :=
  if numeral.fraction.isEmpty then [] else '.' :: numeral.fraction.map Nat.digitChar

/-- The characters of the exponent. -/
def exponentChars (numeral : Numeral) : List Char :=
  match numeral.exponent with
  | none => []
  | some exponent =>
      'e' :: (if exponent < 0 then '-' else '+') :: Nat.toDigits 10 exponent.natAbs

theorem toList_text (numeral : Numeral) :
    numeral.text.toList = (if numeral.negative then ['-'] else []) ++
      (Nat.toDigits 10 numeral.whole ++ (numeral.fractionChars ++ numeral.exponentChars)) := by
  have sign : (if numeral.negative then "-" else "").toList =
      if numeral.negative then ['-'] else [] := by
    split <;> rfl
  have fraction : (if numeral.fraction.isEmpty then "" else
      "." ++ String.ofList (numeral.fraction.map Nat.digitChar)).toList = numeral.fractionChars := by
    rw [fractionChars]
    split
    · rfl
    · rw [String.toList_append, String.toList_ofList (l := numeral.fraction.map Nat.digitChar)]
      exact List.singleton_append
  have exponent : ((numeral.exponent.map floatLayout.exponentText).getD "").toList =
      numeral.exponentChars := by
    rw [exponentChars]
    cases numeral.exponent with
    | none => rfl
    | some exponent =>
        rw [Option.map_some, Option.getD_some, Decimal.Layout.exponentText]
        by_cases sign : exponent < 0
        · simp only [sign, if_true, String.toList_append, toList_toString]
          rfl
        · simp only [sign, if_false, String.toList_append, toList_toString]
          rfl
  rw [text, String.toList_append, String.toList_append, String.toList_append, sign, fraction,
    exponent, toList_toString, List.append_assoc, List.append_assoc]

variable {numeral : Numeral} {rest : List Char}

theorem readExponent_chars (numeral : Numeral)
    (ends : ∀ c ∈ rest.head?, c.isDigit = false ∧ c ≠ 'e' ∧ c ≠ 'E') :
    readExponent (numeral.exponentChars ++ rest) = .ok (numeral.exponent, rest) := by
  rw [exponentChars]
  cases numeral.exponent with
  | none =>
      cases rest with
      | nil => rfl
      | cons c rest =>
          obtain ⟨_, small, capital⟩ := ends c rfl
          simp [readExponent, small, capital]
  | some exponent =>
      have digits : readDigits (Nat.toDigits 10 exponent.natAbs ++ rest) = _ :=
        readDigits_append Nat.toDigits_ne_nil (fun _ => isDigit_of_mem_decimal)
          fun c member => (ends c member).1
      have size := foldl_decimal exponent.natAbs
      by_cases sign : exponent < 0
      · have value : -(exponent.natAbs : Int) = exponent := by omega
        simp only [sign, if_true, List.cons_append, readExponent, readSignedExponent, digits,
          Reading.andThen, size, value, beq_self_eq_true, Bool.true_or]
        rfl
      · have value : (exponent.natAbs : Int) = exponent := by omega
        simp only [sign, if_false, List.cons_append, readExponent, readSignedExponent, digits,
          Reading.andThen, size, value, beq_self_eq_true, Bool.true_or, if_true, Bool.false_eq_true]
        rfl

theorem readFraction_chars (decimal : numeral.IsDecimal)
    (ends : ∀ c ∈ rest.head?, c.isDigit = false ∧ c ≠ '.') :
    readFraction (numeral.fractionChars ++ rest) = .ok (numeral.fraction, rest) := by
  rw [fractionChars]
  cases digits : numeral.fraction with
  | nil =>
      cases rest with
      | nil => rfl
      | cons c rest =>
          simp only [List.isEmpty_nil, if_true, List.nil_append]
          rw [readFraction]
          rintro rest' ⟨⟩
          exact (ends _ rfl).2 rfl
  | cons first others =>
      have small : ∀ digit ∈ first :: others, digit < 10 := digits ▸ decimal
      have values : ((first :: others).map Nat.digitChar).map digitValue = first :: others := by
        rw [List.map_map]
        refine (List.map_congr_left fun digit member => ?_).trans (List.map_id _)
        exact Nat.toNat_digitChar_sub_48_of_lt_ten (small digit member)
      have all_digits : ∀ c ∈ (first :: others).map Nat.digitChar, c.isDigit = true := by
        intro c member
        obtain ⟨digit, listed, rfl⟩ := List.mem_map.mp member
        rw [Nat.isDigit_digitChar, decide_eq_true (small digit listed)]
      have read : readDigits ((first :: others).map Nat.digitChar ++ rest) = _ :=
        readDigits_append (List.cons_ne_nil _ _) all_digits fun c member => (ends c member).1
      rw [values] at read
      simpa [readFraction] using read

/-- A numeral is read back from its text. -/
theorem readNumeral_text (decimal : numeral.IsDecimal)
    (ends : ∀ c ∈ rest.head?, c.isDigit = false ∧ c ≠ '.' ∧ c ≠ 'e' ∧ c ≠ 'E') :
    readNumeral (numeral.text.toList ++ rest) = .ok (numeral, rest) := by
  have exponent := readExponent_chars numeral fun c member =>
    ⟨(ends c member).1, (ends c member).2.2⟩
  have behind_exponent : ∀ c ∈ (numeral.exponentChars ++ rest).head?,
      c.isDigit = false ∧ c ≠ '.' := by
    rw [exponentChars]
    cases numeral.exponent with
    | none => exact fun c member => ⟨(ends c member).1, (ends c member).2.1⟩
    | some exponent =>
        intro c member
        obtain rfl := Option.some.inj member
        decide
  have fraction := readFraction_chars decimal behind_exponent
  have behind_whole : NoDigit (numeral.fractionChars ++ (numeral.exponentChars ++ rest)) := by
    rw [fractionChars]
    split
    · exact fun c member => (behind_exponent c member).1
    · exact .cons rfl
  have whole := readWhole_decimal numeral.whole behind_whole
  rw [toList_text]
  cases sign : numeral.negative with
  | true =>
      simp only [if_true, List.cons_append, List.nil_append, List.append_assoc, readNumeral, whole,
        fraction, exponent, Reading.andThen, ← sign]
  | false =>
      -- A number does not start with a sign.
      have unsigned : ∀ rest', Nat.toDigits 10 numeral.whole ++
          (numeral.fractionChars ++ (numeral.exponentChars ++ rest)) = '-' :: rest' → False := by
        intro rest' same
        cases digits : Nat.toDigits 10 numeral.whole with
        | nil => exact Nat.toDigits_ne_nil digits
        | cons c others =>
            have digit : c.isDigit = true :=
              isDigit_of_mem_decimal (n := numeral.whole) (digits ▸ List.mem_cons_self)
            rw [digits, List.cons_append, List.cons.injEq] at same
            rw [same.1] at digit
            cases digit
      simp only [Bool.false_eq_true, if_false, List.nil_append, List.append_assoc]
      rw [readNumeral]
      · simp only [whole, fraction, exponent, Reading.andThen, ← sign]
      · exact unsigned

/-! ## Numerals of floats -/

/-- The digits behind the point of a decimal in a layout are decimal digits. -/
theorem isDigit_of_mem_fraction {layout : Decimal.Layout} {decimal : Decimal} {c : Char}
    (member : c ∈ (layout.parts decimal).fraction) : c.isDigit = true := by
  rw [Decimal.Layout.parts] at member
  dsimp only at member
  split_ifs at member with positional small absent
  · rcases List.mem_append.mp member with zero | digit
    · rw [(List.mem_replicate.mp zero).2]
      rfl
    · exact isDigit_of_mem_decimal digit
  · obtain rfl := List.mem_singleton.mp member
    rfl
  · exact isDigit_of_mem_decimal (List.mem_of_mem_drop member)
  · exact isDigit_of_mem_decimal (List.mem_of_mem_drop member)

theorem digitValue_lt_ten {c : Char} (digit : c.isDigit = true) : digitValue c < 10 := by
  have bounds : 48 ≤ c.toNat ∧ c.toNat ≤ 57 := Char.isDigit_iff_toNat.mp digit
  have value : digitValue c = c.toNat - 48 := rfl
  omega

/-- The numeral of a float is decimal. -/
theorem IsDecimal.of_float {x : Float} (found : ofFloat? x = some numeral) :
    numeral.IsDecimal := by
  rw [ofFloat?] at found
  split at found
  · obtain rfl := Option.some.inj found
    intro digit member
    obtain rfl := List.mem_singleton.mp member
    decide
  · obtain rfl := Option.some.inj found
    intro digit member
    obtain ⟨c, written, rfl⟩ := List.mem_map.mp member
    exact digitValue_lt_ten (isDigit_of_mem_fraction written)
  · cases found

/-! ## Floats of integers -/

/-- Digits only add to a number. -/
theorem le_foldl (digits : List Nat) (n : Nat) :
    n ≤ digits.foldl (fun n digit => 10 * n + digit) n := by
  induction digits generalizing n with
  | nil => exact le_rfl
  | cons digit digits induction => exact le_trans (by omega) (induction (10 * n + digit))

/-- Digits that fit are taken as they are. -/
theorem takeWhole_of_le {digits : List Nat} {significand : Nat} (exponent : Int)
    (fits : digits.foldl (fun n digit => 10 * n + digit) significand ≤ significandLimit) :
    takeWhole significand exponent digits =
      (digits.foldl (fun n digit => 10 * n + digit) significand, exponent) := by
  induction digits generalizing significand with
  | nil => rfl
  | cons digit digits induction =>
      rw [takeWhole, if_pos ((le_foldl digits _).trans fits), induction fits, List.foldl_cons]

/-- An integer of 64 bits has itself for its significand. -/
theorem significand_ofInt {i : Int} (small : i.natAbs ≤ significandLimit) :
    (ofInt i).significand = (i.natAbs, 0) := by
  have value : (digitsOf i.natAbs).foldl (fun n digit => 10 * n + digit) 0 = i.natAbs :=
    foldl_decimal i.natAbs
  simp only [significand, ofInt]
  rw [takeWhole_of_le 0 (value.trans_le small), value]
  rfl

/-- An integer of 64 bits is never too large for a float. -/
theorem isSome_toFloat?_ofInt {i : Int} (small : i.natAbs ≤ significandLimit) :
    (ofInt i).toFloat?.isSome = true := by
  simp only [toFloat?, significand_ofInt small, scale, if_true, Option.map_some, Option.isSome_some]

end Numeral
end Json
end IdlSchema
