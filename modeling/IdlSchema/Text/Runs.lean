/-!
# Sets of characters as runs

A set of code points is written as the lengths of its runs: the first number counts the code points
before the first member, the second the members that follow, the third the next gap, and so on.
Whatever lies behind the last run is outside the set.
-/

namespace IdlSchema
namespace Text

/-- The lengths of the gaps and runs of a set of code points, alternately, from code point zero. -/
structure Runs where
  lengths : List Nat

namespace Runs

/-- Membership of a code point, counted from the start of the remaining runs. -/
def holdsAt : List Nat → Nat → Bool
  | gap :: run :: rest, code =>
      if code < gap then false
      else if code < gap + run then true
      else holdsAt rest (code - (gap + run))
  | _, _ => false

/-- Whether the set holds a character. -/
def contains (runs : Runs) (c : Char) : Bool :=
  holdsAt runs.lengths c.toNat

@[simp]
theorem holdsAt_nil (code : Nat) : holdsAt [] code = false := rfl

@[simp]
theorem holdsAt_zero_gap (run : Nat) (rest : List Nat) (code : Nat) (inside : code < run) :
    holdsAt (0 :: run :: rest) code = true := by
  simp [holdsAt, inside]

end Runs
end Text
end IdlSchema
