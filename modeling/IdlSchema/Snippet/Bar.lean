import IdlSchema.Drawing.Stroke

/-!
# Bars in front of lines

A bar joins the marks at the two ends of a stretch that runs over the end of a line.  It stands in
front of the text, at its depth, on every row between them.
-/

namespace IdlSchema

/-- A bar at some depth, from one. -/
structure Bar where
  depth : Nat
  ink : Ink
  deriving DecidableEq

/-- The bars on a row. -/
abbrev Bars := List Bar

namespace Bars

/-- Whether there is a bar at a depth. -/
def hasDepth (bars : Bars) (depth : Nat) : Bool :=
  bars.any (·.depth == depth)

/-- The bars without that at a depth. -/
def without (bars : Bars) (depth : Nat) : Bars :=
  bars.filter (·.depth != depth)

/--
The bars that run through a line and those that begin on it: a mark on the line ends the bar at its
depth if there is one, and begins one if not.
-/
def through (bars : Bars) (ends : Bars) : Bars × Bars :=
  ends.foldl
    (fun (passing, begun) bar =>
      if hasDepth passing bar.depth then (without passing bar.depth, begun)
      else (passing, without begun bar.depth ++ [bar]))
    (bars, [])

theorem hasDepth_without (bars : Bars) (depth : Nat) :
    hasDepth (without bars depth) depth = false := by
  simp [hasDepth, without]

end Bars

namespace Row

/-- The row with bars in front of the text, the first at a column. -/
def withBars (row : Row) (start : Nat) (bars : Bars) : Row :=
  bars.foldl (fun row bar => row.write (start + bar.depth - 1) (Cell.ofText bar.ink "|")) row

end Row
end IdlSchema
