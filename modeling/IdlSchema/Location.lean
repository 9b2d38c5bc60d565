/-!
# Positions in IDL files

A position names a file and a line and a column in it, both counted from one.  Positions are
ordered by path, then line, then column, which is the order in which problems are presented.
-/

namespace IdlSchema

/-- A position inside an IDL file. -/
structure Location where
  path : String
  line : UInt32
  column : UInt32
  deriving DecidableEq, Inhabited

namespace Location

/-- The start of a file. -/
def start (path : String) : Location :=
  { path, line := 1, column := 1 }

/-- The same file at another line and column. -/
def moved (location : Location) (line column : UInt32) : Location :=
  { location with line, column }

/-- The order of presentation: by path, then line, then column. -/
def compare (a b : Location) : Ordering :=
  (Ord.compare a.path b.path).then
    ((Ord.compare a.line b.line).then (Ord.compare a.column b.column))

/-- The position as text, `path:line:column`. -/
def text (location : Location) : String :=
  location.path ++ ":" ++ toString location.line.toNat ++ ":" ++ toString location.column.toNat

@[simp]
theorem moved_path (location : Location) (line column : UInt32) :
    (location.moved line column).path = location.path := rfl

@[simp]
theorem start_path (path : String) : (start path).path = path := rfl

end Location
end IdlSchema
