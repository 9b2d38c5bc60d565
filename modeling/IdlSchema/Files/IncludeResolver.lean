import IdlSchema.Tree.FileTree

/-!
# Finding included files

A resolver finds the file that an include directive means.  It is asked with the canonical path
of the including file and the include as it is written there, and may have effects of its own.
-/

namespace IdlSchema

/-- The file that an include was found to be, with its canonical path. -/
structure ResolvedInclude where
  path : String
  tree : FileTree

/-- A way to find included files, with effects in a monad. -/
structure IncludeResolver (m : Type → Type) where
  resolve : (includer written : String) → m (Option ResolvedInclude)

namespace IncludeResolver

variable {m : Type → Type} [Monad m]

/-- A resolver that finds nothing. -/
def none : IncludeResolver m :=
  { resolve := fun _ _ => pure Option.none }

/-- The resolver of a function. -/
def ofFunction (find : String → String → Option ResolvedInclude) : IncludeResolver m :=
  { resolve := fun includer written => pure (find includer written) }

/-- A resolver by what is written alone, which is also the canonical path. -/
def ofTable (find : String → Option FileTree) : IncludeResolver m :=
  ofFunction fun _ written => (find written).map fun tree => { path := written, tree }

/-- A resolver that keeps a list of the questions it was asked. -/
def recorded (resolver : IncludeResolver m) : IncludeResolver (StateT (List (String × String)) m) :=
  { resolve := fun includer written => do
      modify fun asked => asked ++ [(includer, written)]
      resolver.resolve includer written }

end IncludeResolver
end IdlSchema
