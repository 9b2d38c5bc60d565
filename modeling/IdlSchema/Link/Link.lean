import IdlSchema.Link.Constants
import IdlSchema.Link.TypedefCycle
import IdlSchema.Link.Types

/-!
# Linking

The declarations of some files become a type graph and a model in four steps: names are declared,
types are linked, typedef cycles are reported, and values are checked.  Every step goes on
after a problem, so the result tells what could be linked along with all problems.
-/

namespace IdlSchema

/-- A type graph and a model with the problems that were met on the way. -/
structure Linked where
  graph : TypeGraph
  model : Model ConstantValue
  reported : Diagnostics

namespace FileTable

/--
Links the declarations of some files of the table, in order.  The order decides how types are
numbered and in which order problems are met.
-/
def link (files : FileTable) (order : List FileId) (warnDeprecated : Bool) : Linked :=
  let (declarations, names) := (Names.declareFiles files order).run .initial
  let scope : Scope := { files, graph := names.graph, warnDeprecated }
  let (literals, graph) := (scope.linkTypes declarations).run names.graph
  let constants : ConstantScope := { files, graph, model := literals }
  let (model, checked) := constants.checkModel.run constants.initialState
  { graph
    model
    reported :=
      declarations.flatMap (·.problems) ++ scope.typeProblems declarations ++
        TypedefType.cycleProblems graph literals.typedefs ++ checked.reported }

end FileTable
end IdlSchema
