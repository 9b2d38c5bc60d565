import IdlSchema.Diagnostic.Basic
import IdlSchema.Digraph
import IdlSchema.Model

/-!
# Typedefs that lead back to themselves

A typedef is another name for its target, also inside a collection, so a typedef whose target
mentions it in any number of steps stands for no type.  Fields of structs are no such steps.
-/

namespace IdlSchema
namespace TypedefType

/-- The places of the typedefs that the target of a typedef mentions. -/
def mentions (graph : TypeGraph) (typedefs : List TypedefType) (typedef : TypedefType) :
    List Nat :=
  ((graph.expression typedef.target).users.filterMap fun user =>
    typedefs.findIdx? (·.id == user)).eraseDups

/-- The graph of which typedef mentions which. -/
def mentionGraph (graph : TypeGraph) (typedefs : List TypedefType) : Digraph :=
  { successorLists := typedefs.map (mentions graph typedefs) }

/-- The problem of a component with a cycle, at its first typedef. -/
def cycleProblem (typedefs : List TypedefType) (cycles : Digraph) :
    List Nat → Option Diagnostic
  | [] => none
  | first :: others =>
      typedefs[first]?.map fun head =>
        let names := (cycles.cyclePath (first :: others)).filterMap fun place =>
          typedefs[place]?.map (·.name)
        (others.filterMap (typedefs[·]?)).foldl
          (fun diagnostic typedef =>
            diagnostic.relatedTo ("`" ++ typedef.name ++ "` is declared here") typedef.location)
          (.detailed .cyclicTypedef head.location (Digraph.pathText names))

/-- One problem for each component with a cycle. -/
def cycleProblems (graph : TypeGraph) (typedefs : List TypedefType) : Diagnostics :=
  let cycles := mentionGraph graph typedefs
  (cycles.components.filter cycles.isCyclic).filterMap (cycleProblem typedefs cycles)

end TypedefType
end IdlSchema
