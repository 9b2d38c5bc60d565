/-!
# Directed graphs on indices

A graph lists the successors of each of its nodes `0, 1, …`.  Two nodes belong together when each
can be reached from the other.  The components that arise in this way are found by one depth-first
search.  A node that was met waits on a stack until its component is known; the search knows a
component when it is done with the node of it that it met first, and then the component is all that
has come onto the stack since.  A component is therefore listed after all those it points into.
-/

namespace IdlSchema

/-- A directed graph whose nodes are the indices of a list of successor lists. -/
structure Digraph where
  successorLists : List (List Nat)

namespace Digraph

/-- The number of nodes. -/
def size (graph : Digraph) : Nat :=
  graph.successorLists.length

/-- The successors of a node, in order. -/
def successors (graph : Digraph) (node : Nat) : List Nat :=
  graph.successorLists.getD node []

/-- Some nodes in ascending order. -/
def ascending (graph : Digraph) (nodes : List Nat) : List Nat :=
  (List.range graph.size).filter nodes.contains

/--
A depth-first search in progress: the place of each node among those that were met, if it was met,
the number of nodes that were met, those that wait for their component, the last one first, and the
components that are known.
-/
structure Search where
  places : List (Option Nat)
  met : Nat
  stack : List Nat
  components : List (List Nat)

namespace Search

/-- A search that has met no node. -/
def start (graph : Digraph) : Search :=
  { places := graph.successorLists.map fun _ => none, met := 0, stack := [], components := [] }

/-- Meets a node. -/
def enter (search : Search) (node : Nat) : Search :=
  { search with
    places := search.places.set node (some search.met)
    met := search.met + 1
    stack := node :: search.stack }

/-- The nodes of a stack down to a given one, and those below. -/
def splitThrough (node : Nat) : List Nat → List Nat × List Nat
  | [] => ([], [])
  | top :: below =>
      if top = node then ([top], below)
      else
        let (above, rest) := splitThrough node below
        (top :: above, rest)

/-- Takes the nodes down to a given one off the stack; they are a component. -/
def close (search : Search) (graph : Digraph) (node : Nat) : Search :=
  let (component, rest) := splitThrough node search.stack
  { search with
    stack := rest
    components := search.components ++ [graph.ascending component] }

/--
Follows an edge to a node, with a way to search on from a node that was not met.  Along with the
search goes the lowest place that was found to be in reach on the stack.
-/
def follow (connect : Search → Nat → Search × Nat) : Search × Nat → Nat → Search × Nat
  | (search, low), next =>
      match search.places[next]? with
      | some none =>
          let (search, inner) := connect search next
          (search, min low inner)
      | some (some place) => if next ∈ search.stack then (search, min low place) else (search, low)
      | none => (search, low)

end Search

/--
Searches on from a node that was not met, and finds the lowest place in reach on the stack.  Where
that is its own, the node is the first of its component.  `fuel` bounds the nodes on the way; each of
them is met on the way, so the size of the graph is enough.
-/
def connect (graph : Digraph) : Nat → Search → Nat → Search × Nat
  | 0, search, _ => (search, search.met)
  | fuel + 1, search, node =>
      let place := search.met
      let (inside, low) :=
        (graph.successors node).foldl (Search.follow (graph.connect fuel))
          (search.enter node, place)
      (if low = place then inside.close graph node else inside, low)

/-- Searches from a node unless it was met. -/
def visit (graph : Digraph) (fuel : Nat) (search : Search) (node : Nat) : Search :=
  match search.places[node]? with
  | some none => (graph.connect fuel search node).1
  | _ => search

/-- The search from all nodes in order, no more than a number of nodes deep. -/
def searchWithin (graph : Digraph) (fuel : Nat) : Search :=
  (List.range graph.size).foldl (graph.visit fuel) (.start graph)

/-- The strongly connected components, leaves first, each in ascending order. -/
def components (graph : Digraph) : List (List Nat) :=
  (graph.searchWithin graph.size).components

/-- Whether a component holds a cycle: it has several members, or one that points at itself. -/
def isCyclic (graph : Digraph) : List Nat → Bool
  | [] => false
  | [node] => (graph.successors node).contains node
  | _ => true

/--
Goes on from the last node of a path inside a component, always to the first successor that is
new or closes the path.  Where there is none, the path is closed off.
-/
def cycleFrom (graph : Digraph) (component : List Nat) (start : Nat) :
    Nat → List Nat → Nat → List Nat
  | 0, path, _ => path ++ [start]
  | fuel + 1, path, current =>
      let next? := (graph.successors current).find? fun node =>
        component.contains node && (node == start || !path.contains node)
      match next? with
      | some node =>
          if node = start then path ++ [start]
          else graph.cycleFrom component start fuel (path ++ [node]) node
      | none => path ++ [start]

/-- A closed path through a component from its lowest member, which is repeated at the end. -/
def cyclePath (graph : Digraph) : List Nat → List Nat
  | [] => []
  | start :: others =>
      graph.cycleFrom (start :: others) start (start :: others).length [start] start

/-- The names along a path, each in quotation marks. -/
def pathText (names : List String) : String :=
  " -> ".intercalate (names.map fun name => "`" ++ name ++ "`")

end Digraph
end IdlSchema
