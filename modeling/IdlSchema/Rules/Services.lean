import IdlSchema.Digraph
import IdlSchema.Rules.Fields

/-!
# Rules for services

Methods throw exceptions only, and a oneway method neither returns nor throws anything.  A service
builds on a service and not, in any number of steps, on itself; no method has the name of an
earlier method of the service or of a method of a service it builds on.
-/

namespace IdlSchema

variable {ν : Type}

namespace Method

/-- The problem of an exception that is of another type. -/
def exceptionProblems (graph : TypeGraph) (exception : Field ν) : Diagnostics :=
  if graph.isInvalid exception.type || graph.isException exception.type then []
  else
    [.detailed .invalidExceptionType exception.location (graph.typeName exception.type)]

/-- The problem of a oneway method that returns something. -/
def returnProblems (graph : TypeGraph) (method : Method ν) : Diagnostics :=
  if graph.isVoid method.returnType || graph.isInvalid method.returnType then []
  else
    [(Diagnostic.detailed .oneWayReturnType method.location method.name).withHint
      ("declared return type is `" ++ graph.typeName method.returnType ++ "`")]

/-- The problem of a oneway method that throws something. -/
def throwProblems (method : Method ν) : Diagnostics :=
  if method.exceptions.isEmpty then []
  else [.detailed .oneWayThrows method.location method.name]

/-- The problems of a method. -/
def problems (graph : TypeGraph) (method : Method ν) : Diagnostics :=
  Field.listProblems .parameter method.parameters ++
    Field.listProblems .exception method.exceptions ++
    method.exceptions.flatMap (exceptionProblems graph) ++
    if method.oneWay then method.returnProblems graph ++ method.throwProblems else []

end Method

namespace ServiceType

/-- The place of the service that a service builds on, behind any typedefs. -/
def basePlace? (graph : TypeGraph) (services : List (ServiceType ν)) (service : ServiceType ν) :
    Option Nat := do
  let base ← graph.trueType (← service.base?)
  services.findIdx? (·.id == base)

/-- The graph of which service builds on which. -/
def baseGraph (graph : TypeGraph) (services : List (ServiceType ν)) : Digraph :=
  { successorLists := services.map fun service => (basePlace? graph services service).toList }

/-- The problem of a service that builds on something else. -/
def baseProblems (graph : TypeGraph) (service : ServiceType ν) : Diagnostics :=
  match service.base? with
  | some base =>
      if graph.isService base || graph.isInvalid base then []
      else [.detailed .invalidServiceExtends service.location (graph.typeName base)]
  | none => []

/-- The problem of a component of services that build on one another. -/
def cycleProblem (services : List (ServiceType ν)) (bases : Digraph) :
    List Nat → Option Diagnostic
  | [] => none
  | first :: others =>
      services[first]?.map fun head =>
        let names := (bases.cyclePath (first :: others)).filterMap fun place =>
          services[place]?.map (·.name)
        .detailed .cyclicServiceInheritance head.location (Digraph.pathText names)

/-- One problem for each cycle of services that build on one another. -/
def cycleProblems (services : List (ServiceType ν)) (bases : Digraph) : Diagnostics :=
  (bases.components.filter bases.isCyclic).filterMap (cycleProblem services bases)

/--
The places of the services that a service builds on, nearest first, up to the first that was
passed before.  `fuel` bounds their number.
-/
def ancestorsFrom (bases : Digraph) : Nat → List Nat → Nat → List Nat
  | 0, _, _ => []
  | fuel + 1, passed, current =>
      match (bases.successors current).head? with
      | some base =>
          if base ∈ passed then []
          else base :: ancestorsFrom bases fuel (base :: passed) base
      | none => []

/-- The places of the services that a service builds on, nearest first, itself left out. -/
def ancestors (bases : Digraph) (place : Nat) : List Nat :=
  ancestorsFrom bases bases.size [place] place

/-- The nearest of some services that has a method with a name, and that method. -/
def inherited? (services : List (ServiceType ν)) (ancestors : List Nat) (name : String) :
    Option (ServiceType ν × Method ν) :=
  (ancestors.filterMap (services[·]?)).findSome? fun base =>
    (base.method? name).map fun method => (base, method)

/-- The problem of a method whose name an earlier method of the service has. -/
def repeatedMethod (method first : Method ν) : Diagnostic :=
  (Diagnostic.detailed .duplicateMethod method.location method.name).relatedTo
    "first declared here" first.location

/-- The problem of a method whose name a method of another service has. -/
def inheritedMethod (method : Method ν) (base : ServiceType ν) (first : Method ν) : Diagnostic :=
  (Diagnostic.detailed .duplicateMethod method.location method.name).relatedTo
    ("inherited from `" ++ base.name ++ "`") first.location

/-- The problem of a method behind earlier ones of its service, and below its ancestors. -/
def methodProblem? (services : List (ServiceType ν)) (ancestors : List Nat)
    (earlier : List (Method ν)) (method : Method ν) : Option Diagnostic :=
  match firstWithKey? (·.name) earlier method with
  | some first => some (repeatedMethod method first)
  | none =>
      (inherited? services ancestors method.name).map fun (base, first) =>
        inheritedMethod method base first

/-- The problems of the method names of the service at a place. -/
def methodProblems (services : List (ServiceType ν)) (bases : Digraph) (place : Nat)
    (service : ServiceType ν) : Diagnostics :=
  (withEarlier service.methods).filterMap fun (earlier, method) =>
    methodProblem? services (ancestors bases place) earlier method

/-- The problems of services among one another. -/
def problems (graph : TypeGraph) (services : List (ServiceType ν)) : Diagnostics :=
  let bases := baseGraph graph services
  services.flatMap (baseProblems graph) ++ cycleProblems services bases ++
    services.zipIdx.flatMap fun (service, place) => methodProblems services bases place service

end ServiceType
end IdlSchema
