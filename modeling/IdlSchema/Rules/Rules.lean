import IdlSchema.Rules.Enums
import IdlSchema.Rules.Services

/-!
# Rules for a model

All rules that go beyond the form of single declarations.  They are independent of one another,
and each reports every violation.
-/

namespace IdlSchema
namespace Model

/-- All violations of rules in a model. -/
def problems {ν : Type} (model : Model ν) (graph : TypeGraph) : Diagnostics :=
  model.structs.flatMap (·.problems) ++
    model.enums.flatMap (·.problems) ++
    model.services.flatMap (fun service => service.methods.flatMap (Method.problems graph)) ++
    ServiceType.problems graph model.services

end Model
end IdlSchema
