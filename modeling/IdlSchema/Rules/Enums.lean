import IdlSchema.Diagnostic.Basic
import IdlSchema.Model
import IdlSchema.Rules.Repetition

/-!
# Rules for enums

In one enum no name and no value is repeated.
-/

namespace IdlSchema
namespace EnumType

/-- The problem of a member whose name an earlier one has. -/
def repeatedName (enum : EnumType) (member first : EnumMember) : Diagnostic :=
  (Diagnostic.detailed .duplicateEnumMember member.location
    ("`" ++ member.name ++ "` is already a member of `" ++ enum.name ++ "`")).relatedTo
    "first declared here" first.location

/-- The problem of a member whose value an earlier one has. -/
def repeatedValue (member first : EnumMember) : Diagnostic :=
  (Diagnostic.detailed .duplicateEnumMember member.location
    ("`" ++ member.name ++ "` has the same value (" ++ toString member.value.toInt ++ ") as `" ++
      first.name ++ "`")).relatedTo
    ("`" ++ first.name ++ "` is declared here") first.location

/-- The problems of a member behind earlier ones. -/
def repetitions (enum : EnumType) (earlier : List EnumMember) (member : EnumMember) :
    Diagnostics :=
  ((firstWithKey? (·.name) earlier member).map (enum.repeatedName member)).toList ++
    ((firstWithKey? (·.value) earlier member).map (repeatedValue member)).toList

/-- The problems of an enum. -/
def problems (enum : EnumType) : Diagnostics :=
  (withEarlier enum.members).flatMap fun (earlier, member) => enum.repetitions earlier member

end EnumType
end IdlSchema
