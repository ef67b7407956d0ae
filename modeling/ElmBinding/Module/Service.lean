import ElmBinding.Module.Basic
import ElmBinding.Naming.Ledger
import ElmBinding.Sequence.Sorting

/-!
# Procedures of services

The methods of a service are named in the order of declaration, each before the types of
its input and output, and then listed by identifier.

Main definitions:

- Definition {lit}`Site.procedure`: the procedure of a method.
- Definition {lit}`Site.procedureGroup`: the procedures of a service.
-/

namespace ElmBinding
namespace Site

/-- The procedure of a method of a service. -/
def procedure (site : Site) (service : String) (method : Method) : Naming Procedure := do
  let id ← site.valueId method.fullName
  let input ← site.reference method.input
  let output ← site.reference method.output
  return {
    id, method := method.name, service, input, output
    clientStreaming := method.clientStreaming
    serverStreaming := method.serverStreaming
    comments := method.comments }

/-- The procedures of a service. -/
def procedureGroup (site : Site) (service : Service) : Naming ProcedureGroup := do
  let procedures ← service.methods.mapM (site.procedure service.fullName)
  return {
    label := service.name
    fullName := service.fullName
    procedures := Sequence.sortedBy Procedure.id procedures
    comments := service.comments }

end Site
end ElmBinding
