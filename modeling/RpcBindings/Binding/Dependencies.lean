import RpcBindings.Binding.Resolve
import RpcBindings.Schema.Service

/-!
# Dependencies of a service

Which names of other services a service mentions, anywhere in the types of its procedures. The types wait in a work
list; a container is replaced by its elements, so the number of nodes that wait goes down with every step.
-/

namespace RpcBindings

namespace DataType

mutual

def nodes : DataType → Nat
  | missing => 1
  | primitive _ => 1
  | message _ => 1
  | container _ elements => nodesAll elements + 1
  | reference _ _ _ => 1

def nodesAll : List DataType → Nat
  | [] => 0
  | t :: ts => nodes t + nodesAll ts

end

theorem nodesAll_append (ts us : List DataType) : nodesAll (ts ++ us) = nodesAll ts + nodesAll us := by
  induction ts with
  | nil => simp [nodesAll]
  | cons t ts ih => simp [nodesAll, ih, Nat.add_assoc]

end DataType

namespace Binding

structure Dependencies where
  names : NameSet
  modules : NameSet

namespace Dependencies

def none : Dependencies := ⟨Dict.empty, Dict.empty⟩

/-- Adds a reference. Names of the own service and empty names are no dependencies. -/
def collect (own : Text) (deps : Dependencies) (service name : Text) : Dependencies :=
  if service = own ∨ service.isEmpty ∨ name.isEmpty then deps
  else ⟨deps.names.add (qualify service name), deps.modules.add (moduleName service)⟩

def collectAll (own : Text) (deps : Dependencies) : List DataType → Except TypeFault Dependencies
  | [] => .ok deps
  | .missing :: _ => .error .missing
  | .primitive _ :: work => collectAll own deps work
  | .message _ :: work => collectAll own deps work
  | .container _ elements :: work => collectAll own deps (elements ++ work)
  | .reference _ service name :: work => collectAll own (deps.collect own service name) work
termination_by work => DataType.nodesAll work
decreasing_by all_goals simp [DataType.nodesAll, DataType.nodes, DataType.nodesAll_append]

end Dependencies

def signatureTypes (p : Procedure) : List DataType := p.parameters.map (·.type) ++ p.result.toList

structure DependencyFault where
  procedure : Text
  cause : TypeFault

def DependencyFault.fault (f : DependencyFault) : Fault :=
  .within ("procedure " ++ Text.guarded f.procedure) f.cause.fault

def dependencies (s : Service) : Except DependencyFault Dependencies :=
  s.procedures.entries.foldlM (fun deps e =>
    (Dependencies.collectAll s.name deps (signatureTypes e.2)).mapError fun cause => ⟨e.1, cause⟩) Dependencies.none

end Binding

end RpcBindings
