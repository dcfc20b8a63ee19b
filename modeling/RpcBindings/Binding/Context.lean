import RpcBindings.Binding.Dependencies
import RpcBindings.Binding.Partition

/-!
# The rendering context of a service

Everything a template needs to know about a service. A fault in any part of the service is a fault of the whole.
-/

namespace RpcBindings.Binding

structure EnumMember where
  name : Text
  value : Int32
  deriving DecidableEq

structure EnumDef where
  name : Text
  doc : Text
  values : List EnumMember
  deriving DecidableEq

structure Context where
  name : Text
  module : Text
  id : UInt32
  doc : Text
  source : Text
  dependencies : List Text
  imports : List Text
  classes : List ClassMethods
  procedures : List Signature
  enums : List EnumDef
  deriving DecidableEq

/-- A member whose value is no signed number of 32 bits. -/
structure EnumFault where
  enumeration : Text
  member : Text
  deriving DecidableEq

def EnumFault.fault (f : EnumFault) : Fault :=
  .hinted "kRPC encodes enumeration values as signed 32-bit integers"
    (.marked .malformedEnum
      (.within ("enumeration " ++ Text.guarded f.enumeration ++ " value " ++ Text.guarded f.member)
        (.foreign "out of range")))

def buildMembers (enumeration : Text) : List Member → Except EnumFault (List EnumMember)
  | [] => .ok []
  | m :: rest =>
    if m.value.toNat ≤ 2147483647 then
      (buildMembers enumeration rest).map (⟨m.name, m.value.toInt32⟩ :: ·)
    else .error ⟨enumeration, m.name⟩

def buildEnums (s : Service) : Except EnumFault (List EnumDef) :=
  s.enumerations.entries.mapM fun (name, e) =>
    (buildMembers name e.members).map fun values => ⟨name, Naming.oneLine e.documentation, values⟩

def buildContext (s : Service) : Except Fault Context := do
  let deps ← (dependencies s).mapError DependencyFault.fault
  let parts ← (partition s).mapError PartitionFault.fault
  let enums ← (buildEnums s).mapError EnumFault.fault
  return { name := s.name, module := moduleName s.name, id := s.id, doc := Naming.oneLine s.documentation, source := []
           dependencies := deps.names.keys, imports := deps.modules.keys, classes := parts.classes
           procedures := parts.procedures, enums }

end RpcBindings.Binding
