import RpcBindings.Fault
import RpcBindings.Files.System
import RpcBindings.Json.Reader
import RpcBindings.Schema.Service
import RpcBindings.Schema.Wire
import RpcBindings.Text.Quoted

/-!
# Decoding documents

A document is read into its wire shapes, and then every required field is asked for. The first thing found missing or
malformed, in the order of names, is the fault of the whole document. Only the classes of a service may be looked at in
another order. How many elements a container has is not looked at here: that is a fault of a single service. A service
file is read as a whole and decoded.
-/

namespace RpcBindings

inductive NodeFault where
  | noCode
  | unknownCode (spelling : Text)
  | noService (code : Code)
  | noName (code : Code)
  | noTypes (code : Code)
  | nullElement (code : Code) (index : Nat)
  | element (code : Code) (index : Nat) (cause : NodeFault)
  deriving DecidableEq

inductive DecodeFault where
  | invalid
  | nullDocument
  | nullDefinition
  | noField (name : Text)
  | nullParameter (index : Nat)
  | nullMember (index : Nat)
  | nullClass (name : Text)
  | repeatedMember (name : Text)
  | type (cause : NodeFault)
  | within (context : Text) (cause : DecodeFault)
  deriving DecidableEq

namespace NodeFault

def fault : NodeFault → Fault
  | noCode => .ofMalformedType "type node has no 'code'"
  | unknownCode spelling =>
    .hinted ("supported codes: " ++ Code.supported)
      (.ofMalformedType ("unknown type code " ++ Text.guarded (Text.quoted spelling)))
  | noService code => .ofMalformedType (code.text ++ " type node has no 'service'")
  | noName code => .ofMalformedType (code.text ++ " type node has no 'name'")
  | noTypes code => .ofMalformedType (code.text ++ " type node has no 'types'")
  | nullElement code index => .ofMalformedType (code.text ++ " element " ++ Text.ofNat index ++ " is null")
  | element code index cause => .within (code.text ++ " element " ++ Text.ofNat index) cause.fault

end NodeFault

namespace DecodeFault

def fault : DecodeFault → Fault
  | invalid =>
    .hinted "a service file is a JSON object mapping service names to service definitions"
      (.marked .parse (.external "invalid service file"))
  | nullDocument => .ofParse "service file is null"
  | nullDefinition => .ofParse "definition is null"
  | noField name => .ofParse ("missing required field " ++ Text.quoted name)
  | nullParameter index => .ofParse ("parameter " ++ Text.ofNat index ++ " is null")
  | nullMember index => .ofParse ("value " ++ Text.ofNat index ++ " is null")
  | nullClass name => .ofParse ("class " ++ Text.guarded name ++ ": definition is null")
  | repeatedMember name => .marked .malformedEnum (.plain ("duplicate value name " ++ Text.guarded (Text.quoted name)))
  | type cause => cause.fault
  | within context cause => .within context cause.fault

end DecodeFault

namespace DataType

def shape? : Code → Option Shape
  | .list => some .list
  | .set => some .set
  | .tuple => some .tuple
  | .dictionary => some .dictionary
  | _ => none

def referent? : Code → Option Referent
  | .object => some .object
  | .enumeration => some .enumeration
  | _ => none

def isMessageCode : Code → Bool
  | .event => true
  | .procedureCall => true
  | .stream => true
  | .services => true
  | .status => true
  | _ => false

mutual

/-- The type of a node. A node has a known code and whatever its code asks for; other fields are passed over. -/
def ofNode : Wire.TypeNode → Except NodeFault DataType
  | .node spelling service name types =>
    match spelling with
    | none => .error .noCode
    | some spelling =>
      match Code.parse? spelling with
      | none => .error (.unknownCode spelling)
      | some code =>
        match shape? code, referent? code with
        | some shape, _ =>
          match types with
          | none => .error (.noTypes code)
          | some nodes => (ofNodes code 0 nodes).map (.container shape)
        | none, some referent =>
          match service, name with
          | none, _ => .error (.noService code)
          | some _, none => .error (.noName code)
          | some service, some name => .ok (.reference referent service name)
        | none, none => .ok (if isMessageCode code then .message code.text else .primitive code.text)

def ofNodes (code : Code) (index : Nat) : List (Option Wire.TypeNode) → Except NodeFault (List DataType)
  | [] => .ok []
  | none :: _ => .error (.nullElement code index)
  | some node :: rest =>
    match ofNode node with
    | .error e => .error (.element code index e)
    | .ok t => (ofNodes code (index + 1) rest).map (t :: ·)

end

end DataType

namespace Wire

def inContext {α : Type} (context : Text) (r : Except DecodeFault α) : Except DecodeFault α :=
  r.mapError (.within context)

def require {α : Type} (name : Text) : Option α → Except DecodeFault α
  | none => .error (.noField name)
  | some a => .ok a

def toType (node : TypeNode) : Except DecodeFault DataType := (DataType.ofNode node).mapError .type

namespace ParameterNode

def decode (index : Nat) : Option ParameterNode → Except DecodeFault Parameter
  | none => .error (.nullParameter index)
  | some p => do
    let name ← inContext ("parameter " ++ Text.ofNat index) (require "name" p.name)
    inContext ("parameter " ++ Text.ofNat index ++ " (" ++ Text.guarded name ++ ")") do
      let node ← require "type" p.type
      return ⟨name, ← toType node⟩

end ParameterNode

def decodeItems {α β : Type} (decode : Nat → α → Except DecodeFault β) : Nat → List α → Except DecodeFault (List β)
  | _, [] => .ok []
  | index, a :: rest => do
    let b ← decode index a
    let bs ← decodeItems decode (index + 1) rest
    return b :: bs

namespace ProcedureNode

def decode (name : Text) : Option ProcedureNode → Except DecodeFault Procedure
  | none => .error .nullDefinition
  | some p => do
    let id ← require "id" p.id
    let nodes ← require "parameters" p.parameters
    let parameters ← decodeItems ParameterNode.decode 0 nodes
    let result ← match p.returnType with
      | none => .ok none
      | some node => inContext "return type" ((toType node).map some)
    return { name, id, documentation := p.documentation, parameters, result
             nullable := (p.returnIsNullable <|> p.returnTypeIsNullable).getD false }

end ProcedureNode

namespace MemberNode

def decode (index : Nat) : Option MemberNode → Except DecodeFault Member
  | none => .error (.nullMember index)
  | some m => do
    let name ← inContext ("value " ++ Text.ofNat index) (require "name" m.name)
    let value ← inContext ("value " ++ Text.ofNat index ++ " (" ++ Text.guarded name ++ ")") (require "value" m.value)
    return ⟨name, value⟩

end MemberNode

namespace EnumNode

def members (seen : List Text) (index : Nat) : List (Option MemberNode) → Except DecodeFault (List Member)
  | [] => .ok []
  | node :: rest => do
    let m ← MemberNode.decode index node
    if seen.contains m.name then .error (.repeatedMember m.name)
    else return m :: (← members (m.name :: seen) (index + 1) rest)

def decode (name : Text) : Option EnumNode → Except DecodeFault Enumeration
  | none => .error .nullDefinition
  | some e => do
    let nodes ← require "values" e.values
    return ⟨name, e.documentation, ← members [] 0 nodes⟩

end EnumNode

namespace ClassNode

def decode (name : Text) : Option ClassNode → Except DecodeFault ClassDecl
  | none => .error (.nullClass name)
  | some c => .ok ⟨name, c.documentation⟩

end ClassNode

def decodeEntries {α β : Type} (context : Text → Except DecodeFault β → Except DecodeFault β)
    (decode : Text → α → Except DecodeFault β) (entries : List (Text × α)) : Except DecodeFault (Dict β) :=
  entries.foldlM (fun d e => (context e.1 (decode e.1 e.2)).map fun b => d.insert e.1 b) Dict.empty

def decodeTable {α β : Type} (context : Text → Except DecodeFault β → Except DecodeFault β)
    (decode : Text → α → Except DecodeFault β) (table : Dict α) : Except DecodeFault (Dict β) :=
  decodeEntries context decode table.entries

/-- The order in which the classes of a service are looked at, for every name of a service. -/
def Arrangement := Text → List (Text × Option ClassNode) → List (Text × Option ClassNode)

def Arrangement.byName : Arrangement := fun _ classes => classes

namespace ServiceNode

def decodeIn (arrange : Arrangement) (name : Text) : Option ServiceNode → Except DecodeFault Service
  | none => .error .nullDefinition
  | some s => do
    let id ← require "id" s.id
    let procedures ← require "procedures" s.procedures
    let classes ← require "classes" s.classes
    let enumerations ← require "enumerations" s.enumerations
    let procedures ← decodeTable (fun n => inContext ("procedure " ++ Text.guarded n)) ProcedureNode.decode procedures
    let classes ← decodeEntries (fun _ r => r) ClassNode.decode (arrange name classes.entries)
    let enumerations ← decodeTable (fun n => inContext ("enumeration " ++ Text.guarded n)) EnumNode.decode enumerations
    return { name, id, documentation := s.documentation, procedures, classes, enumerations }

def decode : Text → Option ServiceNode → Except DecodeFault Service := decodeIn .byName

end ServiceNode

end Wire

namespace Document

def ofJsonIn? (arrange : Wire.Arrangement) (v : Json) : Except DecodeFault (Dict Service) :=
  match Wire.read? v with
  | none => .error .invalid
  | some none => .error .nullDocument
  | some (some table) =>
    Wire.decodeTable (fun n => Wire.inContext ("service " ++ Text.guarded n)) (Wire.ServiceNode.decodeIn arrange) table

def decodeIn (arrange : Wire.Arrangement) (t : Text) : Except DecodeFault (Dict Service) :=
  match Json.parse? Wire.grammar (.table .service) t with
  | none => .error .invalid
  | some v => ofJsonIn? arrange v

def decode : Text → Except DecodeFault (Dict Service) := decodeIn .byName

def load (files : Files.System) (path : Text) : Except Fault Document :=
  match files.read path with
  | .error f => .error (.ofIo ("read service file " ++ Text.guarded path) f.fault)
  | .ok content =>
    match Document.decode content with
    | .error f => .error (.wrap (Text.guarded path) f.fault)
    | .ok services => .ok ⟨path, services⟩

end Document

end RpcBindings
