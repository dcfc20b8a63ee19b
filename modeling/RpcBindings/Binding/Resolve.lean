import RpcBindings.Dict
import RpcBindings.Fault
import RpcBindings.Naming
import RpcBindings.Schema.DataType
import RpcBindings.Text.Quoted

/-!
# Resolving types

A type of a service document becomes a type expression of the generated language. References to the own service are bare
names; references to another service are qualified by its module and collected on the way.
-/

namespace RpcBindings

inductive Kind where
  | primitive
  | message
  | list
  | set
  | tuple
  | dictionary
  | object
  | enumeration
  deriving DecidableEq, Repr

namespace Kind

def text : Kind → Text
  | primitive => "primitive"
  | message => "message"
  | list => "list"
  | set => "set"
  | tuple => "tuple"
  | dictionary => "dictionary"
  | object => "class"
  | enumeration => "enumeration"

def all : List Kind := [primitive, message, list, set, tuple, dictionary, object, enumeration]

def byValue : Kind → Bool
  | primitive => true
  | message => true
  | tuple => true
  | enumeration => true
  | _ => false

end Kind

def Shape.kind : Shape → Kind
  | list => .list
  | set => .set
  | tuple => .tuple
  | dictionary => .dictionary

def Referent.kind : Referent → Kind
  | object => .object
  | enumeration => .enumeration

structure TypeRef where
  expr : Text
  kind : Kind
  deps : List Text
  deriving DecidableEq

inductive TypeFault where
  | missing
  | unknownPrimitive (code : Text)
  | unknownMessage (code : Text)
  | notSingle (shape : Shape) (count : Nat)
  | notPair (count : Nat)
  | noName (referent : Referent)
  | noService (referent : Referent) (name : Text)
  | inElement (shape : Shape) (cause : TypeFault)
  | inPlace (index : Nat) (cause : TypeFault)
  | inKey (cause : TypeFault)
  | inValue (cause : TypeFault)
  deriving DecidableEq

namespace TypeFault

def fault : TypeFault → Fault
  | missing => .ofMalformedType "missing type"
  | unknownPrimitive code => .ofMalformedType ("unknown primitive type " ++ Text.guarded (Text.quoted code))
  | unknownMessage code => .ofMalformedType ("unknown message type " ++ Text.guarded (Text.quoted code))
  | notSingle shape count =>
    .ofMalformedType (shape.code.text ++ " expects exactly 1 element type, got " ++ Text.ofNat count)
  | notPair count =>
    .ofMalformedType ("DICTIONARY expects exactly 2 element types (key, value), got " ++ Text.ofNat count)
  | noName referent => .ofMalformedType (referent.code.text ++ " reference has an empty name")
  | noService referent name =>
    .ofMalformedType (referent.code.text ++ " reference " ++ Text.guarded name ++ " has an empty service")
  | inElement shape cause => .within (shape.code.text ++ " element") cause.fault
  | inPlace index cause => .within ("TUPLE element " ++ Text.ofNat index) cause.fault
  | inKey cause => .within "DICTIONARY key" cause.fault
  | inValue cause => .within "DICTIONARY value" cause.fault

end TypeFault

namespace Binding

def primitiveTable : List (Text × Text) :=
  [(Code.bool.text, "bool"), (Code.sint32.text, "i32"), (Code.uint32.text, "u32"), (Code.sint64.text, "i64"),
   (Code.uint64.text, "u64"), (Code.double.text, "f64"), (Code.float.text, "f32"), (Code.string.text, "String"),
   (Code.bytes.text, "Vec<u8>")]

def messageTable : List (Text × Text) :=
  [(Code.event.text, "krpc_mars::krpc::Event"), (Code.procedureCall.text, "krpc_mars::krpc::ProcedureCall"),
   (Code.stream.text, "krpc_mars::krpc::Stream"), (Code.services.text, "krpc_mars::krpc::Services"),
   (Code.status.text, "krpc_mars::krpc::Status")]

def primitiveExpr? (code : Text) : Option Text := primitiveTable.lookup code

def messageExpr? (code : Text) : Option Text := messageTable.lookup code

def moduleName (service : Text) : Text := Naming.snakeCase service

def qualify (service name : Text) : Text := moduleName service ++ "::" ++ name

def tupleExpr : List Text → Text
  | [] => "()"
  | [e] => "(" ++ e ++ ",)"
  | es => "(" ++ Text.join ", " es ++ ")"

def resolveReference (own : Text) (deps : NameSet) (referent : Referent) (service name : Text) :
    Except TypeFault (Text × NameSet) :=
  if name.isEmpty then .error (.noName referent)
  else if service.isEmpty then .error (.noService referent name)
  else if service = own then .ok (name, deps)
  else .ok (qualify service name, deps.add (qualify service name))

mutual

/-- The expression of a type inside service `own`, with the names from other services added to `deps`. -/
def resolveOnto (own : Text) (deps : NameSet) : DataType → Except TypeFault (Text × NameSet)
  | .missing => .error .missing
  | .primitive code =>
    match primitiveExpr? code with
    | none => .error (.unknownPrimitive code)
    | some e => .ok (e, deps)
  | .message code =>
    match messageExpr? code with
    | none => .error (.unknownMessage code)
    | some e => .ok (e, deps)
  | .reference referent service name => resolveReference own deps referent service name
  | .container .list [t] =>
    match resolveOnto own deps t with
    | .error e => .error (.inElement .list e)
    | .ok (e, deps) => .ok ("Vec<" ++ e ++ ">", deps)
  | .container .list ts => .error (.notSingle .list ts.length)
  | .container .set [t] =>
    match resolveOnto own deps t with
    | .error e => .error (.inElement .set e)
    | .ok (e, deps) => .ok ("std::collections::HashSet<" ++ e ++ ">", deps)
  | .container .set ts => .error (.notSingle .set ts.length)
  | .container .tuple ts =>
    match resolveEach own deps 0 ts with
    | .error e => .error e
    | .ok (es, deps) => .ok (tupleExpr es, deps)
  | .container .dictionary [k, v] =>
    match resolveOnto own deps k with
    | .error e => .error (.inKey e)
    | .ok (key, deps) =>
      match resolveOnto own deps v with
      | .error e => .error (.inValue e)
      | .ok (value, deps) => .ok ("std::collections::HashMap<" ++ key ++ ", " ++ value ++ ">", deps)
  | .container .dictionary ts => .error (.notPair ts.length)

def resolveEach (own : Text) (deps : NameSet) (index : Nat) : List DataType → Except TypeFault (List Text × NameSet)
  | [] => .ok ([], deps)
  | t :: ts =>
    match resolveOnto own deps t with
    | .error e => .error (.inPlace index e)
    | .ok (e, deps) =>
      match resolveEach own deps (index + 1) ts with
      | .error e => .error e
      | .ok (es, deps) => .ok (e :: es, deps)

end

def kindOf : DataType → Kind
  | .missing => .primitive
  | .primitive _ => .primitive
  | .message _ => .message
  | .container shape _ => shape.kind
  | .reference referent _ _ => referent.kind

def resolve (own : Text) (t : DataType) : Except TypeFault TypeRef :=
  match resolveOnto own Dict.empty t with
  | .error e => .error e
  | .ok (e, deps) => .ok ⟨e, kindOf t, deps.keys⟩

end Binding

end RpcBindings
