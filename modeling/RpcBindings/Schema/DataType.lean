import RpcBindings.Schema.Code

/-!
# The type algebra

Parameters and results of procedures have types: primitives and protocol messages, containers of other types, and
references to classes and enumerations that a service declares. A node may also be missing; only resolving a type tells
whether it is well formed.
-/

namespace RpcBindings

inductive Shape where
  | list
  | set
  | tuple
  | dictionary
  deriving DecidableEq, Repr

inductive Referent where
  | object
  | enumeration
  deriving DecidableEq, Repr

inductive DataType where
  | missing
  | primitive (code : Text)
  | message (code : Text)
  | container (shape : Shape) (elements : List DataType)
  | reference (referent : Referent) (service name : Text)

instance : Inhabited DataType := ⟨.missing⟩

def Shape.code : Shape → Code
  | list => .list
  | set => .set
  | tuple => .tuple
  | dictionary => .dictionary

def Referent.code : Referent → Code
  | object => .object
  | enumeration => .enumeration

namespace DataType

def code? : DataType → Option Text
  | missing => none
  | primitive code => some code
  | message code => some code
  | container shape _ => some shape.code.text
  | reference referent _ _ => some referent.code.text

def elements? : DataType → Option (List DataType)
  | container _ elements => some elements
  | _ => none

mutual

/-- A type in the notation of documents, such as `LIST(CLASS(SpaceCenter.Vessel))`. -/
def describe : DataType → Text
  | missing => "<nil>"
  | primitive code => code
  | message code => code
  | container shape elements => shape.code.text ++ "(" ++ Text.join ", " (describeAll elements) ++ ")"
  | reference referent service name => referent.code.text ++ "(" ++ service ++ "." ++ name ++ ")"

def describeAll : List DataType → List Text
  | [] => []
  | t :: ts => describe t :: describeAll ts

end

end DataType

end RpcBindings
