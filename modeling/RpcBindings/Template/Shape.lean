import RpcBindings.Template.Value

/-!
# Shapes of values

What there is to print of a value: scalars, and lists and records of shapes. Every shape has the name of a type, which
is shown where a value does not fit a format.
-/

namespace RpcBindings.Template

open Binding
open Number (Binary)

inductive Shape where
  | nothing
  | text (t : Text)
  | bool (b : Bool)
  | number (width : Width) (n : Int)
  | real (x : Binary)
  | complex (re im : Binary)
  | kind (k : Kind)
  | bytes (t : Text)
  | list (item : Text) (items : Option (List Shape))
  | record (name : Text) (fields : List (Text × Shape))
  | reference (name : Text) (target : Option Shape)

namespace Width

def typeName : Width → Text
  | plain => "int"
  | signed32 => "int32"
  | unsigned32 => "uint32"
  | byte => "uint8"

end Width

namespace Shape

def typeName : Shape → Text
  | nothing => "<nil>"
  | text _ => "string"
  | bool _ => "bool"
  | number w _ => w.typeName
  | real _ => "float64"
  | complex _ _ => "complex128"
  | kind _ => "rust.Kind"
  | bytes _ => "[]uint8"
  | list item _ => "[]" ++ item
  | record name _ => name
  | reference name _ => "*" ++ name

def texts (ts : List Text) : Shape := list "string" (some (ts.map text))

def ofType (t : TypeRef) : Shape :=
  record "rust.TypeRef"
    [("Expr", text t.expr), ("Kind", kind t.kind),
     ("Deps", if t.deps.isEmpty then list "string" none else texts t.deps)]

def ofParam (p : Param) : Shape :=
  record "rust.Param"
    [("Name", text p.name), ("RawName", text p.rawName), ("Position", number .plain p.position),
     ("Type", ofType p.type), ("ByRef", bool p.byRef)]

def ofReturn (r : Return) : Shape :=
  record "rust.Return" [("Type", ofType r.type), ("IsClass", bool r.isClass), ("Nullable", bool r.nullable)]

def ofSignature (s : Signature) : Shape :=
  record "rust.Signature"
    [("Name", text s.name), ("RPCName", text s.rpcName), ("ID", number .unsigned32 s.id.toNat), ("Doc", text s.doc),
     ("Params", list "rust.Param" (some (s.params.map ofParam))),
     ("Return", reference "rust.Return" (s.result.map ofReturn))]

def ofClass (c : ClassMethods) : Shape :=
  record "rust.ClassMethods"
    [("Name", text c.name), ("Doc", text c.doc),
     ("Methods", list "rust.Signature" (some (c.methods.map ofSignature)))]

def ofMember (m : EnumMember) : Shape :=
  record "rust.EnumValue" [("Name", text m.name), ("Value", number .signed32 m.value.toInt)]

def ofEnum (e : EnumDef) : Shape :=
  record "rust.Enum"
    [("Name", text e.name), ("Doc", text e.doc), ("Values", list "rust.EnumValue" (some (e.values.map ofMember)))]

def ofContext (c : Context) : Shape :=
  record "rust.ServiceContext"
    [("Name", text c.name), ("Module", text c.module), ("ID", number .unsigned32 c.id.toNat), ("Doc", text c.doc),
     ("Source", text c.source), ("Dependencies", texts c.dependencies), ("Imports", texts c.imports),
     ("Classes", list "rust.ClassMethods" (some (c.classes.map ofClass))),
     ("Procedures", list "rust.Signature" (some (c.procedures.map ofSignature))),
     ("Enums", list "rust.Enum" (some (c.enums.map ofEnum)))]

def isText : Shape → Bool
  | text _ => true
  | _ => false

def part (i j : Nat) : Shape → Shape
  | bytes t => bytes (between i j t)
  | list item (some items) => list item (some (between i j items))
  | s => s

def followed : Shape → Shape
  | reference _ (some s) => s
  | s => s

end Shape

/-- The shape of a value. A context and a result are references. -/
def Value.shape : Value → Shape
  | .absent => .nothing
  | .text t => .text t
  | .bool b => .bool b
  | .number w n => .number w n
  | .real x => .real x
  | .complex re im => .complex re im
  | .kind k => .kind k
  | .bytes t => .bytes t
  | .texts ts => .texts ts
  | .noTexts => .list "string" none
  | .context c => .reference "rust.ServiceContext" (some (.ofContext c))
  | .index modules => .record "render.Index" [("Modules", .texts modules)]
  | .object c => .ofClass c
  | .signature s => .ofSignature s
  | .param p => .ofParam p
  | .result _ r => .reference "rust.Return" (r.map .ofReturn)
  | .type t => .ofType t
  | .enum e => .ofEnum e
  | .member m => .ofMember m
  | .classes cs => .list "rust.ClassMethods" (some (cs.map .ofClass))
  | .signatures ss => .list "rust.Signature" (some (ss.map .ofSignature))
  | .params ps => .list "rust.Param" (some (ps.map .ofParam))
  | .enums es => .list "rust.Enum" (some (es.map .ofEnum))
  | .members ms => .list "rust.EnumValue" (some (ms.map .ofMember))
  | .part whole start stop _ => whole.shape.part start stop

end RpcBindings.Template
