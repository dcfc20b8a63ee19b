import RpcBindings.Binding.Context
import RpcBindings.Number.Binary

/-!
# Template values

What a template can see: a service context with everything inside it, the modules of an index, and the scalars that
functions make of them. A value knows its fields, its items and whether it counts as true.
-/

namespace RpcBindings.Template

open Binding
open Number (Binary)

inductive Width where
  | plain
  | signed32
  | unsigned32
  | byte
  deriving DecidableEq

def Width.isSigned : Width → Bool
  | plain => true
  | signed32 => true
  | unsigned32 => false
  | byte => false

def between {α : Type} (i j : Nat) (l : List α) : List α := (l.take j).drop i

inductive Value where
  | absent
  | text (t : Text)
  | bool (b : Bool)
  | number (width : Width) (n : Int)
  | real (x : Binary)
  | complex (re im : Binary)
  | kind (k : Kind)
  | bytes (t : Text)
  | texts (ts : List Text)
  /-- An empty list of texts that was never made. It is the only list that equals no value. -/
  | noTexts
  | context (c : Context)
  | index (modules : List Text)
  | object (c : ClassMethods)
  | signature (s : Signature)
  | param (p : Param)
  | result (owner : Text) (r : Option Return)
  | type (t : TypeRef)
  | enum (e : EnumDef)
  | member (m : EnumMember)
  | classes (cs : List ClassMethods)
  | signatures (ss : List Signature)
  | params (ps : List Param)
  | enums (es : List EnumDef)
  | members (ms : List EnumMember)
  /-- The items of a list from `start` up to `stop`. A part may be widened again, up to `room`. -/
  | part (whole : Value) (start stop room : Nat)

namespace Value

def number32 (n : UInt32) : Value := number .unsigned32 n.toNat

def dependencies (ts : List Text) : Value := if ts.isEmpty then noTexts else texts ts

def fields? : Value → Option (List (Text × Value))
  | context c => some
    [("Name", text c.name), ("Module", text c.module), ("ID", number32 c.id), ("Doc", text c.doc),
     ("Source", text c.source), ("Dependencies", texts c.dependencies), ("Imports", texts c.imports),
     ("Classes", classes c.classes), ("Procedures", signatures c.procedures), ("Enums", enums c.enums)]
  | index modules => some [("Modules", texts modules)]
  | object c => some [("Name", text c.name), ("Doc", text c.doc), ("Methods", signatures c.methods)]
  | signature s => some
    [("Name", text s.name), ("RPCName", text s.rpcName), ("ID", number32 s.id), ("Doc", text s.doc),
     ("Params", params s.params), ("Return", result s.rpcName s.result)]
  | param p => some
    [("Name", text p.name), ("RawName", text p.rawName), ("Position", number .plain p.position), ("Type", type p.type),
     ("ByRef", bool p.byRef)]
  | result _ (some r) => some [("Type", type r.type), ("IsClass", bool r.isClass), ("Nullable", bool r.nullable)]
  | type t => some [("Expr", text t.expr), ("Kind", kind t.kind), ("Deps", dependencies t.deps)]
  | enum e => some [("Name", text e.name), ("Doc", text e.doc), ("Values", members e.values)]
  | member m => some [("Name", text m.name), ("Value", number .signed32 m.value.toInt)]
  | kind k => some [("String", text k.text), ("MarshalText", bytes k.text), ("ByValue", bool k.byValue)]
  | _ => none

def field? (v : Value) (name : Text) : Option Value := v.fields?.bind fun fs => fs.lookup name

def path? (v : Value) (path : List Text) : Option Value := path.foldlM field? v

def items? : Value → Option (List Value)
  | bytes t => some (t.map fun b => number .byte b.toNat)
  | texts ts => some (ts.map text)
  | noTexts => some []
  | classes cs => some (cs.map object)
  | signatures ss => some (ss.map signature)
  | params ps => some (ps.map param)
  | enums es => some (es.map enum)
  | members ms => some (ms.map member)
  | part whole start stop _ => whole.items?.map fun items => between start stop items
  | _ => none

/-- How far a list may be widened: all of it for a list that is no part. -/
def room? : Value → Option Nat
  | part _ start _ room => some (room - start)
  | v => v.items?.map List.length

def narrow (v : Value) (i j k : Nat) : Value :=
  match v with
  | part whole start _ _ => part whole (start + i) (start + j) (start + k)
  | noTexts => noTexts
  | v => part v i j k

def texts? : Value → Option (List Text)
  | absent => some []
  | noTexts => some []
  | texts ts => some ts
  | part whole start stop _ => whole.texts?.map fun ts => between start stop ts
  | _ => none

def kindNumber (k : Kind) : Nat := Kind.all.idxOf k

def truth : Value → Bool
  | absent => false
  | text t => !t.isEmpty
  | bool b => b
  | number _ n => n != 0
  | real x => !x.isZero
  | complex re im => !(re.isZero && im.isZero)
  | kind k => kindNumber k != 0
  | bytes t => !t.isEmpty
  | texts ts => !ts.isEmpty
  | noTexts => false
  | context _ => true
  | index _ => true
  | object _ => true
  | signature _ => true
  | param _ => true
  | result _ r => r.isSome
  | type _ => true
  | enum _ => true
  | member _ => true
  | classes cs => !cs.isEmpty
  | signatures ss => !ss.isEmpty
  | params ps => !ps.isEmpty
  | enums es => !es.isEmpty
  | members ms => !ms.isEmpty
  | part _ start stop _ => start < stop

end Value

end RpcBindings.Template
