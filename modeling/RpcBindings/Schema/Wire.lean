import RpcBindings.Dict
import RpcBindings.Json.Form

/-!
# Wire shapes of a document

What a JSON document says about services, before any of it is required: every field may be missing. Field names are
matched regardless of the case of ASCII letters and unknown fields are passed over. `null` leaves a field missing. A
field that is repeated is read into what the earlier one left there, so that a scalar is replaced.

A reader fails on a value of the wrong kind and on nothing else.
-/

namespace RpcBindings.Wire

inductive TypeNode where
  | node (code service name : Option Text) (types : Option (List (Option TypeNode)))

structure ParameterNode where
  name : Option Text := none
  type : Option TypeNode := none

structure ProcedureNode where
  id : Option UInt32 := none
  documentation : Text := []
  parameters : Option (List (Option ParameterNode)) := none
  returnType : Option TypeNode := none
  returnIsNullable : Option Bool := none
  returnTypeIsNullable : Option Bool := none

structure ClassNode where
  documentation : Text := []

structure MemberNode where
  name : Option Text := none
  value : Option UInt32 := none

structure EnumNode where
  documentation : Text := []
  values : Option (List (Option MemberNode)) := none

structure ServiceNode where
  id : Option UInt32 := none
  documentation : Text := []
  procedures : Option (Dict (Option ProcedureNode)) := none
  classes : Option (Dict (Option ClassNode)) := none
  enumerations : Option (Dict (Option EnumNode)) := none

def text? : Json → Option (Option Text)
  | .null => some none
  | .string t => some (some t)
  | _ => none

def documentation? (old : Text) : Json → Option Text
  | .null => some old
  | .string t => some t
  | _ => none

def flag? : Json → Option (Option Bool)
  | .null => some none
  | .bool b => some (some b)
  | _ => none

def longestNumber : Nat := 20

/-- An unsigned number of 32 bits: digits alone, without leading zero. They are read into a word of 64 bits, where what
does not fit is lost, and the word has to be a number of 32 bits. -/
def word32? (digits : Text) : Option UInt32 :=
  match digits with
  | [] => none
  | [48] => some 0
  | first :: _ =>
    if digits.all Text.isDigit ∧ first ≠ 48 ∧ digits.length ≤ longestNumber then
      let word := (Text.decimalValue digits).toUInt64
      if word < 4294967296 then some word.toUInt32 else none
    else none

def number? : Json → Option (Option UInt32)
  | .null => some none
  | .number digits => (word32? digits).map some
  | _ => none

def record? {α : Type} (blank : α) (member : α → Text → Json → Option α) (old : Option α) : Json → Option (Option α)
  | .null => some none
  | .object members => (members.foldlM (fun r m => member r (Text.lowerAscii m.1) m.2) (old.getD blank)).map some
  | _ => none

/-- Reads items into the elements that stand at their places. -/
def items? {α : Type} (read : Option α → Json → Option (Option α)) : List (Option α) → List Json →
    Option (List (Option α))
  | _, [] => some []
  | olds, v :: vs => do
    let x ← read olds.head?.join v
    let xs ← items? read olds.tail vs
    return x :: xs

def list? {α : Type} (read : Option α → Json → Option (Option α)) (old : Option (List (Option α))) :
    Json → Option (Option (List (Option α)))
  | .null => some none
  | .array items => (items? read (old.getD []) items).map some
  | _ => none

def table? {α : Type} (read : Option α → Json → Option (Option α)) (old : Option (Dict (Option α))) :
    Json → Option (Option (Dict (Option α)))
  | .null => some none
  | .object members =>
    (members.foldlM (fun (d : Dict (Option α)) m => (read none m.2).map fun x => d.insert m.1 x)
      (old.getD Dict.empty)).map some
  | _ => none

namespace TypeNode

def blank : TypeNode := .node none none none none

mutual

def read? (old : Option TypeNode) : Json → Option (Option TypeNode)
  | .null => some none
  | .object members => (readMembers? (old.getD blank) members).map some
  | _ => none

def readMembers? : TypeNode → List (Text × Json) → Option TypeNode
  | n, [] => some n
  | .node code service name types, (key, v) :: rest =>
    let key := Text.lowerAscii key
    if key = "code" then do readMembers? (.node (← text? v) service name types) rest
    else if key = "service" then do readMembers? (.node code (← text? v) name types) rest
    else if key = "name" then do readMembers? (.node code service (← text? v) types) rest
    else if key = "types" then do readMembers? (.node code service name (← readList? types v)) rest
    else readMembers? (.node code service name types) rest

def readList? (old : Option (List (Option TypeNode))) : Json → Option (Option (List (Option TypeNode)))
  | .null => some none
  | .array items => (readItems? (old.getD []) items).map some
  | _ => none

def readItems? : List (Option TypeNode) → List Json → Option (List (Option TypeNode))
  | _, [] => some []
  | olds, v :: vs => do
    let x ← read? olds.head?.join v
    let xs ← readItems? olds.tail vs
    return x :: xs

end

end TypeNode

def ParameterNode.member (p : ParameterNode) (key : Text) (v : Json) : Option ParameterNode :=
  if key = "name" then (text? v).map fun x => { p with name := x }
  else if key = "type" then (TypeNode.read? p.type v).map fun x => { p with type := x }
  else some p

def ProcedureNode.member (p : ProcedureNode) (key : Text) (v : Json) : Option ProcedureNode :=
  if key = "id" then (number? v).map fun x => { p with id := x }
  else if key = "documentation" then (documentation? p.documentation v).map fun x => { p with documentation := x }
  else if key = "parameters" then
    (list? (record? {} ParameterNode.member) p.parameters v).map fun x => { p with parameters := x }
  else if key = "return_type" then (TypeNode.read? p.returnType v).map fun x => { p with returnType := x }
  else if key = "return_is_nullable" then (flag? v).map fun x => { p with returnIsNullable := x }
  else if key = "return_type_is_nullable" then (flag? v).map fun x => { p with returnTypeIsNullable := x }
  else some p

def ClassNode.member (c : ClassNode) (key : Text) (v : Json) : Option ClassNode :=
  if key = "documentation" then (documentation? c.documentation v).map fun x => { c with documentation := x }
  else some c

def MemberNode.member (m : MemberNode) (key : Text) (v : Json) : Option MemberNode :=
  if key = "name" then (text? v).map fun x => { m with name := x }
  else if key = "value" then (number? v).map fun x => { m with value := x }
  else some m

def EnumNode.member (e : EnumNode) (key : Text) (v : Json) : Option EnumNode :=
  if key = "documentation" then (documentation? e.documentation v).map fun x => { e with documentation := x }
  else if key = "values" then (list? (record? {} MemberNode.member) e.values v).map fun x => { e with values := x }
  else some e

def ServiceNode.member (s : ServiceNode) (key : Text) (v : Json) : Option ServiceNode :=
  if key = "id" then (number? v).map fun x => { s with id := x }
  else if key = "documentation" then (documentation? s.documentation v).map fun x => { s with documentation := x }
  else if key = "procedures" then
    (table? (record? {} ProcedureNode.member) s.procedures v).map fun x => { s with procedures := x }
  else if key = "classes" then (table? (record? {} ClassNode.member) s.classes v).map fun x => { s with classes := x }
  else if key = "enumerations" then
    (table? (record? {} EnumNode.member) s.enumerations v).map fun x => { s with enumerations := x }
  else some s

inductive Record where
  | service
  | procedure
  | parameter
  | object
  | enumeration
  | member
  | type
  deriving DecidableEq

def grammar : Json.Grammar Record
  | .service =>
    [("classes", .table .object), ("documentation", .text), ("enumerations", .table .enumeration), ("id", .number),
     ("procedures", .table .procedure)]
  | .procedure =>
    [("documentation", .text), ("id", .number), ("parameters", .list .parameter), ("return_is_nullable", .flag),
     ("return_type", .record .type), ("return_type_is_nullable", .flag)]
  | .parameter => [("name", .text), ("type", .record .type)]
  | .object => [("documentation", .text)]
  | .enumeration => [("documentation", .text), ("values", .list .member)]
  | .member => [("name", .text), ("value", .number)]
  | .type => [("code", .text), ("name", .text), ("service", .text), ("types", .list .type)]

def read? (v : Json) : Option (Option (Dict (Option ServiceNode))) :=
  table? (record? {} ServiceNode.member) none v

end RpcBindings.Wire
