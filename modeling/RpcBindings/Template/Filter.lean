import RpcBindings.Template.Compare
import RpcBindings.Template.Escape
import RpcBindings.Template.FormatString

/-!
# Template functions

The functions that a template may call: those that write the generated language, and the general ones for logic,
comparison, lists and printing. A function checks the number and the form of its arguments.
-/

namespace RpcBindings.Template

open Binding

def returnType : Option Return → Text
  | none => "()"
  | some r => if r.nullable then "Option<" ++ r.type.expr ++ ">" else r.type.expr

def argExpr (p : Param) : Text := if p.byRef then p.name else "&" ++ p.name

def isLast (i n : Int) : Bool := i == n - 1

def filterNames : List Text :=
  ["one_line", "snake_case", "rust_ident", "fn_name", "return_type", "arg_expr", "last", "join", "generator_version"]

def builtinNames : List Text :=
  List.map Text.ofString
    ["and", "call", "html", "index", "slice", "js", "len", "not", "or", "print", "printf", "println", "urlquery",
     "eq", "ge", "gt", "le", "lt", "ne"]

def functionNames : List Text := filterNames ++ builtinNames

def length? : Value → Option Nat
  | .text t => some t.length
  | v => v.items?.map List.length

def place? (count : Nat) : Value → Option Nat
  | .number _ n => if 0 ≤ n ∧ n.toNat ≤ count then some n.toNat else none
  | .kind k => if Value.kindNumber k ≤ count then some (Value.kindNumber k) else none
  | _ => none

def item? (v place : Value) : Option Value :=
  match v with
  | .text t => (place? t.length place).bind fun i => (t[i]?).map fun b => .number .byte b.toNat
  | v => v.items?.bind fun items => (place? items.length place).bind fun i => items[i]?

def index? (v : Value) (places : List Value) : Option Value :=
  match v with
  | .absent => none
  | v => places.foldlM item? v

def sliceText? (t : Text) (places : List Value) : Option Text := do
  let (i, j) ← match ← places.mapM (place? t.length) with
    | [] => some (0, t.length)
    | [i] => some (i, t.length)
    | [i, j] => some (i, j)
    | _ => none
  if j < i then none else between i j t

/-- The part of a list between places. They may go beyond the end of a part that has room; a third place bounds the
room. -/
def sliceList? (v : Value) (places : List Value) : Option Value := do
  let count ← length? v
  let room ← v.room?
  let (i, j, k) ← match ← places.mapM (place? room) with
    | [] => some (0, count, room)
    | [i] => some (i, count, room)
    | [i, j] => some (i, j, room)
    | [i, j, k] => some (i, j, k)
    | _ => none
  if j < i ∨ k < j then none else v.narrow i j k

def slice? (v : Value) (places : List Value) : Option Value :=
  match v with
  | .text t => (sliceText? t places).map .text
  | v => sliceList? v places

def spaced : List Shape → Text
  | [] => []
  | [s] => s.print
  | s :: r :: rest => s.print ++ (if s.isText || r.isText then [] else [32]) ++ spaced (r :: rest)

def escapable : Value → Shape
  | .absent => .text "<no value>"
  | v => v.shape.followed

/-- Whether the numbers that a template hands to a function have to be whole. -/
def takesWhole (name : Text) : Bool := name = "last"

def callFilter? (version : Text) (name : Text) (args : List Value) : Option Value :=
  match args with
  | [] => if name = "generator_version" then some (.text version) else none
  | [.text t] =>
    if name = "one_line" then some (.text (Naming.oneLine t))
    else if name = "snake_case" then some (.text (Naming.snakeCase t))
    else if name = "rust_ident" then some (.text (Naming.identifier t))
    else if name = "fn_name" then some (.text (Naming.functionName t))
    else none
  | [.result _ r] => if name = "return_type" then some (.text (returnType r)) else none
  | [.absent] => if name = "return_type" then some (.text (returnType none)) else none
  | [.param p] => if name = "arg_expr" then some (.text (argExpr p)) else none
  | [.number .plain i, .number .plain n] => if name = "last" then some (.bool (isLast i n)) else none
  | [v, .text sep] => if name = "join" then v.texts?.map fun ts => .text (Text.join sep ts) else none
  | _ => none

def callOn? (name : Text) (v : Value) : Option Value :=
  if name = "not" then some (.bool !v.truth)
  else if name = "len" then (length? v).map fun n => .number .plain n
  else none

def compare? (name : Text) (a b : Value) : Option Bool :=
  if name = "ne" then (equal? a b).map (!·)
  else if name = "lt" then less? a b
  else if name = "le" then do return (← less? a b) || (← equal? a b)
  else if name = "gt" then do return !((← less? a b) || (← equal? a b))
  else if name = "ge" then (less? a b).map (!·)
  else none

def callBuiltin? (name : Text) (args : List Value) : Option Value :=
  if name = "print" then some (.text (spaced (args.map Value.shape)))
  else if name = "println" then some (.text (Text.join [32] (args.map fun v => v.shape.print) ++ [10]))
  else if name = "html" then some (.text (escapeMarkup (spaced (args.map escapable))))
  else if name = "js" then some (.text (escapeScript (spaced (args.map escapable))))
  else if name = "urlquery" then some (.text (escapeQuery (spaced (args.map escapable))))
  else
    match args with
    | [] => none
    | v :: rest =>
      if name = "index" then index? v rest
      else if name = "slice" then slice? v rest
      else if name = "eq" then if rest.isEmpty then none else (equalAny? v rest).map .bool
      else if name = "printf" then
        match v with
        | .text format => some (.text (formatted format rest))
        | _ => none
      else
        match rest with
        | [] => callOn? name v
        | [w] => (compare? name v w).map .bool
        | _ => none

def callFunction? (version : Text) (name : Text) (args : List Value) : Option Value :=
  if filterNames.contains name then callFilter? version name args else callBuiltin? name args

end RpcBindings.Template
