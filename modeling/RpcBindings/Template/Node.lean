import RpcBindings.Template.Literal
import RpcBindings.Text.Trim

/-!
# Template trees

A template is a row of nodes: text, actions that print a value, branches, loops and calls of other templates. Values are
computed by pipelines, in which every command hands its value to the next as a last argument.
-/

namespace RpcBindings.Template

inductive Expr where
  | dot
  | nil
  | bool (b : Bool)
  | number (n : Numeral)
  | text (t : Text)
  | field (path : List Text)
  | variable (name : Text) (path : List Text)
  | function (name : Text)
  | chain (base : Expr) (path : List Text)
  | group (targets : List Text) (assigns : Bool) (commands : List (List Expr))

structure Pipeline where
  targets : List Text
  assigns : Bool
  commands : List (List Expr)

inductive Node where
  | text (t : Text)
  | action (pipe : Pipeline)
  | branch (pipe : Pipeline) (body other : List Node)
  /-- A branch whose body sees the value as its dot. -/
  | focus (pipe : Pipeline) (body other : List Node)
  | loop (pipe : Pipeline) (body other : List Node)
  | call (name : Text) (pipe : Option Pipeline)
  | leave
  | next

namespace Node

def blank : List Node → Bool
  | [] => true
  | .text t :: rest => Text.isBlank t && blank rest
  | _ :: _ => false

end Node

end RpcBindings.Template
