import RpcBindings.Fault

/-!
# Log entries

What a run says about itself on the side. An entry has a level, the component that wrote it, a message and named values.
-/

namespace RpcBindings.Log

inductive Level where
  | debug
  | info
  | warn
  | error
  deriving DecidableEq, Repr

inductive Value where
  | text (t : Text)
  | number (n : Nat)
  | texts (ts : List Text)
  | fault (f : Fault)

structure Entry where
  level : Level
  component : Text
  message : Text
  fields : List (Text × Value)

namespace Level

def text : Level → Text
  | debug => "debug"
  | info => "info"
  | warn => "warn"
  | error => "error"

def weight : Level → Nat
  | debug => 0
  | info => 1
  | warn => 2
  | error => 3

end Level

end RpcBindings.Log
