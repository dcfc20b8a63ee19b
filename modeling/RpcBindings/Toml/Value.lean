import RpcBindings.Number.Binary
import RpcBindings.Toml.Moment

/-!
# TOML values

A document has a tree of values and, for messages, the row of keys it declares.
-/

namespace RpcBindings.Toml

inductive Value where
  | text (t : Text)
  | integer (n : Int)
  | float (x : Number.Binary)
  | bool (b : Bool)
  | moment (m : Moment)
  | array (items : List Value)
  | table (members : List (Text × Value))

abbrev Members := List (Text × Value)

inductive Expr where
  | text (t : Text)
  | integer (n : Int)
  | float (x : Number.Binary)
  | bool (b : Bool)
  | moment (m : Moment)
  | array (items : List Expr)
  | inline (pairs : List (List Text × Expr))

inductive Statement where
  | table (key : List Text)
  /-- The header of a further table in a row of tables. -/
  | series (key : List Text)
  | assign (key : List Text) (value : Expr)

end RpcBindings.Toml
