import RpcBindings.Text.Basic

/-!
# JSON values and their forms

A value as it is written: members of an object in their order, with repetitions, and numbers as their digits.

A form is what a document may hold at a place. It names the records of its grammar, so that records may hold each other;
the grammar lists the fields of every record in the byte order of their names.
-/

namespace RpcBindings

inductive Json where
  | null
  | bool (b : Bool)
  | number (digits : Text)
  | string (t : Text)
  | array (items : List Json)
  | object (members : List (Text × Json))

end RpcBindings

namespace RpcBindings.Json

/-- The form of a value. Wherever a value of a form may stand, `null` may stand too. -/
inductive Form (ρ : Type) where
  | text
  | flag
  | number
  | record (r : ρ)
  | table (r : ρ)
  | list (r : ρ)

abbrev Grammar (ρ : Type) := ρ → List (Text × Form ρ)

def maxDepth : Nat := 10000

end RpcBindings.Json
