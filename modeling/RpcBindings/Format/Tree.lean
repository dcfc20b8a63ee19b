import RpcBindings.Text.Basic

/-!
# Output trees

What is shown to users in a data format is a tree of scalars, lists and records with named fields. Fields keep their
order.
-/

namespace RpcBindings.Format

inductive Tree where
  | text (t : Text)
  | number (n : Int)
  | bool (b : Bool)
  | list (items : List Tree)
  | record (fields : List (Text × Tree))

namespace Tree

def texts (ts : List Text) : Tree := list (ts.map text)

def groups (fields : List (List (Text × Tree))) : Tree := record fields.flatten

def optional (name : Text) (t : Text) : List (Text × Tree) := if t.isEmpty then [] else [(name, text t)]

end Tree

def spaces (count : Nat) : Text := List.replicate count 32

end RpcBindings.Format
