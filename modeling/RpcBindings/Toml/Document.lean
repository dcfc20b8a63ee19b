import RpcBindings.Toml.Reader

/-!
# TOML documents

The statements of a document build a tree of tables. No key is assigned twice, no table is opened twice, and a table
that came from a value cannot be opened at all.
-/

namespace RpcBindings.Toml

inductive Origin where
  | header
  | implied
  | dotted
  deriving DecidableEq

inductive Item where
  | value (v : Value)
  | table (origin : Origin) (members : List (Text × Item))
  | series (tables : List (List (Text × Item)))

abbrev Items := List (Text × Item)

namespace Items

def replace (items : Items) (name : Text) (item : Item) : Items :=
  items.map fun e => if e.1 = name then (name, item) else e

/-- Assigns a value to a key. Tables on the way are created or were created so before. -/
def assign (items : Items) (v : Value) : (key : List Text) → Option Items
  | [] => none
  | [name] => if (items.lookup name).isSome then none else some (items ++ [(name, .value v)])
  | name :: key =>
    match items.lookup name with
    | none => (assign [] v key).map fun inner => items ++ [(name, .table .dotted inner)]
    | some (.table .header _) => none
    | some (.table origin inner) => (assign inner v key).map fun inner => items.replace name (.table origin inner)
    | some _ => none

def within (f : Items → Option Items) (items : Items) : (path : List Text) → Option Items
  | [] => f items
  | name :: path =>
    match items.lookup name with
    | some (.table origin inner) => (within f inner path).map fun inner => items.replace name (.table origin inner)
    | some (.series tables) =>
      match tables.getLast? with
      | none => none
      | some last => (within f last path).map fun last => items.replace name (.series (tables.dropLast ++ [last]))
    | _ => none

/-- Opens something at a key; tables on the way are created if they are missing. -/
def openAt (last : Items → Text → Option Items) (items : Items) : (key : List Text) → Option Items
  | [] => none
  | [name] => last items name
  | name :: key =>
    match items.lookup name with
    | none => (openAt last [] key).map fun inner => items ++ [(name, .table .implied inner)]
    | some (.table origin inner) => (openAt last inner key).map fun inner => items.replace name (.table origin inner)
    | some (.series tables) =>
      match tables.getLast? with
      | none => none
      | some open_ => (openAt last open_ key).map fun open_ => items.replace name (.series (tables.dropLast ++ [open_]))
    | some (.value _) => none

def openTable (items : Items) (name : Text) : Option Items :=
  match items.lookup name with
  | none => some (items ++ [(name, .table .header [])])
  | some (.table .implied inner) => some (items.replace name (.table .header inner))
  | some _ => none

def openSeries (items : Items) (name : Text) : Option Items :=
  match items.lookup name with
  | none => some (items ++ [(name, .series [[]])])
  | some (.series tables) => some (items.replace name (.series (tables ++ [[]])))
  | some _ => none

end Items

mutual

def Item.tree : Item → Value
  | .value v => v
  | .table _ members => .table (membersTree members)
  | .series tables => .array (tablesTree tables)

def membersTree : List (Text × Item) → Members
  | [] => []
  | (name, item) :: rest => (name, item.tree) :: membersTree rest

def tablesTree : List (List (Text × Item)) → List Value
  | [] => []
  | members :: rest => .table (membersTree members) :: tablesTree rest

end

mutual

def Expr.value? : Expr → Option Value
  | .text t => some (.text t)
  | .integer n => some (.integer n)
  | .float x => some (.float x)
  | .bool b => some (.bool b)
  | .moment m => some (.moment m)
  | .array items => (exprValues? items).map .array
  | .inline pairs => (pairItems? [] pairs).map fun items => .table (membersTree items)

def exprValues? : List Expr → Option (List Value)
  | [] => some []
  | e :: rest =>
    match e.value?, exprValues? rest with
    | some v, some vs => some (v :: vs)
    | _, _ => none

def pairItems? (items : Items) : List (List Text × Expr) → Option Items
  | [] => some items
  | (key, e) :: rest =>
    match e.value? with
    | none => none
    | some v =>
      match items.assign v key with
      | none => none
      | some items => pairItems? items rest

end

structure Draft where
  items : Items
  path : List Text

def Draft.add (d : Draft) : Statement → Option Draft
  | .table key => (d.items.openAt Items.openTable key).map fun items => ⟨items, key⟩
  | .series key => (d.items.openAt Items.openSeries key).map fun items => ⟨items, key⟩
  | .assign key e =>
    match e.value? with
    | none => none
    | some v => (d.items.within (fun items => items.assign v key) d.path).map fun items => { d with items }

def build? (statements : List Statement) : Option Members :=
  (statements.foldlM Draft.add ⟨[], []⟩).map fun d => membersTree d.items

def parse? (t : Text) : Option Members := (statements? .narrow t).bind build?

def keyChar (c : Char) : Text :=
  match c.toNat with
  | 34 => "\\\""
  | 92 => "\\\\"
  | 8 => "\\b"
  | 9 => "\\t"
  | 10 => "\\n"
  | 12 => "\\f"
  | 13 => "\\r"
  | n => if n < 0x20 ∨ n = 0x7F then "\\u" ++ Text.hex false 4 n else Text.ofChar c

def keyPartText (part : Text) : Text :=
  if part ≠ [] ∧ part.all isBareKey then part else "\"" ++ (Text.runes part).flatMap keyChar ++ "\""

def keyText (key : List Text) : Text := Text.join "." (key.map keyPartText)

end RpcBindings.Toml
