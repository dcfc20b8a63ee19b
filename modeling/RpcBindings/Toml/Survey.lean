import RpcBindings.Toml.Document

/-!
# Surveys of a document

A survey lists the keys that a document declares, in their order and with repetitions, and finds what kind of value
stands under each. It reads the document widely and is lenient about tables: a key with dots may go on in any table, and
what an array left under a key may be replaced. A table that came about only on the way to another may be declared once;
a value declared under its key is dropped.
-/

namespace RpcBindings.Toml

inductive Node where
  | text
  | integer
  | bool
  | other
  | list
  | table (members : List (Text × Node))
  | series (tables : List (List (Text × Node)))

abbrev Nodes := List (Text × Node)

namespace Nodes

def put (ns : Nodes) (name : Text) (n : Node) : Nodes :=
  if (ns.lookup name).isSome then ns.map fun e => if e.1 = name then (name, n) else e else ns ++ [(name, n)]

def at? (ns : Nodes) : (path : List Text) → Option Nodes
  | [] => some ns
  | name :: path =>
    match ns.lookup name with
    | some (.table inner) => at? inner path
    | some (.series tables) => tables.getLast?.bind fun last => at? last path
    | _ => none

/-- Changes the table at a path. Tables on the way are created where they are missing. -/
def changeAt (f : Nodes → Option Nodes) (ns : Nodes) : (path : List Text) → Option Nodes
  | [] => f ns
  | name :: path =>
    match ns.lookup name with
    | none => (changeAt f [] path).map fun inner => ns ++ [(name, .table inner)]
    | some (.table inner) => (changeAt f inner path).map fun inner => ns.put name (.table inner)
    | some (.series tables) =>
      match tables.getLast? with
      | none => none
      | some last => (changeAt f last path).map fun last => ns.put name (.series (tables.dropLast ++ [last]))
    | some _ => none

def missing (ns : Nodes) (done : List Text) : (path : List Text) → List (List Text)
  | [] => []
  | name :: path =>
    let here := done ++ [name]
    match ns.lookup name with
    | none => here :: missing [] here path
    | some (.table inner) => missing inner here path
    | some (.series tables) => missing (tables.getLast?.getD []) here path
    | some _ => []

def insert (ns : Nodes) (n : Node) : (path : List Text) → Option Nodes
  | [] => none
  | [name] => some (ns.put name n)
  | name :: path =>
    match ns.lookup name with
    | none => (insert [] n path).map fun inner => ns.put name (.table inner)
    | some (.table inner) => (insert inner n path).map fun inner => ns.put name (.table inner)
    | some _ => none

def extend (ns : Nodes) (name : Text) : Option Nodes :=
  match ns.lookup name with
  | none => some (ns.put name (.series [[]]))
  | some (.series tables) => some (ns.put name (.series (tables ++ [[]])))
  | some _ => none

end Nodes

structure Survey where
  root : Nodes
  implied : List (List Text)
  arrays : List (List Text)
  declared : List (List Text)
  context : List Text
  current : Text

namespace Survey

def start : Survey := ⟨[], [], [], [], [], []⟩

def imply (s : Survey) (key : List Text) : Survey :=
  if s.implied.contains key then s else { s with implied := key :: s.implied }

/-- Takes note of whether an array stands under a name of the open table. The empty name stands for the table itself. -/
def noteKind (s : Survey) (name : Text) (isArray : Bool) : Survey :=
  let key := s.context ++ (if name.isEmpty then [] else [name])
  let key := if key.isEmpty then [[]] else key
  let others := s.arrays.filter (· != key)
  { s with arrays := if isArray then key :: others else others }

def assign (s : Survey) (name : Text) (n : Node) : Option Survey := do
  let key := s.context ++ [name]
  let ns ← s.root.at? s.context
  let replaced := s.root.changeAt (fun ns => some (ns.put name n)) s.context
  if (ns.lookup name).isNone then return { s with root := ← replaced }
  else if s.arrays.contains key then return { s with root := ← replaced, implied := s.implied.filter (· != key) }
  else if s.implied.contains key then return { s with implied := s.implied.filter (· != key) }
  else none

def openAt (s : Survey) (key : List Text) (series : Bool) : Option Survey := do
  let parents := key.dropLast
  let name := key.getLastD []
  let s := (s.root.missing [] parents).foldl imply s
  let root ← s.root.changeAt some parents
  let s := { s with root, context := parents }
  let s ← if series then do
      let root ← s.root.changeAt (fun ns => ns.extend name) parents
      pure { s with root }
    else s.assign name (.table [])
  return { s with context := key }

def declare (s : Survey) (key : List Text) : Option Survey := do
  let s ← key.dropLast.foldlM (fun s part =>
    let path := s.context ++ [part]
    (s.imply path).openAt path false) { s with current := key.getLastD [] }
  return { s with declared := (s.context ++ [s.current]) :: s.declared }

end Survey

namespace Expr

def isArray : Expr → Bool
  | array _ => true
  | _ => false

mutual

def survey (inArray : Bool) : Expr → Survey → Option (Node × Survey)
  | text _, s => some (.text, s)
  | integer _, s => some (.integer, s)
  | bool _, s => some (.bool, s)
  | float _, s => some (.other, s)
  | moment _, s => some (.other, s)
  | array items, s => (surveyItems items (s.noteKind s.current true)).map fun s => (.list, s)
  | inline pairs, s =>
    let here := s.context ++ [s.current]
    match (Survey.imply { s with context := here, current := [] } here).openAt here inArray with
    | none => none
    | some inner =>
      (surveyPairs here [] pairs inner).map fun (members, after) =>
        (.table members, { after with context := s.context, current := s.current })

def surveyItems : List Expr → Survey → Option Survey
  | [], s => some s
  | e :: rest, s =>
    match e.survey true s with
    | none => none
    | some (_, s) => surveyItems rest s

def surveyPairs (here : List Text) (members : Nodes) : List (List Text × Expr) → Survey → Option (Nodes × Survey)
  | [], s => some (members, s)
  | (key, e) :: rest, s =>
    match s.declare key with
    | none => none
    | some s =>
      match e.survey false s with
      | none => none
      | some (n, s) =>
        match s.assign s.current n, members.insert n key with
        | some s, some members =>
          surveyPairs here members rest { s.noteKind s.current e.isArray with context := here }
        | _, _ => none

end

end Expr

namespace Survey

def add (s : Survey) : Statement → Option Survey
  | .table key => do
    let s ← s.openAt key false
    return { s.noteKind [] false with declared := key :: s.declared }
  | .series key => do
    let s ← s.openAt key true
    return { s.noteKind [] false with declared := key :: s.declared }
  | .assign key e => do
    let (n, inner) ← e.survey false (← s.declare key)
    let inner ← inner.assign inner.current n
    return { inner.noteKind inner.current e.isArray with context := s.context, current := [] }

end Survey

def dropMark : Text → Text
  | 0xFF :: 0xFE :: rest => rest
  | 0xFE :: 0xFF :: rest => rest
  | 0xEF :: 0xBB :: 0xBF :: rest => rest
  | t => t

def survey? (t : Text) : Option Survey :=
  (statements? .wide (dropMark t)).bind fun ss => ss.foldlM Survey.add Survey.start

end RpcBindings.Toml
