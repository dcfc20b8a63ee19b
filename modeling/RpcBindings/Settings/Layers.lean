import RpcBindings.Number.Integer
import RpcBindings.Settings.Basic
import RpcBindings.Text.Case
import RpcBindings.Toml.Value

/-!
# Layers of settings

A setting may be given in several places. From the strongest to the weakest: values the program itself puts in place,
flags, the environment, the merged files, defaults. The first place that has a value for a key decides it.
-/

namespace RpcBindings

open Toml

inductive Key where
  | inputPath
  | inputManifest
  | inputExtension
  | outputDir
  | outputExtension
  | outputIndex
  | templatesDir
  | generateJobs
  | logJson
  deriving DecidableEq

namespace Key

def all : List Key :=
  [inputPath, inputManifest, inputExtension, outputDir, outputExtension, outputIndex, templatesDir, generateJobs,
   logJson]

def table : Key → Text
  | inputPath | inputManifest | inputExtension => "input"
  | outputDir | outputExtension | outputIndex => "output"
  | templatesDir => "templates"
  | generateJobs => "generate"
  | logJson => "log"

def name : Key → Text
  | inputPath => "path"
  | inputManifest => "manifest"
  | inputExtension | outputExtension => "extension"
  | outputDir | templatesDir => "dir"
  | outputIndex => "index"
  | generateJobs => "jobs"
  | logJson => "json"

def path (k : Key) : List Text := [k.table, k.name]

def default : Key → Value
  | inputPath => .text "."
  | inputManifest => .text ""
  | inputExtension => .text ".json"
  | outputDir => .text "src/services"
  | outputExtension => .text ".rs"
  | outputIndex => .bool true
  | templatesDir => .text ""
  | generateJobs => .integer 0
  | logJson => .bool false

end Key

namespace Settings

def tables : List Text := (Key.all.map Key.table).eraseDups

def defaults : Members :=
  tables.map fun t => (t, .table ((Key.all.filter fun k => k.table = t).map fun k => (k.name, k.default)))

mutual

def lowerKeys : Value → Value
  | .table members => .table (lowerMembers members)
  | .array items => .array (lowerItems items)
  | v => v

def lowerItems : List Value → List Value
  | [] => []
  | v :: rest => lowerKeys v :: lowerItems rest

def lowerMembers : List (Text × Value) → Members
  | [] => []
  | (name, v) :: rest => (Text.lowered name, lowerKeys v) :: lowerMembers rest

end

def putMember (members : Members) (name : Text) (v : Value) : Members :=
  if (members.lookup name).isSome then members.map fun m => if m.1 = name then (name, v) else m
  else members ++ [(name, v)]

mutual

/-- A value on top of another. Tables are merged; a table stays where the upper value is none. -/
def mergeValue (lower : Value) : Value → Value
  | .table members =>
    match lower with
    | .table inner => .table (mergeMembers inner members)
    | _ => .table members
  | v =>
    match lower with
    | .table inner => .table inner
    | _ => v

def mergeMembers (lower : Members) : List (Text × Value) → Members
  | [] => lower
  | (name, v) :: rest =>
    match if name.isEmpty then none else lower.lookup name with
    | none => mergeMembers (putMember lower name v) rest
    | some old => mergeMembers (putMember lower name (mergeValue old v)) rest

end

def valueAt? (members : Members) : List Text → Option Value
  | [] => none
  | [name] => members.lookup name
  | name :: path =>
    match members.lookup name with
    | some (.table inner) => valueAt? inner path
    | _ => none

def isBlocked (members : Members) : List Text → Bool
  | [] => false
  | [_] => false
  | name :: path =>
    match members.lookup name with
    | some (.table inner) => isBlocked inner path
    | some _ => true
    | none => false

def placeNumber? (name : Text) : Option Int :=
  let (sign, digits) : Int × Text := match name with
    | 43 :: rest => (1, rest)
    | 45 :: rest => (-1, rest)
    | _ => (1, name)
  if digits ≠ [] ∧ digits.all Text.isDigit then some (sign * Text.decimalValue digits) else none

def part? (v : Value) (name : Text) : Option Value :=
  match v with
  | .table members => members.lookup name
  | .array items =>
    match placeNumber? name with
    | some n => if n < 0 then none else items[n.toNat]?
    | none => none
  | _ => none

/-- Looks for a path in a value. A name may hold dots, so several elements of the path can be one name; the longest name
is tried first. -/
def search : (fuel : Nat) → Value → List Text → Option Value
  | 0, _, _ => none
  | fuel + 1, v, path =>
    (List.range path.length).reverse.findSome? fun i =>
      match part? v (Text.join "." (path.take (i + 1))) with
      | none => none
      | some next =>
        if i + 1 = path.length then some next
        else
          match next with
          | .table _ => search fuel next (path.drop (i + 1))
          | .array _ => search fuel next (path.drop (i + 1))
          | _ => none

structure Layers where
  overrides : Members
  flags : List (Text × Value)
  environment : Option (List (Text × Text))
  files : Members

namespace Layers

def none : Layers := ⟨[], [], .none, []⟩

def variableName (key : Text) : Text :=
  (Text.raised ("KRPCGEN_" ++ key)).map fun b => if b = 46 then 95 else b

def inEnvironment? (l : Layers) (key : Text) : Option Text :=
  match l.environment with
  | .none => .none
  | some values => (values.lookup (variableName key)).filter fun v => !v.isEmpty

/-- Whether the environment sets something that a path goes through. -/
def environmentBlocks (l : Layers) (path : List Text) : Bool :=
  (List.range path.length).any fun i => 0 < i && (l.inEnvironment? (Text.join "." (path.take i))).isSome

def find (l : Layers) (key : Text) : Option Value :=
  let path := Text.splitOn 46 key
  match valueAt? l.overrides path with
  | some v => some v
  | .none =>
    if isBlocked l.overrides path then .none
    else
      match l.flags.lookup key with
      | some v => some v
      | .none =>
        match l.inEnvironment? key with
        | some t => some (.text t)
        | .none =>
          if l.environmentBlocks path then .none
          else
            match search path.length (.table l.files) path with
            | some v => some v
            | .none => if isBlocked l.files path then .none else valueAt? defaults path

end Layers

end Settings

end RpcBindings
