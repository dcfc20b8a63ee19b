import RpcBindings.Dict
import RpcBindings.Settings.Layers

/-!
# Effective settings

The settings that layers of values amount to. Values are converted to the type of their key where that makes sense: a
text that reads as a number is one, and a number may stand for a truth value.
-/

namespace RpcBindings

open Toml

namespace Toml.Value

def asText? : Value → Option Text
  | text t => some t
  | integer n => some (Text.ofInt n)
  | float x => some x.plainText
  | bool b => some (if b then "1" else "0")
  | _ => none

def asInt? : Value → Option Int
  | integer n => some n
  | float x => some x.whole
  | bool b => some (if b then 1 else 0)
  | text t => if t = [] then some 0 else (Integer.parse t).toOption
  | _ => none

def truth? (t : Text) : Option Bool :=
  if t = [] then some false
  else if (["1", "t", "T", "true", "TRUE", "True"].map Text.ofString).contains t then some true
  else if (["0", "f", "F", "false", "FALSE", "False"].map Text.ofString).contains t then some false
  else none

def asBool? : Value → Option Bool
  | bool b => some b
  | integer n => some (n != 0)
  | float x => some !x.isZero
  | text t => truth? t
  | _ => none

mutual

def display : Value → Text
  | text t => t
  | integer n => Text.ofInt n
  | float x => x.shortText
  | bool b => if b then "true" else "false"
  | moment m => m.text
  | array items => "[" ++ Text.join " " (showItems items) ++ "]"
  | table members =>
    let shown : List Text := (Dict.ofList (showMembers members)).entries.map fun e => e.1 ++ ":" ++ e.2
    "map[" ++ Text.join " " shown ++ "]"

def showItems : List Value → List Text
  | [] => []
  | v :: rest => v.display :: showItems rest

def showMembers : List (Text × Value) → List (Text × Text)
  | [] => []
  | (name, v) :: rest => (name, v.display) :: showMembers rest

end

end Toml.Value

namespace Settings.Layers

def instead? (l : Layers) (table : Text) : Option Value :=
  match l.files.lookup table with
  | some (.table _) => .none
  | some v => if (l.overrides.lookup table).isNone then some v else .none
  | .none => .none

/-- Whether a moment stands for a table of the settings. Such a table is empty, whatever its keys are elsewhere. -/
def isHollow (l : Layers) (table : Text) : Bool :=
  match l.instead? table with
  | some (.moment _) => (l.inEnvironment? table).isNone
  | _ => false

def isBroken (l : Layers) (table : Text) : Bool := (l.instead? table).isSome && !l.isHollow table

def convert {α : Type} (l : Layers) (as? : Value → Option α) (empty : α) (k : Key) : Option α :=
  if l.isHollow k.table then some empty
  else
    match l.find (Text.join "." k.path) with
    | .none => some empty
    | some v => as? v

def settings? (l : Layers) : Option Settings := do
  if tables.any l.isBroken then .none
  let path ← l.convert Value.asText? [] .inputPath
  let manifest ← l.convert Value.asText? [] .inputManifest
  let inputExtension ← l.convert Value.asText? [] .inputExtension
  let dir ← l.convert Value.asText? [] .outputDir
  let outputExtension ← l.convert Value.asText? [] .outputExtension
  let index ← l.convert Value.asBool? false .outputIndex
  let templates ← l.convert Value.asText? [] .templatesDir
  let jobs ← l.convert Value.asInt? 0 .generateJobs
  let json ← l.convert Value.asBool? false .logJson
  return ⟨⟨path, manifest, inputExtension⟩, ⟨dir, outputExtension, index⟩, ⟨templates⟩, ⟨jobs⟩, ⟨json⟩⟩

def settings (l : Layers) : Except Fault Settings :=
  match l.settings? with
  | some s => .ok s
  | .none => .error (.external "failed to unmarshal config")

end Settings.Layers

end RpcBindings
