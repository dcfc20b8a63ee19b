import RpcBindings.Files.System
import RpcBindings.Settings.Layers
import RpcBindings.Toml.Survey

/-!
# Unknown keys

A settings file may declare keys that mean nothing. They are found by a survey of the file, in which every known key has
to have the type it asks for.
-/

namespace RpcBindings.Settings

open Toml

def hasType (k : Key) (n : Node) : Bool :=
  match k.default, n with
  | .text _, .text => true
  | .integer _, .integer => true
  | .bool _, .bool => true
  | _, _ => false

def keyIn? (table name : Text) : Option Key :=
  Key.all.find? fun k => Text.isCaseOf table k.table && Text.isCaseOf name k.name

def fitsTable (table : Text) (members : Nodes) : Bool :=
  members.all fun m =>
    match keyIn? table m.1 with
    | some k => hasType k m.2
    | none => true

def isTable (name : Text) : Bool := tables.any fun t => Text.isCaseOf name t

def fits (root : Nodes) : Bool :=
  root.all fun m =>
    if isTable m.1 then
      match m.2 with
      | .table inner => fitsTable m.1 inner
      | _ => false
    else true

def knownKeys (root : Nodes) : List (List Text) :=
  root.flatMap fun m =>
    if isTable m.1 then
      match m.2 with
      | .table inner => [m.1] :: (inner.filter fun e => (keyIn? m.1 e.1).isSome).map fun e => [m.1, e.1]
      | _ => [[m.1]]
    else []

/-- The declared keys of a document that mean nothing, in byte order. None if the document cannot be surveyed. -/
def unknownIn? (content : Text) : Option (List Text) := do
  let s ← survey? content
  if !fits s.root then none
  let known := knownKeys s.root
  let unknown := s.declared.filter fun k => !known.contains k
  return (unknown.map keyText).mergeSort fun a b => decide (a ≤ b)

def unknownKeys (files : Files.System) (path : Text) : Except Fault (List Text) :=
  let fault := Fault.marked .parse (.external ("failed to parse config " ++ Text.guarded path))
  match files.read path with
  | .error _ => .error fault
  | .ok content =>
    match unknownIn? content with
    | some keys => .ok keys
    | none => .error fault

end RpcBindings.Settings
