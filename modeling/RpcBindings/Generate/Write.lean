import RpcBindings.Files.System

/-!
# Writing in one step

A file is written beside its place under a temporary name and then moved there, so that at no moment its place holds a
part of it.
-/

namespace RpcBindings.Generate

open Files

def temporaryStem (name : Text) : Text := "." ++ name ++ ".tmp."

def temporaryPath (files : System) (path : Text) : Except SystemFault Text :=
  files.freePath "createtemp" (Path.dir path) (temporaryStem (Path.base path))

structure Attempt where
  files : System
  fault : Option Fault

inductive Step where
  | mode
  | content
  | sync
  | close
  deriving DecidableEq

namespace Step

def operation : Step → Text
  | mode => "chmod"
  | content => "write"
  | sync => "sync"
  | close => "close"

def failure : Step → Text
  | mode => "failed to set mode of "
  | content => "failed to write "
  | sync => "failed to sync "
  | close => "failed to close "

end Step

/-- A step that the operating system refuses, when the temporary file holds some text already. -/
structure Setback where
  step : Step
  held : Text
  reason : Text

namespace Setback

def fault (s : Setback) (temporary : Text) : Fault :=
  .ofIo (s.step.failure ++ Text.guarded temporary) (.system s.step.operation [temporary] s.reason)

end Setback

abbrev Setbacks := Text → Option Setback

def discard (staged : System) (temporary : Text) : System :=
  match staged.remove temporary with
  | .ok cleared => cleared
  | .error _ => staged

/-- Writes a file in one step. A failed attempt leaves no temporary file behind. -/
def writeWhole (files : System) (path content : Text) (setback : Option Setback := none) : Attempt :=
  let created := do
    let temporary ← temporaryPath files path
    let staged ← files.write temporary (match setback with
      | some s => s.held
      | none => content)
    return (temporary, staged)
  match created with
  | .error f => ⟨files, some (.ofIo ("failed to create temp file for " ++ Text.guarded path) f.fault)⟩
  | .ok (temporary, staged) =>
    match setback with
    | some s => ⟨discard staged temporary, some (s.fault temporary)⟩
    | none =>
      match staged.rename temporary path with
      | .ok done => ⟨done, none⟩
      | .error f =>
        ⟨discard staged temporary, some (.ofIo ("failed to move " ++ Text.guarded path ++ " into place") f.fault)⟩

end RpcBindings.Generate
