import RpcBindings.Files.System
import RpcBindings.Format.Toml
import RpcBindings.Log.Entry
import RpcBindings.Settings.Basic

/-!
# Saving settings

Settings are saved as TOML. What was saved before is kept in three backups, the newest first; saving moves each backup
one place on and drops the oldest.
-/

namespace RpcBindings.Settings

open Files

def backupPath (path : Text) (n : Nat) : Text := path ++ ".back" ++ Text.ofNat n

def backupCount : Nat := 3

/-- What the operating system denies a save: to drop the oldest backup, to move another one, to read the settings, or to
write the first backup or the settings to the end. -/
structure Denials where
  drop : Option Text
  move : Nat → Option Text
  read : Option Text
  copy : Option Stop
  write : Option Stop

def Denials.none : Denials := ⟨.none, fun _ => .none, .none, .none, .none⟩

def unlessDenied {α : Type} (denial : Option Text) (operation : Text) (paths : List Text) (result : Except SystemFault α) :
    Except Fault α :=
  match denial with
  | some reason => .error (.system operation paths reason)
  | none => result.mapError SystemFault.fault

structure Saving where
  files : System
  log : List Log.Entry
  fault : Option Fault

/-- Moves the backups numbered `n` and below one place on, the last first. -/
def shiftBackups (files : System) (path : Text) (n : Nat) (denials : Denials := .none) : Saving :=
  match n with
  | 0 => ⟨files, [], none⟩
  | n + 1 =>
    let source := backupPath path (n + 1)
    let target := backupPath path (n + 2)
    match files.stat source with
    | .error _ => shiftBackups files path n denials
    | .ok _ =>
      match unlessDenied (denials.move (n + 1)) "rename" [source, target] (files.rename source target) with
      | .error f => ⟨files, [], some (.ofIo ("rotate " ++ Text.guarded source) f)⟩
      | .ok files => shiftBackups files path n denials

def dropOldest (files : System) (path : Text) (denial : Option Text := none) : Saving :=
  let oldest := backupPath path backupCount
  let warning (f : Fault) : Log.Entry :=
    ⟨.warn, [], "Failed to delete old config backup", [("file", .text oldest), ("error", .fault f)]⟩
  match denial with
  | some reason => ⟨files, [warning (.system "remove" [oldest] reason)], none⟩
  | none =>
    match files.remove oldest with
    | .ok files => ⟨files, [], none⟩
    | .error f => if f.refusal = .notFound then ⟨files, [], none⟩ else ⟨files, [warning f.fault], none⟩

def isAbsent (files : System) (path : Text) : Bool :=
  match files.stat path with
  | .error f => f.refusal = .notFound
  | .ok _ => false

def backUp (files : System) (path : Text) (denials : Denials := .none) : Saving :=
  if isAbsent files path then ⟨files, [], none⟩
  else
    let dropped := dropOldest files path denials.drop
    let shifted := shiftBackups dropped.files path (backupCount - 1) denials
    match shifted.fault with
    | some f => ⟨shifted.files, dropped.log, some f⟩
    | none =>
      match unlessDenied denials.read "open" [path] (shifted.files.read path) with
      | .error f => ⟨shifted.files, dropped.log, some (.ofIo "read config for backup" f)⟩
      | .ok content =>
        let (files, fault) := shifted.files.overwrite (backupPath path 1) content denials.copy
        ⟨files, dropped.log, fault.map (.ofIo "create .back1")⟩

def save (s : Settings) (files : System) (path : Text) (denials : Denials := .none) : Saving :=
  match files.mkdirAll (Path.dir path) with
  | .error f =>
    ⟨files.mkdirAllRest (Path.dir path), [],
      some (.ofIo ("create config directory for " ++ Text.guarded path) f.fault)⟩
  | .ok files =>
    let backed := backUp files path denials
    match backed.fault with
    | some f => { backed with fault := some (.within "failed to create backup" f) }
    | none =>
      let (files, fault) := backed.files.overwrite path (Format.toml s.tree) denials.write
      ⟨files, backed.log, fault.map (.ofIo ("write config " ++ Text.guarded path))⟩

end RpcBindings.Settings
