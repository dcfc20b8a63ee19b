import RpcBindings.Check.Metadata
import RpcBindings.Generate.Run

/-!
# Checking generated files

A check generates into a temporary directory and compares what it finds there with the output directory. Files may be
missing, changed, or left over from services that are gone. The output directory is only read.
-/

namespace RpcBindings.Check

open Files Generate

structure Finding where
  path : Text
  status : Status
  diff : Text
  deriving DecidableEq

structure Verdict where
  findings : List Finding
  report : Report

def Verdict.upToDate (v : Verdict) : Bool := v.findings.isEmpty

def compare (files : System) (outputDir fresh : Text) : Except Fault (Option Finding) := do
  let existing := Path.join [outputDir, Path.base fresh]
  let want ← (files.read fresh).mapError fun f => .ofIo ("failed to read " ++ Text.guarded fresh) f.fault
  match files.read existing with
  | .error f =>
    if f.refusal = .notFound then return some ⟨existing, .missing, []⟩
    else throw (.ofIo ("failed to read " ++ Text.guarded existing) f.fault)
  | .ok found =>
    let diff := difference existing found want
    return if diff = [] then none else some ⟨existing, .changed, diff⟩

def inspect (files : System) (outputDir extension : Text) (fresh : List Text) (name : Text) (entry : Entry) :
    Except Fault (Option Finding) :=
  if entry.isDirectory || fresh.contains name || !Text.endsWith name extension then .ok none
  else
    let path := Path.join [outputDir, name]
    match files.read path with
    | .error f => .error (.ofIo ("failed to open " ++ Text.guarded path) f.fault)
    | .ok content => .ok (if isGenerated content then some ⟨path, .orphaned, []⟩ else none)

def leftOver (files : System) (outputDir extension : Text) (fresh : List Text) : Except Fault (List Finding) :=
  match files.list outputDir with
  | .error f =>
    if f.refusal = .notFound then .ok []
    else .error (.ofIo ("failed to read output directory " ++ Text.guarded outputDir) f.fault)
  | .ok entries => do
    let inspected ← entries.mapM fun (name, entry) => inspect files outputDir extension fresh name entry
    return inspected.filterMap id

def assess (files : System) (outputDir extension : Text) (report : Report) : Except Fault Verdict := do
  let compared ← report.paths.mapM (compare files outputDir)
  let orphans ← leftOver files outputDir extension (report.paths.map Path.base)
  let findings := (compared.filterMap id ++ orphans).mergeSort fun a b => decide (a.path ≤ b.path)
  return ⟨findings, report⟩

structure Outcome where
  files : System
  log : List Log.Entry
  result : Except Fault Verdict

/-- The log of a run in a temporary directory; what the run itself says names the directory. -/
def placedLog (dir : Text) (log : List Log.Entry) : List Log.Entry :=
  log.map fun e => if e.component = component then { e with fields := ("dir", .text dir) :: e.fields } else e

def run (g : Generator) (files : System) (temporary : Text) (signal : Signal) (paths : List Text)
    (setbacks : Setbacks := fun _ => none) : Outcome :=
  let created := do
    let dir ← files.freePath "mkdirtemp" temporary "krpcgen-check-"
    let staged ← files.mkdir dir
    return (dir, staged)
  match created with
  | .error f => ⟨files, [], .error (.ofIo "failed to create temp directory" f.fault)⟩
  | .ok (dir, staged) =>
    let shadow : Generator := { g with options := { g.options with outputDir := dir } }
    let r := shadow.generateIn id staged signal paths setbacks
    let result := match r.fault, r.report with
      | some f, _ => .error f
      | none, none => .error .cancelled
      | none, some report => assess r.files g.options.outputDir g.options.extension report
    ⟨r.files.removeAll dir, placedLog dir r.log, result⟩

end RpcBindings.Check
