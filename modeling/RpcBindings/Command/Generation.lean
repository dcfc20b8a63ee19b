import RpcBindings.Check.Run
import RpcBindings.Command.Action
import RpcBindings.Generate.Inputs
import RpcBindings.Watch.State

/-!
# Commands that generate

Generating, checking generated files, and generating again whenever service files change.
-/

namespace RpcBindings.Command

open Generate

def inputFiles (s : Settings) : Action (List Text) := do
  let paths ← Action.ofResult (inputs (← Action.files) s.input.path s.input.manifest s.input.extension)
  if paths.isEmpty then
    throw (.hinted "pass a service file or directory, or set input.path in krpcgen.toml"
      (.plain ("no service files found in " ++ Text.guarded s.input.path)))
  return paths

def writtenLine (w : Written) : Text :=
  consoleLine ("  ✓ " ++ coloured w.path ++ " " ++ coloured ("(" ++ w.service ++ ")") ++ "\n")

def failureHint (hint : Text) : Text := if hint = [] then [] else consoleLine ("    hint: " ++ hint ++ "\n")

def failedLines (f : Failure) : Text :=
  consoleLine ("  ✗ " ++ f.located.message ++ "\n") ++ failureHint f.fault.flatHints

def indexLine (path : Text) : Text := if path = [] then [] else consoleLine ("  ✓ " ++ coloured path ++ "\n")

def summaryLine (r : Report) : Text :=
  (if r.ok then "✓" else "!" : Text) ++ " Generated " ++ Text.ofNat r.written.length ++ " of " ++
    Text.ofNat r.services ++ " services from " ++ Text.ofNat r.documents ++ " files\n"

def reportText (verbosity : Int) (r : Report) : Text :=
  (if Log.Category.progress.shown verbosity then r.written.flatMap writtenLine ++ indexLine r.index else []) ++
    r.failed.flatMap failedLines ++ summaryLine r

def runAndReport (c : Call) (g : Generator) (paths : List Text) : Action (Report × Option Fault) := do
  let run := g.generate (← Action.files) .never paths
  Action.setFiles run.files
  Action.note run.log
  match run.report with
  | none => throw (run.fault.getD .cancelled)
  | some report =>
    Action.print (reportText c.verbosity report)
    return (report, run.fault)

def generate (w : Surroundings) (c : Call) : Action Unit := do
  let e ← loadSettings w c c.arguments.head?
  let g ← newGenerator w (.ofSettings e.settings)
  let paths ← inputFiles e.settings
  let (report, fault) ← runAndReport c g paths
  if fault.isSome then
    throw (.plain ("generation finished with " ++ Text.ofNat report.failed.length ++ " failures"))

def findingText (showDiff : Bool) (f : Check.Finding) : Text :=
  consoleLine ("  ✗ " ++ coloured f.path ++ " (" ++ f.status.text ++ ")\n") ++
    (if showDiff ∧ f.diff ≠ [] then consoleLine (f.diff ++ "\n") else [])

def check (w : Surroundings) (c : Call) : Action Unit := do
  let e ← loadSettings w c c.arguments.head?
  let g ← newGenerator w (.ofSettings e.settings)
  let paths ← inputFiles e.settings
  let outcome := Check.run g (← Action.files) w.temporary .never paths
  Action.setFiles outcome.files
  Action.note outcome.log
  let verdict ← Action.ofResult outcome.result
  if verdict.upToDate then
    Action.say ("✓ " ++ Text.ofNat verdict.report.written.length ++ " modules in " ++ e.settings.output.dir ++
      " are up to date\n")
  else
    Action.print (verdict.findings.flatMap (findingText (c.given.truth "diff" true)))
    Action.print "! Run 'krpcgen generate' to update\n"
    throw (.within (Text.ofNat verdict.findings.length ++ " files") (.plain Category.stale.text))

def watchedPaths (files : Files.System) (s : Settings) : List Text :=
  if s.input.manifest = [] then [s.input.path]
  else
    match readManifest files s.input.manifest with
    | .ok paths => s.input.manifest :: paths
    | .error _ => [s.input.manifest]

def regenerate (c : Call) (g : Generator) (s : Settings) (changed : List Text) : Action Unit := do
  let paths ← inputFiles s
  let _ ← runAndReport c g paths
  Action.note [⟨.info, [], "Regenerated", [("count", .number changed.length), ("duration_ms", .number 0)]⟩]

structure Watching where
  call : Call
  settings : Settings
  generator : Generator
  watcher : Watch.Watcher

def beginWatch (w : Surroundings) (c : Call) : Action Watching := do
  let e ← loadSettings w c c.arguments.head?
  let g ← newGenerator w (.ofSettings e.settings)
  regenerate c g e.settings []
  let files ← Action.files
  let paths := watchedPaths files e.settings
  let watcher ← Action.ofResult (Watch.Watcher.new files e.settings.input.extension paths)
  let scope := watcher.state.scope.ignore e.settings.output.dir
  let state := { watcher.state with scope }.register none
  Action.say ("→ Watching [" ++ Text.join " " paths ++ "] (Ctrl-C to stop)\n")
  return ⟨c, e.settings, g, { watcher with state }⟩

def Watching.regenerate (t : Watching) (changed : List Text) : Action Unit := do
  Action.note (changed.map fun path => ⟨.debug, [], "Service file changed", [("file", .text path)]⟩)
  try Command.regenerate t.call t.generator t.settings changed
  catch f =>
    Action.note [⟨.error, [], "Regeneration failed", [("error", .fault f)]⟩]
    Action.say ("  ✗ " ++ f.shown ++ "\n")

/-- Changed files reach a watch; those that matter are generated from again, in one batch. -/
def Watching.react (t : Watching) (changed : List Text) : Action Watching := do
  let files ← Action.files
  let heard := changed.filterMap (t.watcher.heard? files)
  let noticed := heard.foldl (fun s path => s.notice path ⟨false, true, false, false, false⟩) t.watcher.state
  let delivered := noticed.deliver
  Action.note delivered.log
  for h in delivered.handed do t.regenerate h.changed
  return { t with watcher := { t.watcher with state := { delivered with handed := [], log := [] } } }

end RpcBindings.Command
