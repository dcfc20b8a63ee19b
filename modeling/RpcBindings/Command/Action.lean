import RpcBindings.Command.Console
import RpcBindings.Command.Verb
import RpcBindings.Format.Choice
import RpcBindings.Generate.Run
import RpcBindings.Log.Verbosity
import RpcBindings.Settings.Load
import RpcBindings.Version

/-!
# Actions

A command works on files, prints, and logs. It may fail at any moment; what it did until then stays done.
-/

namespace RpcBindings.Command

open Files

structure Desk where
  files : System
  output : Text
  log : List Log.Entry

abbrev Action := ExceptT Fault (StateM Desk)

structure Surroundings where
  environment : List (Text × Text)
  build : Build
  temporary : Text

namespace Action

def print (t : Text) : Action Unit := modify fun d => { d with output := d.output ++ t }

def say (line : Text) : Action Unit := print (consoleLine line)

def note (entries : List Log.Entry) : Action Unit := modify fun d => { d with log := d.log ++ entries }

def ofResult {α : Type} (r : Except Fault α) : Action α :=
  match r with
  | .ok a => pure a
  | .error f => throw f

def files : Action System := return (← get).files

def setFiles (files : System) : Action Unit := modify fun d => { d with files }

end Action

def Call.verbosity (c : Call) : Int := countOf c.given "verbose"

def flagKey? (flag : Text) : Option Text :=
  ([("out", "output.dir"), ("ext", "output.extension"), ("index", "output.index"), ("jobs", "generate.jobs"),
    ("templates", "templates.dir"), ("manifest", "input.manifest"), ("input-ext", "input.extension")].map
      fun (f, k) => (Text.ofString f, Text.ofString k)).lookup flag

def FlagValue.setting : FlagValue → Toml.Value
  | text t => .text t
  | whole n => .integer n
  | truth b => .bool b
  | duration d => .integer d

def Call.flagSettings (c : Call) : List (Text × Toml.Value) :=
  c.given.filterMap fun (name, v) => (flagKey? name).map fun key => (key, v.setting)

/-- A path among the arguments is the input, instead of a manifest unless that is a flag. -/
def Call.inputOverrides (c : Call) (path : Option Text) : Toml.Members :=
  match path with
  | none => []
  | some p =>
    if c.given.has "manifest" then [("input", .table [("path", .text p)])]
    else [("input", .table [("path", .text p), ("manifest", .text "")])]

def Call.layers (c : Call) (w : Surroundings) (merged : Toml.Members) (path : Option Text) : Settings.Layers :=
  ⟨c.inputOverrides path, c.flagSettings, some w.environment, merged⟩

structure Effective where
  settings : Settings
  layers : Settings.Layers
  sources : List Settings.Source

def sourceLine (s : Settings.Source) : Text := consoleLine ("  config " ++ s.kind.text ++ " " ++ s.path ++ "\n")

def Call.effective (c : Call) (w : Surroundings) (merged : Toml.Members) (path : Option Text) :
    Except Fault (Settings × Settings.Layers) := do
  let layers := c.layers w merged path
  let s ← layers.settings
  (s.check).mapError Settings.Defect.fault
  return (s, layers)

def loadSettings (w : Surroundings) (c : Call) (path : Option Text) : Action Effective := do
  let loader : Settings.Loader := ⟨[], [], c.given.text "config" []⟩
  let loading := loader.load (← Action.files) w.environment
  Action.note loading.log
  let (merged, sources) ← Action.ofResult loading.result
  let (s, layers) ← Action.ofResult (c.effective w merged path)
  if Log.Category.config.shown c.verbosity then Action.print (sources.flatMap sourceLine)
  return ⟨s, layers, sources⟩

def newGenerator (w : Surroundings) (o : Generate.Options) : Action Generate.Generator := do
  Action.ofResult (Generate.Generator.new (← Action.files) w.build.short o)

end RpcBindings.Command
