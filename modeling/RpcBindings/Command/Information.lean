import RpcBindings.Binding.Outline
import RpcBindings.Command.Action
import RpcBindings.Settings.Save

/-!
# Commands that show and set up

Showing the context of a service, the settings and the version, and writing a first settings file.
-/

namespace RpcBindings.Command

def selectServices (d : Document) (name : Text) : Except Fault (List Service) :=
  if name = [] then .ok d.services.values
  else
    match d.services.get? name with
    | some s => .ok [s]
    | none => .error (.hinted ("available services: " ++ Text.join ", " d.services.keys)
        (.plain ("service " ++ Text.guarded name ++ " not found in " ++ Text.guarded d.path)))

def inspect (w : Surroundings) (c : Call) : Action Unit := do
  let format ← Action.ofResult (Format.ofFlag "format" (some (c.given.text "format" "yaml")) ["yaml", "json"])
  let path := c.arguments.headD []
  let d ← Action.ofResult (Document.load (← Action.files) path)
  let services ← Action.ofResult (selectServices d (c.given.text "service" []))
  let g ← newGenerator w ⟨[], [], false, 0, c.given.text "templates" [], []⟩
  if c.given.truth "render" false then
    for s in services do
      Action.note (Binding.partitionLog s)
      Action.print (← Action.ofResult (g.renderService s path))
  else
    let contexts ← services.mapM fun s => do
      Action.note (Binding.partitionLog s)
      Action.ofResult (Generate.context s path)
    Action.print (← Action.ofResult (Format.writeNamed format (.list (contexts.map Binding.Context.outline))))

def init (c : Call) : Action Unit := do
  let path := Path.join [c.arguments.headD ".", Settings.fileName]
  let files ← Action.files
  if (files.stat path).toOption.isSome && !c.given.truth "force" false then
    throw (.hinted "use --force to overwrite it (a backup is kept)" (.plain (Text.guarded path ++ " already exists")))
  let input := c.given.text "input" []
  let out := c.given.text "out" []
  let s := Settings.default
  let s := if input = [] then s else { s with input := { s.input with path := input } }
  let s := if out = [] then s else { s with output := { s.output with dir := out } }
  Action.ofResult (s.check.mapError Settings.Defect.fault)
  let saving := s.save files path
  Action.setFiles saving.files
  Action.note saving.log
  match saving.fault with
  | some f => throw f
  | none => Action.say ("✓ Wrote " ++ path ++ "\n")

def configShow (w : Surroundings) (c : Call) : Action Unit := do
  let format ←
    Action.ofResult (Format.ofFlag "format" (some (c.given.text "format" "toml")) ["toml", "json", "yaml"])
  let e ← loadSettings w c none
  if format ≠ "json" then Action.print "# krpcgen configuration\n"
  Action.print (← Action.ofResult (Format.writeNamed format e.settings.tree))

def configGet (w : Surroundings) (c : Call) : Action Unit := do
  let key := c.arguments.headD []
  let e ← loadSettings w c none
  match e.layers.find (Text.lowered key) with
  | some v => Action.print (v.display ++ "\n")
  | none =>
    throw (.hinted "keys use dot notation, e.g. output.dir; see 'krpcgen config show'"
      (.plain ("configuration key " ++ Text.guarded (Text.quoted key) ++ " not found")))

def mergedLine (s : Settings.Source) : Text :=
  consoleLine ("  " ++ Text.upperAscii s.kind.text ++ " " ++ s.path ++ "\n")

def cascadeText : Text :=
  "Configuration cascade (later overrides earlier):\n" ++
  "  1. [DEFAULT]  Built-in defaults\n" ++
  "  2. [USER]     ~/.config/krpcgen/krpcgen.toml\n" ++
  "  3. [PROJECT]  ./krpcgen.toml (searches up directories)\n" ++
  "  4. [FILE]     --config\n" ++
  "  5. [ENV]      KRPCGEN_* environment variables\n" ++
  "  6. [FLAGS]    command line flags\n\n"

def configWhere (w : Surroundings) (c : Call) : Action Unit := do
  let e ← loadSettings w c none
  Action.print cascadeText
  if e.sources.isEmpty then Action.print "No configuration files found, using defaults\n"
  else Action.print ("Merged files:\n" ++ e.sources.flatMap mergedLine)

def version (w : Surroundings) (c : Call) : Action Unit :=
  if c.given.truth "json" false then Action.print (Format.json w.build.tree)
  else Action.print (w.build.describe ++ "\nPlatform: " ++ w.build.platform ++ "\nGo: " ++ w.build.compiler ++ "\n")

end RpcBindings.Command
