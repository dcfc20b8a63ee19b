import RpcBindings.Log.Entry
import RpcBindings.Settings.Effective
import RpcBindings.Settings.Unknown

/-!
# Loading settings

Settings files are found in the home directory, in the working directory or above it, and wherever the user points. They
are merged in this order.
-/

namespace RpcBindings.Settings

open Toml

def fileName : Text := "krpcgen.toml"

def userPath (home : Text) : Text := Path.join [home, ".config", "krpcgen", fileName]

def findFrom (files : Files.System) : (fuel : Nat) → (dir : Text) → Text
  | 0, _ => []
  | fuel + 1, dir =>
    let candidate := Path.join [dir, fileName]
    if files.isFile candidate then candidate
    else
      let parent := Path.dir dir
      if parent = dir then [] else findFrom files fuel parent

def findProject (files : Files.System) (dir : Text) : Text :=
  if dir = [] then [] else findFrom files (dir.length + 2) dir

inductive SourceKind where
  | user
  | project
  | file
  deriving DecidableEq

def SourceKind.text : SourceKind → Text
  | user => "user"
  | project => "project"
  | file => "file"

structure Source where
  kind : SourceKind
  path : Text

def mergeFile (files : Files.System) (merged : Members) (path : Text) : Except Fault Members :=
  let unreadable := Fault.hinted "config files use TOML, see 'krpcgen init' for a starting point"
    (.marked .parse (.external ("failed to parse config " ++ Text.guarded path)))
  match files.entryAt path with
  | .error e => .error (.ofIo ("open config " ++ Text.guarded path) (Files.SystemFault.fault ⟨"open", [path], e⟩))
  | .ok .directory => .error unreadable
  | .ok (.file content) =>
    match parse? content with
    | none => .error unreadable
    | some members => .ok (mergeMembers merged (lowerMembers members))

def warnings (files : Files.System) (path : Text) : List Log.Entry :=
  match unknownKeys files path with
  | .error _ => []
  | .ok keys => keys.map fun key =>
    ⟨.warn, [], "Unknown configuration key", [("key", .text key), ("file", .text path)]⟩

/-- Where to look for settings. Empty fields stand for what the environment says. -/
structure Loader where
  workDir : Text
  homeDir : Text
  file : Text

structure Loading where
  log : List Log.Entry
  result : Except Fault (Members × List Source)

def mergeAll (files : Files.System) (merged : Members) (found : List Source) : List Source → Loading
  | [] => ⟨[], .ok (merged, found)⟩
  | source :: rest =>
    match mergeFile files merged source.path with
    | .error f => ⟨[], .error f⟩
    | .ok merged =>
      let l := mergeAll files merged (found ++ [source]) rest
      { l with log := warnings files source.path ++ l.log }

namespace Loader

def sources (l : Loader) (files : Files.System) (environment : List (Text × Text)) : List Source :=
  let home := if l.homeDir = [] then (environment.lookup (Text.ofString "HOME")).getD [] else l.homeDir
  let workDir := if l.workDir = [] then files.cwdPath else l.workDir
  let project := findProject files workDir
  let user := if home = [] then [] else [⟨.user, userPath home⟩]
  let candidates := user ++ (if project = [] then [] else [⟨.project, project⟩])
  (candidates.filter fun s => (files.stat s.path).toOption.isSome) ++
    (if l.file = [] then [] else [⟨.file, l.file⟩])

def load (l : Loader) (files : Files.System) (environment : List (Text × Text)) : Loading :=
  mergeAll files [] [] (l.sources files environment)

end Loader

def ofFile (files : Files.System) (path : Text) : Except Fault Settings := do
  let members ← mergeFile files [] path
  Layers.settings { Layers.none with files := members }

end RpcBindings.Settings
