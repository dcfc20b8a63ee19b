import RpcBindings.Files.System
import RpcBindings.Text.Trim

/-!
# Inputs of a run

The service files of a run are a single file, the files of a directory with a given extension, or the files that a
manifest lists.
-/

namespace RpcBindings.Generate

def inputExtension : Text := ".json"

/-- The service files at a path: the path itself if it is no directory, else the directory's own files with the
extension. -/
def discover (files : Files.System) (path extension : Text) : Except Fault (List Text) :=
  let extension := if extension = [] then inputExtension else extension
  match files.stat path with
  | .error f => .error (.ofIo ("input " ++ Text.guarded path) f.fault)
  | .ok (.file _) => .ok [path]
  | .ok .directory =>
    match files.list path with
    | .error f => .error (.ofIo ("failed to read input directory " ++ Text.guarded path) f.fault)
    | .ok entries =>
      let names := (entries.filter fun e => !e.2.isDirectory && Text.endsWith e.1 extension).map (·.1)
      .ok ((names.map fun name => Path.join [path, name]).mergeSort fun a b => decide (a ≤ b))

inductive ManifestFault where
  | repeated (line : Nat) (path : Text)
  | longLine
  deriving DecidableEq

def ManifestFault.fault (manifest : Text) : ManifestFault → Fault
  | repeated line path =>
    .hinted "each service file may appear only once"
      (.ofParse ("manifest " ++ Text.guarded manifest ++ " line " ++ Text.ofNat line ++ ": " ++ Text.guarded path ++
        " listed twice"))
  | longLine => .ofIo ("failed to read manifest " ++ Text.guarded manifest) (.foreign "bufio.Scanner: token too long")

def longestLine : Nat := 65535

/-- The path that a line lists, none for blank lines and comments. Relative paths start at the manifest's directory. -/
def listedPath? (dir line : Text) : Option Text :=
  let line := Text.trim line
  if line = [] ∨ Text.startsWith line "#" then none
  else some (if Path.isAbsolute line then line else Path.join [dir, line])

def listed (dir : Text) (number : Nat) (found : List Text) : List Text → Except ManifestFault (List Text)
  | [] => .ok found.reverse
  | line :: rest =>
    if longestLine < line.length then .error .longLine
    else
      match listedPath? dir line with
      | none => listed dir (number + 1) found rest
      | some path =>
        if path ∈ found then .error (.repeated number path) else listed dir (number + 1) (path :: found) rest

def manifestPaths (dir content : Text) : Except ManifestFault (List Text) := listed dir 1 [] (Text.lines content)

def readManifest (files : Files.System) (path : Text) : Except Fault (List Text) :=
  match files.entryAt path with
  | .error e =>
    .error (.ofIo ("failed to open manifest " ++ Text.guarded path) (Files.SystemFault.fault ⟨"open", [path], e⟩))
  | .ok .directory =>
    .error (.ofIo ("failed to read manifest " ++ Text.guarded path)
      (Files.SystemFault.fault ⟨"read", [path], .isDirectory⟩))
  | .ok (.file content) => (manifestPaths (Path.dir path) content).mapError (ManifestFault.fault path)

def inputs (files : Files.System) (path manifest extension : Text) : Except Fault (List Text) :=
  if manifest = [] then discover files path extension else readManifest files manifest

end RpcBindings.Generate
