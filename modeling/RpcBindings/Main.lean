import RpcBindings.Command.Run

/-!
# The program

The outer layer of the program: it takes a picture of the files a command may look at, runs the command on the picture,
and carries the changes over to the files themselves.
-/

namespace RpcBindings.Program

open Files

def passedOver : List String := [".git", "target", "node_modules"]

def location (path : String) : Location := Path.cleanElements (Text.ofString path)

def pathOf (loc : Location) : String :=
  "/" ++ String.intercalate "/" (loc.map fun name => (Text.toString? name).getD "")

def contentOf (path : String) : IO Text := return (← IO.FS.readBinFile path).toList

partial def picture (tree : Tree) (path : String) : IO Tree := do
  let here ← IO.currentDir
  let place := here / path
  if !(← place.pathExists) then return tree
  if ← place.isDir then
    let mut tree := tree.put (location path) .directory
    for e in ← place.readDir do
      if !(passedOver.contains e.fileName) then tree ← picture tree (path ++ "/" ++ e.fileName)
    return tree
  else return tree.put (location path) (.file (← contentOf path))

def withDirectory (tree : Tree) (loc : Location) : Tree :=
  if (tree.get? loc).isSome then tree else tree.put loc .directory

def withParents (tree : Tree) (loc : Location) : Tree :=
  (List.range loc.length).foldl (fun t n => withDirectory t (loc.take n)) tree

def absolute (cwd path : String) : String := if path.startsWith "/" then path else cwd ++ "/" ++ path

def settingsAbove (cwd : Location) : List String :=
  (List.range (cwd.length + 1)).map fun n => pathOf (cwd.take n ++ [Settings.fileName])

/-- Takes a picture of all files that a command line may look at. -/
def takePicture (cwd home temporary : String) (args : List String) : IO System := do
  let roots := [cwd, home ++ "/.config/krpcgen"] ++ settingsAbove (location cwd) ++
    (args.filter fun a => !(a.startsWith "-")).map (absolute cwd)
  let mut tree := Tree.empty
  let mut taken : List Location := []
  for root in roots do
    let place := (← IO.currentDir) / root
    if !(taken.any (·.isPrefixOf (location root))) && (← place.pathExists) then
      tree ← picture (withParents tree (location root)) root
      taken := location root :: taken
  let loc := location temporary
  return ⟨withDirectory (withParents tree loc) loc, location cwd⟩

def writeInPlace (path : String) (content : Text) : IO Unit := do
  let staged := path ++ ".tmp"
  IO.FS.writeBinFile staged ⟨content.toArray⟩
  IO.FS.rename staged path

/-- Carries the changes of a picture over to the files. -/
def carryOver (before after : System) : IO Unit := do
  for (loc, _) in before.tree.entries do
    if (after.tree.get? loc).isNone then
      match before.tree.get? loc with
      | some (.file _) => IO.FS.removeFile (pathOf loc)
      | _ => IO.FS.removeDirAll (pathOf loc)
  let changed := after.tree.entries.filter fun e => before.tree.get? e.1 ≠ some e.2
  for (loc, entry) in changed.mergeSort (fun a b => a.1.length ≤ b.1.length) do
    match entry with
    | .directory => IO.FS.createDirAll (pathOf loc)
    | .file content => writeInPlace (pathOf loc) content

def environment (args : List String) : IO (List (Text × Text)) := do
  let keys := Key.all.map (fun k => Text.join "." k.path) ++ Settings.tables ++
    args.map fun a => Text.lowered (Text.ofString a)
  let names := ["HOME"] ++ keys.filterMap fun k => Text.toString? (Settings.Layers.variableName k)
  names.filterMapM fun name => do
    if name.contains '=' || name.contains '\x00' then return none
    return (← IO.getEnv name).map fun v => (Text.ofString name, Text.ofString v)

def printTo (stream : IO.FS.Stream) (t : Text) : IO Unit := do
  stream.write ⟨t.toArray⟩
  stream.flush

def report (r : Command.Result) : IO Unit := do
  printTo (← IO.getStdout) r.desk.output
  printTo (← IO.getStderr) r.console
  match r.fault with
  | some f => printTo (← IO.getStderr) (Command.failureText f)
  | none => pure ()

def differences (before after : System) : List Text :=
  let gone := before.tree.entries.filter fun e => (after.tree.get? e.1).isNone
  let new := after.tree.entries.filter fun e => before.tree.get? e.1 ≠ some e.2
  (new ++ gone).map fun e => Text.ofString (pathOf e.1)

def pause (r : Command.Result) : UInt32 :=
  match r.watching.bind fun t => t.call.given.lookup (Text.ofString "debounce") with
  | some (.duration d) => (max (d / 1000000).toNat 10).toUInt32
  | _ => 500

partial def watch (look : IO System) (seen : System) (r : Command.Result) : IO Unit := do
  IO.sleep (pause r)
  let now ← look
  match differences seen now with
  | [] => watch look seen r
  | changed =>
    let next := r.react now changed
    carryOver now next.desk.files
    report next
    watch look next.desk.files next

def run (args : List String) : IO UInt32 := do
  let cwd := toString (← IO.currentDir)
  let home := (← IO.getEnv "HOME").getD ""
  let temporary := (← IO.getEnv "TMPDIR").getD "/tmp"
  let look := takePicture cwd home temporary args
  let files ← look
  let w : Command.Surroundings :=
    ⟨← environment args, .development "unknown" "unknown", Text.ofString temporary⟩
  let r := Command.run w files (args.map Text.ofString)
  carryOver files r.desk.files
  report r
  if r.watching.isSome then watch look r.desk.files r
  return (Command.exitCode r.fault).toUInt32

end RpcBindings.Program

def main (args : List String) : IO UInt32 := RpcBindings.Program.run args
