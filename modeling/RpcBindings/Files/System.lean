import RpcBindings.Fault
import RpcBindings.Files.Tree
import RpcBindings.Path.Lexical

/-!
# Working with files

A file system is a tree of files and the directory that relative paths start from. Its operations take paths as texts,
follow them element by element, and fail with the words of the operating system.
-/

namespace RpcBindings.Files

inductive Refusal where
  | notFound
  | notDirectory
  | isDirectory
  | present
  | notEmpty
  | invalid
  | nameTooLong
  | separator
  | taken
  deriving DecidableEq

namespace Refusal

def text : Refusal → Text
  | notFound => "no such file or directory"
  | notDirectory => "not a directory"
  | isDirectory => "is a directory"
  | present => "file exists"
  | notEmpty => "directory not empty"
  | invalid => "invalid argument"
  | nameTooLong => "file name too long"
  | separator => "pattern contains path separator"
  | taken => "file already exists"

end Refusal

structure SystemFault where
  operation : Text
  paths : List Text
  refusal : Refusal
  deriving DecidableEq

namespace SystemFault

def fault (f : SystemFault) : Fault := .system f.operation f.paths f.refusal.text

end SystemFault

/-- The numbers that are tried in the names of temporary files, one after the other, by what stands in front of them. -/
class Numbers where
  tried : Text → Nat → Nat

instance : Numbers := ⟨fun _ n => 1000000000 + n⟩

structure System where
  tree : Tree
  cwd : Location
  [numbers : Numbers]

/-- A write that the operating system stops. The file holds some text then, unless it was not even opened. -/
structure Stop where
  held : Option Text
  reason : Text

namespace Stop

def fault (path : Text) (p : Stop) : Fault := .system (if p.held.isSome then "write" else "open") [path] p.reason

def reached (content : Text) : Option Stop → Option Text
  | none => some content
  | some p => p.held

end Stop

namespace System

def longestName : Nat := 255

def walk (t : Tree) : Location → List Text → Except Refusal Location
  | loc, [] => .ok loc
  | loc, name :: rest =>
    match t.get? loc with
    | none => .error .notFound
    | some (.file _) => .error .notDirectory
    | some .directory =>
      if name = [] ∨ name = "." then walk t loc rest
      else if name = ".." then walk t loc.dropLast rest
      else if longestName < name.length then .error .nameTooLong
      else walk t (loc ++ [name]) rest

def pathBound : Nat := 4096

def checkPath (path : Text) : Except Refusal Unit :=
  if path.any (· == 0) then .error .invalid
  else if path = [] then .error .notFound
  else if pathBound ≤ path.length then .error .nameTooLong
  else .ok ()

def start (s : System) (path : Text) : Location := if Path.isAbsolute path then [] else s.cwd

def locate (s : System) (path : Text) : Except Refusal Location := do
  checkPath path
  walk s.tree (s.start path) (Text.splitOn Path.slash path)

def cwdPath (s : System) : Text := "/" ++ Text.join "/" s.cwd

def dropSlashes (path : Text) : Text :=
  let trimmed := (path.reverse.dropWhile (· == Path.slash)).reverse
  if trimmed.isEmpty then path else trimmed

/-- The location of a path at which a directory is to be. Slashes at its end do not ask for one that is there. -/
def locateNew (s : System) (path : Text) : Except Refusal Location := do
  checkPath path
  walk s.tree (s.start path) (Text.splitOn Path.slash (dropSlashes path))

def entryAt (s : System) (path : Text) : Except Refusal Entry :=
  match s.locate path with
  | .error e => .error e
  | .ok loc =>
    match s.tree.get? loc with
    | none => .error .notFound
    | some e => .ok e

def stat (s : System) (path : Text) : Except SystemFault Entry :=
  (s.entryAt path).mapError fun e => ⟨"stat", [path], e⟩

def isFile (s : System) (path : Text) : Bool :=
  match s.entryAt path with
  | .ok (.file _) => true
  | _ => false

def isDirectory (s : System) (path : Text) : Bool :=
  match s.entryAt path with
  | .ok .directory => true
  | _ => false

def read (s : System) (path : Text) : Except SystemFault Text :=
  match s.entryAt path with
  | .error e => .error ⟨"open", [path], e⟩
  | .ok .directory => .error ⟨"read", [path], .isDirectory⟩
  | .ok (.file content) => .ok content

def list (s : System) (path : Text) : Except SystemFault (List (Text × Entry)) :=
  match s.locate path with
  | .error e => .error ⟨"open", [path], e⟩
  | .ok loc =>
    match s.tree.get? loc with
    | none => .error ⟨"open", [path], .notFound⟩
    | some (.file _) => .error ⟨"open", [path], .notDirectory⟩
    | some .directory => .ok (s.tree.children loc)

def canHold (s : System) (loc : Location) : Except Refusal Unit :=
  match s.tree.get? loc.dropLast with
  | some .directory => .ok ()
  | some (.file _) => .error .notDirectory
  | none => .error .notFound

def write (s : System) (path content : Text) : Except SystemFault System :=
  let result := do
    let loc ← s.locate path
    match s.tree.get? loc with
    | some .directory => .error .isDirectory
    | _ => do
      s.canHold loc
      return { s with tree := s.tree.put loc (.file content) }
  result.mapError fun e => ⟨"open", [path], e⟩

def overwrite (s : System) (path content : Text) (stop : Option Stop) : System × Option Fault :=
  match Stop.reached content stop with
  | none => (s, stop.map (Stop.fault path))
  | some text =>
    match s.write path text with
    | .error f => (s, some f.fault)
    | .ok s => (s, stop.map (Stop.fault path))

def mkdir (s : System) (path : Text) : Except SystemFault System :=
  let result := do
    let loc ← s.locateNew path
    match s.tree.get? loc with
    | some _ => .error .present
    | none => do
      s.canHold loc
      return { s with tree := s.tree.put loc .directory }
  result.mapError fun e => ⟨"mkdir", [path], e⟩

def parentText (path : Text) : Text :=
  let trimmed := (path.reverse.dropWhile (· == Path.slash)).reverse
  (Path.leading trimmed).dropLast

def mkdirAllFrom : (fuel : Nat) → System → (path : Text) → Except SystemFault System
  | 0, _, path => .error ⟨"mkdir", [path], .invalid⟩
  | fuel + 1, s, path =>
    match s.entryAt path with
    | .ok .directory => .ok s
    | .ok (.file _) => .error ⟨"mkdir", [path], .notDirectory⟩
    | .error _ =>
      let parent := parentText path
      match (if parent.isEmpty then .ok s else mkdirAllFrom fuel s parent) with
      | .error e => .error e
      | .ok s =>
        match s.mkdir path with
        | .ok s => .ok s
        | .error e => if s.isDirectory path then .ok s else .error e

def mkdirAll (s : System) (path : Text) : Except SystemFault System := mkdirAllFrom (path.length + 1) s path

/-- What is left of an attempt to create a directory and those that hold it: those that could be created stay. -/
def mkdirAllRestFrom : (fuel : Nat) → System → (path : Text) → System
  | 0, s, _ => s
  | fuel + 1, s, path =>
    match mkdirAllFrom (fuel + 1) s path with
    | .ok s => s
    | .error _ =>
      let parent := parentText path
      if parent.isEmpty then s else mkdirAllRestFrom fuel s parent

def mkdirAllRest (s : System) (path : Text) : System := mkdirAllRestFrom (path.length + 1) s path

def remove (s : System) (path : Text) : Except SystemFault System :=
  let result := do
    let loc ← s.locate path
    match s.tree.get? loc with
    | none => .error .notFound
    | some (.file _) => .ok { s with tree := s.tree.erase loc }
    | some .directory =>
      if (s.tree.children loc).isEmpty then .ok { s with tree := s.tree.erase loc } else .error .notEmpty
  result.mapError fun e => ⟨"remove", [path], e⟩

def removeAll (s : System) (path : Text) : System :=
  match s.locate path with
  | .error _ => s
  | .ok loc => { s with tree := s.tree.erase loc }

/-- Gives a file or directory another path. A file there is replaced, a directory is not. -/
def rename (s : System) (source target : Text) : Except SystemFault System :=
  let result := do
    let old ← s.entryAt source
    let oldLoc ← s.locate source
    match s.entryAt target with
    | .ok .directory => .error .present
    | .ok (.file _) => do
      let newLoc ← s.locate target
      if old.isDirectory then .error .notDirectory
      else if oldLoc = newLoc then .ok s
      else .ok { s with tree := s.tree.move oldLoc newLoc }
    | .error _ => do
      let newLoc ← if old.isDirectory then s.locateNew target else s.locate target
      s.canHold newLoc
      if oldLoc.isPrefixOf newLoc then .error .invalid
      else .ok { s with tree := s.tree.move oldLoc newLoc }
  result.mapError fun e => ⟨"rename", [source, target], e⟩

def numbered (s : System) (lead : Text) (n : Nat) : Text := lead ++ Text.ofNat (s.numbers.tried lead n)

def freePath? (s : System) (lead : Text) : (tries : Nat) → (n : Nat) → Option Text
  | 0, _ => none
  | tries + 1, n =>
    match s.entryAt (s.numbered lead n) with
    | .ok _ => freePath? s lead tries (n + 1)
    | .error _ => some (s.numbered lead n)

def temporaryTries : Nat := 10000

def temporaryLead (dir stem : Text) : Text :=
  (if dir.getLast? = some Path.slash then dir else dir ++ "/") ++ stem

def freePath (s : System) (operation dir stem : Text) : Except SystemFault Text :=
  if stem.any (· == Path.slash) then .error ⟨operation, [stem ++ "*"], .separator⟩
  else
    match s.freePath? (temporaryLead dir stem) temporaryTries 0 with
    | none => .error ⟨operation, [temporaryLead dir stem ++ "*"], .taken⟩
    | some path => .ok path

end System

end RpcBindings.Files
