import RpcBindings.Dict
import RpcBindings.Text.Basic

/-!
# File trees

The state of a file system: which locations hold a file, and with which content, and which are directories. A location
is the row of names from the root. Everything that a run does to files is a function on this state.
-/

namespace RpcBindings.Files

abbrev Location := List Text

inductive Entry where
  | file (content : Text)
  | directory
  deriving DecidableEq

namespace Entry

def isDirectory : Entry → Bool
  | file _ => false
  | directory => true

end Entry

structure Tree where
  entries : List (Location × Entry)

namespace Tree

def empty : Tree := ⟨[]⟩

/-- What stands at a location, its names given from the last to the first. An entry counts only inside a directory, and
the root is always one. -/
def getUp? (t : Tree) : List Text → Option Entry
  | [] => some .directory
  | name :: up => if t.getUp? up = some .directory then t.entries.lookup (name :: up).reverse else none

def get? (t : Tree) (loc : Location) : Option Entry := t.getUp? loc.reverse

def erase (t : Tree) (loc : Location) : Tree := ⟨t.entries.filter fun x => !loc.isPrefixOf x.1⟩

def put (t : Tree) (loc : Location) (e : Entry) : Tree := ⟨(loc, e) :: (t.erase loc).entries⟩

def childName? (loc inner : Location) : Option Text :=
  match loc, inner with
  | [], [name] => some name
  | a :: loc, b :: inner => if a = b then childName? loc inner else none
  | _, _ => none

/-- Those of some entries that are directly inside a location, by their names. Of two under one name the first counts. -/
def inside (loc : Location) : List (Location × Entry) → Dict Entry
  | [] => Dict.empty
  | (inner, e) :: rest =>
    match childName? loc inner with
    | some name => (inside loc rest).insert name e
    | none => inside loc rest

def children (t : Tree) (loc : Location) : List (Text × Entry) := (inside loc t.entries).entries

def move (t : Tree) (source target : Location) : Tree :=
  let moved := t.entries.filterMap fun x =>
    if source.isPrefixOf x.1 then some (target ++ x.1.drop source.length, x.2) else none
  ⟨moved ++ ((t.erase source).erase target).entries⟩

end Tree

end RpcBindings.Files
