import RpcBindings.Diff.Match

/-!
# Unified diffs

The changes from one text to another, in groups with three lines around them. Each text counts as its lines with their
line feeds and one more line that holds only a line feed.
-/

namespace RpcBindings.Diff

inductive Tag where
  | equal
  | replace
  | delete
  | insert
  deriving DecidableEq, Repr

/-- What becomes of the lines `leftFrom, …, leftTo - 1`: the lines `rightFrom, …, rightTo - 1`. -/
structure Edit where
  tag : Tag
  leftFrom : Nat
  leftTo : Nat
  rightFrom : Nat
  rightTo : Nat
  deriving DecidableEq, Repr

def editsFrom (i j : Nat) : List Match → List Edit
  | [] => []
  | m :: rest =>
    (if i < m.left ∧ j < m.right then [⟨.replace, i, m.left, j, m.right⟩]
      else if i < m.left then [⟨.delete, i, m.left, j, m.right⟩]
      else if j < m.right then [⟨.insert, i, m.left, j, m.right⟩]
      else []) ++
    (if m.size = 0 then [] else [⟨.equal, m.left, m.left + m.size, m.right, m.right + m.size⟩]) ++
    editsFrom (m.left + m.size) (m.right + m.size) rest

def context : Nat := 3

def Edit.lastLines (e : Edit) : Edit :=
  { e with leftFrom := max e.leftFrom (e.leftTo - context), rightFrom := max e.rightFrom (e.rightTo - context) }

def Edit.firstLines (e : Edit) : Edit :=
  { e with leftTo := min e.leftTo (e.leftFrom + context), rightTo := min e.rightTo (e.rightFrom + context) }

def trimFirst : List Edit → List Edit
  | [] => []
  | e :: rest => (if e.tag = .equal then e.lastLines else e) :: rest

def trimLast : List Edit → List Edit
  | [] => []
  | [e] => [if e.tag = .equal then e.firstLines else e]
  | e :: f :: rest => e :: trimLast (f :: rest)

def groupsFrom (group : List Edit) : List Edit → List (List Edit)
  | [] =>
    match group with
    | [] => []
    | [e] => if e.tag = .equal then [] else [[e]]
    | _ => [group]
  | e :: rest =>
    if e.tag = .equal ∧ e.leftTo - e.leftFrom > 2 * context then
      (group ++ [e.firstLines]) :: groupsFrom [e.lastLines] rest
    else groupsFrom (group ++ [e]) rest

def groups (edits : List Edit) : List (List Edit) := groupsFrom [] (trimLast (trimFirst edits))

def range (first past : Nat) : Text :=
  let length := past - first
  if length = 1 then Text.ofNat (first + 1)
  else if length = 0 then Text.ofNat first ++ ",0"
  else Text.ofNat (first + 1) ++ "," ++ Text.ofNat length

def slice (lines : List Text) (first past : Nat) : List Text := (lines.drop first).take (past - first)

def marked (mark : Text) (lines : List Text) : Text := lines.flatMap fun l => mark ++ l

def editText (left right : List Text) (e : Edit) : Text :=
  let removed := slice left e.leftFrom e.leftTo
  let added := slice right e.rightFrom e.rightTo
  match e.tag with
  | .equal => marked " " removed
  | .delete => marked "-" removed
  | .insert => marked "+" added
  | .replace => marked "-" removed ++ marked "+" added

def groupText (left right : List Text) (group : List Edit) : Text :=
  match group.head?, group.getLast? with
  | some first, some last =>
    "@@ -" ++ range first.leftFrom last.leftTo ++ " +" ++ range first.rightFrom last.rightTo ++ " @@\n" ++
      group.flatMap (editText left right)
  | _, _ => []

def linesOf (t : Text) : List Text := (Text.splitOn 10 t).map (· ++ [10])

def unified (leftName rightName left right : Text) : Text :=
  let a := linesOf left
  let b := linesOf right
  match groups (editsFrom 0 0 (runs a b)) with
  | [] => []
  | gs => "--- " ++ leftName ++ "\n+++ " ++ rightName ++ "\n" ++ gs.flatMap (groupText a b)

end RpcBindings.Diff
