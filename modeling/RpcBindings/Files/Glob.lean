import RpcBindings.Files.System
import RpcBindings.Path.Pattern

/-!
# Finding files by a pattern

The paths that a pattern describes, found name by name: first the directories, then what stands in each of them. A
directory that cannot be listed holds nothing.
-/

namespace RpcBindings.Files.System

open RpcBindings.Path

def globIn (s : System) (p : Pattern) (dir : Text) : List Text :=
  match s.list dir with
  | .error _ => []
  | .ok entries => (entries.filter fun e => p.covers e.1).map fun e => Path.join [dir, e.1]

def globDirectory (pattern : Text) : Text :=
  match leading pattern with
  | [] => "."
  | [b] => [b]
  | dir => dir.dropLast

def globFrom (s : System) : (fuel : Nat) → (pattern : Text) → Option (List Text)
  | 0, _ => none
  | fuel + 1, pattern => do
    let _ ← Pattern.parse? pattern
    if !hasMeta pattern then return if (s.entryAt pattern).isOk then [pattern] else []
    else
      let dir := globDirectory pattern
      let file ← Pattern.parse? (lastElement pattern)
      if !hasMeta dir then return s.globIn file dir
      else if dir = pattern then none
      else return (← globFrom s fuel dir).flatMap (s.globIn file)

def glob? (s : System) (pattern : Text) : Option (List Text) := s.globFrom (pattern.length + 1) pattern

end RpcBindings.Files.System
