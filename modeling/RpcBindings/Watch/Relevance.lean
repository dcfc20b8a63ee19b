import RpcBindings.Dict
import RpcBindings.Path.Lexical

/-!
# Which changes matter

A watcher looks at a set of directories. A changed path matters if it is no backup, stands in no ignored directory, and
is one of the watched files or has the watched extension.
-/

namespace RpcBindings.Watch

def isBackup (path : Text) : Bool :=
  let e := Path.extension path
  e = ".back1" || e = ".back2" || e = ".back3"

/-- What a watcher looks for. All paths are clean. -/
structure Scope where
  extension : Text
  files : NameSet
  ignored : NameSet

namespace Scope

def empty (extension : Text) : Scope := ⟨extension, Dict.empty, Dict.empty⟩

def watchFile (s : Scope) (path : Text) : Scope := { s with files := s.files.add (Path.clean path) }

def ignore (s : Scope) (path : Text) : Scope := { s with ignored := s.ignored.add (Path.clean path) }

def isIgnored (s : Scope) (path : Text) : Bool :=
  s.ignored.names.any fun d => path == d || Text.startsWith path (d ++ [Path.slash])

def relevant (s : Scope) (path : Text) : Bool :=
  let path := Path.clean path
  !isBackup path && !s.isIgnored path && (s.files.contains path || Text.endsWith path s.extension)

end Scope

end RpcBindings.Watch
