import RpcBindings.Text.Basic

/-!
# Paths as texts

Paths are handled as texts of elements with slashes between them, without a look at any file. Cleaning a path removes
empty elements, dots and every `..` that can be taken back.
-/

namespace RpcBindings.Path

def slash : UInt8 := 47

def isAbsolute (path : Text) : Bool := path.head? == some slash

def cleanStep (rooted : Bool) (kept : List Text) (element : Text) : List Text :=
  if element = [] ∨ element = "." then kept
  else if element = ".." then
    match kept with
    | [] => if rooted then [] else [element]
    | last :: rest => if last = ".." then element :: kept else rest
  else element :: kept

def cleanElements (path : Text) : List Text :=
  ((Text.splitOn slash path).foldl (cleanStep (isAbsolute path)) []).reverse

/-- The shortest path that says the same without a look at files. -/
def clean (path : Text) : Text :=
  let body := Text.join [slash] (cleanElements path)
  if isAbsolute path then slash :: body
  else if body.isEmpty then "." else body

def join (elements : List Text) : Text :=
  match elements.dropWhile (·.isEmpty) with
  | [] => []
  | es => clean (Text.join [slash] es)

def lastElement (path : Text) : Text := (path.reverse.takeWhile (· != slash)).reverse

def leading (path : Text) : Text := path.take (path.length - (lastElement path).length)

def dir (path : Text) : Text := clean (leading path)

def base (path : Text) : Text :=
  if path.isEmpty then "."
  else
    let trimmed := (path.reverse.dropWhile (· == slash)).reverse
    if trimmed.isEmpty then [slash] else lastElement trimmed

def extension (path : Text) : Text :=
  let last := (lastElement path).reverse
  let tail := last.takeWhile (· != 46)
  if tail.length < last.length then 46 :: tail.reverse else []

end RpcBindings.Path
