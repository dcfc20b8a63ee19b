import RpcBindings.Format.Tree
import RpcBindings.Text.Utf8

/-!
# Writing JSON

Two spaces of indentation for each level, and an empty list is written `[]`. Inside a string the signs of markup and the
two line separators of Unicode are escaped, and so is every control character; stray bytes are replaced.
-/

namespace RpcBindings.Format

def jsonChar (c : Char) : Text :=
  let n := c.toNat
  if c = '"' then "\\\""
  else if c = '\\' then "\\\\"
  else if n = 10 then "\\n"
  else if n = 13 then "\\r"
  else if n = 9 then "\\t"
  else if n < 0x20 ∨ c = '<' ∨ c = '>' ∨ c = '&' ∨ n = 0x2028 ∨ n = 0x2029 then "\\u" ++ Text.hex false 4 n
  else Text.ofChar c

def jsonGlyph : Glyph → Text
  | .char c => jsonChar c
  | .stray _ => "\\ufffd"

def jsonString (t : Text) : Text := "\"" ++ (Text.glyphs t).flatMap jsonGlyph ++ "\""

mutual

def jsonAt (indent : Nat) : Tree → Text
  | .text t => jsonString t
  | .number n => Text.ofInt n
  | .bool b => if b then "true" else "false"
  | .list [] => "[]"
  | .list (t :: ts) =>
    "[\n" ++ Text.join ",\n" (jsonItems (indent + 2) (t :: ts)) ++ "\n" ++ spaces indent ++ "]"
  | .record [] => "\x7b\x7d"
  | .record (f :: fs) =>
    "\x7b\n" ++ Text.join ",\n" (jsonFields (indent + 2) (f :: fs)) ++ "\n" ++ spaces indent ++ "\x7d"

def jsonItems (indent : Nat) : List Tree → List Text
  | [] => []
  | t :: ts => (spaces indent ++ jsonAt indent t) :: jsonItems indent ts

def jsonFields (indent : Nat) : List (Text × Tree) → List Text
  | [] => []
  | (name, t) :: fs => (spaces indent ++ jsonString name ++ ": " ++ jsonAt indent t) :: jsonFields indent fs

end

def json (t : Tree) : Text := jsonAt 0 t ++ "\n"

end RpcBindings.Format
