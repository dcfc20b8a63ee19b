import RpcBindings.Format.Tree
import RpcBindings.Text.Utf8

/-!
# Writing TOML

A record of records: a table for each field, with a blank line between tables. Strings are literal where that is
possible.
-/

namespace RpcBindings.Format

def needsEscape (c : Char) : Bool := c == '\'' || (c.toNat < 0x20 && c != '\t') || c.toNat == 0x7F

def tomlEscape (c : Char) : Text :=
  match c.toNat with
  | 92 => "\\\\"
  | 34 => "\\\""
  | 8 => "\\b"
  | 9 => "\\t"
  | 10 => "\\n"
  | 12 => "\\f"
  | 13 => "\\r"
  | n => if n < 0x20 ∨ n = 0x7F then "\\u" ++ Text.hex true 4 n else Text.ofChar c

def tomlString (t : Text) : Text :=
  if (Text.runes t).any needsEscape then
    "\"" ++ (Text.glyphs t).flatMap (fun g => match g with
      | .char c => tomlEscape c
      | .stray b => [b]) ++ "\""
  else "'" ++ t ++ "'"

def tomlScalar : Tree → Text
  | .text t => tomlString t
  | .number n => Text.ofInt n
  | .bool b => if b then "true" else "false"
  | .list _ => "[]"
  | .record _ => "\x7b\x7d"

def tomlField (name : Text) (t : Tree) : Text := name ++ " = " ++ tomlScalar t ++ "\n"

def tomlTable (name : Text) : Tree → Text
  | .record fields => "[" ++ name ++ "]\n" ++ fields.flatMap fun f => tomlField f.1 f.2
  | t => tomlField name t

def toml : Tree → Text
  | .record fields => Text.join "\n" (fields.map fun f => tomlTable f.1 f.2)
  | _ => []

end RpcBindings.Format
