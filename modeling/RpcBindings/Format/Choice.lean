import RpcBindings.Fault
import RpcBindings.Format.Json
import RpcBindings.Format.Toml
import RpcBindings.Format.Yaml
import RpcBindings.Text.Case

/-!
# Choosing a format

Users name the format in which something is shown. Each command allows some of the formats, the first of them by
default.
-/

namespace RpcBindings.Format

inductive Choice where
  | toml
  | json
  | yaml
  deriving DecidableEq

namespace Choice

def text : Choice → Text
  | toml => "toml"
  | json => "json"
  | yaml => "yaml"

def ofName? (name : Text) : Option Choice := [toml, json, yaml].find? fun c => c.text == name

def write : Choice → Tree → Text
  | toml, t => Format.toml t
  | json, t => Format.json t
  | yaml, t => Format.yaml t

end Choice

/-- The name of the format asked for, whatever the case of its letters. Nothing asked for means the first that is
allowed. -/
def select (allowed : List Text) (asked : Text) : Except Fault Text :=
  match asked, allowed with
  | [], first :: _ => .ok first
  | _, _ =>
    let name := Text.lowered asked
    if allowed.contains name then .ok name
    else .error (.plain ("unsupported format: " ++ Text.guarded asked ++ " (supported: " ++
      Text.guarded (Text.join ", " allowed) ++ ")"))

def ofFlag (flag : Text) (value : Option Text) (allowed : List Text) : Except Fault Text :=
  match value with
  | none =>
    .error (.within ("read --" ++ Text.guarded flag) (.foreign ("flag accessed but not defined: " ++ flag)))
  | some asked => select allowed asked

def writeNamed (name : Text) (t : Tree) : Except Fault Text :=
  match Choice.ofName? name with
  | some c => .ok (c.write t)
  | none => .error (.plain ("unsupported format: " ++ Text.guarded name))

end RpcBindings.Format
