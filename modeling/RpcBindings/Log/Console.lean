import RpcBindings.Log.Verbosity
import RpcBindings.Text.Utf8

/-!
# Logs on the console

An entry is one line: its level in colour, its component, its message and its values, with tabs between them.
-/

namespace RpcBindings.Log

def valueChar (c : Char) : Text :=
  match c.toNat with
  | 34 => "\\\""
  | 92 => "\\\\"
  | 10 => "\\n"
  | 13 => "\\r"
  | 9 => "\\t"
  | n => if n < 0x20 then "\\u" ++ Text.hex false 4 n else Text.ofChar c

def quotedValue (t : Text) : Text :=
  "\"" ++ ((Text.glyphs t).flatMap fun g =>
    match g with
    | .char c => valueChar c
    | .stray _ => "\\ufffd") ++ "\""

def Value.shown : Value → Text
  | .text t => quotedValue t
  | .number n => Text.ofNat n
  | .texts ts => "[" ++ Text.join ", " (ts.map quotedValue) ++ "]"
  | .fault f => quotedValue f.message

def Level.badge (l : Level) : Text :=
  let colour : Text := match l with
    | debug => "35"
    | info => "34"
    | warn => "33"
    | error => "31"
  "\x1b[" ++ colour ++ "m" ++ Text.upperAscii l.text ++ "\x1b[0m"

def fieldsText (separator colon : Text) (fields : List (Text × Value)) : Text :=
  Text.join separator (fields.map fun f => quotedValue f.1 ++ colon ++ f.2.shown)

def Entry.line (e : Entry) : Text :=
  let parts := [e.level.badge] ++ (if e.component = [] then [] else [e.component]) ++ [e.message] ++
    (if e.fields.isEmpty then [] else ["\x7b" ++ fieldsText ", " ": " e.fields ++ "\x7d"])
  Text.join "\t" parts ++ "\n"

def Entry.jsonLine (e : Entry) : Text :=
  let fields : List (List (Text × Value)) :=
    [[("level", .text e.level.text)], if e.component = [] then [] else [("logger", .text e.component)],
     [("msg", .text e.message)], e.fields]
  "\x7b" ++ fieldsText "," ":" fields.flatten ++ "\x7d\n"

def consoleText (verbosity : Int) (json : Bool) (log : List Entry) : Text :=
  (log.filter fun e => (Level.ofVerbosity verbosity).weight ≤ e.level.weight).flatMap fun e =>
    if json then e.jsonLine else e.line

end RpcBindings.Log
