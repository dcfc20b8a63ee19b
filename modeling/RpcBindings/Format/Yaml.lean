import RpcBindings.Format.Tree
import RpcBindings.Format.YamlScalar

/-!
# Writing YAML

Block style throughout. The items of a list and the fields of a record stand at the indentation of their collection;
that of a collection in a record is the next multiple of four, and that of a collection that is an item is two more than
the list's. A string is plain where that is possible, a block where it has line feeds, and quoted otherwise.
-/

namespace RpcBindings.Format

def deeper (indent : Nat) : Nat := 4 * ((indent + 4) / 4)

def yamlPrintable (c : Char) : Bool :=
  let n := c.toNat
  n == 10 || (0x20 ≤ n && n ≤ 0x7E) || (0xA0 ≤ n && n ≤ 0xFFFD && n != 0xFEFF)

def yamlBreak (c : Char) : Bool :=
  let n := c.toNat
  n == 10 || n == 13 || n == 0x85 || n == 0x2028 || n == 0x2029

def yamlBlank (c : Char) : Bool := c == ' ' || c == '\t'

structure Features where
  indicator : Bool := false
  breaks : Bool := false
  special : Bool := false
  tab : Bool := false
  edge : Bool := false
  trailingSpace : Bool := false
  breakSpace : Bool := false
  spaceBreak : Bool := false

def isIndicator (before : Option Char) (c : Char) (rest : List Char) : Bool :=
  let blankFollows := match rest with
    | [] => true
    | d :: _ => yamlBlank d
  match before with
  | none =>
    "#,[]\x7b\x7d&*!|>'\"%@\x60".toList.contains c || ((c == '?' || c == ':' || c == '-') && blankFollows)
  | some p => (c == ':' && blankFollows) || (c == '#' && (yamlBlank p || yamlBreak p || p.toNat == 0))

def featuresFrom (before : Option Char) (f : Features) : List Char → Features
  | [] => f
  | c :: rest =>
    let previousSpace := before == some ' '
    let previousBreak := (before.map yamlBreak).getD false
    let atEdge := before.isNone || rest.isEmpty
    let f := { f with
      indicator := f.indicator || isIndicator before c rest
      breaks := f.breaks || yamlBreak c
      tab := f.tab || c == '\t'
      special := f.special || (c != '\t' && !yamlPrintable c)
      edge := f.edge || (atEdge && (c == ' ' || yamlBreak c))
      trailingSpace := f.trailingSpace || (rest.isEmpty && c == ' ')
      breakSpace := f.breakSpace || (c == ' ' && previousBreak)
      spaceBreak := f.spaceBreak || (yamlBreak c && previousSpace) }
    featuresFrom (some c) f rest

def features (cs : List Char) : Features :=
  let documentMark := "---".toList.isPrefixOf cs || "...".toList.isPrefixOf cs
  featuresFrom none { indicator := documentMark } cs

namespace Features

def plainAllowed (f : Features) : Bool :=
  !(f.edge || f.breakSpace || f.spaceBreak || f.tab || f.special || f.breaks || f.indicator)

def singleAllowed (f : Features) : Bool := !(f.breakSpace || f.spaceBreak || f.tab || f.special)

def blockAllowed (f : Features) : Bool := !(f.trailingSpace || f.spaceBreak || f.special)

end Features

def yamlEscape (every : Bool) (c : Char) : Text :=
  let n := c.toNat
  if !every && yamlPrintable c && !yamlBreak c && c != '"' && c != '\\' then Text.ofChar c
  else
    "\\" ++
    match n with
    | 0 => "0"
    | 7 => "a"
    | 8 => "b"
    | 9 => "t"
    | 10 => "n"
    | 11 => "v"
    | 12 => "f"
    | 13 => "r"
    | 27 => "e"
    | 34 => "\""
    | 92 => "\\"
    | 0x85 => "N"
    | 0xA0 => "_"
    | 0x2028 => "L"
    | 0x2029 => "P"
    | _ =>
      if n ≤ 0xFF then "x" ++ Text.hex true 2 n
      else if n ≤ 0xFFFF then "u" ++ Text.hex true 4 n
      else "U" ++ Text.hex true 8 n

def yamlLines (indent : Nat) (char : Char → Text) (broken : Bool) : List Char → Text
  | [] => []
  | c :: rest =>
    if yamlBreak c then Text.ofChar c ++ yamlLines indent char true rest
    else (if broken then spaces indent else []) ++ char c ++ yamlLines indent char false rest

/-- The marks of a block string: its indentation where the text starts with a blank, and what becomes of its last line
feeds. -/
def blockMarks (cs : List Char) : Text :=
  let leading := match cs with
    | c :: _ => c == ' ' || yamlBreak c
    | [] => false
  let chomp : Text := match cs.reverse with
    | [] => "-"
    | [c] => if yamlBreak c then "+" else "-"
    | c :: d :: _ => if yamlBreak c then if yamlBreak d then "+" else [] else "-"
  (if leading then "4" else []) ++ chomp

def base64Digit (n : Nat) : UInt8 :=
  if n < 26 then (65 + n).toUInt8
  else if n < 52 then (71 + n).toUInt8
  else if n < 62 then (n - 4).toUInt8
  else if n = 62 then 43
  else 47

def base64 : Text → Text
  | a :: b :: c :: rest =>
    let n := 65536 * a.toNat + 256 * b.toNat + c.toNat
    base64Digit (n / 262144) :: base64Digit (n / 4096 % 64) :: base64Digit (n / 64 % 64) :: base64Digit (n % 64) ::
      base64 rest
  | [a, b] =>
    let n := 65536 * a.toNat + 256 * b.toNat
    [base64Digit (n / 262144), base64Digit (n / 4096 % 64), base64Digit (n / 64 % 64), 61]
  | [a] => [base64Digit (a.toNat / 4), base64Digit (a.toNat * 16 % 64), 61, 61]
  | [] => []

def chunks (size : Nat) : (fuel : Nat) → Text → List Text
  | 0, _ => []
  | _ + 1, [] => []
  | fuel + 1, t => t.take size :: chunks size fuel (t.drop size)

def yamlDouble (cs : List Char) : Text :=
  ("\"" : Text) ++ cs.flatMap (yamlEscape ((cs.head?.map fun c => c.toNat == 0xFEFF).getD false)) ++ "\""

/-- A string on lines of its own, under its marks. A break at either end of the string is the end of a line; where there
is none, the line is ended here. -/
def yamlBlock (indent : Nat) (cs : List Char) : Text :=
  ("|" : Text) ++ blockMarks cs ++ (if (cs.head?.map yamlBreak).getD true then [] else [10]) ++
    yamlLines indent Text.ofChar true cs ++ (if (cs.getLast?.map yamlBreak).getD false then [] else [10])

def yamlChars (indent : Nat) (plain : Bool) (cs : List Char) : Text :=
  let f := features cs
  if cs.contains '\n' then
    if f.blockAllowed then yamlBlock indent cs else yamlDouble cs ++ "\n"
  else if plain then
    if f.plainAllowed then cs.flatMap Text.ofChar ++ "\n"
    else if f.singleAllowed then
      "'" ++ yamlLines indent (fun c => if c = '\'' then "''" else Text.ofChar c) false cs ++ "'\n"
    else yamlDouble cs ++ "\n"
  else yamlDouble cs ++ "\n"

def yamlScalar (indent : Nat) (t : Text) : Text :=
  if Text.isUtf8 t then yamlChars indent (readsAsString t) (Text.runes t)
  else
    let encoded := base64 t
    let lines := if encoded.length < 70 then encoded else (chunks 70 encoded.length encoded).flatMap (· ++ [10])
    "!!binary " ++ yamlChars indent true (Text.runes lines)

mutual

def yamlValue (indent : Nat) : Tree → Text
  | .text t => " " ++ yamlScalar (deeper indent) t
  | .number n => " " ++ Text.ofInt n ++ "\n"
  | .bool b => if b then " true\n" else " false\n"
  | .list [] => " []\n"
  | .list (t :: ts) => "\n" ++ yamlItems (deeper indent) (t :: ts)
  | .record [] => " \x7b\x7d\n"
  | .record (f :: fs) => "\n" ++ yamlFields (deeper indent) true (f :: fs)

def yamlItem (indent : Nat) : Tree → Text
  | .text t => " " ++ yamlScalar (indent + 2) t
  | .number n => " " ++ Text.ofInt n ++ "\n"
  | .bool b => if b then " true\n" else " false\n"
  | .list [] => " []\n"
  | .list (t :: ts) => " " ++ (yamlItems (indent + 2) (t :: ts)).drop (indent + 2)
  | .record [] => " \x7b\x7d\n"
  | .record (f :: fs) => " " ++ yamlFields (indent + 2) false (f :: fs)

def yamlItems (indent : Nat) : List Tree → Text
  | [] => []
  | t :: ts => spaces indent ++ "-" ++ yamlItem indent t ++ yamlItems indent ts

def yamlFields (indent : Nat) (indented : Bool) : List (Text × Tree) → Text
  | [] => []
  | (name, t) :: fs =>
    (if indented then spaces indent else []) ++ name ++ ":" ++ yamlValue indent t ++ yamlFields indent true fs

end

def yaml : Tree → Text
  | .text t => yamlScalar 4 t
  | .number n => Text.ofInt n ++ "\n"
  | .bool b => if b then "true\n" else "false\n"
  | .list [] => "[]\n"
  | .list (t :: ts) => yamlItems 0 (t :: ts)
  | .record [] => "\x7b\x7d\n"
  | .record (f :: fs) => yamlFields 0 true (f :: fs)

end RpcBindings.Format
