import RpcBindings.Toml.Moment
import RpcBindings.Number.Literal
import RpcBindings.Text.Utf8

/-!
# What plain YAML text reads as

A string is written without quotes only if a reader would take it for a string. Here are the forms that a reader takes
for something else: null, truth values, numbers, moments in time, and the older forms of truth values and of numbers in
base sixty.
-/

namespace RpcBindings.Format

def yamlWords : List Text :=
  List.map Text.ofString
    ["", "~", "null", "Null", "NULL", "true", "True", "TRUE", "false", "False", "FALSE", ".nan", ".NaN", ".NAN", ".inf",
     ".Inf", ".INF", "+.inf", "+.Inf", "+.INF", "-.inf", "-.Inf", "-.INF"]

def yamlOldWords : List Text :=
  List.map Text.ofString
    ["y", "Y", "yes", "Yes", "YES", "on", "On", "ON", "n", "N", "no", "No", "NO", "off", "Off", "OFF"]

def isFloat (t : Text) : Bool :=
  ((Number.Binary.decimalText? false (Text.unsigned t)).map Number.Binary.isFinite).getD false

def isMarked (base : Nat) (ds : Text) : Bool :=
  let body := Text.unsigned ds
  match Integer.digits base body with
  | .ok n => !body.isEmpty && (body == ds || (Integer.signed (ds.head? == some 45) n).toOption.isSome)
  | .error _ => false

def isNegated (base : Nat) (ds : Text) : Bool :=
  match Integer.digits base ds with
  | .ok n => !ds.isEmpty && (Integer.signed true n).toOption.isSome
  | .error _ => false

def markedNumber (t : Text) : Bool :=
  match t with
  | 48 :: 98 :: rest => isMarked 2 rest
  | 48 :: 111 :: rest => isMarked 8 rest
  | 45 :: 48 :: 98 :: rest => isNegated 2 rest
  | 45 :: 48 :: 111 :: rest => isNegated 8 rest
  | _ => false

def shortNumber? (t : Text) : Option (Nat × Text) :=
  match t with
  | a :: b :: rest =>
    if Text.isDigit a then
      if Text.isDigit b then some (Text.decimalValue [a, b], rest) else some (Text.decimalValue [a], b :: rest)
    else none
  | [a] => if Text.isDigit a then some (Text.decimalValue [a], []) else none
  | [] => none

def after? (b : UInt8) : Text → Option Text
  | [] => none
  | c :: rest => if c = b then some rest else none

def date? (t : Text) : Option Text := do
  let year := t.take 4
  if year.length = 4 && year.all Text.isDigit then
    let rest ← after? 45 (t.drop 4)
    let (month, rest) ← shortNumber? rest
    let rest ← after? 45 rest
    let (day, rest) ← shortNumber? rest
    if Calendar.isDay (Text.decimalValue year) month day then some rest else none
  else none

def time? (t : Text) : Option Text := do
  let (hour, rest) ← shortNumber? t
  let rest ← after? 58 rest
  let (minute, rest) ← shortNumber? rest
  let rest ← after? 58 rest
  let (second, rest) ← shortNumber? rest
  if hour < 24 ∧ minute < 60 ∧ second < 60 then
    match rest with
    | p :: d :: tail =>
      if (p = 46 ∨ p = 44) ∧ Text.isDigit d then some (tail.dropWhile Text.isDigit) else some rest
    | _ => some rest
  else none

def isZone (t : Text) : Bool :=
  match t with
  | [90] => true
  | [s, a, b, 58, c, d] =>
    (s == 43 || s == 45) && [a, b, c, d].all Text.isDigit && Text.decimalValue [a, b] ≤ 24 &&
      Text.decimalValue [c, d] ≤ 60
  | _ => false

/-- Whether a text is a date, or a date and a time. Blanks may stand between them, or a letter where the time has a
zone. -/
def isTimestamp (t : Text) : Bool :=
  match date? t with
  | none => false
  | some [] => true
  | some (sep :: rest) =>
    if sep = 32 then time? (rest.dropWhile (· == 32)) == some []
    else if sep = 84 ∨ sep = 116 then ((time? rest).map isZone).getD false
    else false

def isBase60 (t : Text) : Bool :=
  let body := Text.unsigned t
  let first := body.takeWhile fun b => Text.isDigit b || b == 95
  let rest := body.drop first.length
  let groups := rest.takeWhile fun b => Text.isDigit b || b == 58
  let tail := rest.drop groups.length
  let isGroup := fun (g : Text) => match g with
    | [a] => Text.isDigit a
    | [a, b] => 48 ≤ a && a ≤ 53 && Text.isDigit b
    | _ => false
  (first.head?.map Text.isDigit).getD false &&
    (match Text.splitOn 58 groups with
      | [] :: g :: gs => (g :: gs).all isGroup
      | _ => false) &&
    (match tail with
      | [] => true
      | 46 :: ds => ds.all fun b => Text.isDigit b || b == 95
      | _ => false)

def readsAsString (t : Text) : Bool :=
  let numeric :=
    match t with
    | [] => false
    | b :: _ =>
      if b = 46 then (Number.Binary.ofText? t).isSome
      else if Text.isDigit b ∨ b = 43 ∨ b = 45 then
        let plain := t.filter (· != 95)
        isTimestamp t || Integer.fits plain || isFloat plain || markedNumber plain
      else false
  !(yamlWords.contains t || yamlOldWords.contains t || numeric || isBase60 t)

end RpcBindings.Format
