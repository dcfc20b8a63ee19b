import RpcBindings.Text.Basic

/-!
# Moments

A date, a time of day, or both, with or without an offset from universal time. A fraction of a second is kept as its
digits, at most nine of them. A year is a leap year if four divides it, except that of the full centuries only every
fourth is.

A document has two readings. The values of a settings file are read narrowly. The keys it declares are read widely: by
the newer rules, which let a time do without seconds, a table in braces span lines and end with a comma, and a character
be given by two hexadecimal digits, and without the marks that some editors put in front of a file.
-/

namespace RpcBindings.Calendar

def isLeapYear (year : Nat) : Bool := year % 4 == 0 && (year % 100 != 0 || year % 400 == 0)

def daysIn (year month : Nat) : Nat :=
  if month = 2 then if isLeapYear year then 29 else 28
  else if month = 4 ∨ month = 6 ∨ month = 9 ∨ month = 11 then 30
  else 31

def isDay (year month day : Nat) : Bool := 1 ≤ month && month ≤ 12 && 1 ≤ day && day ≤ daysIn year month

end RpcBindings.Calendar

namespace RpcBindings.Toml

inductive Edition where
  /-- Values stand as they always did; the sixtieth second of a minute may be named. -/
  | narrow
  | wide
  deriving DecidableEq

structure Date where
  year : Nat
  month : Nat
  day : Nat
  deriving DecidableEq

structure Clock where
  hour : Nat
  minute : Nat
  second : Nat
  fraction : Text
  deriving DecidableEq

inductive Moment where
  | date (d : Date)
  | clock (c : Clock)
  | both (d : Date) (c : Clock)
  | fixed (d : Date) (c : Clock) (offset : Int)
  deriving DecidableEq

/-- Whether bytes follow a pattern in which `d` stands for a digit. -/
def follows (pattern : String) (t : Text) : Bool :=
  let p := Text.ofString pattern
  p.length == t.length && (p.zip t).all fun (x, b) => if x == 100 then Text.isDigit b else x == b

def twoDigits (t : Text) (place : Nat) : Nat := Text.decimalValue ((t.drop place).take 2)

def Date.parse? (t : Text) : Option Date :=
  let d : Date := ⟨Text.decimalValue (t.take 4), twoDigits t 5, twoDigits t 8⟩
  if follows "dddd-dd-dd" t && Calendar.isDay d.year d.month d.day then some d else none

def keptDigits : Nat := 9

def Clock.parse? (e : Edition) (t : Text) : Option Clock := do
  let (second, fraction) ← match t.drop 5 with
    | [] => if e = .wide then some (0, []) else none
    | 58 :: rest =>
      if follows "dd" (rest.take 2) then
        match rest.drop 2 with
        | [] => some (twoDigits rest 0, [])
        | 46 :: ds => if ds ≠ [] ∧ ds.all Text.isDigit then some (twoDigits rest 0, ds.take keptDigits) else none
        | _ => none
      else none
    | _ => none
  let c : Clock := ⟨twoDigits t 0, twoDigits t 3, second, fraction⟩
  let seconds := if e = .wide then 60 else 61
  if follows "dd:dd" (t.take 5) && c.hour < 24 && c.minute < 60 && c.second < seconds then some c else none

def offset? (e : Edition) (t : Text) : Option Int :=
  let hours := twoDigits t 1
  let minutes := twoDigits t 4
  let size : Int := 60 * hours + minutes
  let fits := if e = .wide then hours ≤ 24 && minutes ≤ 60 else hours < 24 && minutes < 60
  if t = "Z" ∨ t = "z" then some 0
  else if follows "+dd:dd" t && fits then some size
  else if follows "-dd:dd" t && fits then some (-size)
  else none

def isClockByte (b : UInt8) : Bool := Text.isDigit b || b == 58 || b == 46

namespace Moment

def joined? (e : Edition) (t : Text) : Option Moment := do
  let d ← Date.parse? (t.take 10)
  match t.drop 10 with
  | [] => none
  | sep :: time =>
    if sep = 84 ∨ sep = 116 ∨ sep = 32 then do
      let body := time.takeWhile isClockByte
      let c ← Clock.parse? e body
      match time.drop body.length with
      | [] => return .both d c
      | rest => return .fixed d c (← offset? e rest)
    else none

def parse? (e : Edition) (t : Text) : Option Moment :=
  match Date.parse? t with
  | some d => some (.date d)
  | none =>
    match Clock.parse? e t with
    | some c => some (.clock c)
    | none => joined? e t

end Moment

def padded (width n : Nat) : Text :=
  let digits := Text.ofNat n
  List.replicate (width - digits.length) 48 ++ digits

def Date.text (d : Date) : Text := padded 4 d.year ++ "-" ++ padded 2 d.month ++ "-" ++ padded 2 d.day

def Clock.text (c : Clock) : Text :=
  padded 2 c.hour ++ ":" ++ padded 2 c.minute ++ ":" ++ padded 2 c.second ++
    (if c.fraction.isEmpty then [] else 46 :: c.fraction)

def Date.next (d : Date) : Date :=
  if d.day < Calendar.daysIn d.year d.month then { d with day := d.day + 1 }
  else if d.month < 12 then ⟨d.year, d.month + 1, 1⟩
  else ⟨d.year + 1, 1, 1⟩

def carrySecond (d : Date) (c : Clock) : Date × Clock :=
  if c.second < 60 then (d, c)
  else if c.minute < 59 then (d, { c with minute := c.minute + 1, second := 0 })
  else if c.hour < 23 then (d, { c with hour := c.hour + 1, minute := 0, second := 0 })
  else (d.next, { c with hour := 0, minute := 0, second := 0 })

def trimZeros (digits : Text) : Text := (digits.reverse.dropWhile (· == 48)).reverse

def offsetText (minutes : Int) : Text :=
  (if minutes < 0 then 45 else 43) :: padded 2 (minutes.natAbs / 60) ++ padded 2 (minutes.natAbs % 60)

def Moment.text : Moment → Text
  | date d => d.text
  | clock c => c.text
  | both d c => d.text ++ "T" ++ c.text
  | fixed d c offset =>
    let (d, c) := carrySecond d { c with fraction := trimZeros c.fraction }
    d.text ++ " " ++ c.text ++ " " ++ offsetText offset ++ " " ++
      (if offset = 0 then Text.ofString "UTC" else offsetText offset)

end RpcBindings.Toml
