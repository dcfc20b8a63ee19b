import RpcBindings.Text.Basic

/-!
# Durations

A duration is a row of decimal numbers, each with a unit, behind an optional sign.
-/

namespace RpcBindings.Command

abbrev Nanoseconds := Int

inductive DurationFault where
  | malformed
  | noUnit
  | unknownUnit (unit : Text)
  deriving DecidableEq

def unit? (name : Text) : Option Nat :=
  (["ns", "us", "µs", "μs", "ms", "s", "m", "h"].map Text.ofString).zip
    [1, 1000, 1000, 1000, 1000000, 1000000000, 60000000000, 3600000000000] |>.lookup name

def plainQuoted (t : Text) : Text :=
  "\"" ++ (t.flatMap fun b =>
    if b < 32 ∨ 128 ≤ b then ("\\x" : Text) ++ Text.hex false 2 b.toNat
    else if b = 34 ∨ b = 92 then [92, b]
    else [b]) ++ "\""

def DurationFault.text (whole : Text) : DurationFault → Text
  | malformed => "time: invalid duration " ++ plainQuoted whole
  | noUnit => "time: missing unit in duration " ++ plainQuoted whole
  | unknownUnit unit => "time: unknown unit " ++ plainQuoted unit ++ " in duration " ++ plainQuoted whole

def isNumeric (b : UInt8) : Bool := b == 46 || Text.isDigit b

def durationBound : Nat := 9223372036854775808

/-- Sums are counted in a word of 64 bits, where what does not fit is lost. -/
def wordBound : Nat := 18446744073709551616

def durationFrom : (fuel : Nat) → (sum : Nat) → Text → Except DurationFault Nat
  | 0, _, _ => .error .malformed
  | fuel + 1, sum, t =>
    if t = [] then .ok sum
    else
      let whole := t.takeWhile Text.isDigit
      let rest := t.drop whole.length
      let fraction := match rest with
        | 46 :: rest => rest.takeWhile Text.isDigit
        | _ => []
      let rest := match rest with
        | 46 :: rest => rest.drop fraction.length
        | rest => rest
      if durationBound < Text.decimalValue whole ∨ (whole = [] ∧ fraction = []) then .error .malformed
      else
        let name := rest.takeWhile fun b => !isNumeric b
        if name = [] then .error .noUnit
        else
          match unit? name with
          | none => .error (.unknownUnit name)
          | some u =>
            let v := Text.decimalValue whole * u + Text.decimalValue fraction * u / 10 ^ fraction.length
            let sum' := (sum + v) % wordBound
            if durationBound < v ∨ durationBound < sum' then .error .malformed
            else durationFrom fuel sum' (rest.drop name.length)

def duration (t : Text) : Except DurationFault Nanoseconds :=
  let (negative, body) := match t with
    | 45 :: rest => (true, rest)
    | 43 :: rest => (false, rest)
    | t => (false, t)
  if body = "0" then .ok 0
  else if body = [] then .error .malformed
  else
    match durationFrom (body.length + 1) 0 body with
    | .error f => .error f
    | .ok n =>
      if negative then .ok (-(n : Int))
      else if n = durationBound then .error .malformed
      else .ok n

end RpcBindings.Command
