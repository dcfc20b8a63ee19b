import RpcBindings.Number.Binary

/-!
# Notations of doubles

The notations that a format string can ask for. All take the size `m · 2 ^ e` of a number and round it exactly, a tie to
the even neighbour: a fixed number of places, an exponent with one digit in front of the point, the shorter of the two,
and base sixteen with a power of two.
-/

namespace RpcBindings.Number.Binary

def nearest (m : Nat) (e k : Int) : Nat :=
  let (a, b) := scale m 1 e
  match k with
  | .ofNat n => roundEven (a * Nat.pow 10 n) b
  | .negSucc n => roundEven a (b * Nat.pow 10 (n + 1))

def reaches (m : Nat) (e k : Int) : Bool :=
  let (a, b) := scale m 1 e
  match k with
  | .ofNat n => Nat.pow 10 n * b ≤ a
  | .negSucc n => b ≤ a * Nat.pow 10 (n + 1)

def decimalExponent (m : Nat) (e : Int) : Int :=
  let guess := ((Nat.log2 m : Int) + e) * 30103 / 100000
  if reaches m e (guess + 1) then guess + 1 else if reaches m e guess then guess else guess - 1

structure Rounded where
  digits : Text
  exponent : Int

def rounded (m : Nat) (e : Int) (count : Nat) : Rounded :=
  if m = 0 then ⟨List.replicate count 48, 0⟩
  else
    let d := decimalExponent m e
    let n := nearest m e (count - 1 - d)
    let digits := Text.ofNat n
    if digits.length ≤ count then ⟨digits, d⟩ else ⟨digits.take count, d + 1⟩

def exponentText (e : Int) : Text :=
  let digits := Text.ofNat e.natAbs
  (if e < 0 then 45 else 43) :: (if digits.length < 2 then 48 :: digits else digits)

def withExponent (mark : UInt8) (r : Rounded) : Text :=
  let tail := r.digits.drop 1
  r.digits.take 1 ++ (if tail.isEmpty then [] else 46 :: tail) ++ mark :: exponentText r.exponent

def fixed (m : Nat) (e : Int) (places : Nat) : Text :=
  let digits := Text.ofNat (nearest m e places)
  let digits := List.replicate (places + 1 - digits.length) 48 ++ digits
  let whole := digits.take (digits.length - places)
  if places = 0 then whole else whole ++ 46 :: digits.drop (digits.length - places)

def scientific (mark : UInt8) (m : Nat) (e : Int) (places : Nat) : Text := withExponent mark (rounded m e (places + 1))

/-- A size with at most a number of digits; none means as many as it takes to read it back. There is an exponent if that
is below -4 or the digits do not reach the point. -/
def general (mark : UInt8) (m : Nat) (e : Int) (count : Option Nat) : Text :=
  let (digits, front, bound) : Text × Int × Int := match count with
    | none =>
      let (digits, front) := decimal m e
      (digits, front, 6)
    | some n =>
      let r := rounded m e (max n 1)
      let digits := significant r.digits
      let front := r.exponent + 1
      (digits, front, if front ≤ digits.length ∧ digits.length < max n 1 then digits.length else max n 1)
  if m = 0 then [48]
  else if front - 1 < -4 ∨ bound ≤ front - 1 then withExponent mark ⟨digits, front - 1⟩
  else positional digits front

/-- A size in base sixteen: one binary digit in front of the point, and a power of two. No number of places means as
many as there are digits. -/
def hexadecimal (upper : Bool) (m : Nat) (e : Int) (places : Option Nat) : Text :=
  let shift := if m = 0 then 0 else 52 - Nat.log2 m
  let exact := m * Nat.pow 2 shift
  let unit := Nat.pow 16 (13 - places.getD 13)
  let near := roundEven exact unit * unit
  let power : Int := if m = 0 then 0 else e - shift + (if near = 2 * leastMantissa then 53 else 52)
  let digits := Text.hex upper 13 (near % leastMantissa)
  let digits := match places with
    | none => significant digits
    | some p => digits.take p ++ List.replicate (p - 13) 48
  [48, if upper then 88 else 120, if m = 0 then 48 else 49] ++ (if digits.isEmpty then [] else 46 :: digits) ++
    (if upper then 80 else 112) :: exponentText power

end RpcBindings.Number.Binary
