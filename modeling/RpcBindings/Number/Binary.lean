import RpcBindings.Text.Basic

/-!
# Binary floating point

Numbers with 53 significant bits. A decimal is rounded to the nearest of them, a tie to the even one; a number is
written with the fewest decimal digits that round back to it.
-/

namespace RpcBindings.Number

/-- A double: `mantissa · 2 ^ exponent` with a sign, or none of the numbers. -/
inductive Binary where
  | finite (negative : Bool) (mantissa : Nat) (exponent : Int)
  | infinite (negative : Bool)
  | undefined
  deriving DecidableEq

def scale (a b : Nat) (e : Int) : Nat × Nat :=
  match e with
  | .ofNat n => (a * Nat.pow 2 n, b)
  | .negSucc n => (a, b * Nat.pow 2 (n + 1))

def roundEven (a b : Nat) : Nat :=
  let q := a / b
  let r := a % b
  if 2 * r < b then q else if b < 2 * r then q + 1 else q + q % 2

namespace Binary

def leastMantissa : Nat := 4503599627370496

def leastExponent : Int := -1074

def greatestExponent : Int := 971

def fittingExponent (a b : Nat) : Int :=
  let guess : Int := (Nat.log2 a : Int) - (Nat.log2 b : Int) - 52
  let (n, d) := scale a b (-guess)
  let exact := if n / d < leastMantissa then guess - 1 else if 2 * leastMantissa ≤ n / d then guess + 1 else guess
  max exact leastExponent

def ofQuotient (negative : Bool) (a b : Nat) : Binary :=
  if a = 0 then finite negative 0 0
  else
    let e := fittingExponent a b
    let (n, d) := scale a b (-e)
    let m := roundEven n d
    let (m, e) := if m = 2 * leastMantissa then (leastMantissa, e + 1) else (m, e)
    if greatestExponent < e then infinite negative else finite negative m e

def ofDecimal (negative : Bool) (digits : Nat) (exponent : Int) : Binary :=
  match exponent with
  | .ofNat n => ofQuotient negative (digits * Nat.pow 10 n) 1
  | .negSucc n => ofQuotient negative digits (Nat.pow 10 (n + 1))

def isZero : Binary → Bool
  | finite _ m _ => m == 0
  | _ => false

/-- The whole part of a number. Outside the range of 64 bits it is the least whole number of 64 bits. -/
def whole : Binary → Int
  | finite negative m e =>
    let (n, d) := scale m 1 e
    let v : Int := if negative then -((n / d : Nat) : Int) else ((n / d : Nat) : Int)
    if v < -9223372036854775808 ∨ 9223372036854775807 < v then -9223372036854775808 else v
  | _ => -9223372036854775808

/-- The multiple of `10 ^ p` nearest to `m · 2 ^ e` among those that round to it. -/
def onGrid? (m : Nat) (e : Int) (p : Int) : Option Nat :=
  -- in quarters of the unit `2 ^ e`
  let low := if m = leastMantissa ∧ leastExponent < e then 4 * m - 1 else 4 * m - 2
  let high := 4 * m + 2
  let (u, v) := scale 1 1 (e - 2)
  let (u, v) := match p with
    | .ofNat n => (u, v * Nat.pow 10 n)
    | .negSucc n => (u * Nat.pow 10 (n + 1), v)
  let inside := fun c => if m % 2 = 0 then low * u ≤ c * v && c * v ≤ high * u else low * u < c * v && c * v < high * u
  let below := 4 * m * u / v
  let far := fun c => if c * v < 4 * m * u then 4 * m * u - c * v else c * v - 4 * m * u
  match inside below, inside (below + 1) with
  | true, true => some (if far below ≤ far (below + 1) then below else below + 1)
  | true, false => some below
  | false, true => some (below + 1)
  | false, false => none

def shortestFrom (m : Nat) (e : Int) : (fuel : Nat) → Int → Nat × Int
  | 0, p => (0, p)
  | fuel + 1, p =>
    match onGrid? m e p with
    | some c => (c, p)
    | none => shortestFrom m e fuel (p - 1)

def shortest (m : Nat) (e : Int) : Nat × Int :=
  shortestFrom m e 40 (((Nat.log2 m : Int) + e) * 30103 / 100000 + 2)

def positional (digits : Text) (front : Int) : Text :=
  if front ≤ 0 then ("0." : Text) ++ List.replicate (-front).toNat 48 ++ digits
  else if digits.length ≤ front.toNat then digits ++ List.replicate (front.toNat - digits.length) 48
  else digits.take front.toNat ++ "." ++ digits.drop front.toNat

def significant (digits : Text) : Text := (digits.reverse.dropWhile (· == 48)).reverse

def decimal (m : Nat) (e : Int) : Text × Int :=
  if m = 0 then ("0", 1)
  else
    let (c, p) := shortest m e
    let digits := Text.ofNat c
    (significant digits, digits.length + p)

def signText (negative : Bool) : Text := if negative then "-" else ""

def plainText : Binary → Text
  | finite negative m e =>
    let (digits, front) := decimal m e
    signText negative ++ positional digits front
  | infinite negative => (if negative then "-" else "+" : Text) ++ "Inf"
  | undefined => "NaN"

def shortText : Binary → Text
  | finite negative m e =>
    let (digits, front) := decimal m e
    let power := front - 1
    if m ≠ 0 ∧ (power < -4 ∨ 6 ≤ power) then
      let tail := digits.drop 1
      let exponent := Text.ofNat power.natAbs
      signText negative ++ digits.take 1 ++ (if tail.isEmpty then [] else 46 :: tail) ++ "e" ++
        (if power < 0 then "-" else "+" : Text) ++ (if exponent.length < 2 then 48 :: exponent else exponent)
    else signText negative ++ positional digits front
  | b => b.plainText

end Binary

end RpcBindings.Number
