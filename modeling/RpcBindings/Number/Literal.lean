import RpcBindings.Number.Binary
import RpcBindings.Number.Integer

/-!
# Doubles as they are written

A double is written in base ten, or in base sixteen with a power of two behind it. Underscores may divide digits. The
nearest double counts; a number that is nearest to none of them is not read.
-/

namespace RpcBindings.Number.Binary

structure Mantissa where
  value : Nat
  behind : Nat
  rest : Text

def mantissa? (base : Nat) (t : Text) : Option Mantissa :=
  let isDigit := fun b => ((Text.hexValue? b).map fun d => decide (d < base)).getD false
  let inner := fun b => isDigit b || b == 95
  let whole := t.takeWhile inner
  let rest := t.drop whole.length
  let (fraction, rest) := match rest with
    | 46 :: rest => (rest.takeWhile inner, rest.dropWhile inner)
    | _ => ([], rest)
  let digits := (whole ++ fraction).filter isDigit
  if digits.isEmpty then none
  else
    some ⟨digits.foldl (fun n b => base * n + (Text.hexValue? b).getD 0) 0, (fraction.filter isDigit).length, rest⟩

/-- The exponent behind a mark. Once it has five digits, further ones do not count. -/
def exponent? (t : Text) : Option Int :=
  let body := Text.unsigned t
  if ((body.head?.map Text.isDigit).getD false) && body.all fun b => Text.isDigit b || b == 95 then
    let size : Nat := (body.filter Text.isDigit).foldl (fun e b => if e < 10000 then 10 * e + (b.toNat - 48) else e) 0
    some (if t.head? == some 45 then -(size : Int) else size)
  else none

def decimalText? (negative : Bool) (t : Text) : Option Binary := do
  let m ← mantissa? 10 t
  let e ← match m.rest with
    | [] => some 0
    | b :: rest => if Text.lowerByte b = 101 then exponent? rest else none
  return ofDecimal negative m.value (e - m.behind)

def hexText? (negative : Bool) (t : Text) : Option Binary := do
  let m ← mantissa? 16 t
  let e ← match m.rest with
    | [] => none
    | b :: rest => if Text.lowerByte b = 112 then exponent? rest else none
  let (n, d) := scale m.value 1 (e - 4 * m.behind)
  return ofQuotient negative n d

def isFinite : Binary → Bool
  | finite _ _ _ => true
  | _ => false

def ofText? (t : Text) : Option Binary :=
  let negative := t.head? == some 45
  let read := match Text.unsigned t with
    | 48 :: x :: c :: rest =>
      if Text.lowerByte x = 120 then hexText? negative (c :: rest) else decimalText? negative (Text.unsigned t)
    | body => decimalText? negative body
  read.filter fun x => x.isFinite && Integer.separatorsFit t

end RpcBindings.Number.Binary
