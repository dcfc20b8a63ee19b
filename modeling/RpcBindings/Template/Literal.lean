import RpcBindings.Alphabet.Digit
import RpcBindings.Alphabet.Letter
import RpcBindings.Number.Literal
import RpcBindings.Text.Utf8

/-!
# Literals of templates

Texts and characters between quotes, with escapes, and numbers. A number may be whole, a double, or complex: two doubles
with a sign between them, or one, where the last is followed by an `i`.
-/

namespace RpcBindings.Template

open Number (Binary)

inductive Sign where
  | byte (b : UInt8)
  | char (c : Char)

namespace Sign

def bytes : Sign → Text
  | byte b => [b]
  | char c => Text.ofChar c

def value : Sign → Nat
  | byte b => b.toNat
  | char c => c.toNat

end Sign

def digits? (base : Nat) : (width : Nat) → (value : Nat) → Text → Option (Nat × Text)
  | 0, value, t => some (value, t)
  | _ + 1, _, [] => none
  | width + 1, value, b :: rest =>
    (Text.hexValue? b).bind fun d => if d < base then digits? base width (base * value + d) rest else none

def escape? (quote : UInt8) : Text → Option (Sign × Text)
  | [] => none
  | b :: rest =>
    if b = quote ∨ b = 92 then some (.byte b, rest)
    else
      let char := fun width => (digits? 16 width 0 rest).bind fun (n, rest) =>
        if n.isValidChar then some (Sign.char (Char.ofNat n), rest) else none
      match b with
      | 97 => some (.byte 7, rest)
      | 98 => some (.byte 8, rest)
      | 102 => some (.byte 12, rest)
      | 110 => some (.byte 10, rest)
      | 114 => some (.byte 13, rest)
      | 116 => some (.byte 9, rest)
      | 118 => some (.byte 11, rest)
      | 120 => (digits? 16 2 0 rest).map fun (n, rest) => (.byte n.toUInt8, rest)
      | 117 => char 4
      | 85 => char 8
      | _ =>
        (digits? 8 3 0 (b :: rest)).bind fun (n, rest) => if n < 256 then some (.byte n.toUInt8, rest) else none

/-- The next sign between quotes. A byte that belongs to no character stands for the replacement character. -/
def sign? (quote : UInt8) : Text → Option (Sign × Text)
  | [] => none
  | b :: rest =>
    if b = quote ∨ b = 10 then none
    else if b = 92 then escape? quote rest
    else if b < 128 then some (.byte b, rest)
    else
      match Text.charAt? b rest with
      | some (c, k) => some (.char c, rest.drop k)
      | none => some (.char Glyph.replacement, rest)

def quotedText? : (fuel : Nat) → (read : Text) → Text → Option (Text × Text)
  | 0, _, _ => none
  | _ + 1, read, 34 :: rest => some (read.reverse, rest)
  | fuel + 1, read, t => (sign? 34 t).bind fun (s, rest) => quotedText? fuel (s.bytes.reverse ++ read) rest

def quotedChar? (t : Text) : Option (Nat × Text) :=
  (sign? 39 t).bind fun (s, rest) =>
    match rest with
    | 39 :: rest => some (s.value, rest)
    | _ => none

inductive Numeral where
  | whole (n : Int)
  | large
  | real (x : Binary)
  | complex (re im : Binary)
  deriving DecidableEq

namespace Numeral

def asWhole? (x : Binary) : Option Int :=
  match x with
  | .finite negative m e =>
    let (n, d) := Number.scale m 1 e
    if n % d = 0 then (Integer.signed negative (n / d)).toOption else none
  | _ => none

def whole? : Numeral → Option Int
  | whole n => some n
  | large => none
  | real x => asWhole? x
  | complex re im => if im.isZero then asWhole? re else none

def ofText? (t : Text) : Option Numeral :=
  let imaginary := if t.getLast? == some 105 then Binary.ofText? t.dropLast else none
  match imaginary with
  | some x => some (complex (.finite false 0 0) x)
  | none =>
    match Integer.parse t with
    | .ok n => some (whole n)
    | .error _ =>
      if (Integer.unsigned t).toOption.isSome then some large
      else (Binary.ofText? t).bind fun x => if t.any ([46, 101, 69, 112, 80].contains ·) then some (real x) else none

def ofPair? (first second : Text) : Option Numeral :=
  if second.getLast? == some 105 then do return complex (← Binary.ofText? first) (← Binary.ofText? second.dropLast)
  else none

end Numeral

def isWordChar (c : Char) : Bool := c == '_' || Alphabet.isLetter c || Alphabet.isDigit c

def startsWord : Text → Bool
  | [] => false
  | b :: rest => ((Text.charAt? b rest).map fun (c, _) => isWordChar c).getD false

/-- How many bytes of a text belong to a run of bytes, of which there may be only one if `single`. -/
def runLength (p : UInt8 → Bool) (single : Bool) (t : Text) : Nat :=
  if single then if (t.head?.map p).getD false then 1 else 0 else (t.takeWhile p).length

def isSignByte (b : UInt8) : Bool := b == 43 || b == 45

def numberBase (t : Text) : (UInt8 → Bool) × Nat × Nat :=
  let below := fun (base : Nat) (b : UInt8) => b == 95 || ((Text.hexValue? b).map fun d => decide (d < base)).getD false
  match t with
  | 48 :: m :: _ =>
    let m := Text.lowerByte m
    if m = 120 then (below 16, 16, 2) else if m = 111 then (below 8, 8, 2) else if m = 98 then (below 2, 2, 2)
    else (below 10, 10, 0)
  | _ => (below 10, 10, 0)

def exponentLength (mark : UInt8) (t : Text) : Nat :=
  match t with
  | [] => 0
  | b :: rest =>
    if Text.lowerByte b = mark then
      let sign := runLength isSignByte true rest
      1 + sign + runLength (fun b => b == 95 || Text.isDigit b) false (rest.drop sign)
    else 0

def cutNumber? (t : Text) : Option (Text × Text) :=
  let sign := runLength isSignByte true t
  let (isDigit, base, mark) := numberBase (t.drop sign)
  let start := sign + mark
  let whole := start + runLength isDigit false (t.drop start)
  let point := runLength (· == 46) true (t.drop whole)
  let fraction := whole + point + (if point = 1 then runLength isDigit false (t.drop (whole + point)) else 0)
  let exponent := if base = 10 then 101 else 112
  let power := fraction + (if base = 10 ∨ base = 16 then exponentLength exponent (t.drop fraction) else 0)
  let length := power + runLength (· == 105) true (t.drop power)
  if startsWord (t.drop length) then none else some (t.take length, t.drop length)

def numeral? (t : Text) : Option (Numeral × Text) := do
  let (first, rest) ← cutNumber? t
  if (rest.head?.map isSignByte).getD false then
    let (second, rest) ← cutNumber? rest
    return (← Numeral.ofPair? first second, rest)
  else return (← Numeral.ofText? first, rest)

end RpcBindings.Template
