import RpcBindings.Number.Notation
import RpcBindings.Template.Shape
import RpcBindings.Text.Quoted

/-!
# Verbs

A verb says how a shape is printed: `v` in its usual form, `d` in decimal digits, `q` between quotes, and so on. Flags
ask for a width, a precision, signs and other details. In a list or a record the verb holds for every part. A part that
the verb does not fit is shown with its type instead.
-/

namespace RpcBindings.Template

open Number (Binary)

structure Flags where
  sharp : Bool := false
  zero : Bool := false
  plus : Bool := false
  minus : Bool := false
  space : Bool := false
  named : Bool := false
  typed : Bool := false
  width : Option Nat := none
  precision : Option Nat := none

namespace Flags

def padding (f : Flags) (n : Nat) : Text := List.replicate n (if f.zero && !f.minus then 48 else 32)

def pad (f : Flags) (t : Text) : Text :=
  let fill := f.padding (f.width.getD 0 - (Text.glyphs t).length)
  if f.minus then t ++ fill else fill ++ t

def cut (f : Flags) (t : Text) : Text :=
  match f.precision with
  | none => t
  | some n => Text.ofGlyphs ((Text.glyphs t).take n)

def plainText (f : Flags) (t : Text) : Text := f.pad (f.cut t)

def quotedText (f : Flags) (t : Text) : Text :=
  let t := f.cut t
  if f.sharp && Text.canBackquote t then f.pad (96 :: t ++ [96])
  else f.pad (Text.quotedAs 34 f.plus t)

def hexBytes (f : Flags) (upper : Bool) (t : Text) : Text :=
  let t := match f.precision with
    | none => t
    | some n => t.take n
  let mark : Text := if f.sharp then [48, if upper then 88 else 120] else []
  let pairs := t.map fun b => Text.hex upper 2 b.toNat
  let body :=
    if t.isEmpty then []
    else if f.space then Text.join [32] (pairs.map (mark ++ ·))
    else mark ++ pairs.flatten
  f.pad body

def digitsReversed (base : Nat) (upper : Bool) : (fuel : Nat) → Nat → Text
  | 0, _ => []
  | fuel + 1, n =>
    Text.hexDigit upper (n % base) :: (if n < base then [] else digitsReversed base upper fuel (n / base))

def signText (f : Flags) (negative : Bool) : Text :=
  if negative then [45] else if f.plus then [43] else if f.space then [32] else []

def integer (f : Flags) (base : Nat) (upper : Bool) (octalMark negative : Bool) (n : Nat) : Text :=
  let bare := { f with zero := false }
  if f.precision = some 0 ∧ n = 0 then bare.padding (f.width.getD 0)
  else
    let least := match f.precision, f.width with
      | some p, _ => p
      | none, some w => if f.zero && !f.minus then w - (f.signText negative).length else 0
      | none, none => 0
    let digits := (digitsReversed base upper 70 n).reverse
    let digits : Text := List.replicate (least - digits.length) 48 ++ digits
    let digits : Text :=
      if f.sharp then
        match base with
        | 2 => 48 :: 98 :: digits
        | 8 => if digits.head? == some 48 then digits else 48 :: digits
        | 16 => 48 :: (if upper then 88 else 120) :: digits
        | _ => digits
      else digits
    let digits := if octalMark then 48 :: 111 :: digits else digits
    bare.pad (f.signText negative ++ digits)

def charOf (n : Int) : Char :=
  if 0 ≤ n ∧ n.toNat.isValidChar then Char.ofNat n.toNat else Glyph.replacement

def codePoint (f : Flags) (n : Int) : Text :=
  let u := if n < 0 then (18446744073709551616 + n).toNat else n.toNat
  let digits := (digitsReversed 16 true 70 u).reverse
  let digits : Text := List.replicate (max 4 (f.precision.getD 4) - digits.length) 48 ++ digits
  let shown : Text :=
    if f.sharp && u.isValidChar && Alphabet.isPrintable (Char.ofNat u) then
      32 :: 39 :: Text.ofChar (Char.ofNat u) ++ [39]
    else []
  Flags.pad { f with zero := false } (85 :: 43 :: digits ++ shown)

def realDigits (verb : Char) (m : Nat) (e : Int) (precision : Option Nat) : Text :=
  match verb with
  | 'e' => Binary.scientific 101 m e (precision.getD 6)
  | 'E' => Binary.scientific 69 m e (precision.getD 6)
  | 'f' => Binary.fixed m e (precision.getD 6)
  | 'F' => Binary.fixed m e (precision.getD 6)
  | 'x' => Binary.hexadecimal false m e precision
  | 'X' => Binary.hexadecimal true m e precision
  | 'b' =>
    let e := if m = 0 then Binary.leastExponent else e
    Text.ofNat m ++ 112 :: (if e < 0 then Text.ofInt e else 43 :: Text.ofInt e)
  | 'G' => Binary.general 69 m e precision
  | _ => Binary.general 101 m e precision

def keepPoint (verb : Char) (precision : Option Nat) (digits : Text) : Text :=
  let isMark := fun (b : UInt8) =>
    if verb = 'x' ∨ verb = 'X' then b == 112 || b == 80 else b == 101 || b == 69 || b == 112 || b == 80
  let body := digits.takeWhile fun b => !isMark b
  let tail := digits.drop body.length
  let wanted := if verb = 'g' ∨ verb = 'G' ∨ verb = 'v' ∨ verb = 'x' then precision.getD 6 else 0
  let counted := ((body.filter (· != 46)).dropWhile (· == 48)).length
  let counted := if body = [48] then 1 else counted
  (if body.any (· == 46) then body else body ++ [46]) ++ List.replicate (wanted - counted) 48 ++ tail

def real (f : Flags) (verb : Char) (x : Binary) : Text :=
  match x with
  | .finite negative m e =>
    let digits := realDigits verb m e f.precision
    let digits := if f.sharp && verb != 'b' then keepPoint verb f.precision digits else digits
    let sign := f.signText negative
    if f.zero && !f.minus then sign ++ Flags.pad { f with width := f.width.map (· - sign.length) } digits
    else f.pad (sign ++ digits)
  | .infinite negative =>
    let sign : Text := if negative then [45] else if f.space && !f.plus then [32] else [43]
    Flags.pad { f with zero := false } (sign ++ Text.ofString "Inf")
  | .undefined => Flags.pad { f with zero := false } (f.signText false ++ Text.ofString "NaN")

def complex (f : Flags) (verb : Char) (re im : Binary) : Text :=
  "(" ++ f.real verb re ++ Flags.real { f with plus := true } verb im ++ "i)"

def bool (f : Flags) (b : Bool) : Text := f.pad (if b then "true" else "false")

def number (f : Flags) (signed : Bool) (n : Int) : Text :=
  if f.typed && !signed then Flags.integer { f with sharp := true } 16 false false false n.toNat
  else f.integer 10 false false (n < 0) n.natAbs

end Flags

namespace Shape

def enclosed (f : Flags) (opening closing : UInt8) (parts : List Text) : Text :=
  opening :: Text.join (if f.typed then [44, 32] else [32]) parts ++ [closing]

mutual

/-- A shape in its usual form. Where something is wrong, kinds are shown as numbers. -/
def usual (f : Flags) (wrong top : Bool) : Shape → Text
  | nothing => f.pad "<nil>"
  | text t => if f.typed then f.quotedText t else f.plainText t
  | bool b => f.bool b
  | number w n => f.number w.isSigned n
  | real x => f.real 'v' x
  | complex re im => f.complex 'v' re im
  | kind k => if wrong || f.typed then f.number true (Value.kindNumber k) else f.plainText k.text
  | bytes t =>
    if f.typed then ("[]byte" : Text) ++ enclosed f 123 125 (t.map fun b => f.number false b.toNat)
    else enclosed f 91 93 (t.map fun b => f.number false b.toNat)
  | list item none => if f.typed then ("[]" : Text) ++ item ++ "(nil)" else "[]"
  | list item (some items) =>
    if f.typed then ("[]" : Text) ++ item ++ enclosed f 123 125 (usualItems f wrong items)
    else enclosed f 91 93 (usualItems f wrong items)
  | record name fields => (if f.typed then name else []) ++ enclosed f 123 125 (usualFields f wrong fields)
  | reference name none => if f.typed then ("(*" : Text) ++ name ++ ")(nil)" else f.pad "<nil>"
  | reference _ (some s) => if top then 38 :: usual f wrong false s else "<set>"

def usualItems (f : Flags) (wrong : Bool) : List Shape → List Text
  | [] => []
  | s :: rest => usual f wrong false s :: usualItems f wrong rest

def usualFields (f : Flags) (wrong : Bool) : List (Text × Shape) → List Text
  | [] => []
  | (name, s) :: rest =>
    ((if f.named || f.typed then name ++ ":" else []) ++ usual f wrong false s) :: usualFields f wrong rest

end

def misfit (f : Flags) (verb : Char) (s : Shape) : Text :=
  ("%!" : Text) ++ Text.ofChar verb ++ "(" ++
    (match s with
      | nothing => "<nil>"
      | s => s.typeName ++ "=" ++ usual f true true s) ++ ")"

def writeText (f : Flags) (verb : Char) (t : Text) : Option Text :=
  match verb with
  | 's' => some (f.plainText t)
  | 'x' => some (f.hexBytes false t)
  | 'X' => some (f.hexBytes true t)
  | 'q' => some (f.quotedText t)
  | _ => none

def writeNumber (f : Flags) (verb : Char) (n : Int) : Option Text :=
  let based := fun base upper octalMark => some (f.integer base upper octalMark (n < 0) n.natAbs)
  match verb with
  | 'd' => based 10 false false
  | 'b' => based 2 false false
  | 'o' => based 8 false false
  | 'O' => based 8 false true
  | 'x' => based 16 false false
  | 'X' => based 16 true false
  | 'c' => some (f.pad (Text.ofChar (Flags.charOf n)))
  | 'q' => some (f.pad (Text.quotedAs 39 f.plus (Text.ofChar (Flags.charOf n))))
  | 'U' => some (f.codePoint n)
  | _ => none

def isRealVerb (verb : Char) : Bool := "bgGxXfFeE".toList.contains verb

mutual

def write (f : Flags) (verb : Char) (top : Bool) : Shape → Text
  | nothing => misfit f verb nothing
  | text t => (writeText f verb t).getD (misfit f verb (text t))
  | bool b => if verb = 't' then f.bool b else misfit f verb (bool b)
  | number w n => (writeNumber f verb n).getD (misfit f verb (number w n))
  | real x => if isRealVerb verb then f.real verb x else misfit f verb (real x)
  | complex re im => if isRealVerb verb then f.complex verb re im else misfit f verb (complex re im)
  | kind k =>
    ((writeText f verb k.text).or (writeNumber f verb (Value.kindNumber k))).getD (misfit f verb (kind k))
  | bytes t =>
    if verb = 'd' then enclosed f 91 93 (t.map fun b => f.number false b.toNat)
    else
      (writeText f verb t).getD (enclosed f 91 93 (t.map fun b =>
        (writeNumber f verb b.toNat).getD (misfit f verb (number .byte b.toNat))))
  | list _ none => "[]"
  | list _ (some items) => enclosed f 91 93 (writeItems f verb items)
  | record _ fields => enclosed f 123 125 (writeFields f verb fields)
  | reference name none =>
    if "bodxX".toList.contains verb then (writeNumber f verb 0).getD []
    else misfit f verb (reference name none)
  | reference _ (some s) => if top then 38 :: write f verb false s else "<set>"

def writeItems (f : Flags) (verb : Char) : List Shape → List Text
  | [] => []
  | s :: rest => write f verb false s :: writeItems f verb rest

def writeFields (f : Flags) (verb : Char) : List (Text × Shape) → List Text
  | [] => []
  | (_, s) :: rest => write f verb false s :: writeFields f verb rest

end

def format (f : Flags) (verb : Char) (s : Shape) : Text :=
  match verb with
  | 'v' => usual { f with sharp := false, plus := false, named := f.plus, typed := f.sharp } false true s
  | 'T' => f.plainText s.typeName
  | _ => write f verb true s

def print (s : Shape) : Text := usual {} false true s

end Shape

end RpcBindings.Template
