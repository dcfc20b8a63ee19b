import RpcBindings.Json.Form

/-!
# Passing over values

The value of an unknown member is passed over without a close look: a container ends with the bracket that closes its
own kind, whatever stands between, and a number is any row of digits, signs, points and exponent letters.
-/

namespace RpcBindings.Json

def isSpace (b : UInt8) : Bool := b == 32 || b == 9 || b == 10 || b == 13

def isNumberByte (b : UInt8) : Bool := Text.isDigit b || b == 45 || b == 43 || b == 46 || b == 101 || b == 69

inductive Skip where
  | value
  | text
  | textEscape
  | number
  | word (due : Text)
  /-- In a container of the kind `curly`, with `pending` brackets of this kind open, at a depth of containers. -/
  | nested (curly : Bool) (pending : Nat) (depth : Int)
  | nestedText (curly : Bool) (pending : Nat) (depth : Int)
  | nestedEscape (curly : Bool) (pending : Nat) (depth : Int)
  | ended
  | endedBefore

namespace Skip

def first (depth : Nat) (b : UInt8) : Option Skip :=
  if isSpace b then some value
  else if b = 34 then some text
  else if Text.isDigit b ∨ b = 45 then some number
  else if b = 123 then some (nested true 1 (depth + 1))
  else if b = 91 then some (nested false 1 (depth + 1))
  else if b = 116 then some (word "rue")
  else if b = 102 then some (word "alse")
  else if b = 110 then some (word "ull")
  else none

def inside (curly : Bool) (pending : Nat) (depth : Int) (b : UInt8) : Option Skip :=
  let opening := fun (own : Bool) =>
    if maxDepth < depth + 1 then none else some (nested curly (if own then pending + 1 else pending) (depth + 1))
  let closing := fun (own : Bool) =>
    if own then if pending ≤ 1 then some ended else some (nested curly (pending - 1) (depth - 1))
    else some (nested curly pending (depth - 1))
  match b with
  | 34 => some (nestedText curly pending depth)
  | 123 => opening curly
  | 125 => closing curly
  | 91 => opening !curly
  | 93 => closing !curly
  | _ => some (nested curly pending depth)

def step (depth : Nat) : Skip → UInt8 → Option Skip
  | value, b => first depth b
  | text, b => some (if b = 34 then ended else if b = 92 then textEscape else text)
  | textEscape, _ => some text
  | number, b => some (if isNumberByte b then number else endedBefore)
  | word [], _ => none
  | word [d], b => if b = d then some ended else none
  | word (d :: due), b => if b = d then some (word due) else none
  | nested curly pending depth, b => inside curly pending depth b
  | nestedText curly pending depth, b =>
    some (if b = 34 then nested curly pending depth
      else if b = 92 then nestedEscape curly pending depth
      else nestedText curly pending depth)
  | nestedEscape curly pending depth, _ => some (nestedText curly pending depth)
  | ended, _ => none
  | endedBefore, _ => none

end Skip

end RpcBindings.Json
