import RpcBindings.Text.Basic

/-!
# Console lines

Lines for people can hold tags for colours, such as `<info>` and `</>`, and codes that terminals understand. Colours are
off: wherever a text has an ending tag, all its tags are taken away, and a piece that would be coloured loses its codes
if it has one that ends colours.
-/

namespace RpcBindings.Command

def isTagByte (b : UInt8) : Bool :=
  let small := Text.lowerByte b
  Text.isDigit b || (97 ≤ small && small ≤ 122) || b == 95 || b == 61 || b == 44 || b == 59

def tagLength? (t : Text) : Option Nat :=
  let slash := if t.head? == some 47 then 1 else 0
  let name := (t.drop slash).takeWhile isTagByte
  if (t.drop (slash + name.length)).head? == some 62 then some (slash + name.length + 1) else none

def codeLength? (t : Text) : Option Nat :=
  match t with
  | 91 :: rest =>
    let digits := rest.takeWhile fun b => Text.isDigit b || b == 59 || b == 63
    if !digits.isEmpty && (rest.drop digits.length).head? == some 109 then some (digits.length + 2) else none
  | _ => none

/-- A text without the pieces that a byte opens, where `length?` tells how far a piece goes. The first `skip` bytes
belong to a piece. -/
def without (opening : UInt8) (length? : Text → Option Nat) : (skip : Nat) → Text → Text
  | _, [] => []
  | skip + 1, _ :: rest => without opening length? skip rest
  | 0, b :: rest =>
    if b = opening then
      match length? rest with
      | some n => without opening length? n rest
      | none => b :: without opening length? 0 rest
    else b :: without opening length? 0 rest

def untagged (t : Text) : Text := if Text.contains "</>" t then without 60 tagLength? 0 t else t

def uncoded (line : Text) : Text := if Text.contains "[0m" line then without 27 codeLength? 0 line else line

def coloured (t : Text) : Text := Text.join [10] ((Text.splitOn 10 (untagged t)).map uncoded)

/-- A line as it reaches the console. Taking tags away may leave new ones behind, so it is done three times over. -/
def consoleLine (t : Text) : Text := untagged (untagged (untagged t))

end RpcBindings.Command
