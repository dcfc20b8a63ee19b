import RpcBindings.Text.Utf8

/-!
# Foreign text in messages

Angle quotation marks are reserved for marking the parts of a message that came from outside. A text that goes into a
message has a question mark in place of each of them, and one more at its end if it breaks off within a character.
-/

namespace RpcBindings.Text

def maskAngles : Text → Text
  | 0xE2 :: 0x80 :: b :: rest =>
    if b = 0xB9 ∨ b = 0xBA then 63 :: maskAngles rest else 0xE2 :: maskAngles (0x80 :: b :: rest)
  | b :: rest => b :: maskAngles rest
  | [] => []

def breaksOff (t : Text) : Bool :=
  match (glyphs t).getLast? with
  | some (.stray _) => true
  | _ => false

def guarded (t : Text) : Text := if breaksOff t then maskAngles t ++ [63] else maskAngles t

/-- A text without line breaks at its ends and without blank lines. -/
def settled (t : Text) : Text := join [10] ((splitOn 10 t).filter fun line => !line.isEmpty)

end RpcBindings.Text
