import RpcBindings.Alphabet.Fold
import RpcBindings.Alphabet.Raise
import RpcBindings.Text.Utf8

/-!
# Small and capital letters

Texts with all letters made small or capital, character by character. A stray byte becomes the replacement character.
-/

namespace RpcBindings.Text

def lowered (t : Text) : Text := ofChars ((runes t).map Alphabet.lower)

def raised (t : Text) : Text := ofChars ((runes t).map Alphabet.upper)

/-- The small ASCII letter that a character is a form of, or the character itself. Besides the capitals, the long s and
the sign of the kelvin are such forms. -/
def plainLetter (c : Char) : Char :=
  if 'A' ≤ c ∧ c ≤ 'Z' then Char.ofNat (c.toNat + 32)
  else if c.toNat = 0x17F then 's'
  else if c.toNat = 0x212A then 'k'
  else c

def isCaseOf (t name : Text) : Bool := ofChars ((runes t).map plainLetter) == name

end RpcBindings.Text
