import RpcBindings.Alphabet.Printable
import RpcBindings.Text.Utf8

/-!
# Quoted text

Messages show a name between double quotes. Inside, a quote and a backslash have a backslash in front, printable
characters stand as they are, and anything else is an escape: a letter for the common controls, otherwise hexadecimal
digits, two for a byte or an ASCII control, four or eight for a wider character.
-/

namespace RpcBindings.Text

def controlLetter? (n : Nat) : Option Text :=
  match n with
  | 7 => some "a"
  | 8 => some "b"
  | 9 => some "t"
  | 10 => some "n"
  | 11 => some "v"
  | 12 => some "f"
  | 13 => some "r"
  | _ => none

/-- One character inside quotes. Of the printable ones, those beyond ASCII may have to be escaped too. -/
def quotedCharAs (quote : UInt8) (ascii : Bool) (c : Char) : Text :=
  if c.toNat = quote.toNat ∨ c = '\\' then "\\" ++ ofChar c
  else if Alphabet.isPrintable c && (!ascii || c.toNat < 0x80) then ofChar c
  else match controlLetter? c.toNat with
    | some letter => "\\" ++ letter
    | none =>
      if c.toNat < 0x80 then "\\x" ++ hex false 2 c.toNat
      else if c.toNat < 0x10000 then "\\u" ++ hex false 4 c.toNat
      else "\\U" ++ hex false 8 c.toNat

def quotedGlyphAs (quote : UInt8) (ascii : Bool) : Glyph → Text
  | .char c => quotedCharAs quote ascii c
  | .stray b => "\\x" ++ hex false 2 b.toNat

def quotedAs (quote : UInt8) (ascii : Bool) (t : Text) : Text :=
  quote :: (glyphs t).flatMap (quotedGlyphAs quote ascii) ++ [quote]

def quoted (t : Text) : Text := quotedAs 34 false t

def canBackquote (t : Text) : Bool :=
  (glyphs t).all fun g => match g with
    | .char c => (32 ≤ c.toNat || c.toNat == 9) && c.toNat != 96 && c.toNat != 127 && c.toNat != 0xFEFF
    | .stray _ => false

end RpcBindings.Text
