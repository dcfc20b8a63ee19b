import RpcBindings.Alphabet.Stretch
import RpcBindings.Text.Utf8

/-!
# Blank edges

Trimming takes the white space off both ends of a text: the characters with the property White_Space of Unicode 17. Stray
bytes are no white space.
-/

namespace RpcBindings.Alphabet

def blanks : List Stretch :=
  [⟨9, 13, 1⟩, ⟨32, 32, 1⟩, ⟨133, 133, 1⟩, ⟨160, 160, 1⟩, ⟨5760, 5760, 1⟩, ⟨8192, 8202, 1⟩,
   ⟨8232, 8233, 1⟩, ⟨8239, 8239, 1⟩, ⟨8287, 8287, 1⟩, ⟨12288, 12288, 1⟩]

def isBlank (c : Char) : Bool := Stretch.anyCovers blanks c.toNat

end RpcBindings.Alphabet

namespace RpcBindings.Text

def glyphIsBlank : Glyph → Bool
  | .char c => Alphabet.isBlank c
  | .stray _ => false

def trimGlyphs (gs : List Glyph) : List Glyph :=
  ((gs.dropWhile glyphIsBlank).reverse.dropWhile glyphIsBlank).reverse

def trim (t : Text) : Text := ofGlyphs (trimGlyphs (glyphs t))

def isBlank (t : Text) : Bool := (glyphs t).all glyphIsBlank

end RpcBindings.Text
