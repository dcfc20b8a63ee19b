import RpcBindings.Text.Basic

/-!
# Characters of a text

A text is read as a row of glyphs: characters in UTF-8, and stray bytes that belong to no character. Reading loses
nothing, since every glyph keeps the bytes it was read from.
-/

namespace RpcBindings

/-- A character, or a byte that belongs to none. -/
inductive Glyph where
  | char (c : Char)
  | stray (b : UInt8)
  deriving DecidableEq, Repr

namespace Glyph

def bytes : Glyph → Text
  | char c => String.utf8EncodeChar c
  | stray b => [b]

def replacement : Char := Char.ofNat 0xFFFD

def rune : Glyph → Char
  | char c => c
  | stray _ => replacement

end Glyph

namespace Text

def continuation (value : Nat) : (k : Nat) → Text → Option Nat
  | 0, _ => some value
  | _ + 1, [] => none
  | k + 1, b :: rest =>
    if 0x80 ≤ b ∧ b < 0xC0 then continuation (64 * value + (b.toNat - 0x80)) k rest else none

/-- A lead byte's own bits, the number of continuation bytes it asks for, and the least value that may be written so. -/
def leadByte? (a : UInt8) : Option (Nat × Nat × Nat) :=
  if a < 0x80 then some (a.toNat, 0, 0)
  else if a < 0xC0 then none
  else if a < 0xE0 then some (a.toNat - 0xC0, 1, 0x80)
  else if a < 0xF0 then some (a.toNat - 0xE0, 2, 0x800)
  else if a < 0xF8 then some (a.toNat - 0xF0, 3, 0x10000)
  else none

def charAt? (a : UInt8) (rest : Text) : Option (Char × Nat) :=
  match leadByte? a with
  | none => none
  | some (bits, k, least) =>
    match continuation bits k rest with
    | none => none
    | some n => if least ≤ n ∧ n.isValidChar then some (Char.ofNat n, k) else none

/-- Reads on behind glyphs already read, held last first. The first `skip` bytes belong to the last of them. -/
def glyphsAfter (read : List Glyph) : (skip : Nat) → Text → List Glyph
  | _, [] => read.reverse
  | skip + 1, _ :: rest => glyphsAfter read skip rest
  | 0, a :: rest =>
    match charAt? a rest with
    | some (c, k) => glyphsAfter (.char c :: read) k rest
    | none => glyphsAfter (.stray a :: read) 0 rest

def glyphs (t : Text) : List Glyph := glyphsAfter [] 0 t

theorem glyphsAfter_eq (t : Text) : ∀ (read : List Glyph) (skip : Nat),
    glyphsAfter read skip t = read.reverse ++ glyphsAfter [] skip t := by
  induction t with
  | nil => intro read skip; simp [glyphsAfter]
  | cons a rest ih =>
    intro read skip
    cases skip with
    | succ skip => simp only [glyphsAfter]; exact ih read skip
    | zero =>
      simp only [glyphsAfter]
      cases charAt? a rest with
      | none => rw [ih (.stray a :: read), ih [.stray a]]; simp
      | some p => obtain ⟨c, k⟩ := p; simp only []; rw [ih (.char c :: read), ih [.char c]]; simp

def ofGlyphs (gs : List Glyph) : Text := gs.flatMap Glyph.bytes

def ofChar (c : Char) : Text := String.utf8EncodeChar c

def ofChars (cs : List Char) : Text := cs.flatMap ofChar

def runes (t : Text) : List Char := (glyphs t).map Glyph.rune

def isUtf8 (t : Text) : Bool := (glyphs t).all fun g => match g with
  | .char _ => true
  | .stray _ => false

end Text

end RpcBindings
