import RpcBindings.Text.Utf8

/-!
# Strings of JSON

A string is read byte by byte. It may hold any byte but the closing quote, also raw line breaks and bytes that are no
UTF-8. After a backslash stands a letter of a control character, a quote or a slash, or the number of a code unit.
-/

namespace RpcBindings.Json

inductive Piece where
  | byte (b : UInt8)
  | unit (n : Nat)

namespace Piece

/-- The text behind some point of a string, with a low surrogate right at that point kept apart. -/
abbrev Tail := Option Nat × Text

def Tail.text : Tail → Text
  | (none, t) => t
  | (some _, t) => Text.ofChar Glyph.replacement ++ t

/-- Puts a piece in front. A high and a low surrogate next to each other make one character. -/
def onto (p : Piece) (tail : Tail) : Tail :=
  match p with
  | byte b => (none, b :: tail.text)
  | unit n =>
    if 0xDC00 ≤ n ∧ n < 0xE000 then (some n, tail.text)
    else if 0xD800 ≤ n ∧ n < 0xDC00 then
      match tail with
      | (some m, t) => (none, Text.ofChar (Char.ofNat (0x10000 + 1024 * (n - 0xD800) + (m - 0xDC00))) ++ t)
      | (none, t) => (none, Text.ofChar Glyph.replacement ++ t)
    else (none, Text.ofChar (Char.ofNat n) ++ tail.text)

def assemble (pieces : List Piece) : Text := Tail.text (pieces.foldr onto (none, []))

end Piece

def escape? (b : UInt8) : Option UInt8 :=
  match b with
  | 34 => some 34
  | 92 => some 92
  | 47 => some 47
  | 98 => some 8
  | 102 => some 12
  | 110 => some 10
  | 114 => some 13
  | 116 => some 9
  | _ => none

inductive Quoted where
  | plain (pieces : List Piece)
  | escape (pieces : List Piece)
  | unit (pieces : List Piece) (due : Nat) (value : Nat)
  | closed (t : Text)

namespace Quoted

def step : Quoted → UInt8 → Option Quoted
  | plain pieces, b =>
    if b = 34 then some (closed (Piece.assemble pieces.reverse))
    else if b = 92 then some (escape pieces)
    else some (plain (.byte b :: pieces))
  | escape pieces, b =>
    if b = 117 then some (unit pieces 4 0) else (escape? b).map fun e => plain (.byte e :: pieces)
  | unit pieces due value, b =>
    (Text.hexValue? b).map fun d =>
      if due ≤ 1 then plain (.unit (16 * value + d) :: pieces) else unit pieces (due - 1) (16 * value + d)
  | closed _, _ => none

end Quoted

end RpcBindings.Json
