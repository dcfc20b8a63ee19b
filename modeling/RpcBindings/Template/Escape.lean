import RpcBindings.Alphabet.Printable
import RpcBindings.Text.Utf8

/-!
# Escaped text

Text made safe for markup, for strings of a script and for queries.
-/

namespace RpcBindings.Template

def escapeMarkup (t : Text) : Text :=
  t.flatMap fun b =>
    match b with
    | 0 => Text.ofChar Glyph.replacement
    | 34 => "&#34;"
    | 39 => "&#39;"
    | 38 => "&amp;"
    | 60 => "&lt;"
    | 62 => "&gt;"
    | _ => [b]

def escapeScript (t : Text) : Text :=
  (Text.glyphs t).flatMap fun g =>
    match g with
    | .stray b => [b]
    | .char c =>
      match c with
      | '\\' => "\\\\"
      | '\'' => "\\'"
      | '"' => "\\\""
      | '<' => "\\u003C"
      | '>' => "\\u003E"
      | '&' => "\\u0026"
      | '=' => "\\u003D"
      | c =>
        let n := c.toNat
        if n < 32 then "\\u" ++ Text.hex true 4 n
        else if n < 128 ∨ Alphabet.isPrintable c then Text.ofChar c
        else "\\u" ++ Text.hex true (if n < 0x10000 then 4 else if n < 0x100000 then 5 else 6) n

/-- A text as a part of a query: blanks are plus signs, and most other signs are bytes in base sixteen. -/
def escapeQuery (t : Text) : Text :=
  t.flatMap fun b =>
    let small := Text.lowerByte b
    if Text.isDigit b ∨ (97 ≤ small ∧ small ≤ 122) ∨ b = 45 ∨ b = 95 ∨ b = 46 ∨ b = 126 then [b]
    else if b = 32 then [43]
    else 37 :: Text.hex true 2 b.toNat

end RpcBindings.Template
