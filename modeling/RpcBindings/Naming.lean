import RpcBindings.Alphabet.Letter
import RpcBindings.Alphabet.Digit
import RpcBindings.Alphabet.Upper
import RpcBindings.Alphabet.Lower
import RpcBindings.Alphabet.Fold
import RpcBindings.Text.Trim

/-!
# Names and documentation

Module files, qualified references, functions and parameters are all named by one conversion from camel case to snake
case. Words are written small with one underscore between neighbours. Whatever is neither letter nor digit ends a word; a
capital starts one after a small letter or a digit, and so does the last capital of an acronym when a small letter
follows it.

A name that is a keyword of the generated language is written as a raw identifier, `r#type`. The four path keywords have
no raw form and get an underscore at their end.

Documentation goes into a line comment, so its lines are trimmed, empty ones dropped, and the others joined by spaces.
-/

namespace RpcBindings.Naming

open Alphabet

def isWordChar (c : Char) : Bool := isLetter c || isDigit c

def smallFollows : List Char → Bool
  | [] => false
  | c :: _ => isLower c

def startsWord (before : Option Char) (c : Char) (rest : List Char) : Bool :=
  match before with
  | none => false
  | some p => isUpper c && (isLower p || isDigit p || (isUpper p && smallFollows rest))

/-- Converts what follows a character `before`. A word has been `started` once something is written; `apart` says that
the next word character is separated from it. -/
def snakeFrom (before : Option Char) (started apart : Bool) : List Char → List Char
  | [] => []
  | c :: rest =>
    if isWordChar c then
      let tail := lower c :: snakeFrom (some c) true false rest
      if (apart || startsWord before c rest) && started then '_' :: tail else tail
    else snakeFrom (some c) started started rest

def snakeChars (cs : List Char) : List Char := snakeFrom none false false cs

def snakeCase (name : Text) : Text := Text.ofChars (snakeChars (Text.runes name))

def keywords : List Text :=
  List.map Text.ofString
    ["abstract", "as", "async", "await", "become", "box", "break", "const", "continue", "crate", "do", "dyn", "else",
     "enum", "extern", "false", "final", "fn", "for", "if", "impl", "in", "let", "loop", "macro", "match", "mod",
     "move", "mut", "override", "priv", "pub", "ref", "return", "self", "Self", "static", "struct", "super", "trait",
     "true", "try", "type", "typeof", "unsafe", "unsized", "use", "virtual", "where", "while", "yield"]

def pathKeywords : List Text := ["self", "Self", "super", "crate"]

def isKeyword (name : Text) : Bool := keywords.contains name

def identifier (name : Text) : Text :=
  if pathKeywords.contains name then name ++ "_"
  else if isKeyword name then "r#" ++ name
  else name

def functionName (name : Text) : Text := identifier (snakeCase name)

def isLineBreak (b : UInt8) : Bool := b == 10 || b == 13

def oneLine (doc : Text) : Text :=
  Text.join " " (((Text.splitWhere isLineBreak doc).map Text.trim).filter fun line => !line.isEmpty)

end RpcBindings.Naming
