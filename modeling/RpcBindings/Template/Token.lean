import RpcBindings.Template.Literal

/-!
# Template tokens

Text outside double braces is one token. A dash next to a brace, with a blank on its other side, takes away the blanks
of the text beside it. Comments leave nothing behind.
-/

namespace RpcBindings.Template

inductive Token where
  | text (t : Text)
  | openAction
  | closeAction
  | space
  | word (w : Text)
  | field (name : Text)
  | variable (name : Text)
  | dot
  | declare
  | assign
  | pipe
  | comma
  | openParen
  | closeParen
  | string (t : Text)
  | number (n : Numeral)
  | other (b : UInt8)
  deriving DecidableEq

def isSpace (b : UInt8) : Bool := b == 32 || b == 9 || b == 13 || b == 10

def dropSpacesEnd (t : Text) : Text := (t.reverse.dropWhile isSpace).reverse

def breakOn (mark : Text) (before : Text) : Text → Option (Text × Text)
  | [] => none
  | b :: rest =>
    match Text.after? mark (b :: rest) with
    | some tail => some (before.reverse, tail)
    | none => breakOn mark (b :: before) rest

def trimsBefore : Text → Bool
  | 45 :: b :: _ => isSpace b
  | _ => false

def closing? : Text → Option (Text × Bool)
  | 125 :: 125 :: rest => some (rest, false)
  | b :: 45 :: 125 :: 125 :: rest => if isSpace b then some (rest, true) else none
  | _ => none

def afterClosing (rest : Text) (trims : Bool) : Text := if trims then rest.dropWhile isSpace else rest

/-- Takes letters, digits and underscores. The first `skip` bytes belong to a character already taken. -/
def takeWord (taken : Text) : (skip : Nat) → Text → Text × Text
  | _, [] => (taken.reverse, [])
  | skip + 1, b :: rest => takeWord (b :: taken) skip rest
  | 0, a :: rest =>
    match Text.charAt? a rest with
    | some (c, k) => if isWordChar c then takeWord (a :: taken) k rest else (taken.reverse, a :: rest)
    | none => (taken.reverse, a :: rest)

def endsWord : Text → Bool
  | [] => true
  | 125 :: 125 :: _ => true
  | b :: _ => isSpace b || b == 46 || b == 44 || b == 124 || b == 58 || b == 41 || b == 40

def word? (t : Text) : Option (Text × Text) :=
  let (w, rest) := takeWord [] 0 t
  if endsWord rest then some (w, rest) else none

def actionToken? (t : Text) : Option (Token × Text) :=
  match t with
  | [] => none
  | b :: rest =>
    if isSpace b then some (.space, rest)
    else match b with
      | 61 => some (.assign, rest)
      | 58 => match rest with
        | 61 :: rest => some (.declare, rest)
        | _ => none
      | 124 => some (.pipe, rest)
      | 44 => some (.comma, rest)
      | 40 => some (.openParen, rest)
      | 41 => some (.closeParen, rest)
      | 34 => (quotedText? (rest.length + 1) [] rest).map fun (s, rest) => (.string s, rest)
      | 96 =>
        match Text.cut? 96 rest with
        | some (s, rest) => some (.string (s.filter (· != 13)), rest)
        | none => none
      | 39 => (quotedChar? rest).map fun (n, rest) => (.number (.whole n), rest)
      | 36 => (word? rest).map fun (w, rest) => (.variable (36 :: w), rest)
      | 46 =>
        if endsWord rest then some (.dot, rest)
        else if (rest.head?.map Text.isDigit).getD false then (numeral? t).map fun (n, rest) => (.number n, rest)
        else (word? rest).map fun (w, rest) => (.field w, rest)
      | _ =>
        if Text.isDigit b ∨ b = 43 ∨ b = 45 then (numeral? t).map fun (n, rest) => (.number n, rest)
        else match word? t with
          | some ([], _) => if 33 ≤ b ∧ b ≤ 126 then some (.other b, rest) else none
          | some (w, rest) => some (.word w, rest)
          | none =>
            if (takeWord [] 0 t).1.isEmpty ∧ 33 ≤ b ∧ b ≤ 126 then some (.other b, rest) else none

def push (token : Token) (read : List Token) : List Token :=
  if token = .space ∧ read.head? = some .space then read else token :: read

/-- Reads on inside an action at a depth of parentheses, or in the text around actions. -/
def tokensFrom : (fuel : Nat) → (action : Option Nat) → (read : List Token) → Text → Option (List Token)
  | 0, _, _, _ => none
  | fuel + 1, none, read, t =>
    match breakOn [123, 123] [] t with
    | none => some ((if t.isEmpty then read else .text t :: read).reverse)
    | some (before, rest) =>
      let trims := trimsBefore rest
      let before := if trims then dropSpacesEnd before else before
      let rest := if trims then rest.drop 2 else rest
      let read := if before.isEmpty then read else .text before :: read
      match Text.after? "/*" rest with
      | some comment =>
        match breakOn "*/" [] comment with
        | none => none
        | some (_, rest) =>
          match closing? rest with
          | none => none
          | some (rest, trims) => tokensFrom fuel none read (afterClosing rest trims)
      | none => tokensFrom fuel (some 0) (.openAction :: read) rest
  | fuel + 1, some depth, read, t =>
    match closing? t with
    | some (rest, trims) =>
      if depth = 0 then tokensFrom fuel none (.closeAction :: read) (afterClosing rest trims) else none
    | none =>
      match actionToken? t with
      | none => none
      | some (.openParen, rest) => tokensFrom fuel (some (depth + 1)) (.openParen :: read) rest
      | some (.closeParen, rest) =>
        if depth = 0 then none else tokensFrom fuel (some (depth - 1)) (.closeParen :: read) rest
      | some (token, rest) => tokensFrom fuel (some depth) (push token read) rest

def tokens? (t : Text) : Option (List Token) := tokensFrom (2 * t.length + 2) none [] t

end RpcBindings.Template
