import RpcBindings.Text.Utf8
import RpcBindings.Toml.Value

/-!
# Scalars of a TOML document

Strings in their four forms, keys, and everything that starts with a letter, a digit or a sign.
-/

namespace RpcBindings.Toml

def isBlank (b : UInt8) : Bool := b == 32 || b == 9

def skipBlanks (t : Text) : Text := t.dropWhile isBlank

def charBytes? (n : Nat) : Option Text := if n.isValidChar then some (Text.ofChar (Char.ofNat n)) else none

def hexNumber? (digits : Text) : Option Nat :=
  digits.foldl (fun acc b => acc.bind fun n => (Text.hexValue? b).map fun d => 16 * n + d) (some 0)

def escaped? (letter : UInt8) : Option UInt8 :=
  match letter.toNat with
  | 98 => some 8
  | 116 => some 9
  | 110 => some 10
  | 102 => some 12
  | 114 => some 13
  | 101 => some 27
  | 34 => some 34
  | 92 => some 92
  | _ => none

def basic (e : Edition) (read : Text) : Text → Option (Text × Text)
  | [] => none
  | 34 :: rest => some (read.reverse, rest)
  | 92 :: 117 :: a :: b :: c :: d :: rest =>
    match (hexNumber? [a, b, c, d]).bind charBytes? with
    | some bytes => basic e (bytes.reverse ++ read) rest
    | none => none
  | 92 :: 85 :: a :: b :: c :: d :: f :: g :: h :: i :: rest =>
    match (hexNumber? [a, b, c, d, f, g, h, i]).bind charBytes? with
    | some bytes => basic e (bytes.reverse ++ read) rest
    | none => none
  | 92 :: 120 :: a :: b :: rest =>
    match if e = .wide then (hexNumber? [a, b]).bind charBytes? else none with
    | some bytes => basic e (bytes.reverse ++ read) rest
    | none => none
  | 92 :: letter :: rest =>
    match escaped? letter with
    | some b => basic e (b :: read) rest
    | none => none
  | b :: rest => if b == 10 then none else basic e (b :: read) rest

def endsLine (t : Text) : Bool :=
  match skipBlanks t with
  | 10 :: _ => true
  | 13 :: 10 :: _ => true
  | _ => false

def afterSix? : Text → Option Text
  | 34 :: 34 :: 34 :: 34 :: 34 :: 34 :: rest => if rest.head? = some 34 then none else some rest
  | _ => none

/-- Reads a string in triple double quotes behind its opening, onto bytes held last first. While skipping, white space
and line ends are passed over. Up to two quotes may stand in front of the closing ones; the newer rules let a third
stand behind a backslash that is escaped. -/
def multiBasic (e : Edition) (read : Text) (skipping : Bool) : Text → Option (Text × Text)
  | [] => none
  | 34 :: 34 :: 34 :: 34 :: 34 :: rest => some ((34 :: 34 :: read).reverse, rest)
  | 34 :: 34 :: 34 :: 34 :: rest => some ((34 :: read).reverse, rest)
  | 34 :: 34 :: 34 :: rest => some (read.reverse, rest)
  | 92 :: 117 :: a :: b :: c :: d :: rest =>
    match (hexNumber? [a, b, c, d]).bind charBytes? with
    | some bytes => multiBasic e (bytes.reverse ++ read) false rest
    | none => none
  | 92 :: 85 :: a :: b :: c :: d :: f :: g :: h :: i :: rest =>
    match (hexNumber? [a, b, c, d, f, g, h, i]).bind charBytes? with
    | some bytes => multiBasic e (bytes.reverse ++ read) false rest
    | none => none
  | 92 :: 120 :: a :: b :: rest =>
    match if e = .wide then (hexNumber? [a, b]).bind charBytes? else none with
    | some bytes => multiBasic e (bytes.reverse ++ read) false rest
    | none => none
  | 92 :: 92 :: rest =>
    match if e = .wide then afterSix? rest else none with
    | some after => some ((34 :: 34 :: 34 :: 92 :: read).reverse, after)
    | none => multiBasic e (92 :: read) false rest
  | 92 :: letter :: rest =>
    if endsLine (letter :: rest) then multiBasic e read true rest
    else
      match escaped? letter with
      | some b => multiBasic e (b :: read) false rest
      | none => none
  | b :: rest =>
    if skipping && (isBlank b || b == 10 || b == 13) then multiBasic e read true rest
    else multiBasic e (b :: read) false rest

def literal (t : Text) : Option (Text × Text) :=
  let body := t.takeWhile fun b => b != 39 && b != 10
  match t.drop body.length with
  | 39 :: rest => some (body, rest)
  | _ => none

def multiLiteral (read : Text) : Text → Option (Text × Text)
  | [] => none
  | 39 :: 39 :: 39 :: 39 :: 39 :: rest => some ((39 :: 39 :: read).reverse, rest)
  | 39 :: 39 :: 39 :: 39 :: rest => some ((39 :: read).reverse, rest)
  | 39 :: 39 :: 39 :: rest => some (read.reverse, rest)
  | b :: rest => multiLiteral (b :: read) rest

def dropNewline : Text → Text
  | 10 :: rest => rest
  | 13 :: 10 :: rest => rest
  | t => t

def string? (e : Edition) : Text → Option (Text × Text)
  | 34 :: 34 :: 34 :: rest => multiBasic e [] false (dropNewline rest)
  | 34 :: rest => basic e [] rest
  | 39 :: 39 :: 39 :: rest => multiLiteral [] (dropNewline rest)
  | 39 :: rest => literal rest
  | _ => none

def isBareKey (b : UInt8) : Bool :=
  Text.isDigit b || (65 ≤ b && b ≤ 90) || (97 ≤ b && b ≤ 122) || b == 45 || b == 95

def keyPart (e : Edition) (t : Text) : Option (Text × Text) :=
  match t with
  | 34 :: rest => basic e [] rest
  | 39 :: rest => literal rest
  | _ =>
    let word := t.takeWhile isBareKey
    if word = [] then none else some (word, t.drop word.length)

def keyPath (e : Edition) : (fuel : Nat) → Text → Option (List Text × Text)
  | 0, _ => none
  | fuel + 1, t =>
    match keyPart e t with
    | none => none
    | some (part, rest) =>
      match skipBlanks rest with
      | 46 :: rest => (keyPath e fuel (skipBlanks rest)).map fun (parts, rest) => (part :: parts, rest)
      | rest => some ([part], rest)

def plainDigits? (isDigit : UInt8 → Bool) (t : Text) : Option Text :=
  let parts := Text.splitOn 95 t
  if parts.all fun p => !p.isEmpty && p.all isDigit then some parts.flatten else none

def inBase? (base : Nat) (t : Text) : Option Nat :=
  (plainDigits? (fun b => (Text.hexValue? b).any (· < base)) t).map fun ds =>
    ds.foldl (fun n b => base * n + (Text.hexValue? b).getD 0) 0

def inRange? (n : Int) : Option Int :=
  if -9223372036854775808 ≤ n ∧ n ≤ 9223372036854775807 then some n else none

def splitSign : Text → Bool × Bool × Text
  | 45 :: rest => (true, true, rest)
  | 43 :: rest => (true, false, rest)
  | t => (false, false, t)

def wholeDigits? (t : Text) : Option Text :=
  match plainDigits? Text.isDigit t with
  | some (48 :: _ :: _) => none
  | ds => ds

def exponent? (t : Text) : Option Int :=
  let (_, negative, ds) := splitSign t
  (plainDigits? Text.isDigit ds).map fun ds =>
    if negative then -(Text.decimalValue ds : Int) else (Text.decimalValue ds : Int)

/-- The number nearest to `digits · 10 ^ exponent`; far outside the range of floats it is found without computing the
power. -/
def rounded (negative : Bool) (digits : Nat) (exponent : Int) : Number.Binary :=
  if digits = 0 ∨ exponent + Nat.log2 digits < -400 then .finite negative 0 0
  else if 400 < exponent then .infinite negative
  else .ofDecimal negative digits exponent

def float? (t : Text) : Option Number.Binary :=
  let (_, negative, body) := splitSign t
  if body = "inf" then some (.infinite negative)
  else if body = "nan" then some .undefined
  else do
    let front := body.takeWhile fun b => b != 101 && b != 69
    let power ← match body.drop front.length with
      | [] => some 0
      | _ :: e => exponent? e
    let digits := front.takeWhile (· != 46)
    let whole ← wholeDigits? digits
    let fraction ← match front.drop digits.length with
      | [] => some []
      | _ :: fs => plainDigits? Text.isDigit fs
    if front.length = body.length ∧ digits.length = front.length then none
    else
      match rounded negative (Text.decimalValue (whole ++ fraction)) (power - fraction.length) with
      | .infinite _ => none
      | x => some x

def integer? (t : Text) : Option Int :=
  match t with
  | 48 :: 120 :: ds => (inBase? 16 ds).bind fun n => inRange? n
  | 48 :: 111 :: ds => (inBase? 8 ds).bind fun n => inRange? n
  | 48 :: 98 :: ds => (inBase? 2 ds).bind fun n => inRange? n
  | _ =>
    let (_, negative, ds) := splitSign t
    (wholeDigits? ds).bind fun ds =>
      let n := Text.decimalValue ds
      inRange? (if negative then -(n : Int) else (n : Int))

def isWord (b : UInt8) : Bool := isBareKey b || b == 43 || b == 46 || b == 58

def word (t : Text) : Text :=
  let first := t.takeWhile isWord
  match t.drop first.length with
  | 32 :: rest =>
    if (Date.parse? first).isSome ∧ (rest.head?.any Text.isDigit) then first ++ 32 :: rest.takeWhile isWord else first
  | _ => first

def wordScalar? (e : Edition) (t : Text) : Option Expr :=
  if t = "true" then some (.bool true)
  else if t = "false" then some (.bool false)
  else
    match integer? t with
    | some n => some (.integer n)
    | none =>
      match Moment.parse? e t with
      | some m => some (.moment m)
      | none => (float? t).map .float

end RpcBindings.Toml
