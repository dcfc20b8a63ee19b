/-!
# Byte text

Names, documents and generated modules are byte strings: a name may hold bytes that are no UTF-8, and the order of
names is the order of their bytes. A string literal stands for its UTF-8 encoding.

Functions that walk a whole text are folds, so that a long text needs no deep stack.
-/

namespace RpcBindings

abbrev Text := List UInt8

namespace Text

def ofString (s : String) : Text := s.toList.flatMap String.utf8EncodeChar

instance : Coe String Text := ⟨ofString⟩

def toString? (t : Text) : Option String := String.fromUTF8? ⟨t.toArray⟩

def ofNat (n : Nat) : Text := (Nat.toDigits 10 n).map fun c => c.toNat.toUInt8

def ofInt : Int → Text
  | .ofNat n => ofNat n
  | .negSucc n => "-" ++ ofNat (n + 1)

def hexDigit (upper : Bool) (n : Nat) : UInt8 :=
  if n < 10 then (48 + n).toUInt8 else ((if upper then 55 else 87) + n).toUInt8

def hex (upper : Bool) : (width : Nat) → Nat → Text
  | 0, _ => []
  | width + 1, n => hex upper width (n / 16) ++ [hexDigit upper (n % 16)]

def join (sep : Text) : List Text → Text
  | [] => []
  | [t] => t
  | t :: u :: ts => t ++ sep ++ join sep (u :: ts)

@[simp] theorem join_nil (sep : Text) : join sep [] = [] := rfl

@[simp] theorem join_singleton (sep t : Text) : join sep [t] = t := rfl

theorem join_cons_cons (sep t u : Text) (ts : List Text) :
    join sep (t :: u :: ts) = t ++ sep ++ join sep (u :: ts) := rfl

def splitWhere (sep : UInt8 → Bool) (t : Text) : List Text :=
  t.foldr (fun b pieces =>
    match pieces with
    | [] => [[b]]
    | piece :: rest => if sep b then [] :: piece :: rest else (b :: piece) :: rest) [[]]

def splitOn (sep : UInt8) (t : Text) : List Text := splitWhere (· == sep) t

def cut? (sep : UInt8) (t : Text) : Option (Text × Text) :=
  match t.dropWhile (· != sep) with
  | [] => none
  | _ :: rest => some (t.takeWhile (· != sep), rest)

/-- The lines of a text. A line ends at a line feed, which is no part of it; what follows the last line feed is a line
if it is not empty. -/
def lines (t : Text) : List Text :=
  let pieces := splitOn 10 t
  match pieces.getLast? with
  | some [] => pieces.dropLast
  | _ => pieces

def dropReturn (line : Text) : Text :=
  match line.getLast? with
  | some 13 => line.dropLast
  | _ => line

def startsWith (t lead : Text) : Bool := lead.isPrefixOf t

def endsWith (t tail : Text) : Bool := tail.isSuffixOf t

def after? (lead t : Text) : Option Text := if startsWith t lead then some (t.drop lead.length) else none

def contains (piece : Text) : Text → Bool
  | [] => piece.isEmpty
  | b :: rest => piece.isPrefixOf (b :: rest) || contains piece rest

def lowerByte (b : UInt8) : UInt8 := if 65 ≤ b ∧ b ≤ 90 then b + 32 else b

def upperByte (b : UInt8) : UInt8 := if 97 ≤ b ∧ b ≤ 122 then b - 32 else b

def lowerAscii (t : Text) : Text := t.map lowerByte

def upperAscii (t : Text) : Text := t.map upperByte

def isDigit (b : UInt8) : Bool := 48 ≤ b && b ≤ 57

def hexValue? (b : UInt8) : Option Nat :=
  if 48 ≤ b ∧ b ≤ 57 then some (b.toNat - 48)
  else if 97 ≤ b ∧ b ≤ 102 then some (b.toNat - 87)
  else if 65 ≤ b ∧ b ≤ 70 then some (b.toNat - 55)
  else none

def decimalValue (digits : Text) : Nat := digits.foldl (fun n b => 10 * n + (b.toNat - 48)) 0

end Text

end RpcBindings
