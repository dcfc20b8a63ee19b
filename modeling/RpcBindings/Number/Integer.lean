import RpcBindings.Text.Basic

/-!
# Whole numbers with a base mark

A whole number may have a sign and a mark of its base: `0x`, `0o` or `0b`, or a leading zero for base eight. Single
underscores may stand between digits and after the mark.
-/

namespace RpcBindings

def Text.unsigned (t : Text) : Text :=
  match t with
  | 43 :: rest => rest
  | 45 :: rest => rest
  | _ => t

namespace Integer

inductive Before where
  | nothing
  | digit
  | underscore
  | other
  deriving DecidableEq

def separated (hex : Bool) : Before → Text → Bool
  | before, [] => before != .underscore
  | before, b :: rest =>
    if Text.isDigit b || (hex && (Text.hexValue? b).isSome) then separated hex .digit rest
    else if b = 95 then before == .digit && separated hex .underscore rest
    else before != .underscore && separated hex .other rest

def separatorsFit (t : Text) : Bool :=
  let body := Text.unsigned t
  match body with
  | 48 :: m :: rest =>
    let m := Text.lowerByte m
    if m = 120 then separated true .digit rest
    else if m = 111 ∨ m = 98 then separated false .digit rest
    else separated false .nothing body
  | _ => separated false .nothing body

inductive IntegerFault where
  | malformed
  | outOfRange
  deriving DecidableEq

/-- The value of digits of a base; underscores are passed over. The first digit that does not fit decides what is wrong.
-/
def digits (base : Nat) (ds : Text) : Except IntegerFault Nat :=
  ds.foldlM (fun n b =>
    if b = 95 then .ok n
    else
      match Text.hexValue? b with
      | none => .error .malformed
      | some d =>
        if base ≤ d then .error .malformed
        else if base * n + d < 18446744073709551616 then .ok (base * n + d)
        else .error .outOfRange) 0

def unsigned (t : Text) : Except IntegerFault Nat := do
  let n ← match t with
    | [] => .error .malformed
    | 48 :: m :: c :: rest =>
      let m := Text.lowerByte m
      if m = 120 then digits 16 (c :: rest)
      else if m = 111 then digits 8 (c :: rest)
      else if m = 98 then digits 2 (c :: rest)
      else digits 8 t.tail
    | 48 :: rest => digits 8 rest
    | _ => digits 10 t
  if separatorsFit t then .ok n else .error .malformed

def signed (negative : Bool) (n : Nat) : Except IntegerFault Int :=
  if negative then if n ≤ 9223372036854775808 then .ok (-(n : Int)) else .error .outOfRange
  else if n < 9223372036854775808 then .ok n else .error .outOfRange

def parse (t : Text) : Except IntegerFault Int := do
  signed (t.head? == some 45) (← unsigned (Text.unsigned t))

def fits (t : Text) : Bool := (parse t).toOption.isSome || (unsigned t).toOption.isSome

end Integer

end RpcBindings
