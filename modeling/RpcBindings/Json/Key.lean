import RpcBindings.Json.Form
import RpcBindings.Text.Utf8

/-!
# Field names

The key of a record's member is compared byte by byte with all field names at once, regardless of the case of ASCII
letters. A field is found if the key, as it is written with its escapes, is at least as long as the name and no byte
contradicts it. As soon as no name is left the rest of the key is passed over.
-/

namespace RpcBindings.Json

structure Candidate (φ : Type) where
  name : Text
  due : Text
  form : φ

/-- A key behind its opening quote. A length counts the bytes of the key as it is written. -/
inductive Key (φ : Type) where
  | matching (candidates : List (Candidate φ)) (length : Nat)
  | escape (candidates : List (Candidate φ)) (length : Nat)
  | unit (candidates : List (Candidate φ)) (length : Nat) (digits : Text)
  /-- Behind an escape that has no meaning: the next byte is passed over. -/
  | idle (candidates : List (Candidate φ)) (length : Nat)
  | lost
  | lostEscape
  | closed (field : Option (Text × φ))

namespace Key

variable {φ : Type}

def start (fields : List (Text × φ)) : Key φ := matching (fields.map fun f => ⟨f.1, f.1, f.2⟩) 0

def narrow (candidates : List (Candidate φ)) (b : UInt8) : List (Candidate φ) :=
  candidates.filterMap fun c =>
    match c.due with
    | [] => none
    | d :: rest => if d = Text.lowerByte b then some { c with due := rest } else none

def found? (candidates : List (Candidate φ)) (length : Nat) : Option (Text × φ) :=
  match candidates.head? with
  | none => none
  | some c => if length < c.name.length then none else some (c.name, c.form)

def unitValue (digits : Text) : Nat := digits.foldr (fun b n => 16 * n + (Text.hexValue? b).getD 0) 0

/-- The names that go on with a code unit. Names are ASCII, so that any other character rules all of them out. -/
def narrowUnit (candidates : List (Candidate φ)) (n : Nat) : List (Candidate φ) :=
  if n < 128 then narrow candidates n.toUInt8 else []

def step : Key φ → UInt8 → Option (Key φ)
  | matching candidates length, b =>
    if b = 34 then some (closed (found? candidates length))
    else if b = 92 then some (escape candidates (length + 1))
    else
      match narrow candidates b with
      | [] => some lost
      | left => some (matching left (length + 1))
  | escape candidates length, b =>
    if b = 117 then some (unit candidates (length + 1) [])
    else if b = 34 ∨ b = 92 ∨ b = 47 ∨ b = 98 ∨ b = 102 ∨ b = 110 ∨ b = 114 ∨ b = 116 then some lost
    else some (idle candidates (length + 1))
  | unit candidates length digits, b => some (unit candidates (length + 1) (b :: digits))
  | idle candidates length, _ => some (matching candidates (length + 1))
  | lost, b =>
    if b = 34 then some (closed none)
    else if b = 92 then some lostEscape
    else some lost
  | lostEscape, _ => some lost
  | closed _, _ => none

end Key

end RpcBindings.Json
