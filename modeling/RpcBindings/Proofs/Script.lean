import RpcBindings.Json.Reader

/-!
# JSON texts as they are written

A script is a JSON text without its blanks: strings with their escapes, numbers with their bytes, the members of an object
in their order. It says what value stands where a grammar asks for a form, without a look at the reader.
-/

namespace RpcBindings.Json

inductive Sign where
  | plain (b : UInt8) (h : b ≠ 0 ∧ b ≠ 34 ∧ b ≠ 92)
  | short (letter b : UInt8) (h : escape? letter = some b)
  | unit (a b c d : UInt8) (h : ∀ x ∈ [a, b, c, d], (Text.hexValue? x).isSome)

namespace Sign

def text : Sign → Text
  | plain b _ => [b]
  | short letter _ _ => [92, letter]
  | unit a b c d _ => [92, 117, a, b, c, d]

def piece : Sign → Piece
  | plain b _ => .byte b
  | short _ b _ => .byte b
  | unit a b c d _ => .unit (Key.unitValue [d, c, b, a])

def content (signs : List Sign) : Text := Piece.assemble (signs.map piece)

def quoted (signs : List Sign) : Text := 34 :: (signs.flatMap text ++ [34])

end Sign

structure Numeral where
  first : UInt8
  rest : Text
  first_ok : Text.isDigit first ∨ first = 45
  rest_ok : ∀ b ∈ rest, isNumberByte b

namespace Numeral

def text (n : Numeral) : Text := n.first :: n.rest

def IsWord (n : Numeral) : Prop := n.text = [48] ∨ n.first ≠ 48 ∧ ∀ b ∈ n.text, Text.isDigit b

instance (n : Numeral) : Decidable n.IsWord := inferInstanceAs (Decidable (_ ∨ _))

end Numeral

inductive Script where
  | null
  | bool (b : Bool)
  | number (n : Numeral)
  | string (signs : List Sign)
  | array (items : List Script)
  | object (members : List (List Sign × Script))

namespace Script

def separated : List (List Text) → List Text
  | [] => []
  | row :: rows => row ++ rows.flatMap ([44] :: ·)

mutual

def tokens : Script → List Text
  | null => ["null"]
  | bool b => [if b then "true" else "false"]
  | number n => [n.text]
  | string signs => [Sign.quoted signs]
  | array items => [91] :: (separated (itemTokens items) ++ [[93]])
  | object members => [123] :: (separated (memberTokens members) ++ [[125]])

def itemTokens : List Script → List (List Text)
  | [] => []
  | a :: rest => a.tokens :: itemTokens rest

def memberTokens : List (List Sign × Script) → List (List Text)
  | [] => []
  | (key, a) :: rest => (Sign.quoted key :: [58] :: a.tokens) :: memberTokens rest

end

mutual

def height : Script → Nat
  | array items => itemsHeight items + 1
  | object members => membersHeight members + 1
  | _ => 0

def itemsHeight : List Script → Nat
  | [] => 0
  | a :: rest => max a.height (itemsHeight rest)

def membersHeight : List (List Sign × Script) → Nat
  | [] => 0
  | (_, a) :: rest => max a.height (membersHeight rest)

end

theorem itemTokens_eq (items : List Script) : itemTokens items = items.map tokens := by
  induction items with
  | nil => rfl
  | cons a rest ih => rw [itemTokens, ih, List.map_cons]

theorem memberTokens_eq (members : List (List Sign × Script)) :
    memberTokens members = members.map fun m => Sign.quoted m.1 :: [58] :: m.2.tokens := by
  induction members with
  | nil => rfl
  | cons m rest ih => rw [memberTokens, ih, List.map_cons]

theorem itemsHeight_eq (items : List Script) : itemsHeight items = items.foldr (fun a n => max a.height n) 0 := by
  induction items with
  | nil => rfl
  | cons a rest ih => rw [itemsHeight, ih, List.foldr_cons]

theorem membersHeight_eq (members : List (List Sign × Script)) :
    membersHeight members = members.foldr (fun m n => max m.2.height n) 0 := by
  induction members with
  | nil => rfl
  | cons m rest ih => rw [membersHeight, ih, List.foldr_cons]

@[elab_as_elim]
theorem inductionOn {motive : Script → Prop} (a : Script) (null : motive null) (bool : ∀ b, motive (bool b))
    (number : ∀ n, motive (number n)) (string : ∀ signs, motive (string signs))
    (array : ∀ items, (∀ a ∈ items, motive a) → motive (array items))
    (object : ∀ members, (∀ m ∈ members, motive m.2) → motive (object members)) : motive a :=
  match a with
  | .null => null
  | .bool b => bool b
  | .number n => number n
  | .string signs => string signs
  | .array items => array items fun a _hin => inductionOn a null bool number string array object
  | .object members => object members fun m _hin => inductionOn m.2 null bool number string array object
termination_by a
decreasing_by
  · have hlt := List.sizeOf_lt_of_mem _hin
    simp only [Script.array.sizeOf_spec]
    omega
  · have hlt := List.sizeOf_lt_of_mem _hin
    have hsnd : sizeOf m = 1 + sizeOf m.1 + sizeOf m.2 := rfl
    simp only [Script.object.sizeOf_spec]
    omega

def Fits (depth : Nat) (a : Script) : Prop := a.height ≤ 1 ∨ depth + a.height ≤ maxDepth

instance (depth : Nat) (a : Script) : Decidable (a.Fits depth) := inferInstanceAs (Decidable (_ ∨ _))

end Script

/-- A text that holds tokens in a row, with blanks before each of them and at its end. -/
inductive Laid : List Text → Text → Prop where
  | finish {blanks : Text} (h : ∀ b ∈ blanks, isSpace b) : Laid [] blanks
  | token {blanks token t : Text} {tokens : List Text} (h : ∀ b ∈ blanks, isSpace b) (rest : Laid tokens t) :
      Laid (token :: tokens) (blanks ++ (token ++ t))

theorem Laid.tight {token t : Text} {tokens : List Text} (h : Laid tokens t) : Laid (token :: tokens) (token ++ t) := by
  have hnone : ∀ b ∈ ([] : Text), isSpace b := by simp
  exact .token hnone h

theorem laid_flatten (tokens : List Text) : Laid tokens tokens.flatten := by
  induction tokens with
  | nil => exact .finish (by simp)
  | cons token tokens ih => exact ih.tight

def Follows (rest : List Text) : Prop := ∃ b more, rest = [b] :: more ∧ (b = 44 ∨ b = 93 ∨ b = 125)

/-- The text holds a script, with any blanks between its tokens. -/
def Script.Spells (a : Script) (t : Text) : Prop := Laid a.tokens t

def Script.text (a : Script) : Text := a.tokens.flatten

theorem Script.spells_text (a : Script) : a.Spells a.text := laid_flatten a.tokens

/-! ## Field names -/

namespace Sign

variable {φ : Type}

def named? : List (Candidate φ) → Nat → List Sign → Option (Text × φ)
  | candidates, length, [] => Key.found? candidates length
  | candidates, length, plain b _ :: rest => named? (Key.narrow candidates b) (length + 1) rest
  | _, _, short _ _ _ :: _ => none
  | candidates, length, unit a b c d _ :: rest =>
    named? (Key.narrowUnit candidates (Key.unitValue [d, c, b, a])) (length + 6) rest

def field? (fields : List (Text × φ)) (key : List Sign) : Option (Text × φ) :=
  named? (fields.map fun f => ⟨f.1, f.1, f.2⟩) 0 key

theorem named?_nil (length : Nat) (key : List Sign) : named? ([] : List (Candidate φ)) length key = none := by
  induction key generalizing length with
  | nil => rfl
  | cons sign rest ih =>
    cases sign with
    | plain b h => exact ih _
    | short letter b h => rfl
    | unit a b c d h =>
      rw [named?]
      have hnarrow : Key.narrowUnit ([] : List (Candidate φ)) (Key.unitValue [d, c, b, a]) = [] := by
        simp [Key.narrowUnit, Key.narrow]
      rw [hnarrow]
      exact ih _

end Sign

/-! ## Values -/

inductive ObjectForm (ρ : Type) where
  | record (r : ρ)
  | table (r : ρ)

namespace ObjectForm

variable {ρ : Type}

def form : ObjectForm ρ → Form ρ
  | record r => .record r
  | table r => .table r

def frame : ObjectForm ρ → List (Text × Json) → Option Text → Frame ρ
  | record r => .record r
  | table r => .table r

/-- The name under which a member is kept and its form, or nothing if the member is passed over. -/
def place? (g : Grammar ρ) : ObjectForm ρ → List Sign → Option (Text × Form ρ)
  | record r, key => Sign.field? (g r) key
  | table r, key => some (Sign.content key, .record r)

end ObjectForm

namespace Script

variable {ρ : Type} (g : Grammar ρ)

mutual

def value? : Form ρ → Nat → Script → Option Json
  | _, _, null => some .null
  | .flag, _, bool b => some (.bool b)
  | .number, _, number n => if n.IsWord then some (.number n.text) else none
  | .text, _, string signs => some (.string (Sign.content signs))
  | .list r, depth, array items => if depth < maxDepth then (items? (.record r) (depth + 1) items).map .array else none
  | .record r, depth, object members =>
    if depth < maxDepth then (members? (.record r) (depth + 1) members).map .object else none
  | .table r, depth, object members =>
    if depth < maxDepth then (members? (.table r) (depth + 1) members).map .object else none
  | _, _, _ => none

def items? (form : Form ρ) (depth : Nat) : List Script → Option (List Json)
  | [] => some []
  | a :: rest => (value? form depth a).bind fun v => (items? form depth rest).map (v :: ·)

def members? (o : ObjectForm ρ) (depth : Nat) : List (List Sign × Script) → Option (List (Text × Json))
  | [] => some []
  | (key, a) :: rest =>
    match o.place? g key with
    | some (name, form) => (value? form depth a).bind fun v => (members? o depth rest).map ((name, v) :: ·)
    | none => if a.Fits depth then members? o depth rest else none

end

theorem value?_object (o : ObjectForm ρ) (depth : Nat) (members : List (List Sign × Script)) :
    value? g o.form depth (object members) =
      if depth < maxDepth then (members? g o (depth + 1) members).map .object else none := by
  cases o <;> rw [ObjectForm.form, value?]

end Script

end RpcBindings.Json
