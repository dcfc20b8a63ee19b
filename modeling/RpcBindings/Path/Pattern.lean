import RpcBindings.Path.Lexical
import RpcBindings.Text.Utf8

/-!
# Path patterns

In a pattern a star stands for any row of bytes without a slash, a question mark for one character that is no slash, and
brackets for one character out of some ranges, or out of none of them after a caret. A backslash takes its meaning from
the byte behind it. A pattern is cut before every star into chunks, and each chunk is matched at the first place where
it fits.
-/

namespace RpcBindings.Path

inductive Place where
  | byte (b : UInt8)
  | any
  | range (negated : Bool) (ranges : List (Char × Char))
  deriving DecidableEq

structure Chunk where
  starred : Bool
  places : List Place
  deriving DecidableEq

abbrev Pattern := List Chunk

def hasMeta (t : Text) : Bool := t.any fun b => b == 42 || b == 63 || b == 91 || b == 92

namespace Pattern

def scan : (fuel : Nat) → (inRange : Bool) → Text → Text × Text
  | 0, _, t => ([], t)
  | fuel + 1, inRange, t =>
    let keep := fun (b : UInt8) (inRange : Bool) (rest : Text) =>
      let (chunk, rest) := scan fuel inRange rest
      (b :: chunk, rest)
    match t with
    | [] => ([], [])
    | 92 :: b :: rest =>
      let (chunk, rest) := scan fuel inRange rest
      (92 :: b :: chunk, rest)
    | 91 :: rest => keep 91 true rest
    | 93 :: rest => keep 93 false rest
    | 42 :: rest => if inRange then keep 42 inRange rest else ([], 42 :: rest)
    | b :: rest => keep b inRange rest

def cut : (fuel : Nat) → Text → List (Bool × Text)
  | 0, _ => []
  | _ + 1, [] => []
  | fuel + 1, t =>
    let body := t.dropWhile (· == 42)
    let (chunk, rest) := scan body.length false body
    (body.length < t.length, chunk) :: cut fuel rest

def rangeEnd? (t : Text) : Option (Char × Text) :=
  let body := match t with
    | 92 :: rest => rest
    | _ => t
  match t, body with
  | 45 :: _, _ => none
  | 93 :: _, _ => none
  | _, [] => none
  | _, b :: rest =>
    match Text.charAt? b rest with
    | none => none
    | some (c, k) => if (rest.drop k).isEmpty then none else some (c, rest.drop k)

def ranges? : (fuel : Nat) → (read : List (Char × Char)) → Text → Option (List (Char × Char) × Text)
  | 0, _, _ => none
  | fuel + 1, read, t =>
    if t.head? = some 93 ∧ !read.isEmpty then some (read.reverse, t.tail)
    else do
      let (low, rest) ← rangeEnd? t
      match rest with
      | 45 :: rest => do
        let (high, rest) ← rangeEnd? rest
        ranges? fuel ((low, high) :: read) rest
      | _ => ranges? fuel ((low, low) :: read) rest

def places? : (fuel : Nat) → Text → Option (List Place)
  | 0, _ => some []
  | _ + 1, [] => some []
  | fuel + 1, b :: rest =>
    match b with
    | 91 =>
      let (negated, rest) := match rest with
        | 94 :: rest => (true, rest)
        | _ => (false, rest)
      do
        let (ranges, rest) ← ranges? (rest.length + 1) [] rest
        return .range negated ranges :: (← places? fuel rest)
    | 63 => (places? fuel rest).map (.any :: ·)
    | 92 =>
      match rest with
      | [] => none
      | b :: rest => (places? fuel rest).map (.byte b :: ·)
    | _ => (places? fuel rest).map (.byte b :: ·)

def parse? (t : Text) : Option Pattern :=
  (cut (t.length + 1) t).mapM fun (starred, chunk) => (places? (chunk.length + 1) chunk).map (⟨starred, ·⟩)

def character : UInt8 → Text → Char × Text
  | b, rest =>
    match Text.charAt? b rest with
    | some (c, k) => (c, rest.drop k)
    | none => (Glyph.replacement, rest)

def placesAfter? : List Place → Text → Option Text
  | [], t => some t
  | _ :: _, [] => none
  | .byte x :: places, b :: rest => if x = b then placesAfter? places rest else none
  | .any :: places, b :: rest => if b = slash then none else placesAfter? places (character b rest).2
  | .range negated ranges :: places, b :: rest =>
    let (c, rest) := character b rest
    if (ranges.any fun r => r.1 ≤ c && c ≤ r.2) = negated then none else placesAfter? places rest

/-- What follows a chunk at the first place of a text, behind a byte that is no slash, where it fits. The last chunk has
to leave nothing. -/
def chunkLater? (places : List Place) (last : Bool) : Text → Option Text
  | [] => none
  | b :: rest =>
    if b = slash then none
    else match placesAfter? places rest with
      | some t => if last ∧ !t.isEmpty then chunkLater? places last rest else some t
      | none => chunkLater? places last rest

def chunkAfter? (c : Chunk) (last : Bool) (t : Text) : Option Text :=
  let later := if c.starred then chunkLater? c.places last t else none
  match placesAfter? c.places t with
  | some rest => if rest.isEmpty ∨ !last then some rest else later
  | none => later

def covers : Pattern → Text → Bool
  | [], t => t.isEmpty
  | c :: rest, t =>
    if c.starred ∧ c.places.isEmpty then !t.any (· == slash)
    else match chunkAfter? c rest.isEmpty t with
      | some t => covers rest t
      | none => false

end Pattern

end RpcBindings.Path
