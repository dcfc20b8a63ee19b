import RpcBindings.Toml.Scalar

/-!
# Reading TOML

A document is a row of statements, one a line: headers and assignments. Reading gives the statements as they stand;
whether they fit together is another question.
-/

namespace RpcBindings.Toml

def afterComment (t : Text) : Text :=
  match t with
  | 35 :: _ => t.dropWhile (· != 10)
  | _ => t

def skipFiller : (fuel : Nat) → Text → Text
  | 0, t => t
  | fuel + 1, t =>
    match afterComment (skipBlanks t) with
    | 10 :: rest => skipFiller fuel rest
    | 13 :: 10 :: rest => skipFiller fuel rest
    | rest => rest

def skipWithin (e : Edition) (t : Text) : Text :=
  match e with
  | .narrow => skipBlanks t
  | .wide => skipFiller t.length t

mutual

def value (e : Edition) : (fuel : Nat) → Text → Option (Expr × Text)
  | 0, _ => none
  | fuel + 1, t =>
    match t with
    | 34 :: _ => (string? e t).map fun (s, rest) => (.text s, rest)
    | 39 :: _ => (string? e t).map fun (s, rest) => (.text s, rest)
    | 91 :: rest => (arrayItems e fuel (skipFiller rest.length rest)).map fun (items, rest) => (.array items, rest)
    | 123 :: rest =>
      match skipWithin e rest with
      | 125 :: rest => some (.inline [], rest)
      | rest => (inlinePairs e fuel rest).map fun (pairs, rest) => (.inline pairs, rest)
    | _ =>
      let w := word t
      (wordScalar? e w).map fun x => (x, t.drop w.length)

def arrayItems (e : Edition) : (fuel : Nat) → Text → Option (List Expr × Text)
  | 0, _ => none
  | fuel + 1, t =>
    match t with
    | 93 :: rest => some ([], rest)
    | _ =>
      match value e fuel t with
      | none => none
      | some (item, rest) =>
        match skipFiller rest.length rest with
        | 44 :: rest =>
          (arrayItems e fuel (skipFiller rest.length rest)).map fun (items, rest) => (item :: items, rest)
        | 93 :: rest => some ([item], rest)
        | _ => none

def inlinePairs (e : Edition) : (fuel : Nat) → Text → Option (List (List Text × Expr) × Text)
  | 0, _ => none
  | fuel + 1, t =>
    match assignment e fuel t with
    | none => none
    | some (pair, rest) =>
      match skipWithin e rest with
      | 44 :: rest =>
        match e, skipWithin e rest with
        | .wide, 125 :: rest => some ([pair], rest)
        | _, rest => (inlinePairs e fuel rest).map fun (pairs, rest) => (pair :: pairs, rest)
      | 125 :: rest => some ([pair], rest)
      | _ => none

def assignment (e : Edition) : (fuel : Nat) → Text → Option ((List Text × Expr) × Text)
  | 0, _ => none
  | fuel + 1, t =>
    match keyPath e t.length t with
    | none => none
    | some (key, rest) =>
      match skipBlanks rest with
      | 61 :: rest => (value e fuel (skipBlanks rest)).map fun (x, rest) => ((key, x), rest)
      | _ => none

end

def header (e : Edition) (t : Text) : Option (Statement × Text) :=
  match t with
  | 91 :: 91 :: rest =>
    match keyPath e rest.length (skipBlanks rest) with
    | some (key, 93 :: 93 :: rest) => some (.series key, rest)
    | _ => none
  | 91 :: rest =>
    match keyPath e rest.length (skipBlanks rest) with
    | some (key, 93 :: rest) => some (.table key, rest)
    | _ => none
  | _ => none

def statement (e : Edition) (t : Text) : Option (Statement × Text) :=
  match t with
  | 91 :: _ => header e t
  | _ => (assignment e (2 * t.length + 2) t).map fun (pair, rest) => (.assign pair.1 pair.2, rest)

def afterLine? (t : Text) : Option Text :=
  match afterComment (skipBlanks t) with
  | [] => some []
  | 10 :: rest => some rest
  | 13 :: 10 :: rest => some rest
  | _ => none

def statementsFrom (e : Edition) (read : List Statement) : (fuel : Nat) → Text → Option (List Statement)
  | 0, _ => none
  | fuel + 1, t =>
    match skipFiller t.length t with
    | [] => some read.reverse
    | t =>
      match statement e t with
      | none => none
      | some (s, rest) =>
        match afterLine? rest with
        | none => none
        | some rest => statementsFrom e (s :: read) fuel rest

/-- Whether a row of characters may stand in a document. Control characters other than tabs and line ends may not. -/
def allowed : List Glyph → Bool
  | [] => true
  | .stray _ :: _ => false
  | .char '\r' :: rest => rest.head? == some (.char '\n') && allowed rest
  | .char c :: rest => (c == '\t' || c == '\n' || (0x20 ≤ c.toNat && c.toNat ≠ 0x7F)) && allowed rest

def statements? (e : Edition) (t : Text) : Option (List Statement) :=
  if allowed (Text.glyphs t) then statementsFrom e [] (t.length + 1) t else none

end RpcBindings.Toml
