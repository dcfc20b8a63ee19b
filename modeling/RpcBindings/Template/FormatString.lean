import RpcBindings.Template.Verb

/-!
# Format strings

A format string is text with directives. A directive starts with `%`; flags, a width, a precision and the number of an
argument may follow, and a verb ends it. A star takes a width or a precision from the arguments. What is wrong with a
directive is written in its place, and arguments that no directive used are written at the end.
-/

namespace RpcBindings.Template

structure Directive where
  flags : Flags
  next : Nat
  badIndex : Bool
  reordered : Bool
  afterIndex : Bool
  complaints : Text
  rest : Text

/-- A number at the start of a text. Where it is far too large, nothing of the text remains. -/
def leadingNumber (t : Text) : Option Nat × Text :=
  let digits := t.takeWhile Text.isDigit
  if digits.isEmpty then (none, t)
  else if 1000000 < Text.decimalValue digits.dropLast then (none, [])
  else (some (Text.decimalValue digits), t.drop digits.length)

def Value.size? : Value → Option Int
  | .number _ n => if n.natAbs ≤ 1000000 then some n else none
  | .kind k => some (Value.kindNumber k)
  | _ => none

inductive IndexReading where
  | none
  | number (n : Nat) (rest : Text)
  | malformed (rest : Text)

def readIndex (t : Text) : IndexReading :=
  match t with
  | 91 :: inner =>
    match Text.cut? 93 inner with
    | .none => .malformed inner
    | some (digits, rest) =>
      if inner.length < 2 then .malformed inner
      else
        match leadingNumber digits with
        | (some n, []) => .number n rest
        | _ => .malformed rest
  | _ => .none

namespace Directive

def index (count : Nat) (d : Directive) : Directive :=
  match readIndex d.rest with
  | .none => { d with afterIndex := false }
  | .number n rest =>
    if 1 ≤ n ∧ n ≤ count then { d with reordered := true, afterIndex := true, next := n - 1, rest }
    else { d with reordered := true, afterIndex := true, badIndex := true, rest }
  | .malformed rest => { d with reordered := true, afterIndex := false, badIndex := true, rest }

def withFlag (f : Flags) (b : UInt8) : Flags :=
  match b with
  | 35 => { f with sharp := true }
  | 48 => { f with zero := true }
  | 43 => { f with plus := true }
  | 45 => { f with minus := true }
  | _ => { f with space := true }

def width (args : List Value) (d : Directive) : Directive :=
  match d.rest with
  | 42 :: rest =>
    let size := (args[d.next]?).bind Value.size?
    let flags := match size with
      | none => d.flags
      | some n =>
        if n < 0 then { d.flags with width := some n.natAbs, minus := true, zero := false }
        else { d.flags with width := some n.natAbs }
    { d with
      flags, rest, afterIndex := false
      next := if d.next < args.length then d.next + 1 else d.next
      complaints := if size.isNone then d.complaints ++ "%!(BADWIDTH)" else d.complaints }
  | t =>
    let (n, rest) := leadingNumber t
    { d with flags := { d.flags with width := n }, rest, badIndex := d.badIndex || (d.afterIndex && n.isSome) }

def precision (args : List Value) (d : Directive) : Directive :=
  match d.rest with
  | 46 :: rest =>
    let d := index args.length { d with rest, badIndex := d.badIndex || d.afterIndex }
    match d.rest with
    | 42 :: rest =>
      let size := ((args[d.next]?).bind Value.size?).filter (0 ≤ ·)
      { d with
        flags := { d.flags with precision := size.map Int.natAbs }
        rest, afterIndex := false
        next := if d.next < args.length then d.next + 1 else d.next
        complaints := if size.isNone then d.complaints ++ "%!(BADPREC)" else d.complaints }
    | t =>
      let (n, rest) := leadingNumber t
      { d with flags := { d.flags with precision := some (n.getD 0) }, rest }
  | _ => d

def read (args : List Value) (next : Nat) (reordered : Bool) (t : Text) : Directive :=
  let isFlag := fun (b : UInt8) => b == 35 || b == 48 || b == 43 || b == 45 || b == 32
  let flags := (t.takeWhile isFlag).foldl withFlag {}
  let d : Directive := ⟨flags, next, false, reordered, false, [], t.dropWhile isFlag⟩
  let d := precision args (width args (index args.length d))
  if d.afterIndex then d else index args.length d

end Directive

def verb? : Text → Option (Char × Text)
  | [] => none
  | b :: rest =>
    match Text.charAt? b rest with
    | some (c, k) => some (c, rest.drop k)
    | none => some (Glyph.replacement, rest)

def extraText (args : List Value) : Text :=
  let parts := args.map fun v =>
    match v with
    | .absent => Text.ofString "<nil>"
    | v => v.shape.typeName ++ "=" ++ v.shape.print
  ("%!(EXTRA " : Text) ++ Text.join [44, 32] parts ++ ")"

def formatFrom (args : List Value) : (fuel next : Nat) → (reordered : Bool) → Text → Text
  | 0, _, _, _ => []
  | fuel + 1, next, reordered, t =>
    let plain := t.takeWhile (· != 37)
    match t.drop plain.length with
    | [] => plain ++ (if !reordered && next < args.length then extraText (args.drop next) else [])
    | _ :: t =>
      let d := Directive.read args next reordered t
      match verb? d.rest with
      | none =>
        plain ++ d.complaints ++ "%!(NOVERB)" ++
          (if !d.reordered && d.next < args.length then extraText (args.drop d.next) else [])
      | some (verb, rest) =>
        let wrong := fun (what : Text) => ("%!" : Text) ++ Text.ofChar verb ++ "(" ++ what ++ ")"
        let (shown, next) : Text × Nat :=
          if verb = '%' then ([37], d.next)
          else if d.badIndex then (wrong "BADINDEX", d.next)
          else
            match args[d.next]? with
            | none => (wrong "MISSING", d.next)
            | some v => (v.shape.format d.flags verb, d.next + 1)
        plain ++ d.complaints ++ shown ++ formatFrom args fuel next d.reordered rest

def formatted (format : Text) (args : List Value) : Text := formatFrom args (format.length + 1) 0 false format

end RpcBindings.Template
