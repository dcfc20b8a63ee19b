import RpcBindings.Command.Duration
import RpcBindings.Fault
import RpcBindings.Number.Integer
import RpcBindings.Text.Quoted

/-!
# Flags

A flag has a long name and maybe a letter. Flags and arguments may come in any order up to `--`. Flags that count or
stand for a truth value need no value; single letters may be written together.
-/

namespace RpcBindings.Command

inductive FlagType where
  | text
  | whole
  | truth
  | count
  | duration
  deriving DecidableEq

structure Flag where
  name : Text
  letter : Option UInt8
  type : FlagType

inductive FlagValue where
  | text (t : Text)
  | whole (n : Int)
  | truth (b : Bool)
  | duration (d : Nanoseconds)
  deriving DecidableEq

def FlagType.bare? : FlagType → Option Text
  | .truth => some "true"
  | .count => some "+1"
  | _ => none

inductive FlagFault where
  | badForm (word : Text)
  | unknown (name : Text)
  | unknownLetter (letter : UInt8) (letters : Text)
  | noValue (name : Text)
  | noValueForLetter (letter : UInt8) (letters : Text)
  | badValue (flag : Flag) (value : Text) (cause : Text)

/-- A letter in single quotes. A byte beyond ASCII is shown by the first byte of its character's encoding. -/
def quotedLetter (letter : UInt8) : Text :=
  let encoded := Text.ofChar (Char.ofNat letter.toNat)
  Text.quotedAs 39 false (Text.ofChar (Char.ofNat (encoded.headD 0).toNat))

def Flag.title (f : Flag) : Text :=
  match f.letter with
  | some l => ("-" : Text) ++ [l] ++ ", --" ++ f.name
  | none => "--" ++ f.name

def FlagFault.fault : FlagFault → Fault
  | badForm word => .foreign ("bad flag syntax: " ++ word)
  | unknown name => .foreign ("unknown flag: --" ++ name)
  | unknownLetter letter letters => .foreign ("unknown shorthand flag: " ++ quotedLetter letter ++ " in -" ++ letters)
  | noValue name => .foreign ("flag needs an argument: --" ++ name)
  | noValueForLetter letter letters =>
    .foreign ("flag needs an argument: " ++ quotedLetter letter ++ " in -" ++ letters)
  | badValue flag value cause =>
    .foreign ("invalid argument " ++ Text.quoted value ++ " for " ++ Text.quoted flag.title ++ " flag: " ++ cause)

abbrev Given := List (Text × FlagValue)

def wholeValue (value : Text) : Except Text Int :=
  match Integer.parse value with
  | .ok n => .ok n
  | .error .malformed => .error ("strconv.ParseInt: parsing " ++ Text.quoted value ++ ": invalid syntax")
  | .error .outOfRange => .error ("strconv.ParseInt: parsing " ++ Text.quoted value ++ ": value out of range")

def truthValue (value : Text) : Except Text Bool :=
  if value ∈ (["1", "t", "T", "true", "TRUE", "True"].map Text.ofString) then .ok true
  else if value ∈ (["0", "f", "F", "false", "FALSE", "False"].map Text.ofString) then .ok false
  else .error ("strconv.ParseBool: parsing " ++ Text.quoted value ++ ": invalid syntax")

def countOf (given : Given) (name : Text) : Int :=
  match given.lookup name with
  | some (.whole n) => n
  | _ => 0

def flagValue (f : Flag) (value : Text) (given : Given) : Except Text FlagValue :=
  match f.type with
  | .text => .ok (.text value)
  | .whole => (wholeValue value).map .whole
  | .truth => (truthValue value).map .truth
  | .count => if value = "+1" then .ok (.whole (countOf given f.name + 1)) else (wholeValue value).map .whole
  | .duration => ((duration value).mapError (DurationFault.text value)).map .duration

def setFlag (f : Flag) (value : Text) (given : Given) : Except FlagFault Given :=
  match flagValue f value given with
  | .ok v => .ok ((f.name, v) :: given)
  | .error cause => .error (.badValue f value cause)

def flagNamed? (flags : List Flag) (name : Text) : Option Flag := flags.find? fun f => f.name == name

def flagLettered? (flags : List Flag) (letter : UInt8) : Option Flag := flags.find? fun f => f.letter == some letter

def longFlag (flags : List Flag) (word : Text) (rest : List Text) (given : Given) :
    Except FlagFault (List Text × Given) :=
  match word.head? with
  | none | some 45 | some 61 => .error (.badForm ("--" ++ word))
  | _ =>
    let name := word.takeWhile (· != 61)
    match flagNamed? flags name with
    | none => .error (.unknown name)
    | some f =>
      match word.drop name.length with
      | _ :: value => (setFlag f value given).map fun g => (rest, g)
      | [] =>
        match f.type.bare?, rest with
        | some value, _ => (setFlag f value given).map fun g => (rest, g)
        | none, value :: rest => (setFlag f value given).map fun g => (rest, g)
        | none, [] => .error (.noValue name)

def runnerMark : Text := "test."

/-- Reads flags by their letters, which are without their dash. Those for a runner of tests are passed over. -/
def letterFlags (flags : List Flag) (rest : List Text) (given : Given) : Text → Except FlagFault (List Text × Given)
  | [] => .ok (rest, given)
  | letter :: more =>
    if Text.startsWith (letter :: more) runnerMark then .ok (rest, given)
    else
      match flagLettered? flags letter with
      | none => .error (.unknownLetter letter (letter :: more))
      | some f =>
        match more with
        | 61 :: value :: values => (setFlag f (value :: values) given).map fun g => (rest, g)
        | _ =>
          match f.type.bare?, more, rest with
          | some value, _, _ =>
            match setFlag f value given with
            | .error e => .error e
            | .ok given => letterFlags flags rest given more
          | none, [], [] => .error (.noValueForLetter letter [letter])
          | none, [], value :: rest => (setFlag f value given).map fun g => (rest, g)
          | none, value, _ => (setFlag f value given).map fun g => (rest, g)

structure Words where
  given : Given
  arguments : List Text

def readWords (flags : List Flag) : (fuel : Nat) → Words → List Text → Except FlagFault Words
  | 0, w, _ => .ok w
  | _, w, [] => .ok w
  | fuel + 1, w, word :: rest =>
    match word with
    | [45, 45] => .ok { w with arguments := w.arguments ++ rest }
    | 45 :: 45 :: name =>
      match longFlag flags name rest w.given with
      | .error e => .error e
      | .ok (rest, given) => readWords flags fuel { w with given } rest
    | 45 :: letter :: letters =>
      match letterFlags flags rest w.given (letter :: letters) with
      | .error e => .error e
      | .ok (rest, given) => readWords flags fuel { w with given } rest
    | _ => readWords flags fuel { w with arguments := w.arguments ++ [word] } rest

def words (flags : List Flag) (row : List Text) : Except FlagFault Words := readWords flags row.length ⟨[], []⟩ row

namespace Given

def text (g : Given) (name default : Text) : Text :=
  match g.lookup name with
  | some (.text t) => t
  | _ => default

def truth (g : Given) (name : Text) (default : Bool) : Bool :=
  match g.lookup name with
  | some (.truth b) => b
  | _ => default

def has (g : Given) (name : Text) : Bool := (g.lookup name).isSome

end Given

end RpcBindings.Command
