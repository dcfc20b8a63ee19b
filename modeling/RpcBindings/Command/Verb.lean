import RpcBindings.Command.Flag
import RpcBindings.Text.Case

/-!
# Commands

The commands of the program form a tree. The first words of a command line that are no flags lead to a command; the
command then has its own flags and takes a certain number of arguments.
-/

namespace RpcBindings.Command

inductive Verb where
  | root
  | generate
  | check
  | watch
  | inspect
  | init
  | config
  | configShow
  | configGet
  | configWhere
  | version
  | help
  | completion
  deriving DecidableEq

inductive Arity where
  | any
  | none
  | exactly (n : Nat)
  | atMost (n : Nat)
  deriving DecidableEq

namespace Verb

def name : Verb → Text
  | root => "krpcgen"
  | generate => "generate"
  | check => "check"
  | watch => "watch"
  | inspect => "inspect"
  | init => "init"
  | config => "config"
  | configShow => "show"
  | configGet => "get"
  | configWhere => "where"
  | version => "version"
  | help => "help"
  | completion => "completion"

def children : Verb → List Verb
  | root => [generate, check, watch, inspect, init, config, version, help, completion]
  | config => [configShow, configGet, configWhere]
  | _ => []

def path : Verb → Text
  | root => root.name
  | configShow => "krpcgen config show"
  | configGet => "krpcgen config get"
  | configWhere => "krpcgen config where"
  | v => "krpcgen " ++ v.name

def arity : Verb → Arity
  | generate | check | watch | init => .atMost 1
  | inspect | configGet => .exactly 1
  | configShow | configWhere | version => .none
  | _ => .any

def isRunnable : Verb → Bool
  | root | config | help | completion => false
  | _ => true

def commonFlags : List Flag :=
  [⟨"verbose", some 118, .count⟩, ⟨"config", some 99, .text⟩, ⟨"json-log", none, .truth⟩]

def helpFlag : Flag := ⟨"help", some 104, .truth⟩

def generationFlags : List Flag :=
  [⟨"out", some 111, .text⟩, ⟨"ext", none, .text⟩, ⟨"index", none, .truth⟩, ⟨"jobs", some 106, .whole⟩,
   ⟨"templates", none, .text⟩, ⟨"manifest", some 109, .text⟩, ⟨"input-ext", none, .text⟩]

def ownFlags : Verb → List Flag
  | generate => generationFlags
  | check => generationFlags ++ [⟨"diff", none, .truth⟩]
  | watch => generationFlags ++ [⟨"debounce", none, .duration⟩]
  | inspect => [⟨"service", some 115, .text⟩, ⟨"format", some 102, .text⟩, ⟨"render", none, .truth⟩,
      ⟨"templates", none, .text⟩]
  | init => [⟨"force", none, .truth⟩, ⟨"input", none, .text⟩, ⟨"out", some 111, .text⟩]
  | configShow => [⟨"format", none, .text⟩]
  | version => [⟨"json", some 106, .truth⟩]
  | _ => []

def knownFlags (v : Verb) : List Flag := v.ownFlags ++ commonFlags

end Verb

/-- Whether a word takes the next word as its value, as far as can be told before flags are read. -/
def takesNext (flags : List Flag) (word : Text) : Bool :=
  match word with
  | 45 :: 45 :: name =>
    !(61 ∈ word) && !((flagNamed? flags name).any fun f => f.type.bare?.isSome)
  | [45, letter] => letter != 61 && !((flagLettered? flags letter).any fun f => f.type.bare?.isSome)
  | _ => false

def plainWords (flags : List Flag) : List Text → List Text
  | [] => []
  | word :: rest =>
    if word = [45, 45] then []
    else if takesNext flags word then
      match rest with
      | _ :: next :: more => plainWords flags (next :: more)
      | _ => []
    else if word = [] ∨ word.head? = some 45 then plainWords flags rest
    else word :: plainWords flags rest

def dropWord (flags : List Flag) (target : Text) : List Text → List Text
  | [] => []
  | word :: rest =>
    if word = [45, 45] then word :: rest
    else if takesNext flags word then
      match rest with
      | [] => [word]
      | value :: rest => word :: value :: dropWord flags target rest
    else if word.head? ≠ some 45 ∧ word = target then rest
    else word :: dropWord flags target rest

def descend : (fuel : Nat) → Verb → List Text → Verb × List Text
  | 0, v, row => (v, row)
  | fuel + 1, v, row =>
    match plainWords v.knownFlags row with
    | [] => (v, row)
    | word :: _ =>
      match v.children.find? fun c => c.name == word with
      | none => (v, row)
      | some child => descend fuel child (dropWord v.knownFlags word row)

def editRow (row : List Nat) (b : UInt8) (other : Text) : List Nat :=
  match row with
  | [] => []
  | first :: _ =>
    let cells := (row.zip row.tail).zip other
    (cells.foldl (fun (acc : List Nat) (cell : (Nat × Nat) × UInt8) =>
      let left := acc.headD 0
      let d := if cell.2 = b then cell.1.1 else 1 + min (min left cell.1.2) cell.1.1
      d :: acc) [first + 1]).reverse

def editDistance (a b : Text) : Nat :=
  let start := List.range (b.length + 1)
  (a.foldl (fun row x => editRow row x b) start).getLastD 0

def suggestions (word : Text) : List Text :=
  let word := Text.lowered word
  ((Verb.root.children.filter (· ≠ .help)).map Verb.name).filter fun name =>
    editDistance word name ≤ 2 || Text.startsWith name word

def meantText (meant : List Text) : Text :=
  if meant.isEmpty then []
  else ("\n\nDid you mean this?\n" : Text) ++ meant.flatMap fun name => 9 :: name ++ [10]

def unknownCommand (v : Verb) (word : Text) (meant : List Text) : Fault :=
  .foreign ("unknown command " ++ Text.quoted word ++ " for " ++ Text.quoted v.path ++ meantText meant)

structure Call where
  verb : Verb
  given : Given
  arguments : List Text

inductive Request where
  | run (call : Call)
  | usage (verb : Verb)

def checkArity (v : Verb) (arguments : List Text) : Except Fault Unit :=
  let count := arguments.length
  match v.arity, arguments with
  | .any, _ => .ok ()
  | .none, [] => .ok ()
  | .none, word :: _ => .error (unknownCommand v word [])
  | .exactly n, _ =>
    if count = n then .ok ()
    else .error (.foreign ("accepts " ++ Text.ofNat n ++ " arg(s), received " ++ Text.ofNat count))
  | .atMost n, _ =>
    if count ≤ n then .ok ()
    else .error (.foreign ("accepts at most " ++ Text.ofNat n ++ " arg(s), received " ++ Text.ofNat count))

def request (row : List Text) : Except Fault Request :=
  let (verb, rest) := descend 3 .root row
  let stray := if verb = .root then (plainWords verb.knownFlags rest).head? else none
  match stray with
  | some word => .error (unknownCommand .root word (suggestions word))
  | none =>
    match words (verb.knownFlags ++ [Verb.helpFlag]) rest with
    | .error f => .error f.fault
    | .ok w =>
      if w.given.truth "help" false || !verb.isRunnable then .ok (.usage verb)
      else (checkArity verb w.arguments).map fun _ => .run ⟨verb, w.given, w.arguments⟩

end RpcBindings.Command
