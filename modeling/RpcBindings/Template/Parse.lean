import RpcBindings.Dict
import RpcBindings.Template.Node
import RpcBindings.Template.Token

/-!
# Parsing templates

Tokens become trees by recursive descent. A file defines a template under its own name and those that it defines inside;
within a file a template that holds more than blanks is defined once. Functions and variables must be known where they
are used.
-/

namespace RpcBindings.Template

def reserved : List Text :=
  ["block", "break", "continue", "define", "else", "end", "if", "range", "template", "with"]

structure Cursor where
  tokens : List Token
  inScope : List Text
  defined : Dict (List Node)
  functions : List Text

abbrev Parser := StateT Cursor Option

inductive Stop where
  | finish
  | otherwise
  deriving DecidableEq

inductive Control where
  | branch
  | focus
  | loop
  deriving DecidableEq

namespace Parser

def fail {α : Type} : Parser α := fun _ => none

def peek : Parser (Option Token) := fun c => some (c.tokens.head?, c)

def skipSpaces : Parser Unit := fun c => some ((), { c with tokens := c.tokens.dropWhile (· = .space) })

def peekSolid : Parser (Option Token) := do skipSpaces; peek

def advance : Parser Unit := fun c => some ((), { c with tokens := c.tokens.tail })

def expect (token : Token) : Parser Unit := do
  if (← peekSolid) = some token then advance else fail

def inScope : Parser (List Text) := fun c => some (c.inScope, c)

def setVariables (vs : List Text) : Parser Unit := fun c => some ((), { c with inScope := vs })

def declare (name : Text) : Parser Unit := do setVariables (name :: (← inScope))

def functions : Parser (List Text) := fun c => some (c.functions, c)

def path : (fuel : Nat) → Parser (List Text)
  | 0 => fail
  | fuel + 1 => do
    match ← peek with
    | some (.field name) => do
      advance
      return name :: (← path fuel)
    | _ => return []

def withPath (base : Expr) (path : List Text) : Parser Expr :=
  match path, base with
  | [], _ => return base
  | _, .field p => return .field (p ++ path)
  | _, .variable name p => return .variable name (p ++ path)
  | _, .function _ => return .chain base path
  | _, .group _ _ _ => return .chain base path
  | _, _ => fail

def isExecutable : Expr → Bool
  | .bool _ => false
  | .dot => false
  | .nil => false
  | .number _ => false
  | .text _ => false
  | _ => true

def checkCommands (commands : List (List Expr)) : Parser Unit :=
  match commands with
  | [] => fail
  | _ :: rest => if rest.all fun c => (c.head?.map isExecutable).getD false then pure () else fail

inductive Following where
  | declares
  | assigns
  | comma
  | other

/-- The variable that a pipeline starts with, if there is one, and what follows it. Nothing is taken. -/
def leadingVariable : Parser (Option (Text × Following × List Token)) := do
  skipSpaces
  match (← get).tokens with
  | .variable v :: rest =>
    match rest.dropWhile (· = .space) with
    | .declare :: rest => return some (v, .declares, rest)
    | .assign :: rest => return some (v, .assigns, rest)
    | .comma :: rest => return some (v, .comma, rest)
    | _ => return some (v, .other, rest)
  | _ => return none

def takeVariable (v : Text) (rest : List Token) : Parser Unit := do
  modify fun c => { c with tokens := rest }
  declare v

def secondTarget (first : Text) : Parser (List Text × Bool) := do
  match ← leadingVariable with
  | some (v, .declares, rest) => takeVariable v rest; return ([first, v], false)
  | some (v, .assigns, rest) => takeVariable v rest; return ([first, v], true)
  | some (_, .comma, _) => fail
  | some (_, .other, _) => return ([first], false)
  | none =>
    let next ← peek
    if next = some .closeAction ∨ next = some .closeParen then return ([first], false) else fail

def targets (loop : Bool) : Parser (List Text × Bool) := do
  match ← leadingVariable with
  | some (v, .declares, rest) => takeVariable v rest; return ([v], false)
  | some (v, .assigns, rest) => takeVariable v rest; return ([v], true)
  | some (v, .comma, rest) =>
    if loop then takeVariable v rest; secondTarget v
    else fail
  | some (_, .other, _) => return ([], false)
  | none => return ([], false)

mutual

def term : (fuel : Nat) → Parser (Option Expr)
  | 0 => fail
  | fuel + 1 => do
    match ← peekSolid with
    | some .dot => advance; return some .dot
    | some (.field name) => advance; return some (.field [name])
    | some (.number n) => advance; return some (.number n)
    | some (.string t) => advance; return some (.text t)
    | some (.variable name) => do
      if (← inScope).contains name then advance; return some (.variable name [])
      else fail
    | some (.word w) => do
      if w = "true" then advance; return some (.bool true)
      else if w = "false" then advance; return some (.bool false)
      else if w = "nil" then advance; return some .nil
      else if reserved.contains w then return none
      else if (← functions).contains w then advance; return some (.function w)
      else fail
    | some .openParen => do
      advance
      let (targets, assigns) ← targets false
      let commands ← commandsUntil fuel .closeParen
      checkCommands commands
      return some (.group targets assigns commands)
    | _ => return none

def command : (fuel : Nat) → Parser (List Expr)
  | 0 => fail
  | fuel + 1 => do
    let operand ← match ← term fuel with
      | none => pure none
      | some base => do
        let p ← path fuel
        pure (some (← withPath base p))
    match ← peek with
    | some .space => do
      advance
      return operand.toList ++ (← command fuel)
    | some .closeAction => return operand.toList
    | some .closeParen => return operand.toList
    | some .pipe => advance; return operand.toList
    | _ => fail

def commandsUntil : (fuel : Nat) → (closer : Token) → Parser (List (List Expr))
  | 0, _ => fail
  | fuel + 1, closer => do
    let next ← peekSolid
    if next = some closer then advance; return []
    else match next with
      | none => fail
      | some .pipe => fail
      | some _ => do
        let c ← command fuel
        if c.isEmpty then fail
        else return c :: (← commandsUntil fuel closer)

end

def pipeline (fuel : Nat) (loop : Bool) : Parser Pipeline := do
  let (targets, assigns) ← targets loop
  let commands ← commandsUntil fuel .closeAction
  checkCommands commands
  return { targets, assigns, commands }

def define (name : Text) (nodes : List Node) : Parser Unit := fun c =>
  match c.defined.get? name with
  | none => some ((), { c with defined := c.defined.insert name nodes })
  | some old =>
    if Node.blank old then some ((), { c with defined := c.defined.insert name nodes })
    else if Node.blank nodes then some ((), c)
    else none

def name : Parser Text := do
  match ← peekSolid with
  | some (.string t) => advance; return t
  | _ => fail

mutual

def nodes : (fuel : Nat) → (inLoop : Bool) → Parser (List Node × Stop)
  | 0, _ => fail
  | fuel + 1, inLoop => do
    match ← peekSolid with
    | some (.text t) => do
      advance
      let (rest, stop) ← nodes fuel inLoop
      return (.text t :: rest, stop)
    | some .openAction => do
      advance
      match ← peekSolid with
      | some (.word w) => do
        if w = "end" then advance; expect .closeAction; return ([], .finish)
        else if w = "else" then do
          advance
          match ← peekSolid with
          | some (.word v) => if v = "if" ∨ v = "with" then return ([], .otherwise) else fail
          | _ => do expect .closeAction; return ([], .otherwise)
        else do
          let n ← action fuel inLoop
          let (rest, stop) ← nodes fuel inLoop
          return (n :: rest, stop)
      | _ => do
        let n ← action fuel inLoop
        let (rest, stop) ← nodes fuel inLoop
        return (n :: rest, stop)
    | _ => fail

def action : (fuel : Nat) → (inLoop : Bool) → Parser Node
  | 0, _ => fail
  | fuel + 1, inLoop => do
    match ← peekSolid with
    | some (.word w) => do
      if w = "if" then advance; control fuel inLoop .branch
      else if w = "with" then advance; control fuel inLoop .focus
      else if w = "range" then advance; control fuel inLoop .loop
      else if w = "break" then advance; expect .closeAction; (if inLoop then return .leave else fail)
      else if w = "continue" then advance; expect .closeAction; (if inLoop then return .next else fail)
      else if w = "template" then do
        advance
        let called ← name
        if (← peekSolid) = some .closeAction then advance; return .call called none
        else return .call called (some (← pipeline fuel false))
      else if w = "block" then do
        advance
        let called ← name
        let pipe ← pipeline fuel false
        body fuel called
        return .call called (some pipe)
      else return .action (← pipeline fuel false)
    | _ => return .action (← pipeline fuel false)

def body : (fuel : Nat) → (called : Text) → Parser Unit
  | 0, _ => fail
  | fuel + 1, called => do
    let outer ← inScope
    setVariables ["$"]
    let (ns, stop) ← nodes fuel false
    if stop = .finish then do
      define called ns
      setVariables outer
    else fail

def control : (fuel : Nat) → (inLoop : Bool) → Control → Parser Node
  | 0, _, _ => fail
  | fuel + 1, inLoop, kind => do
    let outer ← inScope
    let pipe ← pipeline fuel (kind = .loop)
    let (ns, stop) ← nodes fuel (inLoop || kind = .loop)
    let other ← match stop with
      | .finish => pure []
      | .otherwise => do
        let next ← peek
        if next = some (.word "if") ∧ kind = .branch then do
          advance
          pure [← control fuel inLoop .branch]
        else if next = some (.word "with") ∧ kind = .focus then do
          advance
          pure [← control fuel inLoop .focus]
        else do
          let (ns, stop) ← nodes fuel inLoop
          if stop = .finish then pure ns else fail
    setVariables outer
    match kind with
    | .branch => return .branch pipe ns other
    | .focus => return .focus pipe ns other
    | .loop => return .loop pipe ns other

end

def file : (fuel : Nat) → Parser (List Node)
  | 0 => fail
  | fuel + 1 => do
    match ← peek with
    | none => return []
    | some (.text t) => do
      advance
      return .text t :: (← file fuel)
    | some .openAction => do
      advance
      if (← peekSolid) = some (.word "define") then do
        advance
        let called ← name
        expect .closeAction
        body fuel called
        file fuel
      else do
        let n ← action fuel false
        return n :: (← file fuel)
    | _ => fail

end Parser

def parse? (functions : List Text) (name text : Text) : Option (Dict (List Node)) := do
  let tokens ← tokens? text
  let parser : Parser Unit := do Parser.define name (← Parser.file (2 * tokens.length + 2))
  let ((), c) ← parser.run ⟨tokens, ["$"], Dict.empty, functions⟩
  return c.defined

abbrev Library := Dict (List Node)

namespace Library

/-- Adds a template. One that is blank does not replace another. -/
def add (l : Library) (name : Text) (nodes : List Node) : Library :=
  if Node.blank nodes ∧ l.contains name then l else l.insert name nodes

def addFile? (functions : List Text) (l : Library) (name text : Text) : Option Library :=
  (parse? functions name text).map fun defined => defined.entries.foldl (fun l e => l.add e.1 e.2) l

end Library

end RpcBindings.Template
