import RpcBindings.Command.Generation
import RpcBindings.Command.Information
import RpcBindings.Log.Console

/-!
# Running a command line

A command line is read, its command is carried out, and what is left are the files, the output, the log and the fault.
A command succeeds, finds generated files out of date, or fails. Each end has its exit code, and a failure is printed
with its hints.
-/

namespace RpcBindings.Command

structure Result where
  desk : Desk
  console : Text
  fault : Option Fault
  watching : Option Watching

def perform (w : Surroundings) (c : Call) : Action (Option Watching) :=
  match c.verb with
  | .generate => do generate w c; return none
  | .check => do check w c; return none
  | .watch => do return some (← beginWatch w c)
  | .inspect => do inspect w c; return none
  | .init => do init c; return none
  | .configShow => do configShow w c; return none
  | .configGet => do configGet w c; return none
  | .configWhere => do configWhere w c; return none
  | .version => do version w c; return none
  | _ => return none

def firstEntry (c : Call) : Log.Entry :=
  ⟨.debug, [], "Logger initialized",
    [("level", .text (Log.verbosityName c.verbosity)), ("command", .text c.verb.name)]⟩

def Action.run {α : Type} (a : Action α) (d : Desk) : Except Fault α × Desk := Id.run (StateT.run (ExceptT.run a) d)

def run (w : Surroundings) (files : Files.System) (row : List Text) : Result :=
  match request row with
  | .error f => ⟨⟨files, [], []⟩, [], some f, none⟩
  | .ok (.usage _) => ⟨⟨files, [], []⟩, [], none, none⟩
  | .ok (.run c) =>
    let (outcome, desk) := (perform w c).run ⟨files, [], [firstEntry c]⟩
    let console := Log.consoleText c.verbosity (c.given.truth "json-log" false) desk.log
    match outcome with
    | .ok watching => ⟨desk, console, none, watching⟩
    | .error f => ⟨desk, console, some f, none⟩

def Result.react (r : Result) (files : Files.System) (changed : List Text) : Result :=
  match r.watching with
  | none => r
  | some t =>
    let (outcome, desk) := (t.react changed).run ⟨files, [], []⟩
    let console := Log.consoleText t.call.verbosity (t.call.given.truth "json-log" false) desk.log
    match outcome with
    | .ok watching => ⟨desk, console, none, some watching⟩
    | .error f => ⟨desk, console, some f, none⟩

def exitCode : Option Fault → Nat
  | none => 0
  | some f => if f.is .stale then 1 else 2

def hintLine (hint : Text) : Text := "  hint: " ++ hint ++ "\n"

def failureText (f : Fault) : Text := "Error: " ++ f.shown ++ "\n" ++ f.hints.flatMap hintLine

end RpcBindings.Command
