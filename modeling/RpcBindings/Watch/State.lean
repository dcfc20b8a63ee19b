import RpcBindings.Files.System
import RpcBindings.Log.Entry
import RpcBindings.Watch.Relevance

/-!
# Watching

A watcher collects changed paths and, after a quiet period, hands them to its callbacks in one batch. A change starts
a quiet period and cuts the one before it short, if that one still runs. When a period ends, its delivery waits for its
turn; deliveries have their turns one after the other, and each takes all paths that are pending at that moment.
-/

namespace RpcBindings.Watch

abbrev Callback := Option Fault

/-- A batch that is being delivered, with the callbacks that have yet to get it. -/
structure Delivery where
  changed : List Text
  remaining : List Nat
  deriving DecidableEq

inductive Period where
  | quiet
  | cut
  | waiting
  /-- Its delivery has its turn and has taken nothing yet. -/
  | entered
  | delivering (d : Delivery)
  | finished
  deriving DecidableEq

def Period.stop : Period → Period
  | quiet => cut
  | p => p

structure Handed where
  period : Nat
  callback : Nat
  changed : List Text
  deriving DecidableEq

structure State where
  scope : Scope
  callbacks : List Callback
  pending : NameSet
  periods : List Period
  timer : Option Nat
  busy : Bool
  handed : List Handed
  log : List Log.Entry

namespace State

def start (scope : Scope) : State := ⟨scope, [], Dict.empty, [], none, false, [], []⟩

def stopped (s : State) : List Period :=
  match s.timer with
  | none => s.periods
  | some n => s.periods.modify n Period.stop

def schedule (s : State) (path : Text) : State :=
  { s with
    pending := s.pending.add (Path.clean path)
    periods := s.stopped ++ [.quiet]
    timer := some s.periods.length }

def expire (s : State) (n : Nat) : State :=
  match s.periods[n]? with
  | some .quiet => { s with periods := s.periods.set n .waiting }
  | _ => s

def enter (s : State) (n : Nat) : State :=
  match s.periods[n]? with
  | some .waiting => if s.busy then s else { s with periods := s.periods.set n .entered, busy := true }
  | _ => s

/-- A delivery that has its turn takes the pending paths. Without any it is over. -/
def take (s : State) (n : Nat) : State :=
  match s.periods[n]? with
  | some .entered =>
    if s.pending.isEmpty then { s with periods := s.periods.set n .finished, busy := false }
    else
      { s with
        pending := Dict.empty
        periods := s.periods.set n (.delivering ⟨s.pending.names, List.range s.callbacks.length⟩) }
  | _ => s

def hand (s : State) (n : Nat) (answer : Callback) : State :=
  match s.periods[n]? with
  | some (.delivering ⟨_, []⟩) => { s with periods := s.periods.set n .finished, busy := false }
  | some (.delivering ⟨changed, callback :: rest⟩) =>
    { s with
      periods := s.periods.set n (.delivering ⟨changed, rest⟩)
      handed := ⟨n, callback, changed⟩ :: s.handed
      log := match answer with
        | none => s.log
        | some f => s.log ++ [⟨.warn, [], "Watcher callback error", [("error", .fault f)]⟩] }
  | _ => s

def register (s : State) (callback : Callback) : State := { s with callbacks := s.callbacks ++ [callback] }

end State

inductive Event where
  | schedule (path : Text)
  | expire (period : Nat)
  | enter (period : Nat)
  | take (period : Nat)
  | hand (period : Nat) (answer : Callback)
  | register (callback : Callback)

def Event.apply (s : State) : Event → State
  | schedule path => s.schedule path
  | expire n => s.expire n
  | enter n => s.enter n
  | take n => s.take n
  | hand n answer => s.hand n answer
  | register callback => s.register callback

def run (s : State) (events : List Event) : State := events.foldl Event.apply s

namespace State

def deliver (s : State) : State :=
  let n := s.periods.length
  run { s with periods := s.periods ++ [.waiting] }
    (.enter n :: .take n :: (s.callbacks.map (.hand n) ++ [.hand n none]))

structure Change where
  created : Bool
  written : Bool
  removed : Bool
  renamed : Bool
  touched : Bool

namespace Change

def matters (c : Change) : Bool := c.created || c.written || c.removed || c.renamed

def text (c : Change) : Text :=
  let names : List (Bool × String) :=
    [(c.created, "CREATE"), (c.removed, "REMOVE"), (c.written, "WRITE"), (c.renamed, "RENAME"), (c.touched, "CHMOD")]
  Text.join "|" ((names.filter (·.1)).map fun n => Text.ofString n.2)

end Change

def notice (s : State) (path : Text) (c : Change) : State :=
  if c.matters && s.scope.relevant path then
    { s.schedule path with
      log := s.log ++ [⟨.debug, [], "Watcher detected change", [("file", .text path), ("op", .text c.text)]⟩] }
  else s

def complain (s : State) (f : Fault) : State :=
  { s with log := s.log ++ [⟨.warn, [], "Watcher error", [("error", .fault f)]⟩] }

end State

structure Watcher where
  directories : List Text
  state : State

def Watcher.add (files : Files.System) (w : Watcher) (path : Text) : Except Fault Watcher :=
  match files.stat path with
  | .error f => .error (.ofIo ("stat " ++ Text.guarded path) f.fault)
  | .ok .directory => .ok { w with directories := w.directories ++ [path] }
  | .ok (.file _) =>
    .ok ⟨w.directories ++ [Path.dir path], { w.state with scope := w.state.scope.watchFile path }⟩

def Watcher.new (files : Files.System) (extension : Text) (paths : List Text) : Except Fault Watcher :=
  paths.foldlM (Watcher.add files) ⟨[], State.start (Scope.empty extension)⟩

/-- The path under which a watcher hears of a change, none if it stands in no directory that the watcher looks at. -/
def Watcher.heard? (files : Files.System) (w : Watcher) (path : Text) : Option Text :=
  w.directories.findSome? fun d =>
    match files.locate d, files.locate path with
    | .ok dir, .ok loc => if loc.dropLast = dir ∧ loc ≠ [] then some (Path.join [d, Path.base path]) else none
    | _, _ => none

end RpcBindings.Watch
