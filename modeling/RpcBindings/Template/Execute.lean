import RpcBindings.Template.Filter
import RpcBindings.Template.Parse

/-!
# Executing templates

A template is executed on a value, its dot. Executing gives a text or fails as a whole. Variables live until the end of
the structure that declares them, and a called template sees only its own dot. Templates may call each other up to a
fixed depth.
-/

namespace RpcBindings.Template

inductive ExecFault where
  | noTemplate (name : Text)
  | noField
  | noVariable (name : Text)
  | notCallable
  | badArgument (function : Text)
  | notIterable
  | notWhole
  | tooDeep
  deriving DecidableEq

abbrev Scope := List (Text × Value)

namespace Scope

def assign? (name : Text) (v : Value) : Scope → Option Scope
  | [] => none
  | (n, w) :: rest => if n = name then some ((n, v) :: rest) else (assign? name v rest).map ((n, w) :: ·)

def leave (outer now : Scope) : Scope := now.drop (now.length - outer.length)

end Scope

structure Env where
  version : Text
  dot : Value

def Value.print : Value → Text
  | .absent => "<no value>"
  | .text t => t
  | .number _ n => Text.ofInt n
  | .kind k => k.text
  | v => v.shape.followed.print

def follow (v : Value) (path : List Text) : Except ExecFault Value :=
  match v.path? path with
  | some v => .ok v
  | none => .error .noField

def call (env : Env) (name : Text) (args : List Value) : Except ExecFault Value :=
  match callFunction? env.version name args with
  | some v => .ok v
  | none => .error (.badArgument name)

/-- The value of a numeral. Where the number has to be whole, any numeral that is a whole number stands for it. -/
def literal (whole : Bool) (n : Numeral) : Except ExecFault Value :=
  match n with
  | .whole k => .ok (.number .plain k)
  | .large => .error .notWhole
  | .real x =>
    if whole then
      match n.whole? with
      | some k => .ok (.number .plain k)
      | none => .error .notWhole
    else .ok (.real x)
  | .complex re im =>
    if whole then
      match n.whole? with
      | some k => .ok (.number .plain k)
      | none => .error .notWhole
    else .ok (.complex re im)

def bindTargets (targets : List Text) (assigns : Bool) (v : Value) (scope : Scope) : Except ExecFault Scope :=
  if assigns then
    targets.foldlM (fun scope name =>
      match scope.assign? name v with
      | some scope => .ok scope
      | none => .error (.noVariable name)) scope
  else .ok (targets.foldl (fun scope name => (name, v) :: scope) scope)

mutual

def evalExpr (env : Env) (scope : Scope) : Expr → Except ExecFault (Value × Scope)
  | .dot => .ok (env.dot, scope)
  | .nil => .ok (.absent, scope)
  | .bool b => .ok (.bool b, scope)
  | .number n => (literal false n).map (·, scope)
  | .text t => .ok (.text t, scope)
  | .field path => (follow env.dot path).map (·, scope)
  | .variable name path =>
    match scope.lookup name with
    | none => .error (.noVariable name)
    | some v => (follow v path).map (·, scope)
  | .function name => (call env name []).map (·, scope)
  | .chain base path =>
    match evalExpr env scope base with
    | .error e => .error e
    | .ok (v, scope) => (follow v path).map (·, scope)
  | .group targets assigns commands =>
    match evalCommands env scope none commands with
    | .error e => .error e
    | .ok (v, scope) => (bindTargets targets assigns v scope).map (v, ·)

def evalEach (env : Env) (whole : Bool) (scope : Scope) : List Expr → Except ExecFault (List Value × Scope)
  | [] => .ok ([], scope)
  | e :: es =>
    let first := match e with
      | .number n => (literal whole n).map (·, scope)
      | _ => evalExpr env scope e
    match first with
    | .error f => .error f
    | .ok (v, scope) => (evalEach env whole scope es).map fun (vs, scope) => (v :: vs, scope)

def evalLogic (env : Env) (stop : Bool) (last : Option Value) (scope : Scope) :
    List Expr → Except ExecFault (Value × Scope)
  | [] =>
    match last with
    | some v => .ok (v, scope)
    | none => .error (.badArgument [])
  | [e] =>
    match evalExpr env scope e with
    | .error f => .error f
    | .ok (v, scope) => .ok (if v.truth = stop then v else last.getD v, scope)
  | e :: e' :: es =>
    match evalExpr env scope e with
    | .error f => .error f
    | .ok (v, scope) => if v.truth = stop then .ok (v, scope) else evalLogic env stop last scope (e' :: es)

def evalCommand (env : Env) (scope : Scope) (last : Option Value) : List Expr → Except ExecFault (Value × Scope)
  | [] => .error .notCallable
  | .function name :: args =>
    if name = "and" then evalLogic env false last scope args
    else if name = "or" then evalLogic env true last scope args
    else
      match evalEach env (takesWhole name) scope args with
      | .error f => .error f
      | .ok (vs, scope) => (call env name (vs ++ last.toList)).map (·, scope)
  | .nil :: _ => .error .notCallable
  | [e] => if last.isSome then .error .notCallable else evalExpr env scope e
  | _ :: _ :: _ => .error .notCallable

def evalCommands (env : Env) (scope : Scope) (last : Option Value) :
    List (List Expr) → Except ExecFault (Value × Scope)
  | [] =>
    match last with
    | some v => .ok (v, scope)
    | none => .error .notCallable
  | c :: cs =>
    match evalCommand env scope last c with
    | .error f => .error f
    | .ok (v, scope) => evalCommands env scope (some v) cs

end

def evalPipeline (env : Env) (scope : Scope) (pipe : Pipeline) : Except ExecFault (Value × Scope) :=
  match evalCommands env scope none pipe.commands with
  | .error f => .error f
  | .ok (v, scope) => (bindTargets pipe.targets pipe.assigns v scope).map (v, ·)

/-- How a row of nodes ended: at its end, or at a node that leaves or goes on with the loop around it. -/
inductive Flow where
  | through
  | leave
  | next
  deriving DecidableEq

structure Outcome where
  text : Text
  scope : Scope
  flow : Flow

def Outcome.leaving (o : Outcome) (outer : Scope) : Outcome := { o with scope := Scope.leave outer o.scope }

def bindTurn (pipe : Pipeline) (place item : Value) (scope : Scope) : Except ExecFault Scope :=
  match pipe.targets, pipe.assigns with
  | [], _ => .ok scope
  | [x], true => bindTargets [x] true item scope
  | [x], false => .ok ((x, item) :: scope.drop 1)
  | i :: x :: _, true => (bindTargets [i] true place scope).bind (bindTargets [x] true item)
  | i :: x :: _, false => .ok ((x, item) :: (i, place) :: scope.drop 2)

def turns (turn : Value → Value → Scope → Except ExecFault Outcome) : Nat → Scope → List Value →
    Except ExecFault (Text × Scope)
  | _, scope, [] => .ok ([], scope)
  | i, scope, v :: vs =>
    match turn (.number .plain i) v scope with
    | .error f => .error f
    | .ok o =>
      if o.flow = .leave then .ok (o.text, Scope.leave scope o.scope)
      else (turns turn (i + 1) (Scope.leave scope o.scope) vs).map fun (t, s) => (o.text ++ t, s)

/-- What a loop with a number of variables goes over: the items of a list, or what comes before a number or a kind,
where there are no places. -/
def loopItems? (count : Nat) : Value → Option (List Value)
  | .absent => some []
  | .number width n =>
    if count < 2 then some ((List.range n.toNat).map fun (i : Nat) => .number width i) else none
  | .kind k => if count < 2 then some ((Kind.all.take (Value.kindNumber k)).map .kind) else none
  | v => v.items?

mutual

def runNodes (invoke : Text → Value → Except ExecFault Text) (env : Env) (scope : Scope) :
    List Node → Except ExecFault Outcome
  | [] => .ok ⟨[], scope, .through⟩
  | n :: ns =>
    match runNode invoke env scope n with
    | .error f => .error f
    | .ok o =>
      if o.flow = .through then
        match runNodes invoke env o.scope ns with
        | .error f => .error f
        | .ok p => .ok ⟨o.text ++ p.text, p.scope, p.flow⟩
      else .ok o

def runNode (invoke : Text → Value → Except ExecFault Text) (env : Env) (scope : Scope) :
    Node → Except ExecFault Outcome
  | .text t => .ok ⟨t, scope, .through⟩
  | .action pipe =>
    match evalPipeline env scope pipe with
    | .error f => .error f
    | .ok (v, scope) => .ok ⟨if pipe.targets.isEmpty then v.print else [], scope, .through⟩
  | .branch pipe body other =>
    match evalPipeline env scope pipe with
    | .error f => .error f
    | .ok (v, inner) =>
      (if v.truth then runNodes invoke env inner body else runNodes invoke env inner other).map (·.leaving scope)
  | .focus pipe body other =>
    match evalPipeline env scope pipe with
    | .error f => .error f
    | .ok (v, inner) =>
      (if v.truth then runNodes invoke { env with dot := v } inner body
        else runNodes invoke env inner other).map (·.leaving scope)
  | .loop pipe body other =>
    match evalPipeline env scope pipe with
    | .error f => .error f
    | .ok (v, inner) =>
      match loopItems? pipe.targets.length v with
      | none => .error .notIterable
      | some [] => (runNodes invoke env inner other).map (·.leaving scope)
      | some (item :: items) =>
        (turns (fun place item now =>
          match bindTurn pipe place item now with
          | .error f => .error f
          | .ok now => runNodes invoke { env with dot := item } now body) 0 inner (item :: items)).map
          fun (t, after) => ⟨t, Scope.leave scope after, .through⟩
  | .call name none => (invoke name .absent).map fun t => ⟨t, scope, .through⟩
  | .call name (some pipe) =>
    match evalPipeline env scope pipe with
    | .error f => .error f
    | .ok (v, scope) => (invoke name v).map fun t => ⟨t, scope, .through⟩
  | .leave => .ok ⟨[], scope, .leave⟩
  | .next => .ok ⟨[], scope, .next⟩

end

def invoke (library : Library) (version : Text) : (depth : Nat) → (name : Text) → Value → Except ExecFault Text
  | 0, _, _ => .error .tooDeep
  | depth + 1, name, v =>
    match library.get? name with
    | none => .error (.noTemplate name)
    | some nodes =>
      (runNodes (invoke library version depth) ⟨version, v⟩ [("$", v)] nodes).map Outcome.text

def maxDepth : Nat := 100000

def execute (library : Library) (version name : Text) (v : Value) : Except ExecFault Text :=
  invoke library version maxDepth name v

end RpcBindings.Template
