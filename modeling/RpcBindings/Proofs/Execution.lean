import Mathlib.Data.List.Forall2
import RpcBindings.Proofs.Basic
import RpcBindings.Template.Execute

/-!
# What rows of nodes write

Executing a row of nodes can fail, can set variables and can leave a loop. Most nodes do none of this: their commands have
values, and they write a text that depends on nothing else. Here is one rule for each form of node that says which text it
writes, so that the text of a template is found by going through its nodes.
-/

namespace RpcBindings.Template

def Pipeline.single (command : List Expr) : Pipeline := ⟨[], false, [command]⟩

section

variable {invoke : Text → Value → Except ExecFault Text} {env : Env} {scope : Scope} {command : List Expr} {v : Value}
  {n : Node} {body ns : List Node} {t : Text}

variable (env scope) in
def Gives (command : List Expr) (v : Value) : Prop := evalCommand env scope none command = .ok (v, scope)

variable (invoke env scope) in
/-- A node writes a text, and all goes on with the same variables. -/
def Node.Writes (n : Node) (t : Text) : Prop := runNode invoke env scope n = .ok ⟨t, scope, .through⟩

variable (invoke env scope) in
def Writes (ns : List Node) (t : Text) : Prop := runNodes invoke env scope ns = .ok ⟨t, scope, .through⟩

theorem evalPipeline_single (targets : List Text) (h : Gives env scope command v) :
    evalPipeline env scope ⟨targets, false, [command]⟩ =
      .ok (v, targets.foldl (fun scope name => (name, v) :: scope) scope) := by
  rw [Gives] at h
  simp only [evalPipeline, evalCommands, h]
  rfl

theorem leave_append (lead scope : Scope) : Scope.leave scope (lead ++ scope) = scope := by
  simp [Scope.leave]

theorem writes_nil : Writes invoke env scope [] [] := rfl

theorem writes_cons {t' : Text} (h : n.Writes invoke env scope t) (hrest : Writes invoke env scope ns t') :
    Writes invoke env scope (n :: ns) (t ++ t') := by
  rw [Node.Writes] at h
  rw [Writes] at hrest
  simp only [Writes, runNodes, h, hrest, if_true]

theorem writes_flatten {ts : List Text} (h : List.Forall₂ (Node.Writes invoke env scope) ns ts) :
    Writes invoke env scope ns ts.flatten := by
  induction h with
  | nil => exact writes_nil
  | cons hnode _ ih => exact writes_cons hnode ih

theorem writes_text (t : Text) : (Node.text t).Writes invoke env scope t := rfl

theorem writes_action (h : Gives env scope command v) :
    (Node.action (.single command)).Writes invoke env scope v.print := by
  simp only [Node.Writes, runNode, Pipeline.single, evalPipeline_single [] h, List.isEmpty_nil, if_true, List.foldl_nil]

theorem writes_branch (h : Gives env scope command v) (hbody : Writes invoke env scope body t) :
    (Node.branch (.single command) body []).Writes invoke env scope (if v.truth then t else []) := by
  rw [Writes] at hbody
  simp only [Node.Writes, runNode, Pipeline.single, evalPipeline_single [] h, List.foldl_nil, hbody, runNodes]
  split <;> simp [Except.map, Outcome.leaving, Scope.leave]

theorem writes_focus (h : Gives env scope command v) (hbody : Writes invoke { env with dot := v } scope body t) :
    (Node.focus (.single command) body []).Writes invoke env scope (if v.truth then t else []) := by
  rw [Writes] at hbody
  simp only [Node.Writes, runNode, Pipeline.single, evalPipeline_single [] h, List.foldl_nil, hbody, runNodes]
  split <;> simp [Except.map, Outcome.leaving, Scope.leave]

theorem writes_call {name : Text} (h : Gives env scope command v) (hcall : invoke name v = .ok t) :
    (Node.call name (some (.single command))).Writes invoke env scope t := by
  simp only [Node.Writes, runNode, Pipeline.single, evalPipeline_single [] h, List.foldl_nil, hcall]
  rfl

end

/-! ## Loops -/

def numbered {α : Type} (write : Nat → α → Text) (items : List α) : Text :=
  items.zipIdx.flatMap fun p => write p.2 p.1

theorem numbered_eq_flatMap {α : Type} (write : α → Text) (items : List α) :
    numbered (fun _ => write) items = items.flatMap write := by
  rw [numbered, ← List.flatMap_map, List.zipIdx_map_fst]

theorem numbered_eq_join {α : Type} (sep : Text) (write : α → Text) (items : List α) :
    numbered (fun i a => (if i = 0 then [] else sep) ++ write a) items = Text.join sep (items.map write) := by
  have hlater : ∀ (rest : List α) (a : α) (i : Nat),
      write a ++ (rest.zipIdx (i + 1)).flatMap (fun p => (if p.2 = 0 then [] else sep) ++ write p.1) =
        Text.join sep ((a :: rest).map write) := by
    intro rest
    induction rest with
    | nil => simp
    | cons b rest ih =>
      intro a i
      rw [List.zipIdx_cons, List.flatMap_cons, if_neg (Nat.succ_ne_zero i), List.append_assoc, ih b (i + 1)]
      simp [Text.join]
  cases items with
  | nil => rfl
  | cons a rest => simpa [numbered, List.zipIdx_cons] using hlater rest a 0

theorem turns_numbered {α : Type} {turn : Value → Value → Scope → Except ExecFault Outcome} {scope : Scope} {width : Nat}
    {mk : α → Value} {write : Nat → α → Text}
    (hturn : ∀ (i : Nat) (a : α) (lead : Scope), lead.length = width → ∃ lead' : Scope, lead'.length = width ∧
      turn (.number .plain i) (mk a) (lead ++ scope) = .ok ⟨write i a, lead' ++ scope, .through⟩)
    (items : List α) : ∀ (i : Nat) (lead : Scope), lead.length = width → ∃ lead' : Scope,
      turns turn i (lead ++ scope) (items.map mk) =
        .ok ((items.zipIdx i).flatMap fun p => write p.2 p.1, lead' ++ scope) := by
  induction items with
  | nil =>
    intro i lead _
    exact ⟨lead, rfl⟩
  | cons a rest ih =>
    intro i lead hlead
    obtain ⟨next, hnext, hfirst⟩ := hturn i a lead hlead
    obtain ⟨last, hrest⟩ := ih (i + 1) next hnext
    have hleave : Scope.leave (lead ++ scope) (next ++ scope) = next ++ scope := by
      simp [Scope.leave, hlead, hnext]
    refine ⟨last, ?_⟩
    simp only [List.map_cons, turns, hfirst, hleave, hrest]
    simp [Except.map]

section

variable {invoke : Text → Value → Except ExecFault Text} {env : Env} {scope : Scope} {command : List Expr} {v : Value}
  {body : List Node} {α : Type} {mk : α → Value} {items : List α}

theorem writes_turns {targets : List Text} {write : Nat → α → Text} (h : Gives env scope command v)
    (hitems : loopItems? targets.length v = some (items.map mk))
    (hturn : ∀ (i : Nat) (a : α) (lead : Scope), lead.length = targets.length → ∃ lead' : Scope,
      lead'.length = targets.length ∧ bindTurn ⟨targets, false, [command]⟩ (.number .plain i) (mk a) (lead ++ scope) =
        .ok (lead' ++ scope) ∧ Writes invoke { env with dot := mk a } (lead' ++ scope) body (write i a)) :
    (Node.loop ⟨targets, false, [command]⟩ body []).Writes invoke env scope (numbered write items) := by
  have hbind : ∀ (ts : List Text) (s : Scope), ∃ lead : Scope, lead.length = ts.length ∧
      ts.foldl (fun s name => (name, v) :: s) s = lead ++ s := by
    intro ts
    induction ts with
    | nil => exact fun s => ⟨[], rfl, rfl⟩
    | cons name rest ih =>
      intro s
      obtain ⟨lead, hlength, heq⟩ := ih ((name, v) :: s)
      exact ⟨lead ++ [(name, v)], by simp [hlength], by simp [heq]⟩
  obtain ⟨lead, hlead, heq⟩ := hbind targets scope
  cases items with
  | nil =>
    simp only [Node.Writes, runNode, evalPipeline_single targets h, heq, hitems, List.map_nil, runNodes]
    simp [Except.map, Outcome.leaving, leave_append, numbered]
  | cons a rest =>
    rw [List.map_cons] at hitems
    simp only [Node.Writes, runNode, evalPipeline_single targets h, heq, hitems]
    generalize hgo : turns _ 0 (lead ++ scope) (mk a :: rest.map mk) = result
    have hresult : ∃ last, result = .ok (numbered write (a :: rest), last ++ scope) := by
      rw [← hgo]
      refine turns_numbered (fun i a lead hlead => ?_) (a :: rest) 0 lead hlead
      obtain ⟨lead', hlength, hbound, hwrites⟩ := hturn i a lead hlead
      rw [Writes] at hwrites
      exact ⟨lead', hlength, by simp only [hbound, hwrites]⟩
    obtain ⟨last, rfl⟩ := hresult
    simp [Except.map, leave_append]

theorem writes_loop {write : α → Text} (h : Gives env scope command v) (hitems : loopItems? 0 v = some (items.map mk))
    (hbody : ∀ a, Writes invoke { env with dot := mk a } scope body (write a)) :
    (Node.loop (.single command) body []).Writes invoke env scope (items.flatMap write) := by
  rw [← numbered_eq_flatMap]
  refine writes_turns h hitems fun _ a lead hlead => ⟨[], rfl, ?_, hbody a⟩
  rw [List.length_eq_zero_iff.mp hlead]
  rfl

theorem writes_numbered {i x : Text} {write : Nat → α → Text} (h : Gives env scope command v)
    (hitems : loopItems? 2 v = some (items.map mk))
    (hbody : ∀ (place : Nat) (a : α),
      Writes invoke { env with dot := mk a } ((x, mk a) :: (i, .number .plain place) :: scope) body (write place a)) :
    (Node.loop ⟨[i, x], false, [command]⟩ body []).Writes invoke env scope (numbered write items) := by
  refine writes_turns h hitems fun place a lead hlead =>
    ⟨[(x, mk a), (i, .number .plain place)], rfl, ?_, hbody place a⟩
  simp [bindTurn, hlead]

end

/-! ## Templates of a library -/

theorem invoke_of_writes {library : Library} {version name t : Text} {depth : Nat} {v : Value} {nodes : List Node}
    (hget : library.get? name = some nodes)
    (h : Writes (invoke library version depth) ⟨version, v⟩ [("$", v)] nodes t) :
    invoke library version (depth + 1) name v = .ok t := by
  rw [Writes] at h
  rw [invoke, hget]
  simp only [h]
  rfl

end RpcBindings.Template
