import RpcBindings.Proofs.Dict
import RpcBindings.Proofs.Layout
import RpcBindings.Proofs.Metadata

/-!
# The version in generated texts

A template that does not mention the version is executed without regard to it. The built-in templates mention it once, in
a line of its own that a comparison leaves out, so that two versions give texts whose other lines are the same.
-/

namespace RpcBindings.Check

theorem isMetadata_stamp (version : Text) : isMetadata (Text.dropReturn (metadataMark ++ 32 :: version)) = true := by
  unfold Text.dropReturn
  split
  next =>
    rw [List.dropLast_append_of_ne_nil (List.cons_ne_nil _ _)]
    exact isMetadata_append _
  next => exact isMetadata_append _

theorem significantLines_append (a b : Text) :
    significantLines (a ++ 10 :: b) = ((Text.splitOn 10 a).map Text.dropReturn).filter (fun line => !isMetadata line) ++
      significantLines b := by
  rw [significantLines, Text.lines_append, List.map_append, List.filter_append, ← significantLines]

theorem significantLines_stamp {version : Text} (h : 10 ∉ version) (lead tail : Text) :
    significantLines (lead ++ 10 :: (metadataMark ++ 32 :: version) ++ 10 :: tail) = significantLines (lead ++ 10 :: tail) := by
  have hline : (10 : UInt8) ∉ metadataMark ++ 32 :: version := by
    simp only [List.mem_append, List.mem_cons, not_or]
    exact ⟨by decide, by decide, h⟩
  rw [List.append_assoc, List.cons_append, significantLines_append, significantLines_append, significantLines_append,
    Text.splitOn_of_not_mem hline]
  simp [isMetadata_stamp]

end RpcBindings.Check

namespace RpcBindings.Template

def versionFunction : Text := "generator_version"

/-! ## Operands -/

mutual

def Expr.free : Expr → Bool
  | .function name => name != versionFunction
  | .chain base _ => base.free
  | .group _ _ commands => freeCommands commands
  | _ => true

def freeEach : List Expr → Bool
  | [] => true
  | e :: es => e.free && freeEach es

def freeCommands : List (List Expr) → Bool
  | [] => true
  | c :: cs => freeEach c && freeCommands cs

end

theorem call_congr {name : Text} (h : name ≠ versionFunction) (env env' : Env) (args : List Value) :
    call env' name args = call env name args := by
  have hname : ¬ name = Text.ofString "generator_version" := h
  have hfilter : callFilter? env'.version name args = callFilter? env.version name args := by
    unfold callFilter?
    split
    next => rw [if_neg hname, if_neg hname]
    all_goals rfl
  rw [call, call, callFunction?, callFunction?, hfilter]

section

variable (version version' : Text) (dot : Value)

mutual

theorem evalExpr_congr : ∀ (e : Expr) (scope : Scope), e.free = true →
    evalExpr ⟨version', dot⟩ scope e = evalExpr ⟨version, dot⟩ scope e
  | .dot, _, _ => rfl
  | .nil, _, _ => rfl
  | .bool _, _, _ => rfl
  | .number _, _, _ => rfl
  | .text _, _, _ => rfl
  | .field _, _, _ => rfl
  | .variable _ _, _, _ => rfl
  | .function name, scope, h => by
    rw [Expr.free, bne_iff_ne] at h
    rw [evalExpr, evalExpr, call_congr h]
  | .chain base path, scope, h => by
    rw [Expr.free] at h
    rw [evalExpr, evalExpr, evalExpr_congr base scope h]
  | .group targets assigns commands, scope, h => by
    rw [Expr.free] at h
    rw [evalExpr, evalExpr, evalCommands_congr commands scope none h]

theorem evalEach_congr : ∀ (es : List Expr) (whole : Bool) (scope : Scope), freeEach es = true →
    evalEach ⟨version', dot⟩ whole scope es = evalEach ⟨version, dot⟩ whole scope es
  | [], _, _, _ => rfl
  | e :: es, whole, scope, h => by
    rw [freeEach, Bool.and_eq_true] at h
    simp only [evalEach, evalExpr_congr e scope h.1, evalEach_congr es whole _ h.2]

theorem evalLogic_congr : ∀ (es : List Expr) (stop : Bool) (last : Option Value) (scope : Scope), freeEach es = true →
    evalLogic ⟨version', dot⟩ stop last scope es = evalLogic ⟨version, dot⟩ stop last scope es
  | [], _, _, _, _ => rfl
  | [e], stop, last, scope, h => by
    rw [freeEach, Bool.and_eq_true] at h
    rw [evalLogic, evalLogic, evalExpr_congr e scope h.1]
  | e :: e' :: es, stop, last, scope, h => by
    rw [freeEach, Bool.and_eq_true] at h
    simp only [evalLogic, evalExpr_congr e scope h.1, evalLogic_congr (e' :: es) stop last _ h.2]

theorem evalCommand_congr : ∀ (c : List Expr) (scope : Scope) (last : Option Value), freeEach c = true →
    evalCommand ⟨version', dot⟩ scope last c = evalCommand ⟨version, dot⟩ scope last c
  | [], _, _, _ => rfl
  | e :: args, scope, last, h => by
    rw [freeEach, Bool.and_eq_true] at h
    have hoperand := evalExpr_congr e scope h.1
    cases e with
    | function name =>
      have hname : name ≠ versionFunction := by simpa [Expr.free] using h.1
      simp only [evalCommand, evalLogic_congr args _ _ _ h.2, evalEach_congr args _ _ h.2,
        call_congr hname ⟨version, dot⟩ ⟨version', dot⟩]
    | nil => rfl
    | dot => cases args <;> simp only [evalCommand, hoperand]
    | bool => cases args <;> simp only [evalCommand, hoperand]
    | number => cases args <;> simp only [evalCommand, hoperand]
    | text => cases args <;> simp only [evalCommand, hoperand]
    | field => cases args <;> simp only [evalCommand, hoperand]
    | «variable» => cases args <;> simp only [evalCommand, hoperand]
    | chain => cases args <;> simp only [evalCommand, hoperand]
    | group => cases args <;> simp only [evalCommand, hoperand]

theorem evalCommands_congr : ∀ (cs : List (List Expr)) (scope : Scope) (last : Option Value), freeCommands cs = true →
    evalCommands ⟨version', dot⟩ scope last cs = evalCommands ⟨version, dot⟩ scope last cs
  | [], _, _, _ => rfl
  | c :: cs, scope, last, h => by
    rw [freeCommands, Bool.and_eq_true] at h
    simp only [evalCommands, evalCommand_congr c scope last h.1, evalCommands_congr cs _ _ h.2]

end

theorem evalPipeline_congr {pipe : Pipeline} (h : freeCommands pipe.commands = true) (scope : Scope) :
    evalPipeline ⟨version', dot⟩ scope pipe = evalPipeline ⟨version, dot⟩ scope pipe := by
  rw [evalPipeline, evalPipeline, evalCommands_congr version version' dot pipe.commands scope none h]

end

/-! ## Nodes -/

mutual

def Node.free (heads : List Text) : Node → Bool
  | .text _ => true
  | .action pipe => freeCommands pipe.commands
  | .branch pipe body other => freeCommands pipe.commands && (freeNodes heads body && freeNodes heads other)
  | .focus pipe body other => freeCommands pipe.commands && (freeNodes heads body && freeNodes heads other)
  | .loop pipe body other => freeCommands pipe.commands && (freeNodes heads body && freeNodes heads other)
  | .call name none => !heads.contains name
  | .call name (some pipe) => freeCommands pipe.commands && !heads.contains name
  | .leave => true
  | .next => true

def freeNodes (heads : List Text) : List Node → Bool
  | [] => true
  | n :: ns => n.free heads && freeNodes heads ns

end

section

variable (version version' : Text) {heads : List Text} {invoke invoke' : Text → Value → Except ExecFault Text}

mutual

theorem runNode_congr (hinvoke : ∀ name v, heads.contains name = false → invoke' name v = invoke name v) :
    ∀ (n : Node) (dot : Value) (scope : Scope), n.free heads = true →
    runNode invoke' ⟨version', dot⟩ scope n = runNode invoke ⟨version, dot⟩ scope n
  | .text _, _, _, _ => rfl
  | .action pipe, dot, scope, h => by
    rw [Node.free] at h
    rw [runNode, runNode, evalPipeline_congr version version' dot h]
  | .branch pipe body other, dot, scope, h => by
    simp only [Node.free, Bool.and_eq_true] at h
    simp only [runNode, evalPipeline_congr version version' dot h.1, runNodes_congr hinvoke body _ _ h.2.1,
      runNodes_congr hinvoke other _ _ h.2.2]
  | .focus pipe body other, dot, scope, h => by
    simp only [Node.free, Bool.and_eq_true] at h
    simp only [runNode, evalPipeline_congr version version' dot h.1, runNodes_congr hinvoke body _ _ h.2.1,
      runNodes_congr hinvoke other _ _ h.2.2]
  | .loop pipe body other, dot, scope, h => by
    simp only [Node.free, Bool.and_eq_true] at h
    simp only [runNode, evalPipeline_congr version version' dot h.1, runNodes_congr hinvoke body _ _ h.2.1,
      runNodes_congr hinvoke other _ _ h.2.2]
  | .call name none, dot, scope, h => by
    rw [Node.free, Bool.not_eq_true'] at h
    rw [runNode, runNode, hinvoke name _ h]
  | .call name (some pipe), dot, scope, h => by
    simp only [Node.free, Bool.and_eq_true, Bool.not_eq_true'] at h
    simp only [runNode, evalPipeline_congr version version' dot h.1, hinvoke name _ h.2]
  | .leave, _, _, _ => rfl
  | .next, _, _, _ => rfl

theorem runNodes_congr (hinvoke : ∀ name v, heads.contains name = false → invoke' name v = invoke name v) :
    ∀ (ns : List Node) (dot : Value) (scope : Scope), freeNodes heads ns = true →
    runNodes invoke' ⟨version', dot⟩ scope ns = runNodes invoke ⟨version, dot⟩ scope ns
  | [], _, _, _ => rfl
  | n :: ns, dot, scope, h => by
    rw [freeNodes, Bool.and_eq_true] at h
    simp only [runNodes, runNode_congr hinvoke n dot scope h.1, runNodes_congr hinvoke ns dot _ h.2]

end

end

/-! ## Stamps -/

def stampLead : Text := 10 :: (Check.metadataMark ++ [32])

/-- Two texts are the same but for the version, which fills a line from a mark to its end. -/
inductive Alike (version version' : Text) : Text → Text → Prop where
  | same (t : Text) : Alike version version' t t
  | stamped (lead tail : Text) :
      Alike version version' (lead ++ stampLead ++ version ++ 10 :: tail) (lead ++ stampLead ++ version' ++ 10 :: tail)

theorem Alike.append {version version' t t' : Text} (h : Alike version version' t t') (lead : Text) :
    Alike version version' (lead ++ t) (lead ++ t') := by
  cases h with
  | same t => exact .same _
  | stamped lead' tail =>
    have hlead := @Alike.stamped version version' (lead ++ lead') tail
    simpa only [List.append_assoc] using hlead

theorem Alike.significantLines {version version' t t' : Text} (h : Alike version version' t t') (hv : 10 ∉ version)
    (hv' : 10 ∉ version') : Check.significantLines t' = Check.significantLines t := by
  cases h with
  | same t => rfl
  | stamped lead tail =>
    have hshape : ∀ v : Text, lead ++ stampLead ++ v ++ 10 :: tail =
        lead ++ 10 :: (Check.metadataMark ++ 32 :: v) ++ 10 :: tail := by
      intro v
      simp [stampLead]
    rw [hshape, hshape, Check.significantLines_stamp hv, Check.significantLines_stamp hv']

def stamp? : List Node → Option (List Node)
  | .text before :: .action ⟨[], false, [[.function name]]⟩ :: .text (10 :: after) :: rest =>
    if name = versionFunction ∧ Text.endsWith before stampLead then some (.text (10 :: after) :: rest) else none
  | _ => none

def isStamped (heads : List Text) : List Node → Bool
  | [] => false
  | n :: ns =>
    match stamp? (n :: ns) with
    | some rest => freeNodes heads rest
    | none => n.free heads && isStamped heads ns

theorem stamp?_some {ns rest : List Node} (h : stamp? ns = some rest) :
    ∃ lead after rest', ns = .text (lead ++ stampLead) :: .action ⟨[], false, [[.function versionFunction]]⟩ :: rest ∧
      rest = .text (10 :: after) :: rest' := by
  unfold stamp? at h
  split at h
  next before name after rest' =>
    split at h
    next hstamp =>
      obtain ⟨rfl, hends⟩ := hstamp
      obtain ⟨lead, rfl⟩ := List.isSuffixOf_iff_suffix.mp hends
      exact ⟨lead, after, rest', by rw [← Option.some.inj h], (Option.some.inj h).symm⟩
    next => cases h
  next => cases h

def AlikeResults (version version' : Text) : Except ExecFault Text → Except ExecFault Text → Prop
  | .error f, .error f' => f = f'
  | .ok t, .ok t' => Alike version version' t t'
  | _, _ => False

theorem AlikeResults.refl {version version' : Text} (r : Except ExecFault Text) : AlikeResults version version' r r := by
  cases r with
  | error f => rfl
  | ok t => exact .same t

section

variable {version version' : Text} {heads : List Text} {invoke invoke' : Text → Value → Except ExecFault Text}
  (hinvoke : ∀ name v, heads.contains name = false → invoke' name v = invoke name v)

include hinvoke

theorem runNodes_stamp {ns rest : List Node} (hstamp : stamp? ns = some rest) (hrest : freeNodes heads rest = true)
    (dot : Value) (scope : Scope) :
    AlikeResults version version' ((runNodes invoke ⟨version, dot⟩ scope ns).map Outcome.text)
      ((runNodes invoke' ⟨version', dot⟩ scope ns).map Outcome.text) := by
  obtain ⟨lead, after, rest', rfl, rfl⟩ := stamp?_some hstamp
  rw [freeNodes, Node.free, Bool.true_and] at hrest
  have hsame := runNodes_congr version version' hinvoke rest' dot scope hrest
  have hversion : ∀ v : Text, evalPipeline ⟨v, dot⟩ scope ⟨[], false, [[.function versionFunction]]⟩ = .ok (.text v, scope) :=
    fun v => rfl
  simp only [runNodes, runNode, hversion, hsame]
  cases runNodes invoke ⟨version, dot⟩ scope rest' with
  | error f => exact .refl (.error f)
  | ok o =>
    have halike := @Alike.stamped version version' lead (after ++ o.text)
    rw [List.append_assoc _ version, List.append_assoc _ version'] at halike
    exact halike

theorem runNodes_stamped (ns : List Node) : ∀ (dot : Value) (scope : Scope), isStamped heads ns = true →
    AlikeResults version version' ((runNodes invoke ⟨version, dot⟩ scope ns).map Outcome.text)
      ((runNodes invoke' ⟨version', dot⟩ scope ns).map Outcome.text) := by
  induction ns with
  | nil =>
    intro dot scope h
    cases h
  | cons n ns ih =>
    intro dot scope h
    rw [isStamped] at h
    split at h
    next rest hstamp => exact runNodes_stamp hinvoke hstamp h dot scope
    next =>
      -- a node before the stamp gives the same text and the same scope with both versions
      rw [Bool.and_eq_true] at h
      rw [runNodes, runNodes, runNode_congr version version' hinvoke n dot scope h.1]
      cases hnode : runNode invoke ⟨version, dot⟩ scope n with
      | error f => rfl
      | ok o =>
        simp only
        split
        next =>
          have hrest := ih dot o.scope h.2
          cases hrun : runNodes invoke ⟨version, dot⟩ o.scope ns with
          | error f =>
            cases hrun' : runNodes invoke' ⟨version', dot⟩ o.scope ns with
            | error f' =>
              rw [hrun, hrun'] at hrest
              exact hrest
            | ok o' =>
              rw [hrun, hrun'] at hrest
              exact hrest.elim
          | ok p =>
            cases hrun' : runNodes invoke' ⟨version', dot⟩ o.scope ns with
            | error f' =>
              rw [hrun, hrun'] at hrest
              exact hrest.elim
            | ok p' =>
              rw [hrun, hrun'] at hrest
              exact Alike.append hrest o.text
        next => exact .same _

end

/-! ## Libraries -/

/-- Whether the version is mentioned in some templates of a library only, once in each and in a stamp. -/
def Library.isStamped (heads : List Text) (l : Library) : Bool :=
  l.entries.all fun e => if heads.contains e.1 then Template.isStamped heads e.2 else freeNodes heads e.2

section

variable {version version' : Text} {heads : List Text} {l : Library} (h : l.isStamped heads = true)

include h

theorem Library.isStamped_get? {name : Text} {ns : List Node} (hget : l.get? name = some ns) :
    (if heads.contains name then Template.isStamped heads ns else freeNodes heads ns) = true :=
  List.all_eq_true.mp h (name, ns) (Dict.get?_eq_some_iff.mp hget)

theorem invoke_congr (depth : Nat) : ∀ (name : Text) (v : Value), heads.contains name = false →
    invoke l version' depth name v = invoke l version depth name v := by
  induction depth with
  | zero =>
    intro name v _
    rfl
  | succ depth ih =>
    intro name v hname
    rw [invoke, invoke]
    cases hget : l.get? name with
    | none => rfl
    | some ns =>
      have hfree := Library.isStamped_get? h hget
      rw [hname] at hfree
      simp only [runNodes_congr version version' ih ns v _ hfree]

theorem invoke_alike (depth : Nat) (name : Text) (v : Value) :
    AlikeResults version version' (invoke l version depth name v) (invoke l version' depth name v) := by
  cases hname : heads.contains name with
  | false =>
    rw [invoke_congr h depth name v hname]
    exact .refl _
  | true =>
    cases depth with
    | zero => exact .refl _
    | succ depth =>
      rw [invoke, invoke]
      cases hget : l.get? name with
      | none => exact .refl _
      | some ns =>
        have hstamped := Library.isStamped_get? h hget
        rw [hname] at hstamped
        exact runNodes_stamped (invoke_congr h depth) ns v _ hstamped

theorem execute_alike (name : Text) (v : Value) :
    AlikeResults version version' (execute l version name v) (execute l version' name v) :=
  invoke_alike h maxDepth name v

end

end RpcBindings.Template

namespace RpcBindings.Render

open Template

/-! ## The built-in templates -/

theorem library_isStamped : Layout.library.isStamped [serviceName, indexName] = true := by decide +kernel

/-- With the built-in templates, what can be rendered with one version can be rendered with another, and the lines that
count are the same. -/
theorem Renderer.execute_alike {library : Library} (h : embedded? = some library) {version version' : Text}
    (hv : 10 ∉ version) (hv' : 10 ∉ version') {name t : Text} {v : Value}
    (ht : Renderer.execute ⟨library, version⟩ name v = .ok t) :
    ∃ t', Renderer.execute ⟨library, version'⟩ name v = .ok t' ∧ Check.significantLines t' = Check.significantLines t := by
  have hstamped : library.isStamped [serviceName, indexName] = true := by
    rw [embedded?_eq] at h
    exact Option.some.inj h ▸ library_isStamped
  have halike := @Template.execute_alike version version' _ _ hstamped name v
  unfold Renderer.execute at ht ⊢
  split at ht
  next hname =>
    rw [if_pos hname]
    obtain hresult := mapError_eq_ok.mp ht
    simp only at hresult ⊢
    rw [hresult] at halike
    cases hresult' : Template.execute library version' name v with
    | error f =>
      rw [hresult'] at halike
      exact halike.elim
    | ok t' =>
      rw [hresult'] at halike
      exact ⟨t', rfl, Alike.significantLines halike hv hv'⟩
  next => cases ht

end RpcBindings.Render
