import Mathlib.Data.List.Nodup
import Mathlib.Data.List.Forall2
import RpcBindings.Binding.Partition
import RpcBindings.Proofs.Dict
import RpcBindings.Proofs.Text

/-!
# Every procedure has one place

Placing the procedures of a service in turn fills one dictionary for each class and one for what stands free. After each
step these hold exactly the signatures of the procedures placed so far, each under the name of its place; names are cut
at their first underscore in one way only, so no two procedures meet at one place.
-/

namespace RpcBindings.Binding

theorem place_eq_method_iff {classes : Dict ClassDecl} {procedure cls name : Text} :
    place classes procedure = .method cls name ↔
      procedure = cls ++ "_" ++ name ∧ 95 ∉ cls ∧ cls ∈ classes.keys := by
  have hcut : splitName? procedure = some (cls, name) ↔ procedure = cls ++ "_" ++ name ∧ 95 ∉ cls := by
    rw [splitName?, Text.cut?_eq_some_iff, List.append_assoc]
    exact Iff.rfl
  rw [← and_assoc, ← hcut, ← Dict.contains_iff, place]
  cases hsplit : splitName? procedure with
  | none => simp
  | some parts =>
    obtain ⟨c, n⟩ := parts
    by_cases hc : classes.contains c = true
    · simp only [hc, if_true, Place.method.injEq, Option.some.injEq, Prod.mk.injEq]
      exact ⟨fun h => ⟨h, h.1 ▸ hc⟩, fun h => h.1⟩
    · simp only [hc]
      constructor
      · intro h
        cases h
      · rintro ⟨h, hcls⟩
        cases h
        exact absurd hcls hc

theorem place_eq_free_iff {classes : Dict ClassDecl} {procedure : Text} :
    place classes procedure = .free ↔
      ¬ ∃ cls name, procedure = cls ++ "_" ++ name ∧ 95 ∉ cls ∧ cls ∈ classes.keys := by
  simp only [← place_eq_method_iff]
  cases place classes procedure <;> simp

/-! ## Signatures -/

def Param.Describes (own : Text) (q : Param) (declared : Parameter × Nat) : Prop :=
  q.rawName = declared.1.name ∧ q.position = declared.2 ∧ q.name = Naming.functionName declared.1.name ∧
    resolve own declared.1.type = .ok q.type ∧ q.byRef = !q.type.kind.byValue

theorem buildParams_ok {own : Text} {position : Nat} {ps : List Parameter} {qs : List Param}
    (h : buildParams own position ps = .ok qs) : List.Forall₂ (Param.Describes own) qs (ps.zipIdx position) := by
  induction ps generalizing position qs with
  | nil =>
    cases h
    exact .nil
  | cons p rest ih =>
    simp only [buildParams] at h
    cases hp : resolve own p.type with
    | error cause => rw [hp] at h; cases h
    | ok ref =>
      cases hrest : buildParams own (position + 1) rest with
      | error cause => rw [hp, hrest] at h; cases h
      | ok tail =>
        rw [hp, hrest] at h
        cases h
        exact .cons ⟨rfl, rfl, rfl, hp, rfl⟩ (ih hrest)

/-- Everything there is to say about the signature of a procedure. -/
theorem buildSignature_ok {own : Text} {p : Procedure} {place : Place} {name : Text} {sig : Signature}
    (h : buildSignature own p place name = .ok sig) :
    sig.name = name ∧ sig.rpcName = p.name ∧
      List.Forall₂ (Param.Describes own) sig.params
        (if place.isMethod then p.parameters.zipIdx.tail else p.parameters.zipIdx) ∧
      buildReturn own p = .ok sig.result := by
  unfold buildSignature at h
  split at h
  next hmethod =>
    obtain ⟨params, hparams, h⟩ := bind_eq_ok.mp h
    obtain ⟨result, hresult, h⟩ := bind_eq_ok.mp h
    cases h
    rw [if_pos hmethod, List.tail_zipIdx]
    exact ⟨rfl, rfl, buildParams_ok hparams, hresult⟩
  next hfree =>
    obtain ⟨params, hparams, h⟩ := bind_eq_ok.mp h
    obtain ⟨result, hresult, h⟩ := bind_eq_ok.mp h
    cases h
    rw [if_neg hfree]
    exact ⟨rfl, rfl, buildParams_ok hparams, hresult⟩

namespace Placed

def method? (st : Placed) (cls name : Text) : Option Signature := (st.methods.get? cls).bind (·.get? name)

/-- Everything that placing one procedure can do. -/
theorem step_ok {s : Service} {st st' : Placed} {procedure : Text} {p : Procedure}
    (h : step s st procedure p = .ok st') :
    ∃ sig, buildSignature s.name p (place s.classes procedure) ((place s.classes procedure).declared procedure) = .ok sig ∧
      ((place s.classes procedure = .free ∧ st'.free = st.free.insert procedure sig ∧ st'.methods = st.methods) ∨
        ∃ cls name, place s.classes procedure = .method cls name ∧ name ≠ [] ∧ st'.free = st.free ∧
          st'.methods = st.methods.insert cls (((st.methods.get? cls).getD Dict.empty).insert name sig)) := by
  simp only [step] at h
  split at h
  next => cases h
  next hempty =>
    split at h
    next => cases h
    next =>
      split at h
      next => cases h
      next sig hsig =>
        refine ⟨sig, hsig, ?_⟩
        split at h
        next hfree => cases h; exact .inl ⟨hfree, rfl, rfl⟩
        next cls name hmethod =>
          cases h
          refine .inr ⟨cls, name, hmethod, fun hname => hempty ?_, rfl, rfl⟩
          simp [hmethod, Place.isMethod, Place.declared, hname]

/-- What has been placed once the procedures `done` have their places. -/
structure Holds (s : Service) (done : List (Text × Procedure)) (st : Placed) : Prop where
  classes : st.methods.keys = s.classes.keys
  built : ∀ procedure p, (procedure, p) ∈ done →
    ∃ sig, buildSignature s.name p (place s.classes procedure) ((place s.classes procedure).declared procedure) = .ok sig
  free : ∀ name sig, st.free.get? name = some sig ↔
    ∃ p, (name, p) ∈ done ∧ place s.classes name = .free ∧ buildSignature s.name p .free name = .ok sig
  methods : ∀ cls name sig, st.method? cls name = some sig ↔
    ∃ procedure p, (procedure, p) ∈ done ∧ place s.classes procedure = .method cls name ∧
      buildSignature s.name p (.method cls name) name = .ok sig

theorem holds_start (s : Service) : Holds s [] (start s) where
  classes := by simp [start]
  built := by simp
  free := by simp [start]
  methods := by
    intro cls name sig
    cases hcls : s.classes.get? cls <;> simp [method?, start, Dict.get?_map, hcls]

theorem method?_insert {st st' : Placed} {cls name : Text} {sig : Signature} (hcls : cls ∈ st.methods.keys)
    (h : st'.methods = st.methods.insert cls (((st.methods.get? cls).getD Dict.empty).insert name sig)) (c n : Text) :
    st'.method? c n = if c = cls ∧ n = name then some sig else st.method? c n := by
  obtain ⟨ms, hms⟩ := Dict.mem_keys_iff.mp hcls
  rw [method?, h, Dict.get?_insert]
  by_cases hc : c = cls
  · subst hc
    simp [method?, hms, Dict.get?_insert]
  · simp [method?, hc]

theorem mem_concat_of_ne {done : List (Text × Procedure)} {procedure q : Text} {p p' : Procedure} (h : q ≠ procedure) :
    (q, p') ∈ done ++ [(procedure, p)] ↔ (q, p') ∈ done := by
  simp [h]

namespace Holds

variable {s : Service} {done : List (Text × Procedure)} {st st' : Placed} {procedure : Text} {p : Procedure}
  {sig : Signature} (hst : Holds s done st)

include hst

theorem built_concat
    (hsig : buildSignature s.name p (place s.classes procedure) ((place s.classes procedure).declared procedure) = .ok sig)
    (q : Text) (p' : Procedure) (hq : (q, p') ∈ done ++ [(procedure, p)]) :
    ∃ sig, buildSignature s.name p' (place s.classes q) ((place s.classes q).declared q) = .ok sig := by
  rcases List.mem_append.mp hq with hq | hq
  · exact hst.built q p' hq
  · obtain ⟨rfl, rfl⟩ := Prod.mk.inj (List.mem_singleton.mp hq)
    exact ⟨sig, hsig⟩

theorem concat_free (hfresh : ∀ q, (procedure, q) ∉ done)
    (hsig : buildSignature s.name p (place s.classes procedure) ((place s.classes procedure).declared procedure) = .ok sig)
    (hplace : place s.classes procedure = .free) (hfree : st'.free = st.free.insert procedure sig)
    (hmethods : st'.methods = st.methods) : Holds s (done ++ [(procedure, p)]) st' := by
  refine ⟨by rw [hmethods, hst.classes], hst.built_concat hsig, fun other sig' => ?_, fun cls name sig' => ?_⟩
  · rw [hplace] at hsig
    rw [hfree, Dict.get?_insert]
    by_cases hother : other = procedure
    · subst hother
      simp [hfresh, hplace, show buildSignature s.name p .free other = .ok sig from hsig]
    · simp [hother, hst.free]
  · have hsame : st'.method? cls name = st.method? cls name := by rw [method?, method?, hmethods]
    rw [hsame, hst.methods]
    refine exists_congr fun q => exists_congr fun p' => and_congr_left fun hq => (mem_concat_of_ne ?_).symm
    rintro rfl
    cases hplace.symm.trans hq.1

theorem concat_method {cls name : Text} (hfresh : ∀ q, (procedure, q) ∉ done)
    (hsig : buildSignature s.name p (place s.classes procedure) ((place s.classes procedure).declared procedure) = .ok sig)
    (hplace : place s.classes procedure = .method cls name) (hfree : st'.free = st.free)
    (hmethods : st'.methods = st.methods.insert cls (((st.methods.get? cls).getD Dict.empty).insert name sig)) :
    Holds s (done ++ [(procedure, p)]) st' := by
  have hcls : cls ∈ st.methods.keys := hst.classes ▸ (place_eq_method_iff.mp hplace).2.2
  refine ⟨by rw [hmethods, Dict.keys_insert_of_mem hcls, hst.classes], hst.built_concat hsig, fun other sig' => ?_,
    fun c n sig' => ?_⟩
  · rw [hfree, hst.free]
    refine exists_congr fun p' => and_congr_left fun hq => (mem_concat_of_ne ?_).symm
    rintro rfl
    cases hplace.symm.trans hq.1
  · rw [hplace] at hsig
    rw [method?_insert hcls hmethods]
    by_cases hcn : c = cls ∧ n = name
    · obtain ⟨rfl, rfl⟩ := hcn
      -- the name of the procedure can be read off its place, so no earlier procedure has this place
      have honly : ∀ q, place s.classes q = .method c n → q = procedure := fun q hq =>
        (place_eq_method_iff.mp hq).1.trans (place_eq_method_iff.mp hplace).1.symm
      rw [if_pos ⟨rfl, rfl⟩]
      constructor
      · intro heq
        cases heq
        exact ⟨procedure, p, by simp, hplace, hsig⟩
      · rintro ⟨q, p', hq, hmethod, hbuild⟩
        obtain rfl := honly q hmethod
        rcases List.mem_append.mp hq with hq | hq
        · exact absurd hq (hfresh p')
        · obtain ⟨-, rfl⟩ := Prod.mk.inj (List.mem_singleton.mp hq)
          exact congrArg some (Except.ok.inj (hsig.symm.trans hbuild))
    · rw [if_neg hcn, hst.methods]
      refine exists_congr fun q => exists_congr fun p' => and_congr_left fun hq => (mem_concat_of_ne ?_).symm
      rintro rfl
      obtain ⟨rfl, rfl⟩ := Place.method.inj (hplace.symm.trans hq.1)
      exact hcn ⟨rfl, rfl⟩

theorem step (hnew : procedure ∉ done.map (·.1)) (h : Placed.step s st procedure p = .ok st') :
    Holds s (done ++ [(procedure, p)]) st' := by
  have hfresh : ∀ q, (procedure, q) ∉ done := fun q hq => hnew (List.mem_map.mpr ⟨_, hq, rfl⟩)
  obtain ⟨sig, hsig, ⟨hplace, hfree, hmethods⟩ | ⟨cls, name, hplace, -, hfree, hmethods⟩⟩ := step_ok h
  · exact hst.concat_free hfresh hsig hplace hfree hmethods
  · exact hst.concat_method hfresh hsig hplace hfree hmethods

end Holds

theorem Holds.run {s : Service} {todo : List (Text × Procedure)} : ∀ {done : List (Text × Procedure)} {st st' : Placed},
    Holds s done st → ((done ++ todo).map (·.1)).Nodup → run s st todo = (st', none) → Holds s (done ++ todo) st' := by
  induction todo with
  | nil =>
    intro done st st' hst _ h
    cases h
    simpa using hst
  | cons e rest ih =>
    intro done st st' hst hnodup h
    obtain ⟨procedure, p⟩ := e
    simp only [Placed.run] at h
    split at h
    next => cases h
    next st₁ hstep =>
      have hnew : procedure ∉ done.map (·.1) := by
        intro hin
        rw [List.map_append, List.nodup_append] at hnodup
        exact hnodup.2.2 procedure hin procedure (by simp) rfl
      have hnext := ih (hst.step hnew hstep) (by simpa using hnodup) h
      simpa using hnext

/-! ## What a partition lists -/

theorem Holds.procedures_map_name {s : Service} {done : List (Text × Procedure)} {st : Placed} (hst : Holds s done st) :
    (st.partition s).procedures.map (·.name) = st.free.keys := by
  refine Dict.map_values_eq_keys fun name sig hsig => ?_
  obtain ⟨p, -, -, hbuild⟩ := (hst.free name sig).mp hsig
  exact (buildSignature_ok hbuild).1

theorem Holds.methods_of_mem {s : Service} {done : List (Text × Procedure)} {st : Placed} (hst : Holds s done st)
    {c : ClassMethods} (hc : c ∈ (st.partition s).classes) :
    ∃ ms, st.methods.get? c.name = some ms ∧ c.methods = ms.values ∧ c.methods.map (·.name) = ms.keys := by
  obtain ⟨⟨cls, ms⟩, he, rfl⟩ := List.mem_map.mp hc
  have hms : st.methods.get? cls = some ms := Dict.get?_eq_some_iff.mpr he
  refine ⟨ms, hms, rfl, Dict.map_values_eq_keys fun name sig hsig => ?_⟩
  obtain ⟨procedure, p, -, -, hbuild⟩ := (hst.methods cls name sig).mp (by simp [method?, hms, hsig])
  exact (buildSignature_ok hbuild).1

theorem Holds.method_of_mem {s : Service} {done : List (Text × Procedure)} {st : Placed} (hst : Holds s done st)
    {c : ClassMethods} (hc : c ∈ (st.partition s).classes) {f : Signature} (hf : f ∈ c.methods) :
    ∃ procedure p, (procedure, p) ∈ done ∧ place s.classes procedure = .method c.name f.name ∧
      buildSignature s.name p (.method c.name f.name) f.name = .ok f := by
  obtain ⟨ms, hms, hvalues, -⟩ := hst.methods_of_mem hc
  obtain ⟨name, hname⟩ := Dict.mem_values_iff.mp (hvalues ▸ hf)
  obtain ⟨procedure, p, hp, hplace, hbuild⟩ := (hst.methods c.name name f).mp (by simp [method?, hms, hname])
  obtain rfl := (buildSignature_ok hbuild).1
  exact ⟨procedure, p, hp, hplace, hbuild⟩

theorem Holds.free_of_mem {s : Service} {done : List (Text × Procedure)} {st : Placed} (hst : Holds s done st)
    {f : Signature} (hf : f ∈ (st.partition s).procedures) :
    ∃ p, (f.name, p) ∈ done ∧ place s.classes f.name = .free ∧ buildSignature s.name p .free f.name = .ok f := by
  obtain ⟨name, hname⟩ := Dict.mem_values_iff.mp hf
  obtain ⟨p, hp, hplace, hbuild⟩ := (hst.free name f).mp hname
  obtain rfl := (buildSignature_ok hbuild).1
  exact ⟨p, hp, hplace, hbuild⟩

theorem Holds.listed {s : Service} {done : List (Text × Procedure)} {st : Placed} (hst : Holds s done st)
    {procedure : Text} {p : Procedure} (hp : (procedure, p) ∈ done) :
    (∃ c ∈ (st.partition s).classes, ∃ f ∈ c.methods, place s.classes procedure = .method c.name f.name ∧
        buildSignature s.name p (.method c.name f.name) f.name = .ok f) ∨
      ∃ f ∈ (st.partition s).procedures, place s.classes procedure = .free ∧ f.name = procedure ∧
        buildSignature s.name p .free procedure = .ok f := by
  obtain ⟨f, hbuild⟩ := hst.built procedure p hp
  cases hplace : place s.classes procedure with
  | free =>
    rw [hplace] at hbuild
    have hget := (hst.free procedure f).mpr ⟨p, hp, hplace, hbuild⟩
    exact .inr ⟨f, Dict.mem_values_iff.mpr ⟨procedure, hget⟩, rfl, (buildSignature_ok hbuild).1, hbuild⟩
  | method cls name =>
    rw [hplace] at hbuild
    obtain rfl : f.name = name := (buildSignature_ok hbuild).1
    have hget := (hst.methods cls f.name f).mpr ⟨procedure, p, hp, hplace, hbuild⟩
    obtain ⟨ms, hms, hf⟩ := Option.bind_eq_some_iff.mp hget
    exact .inl ⟨_, List.mem_map.mpr ⟨(cls, ms), Dict.get?_eq_some_iff.mp hms, rfl⟩, f,
      Dict.mem_values_iff.mpr ⟨f.name, hf⟩, rfl, hbuild⟩

end Placed

theorem partition_ok {s : Service} {p : Partition} (h : partition s = .ok p) :
    ∃ st, p = st.partition s ∧ Placed.Holds s s.procedures.entries st := by
  unfold partition partitionRun at h
  split at h
  next => cases h
  next st hrun =>
    cases h
    exact ⟨st, rfl, by simpa using (Placed.holds_start s).run (by simpa [Dict.keys] using s.procedures.nodup_keys) hrun⟩

namespace Partition

def signatures (p : Partition) : List Signature := p.classes.flatMap (·.methods) ++ p.procedures

theorem methodCount_eq (p : Partition) : p.methodCount = (p.classes.flatMap (·.methods)).length := by
  obtain ⟨classes, procedures⟩ := p
  induction classes with
  | nil => rfl
  | cons c rest ih =>
    change c.methods.length + methodCount ⟨rest, procedures⟩ = _
    rw [ih, List.flatMap_cons, List.length_append]

/-- A partition shows the procedures of a service as they are: each as one function, at the place that its name gives,
with the parameters of its declaration. -/
structure Faithful (s : Service) (p : Partition) : Prop where
  complete : (p.signatures.map (·.rpcName)).Perm s.procedures.keys
  distinct : (p.signatures.map (·.rpcName)).Nodup
  method_iff : ∀ procedure ∈ s.procedures.keys, ∀ cls name,
    (∃ c ∈ p.classes, c.name = cls ∧ ∃ f ∈ c.methods, f.name = name ∧ f.rpcName = procedure) ↔
      procedure = cls ++ "_" ++ name ∧ 95 ∉ cls ∧ cls ∈ s.classes.keys
  free_iff : ∀ procedure ∈ s.procedures.keys,
    (∃ f ∈ p.procedures, f.name = procedure ∧ f.rpcName = procedure) ↔
      ¬ ∃ cls name, procedure = cls ++ "_" ++ name ∧ 95 ∉ cls ∧ cls ∈ s.classes.keys
  free_name : ∀ f ∈ p.procedures, f.name = f.rpcName
  classes : p.classes.map (·.name) = s.classes.keys
  classes_ascending : p.classes.Pairwise fun c d => c.name < d.name
  methods_ascending : ∀ c ∈ p.classes, c.methods.Pairwise fun f g => f.name < g.name
  procedures_ascending : p.procedures.Pairwise fun f g => f.name < g.name
  count : p.methodCount + p.procedures.length = s.procedures.size
  method_params : ∀ c ∈ p.classes, ∀ f ∈ c.methods, ∃ d, s.procedures.get? f.rpcName = some d ∧
    List.Forall₂ (Param.Describes s.name) f.params d.parameters.zipIdx.tail
  free_params : ∀ f ∈ p.procedures, ∃ d, s.procedures.get? f.rpcName = some d ∧
    List.Forall₂ (Param.Describes s.name) f.params d.parameters.zipIdx

end Partition

section

variable {s : Service} {p : Partition} {st : Placed}

theorem rpcName_of_build (hnames : ∀ e ∈ s.procedures.entries, e.2.name = e.1) {procedure name : Text} {d : Procedure}
    (hd : (procedure, d) ∈ s.procedures.entries) {place : Place} {f : Signature}
    (hbuild : buildSignature s.name d place name = .ok f) : f.rpcName = procedure :=
  (buildSignature_ok hbuild).2.1.trans (hnames _ hd)

theorem Placed.Holds.rpcName_method (hst : Holds s s.procedures.entries st)
    (hnames : ∀ e ∈ s.procedures.entries, e.2.name = e.1) {c : ClassMethods} (hc : c ∈ (st.partition s).classes)
    {f : Signature} (hf : f ∈ c.methods) :
    f.rpcName ∈ s.procedures.keys ∧ place s.classes f.rpcName = .method c.name f.name := by
  obtain ⟨procedure, d, hd, hplace, hbuild⟩ := hst.method_of_mem hc hf
  rw [rpcName_of_build hnames hd hbuild]
  exact ⟨List.mem_map.mpr ⟨_, hd, rfl⟩, hplace⟩

theorem Placed.Holds.rpcName_free (hst : Holds s s.procedures.entries st)
    (hnames : ∀ e ∈ s.procedures.entries, e.2.name = e.1) {f : Signature} (hf : f ∈ (st.partition s).procedures) :
    f.name = f.rpcName ∧ f.rpcName ∈ s.procedures.keys ∧ place s.classes f.rpcName = .free := by
  obtain ⟨d, hd, hplace, hbuild⟩ := hst.free_of_mem hf
  rw [rpcName_of_build hnames hd hbuild]
  exact ⟨rfl, List.mem_map.mpr ⟨_, hd, rfl⟩, hplace⟩

theorem Placed.Holds.classes_map_name (hst : Holds s s.procedures.entries st) :
    (st.partition s).classes.map (·.name) = s.classes.keys := by
  rw [← hst.classes]
  simp [Placed.partition, Dict.keys]

theorem Placed.Holds.nodup_rpcName (hst : Holds s s.procedures.entries st)
    (hnames : ∀ e ∈ s.procedures.entries, e.2.name = e.1) :
    ((st.partition s).signatures.map (·.rpcName)).Nodup := by
  rw [Partition.signatures, List.map_append, List.map_flatMap]
  refine List.Nodup.append ?_ ?_ ?_
  · refine List.nodup_flatMap.mpr ⟨fun c hc => ?_, ?_⟩
    · obtain ⟨ms, -, -, hkeys⟩ := hst.methods_of_mem hc
      have hnodup : (c.methods.map (·.name)).Nodup := hkeys ▸ ms.nodup_keys
      have hpair := List.pairwise_map.mp hnodup
      refine List.pairwise_map.mpr (hpair.imp_of_mem ?_)
      intro f g hf hg hne heq
      have hfplace := (hst.rpcName_method hnames hc hf).2
      rw [show f.rpcName = g.rpcName from heq, (hst.rpcName_method hnames hc hg).2] at hfplace
      exact hne (Place.method.inj hfplace).2.symm
    · have hpair := List.pairwise_map.mp (hst.classes_map_name ▸ s.classes.nodup_keys : List.Nodup _)
      refine hpair.imp_of_mem ?_
      intro c d hc hd hne
      refine List.disjoint_left.mpr fun procedure hin hin' => ?_
      obtain ⟨f, hf, rfl⟩ := List.mem_map.mp hin
      obtain ⟨g, hg, heq⟩ := List.mem_map.mp hin'
      have hgplace := (hst.rpcName_method hnames hd hg).2
      rw [show g.rpcName = f.rpcName from heq, (hst.rpcName_method hnames hc hf).2] at hgplace
      exact hne (Place.method.inj hgplace).1
  · have hsame : (st.partition s).procedures.map (·.rpcName) = (st.partition s).procedures.map (·.name) :=
      List.map_congr_left fun f hf => (hst.rpcName_free hnames hf).1.symm
    rw [hsame, hst.procedures_map_name]
    exact st.free.nodup_keys
  · refine List.disjoint_left.mpr fun procedure hin hin' => ?_
    obtain ⟨c, hc, hin⟩ := List.mem_flatMap.mp hin
    obtain ⟨f, hf, rfl⟩ := List.mem_map.mp hin
    obtain ⟨g, hg, heq⟩ := List.mem_map.mp hin'
    have hgplace := (hst.rpcName_free hnames hg).2.2
    rw [show g.rpcName = f.rpcName from heq, (hst.rpcName_method hnames hc hf).2] at hgplace
    cases hgplace

theorem Placed.Holds.mem_rpcName_iff (hst : Holds s s.procedures.entries st)
    (hnames : ∀ e ∈ s.procedures.entries, e.2.name = e.1) (procedure : Text) :
    procedure ∈ (st.partition s).signatures.map (·.rpcName) ↔ procedure ∈ s.procedures.keys := by
  constructor
  · intro hin
    obtain ⟨f, hf, rfl⟩ := List.mem_map.mp hin
    rcases List.mem_append.mp hf with hf | hf
    · obtain ⟨c, hc, hf⟩ := List.mem_flatMap.mp hf
      exact (hst.rpcName_method hnames hc hf).1
    · exact (hst.rpcName_free hnames hf).2.1
  · intro hin
    obtain ⟨⟨q, d⟩, hd, rfl⟩ := List.mem_map.mp hin
    rcases hst.listed hd with ⟨c, hc, f, hf, -, hbuild⟩ | ⟨f, hf, -, -, hbuild⟩
    · have hin := List.mem_append_left (st.partition s).procedures (List.mem_flatMap.mpr ⟨c, hc, hf⟩)
      exact List.mem_map.mpr ⟨f, hin, rpcName_of_build hnames hd hbuild⟩
    · exact List.mem_map.mpr ⟨f, List.mem_append_right _ hf, rpcName_of_build hnames hd hbuild⟩

theorem Placed.Holds.method_iff (hst : Holds s s.procedures.entries st)
    (hnames : ∀ e ∈ s.procedures.entries, e.2.name = e.1) {procedure : Text} (hin : procedure ∈ s.procedures.keys)
    (cls name : Text) :
    (∃ c ∈ (st.partition s).classes, c.name = cls ∧ ∃ f ∈ c.methods, f.name = name ∧ f.rpcName = procedure) ↔
      place s.classes procedure = .method cls name := by
  constructor
  · rintro ⟨c, hc, rfl, f, hf, rfl, rfl⟩
    exact (hst.rpcName_method hnames hc hf).2
  · intro hplace
    obtain ⟨⟨q, d⟩, hd, rfl⟩ := List.mem_map.mp hin
    rcases hst.listed hd with ⟨c, hc, f, hf, hplace', hbuild⟩ | ⟨f, hf, hplace', -⟩
    · obtain ⟨hcls, hname⟩ := Place.method.inj (hplace'.symm.trans hplace)
      exact ⟨c, hc, hcls, f, hf, hname, rpcName_of_build hnames hd hbuild⟩
    · cases hplace'.symm.trans hplace

theorem Placed.Holds.free_iff (hst : Holds s s.procedures.entries st)
    (hnames : ∀ e ∈ s.procedures.entries, e.2.name = e.1) {procedure : Text} (hin : procedure ∈ s.procedures.keys) :
    (∃ f ∈ (st.partition s).procedures, f.name = procedure ∧ f.rpcName = procedure) ↔
      place s.classes procedure = .free := by
  constructor
  · rintro ⟨f, hf, -, rfl⟩
    exact (hst.rpcName_free hnames hf).2.2
  · intro hplace
    obtain ⟨⟨q, d⟩, hd, rfl⟩ := List.mem_map.mp hin
    rcases hst.listed hd with ⟨c, hc, f, hf, hplace', -⟩ | ⟨f, hf, -, hname, hbuild⟩
    · cases hplace'.symm.trans hplace
    · exact ⟨f, hf, hname, rpcName_of_build hnames hd hbuild⟩

theorem partition_faithful (hnames : ∀ e ∈ s.procedures.entries, e.2.name = e.1) (h : partition s = .ok p) :
    p.Faithful s := by
  obtain ⟨st, rfl, hst⟩ := partition_ok h
  have hnodup := hst.nodup_rpcName hnames
  have hperm : ((st.partition s).signatures.map (·.rpcName)).Perm s.procedures.keys :=
    (List.perm_ext_iff_of_nodup hnodup s.procedures.nodup_keys).mpr (hst.mem_rpcName_iff hnames)
  refine ⟨hperm, hnodup, fun procedure hin cls name => ?_, fun procedure hin => ?_, fun f hf => ?_,
    hst.classes_map_name, ?_, fun c hc => ?_, ?_, ?_, fun c hc f hf => ?_, fun f hf => ?_⟩
  · rw [hst.method_iff hnames hin, place_eq_method_iff]
  · rw [hst.free_iff hnames hin, place_eq_free_iff]
  · exact (hst.rpcName_free hnames hf).1
  · exact List.pairwise_map.mp (hst.classes_map_name ▸ s.classes.keys_ascending)
  · obtain ⟨ms, -, -, hkeys⟩ := hst.methods_of_mem hc
    exact List.pairwise_map.mp (hkeys ▸ ms.keys_ascending)
  · exact List.pairwise_map.mp (hst.procedures_map_name ▸ st.free.keys_ascending)
  · rw [Partition.methodCount_eq, ← List.length_append]
    simpa [Partition.signatures, Dict.keys, Dict.size] using hperm.length_eq
  · obtain ⟨q, d, hd, -, hbuild⟩ := hst.method_of_mem hc hf
    obtain ⟨-, -, hparams, -⟩ := buildSignature_ok hbuild
    rw [rpcName_of_build hnames hd hbuild]
    exact ⟨d, Dict.get?_eq_some_iff.mpr hd, hparams⟩
  · obtain ⟨d, hd, -, hbuild⟩ := hst.free_of_mem hf
    obtain ⟨-, -, hparams, -⟩ := buildSignature_ok hbuild
    rw [rpcName_of_build hnames hd hbuild]
    exact ⟨d, Dict.get?_eq_some_iff.mpr hd, hparams⟩

end

def dockService : Service where
  name := "Dock"
  id := 1
  documentation := []
  procedures := .ofList
    [("A_B_Run", ⟨"A_B_Run", 1, [], [⟨"first", .primitive "BOOL"⟩], none, false⟩),
     ("Port_Open_Wide", ⟨"Port_Open_Wide", 2, [], [], none, false⟩),
     ("Port_Close", ⟨"Port_Close", 3, [],
       [⟨"this", .reference .object "Dock" "Port"⟩, ⟨"wait", .primitive "DOUBLE"⟩], some (.primitive "BOOL"), false⟩),
     ("_Reset", ⟨"_Reset", 4, [], [], none, false⟩)]
  classes := .ofList [("A_B", ⟨"A_B", []⟩), ("Port", ⟨"Port", []⟩)]
  enumerations := .empty

theorem partition_faithful_dock :
    (∀ e ∈ dockService.procedures.entries, e.2.name = e.1) ∧
      ∃ p, partition dockService = .ok p ∧ p.methodCount = 2 ∧ p.Faithful dockService :=
  ⟨by decide, _, rfl, by decide, partition_faithful (by decide) rfl⟩

end RpcBindings.Binding
