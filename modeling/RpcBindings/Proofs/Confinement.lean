import RpcBindings.Proofs.Isolation
import RpcBindings.Proofs.Ways

/-!
# A run changes its own files only

Whatever becomes of a run, it creates directories on the way to its output directory and replaces files by whole texts
that were rendered for them. Each step is shown to do no more than that: creating the directory, every attempt to write a
module, and the attempt to write the index. A run that is told to stop has made some of these steps.
-/

namespace RpcBindings.Generate

open Files

structure Rewritten (listed : Location → Text → Prop) (s s' : System) : Prop where
  same : s.SameDirectories s'
  entry : ∀ l, s'.tree.get? l = s.tree.get? l ∨ ∃ text, s'.tree.get? l = some (.file text) ∧ listed l text

namespace Rewritten

variable {listed listed' : Location → Text → Prop} {s s' s'' : System}

theorem of_unchanged (h : Unchanged s s') : Rewritten listed s s' :=
  ⟨h.sameDirectories, fun l => .inl (h.entry l)⟩

theorem refl (s : System) : Rewritten listed s s := of_unchanged (.refl s)

theorem trans (h : Rewritten listed s s') (h' : Rewritten listed s' s'') : Rewritten listed s s'' := by
  refine ⟨h.same.trans h'.same, fun l => ?_⟩
  rcases h'.entry l with heq | hwritten
  · rw [heq]
    exact h.entry l
  · exact .inr hwritten

theorem mono (hlisted : ∀ l text, listed l text → listed' l text) (h : Rewritten listed s s') : Rewritten listed' s s' :=
  ⟨h.same, fun l => (h.entry l).imp id fun ⟨text, hfile, hl⟩ => ⟨text, hfile, hlisted l text hl⟩⟩

theorem writeWhole (s : System) (path content : Text) (setback : Option Setback) :
    Rewritten (fun l text => text = content ∧ s.locate path = .ok l) s
      (Generate.writeWhole s path content setback).files := by
  rcases writeWhole_cases s path content setback with hunchanged | ⟨-, loc, hloc, hdir, hreplaced⟩
  · exact of_unchanged hunchanged
  · refine ⟨hreplaced.sameDirectories hdir, fun l => ?_⟩
    rw [hreplaced.entry]
    by_cases hl : l = loc
    · exact .inr ⟨content, if_pos hl, rfl, hl ▸ hloc⟩
    · exact .inl (if_neg hl)

end Rewritten

namespace Generator

variable {g : Generator}

theorem inside_of_rewritten {s s' : System} {home : Location} (hext : IsExtension g.options.extension)
    (hhome : Home g home s) (h : Rewritten (fun l _ => ∃ m, IsModule m ∧ s.locate (g.modulePath m) = .ok l) s s') :
    Inside g home s s' := by
  refine ⟨h.same, fun l hl => ?_⟩
  rcases h.entry l with hkept | ⟨text, hfile, m, hm, hloc⟩
  · exact hkept
  · rcases hhome.locate_modulePath hext hm hloc with ⟨-, heq⟩ | hdir
    · exact absurd heq (hl m hm)
    · rw [(h.same.directory_iff l).mpr hdir] at hfile
      cases hfile

/-! ## What each step rewrites -/

section

variable (setbacks : Setbacks)

theorem perform_rewrites (s : System) (j : Job) :
    Rewritten (fun l text => g.renderService j.service j.source = .ok text ∧ s.locate j.path = .ok l) s
      (g.perform s j setbacks).files := by
  cases h : g.renderService j.service j.source with
  | error f =>
    simp only [perform, h]
    exact .refl s
  | ok text =>
    have hfiles : (g.perform s j setbacks).files = (writeWhole s j.path text (setbacks j.path)).files := by
      simp only [perform, h]
      rcases writeWhole s j.path text (setbacks j.path) with ⟨files, _ | f⟩ <;> rfl
    rw [hfiles]
    exact (Rewritten.writeWhole s j.path text _).mono fun l t h => ⟨by rw [h.1], h.2⟩

theorem performAll_rewrites (jobs : List Job) : ∀ (s : System) (signal : Signal),
    Rewritten (fun l text => ∃ j ∈ jobs, g.renderService j.service j.source = .ok text ∧ s.locate j.path = .ok l) s
      (g.performAll s signal jobs setbacks).files := by
  induction jobs with
  | nil =>
    intro s signal
    exact .refl s
  | cons j rest ih =>
    intro s signal
    rw [performAll]
    split
    next => exact .refl s
    next signal' _ =>
      have hstep := perform_rewrites (g := g) setbacks s j
      refine (hstep.mono fun l text h => ⟨j, List.mem_cons_self, h⟩).trans ?_
      refine (ih (g.perform s j setbacks).files signal').mono fun l text h => ?_
      obtain ⟨j', hj', hrender, hloc⟩ := h
      -- no job makes a directory, so the later paths lead where they led before the first job
      exact ⟨j', List.mem_cons_of_mem _ hj', hrender, hstep.same.locate.mp hloc⟩

theorem writeIndex_rewrites (s : System) (report : Report) :
    Rewritten (fun l text => ∃ last, (g.writeIndex s report setbacks).report = some last ∧ last.index = g.indexPath ∧
        g.renderer.index last.modules = .ok text ∧ s.locate g.indexPath = .ok l) s
      (g.writeIndex s report setbacks).files := by
  have hend := writeIndex_end (g := g) s report setbacks
  generalize g.writeIndex s report setbacks = run at hend ⊢
  cases hend with
  | skipped => exact .refl s
  | unrendered => exact .refl s
  | @unwritten content _ _ _ _ hattempt =>
    rcases writeWhole_cases s g.indexPath content (setbacks g.indexPath) with hunchanged | ⟨hnone, -⟩
    · rw [hattempt] at hunchanged
      exact .of_unchanged hunchanged
    · rw [hattempt] at hnone
      cases hnone
  | @written content _ _ hcontent hattempt =>
    rcases writeWhole_cases s g.indexPath content (setbacks g.indexPath) with hunchanged | ⟨-, loc, hloc, hdir, hreplaced⟩
    · rw [hattempt] at hunchanged
      exact .of_unchanged hunchanged
    · rw [hattempt] at hreplaced
      refine ⟨hreplaced.sameDirectories hdir, fun l => ?_⟩
      rw [hreplaced.entry]
      by_cases hl : l = loc
      · exact .inr ⟨content, if_pos hl, _, rfl, rfl, hcontent, hl ▸ hloc⟩
      · exact .inl (if_neg hl)

end

end Generator

/-! ## Whole runs -/

/-- A text that a run has rendered as a whole for the file at a location: the module of a service, or the index of the
modules in its report. -/
def Rendered (g : Generator) (jobs : List Job) (run : Run) (l : Location) (text : Text) : Prop :=
  (∃ j ∈ jobs, g.renderService j.service j.source = .ok text ∧ run.files.locate j.path = .ok l) ∨
    ∃ last, run.report = some last ∧ last.index = g.indexPath ∧ g.renderer.index last.modules = .ok text ∧
      run.files.locate g.indexPath = .ok l

def Opened (g : Generator) (s : System) (run : Run) (l : Location) : Prop :=
  s.tree.get? l = none ∧ run.files.tree.get? l = some .directory ∧ s.OnWay g.options.outputDir l

/-- What a run may have done to files when it ends, at whatever point. -/
structure Confined (g : Generator) (jobs : List Job) (s : System) (run : Run) : Prop where
  cwd : run.files.cwd = s.cwd
  leads : ∀ path l, s.locate path = .ok l → run.files.locate path = .ok l
  elsewhere : ∀ l, (∀ text, ¬ Rendered g jobs run l text) →
    run.files.tree.get? l = s.tree.get? l ∨ Opened g s run l
  /-- A place that gets a text keeps what it holds until it holds the whole text. -/
  whole : ∀ l, run.files.tree.get? l = s.tree.get? l ∨ Opened g s run l ∨
    ∃ text, run.files.tree.get? l = some (.file text) ∧ Rendered g jobs run l text
  /-- A file where there was nothing is a rendered one, and no temporary file. -/
  temporary : ∀ l content, s.tree.get? l = none → run.files.tree.get? l = some (.file content) →
    Rendered g jobs run l content

section

variable {g : Generator} {jobs : List Job} {s ready : System} {run : Run}

theorem confined_of_rewritten (hgrown : s.Grown ready)
    (hway : ∀ l, ready.tree.get? l ≠ s.tree.get? l → s.OnWay g.options.outputDir l)
    (h : Rewritten (Rendered g jobs run) ready run.files) : Confined g jobs s run := by
  have hwhole : ∀ l, run.files.tree.get? l = s.tree.get? l ∨ Opened g s run l ∨
      ∃ text, run.files.tree.get? l = some (.file text) ∧ Rendered g jobs run l text := by
    intro l
    rcases h.entry l with hkept | hwritten
    · rcases hgrown.entry l with hsame | ⟨hnone, hdir⟩
      · exact .inl (hkept.trans hsame)
      · refine .inr (.inl ⟨hnone, hkept.trans hdir, hway l ?_⟩)
        simp [hnone, hdir]
    · exact .inr (.inr hwritten)
  refine ⟨h.same.cwd.trans hgrown.cwd, fun path l hl => h.same.locate.mpr (hgrown.locate hl), fun l hnone => ?_, hwhole, ?_⟩
  · rcases hwhole l with hsame | hopened | ⟨text, -, hrendered⟩
    · exact .inl hsame
    · exact .inr hopened
    · exact absurd hrendered (hnone text)
  · intro l content hnone hfile
    rcases hwhole l with hsame | ⟨-, hdir, -⟩ | ⟨text, htext, hrendered⟩
    · rw [hsame, hnone] at hfile
      cases hfile
    · rw [hdir] at hfile
      cases hfile
    · obtain rfl : text = content := by simpa [htext] using hfile
      exact hrendered

theorem Confined.congr {run' : Run} (h : Confined g jobs s run) (hfiles : run'.files = run.files)
    (hreport : ∀ last, run.report = some last → ∃ last', run'.report = some last' ∧ last'.index = last.index ∧
      last'.modules = last.modules) : Confined g jobs s run' := by
  have hrendered : ∀ l text, Rendered g jobs run l text → Rendered g jobs run' l text := by
    rintro l text (hjob | ⟨last, hlast, hpath, htext, hloc⟩)
    · exact .inl (by rwa [hfiles])
    · obtain ⟨last', hlast', hindex, hmodules⟩ := hreport last hlast
      exact .inr ⟨last', hlast', hindex.trans hpath, by rwa [hmodules], by rwa [hfiles]⟩
  refine ⟨hfiles ▸ h.cwd, hfiles ▸ h.leads, fun l hnone => ?_, fun l => ?_, fun l content hnone hfile => ?_⟩
  · have helsewhere := h.elsewhere l fun text ht => hnone text (hrendered l text ht)
    unfold Opened at helsewhere ⊢
    rwa [hfiles]
  · have hwhole := h.whole l
    unfold Opened at hwhole ⊢
    rw [hfiles]
    exact hwhole.imp id (Or.imp id fun ⟨text, hfile, ht⟩ => ⟨text, hfile, hrendered l text ht⟩)
  · rw [hfiles] at hfile
    exact hrendered l content (h.temporary l content hnone hfile)

theorem confined_of_grown (hgrown : s.Grown run.files)
    (hway : ∀ l, run.files.tree.get? l ≠ s.tree.get? l → s.OnWay g.options.outputDir l) : Confined g jobs s run :=
  confined_of_rewritten hgrown hway (.refl run.files)

end

namespace Generator

variable {g : Generator} {arrange : List Job → List Job}

theorem carryOut_rewrites (harrange : ∀ jobs, (arrange jobs).Perm jobs) {files ready : System} (signal : Signal)
    (failures : List Failure) {plan : Plan} (setbacks : Setbacks)
    (hready : (if plan.jobs.isEmpty then .ok files else files.mkdirAll g.options.outputDir) = .ok ready) :
    Rewritten (Rendered g plan.jobs (g.carryOut arrange files signal failures plan setbacks)) ready
      (g.carryOut arrange files signal failures plan setbacks).files := by
  unfold carryOut
  simp only [hready]
  have hjobs := performAll_rewrites (g := g) setbacks (arrange plan.jobs) ready signal
  generalize hbatch : g.performAll ready signal (arrange plan.jobs) setbacks = batch at hjobs ⊢
  have hlisted : ∀ run : Run, batch.files.SameDirectories run.files → ∀ l text,
      (∃ j ∈ arrange plan.jobs, g.renderService j.service j.source = .ok text ∧ ready.locate j.path = .ok l) →
      Rendered g plan.jobs run l text := by
    intro run hsame l text ⟨j, hj, hrender, hloc⟩
    exact .inl ⟨j, (harrange _).mem_iff.mp hj, hrender, hsame.locate.mpr (hjobs.same.locate.mpr hloc)⟩
  split
  next => exact hjobs.mono (hlisted _ (.refl batch.files))
  next =>
    have hindex := writeIndex_rewrites (g := g) setbacks batch.files
      (reportOn plan (failures ++ plan.refused) batch.results)
    generalize g.writeIndex batch.files (reportOn plan (failures ++ plan.refused) batch.results) setbacks = last at hindex ⊢
    have hboth : ∀ run : Run, run.files = last.files → run.report = last.report →
        Rewritten (Rendered g plan.jobs run) ready run.files := by
      intro run hfiles hreport
      rw [hfiles]
      refine (hjobs.mono (hlisted run (hfiles ▸ hindex.same))).trans (hindex.mono fun l text hrendered => ?_)
      obtain ⟨r, hr, hpath, htext, hloc⟩ := hrendered
      exact .inr ⟨r, hreport.trans hr, hpath, htext, hfiles ▸ hindex.same.locate.mpr hloc⟩
    split <;> exact hboth _ rfl rfl

theorem carryOut_confined (harrange : ∀ jobs, (arrange jobs).Perm jobs) (files : System) (signal : Signal)
    (failures : List Failure) (plan : Plan) (setbacks : Setbacks) :
    Confined g plan.jobs files (g.carryOut arrange files signal failures plan setbacks) := by
  cases hready : (if plan.jobs.isEmpty then .ok files else files.mkdirAll g.options.outputDir) with
  | error f =>
    obtain ⟨hgrown, hway⟩ := System.grown_mkdirAllRestFrom (g.options.outputDir.length + 1) files g.options.outputDir
    unfold carryOut
    simp only [hready]
    exact confined_of_grown hgrown hway
  | ok ready =>
    have hmade : files.Grown ready ∧ ∀ l, ready.tree.get? l ≠ files.tree.get? l → files.OnWay g.options.outputDir l := by
      split at hready
      next =>
        obtain rfl := Except.ok.inj hready
        exact ⟨.refl _, fun l hl => absurd rfl hl⟩
      next =>
        exact ⟨(System.made_of_mkdirAllFrom hready).grown, fun l => System.onWay_of_mkdirAllFrom hready⟩
    exact confined_of_rewritten hmade.1 hmade.2 (carryOut_rewrites harrange signal failures setbacks hready)

theorem runDocuments_confined (harrange : ∀ jobs, (arrange jobs).Perm jobs) (files : System) (signal : Signal)
    (count : Nat) (failures : List Failure) (documents : List Document) (setbacks : Setbacks) :
    Confined g (g.plan documents).jobs files
      (g.runDocuments arrange files signal count failures documents setbacks) := by
  have h := carryOut_confined (g := g) harrange files signal failures (g.plan documents) setbacks
  unfold runDocuments
  simp only
  split
  next => exact h
  next last hlast =>
    refine h.congr rfl fun last' hlast' => ⟨_, rfl, ?_⟩
    obtain rfl : last = last' := Option.some.inj (hlast.symm.trans hlast')
    exact ⟨rfl, rfl⟩

theorem generateIn_confined (harrange : ∀ jobs, (arrange jobs).Perm jobs) (files : System) (signal : Signal)
    (paths : List Text) (setbacks : Setbacks) :
    Confined g (g.plan (loadAll files signal paths).documents).jobs files
      (g.generateIn arrange files signal paths setbacks) := by
  unfold generateIn
  simp only
  split
  next => exact confined_of_grown (.refl files) fun l hl => absurd rfl hl
  next signal' _ =>
    have h := runDocuments_confined (g := g) harrange files signal' paths.length (loadAll files signal paths).failures
      (loadAll files signal paths).documents setbacks
    exact h.congr rfl fun last hlast => ⟨last, hlast, rfl, rfl⟩

def harborText : Text :=
  "\x7b\"Port\":\x7b\"id\":1,\"procedures\":\x7b\x7d,\"classes\":\x7b\x7d,\"enumerations\":\x7b\x7d\x7d," ++
    "\"Quay\":\x7b\"id\":2,\"procedures\":\x7b\x7d,\"classes\":\x7b\x7d,\"enumerations\":\x7b\x7d\x7d\x7d"

def harborFiles : System where
  tree := ⟨[(["h.json"], .file harborText), (["gen"], .directory), (["gen", "port.rs"], .file "old")]⟩
  cwd := []

def fullDevice : Setbacks := fun path => if path = "gen/quay.rs" then some ⟨.content, "// Q", "no space left on device"⟩ else none

theorem generateIn_confined_harbor :
    Confined (plain "gen" true) ((plain "gen" true).plan (loadAll harborFiles ⟨some 2⟩ ["h.json"]).documents).jobs
        harborFiles ((plain "gen" true).generateIn List.reverse harborFiles ⟨some 2⟩ ["h.json"]) ∧
      ((plain "gen" true).generateIn List.reverse harborFiles ⟨some 2⟩ ["h.json"]).fault = some .cancelled ∧
      (((plain "gen" true).generateIn List.reverse harborFiles ⟨some 2⟩ ["h.json"]).files.read "gen/quay.rs").toOption =
        some ("// Quay" : Text) ∧
      Confined (plain "gen" true) ((plain "gen" true).plan (loadAll harborFiles .never ["h.json"]).documents).jobs
        harborFiles ((plain "gen" true).generateIn id harborFiles .never ["h.json"] fullDevice) ∧
      (((plain "gen" true).generateIn id harborFiles .never ["h.json"] fullDevice).files.list "gen").toOption =
        some [(("port.rs" : Text), Entry.file "// Port")] := by
  refine ⟨generateIn_confined List.reverse_perm _ _ _ _, ?_, ?_, generateIn_confined (fun jobs => .refl jobs) _ _ _ _, ?_⟩ <;>
    decide +kernel

end Generator

end RpcBindings.Generate
