import RpcBindings.Generate.Plan
import RpcBindings.Generate.Write
import RpcBindings.Log.Entry
import RpcBindings.Schema.Decode

/-!
# Runs

A run loads service files, plans their modules, writes one after another and at last the module index. A service that
fails is reported and does not stop the others. A run can be told to stop; it asks before each file it loads and before
each module it writes.
-/

namespace RpcBindings.Generate

open Files

/-- How many times a run may still ask before it is told to stop; none if it is never told. -/
structure Signal where
  remaining : Option Nat

namespace Signal

def never : Signal := ⟨none⟩

def now : Signal := ⟨some 0⟩

def ask : Signal → Option Signal
  | ⟨none⟩ => some ⟨none⟩
  | ⟨some 0⟩ => none
  | ⟨some (n + 1)⟩ => some ⟨some n⟩

end Signal

structure Run where
  files : System
  log : List Log.Entry
  report : Option Report
  fault : Option Fault

def component : Text := "codegen"

structure JobResult where
  files : System
  log : List Log.Entry
  fault : Option Fault

structure Batch where
  files : System
  log : List Log.Entry
  results : List (Text × Option Fault)
  stopped : Bool

structure Loaded where
  documents : List Document
  failures : List Failure
  log : List Log.Entry
  signal : Option Signal

def loadAll (files : System) (signal : Signal) : List Text → Loaded
  | [] => ⟨[], [], [], some signal⟩
  | path :: rest =>
    match signal.ask with
    | none => ⟨[], [], [], none⟩
    | some signal =>
      let l := loadAll files signal rest
      match Document.load files path with
      | .ok d => { l with documents := d :: l.documents }
      | .error f =>
        { l with
          failures := ⟨path, [], f⟩ :: l.failures
          log :=
            ⟨.error, component, "Failed to load service file", [("file", .text path), ("error", .fault f)]⟩ :: l.log }

namespace Generator

def perform (g : Generator) (files : System) (job : Job) (setbacks : Setbacks := fun _ => none) : JobResult :=
  let entry := fun (level : Log.Level) (message : Text) (fields : List (Text × Log.Value)) =>
    (⟨level, component, message, ("service", .text job.service.name) :: fields⟩ : Log.Entry)
  let notes := Binding.partitionLog job.service
  match g.renderService job.service job.source with
  | .error f =>
    ⟨files, notes ++ [entry .error "Service skipped" [("file", .text job.source), ("error", .fault f)]], some f⟩
  | .ok content =>
    match writeWhole files job.path content (setbacks job.path) with
    | ⟨files, some f⟩ =>
      ⟨files, notes ++ [entry .error "Failed to write module" [("output", .text job.path), ("error", .fault f)]],
       some f⟩
    | ⟨files, none⟩ =>
      ⟨files, notes ++ [entry .debug "Module written" [("output", .text job.path), ("duration_ms", .number 0)]], none⟩

def performAll (g : Generator) (files : System) (signal : Signal) (jobs : List Job)
    (setbacks : Setbacks := fun _ => none) : Batch :=
  match jobs with
  | [] => ⟨files, [], [], false⟩
  | job :: rest =>
    match signal.ask with
    | none => ⟨files, [], [], true⟩
    | some signal =>
      let r := g.perform files job setbacks
      let b := g.performAll r.files signal rest setbacks
      { b with log := r.log ++ b.log, results := (job.module, r.fault) :: b.results }

def writtenJobs (results : List (Text × Option Fault)) (jobs : List Job) : List Written :=
  jobs.filterMap fun j =>
    match results.lookup j.module with
    | some none => some ⟨j.service.name, j.module, j.path⟩
    | _ => none

def failedJobs (results : List (Text × Option Fault)) (jobs : List Job) : List Failure :=
  jobs.filterMap fun j =>
    match results.lookup j.module with
    | some (some f) => some ⟨j.source, j.service.name, f⟩
    | _ => none

def reportOn (plan : Plan) (failures : List Failure) (results : List (Text × Option Fault)) : Report where
  documents := 0
  services := plan.jobs.length + (failures.filter fun f => f.service ≠ []).length
  written := (writtenJobs results plan.jobs).mergeSort fun a b => decide (a.path ≤ b.path)
  failed := (failures ++ failedJobs results plan.jobs).mergeSort Failure.before
  index := []

def writeIndex (g : Generator) (files : System) (report : Report) (setbacks : Setbacks := fun _ => none) : Run :=
  if report.written.isEmpty || !g.options.index then ⟨files, [], some report, none⟩
  else if !report.ok then
    ⟨files, [⟨.warn, component, "Module index not written because some services failed",
      [("failed", .number report.failed.length)]⟩], some report, none⟩
  else
    match g.renderer.index report.modules with
    | .error f => ⟨files, [], none, some f⟩
    | .ok content =>
      match writeWhole files g.indexPath content (setbacks g.indexPath) with
      | ⟨files, some f⟩ => ⟨files, [], none, some f⟩
      | ⟨files, none⟩ => ⟨files, [], some { report with index := g.indexPath }, none⟩

def finished (report : Report) : Log.Entry :=
  ⟨.info, component, "Generation finished",
    [("count", .number report.written.length), ("failed", .number report.failed.length)]⟩

def carryOut (g : Generator) (arrange : List Job → List Job) (files : System) (signal : Signal)
    (failures : List Failure) (plan : Plan) (setbacks : Setbacks := fun _ => none) : Run :=
  let ready := if plan.jobs.isEmpty then .ok files else files.mkdirAll g.options.outputDir
  match ready with
  | .error f =>
    ⟨files.mkdirAllRest g.options.outputDir, [], none,
      some (.ofIo ("failed to create output directory " ++ Text.guarded g.options.outputDir) f.fault)⟩
  | .ok files =>
    let start : Log.Entry := ⟨.debug, component, "Generating services",
      [("count", .number plan.jobs.length), ("jobs", .number g.options.jobs.toNat), ("dir", .text g.options.outputDir)]⟩
    let batch := g.performAll files signal (arrange plan.jobs) setbacks
    if batch.stopped then ⟨batch.files, start :: batch.log, none, some .cancelled⟩
    else
      let report := reportOn plan (failures ++ plan.refused) batch.results
      let run := g.writeIndex batch.files report setbacks
      let log := start :: batch.log ++ run.log
      match run.report with
      | none => { run with log }
      | some report => { run with log := log ++ [finished report] }

def runDocuments (g : Generator) (arrange : List Job → List Job) (files : System) (signal : Signal)
    (count : Nat) (failures : List Failure) (documents : List Document)
    (setbacks : Setbacks := fun _ => none) : Run :=
  let run := g.carryOut arrange files signal failures (g.plan documents) setbacks
  match run.report with
  | none => run
  | some report =>
    let report := { report with documents := count }
    { run with report := some report, fault := report.fault? }

def generateDocuments (g : Generator) (files : System) (signal : Signal) (documents : List Document) : Run :=
  g.runDocuments id files signal documents.length [] documents

/-- A run over service files, performing its jobs in the order that `arrange` gives. -/
def generateIn (g : Generator) (arrange : List Job → List Job) (files : System) (signal : Signal)
    (paths : List Text) (setbacks : Setbacks := fun _ => none) : Run :=
  let loaded := loadAll files signal paths
  match loaded.signal with
  | none => ⟨files, loaded.log, none, some .cancelled⟩
  | some signal =>
    let run := g.runDocuments arrange files signal paths.length loaded.failures loaded.documents setbacks
    { run with log := loaded.log ++ run.log }

def generate (g : Generator) (files : System) (signal : Signal) (paths : List Text) : Run :=
  g.generateIn id files signal paths

def generateFile (g : Generator) (files : System) (signal : Signal) (path : Text) : Run :=
  match Document.load files path with
  | .error f => ⟨files, [], none, some f⟩
  | .ok d => g.generateDocuments files signal [d]

end Generator

end RpcBindings.Generate
