import RpcBindings.Generate.Generator
import RpcBindings.Generate.Report

/-!
# Plans

Each service of a run gets a module. The first service to name a module, in the order of documents and of service names,
owns it; a later one that names it too is a failure.
-/

namespace RpcBindings.Generate

structure Job where
  source : Text
  service : Service
  module : Text
  path : Text

structure Plan where
  jobs : List Job
  refused : List Failure

structure Candidate where
  source : Text
  name : Text
  service : Service

def candidates (documents : List Document) : List Candidate :=
  documents.flatMap fun d => d.services.entries.map fun e => ⟨d.path, e.1, e.2⟩

def takenModule (module owner : Text) : Fault :=
  .hinted "service names must stay distinct after case conversion"
    (.plain ("module " ++ Text.guarded module ++ " is already generated for service " ++ Text.guarded owner))

namespace Generator

/-- Plans one service after another; `owners` holds the modules that are taken. -/
def planFrom (g : Generator) (owners : List (Text × Text)) : List Candidate → Plan
  | [] => ⟨[], []⟩
  | c :: rest =>
    let module := Binding.moduleName c.name
    match owners.lookup module with
    | some owner =>
      let p := g.planFrom owners rest
      { p with refused := ⟨c.source, c.name, takenModule module owner⟩ :: p.refused }
    | none =>
      let p := g.planFrom ((module, c.name) :: owners) rest
      { p with jobs := ⟨c.source, c.service, module, g.outputPath c.name⟩ :: p.jobs }

def plan (g : Generator) (documents : List Document) : Plan := g.planFrom [] (candidates documents)

end Generator

end RpcBindings.Generate
