import RpcBindings.Render.Directory
import RpcBindings.Settings.Basic

/-!
# Generators

A generator knows where generated modules go and how they are rendered. Here it names files and renders single services;
whole runs are built on it.

The conversion of names is no option here: every name is converted to snake case, the conversion that a generator has
unless its caller brings another. What a run does with another conversion is not described.
-/

namespace RpcBindings.Generate

open Render

structure Options where
  outputDir : Text
  extension : Text
  index : Bool
  jobs : Int
  templatesDir : Text
  version : Text

namespace Options

def ofSettings (s : Settings) : Options where
  outputDir := s.output.dir
  extension := s.output.extension
  index := s.output.index
  jobs := s.generate.jobs
  templatesDir := s.templates.dir
  version := []

def complete (o : Options) (version : Text) : Options :=
  { o with
    extension := if o.extension = [] then ".rs" else o.extension
    version := if o.version = [] then version else o.version
    jobs := if o.jobs ≤ 0 then 1 else o.jobs }

end Options

structure Generator where
  options : Options
  renderer : Renderer

def indexModule : Text := "mod"

namespace Generator

/-- The generator for given options. A version that is left open is the given one. -/
def new (files : Files.System) (version : Text) (o : Options) : Except Fault Generator := do
  let o := o.complete version
  let r ← Renderer.embedded o.version
  let r ← if o.templatesDir = [] then pure r else r.withDirectory files o.templatesDir
  return ⟨o, r⟩

def modulePath (g : Generator) (module : Text) : Text :=
  Path.join [g.options.outputDir, module ++ g.options.extension]

def outputPath (g : Generator) (service : Text) : Text := g.modulePath (Binding.moduleName service)

def indexPath (g : Generator) : Text := g.modulePath indexModule

end Generator

def context (s : Service) (source : Text) : Except Fault Binding.Context :=
  match Binding.buildContext s with
  | .error f => .error (.within ("service " ++ Text.guarded s.name) f)
  | .ok c => .ok (if source = [] then c else { c with source := Path.base source })

def Generator.renderService (g : Generator) (s : Service) (source : Text) : Except Fault Text := do
  let c ← context s source
  (g.renderer.service c).mapError (.within ("service " ++ Text.guarded s.name))

end RpcBindings.Generate
