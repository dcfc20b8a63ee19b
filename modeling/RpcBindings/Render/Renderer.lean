import RpcBindings.Render.Embedded
import RpcBindings.Template.Execute

/-!
# Rendering modules

A renderer holds a library of templates and the version that is stamped into headers. It starts from the built-in
templates; files of a directory may replace them by name.
-/

namespace RpcBindings.Render

open Template

structure Renderer where
  library : Library
  version : Text

def embedded? : Option Library := do
  let l ← Library.addFile? functionNames Dict.empty indexName indexText
  Library.addFile? functionNames l serviceName serviceText

def badTemplates (dir : Text) : Fault :=
  .marked .render (.external ("failed to parse templates in " ++ Text.guarded dir))

namespace Renderer

def ofParsed (version : Text) : Option Library → Except Fault Renderer
  | some library => .ok ⟨library, version⟩
  | none => .error (.marked .render (.plain "failed to parse embedded templates"))

def embedded (version : Text) : Except Fault Renderer := ofParsed version embedded?

/-- The renderer with the files of directory `dir` added, in the order of their names. -/
def override (r : Renderer) (dir : Text) (files : List (Text × Text)) : Except Fault Renderer :=
  match files.foldlM (fun l (name, text) => Library.addFile? functionNames l name text) r.library with
  | some library => .ok { r with library }
  | none => .error (badTemplates dir)

def execute (r : Renderer) (name : Text) (v : Value) : Except Fault Text :=
  if r.library.contains name then
    (Template.execute r.library r.version name v).mapError fun _ =>
      .marked .render (.external ("failed to render " ++ Text.guarded name))
  else .error (.marked .render (.plain ("template " ++ Text.guarded (Text.quoted name) ++ " not found")))

def service (r : Renderer) (c : Binding.Context) : Except Fault Text := r.execute serviceName (.context c)

def index (r : Renderer) (modules : List Text) : Except Fault Text := r.execute indexName (.index modules)

def libraryName : Text := "krpcgen"

def names (r : Renderer) : List Text := r.library.keys.filter fun name => name != libraryName

end Renderer

end RpcBindings.Render
