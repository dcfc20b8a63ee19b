import RpcBindings.Files.Glob
import RpcBindings.Render.Renderer

/-!
# Templates of a directory

A directory may hold templates that replace the built-in ones: all its files with the extension `.tmpl`, in the order of
their names. They are looked up by a pattern, so that signs of patterns in the directory's own path have their meaning
there.
-/

namespace RpcBindings.Render

def templatePattern : Text := "*.tmpl"

def badPattern (dir : Text) : Fault :=
  .ofIo ("template directory " ++ Text.guarded dir) (.foreign "syntax error in pattern")

def Renderer.withDirectory (files : Files.System) (r : Renderer) (dir : Text) : Except Fault Renderer :=
  match files.stat dir with
  | .error f => .error (.ofIo ("template directory " ++ Text.guarded dir) f.fault)
  | .ok (.file _) =>
    .error (.hinted "templates.dir must point to a directory of *.tmpl files"
      (.marked .io (.plain ("template directory " ++ Text.guarded dir ++ " is not a directory"))))
  | .ok .directory =>
    match files.glob? (Path.join [dir, templatePattern]) with
    | none => .error (badPattern dir)
    | some paths =>
      match paths.mapM fun path => (files.read path).toOption.map fun content => (Path.base path, content) with
      | none => .error (badTemplates dir)
      | some contents => r.override dir contents

end RpcBindings.Render
