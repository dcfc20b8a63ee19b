import RpcBindings.Fault
import RpcBindings.Format.Tree
import RpcBindings.Text.Quoted
import RpcBindings.Text.Trim

/-!
# Settings

What users can set, in five sections with nine keys, with defaults and with the conditions for a run.
-/

namespace RpcBindings

structure InputSettings where
  path : Text
  manifest : Text
  extension : Text
  deriving DecidableEq

structure OutputSettings where
  dir : Text
  extension : Text
  index : Bool
  deriving DecidableEq

structure TemplateSettings where
  dir : Text
  deriving DecidableEq

structure GenerateSettings where
  jobs : Int
  deriving DecidableEq

structure LogSettings where
  json : Bool
  deriving DecidableEq

structure Settings where
  input : InputSettings
  output : OutputSettings
  templates : TemplateSettings
  generate : GenerateSettings
  log : LogSettings
  deriving DecidableEq

namespace Settings

def default : Settings where
  input := ⟨".", "", ".json"⟩
  output := ⟨"src/services", ".rs", true⟩
  templates := ⟨""⟩
  generate := ⟨0⟩
  log := ⟨false⟩

def tree (s : Settings) : Format.Tree := .record
  [("input", .record [("path", .text s.input.path), ("manifest", .text s.input.manifest),
      ("extension", .text s.input.extension)]),
   ("output", .record [("dir", .text s.output.dir), ("extension", .text s.output.extension),
      ("index", .bool s.output.index)]),
   ("templates", .record [("dir", .text s.templates.dir)]),
   ("generate", .record [("jobs", .number s.generate.jobs)]),
   ("log", .record [("json", .bool s.log.json)])]

inductive Defect where
  | noOutput
  | negativeJobs (jobs : Int)
  | emptyExtension (key : Text)
  | separatorInExtension (key extension : Text)
  | noDot (key extension : Text)
  | noInput
  deriving DecidableEq

namespace Defect

def fault : Defect → Fault
  | noOutput => .hinted "set output.dir in krpcgen.toml or pass --out" (.plain "output.dir cannot be empty")
  | negativeJobs jobs => .plain ("generate.jobs must be >= 0, got " ++ Text.ofInt jobs)
  | emptyExtension key => .plain (key ++ " cannot be empty")
  | separatorInExtension key extension =>
    .plain (key ++ " must not contain a path separator, got " ++ Text.guarded (Text.quoted extension))
  | noDot key extension =>
    .hinted ("did you mean " ++ Text.quoted (46 :: extension) ++ "?")
      (.plain (key ++ " must start with a dot, got " ++ Text.guarded (Text.quoted extension)))
  | noInput => .plain "either input.path or input.manifest must be set"

end Defect

/-- An extension starts with a dot and stays inside one path element. -/
def checkExtension (key extension : Text) : Except Defect Unit :=
  if extension = [] then .error (.emptyExtension key)
  else if extension.any (fun b => b == 47 || b == 92) then .error (.separatorInExtension key extension)
  else if extension.head? ≠ some 46 then .error (.noDot key extension)
  else .ok ()

def check (s : Settings) : Except Defect Unit := do
  if Text.isBlank s.output.dir then throw .noOutput
  if s.generate.jobs < 0 then throw (.negativeJobs s.generate.jobs)
  checkExtension "input.extension" s.input.extension
  checkExtension "output.extension" s.output.extension
  if s.input.path = [] ∧ s.input.manifest = [] then throw .noInput

end Settings

end RpcBindings
