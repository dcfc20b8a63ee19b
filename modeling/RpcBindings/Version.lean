import RpcBindings.Format.Tree

/-!
# The version of the program

What a build knows about itself.
-/

namespace RpcBindings

structure Build where
  commit : Text
  built : Text
  version : Text
  compiler : Text
  platform : Text

namespace Build

def development (compiler platform : Text) : Build := ⟨"dev", "unknown", "dev", compiler, platform⟩

def short (b : Build) : Text := b.commit.take 7

def describe (b : Build) : Text :=
  "krpcgen " ++ b.version ++ " (commit " ++ b.short ++ ", built " ++ b.built ++ ")"

def tree (b : Build) : Format.Tree := .record
  [("commit_hash", .text b.commit), ("build_time", .text b.built), ("version", .text b.version),
   ("go_version", .text b.compiler), ("platform", .text b.platform)]

end Build

end RpcBindings
