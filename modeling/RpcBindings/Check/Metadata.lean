import RpcBindings.Diff.Unified
import RpcBindings.Text.Trim

/-!
# Comparing generated texts

A generated file names the version that wrote it. That line is metadata: two files count as equal if they differ in
metadata and line ends only.
-/

namespace RpcBindings.Check

def metadataMark : Text := "// Generator version:"

def generatedMark : Text := "// Code generated by krpcgen"

def isMetadata (line : Text) : Bool := Text.startsWith (Text.trim line) metadataMark

/-- The lines that count in a comparison, without their ends. -/
def significantLines (content : Text) : List Text :=
  ((Text.lines content).map Text.dropReturn).filter fun line => !isMetadata line

def withoutMetadata (content : Text) : Text := (significantLines content).flatMap (· ++ [10])

def isGenerated (content : Text) : Bool := Text.startsWith content generatedMark

inductive Status where
  | changed
  | missing
  | orphaned
  deriving DecidableEq

namespace Status

def text : Status → Text
  | changed => "changed"
  | missing => "missing"
  | orphaned => "orphaned"

def all : List Status := [changed, missing, orphaned]

end Status

def difference (name existing fresh : Text) : Text :=
  let left := withoutMetadata existing
  let right := withoutMetadata fresh
  if left = right then [] else Diff.unified name "generated" left right

end RpcBindings.Check
