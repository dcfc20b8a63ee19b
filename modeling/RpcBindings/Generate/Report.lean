import RpcBindings.Fault

/-!
# Reports

What a run did: which services were written where, which failed and why, and where the module index is.
-/

namespace RpcBindings.Generate

structure Failure where
  source : Text
  service : Text
  fault : Fault
  deriving DecidableEq

namespace Failure

def subject (f : Failure) : Text :=
  if f.service = [] then f.source else "service " ++ f.service ++ " (" ++ f.source ++ ")"

def located (f : Failure) : Fault := .located f.subject f.fault

def before (a b : Failure) : Bool :=
  if a.source = b.source then decide (a.service ≤ b.service) else decide (a.source ≤ b.source)

end Failure

structure Written where
  service : Text
  module : Text
  path : Text
  deriving DecidableEq

structure Report where
  documents : Nat
  services : Nat
  written : List Written
  failed : List Failure
  index : Text
  deriving DecidableEq

namespace Report

def ok (r : Report) : Bool := r.failed.isEmpty

def fault? (r : Report) : Option Fault := Fault.combine (r.failed.map Failure.located)

def paths (r : Report) : List Text := r.written.map (·.path) ++ (if r.index = [] then [] else [r.index])

def modules (r : Report) : List Text := (r.written.map (·.module)).mergeSort fun a b => decide (a ≤ b)

end Report

end RpcBindings.Generate
