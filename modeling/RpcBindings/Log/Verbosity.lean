import RpcBindings.Log.Entry

/-!
# Verbosity

How much a run says: the least level of log entries that are shown, and which categories of output appear.
-/

namespace RpcBindings.Log

def Level.ofVerbosity (verbosity : Int) : Level :=
  if verbosity ≤ 0 then .warn else if verbosity = 1 then .info else .debug

def verbosityName (verbosity : Int) : Text :=
  if verbosity < 0 then "Unknown"
  else if verbosity = 0 then "User"
  else if verbosity = 1 then "Info (-v)"
  else if verbosity = 2 then "Debug (-vv)"
  else if verbosity = 3 then "Trace (-vvv)"
  else "Trace (-vvv+)"

inductive Category where
  | results
  | errors
  | progress
  | config
  | timing
  | contextDump
  | other
  deriving DecidableEq

namespace Category

def named : List Category := [results, errors, progress, config, timing, contextDump]

def text : Category → Text
  | results => "results"
  | errors => "errors"
  | progress => "progress"
  | config => "config"
  | timing => "timing"
  | contextDump => "context-dump"
  | other => "unknown"

def least : Category → Int
  | results => 0
  | errors => 0
  | progress => 1
  | config => 1
  | timing => 2
  | contextDump => 3
  | other => 3

def shown (verbosity : Int) (c : Category) : Bool := c.least ≤ verbosity

end Category

end RpcBindings.Log
