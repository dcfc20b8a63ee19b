import RpcBindings.Text.Guarded

/-!
# Faults

A fault is what a failed operation leaves behind: the words of its innermost cause, and around them contexts, hints for
the user, details, and marks that say which category of failure it is. Wrapping keeps everything that is inside.
-/

namespace RpcBindings

inductive Category where
  | io
  | parse
  | malformedType
  | malformedEnum
  | render
  | stale
  deriving DecidableEq, Repr

namespace Category

def text : Category → Text
  | io => "i/o failure"
  | parse => "service file parsing error"
  | malformedType => "malformed type"
  | malformedEnum => "malformed enumeration"
  | render => "template engine error"
  | stale => "generated files are out of date"

def all : List Category := [io, parse, malformedType, malformedEnum, render, stale]

end Category

inductive Fault where
  | plain (words : Text)
  | foreign (words : Text)
  | system (operation : Text) (paths : List Text) (reason : Text)
  | external (summary : Text)
  | cancelled
  | within (context : Text) (cause : Fault)
  | marked (category : Category) (cause : Fault)
  | hinted (hint : Text) (cause : Fault)
  | detailed (detail : Text) (cause : Fault)
  | located (part : Text) (cause : Fault)
  | both (first second : Fault)
  deriving DecidableEq

namespace Fault

def systemWords (operation : Text) (paths : List Text) (reason : Text) : Text :=
  Text.join " " (operation :: paths) ++ ": " ++ reason

def layers : Fault → List Text
  | plain words => [Text.settled words]
  | foreign words => [Text.settled words]
  | system operation paths reason => [Text.settled (Text.join " " (operation :: paths.map Text.guarded)), reason]
  | external summary => [Text.settled summary]
  | cancelled => ["context canceled"]
  | within context cause => Text.settled context :: cause.layers
  | marked _ cause => cause.layers
  | hinted _ cause => cause.layers
  | detailed _ cause => cause.layers
  | located part cause => Text.settled part :: cause.layers
  | both first second => first.layers ++ second.layers

def joinLayers (layers : List Text) : Text := Text.join ": " (layers.filter fun l => !l.isEmpty)

mutual

def message : Fault → Text
  | plain words => words
  | foreign words => words
  | system operation paths reason => systemWords operation paths reason
  | external summary => summary
  | cancelled => "context canceled"
  | within context cause => context ++ ": " ++ cause.shown
  | marked _ cause => cause.message
  | hinted _ cause => cause.message
  | detailed _ cause => cause.message
  | located part cause => part ++ ": " ++ cause.message
  | both first second => first.message ++ "; " ++ second.message

/-- A fault as it is shown to the user: its layers in settled lines, but the words of something outside, and those of a
run, as they are. -/
def shown : Fault → Text
  | plain words => Text.settled words
  | foreign words => words
  | system operation paths reason => systemWords operation paths reason
  | external summary => Text.settled summary
  | cancelled => "context canceled"
  | within context cause => joinLayers (Text.settled context :: cause.layers)
  | marked _ cause => joinLayers cause.layers
  | hinted _ cause => joinLayers cause.layers
  | detailed _ cause => joinLayers cause.layers
  | located part cause => part ++ ": " ++ cause.message
  | both first second => first.message ++ "; " ++ second.message

end

/-- Whether a fault belongs to a category: something inside it is marked so, or its cause is in the category's own
words. -/
def is (c : Category) : Fault → Bool
  | plain words => words == c.text
  | within _ cause => cause.is c
  | marked category cause => category == c || cause.is c
  | hinted _ cause => cause.is c
  | detailed _ cause => cause.is c
  | located _ cause => cause.is c
  | both first second => first.is c || second.is c
  | _ => false

def isCancelled : Fault → Bool
  | cancelled => true
  | within _ cause => cause.isCancelled
  | marked _ cause => cause.isCancelled
  | hinted _ cause => cause.isCancelled
  | detailed _ cause => cause.isCancelled
  | located _ cause => cause.isCancelled
  | both first second => first.isCancelled || second.isCancelled
  | _ => false

/-- Every hint, the innermost first. Combined failures have none. -/
def allHints : Fault → List Text
  | within _ cause => cause.allHints
  | marked _ cause => cause.allHints
  | hinted hint cause => cause.allHints ++ [hint]
  | detailed _ cause => cause.allHints
  | located _ cause => cause.allHints
  | _ => []

def hints (f : Fault) : List Text := (f.allHints.filter fun h => !h.isEmpty).eraseDups

def flatHints (f : Fault) : Text := Text.join "\n--\n" f.hints

def details : Fault → List Text
  | within _ cause => cause.details
  | marked _ cause => cause.details
  | hinted _ cause => cause.details
  | detailed detail cause => cause.details ++ [detail]
  | located _ cause => cause.details
  | _ => []

def root : Fault → Text
  | system _ _ reason => reason
  | within _ cause => cause.root
  | marked _ cause => cause.root
  | hinted _ cause => cause.root
  | detailed _ cause => cause.root
  | located _ cause => cause.root
  | f => f.message

def isAbridged : Fault → Bool
  | external _ => true
  | within _ cause => cause.isAbridged
  | marked _ cause => cause.isAbridged
  | hinted _ cause => cause.isAbridged
  | detailed _ cause => cause.isAbridged
  | located _ cause => cause.isAbridged
  | both first second => first.isAbridged || second.isAbridged
  | _ => false

def wrap (context : Text) (cause : Fault) : Fault := if context.isEmpty then cause else within context cause

def ofIo (context : Text) (cause : Fault) : Fault := marked .io (wrap context cause)

def ofParse (words : Text) : Fault := marked .parse (plain words)

def ofMalformedType (words : Text) : Fault := marked .malformedType (plain words)

def isStructural (f : Fault) : Bool := f.is .malformedType || f.is .malformedEnum

def combine : List Fault → Option Fault
  | [] => none
  | f :: rest => some (rest.foldl both f)

end Fault

end RpcBindings
