import RpcBindings.Json.Key
import RpcBindings.Json.Piece
import RpcBindings.Json.Skip
import RpcBindings.Json.Form

/-!
# Reading JSON

The reader is led by a grammar: it knows at every place which form a value has, and passes over members that the grammar
does not name. It takes one byte at a time and keeps the containers that are still open on a stack, so that deep
documents need no deep recursion. A zero byte behind the value ends the text.
-/

namespace RpcBindings.Json

inductive Frame (ρ : Type) where
  | record (r : ρ) (members : List (Text × Json)) (due : Option Text)
  | table (r : ρ) (members : List (Text × Json)) (due : Option Text)
  | list (r : ρ) (items : List Json)

inductive Role where
  | name
  | value
  deriving DecidableEq

/-- Where the reader stands: before, in or behind the named part of a value. -/
inductive Mode (ρ : Type) where
  | value (form : Form ρ)
  | opened
  | name
  | colon (form : Option (Form ρ))
  | more
  | text (role : Role) (q : Quoted)
  | word (role : Role) (due : Text) (v : Json)
  | digits (read : Text)
  | key (k : Key (Form ρ))
  | skip (s : Skip)
  | done (v : Json)
  | ended (v : Json)

structure Reader (ρ : Type) where
  stack : List (Frame ρ)
  depth : Nat
  mode : Mode ρ

namespace Reader

variable {ρ : Type}

def turn (s : Reader ρ) (mode : Mode ρ) : Option (Reader ρ) := some { s with mode }

def deliver (s : Reader ρ) (v : Json) : Option (Reader ρ) :=
  match s.stack with
  | [] => s.turn (.done v)
  | .record r members (some field) :: stack =>
    some { s with stack := .record r ((field, v) :: members) none :: stack, mode := .more }
  | .table r members (some name) :: stack =>
    some { s with stack := .table r ((name, v) :: members) none :: stack, mode := .more }
  | .list r items :: stack => some { s with stack := .list r (v :: items) :: stack, mode := .more }
  | _ => none

def deliverName (s : Reader ρ) (name : Text) : Option (Reader ρ) :=
  match s.stack with
  | .table r members none :: stack =>
    some { s with stack := .table r members (some name) :: stack, mode := .colon (some (.record r)) }
  | _ => none

def deliverAs (s : Reader ρ) : Role → Json → Option (Reader ρ)
  | .value, v => s.deliver v
  | .name, .string t => s.deliverName t
  | .name, _ => s.deliverName []

def openFrame (s : Reader ρ) (frame : Frame ρ) : Option (Reader ρ) :=
  if s.depth < maxDepth then some ⟨frame :: s.stack, s.depth + 1, .opened⟩ else none

def close (s : Reader ρ) (b : UInt8) : Option (Reader ρ) :=
  match s.stack with
  | .record _ members none :: stack =>
    if b = 125 then deliver { s with stack, depth := s.depth - 1 } (.object members.reverse) else none
  | .table _ members none :: stack =>
    if b = 125 then deliver { s with stack, depth := s.depth - 1 } (.object members.reverse) else none
  | .list _ items :: stack =>
    if b = 93 then deliver { s with stack, depth := s.depth - 1 } (.array items.reverse) else none
  | _ => none

def startNull (s : Reader ρ) (role : Role) : Option (Reader ρ) := s.turn (.word role "ull" .null)

def startValue (s : Reader ρ) (form : Form ρ) (b : UInt8) : Option (Reader ρ) :=
  match form with
  | .text =>
    if b = 34 then s.turn (.text .value (.plain []))
    else if b = 110 then s.startNull .value
    else none
  | .flag =>
    if b = 116 then s.turn (.word .value "rue" (.bool true))
    else if b = 102 then s.turn (.word .value "alse" (.bool false))
    else if b = 110 then s.startNull .value
    else none
  | .number =>
    if b = 48 then s.deliver (.number [48])
    else if Text.isDigit b then s.turn (.digits [b])
    else if b = 110 then s.startNull .value
    else none
  | .record r =>
    if b = 123 then s.openFrame (.record r [] none)
    else if b = 110 then s.startNull .value
    else none
  | .table r =>
    if b = 123 then s.openFrame (.table r [] none)
    else if b = 110 then s.startNull .value
    else none
  | .list r =>
    if b = 91 then s.openFrame (.list r [])
    else if b = 110 then s.startNull .value
    else none

def startName (g : Grammar ρ) (s : Reader ρ) (b : UInt8) : Option (Reader ρ) :=
  match s.stack with
  | .record r _ _ :: _ => if b = 34 then s.turn (.key (Key.start (g r))) else none
  | .table _ _ _ :: _ =>
    if b = 34 then s.turn (.text .name (.plain []))
    else if b = 110 then s.startNull .name
    else none
  | _ => none

def startOpened (g : Grammar ρ) (s : Reader ρ) (b : UInt8) : Option (Reader ρ) :=
  if b = 125 ∨ b = 93 then s.close b
  else match s.stack with
    | .list r _ :: _ => s.startValue (.record r) b
    | _ => s.startName g b

def takeMore (s : Reader ρ) (b : UInt8) : Option (Reader ρ) :=
  if isSpace b then s.turn .more
  else if b = 44 then
    match s.stack with
    | .list r _ :: _ => s.turn (.value (.record r))
    | _ => s.turn .name
  else s.close b

def takeDone (s : Reader ρ) (v : Json) (b : UInt8) : Option (Reader ρ) :=
  if isSpace b then s.turn (.done v)
  else if b = 0 then s.turn (.ended v)
  else none

def takeAfter (s : Reader ρ) (b : UInt8) : Option (Reader ρ) :=
  match s.mode with
  | .done v => s.takeDone v b
  | .more => s.takeMore b
  | _ => none

def takeField (s : Reader ρ) (field : Option (Text × Form ρ)) : Option (Reader ρ) :=
  match s.stack, field with
  | .record r members _ :: stack, some (name, form) =>
    some { s with stack := .record r members (some name) :: stack, mode := .colon (some form) }
  | .record _ _ _ :: _, none => s.turn (.colon none)
  | _, _ => none

def takeSkip (s : Reader ρ) (b : UInt8) : Skip → Option (Reader ρ)
  | .ended => s.turn .more
  | .endedBefore => s.takeMore b
  | skip => s.turn (.skip skip)

def take (g : Grammar ρ) (s : Reader ρ) (b : UInt8) : Option (Reader ρ) :=
  match s.mode with
  | .value form => if isSpace b then some s else s.startValue form b
  | .opened => if isSpace b then some s else s.startOpened g b
  | .name => if isSpace b then some s else s.startName g b
  | .colon form =>
    if isSpace b then some s
    else if b = 58 then
      match form with
      | some form => s.turn (.value form)
      | none => s.turn (.skip .value)
    else none
  | .more => s.takeMore b
  | .text role q =>
    match q.step b with
    | some (.closed t) => s.deliverAs role (.string t)
    | some q => s.turn (.text role q)
    | none => none
  | .word role due v =>
    match due with
    | [] => none
    | [d] => if b = d then s.deliverAs role v else none
    | d :: due => if b = d then s.turn (.word role due v) else none
  | .digits read =>
    if Text.isDigit b then s.turn (.digits (b :: read))
    else (s.deliver (.number read.reverse)).bind fun s => s.takeAfter b
  | .key k =>
    match k.step b with
    | some (.closed field) => s.takeField field
    | some k => s.turn (.key k)
    | none => none
  | .skip skip => (skip.step s.depth b).bind (s.takeSkip b)
  | .done v => s.takeDone v b
  | .ended _ => some s

def takeSolid (g : Grammar ρ) (s : Reader ρ) (b : UInt8) : Option (Reader ρ) := if b = 0 then none else s.take g b

/-- Takes a byte. When a code unit leaves no field name its digits are read again, as bytes of a lost key. A zero byte
stands only behind the value, or in a key as part of an escape that may still be passed over. -/
def step (g : Grammar ρ) (s : Reader ρ) (b : UInt8) : Option (Reader ρ) :=
  match s.mode with
  | .key (.unit candidates length digits) =>
    if digits.length < 3 then s.take g b
    else
      match Key.narrowUnit candidates (Key.unitValue (b :: digits)) with
      | [] => (b :: digits).reverse.foldlM (takeSolid g) { s with mode := .key .lost }
      | left => s.turn (.key (.matching left (length + 1)))
  | .key (.escape _ _) => s.take g b
  | .key (.idle _ _) => s.take g b
  | .done _ => s.take g b
  | .ended _ => some s
  | _ => s.takeSolid g b

def finish (s : Reader ρ) : Option Json :=
  match s.mode with
  | .done v => some v
  | .ended v => some v
  | .digits read => if s.stack.isEmpty then some (.number read.reverse) else none
  | _ => none

end Reader

def parse? {ρ : Type} (g : Grammar ρ) (form : Form ρ) (t : Text) : Option Json :=
  (t.foldlM (Reader.step g) ⟨[], 0, .value form⟩).bind Reader.finish

end RpcBindings.Json
