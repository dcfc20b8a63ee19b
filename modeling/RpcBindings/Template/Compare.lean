import RpcBindings.Template.Value

/-!
# Comparing template values

Texts, truth values and numbers are compared by value; whole numbers of all widths compare with each other, but not with
doubles. Of all other values only those that can be no value, and members of enumerations, can be equal to something. A
result is equal to the result of the same procedure.
-/

namespace RpcBindings.Template

open Number (Binary)

/-- Where a double stands among the others: its distance from zero in steps of the least one. -/
def realRank : Binary → Int
  | .finite negative m e =>
    let size := m * Nat.pow 2 (e - Binary.leastExponent).toNat
    if negative then -(size : Int) else size
  | .infinite negative => if negative then -(Nat.pow 2 2200 : Int) else Nat.pow 2 2200
  | .undefined => 0

inductive Basic where
  | text (t : Text)
  | bool (b : Bool)
  | whole (n : Int)
  | real (x : Binary)
  | complex (re im : Binary)

namespace Value

def basic? : Value → Option Basic
  | text t => some (.text t)
  | bool b => some (.bool b)
  | number _ n => some (.whole n)
  | kind k => some (.whole (kindNumber k))
  | real x => some (.real x)
  | complex re im => some (.complex re im)
  | _ => none

inductive Form where
  | nothing
  | list
  | record
  | reference
  deriving DecidableEq

def form : Value → Form
  | absent => .nothing
  | context _ => .reference
  | result _ _ => .reference
  | index _ => .record
  | object _ => .record
  | signature _ => .record
  | param _ => .record
  | type _ => .record
  | enum _ => .record
  | member _ => .record
  | _ => .list

def isNone : Value → Bool
  | absent => true
  | noTexts => true
  | result _ none => true
  | _ => false

end Value

def Basic.equal? : Basic → Basic → Option Bool
  | .text a, .text b => some (a == b)
  | .bool a, .bool b => some (a == b)
  | .whole a, .whole b => some (a == b)
  | .real a, .real b => some (realRank a == realRank b)
  | .complex a b, .complex c d => some (realRank a == realRank c && realRank b == realRank d)
  | _, _ => none

def Basic.less? : Basic → Basic → Option Bool
  | .text a, .text b => some (decide (a < b))
  | .whole a, .whole b => some (decide (a < b))
  | .real a, .real b => some (decide (realRank a < realRank b))
  | _, _ => none

def equalParts? (a b : Value) : Option Bool :=
  if a.form ≠ b.form ∧ a.form ≠ .nothing ∧ b.form ≠ .nothing then none
  else if a.isNone || b.isNone then some (a.isNone == b.isNone)
  else
    match a, b with
    | .member m, .member n => some (m.name == n.name && m.value == n.value)
    | _, .member _ => some false
    | .result p (some _), .result q (some _) => some (p == q)
    | .context c, .context d => some (c == d)
    | .context _, .result _ _ => some false
    | .result _ _, .context _ => some false
    | _, _ => none

def equal? (a b : Value) : Option Bool :=
  match a.basic?, b.basic? with
  | some x, some y => x.equal? y
  | some _, none => if b.form = .nothing then some false else none
  | none, some _ => if a.form = .nothing then some false else none
  | none, none => equalParts? a b

/-- Whether a value is equal to one of others. The first that cannot be compared ends the search, unless one before it
is equal. -/
def equalAny? (a : Value) : List Value → Option Bool
  | [] => some false
  | b :: rest => (equal? a b).bind fun same => if same then some true else equalAny? a rest

def less? (a b : Value) : Option Bool := do (← a.basic?).less? (← b.basic?)

end RpcBindings.Template
