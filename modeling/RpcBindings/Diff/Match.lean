import RpcBindings.Text.Basic

/-!
# Matching lines

Two lists of lines are matched by taking the longest common run of lines, the earliest of those, and going on in the
lines before and behind it. In a list of two hundred lines or more, lines that make up more than a hundredth of it
do not start a match.
-/

namespace RpcBindings.Diff

/-- A common run: `size` lines from line `left` of one list and from line `right` of the other. -/
structure Match where
  left : Nat
  right : Nat
  size : Nat
  deriving DecidableEq, Repr

def placesFrom (line : Text) : Nat → List Text → List Nat
  | _, [] => []
  | i, l :: rest => if l = line then i :: placesFrom line (i + 1) rest else placesFrom line (i + 1) rest

def places (lines : List Text) (line : Text) : List Nat :=
  let found := placesFrom line 0 lines
  if lines.length ≥ 200 ∧ found.length > lines.length / 100 + 1 then [] else found

structure Pairing where
  left : Array Text
  right : Array Text
  places : Array (List Nat)

def Pairing.of (left right : List Text) : Pairing where
  left := left.toArray
  right := right.toArray
  places := (left.map (Diff.places right)).toArray

namespace Pairing

/-- The lengths of the common runs that end at line `i` and at each of its places, from those of the line before. -/
def runs (p : Pairing) (lowest bound : Nat) (before : List (Nat × Nat)) (i : Nat) : List (Nat × Nat) :=
  (((p.places[i]?).getD []).filter fun j => lowest ≤ j && j < bound).map fun j =>
    (j, (if j = 0 then 0 else (before.lookup (j - 1)).getD 0) + 1)

def better (i : Nat) (best : Match) (run : Nat × Nat) : Match :=
  if best.size < run.2 then ⟨i + 1 - run.2, run.1 + 1 - run.2, run.2⟩ else best

def longestFrom (p : Pairing) (lowest bound : Nat) : (count : Nat) → (i : Nat) → List (Nat × Nat) → Match → Match
  | 0, _, _, best => best
  | count + 1, i, before, best =>
    let now := p.runs lowest bound before i
    longestFrom p lowest bound count (i + 1) now (now.foldl (better i) best)

def growBack (p : Pairing) (leftFrom rightFrom : Nat) : (left right size : Nat) → Match
  | left + 1, right + 1, size =>
    if leftFrom ≤ left ∧ rightFrom ≤ right ∧ (p.left[left]?) = (p.right[right]?) then
      growBack p leftFrom rightFrom left right (size + 1)
    else ⟨left + 1, right + 1, size⟩
  | left, right, size => ⟨left, right, size⟩

def growOn (p : Pairing) (leftTo rightTo : Nat) : (fuel : Nat) → Match → Match
  | 0, m => m
  | fuel + 1, m =>
    if m.left + m.size < leftTo ∧ m.right + m.size < rightTo ∧
        (p.left[m.left + m.size]?) = (p.right[m.right + m.size]?) then
      growOn p leftTo rightTo fuel { m with size := m.size + 1 }
    else m

def longest (p : Pairing) (leftFrom leftTo rightFrom rightTo : Nat) : Match :=
  let m := p.longestFrom rightFrom rightTo (leftTo - leftFrom) leftFrom [] ⟨leftFrom, rightFrom, 0⟩
  p.growOn leftTo rightTo (leftTo + 1) (p.growBack leftFrom rightFrom m.left m.right m.size)

def matchesIn (p : Pairing) : (fuel : Nat) → (leftFrom leftTo rightFrom rightTo : Nat) → List Match
  | 0, _, _, _, _ => []
  | fuel + 1, leftFrom, leftTo, rightFrom, rightTo =>
    let m := p.longest leftFrom leftTo rightFrom rightTo
    if m.size = 0 then []
    else
      (if leftFrom < m.left ∧ rightFrom < m.right then matchesIn p fuel leftFrom m.left rightFrom m.right else []) ++
      [m] ++
      (if m.left + m.size < leftTo ∧ m.right + m.size < rightTo then
        matchesIn p fuel (m.left + m.size) leftTo (m.right + m.size) rightTo else [])

end Pairing

def joinRuns : Match → List Match → List Match
  | m, [] => if m.size = 0 then [] else [m]
  | m, n :: rest =>
    if m.left + m.size = n.left ∧ m.right + m.size = n.right then joinRuns { m with size := m.size + n.size } rest
    else if m.size = 0 then joinRuns n rest
    else m :: joinRuns n rest

def runs (left right : List Text) : List Match :=
  joinRuns ⟨0, 0, 0⟩ ((Pairing.of left right).matchesIn (left.length + 1) 0 left.length 0 right.length) ++
    [⟨left.length, right.length, 0⟩]

end RpcBindings.Diff
