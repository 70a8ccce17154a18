import SymExec.Table

/-!
# Queues of jobs

Jobs wait in a queue until they are done, in the order in which they came or in that of a rank.
-/

namespace SymExec

structure Queueing (κ α : Type) where
  key : α → κ
  rank : Option (α → Nat) := none
  merges : Bool := false
  (merge? widen? : α → α → Option α := fun _ _ => none)

/-- Two jobs made one: widened where that is due and possible, else merged. -/
def Queueing.joint? {κ α : Type} (p : Queueing κ α) (old new : α) : Option α := p.widen? old new <|> p.merge? old new

structure JobQueue (κ α : Type) where
  waiting : List Nat := []
  entries : Table Nat (κ × α) := {}
  latest : Table κ Nat := {}
  fresh : Nat := 0

namespace JobQueue

variable {κ α : Type} [DecidableEq κ] (q : JobQueue κ α)

def jobs : List α := q.waiting.filterMap fun i => (q.entries.get? i).map (·.2)

def isEmpty (q : JobQueue κ α) : Bool := q.waiting.isEmpty

def lowerBound (test : Nat → Bool) (lo hi : Nat) : Nat :=
  if lo < hi then
    let mid := (lo + hi) / 2
    if test mid then lowerBound test (mid + 1) hi else lowerBound test lo mid
  else lo
termination_by hi - lo

variable (p : Queueing κ α)

def place (id : Nat) : JobQueue κ α :=
  match p.rank with
  | none => { q with waiting := q.waiting ++ [id] }
  | some rank =>
    let rankOf (i : Nat) := ((q.entries.get? i).map fun e => rank e.2).getD 0
    let n := lowerBound (fun i => q.waiting[i]?.any fun j => rankOf j < rankOf id) 0 q.waiting.length
    { q with waiting := q.waiting.take n ++ id :: q.waiting.drop n }

variable (j : α)

def addNew : JobQueue κ α :=
  { q with
    entries := q.entries.set q.fresh (p.key j, j)
    latest := q.latest.set (p.key j) q.fresh
    fresh := q.fresh + 1 : JobQueue κ α }.place p q.fresh

/-- What a job can be made one with: the latest entry with its key, and the job that they make. -/
def fold? : Option (Nat × α) := do
  let id ← if p.merges then q.latest.get? (p.key j) else none
  let (_, old) ← q.entries.get? id
  return (id, ← p.joint? old j)

def insert : JobQueue κ α :=
  match q.fold? p j with
  | none => q.addNew p j
  | some (id, joint) =>
    { q with
      waiting := q.waiting.eraseP fun i => (q.entries.get? i).any (·.1 = p.key j)
      entries := q.entries.set id (p.key j, joint) : JobQueue κ α }.place p id

def take? : Option (α × JobQueue κ α) :=
  match q.waiting with
  | [] => none
  | id :: rest =>
    (q.entries.get? id).map fun (_, j) =>
      let latest := q.latest.erase (p.key j)
      let entries := if id ∈ rest || id ∈ latest.values then q.entries else q.entries.erase id
      (j, { q with waiting := rest, entries, latest })

def has (k : κ) : Bool := (q.latest.get? k).isSome

end JobQueue

end SymExec
