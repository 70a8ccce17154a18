import SymExec.Word

/-!
# Segments

Ranges of addresses with what they hold, in order.
-/

namespace SymExec

structure Segment where
  (start stop : Nat)
  sort : String
deriving DecidableEq

namespace Segment

variable (s : Segment)

def size : Int := (s.stop : Int) - s.start

def holds (a : Nat) : Bool := s.start ≤ a && a < s.stop

def fuse : List Segment → List Segment
  | [] => []
  | s :: rest =>
    match fuse rest with
    | [] => [s]
    | t :: more => if s.sort = t.sort then { t with start := s.start } :: more else s :: t :: more

/-- What becomes of two segments of different sorts that overlap, the first listed before the second. -/
def cut (prev next : Segment) (shared : String) : List Segment :=
  if next.start < prev.start then
    [⟨next.start, prev.start, next.sort⟩, ⟨prev.start, prev.stop, shared⟩] ++
      (if next.stop < prev.stop then [⟨next.stop, prev.stop, prev.sort⟩]
       else if next.stop > prev.stop then [⟨prev.stop, next.stop, next.sort⟩] else [])
  else
    (if next.start > prev.start then [⟨prev.start, next.start, prev.sort⟩] else []) ++
      (if next.stop > prev.stop then [⟨next.start, prev.stop, shared⟩, ⟨prev.stop, next.stop, next.sort⟩]
       else if next.stop < prev.stop then [⟨next.start, next.stop, shared⟩, ⟨next.stop, prev.stop, prev.sort⟩]
       else [⟨next.start, next.stop, shared⟩])

end Segment

/-- Which of two overlapping neighbours was there before: when going forward the second, when going backward the first. -/
inductive Sweep where
  | forward | backward
deriving DecidableEq

structure Segments where
  list : List Segment := []
  taken : Int := 0

namespace Segments

def isEmpty (s : Segments) : Bool := s.list.isEmpty

variable (list : List Segment)

def searchFrom (addr : Nat) : Nat → Nat → Nat → Nat
  | 0, lo, _ => lo
  | fuel + 1, lo, hi =>
    if lo = hi then lo
    else
      let mid := (lo + hi) / 2
      match list[mid]? with
      | none => lo
      | some seg =>
        if addr < seg.start then searchFrom addr fuel lo mid
        else if addr ≥ seg.stop then searchFrom addr fuel (mid + 1) hi
        else mid

variable (s : Segments) (addr : Nat)

def search : Nat := searchFrom s.list addr s.list.length 0 s.list.length

def settle (pos : Nat) (dir : Sweep) : Option (Nat × Segments) := do
  let first := match dir with
    | .forward => some pos
    | .backward => if pos = 0 then none else some (pos - 1)
  let i ← first
  let prev ← s.list[i]?
  let next ← s.list[i + 1]?
  if next.start > prev.stop then none
  else if next.sort = prev.sort then
    let whole := ⟨min prev.start next.start, max prev.stop next.stop, next.sort⟩
    return (i, { list := s.list.take i ++ whole :: s.list.drop (i + 2), taken := s.taken - (next.size + prev.size - whole.size) })
  else if next.start = prev.stop then none
  else
    let parts := Segment.fuse (Segment.cut prev next (match dir with | .forward => prev.sort | .backward => next.sort))
    let change := (parts.map Segment.size).sum - (prev.size + next.size)
    return (match dir with | .forward => i + parts.length | .backward => i,
      { list := s.list.take i ++ parts ++ s.list.drop (i + 2), taken := s.taken + change })

def settleForward : Nat → Nat → Segments → Nat × Segments
  | 0, pos, s => (pos, s)
  | fuel + 1, pos, s =>
    if pos ≥ s.list.length then (pos, s)
    else
      match s.settle pos .forward with
      | none => (pos, s)
      | some (pos, s) => settleForward fuel pos s

def settleBackward : Nat → Nat → Segments → Segments
  | 0, _, s => s
  | fuel + 1, pos, s =>
    match s.settle pos .backward with
    | none => s
    | some (pos, s) => settleBackward fuel pos s

def insertAt (seg : Segment) (idx : Nat) : Segments :=
  let s : Segments := { list := s.list.take idx ++ seg :: s.list.drop idx, taken := s.taken + seg.size }
  let fuel := 4 * s.list.length + 4
  let (pos, s) := settleForward fuel idx s
  settleBackward fuel (if pos ≥ s.list.length then s.list.length - 1 else pos) s

/-- The place for a segment: before all segments that start where it ends or later. -/
def placeBefore (stop : Nat) : Nat → Nat
  | 0 => 0
  | idx + 1 =>
    match list[idx]? with
    | some before => if stop ≤ before.start then placeBefore stop idx else idx + 1
    | none => idx + 1

def occupy (size : Int) (sort : String) : Segments :=
  if size ≤ 0 then s
  else
    let seg := ⟨addr, addr + size.toNat, sort⟩
    if s.list.isEmpty then { list := [seg], taken := s.taken + size }
    else s.insertAt seg (placeBefore s.list seg.stop (s.search addr))

def segmentAt? : Option Segment := do
  let idx := s.search addr
  let seg ← s.list[idx]?
  if seg.holds addr then return seg
  if idx = 0 then none
  let before ← s.list[idx - 1]?
  if addr < before.stop then return before else none

def isOccupied : Bool := (s.segmentAt? addr).isSome

def sortAt? : Option String := (s.segmentAt? addr).map (·.sort)

def runEnd : Segment → List Segment → Nat
  | s, [] => s.stop
  | s, t :: rest => if s.stop = t.start then runEnd t rest else s.stop

def nextFree : Nat :=
  match s.list.drop (s.search addr) with
  | seg :: rest => if seg.holds addr then runEnd seg rest else addr
  | [] => addr

end Segments

end SymExec
