import Std.Data.HashMap
import SymExec.Term

/-!
# Clauses, circuits and solvers

A search for a truth assignment by unit propagation over two watched literals, clause learning at the first unique implication point
and decisions on the variable most recently seen in a conflict.
-/

namespace SymExec

structure Sat where
  store : Array Nat := #[0]
  watches : Array (Array Nat) := #[#[], #[]]
  /-- For each literal 1 if it is true, 2 if it is false and 0 if it is open. -/
  value : Array Nat := #[1, 2]
  (level reason : Array Nat := #[0])
  (trail marks : Array Nat := #[])
  head : Nat := 0
  saved : Array Bool := #[true]
  /-- Variables in the order of their last part in a conflict, as a doubly linked list with time stamps. -/
  (older newer stamp : Array Nat := #[0])
  (newest cursor clock : Nat := 0)
  seen : Array Bool := #[false]
  conflict : Nat := 0
  refuted : Bool := false

namespace Sat

def budget : Nat := 2 ^ 40

variable (s : Sat) (l : Nat)

@[inline] def valueOf : Nat := s.value.getD l 0
@[inline] def levelOf : Nat := s.level.getD (l / 2) 0
@[inline] def litAt (i : Nat) : Nat := s.store.getD i 0
@[inline] def clauseSize (c : Nat) : Nat := s.store.getD (c - 1) 0
@[inline] def negate : Nat := l ^^^ 1

def fresh : Nat × Sat :=
  let v := s.level.size
  (2 * v,
   { s with
     watches := (s.watches.push #[]).push #[]
     value := (s.value.push 0).push 0
     level := s.level.push 0
     reason := s.reason.push 0
     saved := s.saved.push false
     older := s.older.push s.newest
     newer := (s.newer.setIfInBounds s.newest v).push 0
     stamp := s.stamp.push (s.clock + 1)
     clock := s.clock + 1
     newest := v
     cursor := v
     seen := s.seen.push false })

@[noinline] def assign (l reason : Nat) : Sat :=
  { s with
    value := (s.value.setIfInBounds l 1).setIfInBounds (negate l) 2
    level := s.level.setIfInBounds (l / 2) s.marks.size
    reason := s.reason.setIfInBounds (l / 2) reason
    trail := s.trail.push l }

@[noinline] def watch (l c : Nat) : Sat := { s with watches := s.watches.modify l (·.push c) }

/-- The first place from `i` on, of `n` places, whose literal is not false; 0 if there is none. -/
def openPlace : Nat → Nat → Nat
  | 0, _ => 0
  | n + 1, i => if s.valueOf (s.litAt i) = 2 then openPlace n (i + 1) else i

@[noinline] def swapPlaces (i j : Nat) : Sat :=
  let a := s.litAt i
  let b := s.litAt j
  { s with store := (s.store.setIfInBounds i b).setIfInBounds j a }

/-- Visits the watchers `ws` of the false literal `l` from index `i` on; those that go on watching move to index `j`. -/
def visit (s : Sat) (l : Nat) (ws : Array Nat) (i j : Nat) : Nat → Sat × Array Nat × Nat
  | 0 => (s, ws, j)
  | n + 1 =>
    let c := ws.getD i 0
    let s := if s.litAt c = l then s.swapPlaces c (c + 1) else s
    let first := s.litAt c
    let vf := s.valueOf first
    if vf = 1 then visit s l (ws.setIfInBounds j c) (i + 1) (j + 1) n
    else
      let k := s.openPlace (s.clauseSize c - 2) (c + 2)
      if k ≠ 0 then
        let s := s.swapPlaces (c + 1) k
        visit (s.watch (s.litAt (c + 1)) c) l ws (i + 1) j n
      else
        let ws := ws.setIfInBounds j c
        if vf = 2 then visit { s with conflict := c } l ws (i + 1) (j + 1) n
        else visit (s.assign first c) l ws (i + 1) (j + 1) n

def propagate (s : Sat) : Nat → Sat
  | 0 => s
  | n + 1 =>
    if s.conflict ≠ 0 then s
    else if s.head < s.trail.size then
      let l := negate (s.trail.getD s.head 0)
      let ws := s.watches.getD l #[]
      let s := { s with head := s.head + 1, watches := s.watches.setIfInBounds l #[] }
      let (s, ws, j) := visit s l ws 0 0 ws.size
      let ws := ws.shrink j
      propagate { s with watches := s.watches.modify l (fun more => if more.isEmpty then ws else ws ++ more) } n
    else s

@[inline] def propagateAll : Sat := s.propagate (s.level.size + 1)

def unassign (s : Sat) : Nat → Sat
  | 0 => s
  | n + 1 =>
    let l := s.trail.back?.getD 0
    let v := l / 2
    let cursor := if s.stamp.getD s.cursor 0 < s.stamp.getD v 0 then v else s.cursor
    unassign { s with
      value := (s.value.setIfInBounds l 0).setIfInBounds (negate l) 0
      saved := s.saved.setIfInBounds v (l % 2 = 0)
      trail := s.trail.pop
      cursor } n

def backtrack (k : Nat) : Sat :=
  if k < s.marks.size then
    let start := s.marks.getD k 0
    let s := s.unassign (s.trail.size - start)
    { s with marks := s.marks.shrink k, head := min s.head start }
  else s

def bump (v : Nat) : Sat :=
  if s.newest = v then s else
  let o := s.older.getD v 0
  let n := s.newer.getD v 0
  let s := { s with
    newer := (s.newer.setIfInBounds o n).setIfInBounds v 0
    older := (s.older.setIfInBounds n o).setIfInBounds v s.newest }
  { s with
    newer := s.newer.setIfInBounds s.newest v
    newest := v
    clock := s.clock + 1
    stamp := s.stamp.setIfInBounds v (s.clock + 1)
    cursor := if s.valueOf (2 * v) = 0 then v else s.cursor }

/-- Marks the literals of a clause: those of the current level are counted, those of lower levels are collected. -/
def markClause (s : Sat) (i : Nat) (count : Nat) (learnt : Array Nat) : Nat → Sat × Nat × Array Nat
  | 0 => (s, count, learnt)
  | n + 1 =>
    let l := s.litAt i
    let v := l / 2
    if s.seen.getD v false || s.levelOf l = 0 then markClause s (i + 1) count learnt n
    else
      let here := decide (s.levelOf l = s.marks.size)
      let s := { s with seen := s.seen.setIfInBounds v true }
      if here then markClause s (i + 1) (count + 1) learnt n
      else markClause s (i + 1) count (learnt.push l) n

/-- Walks the trail down from index `i` to the first unique implication point, resolving on the way. -/
def resolve (s : Sat) (i count : Nat) (learnt met : Array Nat) : Nat → Sat × Array Nat × Array Nat
  | 0 => (s, learnt, met)
  | n + 1 =>
    let l := s.trail.getD i 0
    let v := l / 2
    if s.seen.getD v false then
      let met := met.push v
      if count ≤ 1 then (s, learnt.setIfInBounds 0 (negate l), met)
      else
        let r := s.reason.getD v 0
        let (s, count, learnt) := s.markClause (r + 1) (count - 1) learnt (s.clauseSize r - 1)
        resolve s (i - 1) count learnt met n
    else resolve s (i - 1) count learnt met n

/-- Whether all literals of a clause from place `i` on are marked or of level 0. -/
def covered : Nat → Nat → Bool
  | 0, _ => true
  | n + 1, i =>
    let l := s.litAt i
    (s.seen.getD (l / 2) false || s.levelOf l = 0) && covered n (i + 1)

/-- Whether the clause that forced a literal's negation follows from the other marked literals. -/
def redundant : Bool :=
  let r := s.reason.getD (l / 2) 0
  r ≠ 0 && s.covered (s.clauseSize r - 1) (r + 1)

variable (c : Array Nat)

def attach : Nat × Sat :=
  let place := s.store.size + 1
  let s := { s with store := (s.store.push c.size) ++ c }
  let s := s.watch (c.getD 0 0) place
  (place, s.watch (c.getD 1 0) place)

def highest : Nat :=
  (List.range c.size).foldl (fun best i =>
    if i ≤ 1 then 1 else if s.levelOf (c.getD best 0) < s.levelOf (c.getD i 0) then i else best) 1

/-- Learns from a conflict above level 0: adds the learnt clause, goes back and asserts its first literal. -/
def learn : Sat :=
  let c := s.conflict
  let (s, count, learnt) := s.markClause c 0 #[0] (s.clauseSize c)
  let (s, learnt, met) := s.resolve (s.trail.size - 1) count learnt #[] s.trail.size
  let marked := learnt
  let learnt := #[learnt.getD 0 0] ++ (learnt.extract 1 learnt.size).filter fun l => !s.redundant l
  let s := met.foldl bump s
  let s := { s with
    seen := met.foldl (fun a v => a.setIfInBounds v false)
      (marked.foldl (fun a l => a.setIfInBounds (l / 2) false) s.seen)
    conflict := 0 }
  if learnt.size ≤ 1 then (s.backtrack 0).assign (learnt.getD 0 0) 0
  else
    let k := s.highest learnt
    let learnt := learnt.swapIfInBounds 1 k
    let s := s.backtrack (s.levelOf (learnt.getD 1 0))
    let (place, s) := s.attach learnt
    s.assign (learnt.getD 0 0) place

def openVariable (v : Nat) : Nat → Nat
  | 0 => 0
  | n + 1 => if v = 0 then 0 else if s.valueOf (2 * v) = 0 then v else openVariable (s.older.getD v 0) n

@[inline] def decideOn : Sat := { s with marks := s.marks.push s.trail.size }.assign l 0

def search (s : Sat) (assumptions : Array Nat) (restart : Nat) : Nat → Bool × Sat
  | 0 => (false, s)
  | n + 1 =>
    let s := s.propagateAll
    if s.conflict ≠ 0 then
      if s.marks.isEmpty then (false, { s with refuted := true, conflict := 0 })
      else
        let s := s.learn
        if restart = 0 then search (s.backtrack 0) assumptions (100 + s.clock / 100) n
        else search s assumptions (restart - 1) n
    else if h : s.marks.size < assumptions.size then
      let l := assumptions[s.marks.size]
      if s.valueOf l = 1 then search { s with marks := s.marks.push s.trail.size } assumptions restart n
      else if s.valueOf l = 2 then (false, s)
      else search (s.decideOn l) assumptions restart n
    else
      let v := s.openVariable s.cursor s.level.size
      if v = 0 then (true, s)
      else
        let s := { s with cursor := v }
        search (s.decideOn (if s.saved.getD v false then 2 * v else 2 * v + 1)) assumptions restart n

def add : Sat :=
  if s.refuted || c.any (fun l => s.valueOf l = 1) then s else
  let c := c.filter fun l => s.valueOf l ≠ 2
  if c.isEmpty then { s with refuted := true }
  else if c.size = 1 then s.assign (c.getD 0 0) 0
  else (s.attach c).2

def solve (assumptions : Array Nat) : Option (Array Nat) × Sat :=
  if s.refuted then (none, s) else
  match s.search assumptions 100 budget with
  | (true, s) => (some s.value, s.backtrack 0)
  | (false, s) => (none, s.backtrack 0)

end Sat

/-! ## Circuits of terms

A term becomes a circuit of gates, least significant bit first, and each gate becomes clauses that define its output. -/

open Array

structure Circuit where
  sat : Sat := {}
  gates : Std.HashMap (Nat × Nat × Nat) Nat := {}
  xors : Std.HashMap (Nat × Nat) Nat := {}
  muxes : Std.HashMap (Nat × Nat × Nat) Nat := {}
  terms : Std.HashMap Bits (Array Nat) := {}
  tests : Std.HashMap Cond Nat := {}
  symbols : Std.HashMap String (Array Nat) := {}

abbrev Wiring := StateM Circuit

namespace Circuit

open Sat (negate)

/-! ### Gates -/

def fresh : Wiring Nat := fun c =>
  let sat := c.sat
  let (l, sat) := sat.fresh
  (l, { c with sat })

variable (ls : Array Nat)

def clause : Wiring Unit := fun c => ((), { c with sat := c.sat.add ls })

def freshWord (w : Nat) : Wiring (Array Nat) := (range w).mapM fun _ => fresh

def constant (b : Bool) : Nat := if b then 0 else 1

variable (a b : Nat)

/-- The gate that one input of a value decides: false for `and`, true for `or`. -/
def gate (off : Nat) : Wiring Nat := do
  if a = off || b = off || a = negate b then return off
  if a = negate off then return b
  if b = negate off || a = b then return a
  let key := (off, min a b, max a b)
  match (← get).gates[key]? with
  | some g => return g
  | none =>
    let g ← fresh
    let on (x : Nat) := if off = 1 then x else negate x
    clause #[on (negate g), on a]
    clause #[on (negate g), on b]
    clause #[on g, on (negate a), on (negate b)]
    modify fun c => { c with gates := c.gates.insert key g }
    return g

def and : Wiring Nat := gate a b 1

def or : Wiring Nat := gate a b 0

def xor : Wiring Nat := do
  let sign := (a % 2) ^^^ (b % 2)
  let a := a / 2 * 2
  let b := b / 2 * 2
  if a = b then return 1 ^^^ sign
  if a = 0 then return (negate b) ^^^ sign
  if b = 0 then return (negate a) ^^^ sign
  let key := if a < b then (a, b) else (b, a)
  match (← get).xors[key]? with
  | some g => return g ^^^ sign
  | none =>
    let g ← fresh
    clause #[negate g, a, b]
    clause #[negate g, negate a, negate b]
    clause #[g, negate a, b]
    clause #[g, a, negate b]
    modify fun c => { c with xors := c.xors.insert key g }
    return g ^^^ sign

def mux (s a b : Nat) : Wiring Nat := do
  if s = 0 || a = b then return a
  if s = 1 then return b
  if a = negate b then return negate (← xor s a)
  if a = 0 || a = s then return ← or s b
  if a = 1 || a = negate s then return ← and (negate s) b
  if b = 0 || b = negate s then return ← or (negate s) a
  if b = 1 || b = s then return ← and s a
  let (s, a, b) := if s % 2 = 0 then (s, a, b) else (negate s, b, a)
  match (← get).muxes[(s, a, b)]? with
  | some g => return g
  | none =>
    let g ← fresh
    clause #[negate s, negate a, g]
    clause #[negate s, a, negate g]
    clause #[s, negate b, g]
    clause #[s, b, negate g]
    clause #[negate a, negate b, g]
    clause #[a, b, negate g]
    modify fun c => { c with muxes := c.muxes.insert (s, a, b) g }
    return g

def orAll : Wiring Nat := ls.foldlM or 1

/-! ### Words -/

def ofWord (w v : Nat) : Array Nat := (range w).map fun i => constant (v.testBit i)

variable (a : Array Nat)

def notWord : Array Nat := a.map negate

def zipWord (f : Nat → Nat → Wiring Nat) (a b : Array Nat) : Wiring (Array Nat) := (a.zip b).mapM fun (x, y) => f x y

def muxWord (s : Nat) (a b : Array Nat) : Wiring (Array Nat) := zipWord (mux s) a b

variable (a b : Array Nat)

def addWord (carry : Nat) : Wiring (Array Nat × Nat) :=
  (a.zip b).foldlM (fun (sum, carry) (x, y) => do
    let half ← xor x y
    let s ← xor half carry
    let c ← mux half carry x
    return (sum.push s, c)) (#[], carry)

def negWord : Wiring (Array Nat) := return (← addWord (notWord a) (ofWord a.size 0) 0).1

def subWord : Wiring (Array Nat) := return (← addWord a (notWord b) 0).1

def shiftUp (n : Nat) : Array Nat := (range a.size).map fun i => if i < n then 1 else a.getD (i - n) 1

def mulWord : Wiring (Array Nat) := do
  let constants := fun x => (x.filter (· ≤ 1)).size
  let (a, b) := if constants a < constants b || constants a = constants b && b.getD 0 0 < a.getD 0 0 then (b, a) else (a, b)
  (List.range a.size).foldlM (fun acc i => do
    let s := a.getD i 1
    if s = 1 then return acc
    let row ← (shiftUp b i).mapM (and s)
    return (← addWord acc row 1).1) (ofWord a.size 0)

def atLeast : Wiring Nat := (a.zip b).foldlM (fun carry (x, y) => do mux (← xor x (negate y)) carry x) 0

def atLeastSigned : Wiring Nat := do
  let flip := fun x => x.modify (x.size - 1) negate
  atLeast (flip a) (flip b)

def equalWord : Wiring Nat := (a.zip b).foldlM (fun acc (x, y) => do and acc (negate (← xor x y))) 0

def divWord (a d : Array Nat) : Wiring (Array Nat × Array Nat) := do
  let wide := d.push 1
  let (q, r) ← (List.range a.size).foldlM (fun (q, r) i => do
    let r := #[a.getD (a.size - 1 - i) 1] ++ r
    let (diff, ge) ← addWord r (notWord wide) 0
    let r ← muxWord ge diff r
    return (q.push ge, r.pop)) ((#[] : Array Nat), ofWord a.size 0)
  return (q.reverse, r)

def divSigned (a d : Array Nat) : Wiring (Array Nat × Array Nat) := do
  let sa := a.back?.getD 1
  let sd := d.back?.getD 1
  let (q, r) ← divWord (← muxWord sa (← negWord a) a) (← muxWord sd (← negWord d) d)
  return (← muxWord (← xor sa sd) (← negWord q) q, ← muxWord sa (← negWord r) r)

variable (move : Nat → Array Nat → Array Nat) (a amount : Array Nat)

/-- The word moved by `amount`, `move k` being a move by `k`, one layer for each bit of the amount below `layers`. -/
def moveBy (layers : Nat) : Wiring (Array Nat) :=
  (List.range layers).foldlM (fun acc i => muxWord (amount.getD i 1) (move (2 ^ i) acc) acc) a

def shiftWord (fill : Nat) (a amount : Array Nat) : Wiring (Array Nat) := do
  let layers := Nat.log2 a.size + 1
  let moved ← moveBy move a amount layers
  let far ← orAll (amount.extract layers amount.size)
  moved.mapM fun l => mux far fill l

def shiftDown (fill : Nat) (n : Nat) (a : Array Nat) : Array Nat := (range a.size).map fun i => a.getD (i + n) fill

def rotateUp (n : Nat) (a : Array Nat) : Array Nat := (range a.size).map fun i => a.getD ((i + a.size - n % a.size) % a.size) 1

def rotateWord : Wiring (Array Nat) := do
  let amount ← if a.size.isPowerOfTwo then pure amount
    else return (← divWord amount (ofWord amount.size a.size)).2
  moveBy move a amount (if a.size.isPowerOfTwo then Nat.log2 a.size else Nat.log2 a.size + 1)

def reverseWord : Array Nat :=
  let n := a.size / 8
  (range a.size).map fun i => if i < 8 * n then a.getD (8 * (n - 1 - i / 8) + i % 8) 1 else 1

def unary (op : UnOp) (a : Array Nat) : Wiring (Array Nat) :=
  match op with
  | .not => return notWord a
  | .neg => negWord a
  | .reverse => return reverseWord a
  | .slice hi lo => return (range (hi + 1 - lo)).map fun i => a.getD (lo + i) 1
  | .zext n => return a ++ .replicate n 1
  | .sext n => return a ++ .replicate n (a.back?.getD 1)

def binary (op : BinOp) (a b : Array Nat) : Wiring (Array Nat) :=
  match op with
  | .add => return (← addWord a b 1).1
  | .sub => subWord a b
  | .mul => mulWord a b
  | .udiv => return (← divWord a b).1
  | .urem => return (← divWord a b).2
  | .sdiv => return (← divSigned a b).1
  | .srem => return (← divSigned a b).2
  | .and => zipWord and a b
  | .or => zipWord or a b
  | .xor => zipWord xor a b
  | .shl => shiftWord (fun n x => shiftUp x n) 1 a b
  | .lshr => shiftWord (shiftDown 1) 1 a b
  | .ashr =>
    let sign := a.back?.getD 1
    shiftWord (shiftDown sign) sign a b
  | .rotl => rotateWord rotateUp a b
  | .rotr => rotateWord (fun n x => rotateUp (x.size - n % x.size) x) a b
  | .concat => return b ++ a

def compare (op : CmpOp) (a b : Array Nat) : Wiring Nat :=
  match op with
  | .eq => equalWord a b
  | .ule => atLeast b a
  | .ult => return negate (← atLeast a b)
  | .sle => atLeastSigned b a
  | .slt => return negate (← atLeastSigned a b)

/-! ### Terms -/

mutual

def bits (t : Bits) : Wiring (Array Nat) := do
  match (← get).terms[t]? with
  | some ls => return ls
  | none =>
    let ls ← match t with
      | .lit w v => pure (ofWord w v)
      | .sym n w => do
        match (← get).symbols[n]? with
        | some ls => pure ls
        | none =>
          let ls ← freshWord w
          modify fun c => { c with symbols := c.symbols.insert n ls }
          pure ls
      | .un op a => do unary op (← bits a)
      | .bin op a b => do
        let x ← bits a
        binary op x (← bits b)
      | .ite c a b => do
        let s ← cond c
        let x ← bits a
        muxWord s x (← bits b)
      | .ofFloat how f => freshWord (how.width f.sort)
    modify fun c => { c with terms := c.terms.insert t ls }
    return ls

def cond (t : Cond) : Wiring Nat := do
  match (← get).tests[t]? with
  | some l => return l
  | none =>
    let l ← match t with
      | .lit b => pure (constant b)
      | .cmp op a b => do
        let x ← bits a
        compare op x (← bits b)
      | .fcmp .. => fresh
      | .not a => return negate (← cond a)
      | .and a b => do
        let x ← cond a
        and x (← cond b)
      | .or a b => do
        let x ← cond a
        or x (← cond b)
    modify fun c => { c with tests := c.tests.insert t l }
    return l

end

/-- Requires conditions, of which the oldest comes last in the list and first in the circuit. -/
def require (cs : List Cond) : Wiring Unit := cs.reverse.forM fun c => do clause #[← cond c]

def solve (assumptions : Array Nat) : Wiring (Option (Array Nat)) := fun c =>
  let sat := c.sat
  let c := { c with sat := {} }
  let (r, sat) := sat.solve assumptions
  (r, { c with sat })

def readWord (values : Array Nat) (ls : Array Nat) : Nat := ls.foldr (fun l n => 2 * n + (if values.getD l 0 = 1 then 1 else 0)) 0

def isWord (v : Nat) : Array Nat := ls.mapIdx fun i l => if v.testBit i then l else negate l

def enumerate : Nat → Wiring (List Nat)
  | 0 => return []
  | n + 1 => do
    match ← solve #[] with
    | none => return []
    | some values =>
      let v := readWord values ls
      clause ((isWord ls v).map negate)
      return v :: (← enumerate n)

def extreme (want : Bool) (ls : Array Nat) (fixed best : Array Nat) : Nat → Wiring (Array Nat)
  | 0 => return best
  | i + 1 => do
    let l := ls.getD i 1
    let l := if want then l else negate l
    if best.getD l 0 = 1 then extreme want ls (fixed.push l) best i
    else
      match ← solve (fixed.push l) with
      | some better => extreme want ls (fixed.push l) better i
      | none => extreme want ls (fixed.push (negate l)) best i

end Circuit

end SymExec

/-! ## Solvers

What the executor asks about a list of conditions. -/

namespace SymExec

structure Solver where
  model? : List Cond → Option Model
  values : List Cond → Bits → Nat → List Nat
  (least greatest : List Cond → Bits → Option Nat)

def Model.Meets (m : Model) (cs : List Cond) : Prop := ∀ c ∈ cs, c.eval m = true

instance (m : Model) (cs : List Cond) : Decidable (m.Meets cs) := by
  unfold Model.Meets
  infer_instance

namespace Solver

def satisfiable (S : Solver) (cs : List Cond) : Bool := (S.model? cs).isSome

def CanBe (cs : List Cond) (e : Bits) (v : Nat) : Prop := ∃ m : Model, m.Meets cs ∧ e.eval m = v

/-- A solver whose answers are right: it tells satisfiable conditions from others and its models meet them, its values can
be taken, are all different and are fewer than asked for only if there are no more, and its extremes are reached and not
passed. -/
structure Exact (S : Solver) : Prop where
  model_meets (cs : List Cond) (m : Model) : S.model? cs = some m → m.Meets cs
  satisfiable_iff (cs : List Cond) : S.satisfiable cs = true ↔ ∃ m : Model, m.Meets cs
  values_nodup (cs : List Cond) (e : Bits) (n : Nat) : (S.values cs e n).Nodup
  values_length (cs : List Cond) (e : Bits) (n : Nat) : (S.values cs e n).length ≤ n
  canBe_of_mem (cs : List Cond) (e : Bits) (n v : Nat) : v ∈ S.values cs e n → CanBe cs e v
  mem_of_canBe (cs : List Cond) (e : Bits) (n v : Nat) : (S.values cs e n).length < n → CanBe cs e v → v ∈ S.values cs e n
  least_eq (cs : List Cond) (e : Bits) (v : Nat) : S.least cs e = some v ↔ CanBe cs e v ∧ ∀ u, CanBe cs e u → v ≤ u
  greatest_eq (cs : List Cond) (e : Bits) (v : Nat) : S.greatest cs e = some v ↔ CanBe cs e v ∧ ∀ u, CanBe cs e u → u ≤ v

def extremeOf (want : Bool) (cs : List Cond) (e : Bits) : Wiring (Option Nat) := do
  Circuit.require cs
  let ls ← Circuit.bits e
  match ← Circuit.solve #[] with
  | none => return none
  | some best => return some (Circuit.readWord (← Circuit.extreme want ls #[] best ls.size) ls)

def circuits : Solver where
  model? cs :=
    if cs.any (·.isFalse) then none
    else if cs.all (·.isTrue) then some fun _ => 0
    else
      let (found, c) := (do Circuit.require cs; Circuit.solve #[] : Wiring _).run {}
      found.map fun values name => ((c.symbols[name]?).map (Circuit.readWord values)).getD 0
  values cs e n := ((do
    Circuit.require cs
    let ls ← Circuit.bits e
    Circuit.enumerate ls n : Wiring _).run {}).1
  least cs e := ((extremeOf false cs e).run {}).1
  greatest cs e := ((extremeOf true cs e).run {}).1

end Solver

end SymExec
