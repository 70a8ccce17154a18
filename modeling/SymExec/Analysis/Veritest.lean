import SymExec.Flow.Scan.Run
import SymExec.Manager
import SymExec.Flow.Trace

/-!
# Loops of functions and techniques that use control flow

A flow graph tells an explorer which blocks can reach its goal, and the loops of functions tell which loops are to be watched.
-/

namespace SymExec

namespace Function

variable (f : Function)

def plainGraph : Digraph CodeNode Bool :=
  let g := f.graph
  { nodes := g.nodes, arcs := g.arcs.map fun a => ⟨a.src, a.dst, false⟩ }

/-- The outermost loops of a function and all its loops; none if loops next to each other cannot be told apart. -/
def loops? : Option (List (Loop CodeNode) × List (Loop CodeNode)) :=
  let g := f.plainGraph
  (g.loops CodeNode.addr (g.nodes.length + 1)).toOption

end Function

structure LoopForest where
  all : List (Loop CodeNode) := []
  tops : Table Nat (List (Loop CodeNode)) := {}

/-- Finds the loops of functions, which are made free of overlaps first if that is asked for. -/
def Knowledge.loops (k : Knowledge) (p : Program) (addrs : List Nat) (normalize : Bool) : LoopForest × Knowledge :=
  addrs.foldl (fun (forest, k) a =>
    match k.functions.get? a with
    | none => (forest, k)
    | some f =>
      if p.isHooked a then (forest, k)
      else
        let f := if normalize then f.normalize else f
        let k := { k with functions := k.functions.modify a fun _ => f }
        match f.loops? with
        | none => (forest, k)
        | some (tops, all) => ({ all := forest.all ++ all, tops := forest.tops.set a tops }, k)) ({}, k)

namespace FlowGraph

variable (g : FlowGraph)

def backFrom (avoid : List Nat) : Nat → List FlowNode → List FlowNode → List FlowNode
  | 0, _, seen => seen
  | _, [], seen => seen
  | fuel + 1, n :: rest, seen =>
    if n ∈ seen || avoid.contains n.addr then backFrom avoid fuel rest seen
    else backFrom avoid fuel (g.predecessors n (!isFakeReturn ·) ++ rest) (n :: seen)

/-- The addresses of a graph, and those from which one of some addresses can be reached without passing others. -/
def goodAddrs (find avoid : List Nat) : Option (List Nat × List Nat) :=
  let start := find.flatMap fun a => g.allNodes a
  let good := (g.backFrom avoid (start.length + g.graph.arcs.length + 1) start []).map (·.addr)
  if find.isEmpty || good.isEmpty then none else some ((g.graph.nodes.map (·.addr)).eraseDups, good.eraseDups)

def lengths : List (Nat × Nat) :=
  (g.graph.nodes.map (·.addr)).eraseDups.filterMap fun a => (g.anyNode? a).map fun n => (a, (g.factsOf n).instructions.length)

end FlowGraph

def WatchedLoop.ofLoop (l : Loop CodeNode) : Try WatchedLoop :=
  match l.entryArcs, l.continueArcs with
  | (before, _) :: _, back :: _ =>
    .ok { before := before.addr, head := l.entry.addr, exits := l.breakArcs.map (·.2.addr), back := (back.1.addr, back.2.addr) }
  | _, _ => raise .badIndex

def LoopSeer.make (p : Program) (g : FlowGraph) (k : Knowledge) (functions : Option (List Nat)) (bound : Option Int)
    (discard : String) : Try LoopSeer × Knowledge :=
  let (forest, k) := k.loops p (functions.getD k.functions.addrs) true
  (do return { loops := ← forest.all.mapM WatchedLoop.ofLoop, bound, discard, lengths := g.lengths }, k)

/-! ## Unrolling loops and veritesting

Where a block branches, the stretch of code ahead is run as one: states that part at the branch wait where their ways meet, and are
merged there. -/

open Exec

/-- A way to choose cycles of a graph: any cycle, and one of the least length. -/
structure CycleChoice where
  (any? shortest? : Digraph FlowNode FlowArc → Option (List FlowNode))

def CycleChoice.first : CycleChoice := ⟨Digraph.cycle?, Digraph.shortestCycle?⟩

structure Unrolling where
  graph : Digraph FlowNode FlowArc
  back : List (FlowNode × FlowNode) := []

namespace Unrolling

variable (g : Digraph FlowNode FlowArc)

def ends : List FlowNode := g.nodes.filter fun n => (g.arcsFrom n).isEmpty

def backArc? (start : FlowNode) (cycle : List FlowNode) : Option (FlowNode × FlowNode) :=
  ((g.preorderFrom start).find? (cycle.contains ·)).bind fun n =>
    let i := cycle.idxOf n
    let before := if i = 0 then cycle.getLast? else cycle[i - 1]?
    before.map (·, n)

variable (choice : CycleChoice)

/-- A graph that ends nowhere loses the first arc of a shortest cycle. -/
def opened (g : Digraph FlowNode FlowArc) : Try (Digraph FlowNode FlowArc) :=
  if !(ends g).isEmpty then .ok g
  else
    let g := match choice.shortest? g with
      | some [n] => g.removeArc n n
      | some (n :: m :: _) => g.removeArc n m
      | _ => g
    if (ends g).isEmpty then raise .badGraph else .ok g

variable (limit : Nat)

def redirect (cycle : List FlowNode) (src dst : FlowNode) (g : Digraph FlowNode FlowArc) : Digraph FlowNode FlowArc :=
  match g.label? src dst with
  | none => g
  | some label =>
    let copy := { dst with looping := dst.looping + 1 }
    let g' := if copy ∈ g.nodes || limit < copy.looping then g
      else (g.arcsFrom dst).foldl (fun h a =>
        if a.dst.looping = 0 && a.dst ∉ cycle then h.addArc copy a.dst a.label else h) (g.addArc src copy label)
    g'.removeArc src dst

def breakCycle (start : FlowNode) (cycle : List FlowNode) (u : Unrolling) :
    Try Unrolling := do
  match backArc? u.graph start cycle with
  | none => return { u with graph := ← opened choice u.graph }
  | some (src, dst) =>
    let back := insertNew (src, dst) u.back
    return { graph := redirect limit cycle src dst (← opened choice u.graph), back }

def run (start : FlowNode) : Nat → Unrolling → Try Unrolling
  | 0, _ => raise .recursion
  | fuel + 1, u =>
    match choice.any? u.graph with
    | none => .ok u
    | some cycle => do run start fuel (← u.breakCycle choice limit start cycle)

def bound (g : Digraph FlowNode FlowArc) : Nat := g.arcs.length + (limit + 1) * g.nodes.length * (g.nodes.length + 1) + 1

end Unrolling

namespace FlowGraph

variable (g : FlowGraph)

def unrolled (limit : Nat) (start : Nat) (choice : CycleChoice := .first) : Try Unrolling :=
  match g.anyNode? start with
  | none => .error (.because .controlFlow "Cannot find start node when trying to unroll loops. The CFG might be empty.")
  | some n => Unrolling.run choice limit n (Unrolling.bound limit g.graph) { graph := g.graph }

end FlowGraph

/-! ### Counts of loops -/

abbrev LoopCounts := Table Nat Nat

namespace LoopCounts

variable (c : LoopCounts)

def entered (head : Nat) : Nat := (c.get? head).getD 0

def bump (head : Nat) : LoopCounts := c.set head (c.entered head + 1)

def join (cs : List LoopCounts) : LoopCounts := cs.foldl (fun acc c => c.entries.foldl (fun acc e => acc.set e.1 e.2) acc) {}

def exceeds (limit : Nat) (c : LoopCounts) : Bool := c.values.any (limit < ·)

end LoopCounts

structure Counting where
  shared : Table Nat LoopCounts := {}
  fresh : Nat := 0

namespace Counting

variable (c : Counting)

def get (id : Nat) : LoopCounts := (c.shared.get? id).getD {}

def add (counts : LoopCounts) : Nat × Counting := (c.fresh, { shared := c.shared.set c.fresh counts, fresh := c.fresh + 1 })

end Counting

namespace State

def countsKey : String := "loop_ctrs"

def countsId (s : State) : Nat := (((s.globals.getD []).lookup countsKey).bind Value.nat?).getD 0

def withCounts (id : Nat) (s : State) : State := { s with globals := some (Table.put countsKey (.int id) (s.globals.getD [])) }

def withoutCounts (s : State) : State := { s with globals := s.globals.map (·.filter (·.1 ≠ countsKey)) }

end State

/-! ### Stretches of code -/

structure Stretch where
  flow : FlowGraph
  (heads meets : List Nat)

namespace Stretch

def followed (g : Digraph FlowNode FlowArc) : Digraph FlowNode FlowArc :=
  { g with arcs := g.arcs.filter fun a => !FlowGraph.isFakeReturn a.label.jumpkind && a.label.jumpkind ≠ "Ijk_Exit" }

def meetingNodes (cyclic unrolled : Digraph FlowNode FlowArc) : List FlowNode :=
  let g := followed unrolled
  let back := followed cyclic.reverse
  (g.topological.filter fun n => (g.arcsTo n).length > 1 && n.looping = 0).mergeSort fun n m =>
    n ∈ back.dominatingSet m || m ∉ back.dominatingSet n

def ofFlow (flow : FlowGraph) (limit start : Nat) : Try Stretch := do
  let u ← flow.unrolled limit start
  return {
    flow := { flow with graph := u.graph }
    heads := u.back.map (·.2.addr)
    meets := (meetingNodes flow.graph u.graph).map (·.addr) }

def isBranch (b : Ir.Block) : Bool :=
  let ways := b.stmts.foldl (fun (t : Table Nat String) s =>
    match s with
    | .exit _ c jumpkind => match c.nat? with
      | some a => t.set a jumpkind
      | none => t
    | _ => t) {}
  let ways := match b.next with
    | .const c => match c.nat? with
      | some a => ways.set a b.jumpkind
      | none => ways
    | _ => ways
  ways.values = ["Ijk_Boring", "Ijk_Boring"]

/-- The register whose value at the branch is known to the flow graph, if the architecture has one. -/
def leading? (arch : Arch) : Option String :=
  match arch.name with
  | "X86" => some "eax"
  | "AMD64" => some "rax"
  | _ => none

def endsAt (r : Stretch) (addr : Nat) : Bool :=
  match r.flow.anyNode? addr with
  | none => true
  | some n => n.procedure = some "PathTerminator"

def continues (jumpkind : Option String) : Bool :=
  match jumpkind with
  | some j => ["Ijk_Boring", "Ijk_Call", "Ijk_Ret", "Ijk_NoHook"].contains j || j.startsWith "Ijk_Sys"
  | none => false

def waitingAt (addr : Nat) : String := "_merge_" ++ hexText addr

end Stretch

abbrev InStretch := StateT Counting Exploring

namespace InStretch

open Exploring (move manager modifyManager)

def countsOf (m : Member) : InStretch LoopCounts := return (← get).get m.state.countsId

def count (m : Member) (head : Nat) : InStretch Nat := do
  let c := (← countsOf m).bump head
  modify fun n => { n with shared := n.shared.set m.state.countsId c }
  return c.entered head

/-! ### Where states stop -/

variable (boundaries : List Nat)

def isBoundary (p : Option Program) (addr : Nat) : Bool :=
  boundaries.contains addr || match p with
    | some p => (p.blockAt addr).toOption.any fun b => b.instructions.any (boundaries.contains ·)
    | none => false

variable (limit : Nat) (r : Stretch)

/-- Whether a state stops: at a boundary, or since it has entered a loop, or made a call, more often than it may. -/
def stops (m : Member) : InStretch (Bool × Member) := do
  let (a, m) ← Exploring.onMember m addr
  if isBoundary boundaries (← getThe Exploration).world.program a then return (true, m)
  if r.heads.contains a || m.state.history.current.jumpkind = some "Ijk_Call" then return (limit < (← count m a), m)
  return (false, m)

def setAside : InStretch Unit := do
  let tested ← (← Exploring.fetch "active").mapM (stops boundaries limit r)
  modifyManager (·.divide "active" "successful" ((tested.filter (!·.1)).map (·.2)) ((tested.filter (·.1)).map (·.2)))

/-! ### Merging -/

/-- Merges the states that wait in a stash, those with the same call stack as one, and lets them go on. -/
def mergeWaiting (stash : String) : Nat → InStretch Bool
  | 0 => return false
  | fuel + 1 => do
    match (← manager).stashes.get stash with
    | [] => return false
    | first :: _ =>
      move stash "merge_tmp" fun s => return Exploring.sameStack s.callstack first.state.callstack
      let group := (← manager).stashes.get "merge_tmp"
      let counts := LoopCounts.join (← group.mapM countsOf)
      Exploring.mergeStash "merge_tmp"
      let id ← modifyGet (·.add counts)
      let merged := ((← manager).stashes.get "merge_tmp").map fun m => { m with state := m.state.withCounts id }
      modifyManager fun g => { g with stashes := g.stashes.set "merge_tmp" merged }
      move "merge_tmp" (if merged.length ≤ 1 && counts.exceeds limit then "deadended" else "active")
      let more ← mergeWaiting stash fuel
      return merged.length ≠ group.length || more

def joinAt (addr : Nat) : InStretch Bool := do
  let stash := Stretch.waitingAt addr
  let waiting := (← manager).stashes.get stash
  match waiting with
  | [] => return false
  | [_] =>
    move stash "active"
    return false
  | _ =>
    Exploring.prune (fun _ => return true) stash
    move "pruned" "_DROP"
    mergeWaiting limit stash (waiting.length + 1)

def join : List Nat → InStretch Unit
  | [] => return
  | a :: rest => do if !(← joinAt limit a) then join rest

/-! ### Running -/

def advance (m : Member) : Exploring (Member × List (Option String × List Member)) :=
  Exploring.advanceBy (do
    match r.flow.anyNode? (← addr) with
    | none => raise .badAttribute
    | some n => successors { limits := { bytes := n.size } }) m

def round : InStretch Unit := do
  setAside boundaries limit r
  Exploring.stepAll { advance := advance r } "active"
  move "active" "deviated" fun _ => do return r.endsAt (← addr)
  move "active" "deadended" fun s => return !Stretch.continues s.history.current.jumpkind
  r.meets.forM fun a => move "active" (Stretch.waitingAt a) fun _ => do return (← addr) == a
  if ((← manager).stashes.get "active").isEmpty then join limit r.meets

def run : Nat → InStretch Unit
  | 0 => raise .recursion
  | fuel + 1 => do
    if ((← manager).stashes.get "active").isEmpty then return
    round boundaries limit r
    run fuel

def departures : List String := ["successful", "errored", "deadended", "deviated", "unconstrained"]

def outcome (g : Manager) : List (Option String × List Member) :=
  let without (ms : List Member) := ms.map fun m => { m with state := m.state.withoutCounts }
  let left := departures.any fun s => !(g.stashes.get s).isEmpty
  [(some "active", without (g.stashes.get "deviated" ++ g.stashes.get "successful")),
   (some "pruned", if left then [] else without (g.stashes.get "pruned")),
   (some "errored", without (g.errored.map (·.1)))]

end InStretch

namespace Exploring

def apart (own : Manager) (act : Exploring α) : Exploring (α × Manager) := fun e =>
  match act { e with manager := own } with
  | .ok a e' => .ok (a, e'.manager) { e' with manager := e.manager }
  | .error f e' => .error f { e' with manager := e.manager }

def stretchOf (p : Program) (limit : Int) (addr : Nat) (m : Member) : Exploring Stretch := do
  let registers ← match Stretch.leading? p.arch with
    | none => pure []
    | some r => do
      let (v, _) ← onMember m (reg r)
      pure (if v.symbolic then [] else [(r, v)])
  let options : TraceOptions := {
    starts := some [addr], entering := m.state.history.current.jumpkind.getD "Ijk_Boring", registers
    level := 0, callDepth := some 1, normalize := true }
  let p := p.withUnknownTarget
  let e ← get
  match p.trace options {} { e.world with program := some p } with
  | .ok () t =>
    set { e with world := { t.world with state := e.world.state } }
    if limit < 0 then
      refuse .controlFlow
        "Max loop unrolling times must be set to an integer greater than or equal to 0 if loop unrolling is enabled."
    ofExcept (Stretch.ofFlow t.flow limit.toNat addr)
  | .error f t =>
    set { e with world := { t.world with state := e.world.state } }
    throw f

def veritest (o : VeritestOptions) : Advance := fun m => do
  let some p := (← get).world.program | return none
  let (a, m) ← onMember m addr
  if !Stretch.isBranch (← ofExcept (p.blockAt a)) then return none
  let stretch ← stretchOf p o.limit a m
  let bypasses := m.state.settings.has .bypassVeritestingExceptions
  let (copy, _) ← onMember m fork
  let start ← enroll (copy.withCounts 0)
  let own : Manager := { tolerated := if bypasses then FaultKind.resilient else [] }
  let own := ({ own with stashes := InStretch.departures.foldl Stashes.open' own.stashes }).store "active" [start]
  tryCatch (do
    let (_, g) ← apart own (StateT.run (InStretch.run o.boundaries o.limit.toNat stretch endlessly) { fresh := 1 })
    return some (InStretch.outcome g)) fun f => if bypasses && FaultKind.usual.any (f.kind.within ·) then return none else throw f

end Exploring

end SymExec
