import SymExec.Engine.Run
import SymExec.Knowledge

/-!
# Flow graphs

The control flow of a program: blocks of code and procedures as nodes, and an arc for each way in which control passes from one to
another.
-/

namespace SymExec

abbrev Context := List (Option Nat)

structure FlowNode where
  addr : Nat
  size : Option Nat
  context : Option Context := none
  looping : Nat := 0
  procedure : Option String := none
deriving DecidableEq

namespace FlowNode

variable (n : FlowNode)

def isProcedure : Bool := n.procedure.isSome

def stop : Nat := n.addr + n.size.getD 0

def text : String :=
  "<CFGNode " ++ (n.procedure.map (· ++ " ")).getD "" ++ hexText n.addr ++ (n.size.map fun s => "[" ++ toString s ++ "]").getD "" ++
    (if n.looping > 0 then " - " ++ toString n.looping else "") ++ ">"

end FlowNode

/-- What a node is looked up by: an address, the calls that led to it, and whether it is entered by a system call. -/
structure BlockId where
  addr : Nat
  context : Option Context := none
  isSyscall : Bool := false
deriving DecidableEq

structure FlowFacts where
  function : Option Nat := none
  instructions : List Nat := []
  (noReturn isSyscall hasReturn : Bool := false)
  id : Option BlockId := none
  returnTarget : Option Nat := none

structure FlowArc where
  jumpkind : String
  stmt : Option ExitPoint := none
  ins : Option Nat := none
deriving DecidableEq

structure IndirectJump where
  addr : Nat
  ins : Option Nat
  function : Nat
  jumpkind : String
  stmt : ExitPoint
  targets : List Nat := []
deriving DecidableEq

structure FlowGraph where
  graph : Digraph FlowNode FlowArc := {}
  facts : Table FlowNode FlowFacts := {}
  byId : Table (Option BlockId) FlowNode := {}
  byAddr : Table Nat (List FlowNode) := {}
  level : Nat := 0
  normalized : Bool := false
  indirect : Table Nat IndirectJump := {}
  entries : Table FlowNode State := {}
  exits : Table FlowNode (List State) := {}

namespace FlowGraph

/-! ### Building -/

variable (g : FlowGraph) (n : FlowNode)

def factsOf : FlowFacts := (g.facts.get? n).getD {}

def setFacts (f : FlowFacts) : FlowGraph := { g with facts := g.facts.set n f }

def modifyFacts (f : FlowFacts → FlowFacts) : FlowGraph := g.setFacts n (f (g.factsOf n))

def record (id : Option BlockId) (n : FlowNode) : FlowGraph :=
  { g with byId := g.byId.set id n, byAddr := g.byAddr.set n.addr ((g.byAddr.get? n.addr).getD [] ++ [n]) }

def ofId? (id : BlockId) : Option FlowNode := g.byId.get? (some id)

variable (addr : Nat)

def at? : Option FlowNode := g.ofId? { addr }

variable (u v : FlowNode)

def connect (a : FlowArc) : FlowGraph := { g with graph := g.graph.addArc u v a }

variable (jumpkind : String)

def connectPlainly : FlowGraph :=
  g.connect u v (match g.graph.label? u v with
    | some a => { a with jumpkind }
    | none => { jumpkind })

def unlist : FlowGraph := { g with byAddr := g.byAddr.alter n.addr (·.erase n) }

/-! ### Queries -/

def anyNode? (inside : Bool := false) : Option FlowNode :=
  let listed := if inside then none else ((g.byAddr.get? addr).getD []).head?
  listed <|> g.graph.nodes.find? fun n =>
    n.looping = 0 && (match n.size with
       | some s => if inside then n.addr ≤ addr && addr < n.addr + s else addr = n.addr
       | none => addr = n.addr)

def allNodes (inside : Bool := false) : List FlowNode :=
  g.graph.nodes.filter fun n => n.addr = addr || (inside && n.addr ≤ addr && addr < n.stop)

variable (keep : String → Bool)

def predecessors : List FlowNode := ((g.graph.arcsTo n).filter (keep ·.label.jumpkind)).map (·.src)

def successorsBy : List (FlowNode × String) :=
  ((g.graph.arcsFrom n).filter (keep ·.label.jumpkind)).map fun a => (a.dst, a.label.jumpkind)

def successors : List FlowNode := (g.successorsBy n keep).map (·.1)

def branching : List FlowNode := g.graph.nodes.filter fun n => (g.graph.arcsFrom n).length ≥ 2

def exitTo : Try (Option ExitPoint) :=
  match g.graph.label? u v with
  | some a => .ok a.stmt
  | none => .error (.because .controlFlow ("Edge (" ++ u.text ++ ", " ++ v.text ++ ") does not exist in CFG"))

def isFakeReturn : Bool := jumpkind = "Ijk_FakeRet"

def isCall : Bool := jumpkind = "Ijk_Call" || jumpkind.startsWith "Ijk_Sys"

def lastInstruction? (arch : Arch) (f : FlowFacts) : Option Nat :=
  if arch.delaySlot then f.instructions.dropLast.getLast? else f.instructions.getLast?

end FlowGraph

/-! ### Code of nodes -/

namespace Program

variable (p : Program) (addr : Nat)

def snippet (size : Option Nat := none) : Try CodeNode :=
  match p.hookNode? addr with
  | some h => .ok h
  | none =>
    match size with
    | some n => .ok (.block addr n (p.arch.isArm && addr % 2 = 1))
    | none => do return .block addr (← p.blockAt addr).size (p.arch.isArm && addr % 2 = 1)

def snippetOf (n : FlowNode) : CodeNode :=
  (p.hookNode? n.addr).getD (.block n.addr (n.size.getD 0) (p.arch.isArm && n.addr % 2 = 1))

def snippetAt (n : Option FlowNode) (addr : Nat) : Try CodeNode :=
  match n with
  | some n => .ok (p.snippetOf n)
  | none => p.snippet addr

def isExecutable : Bool := p.base ≤ addr && addr < p.base + p.size - 1

def holds : Bool := p.base ≤ addr && addr < p.base + p.size

def isLaidOut : Bool := p.holds addr || p.externBase ≤ addr

end Program

/-! ## Normal flow graphs

Nodes that end at the same address overlap, and so do nodes of which one begins inside another. -/

namespace FlowGraph

abbrev EndKey := Nat × Option Context

def endKey (n : FlowNode) : EndKey := (n.stop, n.context)

/-- A flow graph whose nodes are being cut: the nodes that are still to be settled and those that are, by their ends. -/
structure Cleaving where
  flow : FlowGraph
  open_ : Table EndKey (List FlowNode) := {}
  settled : Table EndKey FlowNode := {}

namespace Cleaving

variable (c : Cleaving)

def add (k : EndKey) (n : FlowNode) : Cleaving := { c with open_ := c.open_.set k (insertNew n ((c.open_.get? k).getD [])) }

variable (g : FlowGraph)

def ofFlow : Cleaving :=
  let groups := (g.graph.nodes.filter (!·.isProcedure)).foldl
    (fun (c : Cleaving) n => c.add (endKey n) n) { flow := g }
  { groups with
    open_ := ⟨groups.open_.entries.filter (·.2.length ≠ 1)⟩
    settled := ⟨groups.open_.entries.filterMap fun (k, ns) => match ns with | [n] => some (k, n) | _ => none⟩ }

variable (context : Option Context)

def piece (n : FlowNode) (stop : Nat) : FlowNode × Cleaving :=
  let key : EndKey := (stop, n.context)
  let found := ((c.open_.get? key).getD []).find? (·.addr = n.addr) <|>
    (c.settled.get? key).filter (·.addr = n.addr)
  match found with
  | some m => (m, c)
  | none =>
    let m : FlowNode := { addr := n.addr, size := some (stop - n.addr), context }
    let facts := c.flow.factsOf n
    let flow := c.flow.setFacts m
      { function := facts.function, id := facts.id, instructions := facts.instructions.filter (· < stop) }
    let c := { c with flow }
    match c.settled.get? key with
    | some s => (m, (c.add key s).add key m)
    | none => (m, { c with settled := c.settled.set key m })

def cutAt (smallest : FlowNode) (others : List FlowNode) (n : FlowNode) : Cleaving :=
  if smallest.addr = n.addr then c
  else
    let (m, c) := c.piece context n smallest.addr
    let before := c.flow.graph.arcsTo n
    let after := c.flow.graph.arcsFrom n
    if smallest ∉ c.flow.graph.nodes then c
    else
      let g := after.foldl (fun g a =>
        if g.hasArc smallest a.dst then g
        else g.addArc smallest (if a.dst = n then m else a.dst) a.label) c.flow.graph
      let g := g.removeNode n
      let flow : FlowGraph := { c.flow with graph := g, byId := c.flow.byId.set (c.flow.factsOf n).id m }
      let listed := (flow.byAddr.get? n.addr).getD []
      let flow := if n ∈ listed then { flow with byAddr := flow.byAddr.set n.addr (listed.filter (· ≠ n) ++ [m]) } else flow
      let flow := before.foldl (fun flow a => if a.src ∈ others then flow else flow.connect a.src m a.label) flow
      { c with flow := flow.connectPlainly m smallest "Ijk_Boring" }

def settleGroup (k : EndKey) (group : List FlowNode) : Cleaving :=
  match group.mergeSort (fun a b => a.addr ≥ b.addr) with
  | [] => c
  | smallest :: others =>
    let c := others.foldl (fun c n => c.cutAt k.2 smallest others n) c
    { c with open_ := c.open_.erase k, settled := c.settled.set k smallest }

def reopenPairs : List FlowNode → Cleaving → Cleaving
  | a :: b :: rest, c =>
    let c :=
      if a.addr ≤ b.addr && b.addr < a.stop then
        let ka : EndKey := (a.stop, context)
        let kb : EndKey := (b.stop, context)
        let c := if c.settled.contains ka && c.settled.contains kb then (c.add ka a).add ka b else c
        { c with settled := (c.settled.erase ka).erase kb }
      else c
    reopenPairs (b :: rest) c
  | _, c => c

def reopen : Cleaving :=
  let contexts := (c.settled.keys.map (·.2)).eraseDups
  contexts.foldl (fun d context =>
    let nodes := (c.settled.entries.filter (·.1.2 = context)).map (·.2)
    reopenPairs context (nodes.mergeSort (fun a b => a.addr ≤ b.addr)) d) c

def run : Nat → Cleaving → Cleaving
  | 0, c => c
  | fuel + 1, c =>
    match c.open_.entries.find? fun (_, ns) => ns.length > 1 with
    | none => c
    | some (k, group) =>
      let c := c.settleGroup k group
      run fuel (if c.open_.entries.isEmpty then c.reopen else c)

def rounds : Nat :=
  let n := g.graph.nodes.length + 1
  n * ((g.graph.nodes.map fun n => n.size.getD 0 + 1).sum + 1)

end Cleaving

def normalize (g : FlowGraph) : FlowGraph := { (Cleaving.run (Cleaving.rounds g) (.ofFlow g)).flow with normalized := true }

end FlowGraph

/-! ## Functions of a flow graph

The functions of a program, made anew from its flow graph. -/

def Program.probe (p : Program) (addr : Nat) (act : Exec α) : Try α :=
  let w : World := { state := .blank p.arch .fastpath Mode.fastpath.settings p.backing, program := some p }
  let run : Exec α := do
    let s ← Exec.startState p { addr := some (.num addr), mode := .fastpath }
    let (a, _) ← Exec.onState s act
    return a
  match run w with
  | .ok a _ => .ok a
  | .error f _ => .error f

def Program.plainJump? (p : Program) (addr : Nat) : Try (Option (Nat × Nat)) :=
  let result := p.probe addr do
    let s ← Exec.successors
    let size ← match s.block with
      | some b => pure b.size
      | none => raise .badKey
    match s.states s.plain with
    | [t] =>
      if t.history.current.jumpkind ≠ some "Ijk_Boring" then return none
      let (ip, _) ← Exec.onState t Exec.quietIp
      return ip.lit?.map fun a => (a, s.addr + size)
    | _ => return none
  match result with
  | .ok r => .ok r
  | .error f => if f.kind.within .memory || f.kind.within .engine || f.kind.within .block then .ok none else .error f

structure Assignment where
  knowledge : Knowledge
  flow : FlowGraph
  known : Functions
  owner : Table Nat Nat := {}
  seen : List FlowNode := []

abbrev Assigning := EStateM Fault Assignment

namespace Assigning

variable (p : Program)

@[inline] def modifyKnowledge (f : Knowledge → Knowledge) : Assigning Unit :=
  modify fun s => { s with knowledge := f s.knowledge }

def codeAt (addr : Nat) : Assigning CodeNode := do ofExcept (p.snippetAt ((← get).flow.anyNode? addr) addr)

def assign (addr func : Nat) : Assigning Unit := modify fun s => { s with owner := s.owner.set addr func }

def functionOf (addr : Nat) : Assigning Nat := do
  match (← get).owner.get? addr with
  | some f => return f
  | none =>
    let n ← codeAt p addr
    modifyKnowledge fun k => k.addNode p addr n (some false)
    assign addr addr
    ((← get).known.get? addr).forM fun old => modifyKnowledge fun k => k.onFunction p addr ({ · with returning := old.returning })
    return addr

def handleCall (func : Nat) (src : FlowNode) (dst : Nat) (isSyscall : Bool) (back : Option FlowNode) : Assigning Unit := do
  let callee ← functionOf p dst
  let site ← codeAt p src.addr
  modifyKnowledge fun k => k.addCall p func site dst (back.map p.snippetOf) (some isSyscall)
  if ((← get).knowledge.functions.get? callee).any (·.returning = some true) then
    let target := src.stop
    if !(← get).owner.contains target then
      if !(← get).known.contains target then assign target func else let _ ← functionOf p target
    let outside := (← get).owner.get? target ≠ some func
    let node ← codeAt p target
    modifyKnowledge fun k => k.addFakeReturn p func site node true outside

def handleJump (func src dst : Nat) : Assigning Unit := do
  let u ← codeAt p src
  let v ← codeAt p dst
  if !p.isLaidOut src && p.isLaidOut dst then let _ ← functionOf p dst
  let s ← get
  let owner := s.owner.get? dst
  if s.known.contains dst || owner.any (· ≠ func) then
    modifyKnowledge fun k => k.addOutsideTransition p func u v (some (owner.getD dst))
    let _ ← functionOf p dst
  else
    if owner.isNone then assign dst func
    modifyKnowledge fun k => k.addTransition p func u v

def handleFakeReturn (func src dst : Nat) : Assigning Unit := do
  let u ← codeAt p src
  let v ← codeAt p dst
  let s ← get
  let target ← match s.owner.get? dst with
    | some f => pure f
    | none =>
      if s.known.contains dst then functionOf p dst
      else do
        assign dst func
        pure func
  modifyKnowledge fun k => k.addFakeReturn p func u v true (target ≠ func) (some target)

variable (n : FlowNode)

def enter : Assigning Nat := do
  let func ← functionOf p n.addr
  if !((← get).knowledge.functions.get? func).any (·.own.contains n.addr) then
    let c ← codeAt p n.addr
    modifyKnowledge fun k => k.addNode p func c
  return func

def handleArc (back : Option FlowNode) (a : Arc FlowNode FlowArc) : Assigning Unit := do
  let func ← enter p a.src
  let kind := a.label.jumpkind
  if kind = "Ijk_Ret" then
    let c ← codeAt p a.src.addr
    modifyKnowledge fun k => k.addReturn p func c
  if FlowGraph.isCall kind then handleCall p func a.src a.dst.addr (kind.startsWith "Ijk_Sys") back
  else if kind = "Ijk_Boring" then handleJump p func a.src.addr a.dst.addr
  else if kind = "Ijk_FakeRet" then handleFakeReturn p func a.src.addr a.dst.addr

def handleNode : Assigning (List FlowNode) := do
  let flow := (← get).flow
  let arcs := flow.graph.arcsFrom n
  if (flow.factsOf n).hasReturn then
    let func ← enter p n
    let c ← codeAt p n.addr
    modifyKnowledge fun k => k.addReturn p func c
    return []
  else if arcs.isEmpty then
    let _ ← enter p n
    return []
  else
    let back := (arcs.find? fun a => FlowGraph.isFakeReturn a.label.jumpkind).map (·.dst)
    arcs.forM (handleArc p back)
    return (arcs.filter fun a => !FlowGraph.isCall a.label.jumpkind).map (·.dst)

def traverse : Nat → List FlowNode → List FlowNode → Assigning (List FlowNode)
  | 0, _, seen => return seen
  | _ + 1, [], seen => return seen
  | fuel + 1, n :: rest, seen => do
    if n ∈ seen then traverse fuel rest seen
    else
      let next ← handleNode p n
      let seen := seen ++ [n]
      traverse fuel (next.foldl (fun q m => if m ∈ seen then q else insertNew m q) rest) seen

def bound (g : FlowGraph) : Nat := g.graph.nodes.length + g.graph.arcs.length + 2

end Assigning

/-! ### Functions that are parts of others -/

def FlowGraph.hasOpenJump (g : FlowGraph) (addr : Nat) : Bool :=
  (g.indirect.get? addr).any fun j => j.jumpkind = "Ijk_Boring" && j.targets.isEmpty

namespace Program

variable (p : Program)

def extendEnd (lo hi : Nat) : Nat → Nat → Nat → Try Nat
  | 0, stop, _ => .ok stop
  | fuel + 1, stop, last => do
    let some (target, after) := ← p.plainJump? last | return stop
    if lo ≤ target && target < hi then extendEnd lo hi fuel after after else return stop

variable (flow : FlowGraph)

/-- The last block of a function with an unresolved jump, and the end of the function, if the one lies before the other. -/
def openRange? (f : Function) : Try (Option (Nat × Nat)) := do
  let jumps := f.blockAddrs.filter flow.hasOpenJump
  if jumps.isEmpty then return none
  let lastJump := jumps.foldl max 0
  match f.startpoint, f.endpoints.filterMap id with
  | some start, e :: es =>
    let last := es.foldl (fun b n => if n.addr > b.addr then n else b) e
    let stop := last.addr + last.size?.getD 0
    if start.addr ≥ stop || lastJump ≤ start.addr || lastJump ≥ stop then return none
    let stop ← p.extendEnd (max start.addr (last.addr - 0x40)) stop (p.size + 1) stop stop
    return some (lastJump, stop)
  | _, _ => return none

def partsOf (known : Functions) (fixed : List Nat) : Try (Table Nat Nat) :=
  known.all.foldlM (fun merged f => do
    if merged.contains f.addr then return merged
    let some (lo, hi) := ← p.openRange? flow f | return merged
    let inside (a : Nat) := lo < a && a < hi
    let parts := known.all.filter fun g => g.addr ≠ f.addr && g.addr ∉ fixed && inside g.addr && g.blockAddrs.all inside
    if parts.any fun g => merged.contains g.addr then return merged
    return parts.foldl (fun t g => t.set g.addr f.addr) merged) {}

end Program

namespace Assigning

variable (p : Program)

def mergeParts (fixed : List Nat) : Assigning (List Nat) := do
  let s ← get
  let parts ← ofExcept (p.partsOf s.flow s.known fixed)
  parts.entries.forM fun (part, whole) => do
    let func ← functionOf p whole
    ((← get).known.get? part).forM fun f => f.blockAddrs.forM fun a => assign a func
    modify fun s => { s with known := { s.known with map := s.known.map.erase part } }
  return parts.keys

def makeAll : Assigning Unit := do
  let s ← get
  let known : Functions := { s.known with
    map := ⟨s.known.map.entries.map fun (a, f) => (a, s.known.markCallouts f)⟩ }
  modify fun s => { s with known, knowledge := { s.knowledge with functions := s.knowledge.functions.clear } }
  let g := s.flow
  let called := (g.graph.arcList.filter fun a => FlowGraph.isCall a.label.jumpkind).map (·.dst)
  let starts := (called ++ (g.anyNode? p.entry).toList).eraseDups
  let removed ← mergeParts p (starts.map (·.addr))
  let known := (← get).known
  let starts := (starts ++ g.graph.nodes.filter fun n => known.contains n.addr || n.addr ∈ removed).eraseDups
  let sorted (ns : List FlowNode) := ns.mergeSort (fun a b => a.addr ≤ b.addr)
  let seen ← (sorted starts).foldlM (fun seen n => traverse p (bound g) [n] seen) []
  let s ← get
  let late := known.addrs.filterMap fun a => (g.anyNode? a).filter fun n => !s.owner.contains n.addr
  let missing := g.graph.nodes.filter fun n => n ∉ seen && (g.factsOf n).function.isSome
  (sorted (late ++ missing).eraseDups).forM fun n => do
    let _ ← traverse p (bound g) [n] []

end Assigning

def FlowGraph.makeFunctions (p : Program) (k : Knowledge) (g : FlowGraph) : EStateM.Result Fault Assignment Unit :=
  let result := Assigning.makeAll p { knowledge := k, flow := g, known := k.functions }
  match result with
  | .error f s => .error f s
  | .ok () s =>
    let headless := s.knowledge.functions.all.filter (·.startpoint.isNone)
    let functions := headless.foldl (fun (t : Functions) f => (t.erase f.addr).toOption.getD t) s.knowledge.functions
    let flow := s.flow.byId.values.foldl (fun (g : FlowGraph) n =>
      match s.owner.get? n.addr with
      | some f => g.modifyFacts n ({ · with function := some f })
      | none => g) s.flow
    let functions : Functions := { functions with
      map := ⟨functions.map.entries.map fun (a, f) => (a, functions.markCallouts f)⟩ }
    .ok () { s with flow, knowledge := { s.knowledge with functions } }

end SymExec
