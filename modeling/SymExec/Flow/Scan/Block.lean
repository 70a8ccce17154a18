import SymExec.Flow.Graph
import SymExec.Flow.Segments
import SymExec.Flow.Queue

/-!
# Scans and their jobs

A scan finds the control flow of a program without running it.
-/

namespace SymExec

structure ScanJob where
  (addr func : Nat)
  jumpkind : String
  last : Option Nat := none
  src : Option FlowNode := none
  ins : Option Nat := none
  stmt : Option ExitPoint := none
  source : Option Nat := none
  isSyscall : Bool := false
deriving DecidableEq

def ScanJob.queueing : Queueing Nat ScanJob := { key := (·.addr) }

inductive Work where
  | job (j : ScanJob)
  | jump (addr : Nat)
deriving DecidableEq

structure CallReturn where
  (callee caller site back : Nat)
deriving DecidableEq

structure PendingJobs where
  jobs : Table (Option Nat) (List ScanJob) := {}
  returning : List Nat := []
  count : Int := 0

namespace PendingJobs

variable (p : PendingJobs)

def isEmpty : Bool := p.count ≤ 0

def add (j : ScanJob) : PendingJobs :=
  { p with jobs := p.jobs.set j.source ((p.jobs.get? j.source).getD [] ++ [j]), count := p.count + 1 }

def addReturning (func : Nat) : PendingJobs := { p with returning := Functions.insertAddr func p.returning }

def popFrom (key : Option Nat) : Option (ScanJob × PendingJobs) :=
  match (p.jobs.get? key).getD [] with
  | [] => none
  | j :: rest =>
    some (j, { p with
      jobs := if rest.isEmpty then p.jobs.erase key else p.jobs.set key rest
      count := p.count - 1 })

def popReturning : Option (ScanJob × PendingJobs) :=
  if p.isEmpty then none else (p.returning.find? fun f => p.jobs.contains (some f)).bind fun f => p.popFrom (some f)

def popAny : Option (ScanJob × PendingJobs) := if p.isEmpty then none else p.jobs.keys.head?.bind p.popFrom

/-- The jobs that wait for functions which are known not to come back, in the order in which they are dropped, and the
others. -/
def dropLeaving (leaves : Nat → Bool) : List ScanJob × PendingJobs :=
  let gone (key : Option Nat) := key.any leaves
  let dropped := (p.jobs.entries.filter (gone ·.1)).flatMap (·.2.reverse)
  (dropped, { p with
    jobs := ⟨p.jobs.entries.filter (!gone ·.1)⟩
    count := p.count - dropped.length })

end PendingJobs

structure ScanOptions where
  regions : Option (List (Nat × Nat)) := none
  starts : List Nat := []
  (atEntry prologues complete resolveJumps : Bool := true)
  (normalize collectData allReferences : Bool := false)
  skipSparse : Bool := true

structure DataItem where
  addr : Nat
  size : Option Nat := none
  sort : Option String := none
  maxSize : Option Int := none
  content : Option String := none
  refs : List (Nat × Nat × Option Nat) := []

structure Scan where
  knowledge : Knowledge
  flow : FlowGraph := {}
  segments : Segments := {}
  queue : JobQueue Nat ScanJob := {}
  pending : PendingJobs := {}
  work : Table Nat (List Work) := {}
  (completed changed traced : List Nat := [])
  returns : Table Nat (List CallReturn) := {}
  (unresolved prologues : List Nat := [])
  position : Option Nat := none
  (collects keepsAll : Bool := false)
  data : Table Nat DataItem := {}
  dataOf : Table Nat Nat := {}

abbrev Scanning := EStateM Fault Scan

namespace Scanning

variable (p : Program)

@[inline] def modifyKnowledge (f : Knowledge → Knowledge) : Scanning Unit := modify fun s => { s with knowledge := f s.knowledge }

@[inline] def modifyFlow (f : FlowGraph → FlowGraph) : Scanning Unit := modify fun s => { s with flow := f s.flow }

def occupy (addr : Nat) (size : Int) (sort : String) : Scanning Unit :=
  modify fun s => { s with segments := s.segments.occupy addr size sort }

/-! ### Work per function -/

def register (func : Nat) (w : Work) : Scanning Unit :=
  modify fun s => { s with work := s.work.set func (insertNew w ((s.work.get? func).getD [])) }

def deregister (func : Nat) (w : Work) : Scanning Unit := do
  let ws := ((← get).work.get? func).getD []
  modify fun s => { s with work := s.work.set func (ws.erase w) }
  if w ∉ ws then raise .badKey

def completeFunctions : Scanning Unit := modify fun s =>
  { s with
    completed := (s.work.entries.filter (·.2.isEmpty)).foldl (fun c e => insertNew e.1 c) s.completed
    work := ⟨s.work.entries.filter (!·.2.isEmpty)⟩ }

def push (j : ScanJob) : Scanning Unit := modify fun s => { s with queue := s.queue.insert ScanJob.queueing j }

def addReturning (func : Nat) : Scanning Unit := modify fun s => { s with pending := s.pending.addReturning func }

/-! ### What is found about functions -/

def snippetAt (addr : Nat) : Scanning CodeNode := do ofExcept (p.snippetAt ((← get).flow.at? addr) addr)

def noCode (f : Fault) : Bool := f.kind.within .memory || f.kind.within .engine

def attempt (act : Scanning Unit) : Scanning Bool :=
  tryCatch (do act; return true) fun f => if noCode f then return false else throw f

def addNode (addr func : Nat) : Scanning Unit := do
  let n ← snippetAt p addr
  modifyKnowledge fun k => k.addNode p func n

def addTransition (addr : Nat) (src : FlowNode) (func : Nat) (outside : Bool) (toFunction : Option Nat := none) :
    Scanning Bool := attempt do
  let v ← snippetAt p addr
  let u := p.snippetOf src
  modifyKnowledge fun k => if outside then k.addOutsideTransition p func u v toFunction else k.addTransition p func u v

def addCall (addr : Nat) (src : FlowNode) (back : Option Nat) (func : Nat) (isSyscall : Bool) : Scanning Bool := attempt do
  let flow := (← get).flow
  let backNode ← match back with
    | some b => do pure (some (← snippetAt p b))
    | none => pure none
  let outside := match back.bind flow.at? with
    | some n => (flow.factsOf n).function ≠ some func
    | none => false
  modifyKnowledge fun k => k.addCall p func (p.snippetOf src) addr backNode (some isSyscall) outside

def addFakeReturn (addr : Nat) (src : FlowNode) (func : Nat) (confirmed : Bool) : Scanning Unit := do
  let v ← snippetAt p addr
  modifyKnowledge fun k => k.addFakeReturn p func (p.snippetOf src) v confirmed false

def addReturnEdge (callee back func : Nat) : Scanning Unit := do
  let v ← snippetAt p back
  modifyKnowledge fun k => k.addReturnFromCall p func callee v

def addReturnSite (addr func : Nat) : Scanning Unit := do
  let n ← snippetAt p addr
  modifyKnowledge fun k => k.addReturn p func n

def link (n : FlowNode) (src : Option FlowNode) (a : FlowArc) : Scanning Unit :=
  modifyFlow fun g =>
    match src with
    | none => { g with graph := g.graph.addNode n }
    | some s => g.connect s n a

/-! ### Which functions come back -/

def affected (changed : List Nat) (k : Knowledge) : List Nat × List Nat :=
  let all := (changed ++ changed.flatMap k.functions.callers).eraseDups
  (all.mergeSort (· ≤ ·), all)

variable (r : CallReturn)

def settleReturn : Scanning Unit := do
  modify fun s => { s with changed := insertNew r.caller s.changed }
  let v ← snippetAt p r.back
  modifyKnowledge fun k => k.addReturnFromCall p r.caller r.callee v

def settleLeaving : Scanning Unit := do
  modify fun s => { s with changed := insertNew r.caller s.changed }
  let u ← snippetAt p r.site
  let v ← ofExcept (p.snippet r.back)
  if !((← get).knowledge.functions.get? r.caller).any (·.transfers.hasArc u v) then raise .badGraph
  modifyKnowledge fun k => k.onFunction p r.caller fun f => { f with transfers := f.transfers.removeArc u v }

def reviewFunctions : Nat → Scanning Unit
  | 0 => return
  | fuel + 1 => do
    let s ← get
    let (r, changed) := s.knowledge.reviewAll p (s.completed.contains ·) affected s.changed
    set { s with
      knowledge := r.knowledge, changed
      pending := r.returning.foldl PendingJobs.addReturning s.pending }
    if r.returning.isEmpty && r.leaving.isEmpty then return
    r.returning.forM fun f => do
      ((← get).returns.get? f).getD [] |>.forM (settleReturn p)
      modify fun s => { s with returns := s.returns.erase f }
    r.leaving.forM fun f => do
      ((← get).returns.get? f).getD [] |>.forM (settleLeaving p)
      modify fun s => { s with returns := s.returns.erase f }
    reviewFunctions fuel

def dropPending : Scanning Unit := do
  let s ← get
  let (dropped, pending) := s.pending.dropLeaving fun f => (s.knowledge.functions.get? f).any (·.returning = some false)
  set { s with pending }
  dropped.forM fun j => deregister j.func (.job j)

end Scanning

/-! ## Data that code refers to

Numbers in code that are addresses of the program's memory, and what is likely to be found there: pointers, text, or something
unknown. -/

def Backing.contentFrom (b : Backing) (addr : Nat) : List UInt8 :=
  ((b.segmentAt? addr).map fun (base, bytes) => (bytes.extract (addr - base) bytes.size).toList).getD []

namespace Program

variable (p : Program)

def bytesAt (addr length : Nat) : List UInt8 := (p.backing.contentFrom addr).take length

def pointerAt? (addr : Nat) : Option Nat :=
  let bytes := p.bytesAt addr p.arch.bytes
  if bytes.length < p.arch.bytes then none
  else
    let ordered := match p.arch.endness with | .little => bytes.reverse | .big => bytes
    some (ordered.foldl (fun n b => 256 * n + b.toNat) 0)

end Program

def isPrintable (b : UInt8) : Bool := (0x20 ≤ b && b < 0x7f) || b == 9 || b == 10 || b == 13

def textOfBytes (bs : List UInt8) : String := String.ofList (bs.map fun b => Char.ofNat b.toNat)

namespace Scanning

variable (p : Program)

/-! ### References -/

def addReference (block stmt : Nat) (ins : Option Nat) (addr : Nat) (size : Option (Nat × String)) : Scanning Unit := do
  let s ← get
  let refs := if block ≠ 0 && stmt ≠ 0 then [(block, stmt, ins)] else []
  let more (d : DataItem) : DataItem := { d with refs := insertNew (block, stmt, ins) d.refs }
  if !p.holds addr then
    if addr = p.base + p.size then
      if !s.data.contains addr then
        set { s with data := s.data.set addr { addr, size := some 0, sort := some "segment-boundary", refs } }
      else if s.keepsAll then set { s with data := s.data.alter addr more }
    return
  let data :=
    if !s.data.contains addr then
      match size with
      | some (n, sort) => s.data.set addr { addr, size := some n, sort := some sort, maxSize := some n, refs }
      | none => s.data.set addr { addr, size := some 0, sort := some "unknown", refs }
    else if s.keepsAll then s.data.alter addr more else s.data
  set { s with data, dataOf := match ins with | some i => s.dataOf.set i addr | none => s.dataOf }

def numbersOf : Ir.Expr → List (Nat × Option (Nat × String))
  | .const c => c.nat?.toList.map (·, none)
  | .load _ ty (.const c) => c.nat?.toList.map (·, some (ty.bits / 8, "integer"))
  | .op name [a, b] =>
    match a, b with
    | .const x, .const y =>
      if name = "Iop_Add32" || name = "Iop_Add64" then [(x.nat?.getD 0 + y.nat?.getD 0, none)]
      else (x.nat?.toList ++ y.nat?.toList).map (·, none)
    | .const x, _ => x.nat?.toList.map (·, none)
    | _, .const y => y.nat?.toList.map (·, none)
    | _, _ => []
  | .ite c a b => [c, a, b].flatMap fun e => match e with
    | .const c => c.nat?.toList.map (·, none)
    | _ => []
  | _ => []

def constant : Ir.Expr → List (Nat × Option (Nat × String))
  | .const c => c.nat?.toList.map (·, none)
  | _ => []

def numbersIn (arch : Arch) : Ir.Stmt → List (Nat × Option (Nat × String))
  | .write _ e => numbersOf e
  | .put off e => if off = arch.ipOffset then [] else constant e
  | .store _ a d => constant a ++ constant d
  | _ => []

def collectData (b : Ir.Block) : Scanning Unit := do
  let _ ← (b.stmts.mapIdx fun i s => (i, s)).foldlM (fun ((ins : Option Nat), (marks : List Nat)) (i, s) => do
    match s with
    | .mark .. => return (marks.head?, marks.drop 1)
    | s =>
      (numbersIn p.arch s).forM fun (v, size) => if some v = marks.head? then pure () else addReference p b.addr i ins v size
      return (ins, marks)) (none, b.instructions)

/-! ### What data is -/

def wideText : List UInt8 → List Nat
  | a :: b :: c :: d :: rest =>
    let v := a.toNat + 256 * (b.toNat + 256 * (c.toNat + 256 * d.toNat))
    if v = 0 then [] else v :: wideText rest
  | _ => []

def guess (segments : Segments) (addr : Nat) (maxSize : Nat) : Option (String × Nat × Option String) :=
  if segments.sortAt? addr = some "code" then some ("code reference", 0, none)
  else
    let word := p.arch.bytes
    let slots := (min (512 * word) maxSize + word - 1) / word
    let pointers := ((List.range slots).map fun i => p.pointerAt? (addr + i * word)).takeWhile fun q => q.all p.holds
    let count := (pointers.filter Option.isSome).length
    if count > 0 then some ("pointer-array", word * count, none)
    else
      let block := p.backing.contentFrom addr
      let wide := (wideText block).take 1024
      let isWide := match block with
        | a :: 0 :: _ :: 0 :: _ => isPrintable a && !wide.isEmpty && wide.all fun v => v < 128 && isPrintable v.toUInt8
        | _ => false
      if isWide then some ("unicode", (wide.length + 1) * 2, some (String.ofList (wide.map Char.ofNat)))
      else
        let most := min (min block.length maxSize) 4096
        let text := (block.take most).takeWhile (· ≠ 0)
        if !text.isEmpty && text.all isPrintable then some ("string", min (text.length + 1) most, some (textOfBytes text))
        else none

def roomFor (keys : List Nat) (d : DataItem) : DataItem :=
  if p.isExecutable d.addr then d
  else
    let next := keys.find? (d.addr < ·)
    let last := if p.holds d.addr then some (p.base + p.size) else none
    match next, last with
    | none, none => d
    | some n, none => { d with maxSize := some ((n : Int) - d.addr) }
    | none, some l => { d with maxSize := some ((l : Int) - d.addr) }
    | some n, some l => { d with maxSize := some ((min l n : Nat) - (d.addr : Int)) }

def followPointers (addr size : Nat) : Scanning Bool := do
  let word := p.arch.bytes
  (List.range (size / word)).foldlM (fun found i => do
    let s ← get
    let some q := p.pointerAt? (addr + i * word) | return found
    let sort := s.segments.sortAt? q
    if !p.holds q || sort = some "code" || sort = some "pointer-array" || s.data.contains q then return found
    set { s with data := s.data.set q { addr := q, size := some 0, sort := some "unknown" } }
    return true) false

def classify : Nat → List Nat → Bool → Scanning Bool
  | 0, _, found => return found
  | _ + 1, [], found => return found
  | fuel + 1, addr :: rest, found => do
    let s ← get
    let d := (s.data.get? addr).getD { addr }
    if d.sort = some "segment-boundary" then classify fuel rest found
    else
      let isOpen := d.sort.isNone || d.sort = some "unknown" || (d.sort = some "integer" && d.size = some p.arch.bytes)
      let kind := if isOpen then guess p s.segments addr ((d.maxSize.getD 0).toNat)
        else some (d.sort.getD "", d.size.getD 0, none)
      match kind with
      | none =>
        let size := d.maxSize.map (·.toNat)
        set { s with
          data := s.data.set addr { d with size }
          segments := s.segments.occupy addr (size.getD 0) (d.sort.getD "") }
        classify fuel rest found
      | some (sort, size, content) =>
        let d := { d with size := some size, sort := some sort, content := content <|> d.content }
        set { s with data := s.data.set addr d }
        let rest ← match d.maxSize with
          | some m =>
            if size > 0 && (size : Int) < m then do
              let new := addr + size
              modify fun s => { s with data := s.data.set new { addr := new, maxSize := some (m - size) } }
              pure (new :: rest)
            else pure rest
          | none => pure rest
        let more ← if sort = "pointer-array" then followPointers p addr size else pure false
        occupy addr size sort
        classify fuel rest (found || more)

def tidyData : Nat → Scanning Unit
  | 0 => return
  | fuel + 1 => do
    let keys := (← get).data.keys.mergeSort (· ≤ ·)
    modify fun s => { s with data := ⟨s.data.entries.map fun (a, d) => (a, roomFor p keys d)⟩ }
    if ← classify p (2 * (keys.length + p.size) + 2) keys false then tidyData fuel

end Scanning

/-! ## Scanning a block

What one address adds to a scan: a node for the block or the procedure there, and a job for each place to which control can go from
it. -/

/-! ### Returns by a saved address -/

namespace LinkPlace

inductive Origin where
  | stack (offset : Int)
  | link
  | loaded (offset : Int)

variable (arch : Arch)

def find (addr : Nat) : List Ir.Stmt → Table Nat Origin → LinkPlace
  | [], _ => .register
  | s :: rest, temps =>
    let stored (place data : Ir.Expr) : LinkPlace :=
      match place, data with
      | .temp a, .temp d =>
        match temps.get? d, temps.get? a with
        | some .link, some (.stack off) => .stack off
        | _, _ => find addr rest temps
      | _, _ => find addr rest temps
    match s with
    | .mark a _ d => if a + d = addr then find addr rest temps else .register
    | .write n (.get off _) =>
      if off = arch.spOffset then find addr rest (temps.set n (.stack 0))
      else if some off = arch.lrOffset then find addr rest (temps.set n .link)
      else find addr rest temps
    | .write n (.op "Iop_Sub32" [.temp a, .const c]) =>
      match temps.get? a, c.nat? with
      | some (.stack off), some v => find addr rest (temps.set n (.stack (off - v)))
      | _, _ => find addr rest temps
    | .store _ place data => stored place data
    | .storeIf _ place data _ => stored place data
    | _ => find addr rest temps

def trace (stmts : List Ir.Stmt) : Table Nat Origin × Option Int :=
  stmts.foldl (fun (temps, sp) s =>
    match s with
    | .write n (.get off _) => (if off = arch.spOffset then temps.set n (.stack 0) else temps, sp)
    | .write n (.op "Iop_Add32" [.temp a, .const c]) =>
      match temps.get? a, c.nat? with
      | some (.stack off), some v => (temps.set n (.stack (off + v)), sp)
      | _, _ => (temps, sp)
    | .write n (.load _ _ (.temp a)) =>
      match temps.get? a with
      | some (.stack off) => (temps.set n (.loaded off), sp)
      | _ => (temps, sp)
    | .put off (.temp n) =>
      match temps.get? n with
      | some (.stack o) => (temps, if off = arch.spOffset then some o else sp)
      | _ => (temps, sp)
    | _ => (temps, sp)) ({}, none)

def isReturn (saved : Int) (last : Ir.Block) : Try Bool :=
  match trace arch last.stmts, last.next with
  | (temps, some sp), .temp n =>
    match temps.get? n with
    | none => raise .badKey
    | some (.loaded off) => .ok (off - sp = saved)
    | some _ => .ok false
  | _, _ => .ok false

end LinkPlace

/-- The block as it counts for a scan: on a processor with a link register, a jump to a saved return address is a return. -/
def Scanning.asReturn (p : Program) (addr func : Nat) (b : Ir.Block) : Scanning Ir.Block := do
  if !p.arch.isArm then return b
  let f := (← get).knowledge.functions.get? func
  if addr = func then
    if f.any (·.link = .unknown) then
      let place := LinkPlace.find p.arch addr b.stmts {}
      Scanning.modifyKnowledge fun k => k.onFunction p func ({ · with link := place })
    return b
  let place : Option LinkPlace := f.map (·.link)
  match place, b.next with
  | some (.stack saved), .temp _ =>
    if b.jumpkind ≠ "Ijk_Boring" then return b
    let some last := b.instructions.getLast? | raise .badAttribute
    let tail ← ofExcept (p.blockAt last)
    if ← ofExcept (LinkPlace.isReturn p.arch saved tail) then return { b with jumpkind := "Ijk_Ret" } else return b
  | _, _ => return b

namespace Scanning

variable (p : Program) (addr func : Nat)

def makeNode : Scanning (Option (Nat × FlowNode × Option Ir.Block)) := do
  let s ← get
  match s.flow.at? addr with
  | some n => return some (((s.flow.factsOf n).function).getD func, n, none)
  | none =>
    let limit := (s.knowledge.functions.ceiling? addr).bind fun next => if next = addr then none else some (next - addr)
    match p.blockAt addr { bytes := limit } with
    | .error f => if noCode f then return none else throw f
    | .ok b =>
      if b.size = 0 || b.jumpkind = "Ijk_NoDecode" then
        occupy addr (if b.size = 0 then 1 else b.size) "nodecode"
        return none
      occupy addr b.size "code"
      let n : FlowNode := { addr, size := some b.size }
      modifyFlow fun g => (g.record (some { addr }) n).setFacts n
        { function := some func, instructions := b.instructions, id := some { addr } }
      return some (func, n, some b)

/-! ### Jobs -/

/-- The last instruction that starts in some statements; with a delay slot the last but one for calls. -/
def lastMark (stmts : List Ir.Stmt) (skip : Nat) : Option Nat :=
  ((stmts.filterMap fun s => match s with | .mark a _ _ => some a | _ => none).reverse.drop skip).head?

variable (b : Ir.Block)

def noteIndirect (func : Nat) (jumpkind : String) (stmt : ExitPoint) : Scanning Unit := do
  if !(← get).flow.indirect.contains b.addr then
    let stmts := match stmt with | .atStmt i => b.stmts.take i | .atEnd => b.stmts
    let skip := if p.arch.delaySlot && jumpkind ≠ "Ijk_Boring" then 1 else 0
    let j : IndirectJump := { addr := b.addr, ins := lastMark stmts skip, function := func, jumpkind, stmt }
    modifyFlow fun g => { g with indirect := g.indirect.set b.addr j }
  modify fun s => { s with unresolved := insertNew b.addr s.unresolved }
  register func (.jump b.addr)

def unknownTarget : Nat := (p.externNames.lookup "UnresolvableTarget").getD 0

structure Target where
  addr : Option Nat
  jumpkind : String
  stmt : ExitPoint
  ins : Option Nat

def jumpJob (n : FlowNode) (func : Nat) (t : Target) (target : Nat) : Scanning (List ScanJob) := do
  let s ← get
  let toFunc :=
    if !p.isLaidOut n.addr && p.isLaidOut target then target
    else if s.traced.contains target then ((s.flow.anyNode? target).bind fun m => (s.flow.factsOf m).function).getD func
    else func
  let outside := toFunc ≠ func
  if ← addTransition p target n func outside then
    return [{ addr := target, func := toFunc, jumpkind := t.jumpkind, last := some n.addr, src := some n, ins := t.ins
              stmt := some t.stmt }]
  else return []

def callJobs (size : Option Nat) (n : FlowNode) (func : Nat) (t : Target) : Scanning (List ScanJob) := do
  let isSyscall := t.jumpkind.startsWith "Ijk_Sys"
  let callee := if isSyscall then some (unknownTarget p) else t.addr
  let back := size.map (n.addr + ·)
  let found ← match callee with
    | some c => addCall p c n back func isSyscall
    | none => pure true
  if !found then return []
  match back with
  | some b =>
    let j : ScanJob :=
      { addr := b, func, jumpkind := "Ijk_FakeRet", last := some n.addr, src := some n, ins := t.ins, stmt := some t.stmt
        source := callee, isSyscall }
    modify fun s => { s with pending := s.pending.add j }
    register func (.job j)
  | none => pure ()
  let some c := callee | return []
  match ((← get).knowledge.functions.get? c).bind (·.returning), back with
  | some true, some b =>
    addFakeReturn p b n func true
    addReturnEdge p c b func
  | none, some b =>
    addFakeReturn p b n func false
    modify fun s => { s with
      returns := s.returns.set c (insertNew ⟨c, func, n.addr, b⟩ ((s.returns.get? c).getD [])) }
  | _, _ => pure ()
  return [{ addr := c, func := c, jumpkind := t.jumpkind, last := some n.addr, src := some n, ins := t.ins
            stmt := some t.stmt, isSyscall }]

def jobsFor (b : Option Ir.Block) (n : FlowNode) (func : Nat) (t : Target) : Scanning (List ScanJob) := do
  let facts := (← get).flow.factsOf n
  let fallsThrough := t.jumpkind = "Ijk_Call" && !p.arch.callPushesRet && !facts.instructions.isEmpty &&
    t.ins = facts.instructions.getLast? && t.addr = b.map fun b => b.addr + b.size
  let t := if fallsThrough then { t with jumpkind := "Ijk_Boring" } else t
  if t.jumpkind = "Ijk_Boring" then
    match t.addr, b with
    | some a, _ => jumpJob p n func t a
    | none, some b => do
      noteIndirect p b func t.jumpkind t.stmt
      return []
    | none, none => return []
  else if FlowGraph.isCall t.jumpkind then
    match t.addr, b with
    | none, some b =>
      noteIndirect p b func t.jumpkind t.stmt
      let ins := ((← get).flow.indirect.get? b.addr).bind (·.ins)
      let _ ← callJobs p (some b.size) n func { t with ins }
      return []
    | _, _ => callJobs p (b.map (·.size)) n func t
  else if t.jumpkind = "Ijk_Ret" then
    addReturnSite p n.addr func
    modifyKnowledge fun k => k.onFunction p func ({ · with returning := some true })
    addReturning func
    modifyFlow fun g => g.modifyFacts n ({ · with hasReturn := true })
    return []
  else return []

def targetsOf : List Target :=
  let (_, ins, last, ts) := b.stmts.foldl (fun (i, (ins : Nat), (last : Option Nat), (ts : List Target)) s =>
    match s with
    | .mark a _ d => (i + 1, a + d, some ins, ts)
    | .exit _ c jumpkind =>
      let addr := match c with
        | .num (.int 32) v | .num (.int 64) v => some v
        | _ => none
      (i + 1, ins, last, ts ++ [⟨addr, jumpkind, .atStmt i, if p.arch.delaySlot then last else some ins⟩])
    | _ => (i + 1, ins, last, ts)) (0, b.addr, none, [])
  let addr := match b.next with
    | .const c => c.nat?
    | _ => none
  ts ++ [⟨addr, b.jumpkind, .atEnd, if p.arch.delaySlot then last else some ins⟩]

/-! ### Scanning -/

structure Arrival where
  jumpkind : String := ""
  src : Option FlowNode := none
  ins : Option Nat := none
  stmt : Option ExitPoint := none

variable (a : Arrival)

def Arrival.arc : FlowArc := ⟨a.jumpkind, a.stmt, a.ins⟩

def traceNew (addr : Nat) : Scanning Bool := do
  if (← get).traced.contains addr then return false
  modify fun s => { s with traced := s.traced ++ [addr] }
  return true

def scanProcedure (h : Procedure) (addr func : Nat) (a : Arrival) : Scanning (List ScanJob) := do
  let n : FlowNode := { addr, size := some 0, procedure := some h.display }
  let n ← match (← get).flow.at? addr with
    | some m => pure m
    | none => do
      modifyFlow fun g => (g.record (some { addr }) n).setFacts n
        { function := some func, noReturn := h.noReturn, id := some { addr } }
      pure n
  link n a.src a.arc
  addNode p addr func
  modify fun s => { s with changed := insertNew func s.changed }
  if !(← traceNew addr) then return []
  if h.addsExits && a.src.isNone then raise .badGraph
  if !h.noReturn then
    modifyFlow fun g => g.modifyFacts n ({ · with hasReturn := true })
    addReturnSite p addr func
  return []

def scanCode : Scanning (List ScanJob) := do
  let some (owner, n, b) := ← makeNode p addr func | return []
  link n a.src a.arc
  addNode p addr owner
  modify fun s => { s with changed := insertNew func s.changed }
  if !(← traceNew (if p.arch.isArm then addr / 2 * 2 else addr)) then return []
  let some b := b | raise .badAttribute
  let b ← asReturn p addr owner b
  if (← get).collects then collectData p b
  (targetsOf p b).foldlM (fun js t => do return js ++ (← jobsFor p (some b) n owner t)) []

def scanAt : Scanning (List ScanJob) :=
  match p.hooks[addr]? with
  | some h => scanProcedure p h addr func a
  | none => scanCode p addr func a

end Scanning

end SymExec
