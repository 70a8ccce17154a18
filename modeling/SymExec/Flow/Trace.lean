import SymExec.Flow.Graph
import SymExec.Flow.Queue

/-!
# Traces

A trace finds the control flow of a program by running it, block by block and each block once in each context.
-/

namespace SymExec

structure TraceOptions where
  starts : Option (List Nat) := none
  entering : String := "Ijk_Boring"
  registers : List (String × Bits) := []
  level : Nat := 1
  callDepth : Option Int := none
  (keepsStates normalize : Bool := false)
  rounds : Nat := 1
  avoid : List Nat := []
  allowed : Option (List Nat) := none
  maxSteps : Option Nat := none
  (adding removing : List Setting := [])

variable (level : Nat)

def Frame.suffix (fs : List Frame) : Context :=
  let top := (fs.take level).reverse.flatMap fun f => [f.callSite, f.func]
  List.replicate (2 * level - top.length) none ++ top

/-- Goes back from a call: to the frame below the one that returns to a target. -/
def Frame.back (target : Nat) (fs : List Frame) : List Frame :=
  match fs.findIdx? fun f => f.ret = some (target : Int) with
  | some i => match fs.drop (i + 1) with
    | [] => fs
    | rest => rest
  | none => fs

structure TraceJob where
  (id addr : Nat)
  state : State
  jumpkind : String
  src : Option BlockId := none
  stmt : Option ExitPoint := none
  ins : Option Nat := none
  stack : List Frame

def TraceJob.func (j : TraceJob) : Nat := ((j.stack.head?).bind (·.func)).getD 0

def TraceJob.blockId (j : TraceJob) : BlockId :=
  { addr := j.addr, context := some (Frame.suffix level j.stack), isSyscall := j.jumpkind.startsWith "Ijk_Sys" }

def TraceJob.queueing : Queueing BlockId TraceJob := { key := blockId level }

structure WaitingKey where
  caller : Nat
  callee : Option Nat
  src : BlockId
  stmt : Option ExitPoint
  ins : Option Nat
deriving DecidableEq

structure Waiting extends WaitingKey where
  state : State
  stack : List Frame

inductive TraceWork where
  | job (id : Nat)
  | waiting (k : WaitingKey)
deriving DecidableEq

structure LateArc where
  (src dst : BlockId)
  jumpkind : String
  ins : Option Nat

structure Trace where
  world : World
  knowledge : Knowledge
  flow : FlowGraph := {}
  queue : JobQueue BlockId TraceJob := {}
  waiting : Table BlockId Waiting := {}
  traced : Table (Context × Nat) Nat := {}
  work : Table Nat (List TraceWork) := {}
  completed : List Nat := []
  late : Table BlockId (List LateArc) := {}
  depths : Table FlowNode Nat := {}
  serial : Nat := 0

abbrev Tracing := EStateM Fault Trace

namespace Tracing

variable (p : Program)

def exec (act : Exec α) : Tracing α := fun t =>
  match act t.world with
  | .ok a w => .ok a { t with world := w }
  | .error f w => .error f { t with world := w }

instance : MonadLift Exec Tracing := ⟨exec⟩

@[inline] def modifyKnowledge (f : Knowledge → Knowledge) : Tracing Unit := modify fun t => { t with knowledge := f t.knowledge }

@[inline] def modifyFlow (f : FlowGraph → FlowGraph) : Tracing Unit := modify fun t => { t with flow := f t.flow }

/-! ### Work per function -/

variable (func : Nat) (w : TraceWork)

def register : Tracing Unit := modify fun t => { t with work := t.work.set func (insertNew w ((t.work.get? func).getD [])) }

def deregister : Tracing Unit := do
  let ws := ((← get).work.get? func).getD []
  modify fun t => { t with work := t.work.set func (ws.erase w) }
  if w ∉ ws then raise .badKey

def completeFunctions : Tracing Unit := modify fun t =>
  { t with
    completed := (t.work.entries.filter (·.2.isEmpty)).foldl (fun c e => insertNew e.1 c) t.completed
    work := ⟨t.work.entries.filter (!·.2.isEmpty)⟩ }

def push (j : TraceJob) : Tracing Unit := do
  let id := (← get).serial
  modify fun t => { t with serial := id + 1, queue := t.queue.insert (TraceJob.queueing t.flow.level) { j with id } }
  register j.func (.job id)

/-! ### Nodes and arcs -/

def nodeFor (id : BlockId) : Tracing FlowNode := do
  match (← get).flow.ofId? id with
  | some n => return n
  | none =>
    let n : FlowNode := { addr := id.addr, size := none, context := id.context, procedure := some "PathTerminator" }
    let func := (id.context.bind (·.getLast?)).bind fun f => f
    modifyFlow fun g => (g.record (some id) n).setFacts n { function := some (func.getD id.addr), isSyscall := id.isSyscall }
    return n

variable (src : Option BlockId) (dst : BlockId)

def link (a : FlowArc) : Tracing Unit := do
  let v ← nodeFor dst
  match src with
  | none => modifyFlow fun g => { g with graph := g.graph.addNode v }
  | some s =>
    let u ← nodeFor s
    modifyFlow fun g => g.connect u v a

def linkLate (a : LateArc) : Tracing Unit := do
  let v ← nodeFor a.dst
  let u ← nodeFor a.src
  modifyFlow fun g => g.connect u v { jumpkind := a.jumpkind, stmt := (g.graph.label? u v).bind (·.stmt), ins := a.ins }

/-! ### Functions -/

def codeOf (n : FlowNode) : CodeNode :=
  match n.procedure with
  | some name => .hook n.addr n.size name
  | none => .block n.addr (n.size.getD 0) (p.arch.isArm && n.addr % 2 = 1)

def partOf (addr : Nat) : Nat := if p.holds addr then 0 else if p.externBase ≤ addr then 1 else 2

def returnNode (addr : Nat) : Tracing CodeNode := do
  let (f, k) := (← get).knowledge.functionAt p func
  modify ({ · with knowledge := k })
  let thumb := p.arch.isArm && addr % 2 = 1
  if f.own.contains addr then return .block addr (((f.sizes.get? addr).bind fun s => s).getD 0) thumb
  let b ← ofExcept (p.blockAt addr)
  modifyKnowledge fun k => k.onFunction p func fun f => { f with sizes := f.sizes.set addr (some b.size) }
  return .block addr b.size thumb

def passTo (jumpkind : String) (confirmed : Bool := false) : Tracing Unit := do
  let v ← nodeFor dst
  let own (n : FlowNode) : Tracing Nat := do return (((← get).flow.factsOf n).function).getD n.addr
  let toFunc ← own v
  match src with
  | none => modifyKnowledge fun k => k.addNode p toFunc (codeOf p v)
  | some s =>
    let u ← nodeFor s
    let func ← own u
    if jumpkind = "Ijk_Call" then
      let back ← match ((← get).flow.factsOf u).returnTarget with
        | some a => if a = 0 then pure none else some <$> returnNode p func a
        | none => pure none
      modifyKnowledge fun k => k.addCall p func (codeOf p u) v.addr back (some false)
    else if jumpkind.startsWith "Ijk_Sys" then
      modifyKnowledge fun k => k.addCall p func (codeOf p u) v.addr (some (codeOf p u)) (some true)
    else if jumpkind = "Ijk_Ret" then
      modifyKnowledge fun k => (k.addReturn p func (codeOf p u)).addReturnFromCall p toFunc func (codeOf p v)
    else if jumpkind = "Ijk_FakeRet" then
      modifyKnowledge fun k => k.addFakeReturn p func (codeOf p u) (codeOf p v) confirmed false
    else if jumpkind = "Ijk_Boring" then
      if partOf p u.addr = partOf p v.addr && func = toFunc then
        modifyKnowledge fun k => k.addTransition p func (codeOf p u) (codeOf p v)
      else modifyKnowledge fun k => k.addOutsideTransition p func (codeOf p u) (codeOf p v) (some toFunc)

def noteLeaving (callees : List Nat) : Tracing Unit := modifyKnowledge fun k =>
  callees.foldl (fun k c =>
    (k.functions.callers c).foldl (fun k caller =>
      { k with functions := k.functions.modify caller fun f =>
          (f.transfers.preds (.function c)).foldl (fun f site => f.addCallSite site.addr c none) f }) k) k

def reviewFunctions : Tracing Unit := do
  let t ← get
  let (r, _) := t.knowledge.reviewAll p (t.completed.contains ·) (fun () k => (k.functions.addrs, ())) ()
  set { t with knowledge := r.knowledge }
  noteLeaving r.leaving

end Tracing

/-! ## Steps of a trace

A job runs its block, or the procedure that stands in for it, and is given a node. -/

open Exec

namespace Tracing

variable (o : TraceOptions)

def program : Tracing Program := do
  orRaise (← get).world.program .badAttribute

def isCall (jumpkind : String) : Bool := jumpkind = "Ijk_Call" || jumpkind.startsWith "Ijk_Sys_"

variable (s : State)

def jumpkindOf : String := s.history.current.jumpkind.getD ""

def resetMode : State := { s with mode := .fastpath, settings := (Mode.fastpath.settings.insertAll o.adding).eraseAll o.removing }

/-! ### Running a block -/

variable (p : Program)

/-- The procedure that is run in the place of another: where states do not count, all that matters of a procedure that comes
back is that it does. -/
def standIn? (addr : Nat) : Option Procedure :=
  if o.keepsStates then none
  else
    match p.hooks[addr]? with
    | none => none
    | some h =>
      if h.part.isSome || h.addsExits || h.noReturn then none
      else (Procedure.ofName? "stubs" "ReturnUnconstrained").map ({ · with display := h.display })

def deadEnd : Exec Successors := do
  let q ← orRaise (Procedure.ofName? "stubs" "PathTerminator") .badKey
  stepProcedure q

variable (j : TraceJob)

def runJob : Tracing (Option (Successors × State) × Bool) := do
  let p ← program
  let act : Exec Successors := match standIn? o p j.addr with
    | some q => stepProcedure q false (some j.addr)
    | none => successors {}
  let r : Try (Successors × State) ← tryCatch (do return .ok (← exec (onState j.state act))) fun f => return .error f
  match r with
  | .ok r => return (some r, false)
  | .error f =>
    if f.kind.within .execution || f.kind.within .badTerm || f.kind.within .exit then
      return (some (← exec (onState j.state deadEnd)), true)
    else if f.kind.within .program then return (none, true)
    else throw f

/-! ### Nodes -/

def lastPart (s : String) : String := (s.splitOn ".").getLast?.getD s

def makeNode (id : BlockId) (out : Successors) : Tracing FlowNode := do
  match out.procedure with
  | some r =>
    let name := lastPart r.procedure.display
    if name = "ReturnUnconstrained" then raise .badKey
    let n : FlowNode := { addr := out.addr, size := none, context := id.context, procedure := some name }
    modifyFlow fun g => (g.record (some id) n).setFacts n
      { function := some out.addr, id := some id, isSyscall := r.procedure.isSyscall
        noReturn := r.procedure.isSyscall && r.procedure.noReturn }
    return n
  | none =>
    let size := (out.block.map (·.size)).getD 0
    let n : FlowNode := { addr := out.addr, size := some size, context := id.context }
    modifyFlow fun g => (g.record (some id) n).setFacts n
      { function := some j.func, id := some id, instructions := (out.block.map (·.instructions)).getD [] }
    return n

structure Visit where
  job : TraceJob
  id : BlockId
  node : FlowNode
  out : Successors
  failed : Bool

def comeBack (j : TraceJob) (id : BlockId) : Tracing Unit := do
  let waiting := (← get).waiting.get? id
  if j.jumpkind = "Ijk_FakeRet" || (j.jumpkind = "Ijk_Ret" && waiting.isSome) then
    let (src, stmt) ← match waiting with
      | some w => do
        modify fun t => { t with waiting := t.waiting.erase id }
        deregister w.caller (.waiting w.toWaitingKey)
        pure (some w.src, w.stmt)
      | none => pure (j.src, j.stmt)
    link src id ⟨"Ijk_FakeRet", stmt, j.ins⟩
    passTo p src id "Ijk_FakeRet" true

def arrive : Tracing (Option Visit) := do
  let p ← program
  let suffix := Frame.suffix o.level j.stack
  let isSystem := j.jumpkind.startsWith "Ijk_Sys"
  let id := j.blockId o.level
  if !(← get).knowledge.functions.contains j.func then
    modifyKnowledge fun k => k.onFunction p j.func fun f => { f with isSyscall := f.isSyscall || isSystem }
  deregister j.func (.job j.id)
  let count := ((← get).traced.get? (suffix, j.addr)).getD 0
  let skip := count ≥ o.rounds || (isCall j.jumpkind && o.callDepth.any fun d => d < (j.stack.length : Int))
  let (result, failed) ← runJob o j
  let t ← get
  let node ← match t.flow.ofId? id, result with
    | some n, _ => pure n
    | none, some (out, _) => do
      let n ← makeNode j id out
      let before := (j.src.bind t.flow.ofId?).bind t.depths.get?
      modify fun t => { t with depths := t.depths.set n ((before.map (· + 1)).getD 0) }
      pure n
    | none, none => raise .badAttribute
  modify fun t => { t with traced := t.traced.set (suffix, j.addr) (count + 1) }
  if o.keepsStates then
    match result with
    | some (_, s) => modifyFlow fun g => { g with entries := g.entries.set node s }
    | none => raise .badAttribute
  comeBack p j id
  link j.src id ⟨j.jumpkind, j.stmt, j.ins⟩
  passTo p j.src id j.jumpkind
  match result, skip with
  | some (out, _), false =>
    ((← get).late.get? id).getD [] |>.forM linkLate
    modify fun t => { t with late := t.late.erase id }
    return some { job := j, id, node, out, failed }
  | _, _ => return none

/-! ### Where control goes -/

def isIndirect (out : Successors) : Bool :=
  out.block.any fun b => !b.directNext && (b.jumpkind = "Ijk_Call" || b.jumpkind = "Ijk_Boring")

def ipOf : Tracing Bits := do return (← exec (onState s quietIp)).1

def sensible (next : List State) : Tracing (List State) :=
  next.filterM fun s => do
    match ← ipOf s with
    | .lit _ a => return p.isExecutable a || p.isHooked a
    | _ => return true

def fewTargets : List State → Tracing Bool
  | [] => return false
  | s :: rest => do
    if s.settings.has .symbolic then
      let ip ← ipOf s
      let (vs, _) ← exec (onState s (values ip 32))
      if vs.length < 32 then return true else return false
    else fewTargets rest

def markUnresolved (addr : Nat) : Tracing Unit := modifyKnowledge fun k => { k with unresolved := insertNew addr k.unresolved }

variable (v : Visit)

def settleTargets (next : List State) : Tracing (List State) := do
  let p ← program
  let isProcedure := v.node.isProcedure
  let indirect := isIndirect v.out
  let next ← if indirect then sensible p next else pure next
  if v.failed || !(isProcedure || indirect) then return next
  let unknown ← next.filterM fun s => do return (← ipOf s).symbolic
  let hasCalls := next.any (jumpkindOf · = "Ijk_Call")
  let known ← next.filterM fun s => do
    return !(hasCalls && jumpkindOf s = "Ijk_FakeRet") && !(← ipOf s).symbolic
  let resolved ← if unknown.isEmpty then pure true else fewTargets unknown
  if resolved || !((!unknown.isEmpty && known.isEmpty) || (!isProcedure && indirect)) then return next
  if isProcedure && (v.out.procedure.any (·.procedure.addsExits)) then
    markUnresolved v.node.addr
    return next.filter (jumpkindOf · = "Ijk_FakeRet")
  if !isProcedure && next.any (jumpkindOf · ≠ "Ijk_Ret") then
    markUnresolved v.node.addr
    return []
  if next.isEmpty then markUnresolved v.node.addr
  else if isProcedure && next.any (jumpkindOf · ≠ "Ijk_Ret") then markUnresolved v.node.addr
  return next

def endPath : Tracing Unit := do
  let some target := v.job.stack.head?.bind (·.ret) | return
  let dst : BlockId := { addr := target.toNat, context := some (Frame.suffix o.level v.job.stack) }
  let ins := FlowGraph.lastInstruction? p.arch ((← get).flow.factsOf v.node)
  let a : LateArc := { src := v.id, dst, jumpkind := "Ijk_Ret", ins }
  if ((← get).flow.ofId? dst).isSome then linkLate a
  else modify fun t => { t with late := t.late.set dst ((t.late.get? dst).getD [] ++ [a]) }

def follow : Tracing (List State) := do
  let p ← program
  let depth := ((← get).depths.get? v.node).getD 0
  if o.maxSteps.any (· ≤ depth) then return []
  let out := v.out
  let next := if o.avoid.contains v.job.addr then [] else out.states out.flat ++ out.states out.unsat
  let all := next ++ out.states out.unconstrained
  if o.keepsStates then
    let fake (s : State) : Bool := jumpkindOf s = "Ijk_FakeRet"
    let ordered := all.filter (!fake ·) ++ all.filter fake
    modifyFlow fun g => { g with exits := g.exits.set v.node ordered }
  let next ← settleTargets v next
  if next.isEmpty && out.procedure.any fun r => r.procedure.library = "stubs" && r.procedure.name = "PathTerminator" then
    endPath o p v
  return next

/-! ### New jobs -/

structure CallFacts where
  isCall : Bool
  (target back lastTarget : Option Nat := none)

def oneValue (b : Bits) : Tracing (Option Nat) :=
  tryCatch (do return some (← exec (onState s (evalOne b))).1) fun f =>
    if f.kind.within .solverValue || f.kind.within .solverMode then return none else throw f

def stackPointerOf : Tracing (Option Nat) := do
  let (b, _) ← exec (onState s do regAt (← arch).spOffset)
  oneValue s b

def nextStack (all : List State) (target : Nat) (jumpkind : String) : Tracing (List Frame) := do
  let p ← program
  let j := v.job
  if isCall jumpkind then
    let last := all.getLast?
    let sp ← match last with
      | some s => stackPointerOf s
      | none => pure none
    let frame : Frame := { callSite := some j.addr, func := some target, sp := some (sp.getD 0) }
    let some s := last | return [{ frame with ret := none }, {}]
    if all.length > 1 && jumpkindOf s = "Ijk_FakeRet" then
      let ret ← oneValue s (← ipOf s)
      return { frame with ret := some ((ret.getD 0 : Nat) : Int) } :: j.stack
    else if jumpkind.startsWith "Ijk_Sys" && all.length = 1 then return { frame with ret := some (target : Int) } :: j.stack
    else return [{ frame with ret := none }, {}]
  else if jumpkind = "Ijk_Ret" then
    modifyKnowledge fun k => (k.functionAt p j.func).2
    return Frame.back target j.stack
  else if jumpkind = "Ijk_FakeRet" then return j.stack
  else if p.isHooked target then
    return match j.stack with
      | f :: rest => { f with func := some target } :: rest
      | [] => []
  else return j.stack

def isSkipped (jumpkind : String) : Bool :=
  ["Ijk_EmWarn", "Ijk_NoDecode", "Ijk_MapFail", "Ijk_InvalICache", "Ijk_NoRedir", "Ijk_SigTRAP", "Ijk_SigSEGV",
    "Ijk_ClientReq"].contains jumpkind

def send (all : List State) (c : CallFacts) (s : State) : Tracing CallFacts := do
  let p ← program
  let j := v.job
  let jumpkind := jumpkindOf s
  let (new, _) ← exec (onState s fork)
  if isSkipped jumpkind then return c
  let isFake := jumpkind = "Ijk_FakeRet"
  if isFake && c.target.any fun a => p.hooks[a]?.any (·.noReturn) then return c
  let ip ← ipOf s
  let target? ← oneValue s ip
  let (target?, new) ← match target? with
    | some a => pure (some a, new)
    | none =>
      match (if jumpkind = "Ijk_Ret" then j.stack.head?.bind (·.ret) else none) with
      | some a => do
        let ((), new) ← exec (onState new do
          setRegAt (← arch).ipOffset (.ofNat (← arch).bits a.toNat))
        pure (some a.toNat, new)
      | none => pure (none, new)
  let some target := target? | return c
  if o.allowed.any fun as => !as.contains target then return c
  let c := if c.isCall && isCall jumpkind then { c with target := some target } else c
  let c := if c.isCall && isFake then { c with back := some target } else c
  let c := if jumpkind = "Ijk_Call" then { c with lastTarget := some target } else c
  if isFake && c.lastTarget = some target then return c
  if jumpkind = "Ijk_Ret" && o.callDepth.isSome && j.stack.length ≤ 1 then return c
  let stack ← nextStack v all target jumpkind
  let new := resetMode o new
  let exit := s.scratch
  if isFake then
    let dst : BlockId := { addr := target, context := some (Frame.suffix o.level stack) }
    let w : Waiting := { caller := j.func, callee := c.target, src := v.id, stmt := exit.exitStmt
                         ins := exit.exitInstruction, state := new, stack }
    modify fun t => { t with waiting := t.waiting.set dst w }
    register j.func (.waiting w.toWaitingKey)
  else
    let stack := match stack with
      | f :: rest =>
        if !isCall jumpkind && p.externNames.any (·.2 = target) then { f with func := some target } :: rest else stack
      | [] => []
    push { id := 0, addr := target, state := new, jumpkind, src := some v.id, stmt := exit.exitStmt
           ins := exit.exitInstruction, stack }
  return c

def doJob : Tracing Unit := do
  let some v := ← arrive o j | return
  let next ← follow o v
  let start : CallFacts := { isCall := (v.out.states v.out.all).any (isCall ∘ jumpkindOf) }
  let c ← next.foldlM (send o v next) start
  c.back.forM fun a => do if c.isCall then modifyFlow fun g => g.modifyFacts v.node ({ · with returnTarget := some a })

end Tracing

/-! ### Running a trace -/

namespace Tracing

variable (p : Program) (o : TraceOptions)

def dropWaiting : Tracing Bool := do
  let t ← get
  let leaves (w : Waiting) := w.callee.any fun c => (t.knowledge.functions.get? c).any (·.returning = some false)
  let gone := t.waiting.entries.filter fun (_, w) => leaves w
  gone.forM fun (id, w) => do
    match (id.context.bind (·.getLast?)).bind fun f => f, w.callee with
    | some func, some callee =>
      modifyKnowledge fun k => { k with functions := k.functions.modify func (·.addCallSite w.src.addr callee none) }
    | _, _ => pure ()
    deregister w.caller (.waiting w.toWaitingKey)
    modify fun t => { t with waiting := t.waiting.erase id }
  return !gone.isEmpty

def cleanWaiting : Nat → Tracing Unit
  | 0 => return
  | fuel + 1 => do
    completeFunctions
    if (← get).waiting.entries.isEmpty then return
    reviewFunctions p
    if ← dropWaiting then cleanWaiting fuel

def takeWaiting : Nat → Tracing Unit
  | 0 => return
  | fuel + 1 => do
    let some (id, w) := (← get).waiting.entries.getLast? | return
    modify fun t => { t with waiting := t.waiting.erase id }
    deregister w.caller (.waiting w.toWaitingKey)
    let g := (← get).flow
    if (g.ofId? id).any fun n => n ∈ g.graph.nodes then
      link (some w.src) id ⟨"Ijk_FakeRet", w.stmt, w.ins⟩
      takeWaiting fuel
    else
      let h := w.state.history
      let state := { w.state with history := { h with current := { h.current with jumpkind := some "Ijk_FakeRet" } } }
      let (addr, _) ← exec (onState state addr)
      push { id := 0, addr, state, jumpkind := "Ijk_FakeRet", src := some w.src, stmt := w.stmt, ins := w.ins, stack := w.stack }

def loop : Nat → Tracing Unit
  | 0 => return
  | fuel + 1 => do
    if (← get).queue.isEmpty then
      let n := (← get).waiting.size + 1
      cleanWaiting p n
      takeWaiting n
    let t ← get
    let some (j, queue) := t.queue.take? (TraceJob.queueing t.flow.level) | return
    modify ({ · with queue })
    doJob o j
    loop fuel

def startAt (addr : Nat) : Tracing Unit := do
  let s ← exec (startState p { addr := some (.num addr), mode := .fastpath, adding := o.adding, removing := o.removing })
  let (sp, s) ← exec (onState s do
    o.registers.forM fun (r, v) => setReg r v
    if p.arch.name = "MIPS32" || p.arch.name = "MIPS64" then setReg "t9" (.ofNat p.arch.bits addr)
    modifyEpoch ({ · with jumpkind := some o.entering })
    regAt p.arch.spOffset)
  let sp ← oneValue s sp
  push { id := 0, addr, state := s, jumpkind := o.entering
         stack := [{ callSite := none, func := some addr, sp, ret := none }, {}] }

def finish : Tracing Unit := do
  completeFunctions
  reviewFunctions p
  (← get).late.values.forM fun as => as.forM linkLate
  if o.normalize then
    modifyFlow .normalize
    modifyKnowledge (·.normalizeFunctions p)

end Tracing

variable (p : Program)

def Program.traceBound (level : Nat) : Nat :=
  let n := (p.blocks.map fun b => b.stmts.length + 4).sum + p.hooks.size + 16
  n * n * (level + 1)

def Program.trace (o : TraceOptions) (k : Knowledge) (w : World) : EStateM.Result Fault Trace Unit :=
  let starts := o.starts.getD [p.entry]
  let start : Trace := { world := w, knowledge := k }
  if starts.isEmpty then .error (.because .controlFlow "At least one start must be provided") start
  else
    let act : Tracing Unit := do
      starts.forM (Tracing.startAt p o)
      Tracing.loop p o (p.traceBound o.level)
      Tracing.finish (← Tracing.program) o
    act { start with knowledge := { k with functions := {} }, flow := { level := o.level } }

end SymExec
