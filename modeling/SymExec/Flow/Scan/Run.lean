import SymExec.Analysis.Blade
import SymExec.Flow.Scan.Overlap

/-!
# Running a scan

Jobs are done in the order in which they came.
-/

namespace SymExec

namespace Program

variable (p : Program)

def scanRegions (o : ScanOptions) : Try (List (Nat × Nat)) :=
  let all := o.regions.getD [(p.base, p.base + p.size - 1)]
  let sparse (r : Nat × Nat) : Bool :=
    match p.bytesAt r.1 (r.2 - r.1 + 1) with
    | [] => true
    | b :: bs => bs.all (· == b)
  match (all.filter fun r => !(o.skipSparse && sparse r)).mergeSort (fun a b => a.1 ≤ b.1) with
  | [] => .error (.because .controlFlow "Regions are empty or all regions are skipped. You may want to manually specify regions.")
  | rs => .ok rs

/-- The place where targets stand that are not known has a procedure that goes nowhere. -/
def withUnknownTarget : Program :=
  let (a, p) := p.named "UnresolvableTarget"
  match Procedure.ofName? "stubs" "UnresolvableTarget" with
  | some q => if p.isHooked a then p else p.hookNew a q false
  | none => p

end Program

/-! ### Beginnings of functions -/

/-- A pattern of bytes: for each byte the values that it may have, or all if none are given. -/
abbrev BytePattern := List (List UInt8)

def BytePattern.matchesAt : BytePattern → List UInt8 → Bool
  | [], _ => true
  | _ :: _, [] => false
  | s :: rest, b :: bs => (s.isEmpty || s.contains b) && matchesAt rest bs

def BytePattern.places (pat : BytePattern) : List UInt8 → Nat → Nat → List Nat
  | [], _, _ => []
  | b :: bs, i, skip =>
    if skip > 0 then places pat bs (i + 1) (skip - 1)
    else if matchesAt pat (b :: bs) then i :: places pat bs (i + 1) (pat.length - 1)
    else places pat bs (i + 1) 0

def Arch.prologues (a : Arch) : List BytePattern :=
  if a.name = "AMD64" then [[[0x55], [0x48], [0x89], [0xe5]], [[0x48], [0x83, 0x2c, 0x81], [0xec], []]]
  else if a.name = "X86" then [[[0x8b], [0xff], [0x55], [0x8b], [0xec]], [[0x55], [0x8b], [0xec]], [[0x55], [0x89], [0xe5]]]
  else if a.isArm then [[[], [], [0x2d], [0xe9]], [[0x04], [0xe0], [0x2d], [0xe5]]]
  else if a.name = "MIPS32" then
    let swap (b : BytePattern) := match a.endness with | .big => b | .little => b.reverse
    [swap [[0x27], [0xbd], [0xff], []], swap [[0x3c], [0x1c], [], []] ++ swap [[0x9c], [0x27], [], []]]
  else if a.name = "PPC32" then [[[0x94], [0x21], [], [], [0x7c], [0x08], [0x02], [0xa6]]]
  else []

variable (p : Program)

def Program.prologueAddrs : List Nat :=
  let bytes := p.bytesAt p.base p.size
  let found := p.arch.prologues.flatMap fun pat => (pat.places bytes 0 0).map (p.base + ·)
  (found.filter fun a => a % p.arch.instructionAlignment = 0 && p.isExecutable a).eraseDups.mergeSort (· ≤ ·)

namespace Scanning

variable (p : Program) (regions : List (Nat × Nat))

/-! ### Bytes that no one has looked at -/

variable (addr : Nat)

def inRegions : Bool := regions.any fun (lo, hi) => lo ≤ addr && addr < hi

def nextInRegions? : Option Nat :=
  if inRegions regions addr then some addr
  else if regions.any fun (lo, _) => lo ≤ addr then (regions.find? fun (lo, _) => addr ≤ lo).map (·.1)
  else none

def nextUnscanned : Scanning (Option Nat) := do
  let s ← get
  let first := (regions.head?.map (·.1)).getD 0
  let start := match s.position with | none => first | some a => a + 1
  set { s with position := some (s.position.getD first) }
  let some a := nextInRegions? regions start | return none
  let a := if s.segments.isEmpty then a else s.segments.nextFree a
  let some (lo, _) := regions.find? fun (lo, hi) => (lo ≤ a && a < hi) || a < lo | return none
  let a := max a lo
  modify ({ · with position := some a })
  return if inRegions regions a then some a else none

def textLength : List UInt8 → Nat → Nat → Nat
  | [], _, n => if n = 0 then 0 else n + 1
  | b :: bs, addr, n =>
    if !inRegions regions addr then (if n = 0 then 0 else n + 1)
    else if b = 0 then (if n < 4 then 0 else n + 1)
    else if isPrintable b then textLength bs (addr + 1) (n + 1)
    else 0

def repeatLength (byte : UInt8) : List UInt8 → Nat → Nat → Nat
  | [], _, n => if n > p.arch.bytes then n else 0
  | b :: bs, addr, n =>
    if inRegions regions addr && b = byte then repeatLength byte bs (addr + 1) (n + 1)
    else if n > p.arch.bytes then n else 0

def passData : Nat → Nat → Scanning Nat
  | 0, addr => return addr
  | fuel + 1, addr => do
    let text := textLength regions (p.backing.contentFrom addr) addr 0
    occupy addr text "string"
    let after := addr + text
    let pad := if p.arch.isPc then repeatLength p regions 0xcc (p.backing.contentFrom after) after 0 else 0
    occupy after pad "alignment"
    let after := after + pad
    let zeros := repeatLength p regions 0 (p.backing.contentFrom after) after 0
    occupy after zeros "alignment"
    if text = 0 && pad = 0 && zeros = 0 then return after else passData fuel (after + zeros)

def nextCode : Nat → Scanning (Option Nat)
  | 0 => return none
  | fuel + 1 => do
    let some start := ← nextUnscanned regions | return none
    let a ← passData p regions (p.size + 1) start
    let align := p.arch.instructionAlignment
    let rest := a % align
    if rest > 0 then occupy a (align - rest : Nat) "alignment"
    let a := if rest > 0 then a - rest + align else a
    if (← get).segments.isOccupied a then nextCode fuel else return some a

/-! ### Jumps whose targets are computed -/

def loadBehind (slice : Digraph SlicePoint Unit) : Nat → SlicePoint → List SlicePoint → Try (Option (List SlicePoint))
  | 0, _, _ => .ok none
  | fuel + 1, point, passed => do
    match slice.preds point with
    | [(addr, .atStmt i)] =>
      let b ← p.blockAt addr
      let here : SlicePoint := (addr, .atStmt i)
      match b.stmts[i]? with
      | some (.write _ e) | some (.put _ e) =>
        match e with
        | .get .. | .temp _ => loadBehind slice fuel here (here :: passed)
        | .load .. => return some (here :: passed)
        | _ => return none
      | _ => return none
    | _ => return none

def resolveJump (j : IndirectJump) : Scanning Unit := do
  if j.jumpkind ≠ "Ijk_Boring" then return
  let g := (← get).flow
  let slice ← ofExcept (Blade.make p g j.addr none)
  let stop : SlicePoint := (j.addr, .atEnd)
  if stop ∉ slice.nodes then return
  let some passed := ← ofExcept (loadBehind p slice (slice.nodes.length + 1) stop [stop]) | return
  let rest := passed.foldl .removeNode slice
  if rest.nodes.any fun n => (rest.preds n).isEmpty then raise .badType

def markUnresolved : Scanning Unit := do
  let some j := (← get).flow.indirect.get? addr | return
  modify fun s => { s with unresolved := s.unresolved.erase addr }
  deregister j.function (.jump addr)
  let target := unknownTarget p
  let n : FlowNode := { addr := target, size := some 0, procedure := some "UnresolvableTarget" }
  if ((← get).flow.at? target).isNone then
    modifyFlow fun g => (g.record (some { addr := target }) n).setFacts n { function := some target }
  match (← get).flow.at? addr with
  | none => raise .badKey
  | some src =>
    link n (some src) ⟨j.jumpkind, some j.stmt, j.ins⟩
    let _ ← addTransition p target src j.function true (some target)
  modifyKnowledge fun k => { k with unresolved := insertNew addr k.unresolved }

def resolveJumps : Scanning Unit := do
  let s ← get
  let addrs := s.unresolved.mergeSort (· ≤ ·)
  addrs.forM fun a =>
    match s.flow.indirect.get? a with
    | some j => resolveJump p j
    | none => pure ()
  addrs.forM (markUnresolved p)

/-! ### The loop -/

def pushReturning : Scanning Bool := do
  let some (j, pending) := (← get).pending.popReturning | return false
  modify ({ · with pending })
  push j
  return true

def pushNew : Scanning Unit := do
  let j : ScanJob := { addr, func := addr, jumpkind := "Ijk_Boring" }
  push j
  register addr (.job j)

variable (o : ScanOptions)

def refill : Scanning Unit := do
  if !(← get).pending.isEmpty then
    if ← pushReturning then return
    dropPending
  completeFunctions
  reviewFunctions p ((← get).knowledge.functions.map.size + 2)
  modify ({ · with changed := [] })
  if !(← get).pending.isEmpty then
    dropPending
    if ← pushReturning then return
    match (← get).pending.popAny with
    | some (j, pending) =>
      modify ({ · with pending })
      push j
      return
    | none => pure ()
  let s ← get
  match s.prologues.dropWhile s.segments.isOccupied with
  | a :: rest =>
    modify ({ · with prologues := rest })
    pushNew a
    return
  | [] => modify ({ · with prologues := [] })
  if o.resolveJumps && !(← get).unresolved.isEmpty then resolveJumps p
  if o.complete then
    match ← nextCode p regions (p.size + 2) with
    | some a => pushNew a
    | none => pure ()

def loop : Nat → Scanning Unit
  | 0 => return
  | fuel + 1 => do
    if (← get).queue.isEmpty then refill p regions o
    let some (j, queue) := (← get).queue.take? ScanJob.queueing | return
    deregister j.func (.job j)
    modify ({ · with queue })
    let jobs ← scanAt p j.addr j.func ⟨j.jumpkind, j.src, j.ins, j.stmt⟩
    jobs.forM fun j => register j.func (.job j)
    jobs.forM push
    loop fuel

/-! ### The end -/

variable (f : Function)

def confirmReturns : Scanning Unit := do
  let functions := (← get).knowledge.functions
  let callees (site : Nat) := (f.transfers.arcList.filter fun a => a.label.kind = .call && a.src.addr = site).map (·.dst.addr)
  let open_ := f.transfers.arcList.filter fun a => a.label.kind = .fakeReturn && !a.label.confirmed
  let leaves (a : Arc CodeNode Transfer) : Bool :=
    let cs := callees a.src.addr
    !cs.isEmpty && cs.all fun c => (functions.get? c).any (·.returning = some false)
  let g := (open_.filter (!leaves ·)).foldl (fun f a => f.confirmReturn a.src a.dst) f
  let g := { g with transfers := (open_.filter leaves).foldl (fun t a => t.removeArc a.src a.dst) g.transfers }
  modifyKnowledge fun k => { k with functions := k.functions.modify f.addr fun _ => g }

def dropAlignments : Scanning Unit := do
  (← get).knowledge.functions.all.forM fun f => do
    match f.isProcedure || f.isSyscall, f.own.entries with
    | false, [(a, n)] =>
      let idle := match n.size? with
        | none | some 0 => true
        | some size => match p.blockAt a { bytes := some size } with
          | .ok b => b.allNoops
          | .error _ => false
      if idle then forgetFunction f.addr
    | _, _ => pure ()

def returnSources (functions : Functions) (f : Function) : List CodeNode :=
  let beyond :=
    if (f.endpointsBy .transition).isEmpty then []
    else (functions.calls.filter fun c => c.src = f.addr && c.kind = .transition).flatMap fun c =>
      ((functions.get? c.dst).map (·.endpointsBy .return)).getD []
  (beyond ++ f.endpointsBy .return).eraseDups

def linkReturns : Scanning Unit := do
  let s ← get
  if f.returning = some false then return
  let some start := f.startpoint.bind fun n => s.flow.anyNode? n.addr | return
  let callers := s.flow.predecessors start (· = "Ijk_Call")
  let backs := (callers.flatMap fun c => s.flow.successors c FlowGraph.isFakeReturn).eraseDups
  if backs.isEmpty then return
  (returnSources s.knowledge.functions f).forM fun e => do
    let src ← orRaise (s.flow.anyNode? e.addr) .badAttribute
    let ins := FlowGraph.lastInstruction? p.arch (s.flow.factsOf src)
    backs.forM fun b => link b (some src) ⟨"Ijk_Ret", some .atEnd, ins⟩

def finish : Scanning Unit := do
  completeFunctions
  reviewFunctions p ((← get).knowledge.functions.map.size + 2)
  (← get).knowledge.functions.all.forM confirmReturns
  modifyKnowledge (·.mapFunctions fun f => if f.returning.isNone then { f with returning := some (!f.endpoints.isEmpty) } else f)
  if p.arch.isPc || p.arch.name = "MIPS32" then removeOverlaps p
  if o.normalize then modifyFlow FlowGraph.normalize
  let s ← get
  match s.flow.makeFunctions p s.knowledge with
  | .ok () a => set { s with knowledge := a.knowledge, flow := a.flow }
  | .error f a => do
    set { s with knowledge := a.knowledge, flow := a.flow }
    throw f
  dropAlignments p
  (← get).knowledge.functions.all.forM (linkReturns p)
  tidyData p (p.size + 2)
  if o.normalize then modifyKnowledge (·.normalizeFunctions p)

end Scanning

def Program.scanBound : Nat := 16 * (p.size + (p.blocks.map fun b => b.stmts.length + 4).sum + p.hooks.size + 16)

def Program.scan (o : ScanOptions) (k : Knowledge) : EStateM.Result Fault Scan Unit :=
  match p.scanRegions o with
  | .error f => .error f { knowledge := k }
  | .ok regions =>
    let act : Scanning Unit := do
      let starts := o.starts.eraseDups.mergeSort (fun a b => a ≥ b)
      let entry := if o.atEntry && Scanning.inRegions regions p.entry && !starts.contains p.entry then [p.entry] else []
      (starts ++ entry).forM Scanning.pushNew
      if o.prologues then modify ({ · with prologues := p.prologueAddrs })
      Scanning.loop p regions o p.scanBound
      Scanning.finish p o
    act { knowledge := { k with functions := {} }, collects := o.collectData, keepsAll := o.allReferences }

end SymExec
