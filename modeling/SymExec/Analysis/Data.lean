import SymExec.Flow.Graph

/-!
# Live definitions and data dependence

Which statements use what other statements define, and which variables get their values from which.
-/

namespace SymExec

open Exec

inductive Cell where
  | register (offset : Int)
  | memory (addr : Int)
deriving DecidableEq

def Cell.limit : Nat := 32

def Simple.cells (v : Simple) : List Cell :=
  let count := min (v.size.getD 0).toNat Cell.limit
  match v.storage, v.place? with
  | .register o, _ => (List.range count).map fun (i : Nat) => .register (o + i)
  | _, some a => (List.range count).map fun (i : Nat) => .memory (a + i)
  | _, none => []

def Simple.isPlaced (v : Simple) : Bool := (v.storage matches .register _) || v.place?.isSome

structure LiveDefinitions where
  cells : Table Cell (List CodeLocation) := {}
  vars : Table Simple (List CodeLocation) := {}

namespace LiveDefinitions

variable (l : LiveDefinitions)

def at? (c : Cell) : List CodeLocation := (l.cells.get? c).getD []

def contains (l : LiveDefinitions) (v : Simple) : Bool := l.vars.contains v

variable (v : Simple) (place : CodeLocation)

/-- Adds a place at which a variable may be defined, beside those that there are. -/
def add : LiveDefinitions × Bool :=
  if v.isPlaced then
    let isNew := v.cells.any fun c => place ∉ l.at? c
    ({ cells := v.cells.foldl (fun t c => t.set c (if place ∈ (t.get? c).getD [] then (t.get? c).getD []
        else (t.get? c).getD [] ++ [place])) l.cells
       vars := l.vars.set v
        (if place ∈ (l.vars.get? v).getD [] then (l.vars.get? v).getD []
         else (l.vars.get? v).getD [] ++ [place]) }, isNew)
  else (l, false)

def addAll (places : List CodeLocation) : LiveDefinitions × Bool :=
  places.foldl (fun (l, isNew) place =>
    let (l, b) := l.add v place
    (l, isNew || b)) (l, false)

def kill : LiveDefinitions :=
  if v.isPlaced then { cells := v.cells.foldl (fun t c => t.set c [place]) l.cells, vars := l.vars.set v [place] }
  else l

def lookup : List CodeLocation := (v.cells.flatMap l.at?).eraseDups

def join (defs : List (Simple × List CodeLocation)) : LiveDefinitions × Bool :=
  defs.foldl (fun (l, isNew) (v, places) =>
    let (l, b) := l.addAll v places
    (l, isNew || b)) (l, false)

end LiveDefinitions

structure DataPoint where
  var : Simple
  place : CodeLocation
  serial : Nat := 0
deriving DecidableEq

def DataPoint.isTemporary (d : DataPoint) : Bool := d.var.storage matches .temporary _

inductive Use where
  | register (v : Simple)
  | memory (v : Simple)
  | temporary (n : Nat)
  | exit

def Use.label : Use → String
  | register _ => "reg"
  | memory _ => "mem"
  | temporary _ => "tmp"
  | exit => "exit"

def Use.text : Use → String
  | register v | memory v => v.text
  | temporary n => toString n
  | exit => "tmp"

inductive Deriving where
  | plain
  | kill
  | address | content
deriving DecidableEq

structure DataDependence where
  statements : Digraph CodeLocation Use := {}
  data : Digraph DataPoint Deriving := {}

namespace DataDependence

variable (d : DataDependence)

def link (u v : CodeLocation) (use : Use) : DataDependence :=
  if d.statements.hasArc u v then d else { d with statements := d.statements.addArc u v use }

def derive (u v : DataPoint) (how : Deriving) : DataDependence :=
  if d.data.hasArc u v then d else { d with data := d.data.addArc u v how }

/-- The variables without temporaries: what came to a temporary goes on to what it went to. -/
def withoutTemporaries : Digraph DataPoint Deriving :=
  (d.data.nodes.filter DataPoint.isTemporary).foldl (fun g t =>
    let before := g.arcsTo t
    let after := g.arcsFrom t
    let g := before.foldl (fun g a =>
      after.foldl (fun g b =>
        if a.src = t || b.dst = t || g.hasArc a.src b.dst then g
        else g.addArc a.src b.dst (if b.label = .plain then a.label else b.label)) g) g
    g.removeNode t) d.data

end DataDependence

structure DataSearch where
  world : World
  flow : FlowGraph
  live : Table FlowNode LiveDefinitions := {}
  found : DataDependence := {}
  serial : Nat := 0
  now : LiveDefinitions := {}
  temps : Table Nat DataPoint := {}
  /-- Temporaries that are at a distance from the stack or the base pointer. -/
  pointers : Table Nat (String × Int) := {}
  reads : List DataPoint := []
  pointer : Option (String × Int) := none

abbrev Relating := EStateM Fault DataSearch

namespace Relating

variable (p : Program)

def exec {α : Type} (act : Exec α) : Relating α := fun s =>
  match act s.world with
  | .ok a w => .ok a { s with world := w }
  | .error f w => .error f { s with world := w }

def link (u v : CodeLocation) (use : Use) : Relating Unit := modify fun s => { s with found := s.found.link u v use }

def derive (u v : DataPoint) (how : Deriving) : Relating Unit := modify fun s => { s with found := s.found.derive u v how }

def note (d : DataPoint) : Relating Unit := modify fun s => { s with reads := s.reads ++ [d] }

def unknownConstant (place : CodeLocation) : Relating DataPoint := do
  let n := (← get).serial + 1
  modify ({ · with serial := n })
  return { var := { storage := .constant none }, place, serial := n }

def lookup (v : Simple) : Relating (List CodeLocation) := return (← get).now.lookup v

def kill (v : Simple) (place : CodeLocation) : Relating Unit := do
  let now := (← get).now
  if now.contains v then (now.lookup v).forM fun old => derive { var := v, place := old } { var := v, place } .kill
  modify fun s => { s with now := s.now.kill v place }

/-! ### Actions -/

variable (a : Action)

def placeOf : CodeLocation :=
  match a.place.procedure with
  | some q => { block := none, stmt := none, procedure := some q }
  | none => { block := a.place.block.map Int.ofNat, stmt := a.place.stmt, instruction := a.place.instruction.map Int.ofNat }

def bytesOfValue : Value → Try Int
  | .bits b => .ok (b.width / 8 : Nat)
  | .flt f => .ok (f.sort.bits / 8 : Nat)
  | _ => raise .badAttribute

def bytesOfBits : Value → Option Int
  | .int i => some (i / 8)
  | .bits (.lit _ n) => some (n / 8 : Nat)
  | _ => none

variable (s : State)

def addressesOf (a : Action) : Relating (List Nat) := do
  let given : Option Value := a.addr.map (·.value)
  match a.actualAddrs, given with
  | some as, _ => return as.eraseDups.mergeSort (· ≤ ·)
  | none, some (.bits b) =>
    tryCatch (do return [(← exec (onState s (eval b))).1]) fun f =>
      if f.kind.within .unsat || f.kind.within .solverMode then return [0x60000000] else throw f
  | none, some v => return v.nat?.toList
  | none, none => raise .badAttribute

def variableAt (addr : Nat) (single : Bool) : Relating Simple := do
  let size := a.size.bind fun t => bytesOfBits t.value
  let plain : Simple := { storage := .memory addr, size }
  match a.addr.map (·.tmps), single with
  | some [t], true =>
    match (← get).pointers.get? t with
    | some (base, offset) => return .onStack offset size base (some ((addr : Int) - offset))
    | none => return plain
  | _, _ => return plain

def registerSize (offset : Nat) : Int :=
  ((p.arch.registers.toList.filter fun (_, o, _) => o = offset).map fun (_, _, n) => n).foldl max 1

def deriveTemps (tmps : List Nat) (d : DataPoint) (how : Deriving) : Relating Unit :=
  tmps.forM fun n => do ((← get).temps.get? n).forM (derive · d how)

def deriveFrom (t : Tracked) (d : DataPoint) (how : Deriving) : Relating Unit := do
  t.regs.forM fun r => do
    let v := .ofRegister r (some (registerSize p r))
    (← lookup v).forM fun place => derive { var := v, place } d how
  deriveTemps t.tmps d how

def deriveMemory (d : DataPoint) : Relating Unit := do
  a.addr.forM fun t => deriveFrom p t d .address
  let t ← orRaise a.data .badAttribute
  if t.regs.isEmpty && t.tmps.isEmpty then
    if !t.value.symbolic then derive (← unknownConstant d.place) d .content
  else deriveFrom p t d .content

def readMemory (a : Action) (place : CodeLocation) : Relating Unit := do
  let addrs ← addressesOf s a
  addrs.forM fun addr => do
    let v ← variableAt a addr (addrs.length = 1)
    match ← lookup v with
    | [] =>
      let d : DataPoint := { var := v, place }
      deriveMemory p a d
      kill v place
      note d
    | defs =>
      defs.forM fun old => do
        link old place (.memory v)
        deriveMemory p a { var := v, place := old }
      defs.forM fun old => note { var := v, place := old }

def writeMemory (a : Action) (place : CodeLocation) : Relating Unit := do
  let addrs ← addressesOf s a
  addrs.forM fun addr => do
    let v ← variableAt a addr (addrs.length = 1)
    kill v place
    deriveMemory p a { var := v, place }

def registerOf : Try (Nat × Simple) := do
  match a.offset, a.data with
  | some o, some t => return (o, .ofRegister o (some (← bytesOfValue t.value)))
  | _, _ => raise .badAttribute

def readRegister (place : CodeLocation) : Relating Unit := do
  let (offset, v) ← ofExcept (registerOf a)
  match ← lookup v with
  | [] =>
    note { var := v, place }
    kill v place
  | defs => defs.forM fun old => do
    link old place (.register v)
    note { var := v, place := old }
  if offset = p.arch.spOffset then modify ({ · with pointer := some ("sp", 0) })
  else if offset = p.arch.bpOffset then modify ({ · with pointer := some ("bp", 0) })

def writtenNumber? : Option Ir.Stmt → Option Nat
  | some (.put _ (.const c)) | some (.write _ (.const c)) => c.nat?
  | _ => none

def constantOf (stmt : Option Ir.Stmt) (place : CodeLocation) : Relating DataPoint :=
  match writtenNumber? stmt with
  | some n => return { var := { storage := .constant (some n) }, place }
  | none => unknownConstant place

def writeRegister (place : CodeLocation) (stmt : Option Ir.Stmt) : Relating Unit := do
  let (_, v) ← ofExcept (registerOf a)
  kill v place
  let d : DataPoint := { var := v, place }
  modify fun s => { s with found := { s.found with data := s.found.data.addNode d } }
  if a.regs.isEmpty && a.tmps.isEmpty then derive (← constantOf stmt place) d .plain
  deriveTemps a.tmps d .plain

def temporary (n : Nat) : Relating DataPoint := do orRaise ((← get).temps.get? n) .badKey

def readTemporary (n : Nat) (place : CodeLocation) : Relating Unit := do
  let d ← temporary n
  link d.place place (.temporary n)
  ((← get).pointers.get? n).forM fun q => modify ({ · with pointer := some q })
  note d

def writeTemporary (n : Nat) (place : CodeLocation) (stmt : Option Ir.Stmt) : Relating Unit := do
  let d : DataPoint := { var := { storage := .temporary n }, place }
  modify fun s => { s with temps := s.temps.set n d }
  deriveTemps a.tmps d .plain
  (← get).pointer.forM fun q => modify fun s => { s with pointers := s.pointers.set n q }
  (← get).reads.forM fun u => derive u d .plain
  if a.tmps.isEmpty && (← get).reads.isEmpty then derive (← constantOf stmt place) d .plain

def movePointer : Relating Unit := do
  let op := a.op.getD ""
  let down := op.endsWith "Sub32" || op.endsWith "Sub64"
  let up := op.endsWith "Add32" || op.endsWith "Add64"
  if !(down || up) then return
  match a.exprs with
  | some [x, y] =>
    match x.tmps, y.tmps, y.regs, y.value.nat? with
    | t :: _, [], [], some n =>
      match (← get).pointers.get? t with
      | some (base, offset) => modify ({ · with pointer := some (base, if down then offset - n else offset + n) })
      | none => return
    | _, _, _, _ => return
  | _ => raise .badValue

variable (stmts : List Ir.Stmt)

def followAction (last : Option (Option Int)) (a : Action) : Relating (Option (Option Int)) := do
  let fresh := last.getD none = none || last ≠ some a.place.stmt
  if fresh then modify ({ · with reads := [], pointer := none })
  let place := placeOf a
  let stmt := a.place.stmt.bind fun i => stmts[i.toNat]?
  match a.kind, a.type, a.action with
  | .exit, _, _ => a.tmps.forM fun n => do link (← temporary n).place place .exit
  | .operation, _, _ => movePointer a
  | .data, "mem", some "read" => readMemory p s a place
  | .data, "mem", some "write" => writeMemory p s a place
  | .data, "reg", some "read" => readRegister p a place
  | .data, "reg", some "write" => writeRegister a place stmt
  | .data, "tmp", some "read" => a.tmp.forM fun n => readTemporary n place
  | .data, "tmp", some "write" => a.tmp.forM fun n => writeTemporary a n place stmt
  | _, _, _ => pure ()
  return some a.place.stmt

def followState (before : LiveDefinitions) (s : State) : Relating LiveDefinitions := do
  modify fun t => { t with now := before, temps := {}, pointers := {}, reads := [], pointer := none }
  let actions := (s.history.current.events.filterMap Event.action?).reverse
  let _ ← actions.foldlM (followAction p s stmts) none
  return (← get).now

/-! ### Blocks -/

abbrev DataJob := FlowNode × Int

variable (g : FlowGraph)

def schedule (limit : Option Int) : Nat → List FlowNode → List DataJob → List DataJob → List DataJob
  | 0, _, _, jobs => jobs
  | _, _, [], jobs => jobs
  | fuel + 1, seen, (n, depth) :: stack, jobs =>
    let (seen, fresh, jobs) := (g.graph.arcsFrom n).foldl
      (fun acc a =>
        let (seen, fresh, jobs) := acc
        if a.dst ∈ seen || jobs.any (·.1 = a.dst) then acc
        else
          let next : Option DataJob :=
            if a.label.jumpkind = "Ijk_Call" then
              if limit.all (depth < ·) then some (a.dst, depth + 1) else none
            else if a.label.jumpkind = "Ijk_Ret" then if depth > 0 then some (a.dst, depth - 1) else none
            else some (a.dst, depth)
          match next with
          | some j => (a.dst :: seen, j :: fresh, jobs ++ [j])
          | none => (a.dst :: seen, fresh, jobs)) (seen, [], jobs)
    schedule limit fuel seen (fresh ++ stack) jobs

def enqueue (limit : Option Int) (jobs : List DataJob) (j : DataJob) : List DataJob :=
  if jobs.any (·.1 = j.1) then jobs else schedule g limit (g.graph.nodes.length + 1) [j.1] [j] (jobs ++ [j])

variable (n : FlowNode)

def targetOf (i : Nat) : Relating (Option Nat) := do
  let states := ((← get).flow.exits.get? n).getD []
  let some s := states[i]? | return none
  let r : Option (Nat × State) ← tryCatch (do
    return some (← exec (onState s (do eval (← ip))))) fun f =>
      if f.kind.within .unsat || f.kind.within .solverMode then return none else throw f
  let some (v, s) := r | return none
  modify fun t => { t with flow := { t.flow with exits := t.flow.exits.set n (states.set i s) } }
  return some v

def matchStates (count : Nat) : List FlowNode → Relating (List (Nat × FlowNode))
  | [] => return []
  | m :: rest => do
    let hits ← (List.range count).filterM fun i => do return (← targetOf n i) = some m.addr
    if hits.isEmpty then return []
    return hits.map (·, m) ++ (← matchStates count rest)

/-- Definitions that a call may change are not passed on to where it comes back to. -/
def pastCall (defs : List (Simple × List CodeLocation)) : List (Simple × List CodeLocation) :=
  if p.arch.name = "X86" then
    let scratch := ["eax", "ecx", "edx"].filterMap fun r => (p.arch.register? r).map (·.1)
    defs.filter fun (v, _) => !(scratch.any fun o => v.storage = .register o)
  else defs

def passOn (n m : FlowNode) (i : Nat) (jumpkind : String) (defs : LiveDefinitions) : Relating Bool := do
  let entries := defs.vars.entries
  let entries ← if FlowGraph.isCall jumpkind then do
      let states := ((← get).flow.exits.get? n).getD []
      match states[i]? with
      | none => pure entries
      | some s =>
        let (away, s) ← exec (onState s (do
          let ip ← ip
          if ip.symbolic then return true
          return (← Exec.eval (← Exec.ip)) ≠ m.addr))
        modify fun t => { t with flow := { t.flow with exits := t.flow.exits.set n (states.set i s) } }
        pure (if away then (({} : LiveDefinitions).join (pastCall p entries)).1.vars.entries else entries)
    else pure entries
  let (live, isNew) := (((← get).live.get? m).getD {}).join entries
  modify fun t => { t with live := t.live.set m live }
  return isNew

variable (limit : Option Int)

def followExit (n : FlowNode) (stmts : List Ir.Stmt) (depth : Int) (count : Nat)
    (pairs : Option (List (Nat × FlowNode))) (jobs : List DataJob) (i : Nat) : Relating (List DataJob) := do
  let t ← get
  let some s := ((t.flow.exits.get? n).getD [])[i]? | return jobs
  let jumpkind := s.history.current.jumpkind.getD ""
  if pairs.isNone && FlowGraph.isFakeReturn jumpkind && count > 1 then return jobs
  if limit.any (· < depth) then return jobs
  let next := if jumpkind = "Ijk_Call" then depth + 1 else if jumpkind = "Ijk_Ret" then depth - 1 else depth
  let defs ← followState p stmts ((t.live.get? n).getD {}) s
  let targets : List FlowNode := match pairs with
    | some ps => (ps.filter fun q => q.1 = i).map fun q => q.2
    | none => t.flow.graph.succs n
  let changed ← targets.foldlM (fun changed m => do return (← passOn p n m i jumpkind defs) || changed) false
  if changed && limit.all fun d => 0 ≤ next && next ≤ d then
    return (t.flow.graph.innerFrom n).foldl (fun jobs m => enqueue t.flow limit jobs (m, next)) jobs
  return jobs

def followNode (n : FlowNode) (depth : Int) (jobs : List DataJob) : Relating (List DataJob) := do
  let t ← get
  if !t.live.contains n then modify fun t => { t with live := t.live.set n {} }
  let count := ((t.flow.exits.get? n).getD []).length
  let succs := t.flow.graph.succs n
  let hits ← matchStates n count succs
  let fits := (hits.map (·.2.addr)).eraseDups.length = succs.length && (hits.map (·.1)).eraseDups.length = count
  let stmts := if n.isProcedure then [] else
    match p.blockAt n.addr with
    | .ok b => b.stmts
    | .error _ => []
  (List.range count).foldlM (followExit p limit n stmts depth count (if fits then some hits else none)) jobs

def loop : Nat → List DataJob → Relating Unit
  | 0, _ => return
  | _ + 1, [] => return
  | fuel + 1, (n, depth) :: jobs => do loop fuel (← followNode p limit n depth jobs)

end Relating

namespace FlowGraph

variable (g : FlowGraph)

def dataRounds : Nat :=
  let actions := (g.exits.values.flatten.map fun s => s.history.current.events.length + 1).sum
  (g.graph.nodes.length + 1) ^ 2 * (Cell.limit * (actions + 1) ^ 2 + 1)

def dataDependence (p : Program) (start : Nat) (limit : Option Int) : Exec DataDependence := fun w =>
  let jobs := (g.allNodes start).foldl (fun jobs n => Relating.enqueue g limit jobs (n, 0)) []
  match Relating.loop p limit g.dataRounds jobs { world := w, flow := g } with
  | .ok () s => .ok s.found { s.world with state := w.state }
  | .error f s => .error f { s.world with state := w.state }

end FlowGraph

end SymExec
