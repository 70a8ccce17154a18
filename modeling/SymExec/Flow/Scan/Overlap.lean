import SymExec.Flow.Scan.Block

/-!
# Blocks that overlap

After a scan, functions that begin with instructions that do nothing are cut after these, and blocks that begin inside others are
cut or dropped: those to which nothing leads, and those that begin in the middle of an instruction.
-/

namespace SymExec

namespace Ir.Block

variable (b : Block)

/-- The instructions with their lengths and whether they do nothing. -/
def noops : List (Nat × Bool) :=
  let rec go : List Stmt → List (Nat × Bool)
    | [] => []
    | .mark _ len _ :: rest =>
      let idle := match rest with
        | [] => b.jumpkind = "Ijk_Boring" && (match b.next with | .const c => c.nat? = some (b.addr + b.size) | _ => false)
        | .mark .. :: _ => true
        | _ => false
      (len, idle) :: go rest
    | _ :: rest => go rest
  go b.stmts

def noopLength : Nat :=
  if b.stmts.all fun s => s.mark?.isSome then b.size
  else ((b.noops.takeWhile (·.2)).map (·.1)).sum

def allNoops : Bool := b.noops.all (·.2)

end Ir.Block

namespace Scanning

variable (p : Program)

def forgetFunction (addr : Nat) : Scanning Unit := do
  let k := (← get).knowledge
  if k.functions.contains addr then
    let functions ← ofExcept (k.functions.erase addr)
    modifyKnowledge ({ · with functions })

variable (n : FlowNode)

def forgetNode : Scanning Unit := do
  modifyFlow fun g => { (g.unlist n) with
    byId := g.byId.erase (some { addr := n.addr })
    graph := g.graph.removeNode n }
  forgetFunction n.addr

def cutNoops (appended : List FlowNode) (n : FlowNode) : Scanning (Option FlowNode) := do
  let s ← get
  if !s.knowledge.functions.contains n.addr || p.isHooked n.addr then return none
  if (s.flow.graph.arcsTo n).any (·.label.jumpkind = "Ijk_Call") then return none
  let b ← ofExcept (p.blockAt n.addr { bytes := some (0x10 - n.addr % 0x10) })
  let length := b.noopLength
  let next := n.addr + length
  if length = 0 || length ≥ n.size.getD 0 || (s.flow.at? next).isSome || appended.any (·.addr = next) then return none
  let m : FlowNode := { addr := next, size := some (n.stop - next) }
  let facts : FlowFacts :=
    { function := some next, instructions := (s.flow.factsOf n).instructions.filter fun i => next ≤ i && i < n.stop }
  modifyFlow fun g => (g.graph.arcsFrom n).foldl (fun g a => g.connect m a.dst a.label) (g.setFacts m facts)
  let c ← ofExcept (p.snippet next m.size)
  modifyKnowledge fun k => k.addNode p next c
  return some m

def shrink (size : Nat) : Scanning Unit := do
  let s ← get
  let stop := n.addr + size
  let facts := s.flow.factsOf n
  let m : FlowNode := { addr := n.addr, size := some size }
  let after := (s.flow.at? stop).getD { addr := stop, size := some (n.size.getD 0 - size) }
  modifyFlow fun g =>
    let g := g.setFacts m { function := facts.function, instructions := facts.instructions.filter (· < stop) }
    let g := if (g.facts.get? after).isSome then g
      else g.setFacts after { function := facts.function, instructions := facts.instructions.filter (stop ≤ ·) }
    let g := (g.graph.arcsTo n).foldl (fun g a => g.connect a.src m a.label) g
    let g := g.connectPlainly m after "Ijk_Boring"
    let resolved := (g.graph.succs after).any (·.addr ≠ unknownTarget p)
    let g := (g.graph.arcsFrom n).foldl (fun g a =>
      if !resolved || a.dst.addr ≠ unknownTarget p then g.connect after a.dst a.label else g) g
    let g := if g.at? n.addr = some n then { g with byId := g.byId.erase (some { addr := n.addr }) } else g
    let g := g.unlist n
    { g with graph := g.graph.removeNode n }.record (some { addr := n.addr }) m
  if (← get).knowledge.functions.contains n.addr then
    forgetFunction n.addr
    addNode p n.addr n.addr
    let g := (← get).flow
    match g.anyNode? stop with
    | some t => if (g.factsOf t).function = some n.addr && (g.graph.arcsTo t).isEmpty then addNode p stop stop
    | none => pure ()

def settleOverlaps (a : FlowNode) (removed : List FlowNode) : List FlowNode → Scanning Unit
  | [] => return
  | b :: rest => do
    if p.isHooked b.addr || b ∈ removed then settleOverlaps a removed rest
    else if !(a.addr ≤ b.addr && a.stop > b.addr) then settleOverlaps b removed rest
    else
      let s ← get
      let noops := match p.blockAt a.addr { bytes := some (b.addr - a.addr) } with
        | .ok block => block.noops
        | .error _ => []
      if !noops.isEmpty && noops.all (·.2) then
        modifyFlow fun g => g.record (some { addr := b.addr }) b
        shrink p a (b.addr - a.addr)
        settleOverlaps b removed rest
      else if a.stop = b.stop && (s.flow.graph.arcsTo b).isEmpty then
        modifyFlow fun g => (g.graph.arcsFrom b).foldl (fun g e => g.connect a e.dst e.label) g
        forgetNode b
        settleOverlaps a (b :: removed) rest
      else
        match (s.flow.factsOf b).instructions.head? with
        | none => raise .badIndex
        | some first =>
          if (s.flow.factsOf a).instructions.contains first then settleOverlaps b removed rest
          else
            forgetNode b
            if b.stop > a.stop then
              let _ ← scanAt p a.stop (((s.flow.factsOf a).function).getD a.stop) {}
            settleOverlaps a (b :: removed) rest

def removeOverlaps : Scanning Unit := do
  let sorted (ns : List FlowNode) := ns.mergeSort (fun a b => a.addr ≤ b.addr)
  let nodes := sorted (← get).flow.graph.nodes
  let appended ← nodes.foldlM (fun as n => do
    match ← cutNoops p as n with
    | some m => return as ++ [m]
    | none => return as) []
  match sorted (nodes ++ appended) with
  | [] => return
  | a :: rest => settleOverlaps p a [] rest

end Scanning

end SymExec
