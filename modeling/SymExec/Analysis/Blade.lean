import SymExec.Flow.Graph

/-!
# Blades

A slice that goes back from one statement, or from the end of a block, over the blocks that lead there, up to a number of blocks.
-/

namespace SymExec

abbrev SlicePoint := Nat × ExitPoint

structure BladeOptions where
  (ignoreSp ignoreBp : Bool := false)
  /-- Other registers, by their offsets, that are not followed out of the first block. -/
  ignored : List Nat := []
  levels : Int := 3

structure Blade where
  slice : Digraph SlicePoint Unit := {}
  traced : List FlowNode := []

namespace Blade

def addPoints (addr : Nat) (points : List Nat) (prev : SlicePoint) (b : Blade) : SlicePoint × Blade :=
  points.foldl (fun (prev, b) i =>
    let here : SlicePoint := (addr, .atStmt i)
    (here, { b with slice := b.slice.addArc here prev () })) (prev, b)

def followed (arch : Arch) (o : BladeOptions) (regs : List Nat) : List Nat :=
  regs.filter fun r => !(o.ignoreSp && r = arch.spOffset) && !(o.ignoreBp && r = arch.bpOffset)

variable (p : Program) (g : FlowGraph)

def goBack (o : BladeOptions) :
    Nat → FlowNode → Ir.SliceTargets → SlicePoint → Option ExitPoint → Blade → Try Blade
  | 0, _, _, _, _, b => .ok b
  | level + 1, n, targets, prev, exit, b => do
    let block ← p.blockAt n.addr
    let (targets, prev, b) ← match exit with
      | some (.atStmt i) => do
        let t := match block.stmts[i]? with
          | some (.exit (.temp n) _ _) => targets.addTemp n
          | _ => targets
        let (prev, b) := b.addPoints n.addr [i] prev
        pure (t, prev, b)
      | _ => pure (match block.next with | .temp n => targets.addTemp n | _ => targets, prev, b)
    let (points, rest) ← Ir.slice p.arch block.stmts targets
    let (prev, b) := b.addPoints n.addr (if points.isEmpty then [0] else points) prev
    if n ∈ b.traced then return b
    let b := { b with traced := b.traced ++ [n] }
    let regs := followed p.arch o rest.regs
    if regs.isEmpty && rest.stack.isEmpty then return b
    let some here := g.anyNode? n.addr | return b
    (g.graph.arcsTo here).foldlM (fun b a =>
      if FlowGraph.isFakeReturn a.label.jumpkind then pure b
      else goBack o level a.src { regs, stack := rest.stack } prev a.label.stmt b) b

def targetsOf (block : Ir.Block) (stmt : Option Nat) : Try Ir.SliceTargets :=
  match stmt with
  | none =>
    match block.next with
    | .temp n => .ok { temps := [n] }
    | .const _ => .ok {}
    | _ => raise .blade
  | some i =>
    match block.stmts[i]? with
    | none => raise .badIndex
    | some (.put off _) => .ok { regs := [off] }
    | some (.write n _) => .ok { temps := [n] }
    | some _ => .error (.because .blade "Incorrect type of the specified target statement. We only support Put and WrTmp.")

def make (addr : Nat) (stmt : Option Nat) (o : BladeOptions := {}) :
    Try (Digraph SlicePoint Unit) := do
  match g.anyNode? addr with
  | none => refuse .blade ("The specified SimRun " ++ toString addr ++ " doesn't exist in graph.")
  | some n =>
    if n ∉ g.graph.nodes then refuse .blade ("The specified SimRun " ++ toString addr ++ " doesn't exist in graph.")
    let block ← p.blockAt addr
    let targets ← targetsOf block stmt
    let start : SlicePoint := (addr, match stmt with | some i => .atStmt i | none => .atEnd)
    let (points, rest) ← Ir.slice p.arch block.stmts targets
    let (prev, b) := addPoints addr points start {}
    let regs := (followed p.arch o rest.regs).filter (· ∉ o.ignored)
    if regs.isEmpty && rest.stack.isEmpty then return b.slice
    let b ← (g.graph.arcsTo n).foldlM (fun b a =>
      if FlowGraph.isFakeReturn a.label.jumpkind then pure b
      else goBack p g o (o.levels - 1).toNat a.src { regs, stack := rest.stack } prev a.label.stmt b) b
    return b.slice

end Blade

end SymExec
