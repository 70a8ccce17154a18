import SymExec.Analysis.Data

/-!
# Control dependence and backward slices

The statements of a program on which some of its statements depend: by the data that they use, and by the branches that decide
whether they are reached.
-/

namespace SymExec

structure ControlDependence where
  /-- An arc goes from a node that decides to each node on which it decides. -/
  graph : Digraph FlowNode Unit := {}
  postDominators : Digraph (Digraph.Ended FlowNode) Unit := {}

namespace FlowGraph

variable (g : FlowGraph)

/-- The ways of control that are certain: all but returns after calls to places that are reached otherwise too. -/
def certain : Digraph FlowNode FlowArc :=
  { g.graph with
    arcs := g.graph.arcs.filter fun a =>
      !isFakeReturn a.label.jumpkind || (g.graph.arcsTo a.dst).all fun b => isFakeReturn b.label.jumpkind }

def controlDependence (entry : FlowNode) : ControlDependence :=
  let d := g.certain.postDominance entry
  let frontier := Digraph.dominanceFrontier d.graph.succs d.tree
  { postDominators := d.tree
    graph := g.graph.nodes.foldl (fun (cd : Digraph FlowNode Unit) y =>
      (((frontier.lookup (.node y)).getD []).filterMap Digraph.Ended.node?).foldl (fun cd x => cd.addArc x y ()) cd) {} }

end FlowGraph

/-- The paths of a graph with not more than a number of arcs from a node to another that pass no node twice. -/
def Digraph.shortPaths {α β : Type} [DecidableEq α] (g : Digraph α β) (goal : α) : Nat → List α → α → List (List α)
  | arcs, seen, n =>
    if n = goal then [[n]]
    else
      match arcs with
      | 0 => []
      | arcs + 1 =>
        ((g.succs n).filter fun m => m ≠ n && m ∉ seen).flatMap fun m => (g.shortPaths goal arcs (n :: seen) m).map (n :: ·)

inductive SliceExit where
  | procedure
  | point (e : ExitPoint)
deriving DecidableEq

def SliceExit.text : SliceExit → String
  | procedure => "-1"
  | point (.atStmt i) => toString i
  | point .atEnd => "'default'"

structure BackwardSlice where
  chosen : Table (Option Nat) (List (Option Int)) := {}
  exits : Table (Option Nat) (List (SliceExit × Option Nat)) := {}
  taints : Digraph CodeLocation Unit := {}

namespace BackwardSlice

variable (s : BackwardSlice)

def pick (block : Option Nat) (stmt : Option Int) : BackwardSlice :=
  { s with chosen := s.chosen.set block (insertNew stmt ((s.chosen.get? block).getD [])) }

def pickExit (block : Option Nat) (e : SliceExit × Option Nat) : BackwardSlice :=
  { s with exits := s.exits.set block (insertNew e ((s.exits.get? block).getD [])) }

def taint (u v : CodeLocation) : BackwardSlice :=
  let known (g : Digraph CodeLocation Unit) (l : CodeLocation) := (g.nodes.find? l.same).getD l
  let u := known s.taints u
  let v := known (s.taints.addNode u) v
  { s with taints := s.taints.addArc u v () }

def complete : Nat → Table (Option Nat) (List (SliceExit × Option Nat)) → BackwardSlice → BackwardSlice
  | 0, _, s => s
  | fuel + 1, found, s =>
    if found.entries.isEmpty then s
    else
      let targets := (found.values.flatten.map (·.2)).eraseDups.filter fun t => !s.exits.contains t
      let e : SliceExit × Option Nat := (.point .atEnd, none)
      complete fuel ⟨targets.map (·, [e])⟩ (targets.foldl (fun s t => s.pickExit t e) s)

end BackwardSlice

structure SliceBase where
  program : Program
  flow : FlowGraph
  control : Option ControlDependence := none
  data : Option DataDependence := none
  sameFunction : Bool := false

abbrev Slicing := EStateM Fault BackwardSlice

namespace Slicing

variable (b : SliceBase) (addr : Nat)

def endOf : Try Int := do return (← b.program.blockAt addr).stmts.length

def numberOf : SliceExit → Try Int
  | .procedure => .ok (-1)
  | .point (.atStmt i) => .ok i
  | .point .atEnd => endOf b addr

def branchesOf : Try (List Nat) := do
  return (← b.program.blockAt addr).stmts.zipIdx.filterMap fun (s, i) => if s matches .exit .. then some i else none

def exitsTo (u v : FlowNode) : Try (List (SliceExit × Option (List Nat))) := do
  if b.program.isHooked u.addr then return [(.procedure, some [v.addr])]
  let start : Table SliceExit (Option (List Nat)) :=
    ⟨((← branchesOf b u.addr).map fun i => (.point (.atStmt i), none)) ++ [(.point .atEnd, none)]⟩
  let paths := (b.flow.graph.shortPaths v 3 [] u).filter fun path => path.length > 1
  let crosses (path : List FlowNode) := (path.zip (path.drop 1)).any fun (x, y) =>
    (b.flow.graph.label? x y).any fun a => a.jumpkind = "Ijk_Call" || a.jumpkind = "Ijk_Ret"
  if b.sameFunction && paths.any crosses then return []
  let exits ← paths.foldlM (fun (t : Table SliceExit (Option (List Nat))) path =>
    match path with
    | x :: y :: _ => do
      match ← b.flow.exitTo x y with
      | none => return t
      | some e => do
        let old ← orRaise (t.get? (.point e)) .badKey
        return t.set (.point e) (some (old.getD [] ++ [y.addr]))
    | _ => return t) start
  return exits.entries

def chooseControl (n : FlowNode) : Slicing (List CodeLocation) := do
  let c ← orRaise b.control .badAttribute
  (c.graph.preds n).foldlM (fun found u => do
    let place (i : Int) : CodeLocation := { block := some (u.addr : Int), stmt := some i }
    let paths := b.flow.graph.shortPaths n 3 [] u
    (← ofExcept (exitsTo b u n)).foldlM (fun found (e, targets) => do
      let i ← ofExcept (numberOf b u.addr e)
      modify fun s => s.pick (some u.addr) (some i)
      let branches ← if e = .point .atEnd then ofExcept (branchesOf b u.addr) else pure []
      branches.forM fun j => modify fun s => s.pick (some u.addr) (some (j : Int))
      let found := branches.foldl (fun found (j : Nat) => insertNew (place j) found) found
      let found := if targets.isSome then insertNew (place i) found else found
      (targets.getD []).forM fun t => modify fun s => s.pickExit (some u.addr) (e, some t)
      paths.flatten.forM fun m => do
        let last ← ofExcept (endOf b m.addr)
        modify fun s => s.pick (some m.addr) (some last)
      return found) found) []

def loop : Nat → List CodeLocation → List CodeLocation → Slicing Unit
  | 0, _, _ => return
  | _ + 1, [], _ => return
  | fuel + 1, l :: rest, done => do
    let done := l :: done
    let block := l.block.map Int.toNat
    modify fun s => s.pick block l.stmt
    let add (open' : List CodeLocation) (m : CodeLocation) : List CodeLocation :=
      if done.any m.same || open'.any m.same then open' else open' ++ [m]
    let causes := match b.data with
      | some d => ((d.statements.nodes.find? l.same).map d.statements.preds).getD []
      | none => []
    causes.forM fun m => modify fun s => s.taint m l
    let rest := causes.foldl add rest
    let nodes := (block.map fun a => b.flow.allNodes a).getD []
    let rest ← nodes.foldlM (fun rest n => do
      let deciding ← chooseControl b n
      deciding.forM fun m => modify fun s => s.taint m l
      return deciding.foldl add rest) rest
    loop fuel rest done

/-- Chooses the causes of statements; the number `-1` stands for the block as a whole. -/
def run (targets : List (Option FlowNode × Option Int)) : Slicing Unit := do
  let start ← targets.foldlM (fun found (n, stmt) => do
    let some n := n | refuse .slicing "Target CFGNode None is not in the CFG."
    if stmt = some (-1) then return (← chooseControl b n).foldl (fun found l => insertNew l found) found
    else return insertNew { block := some (n.addr : Int), stmt } found) []
  let size (n : FlowNode) := match b.program.blockAt n.addr with
    | .ok c => c.stmts.length + 2
    | .error _ => 2
  let rounds := start.length + (b.flow.graph.nodes.map size).sum + ((b.data.map fun d => d.statements.nodes.length).getD 0) + 1
  loop b rounds start []
  modify fun s => s.complete (b.flow.graph.nodes.length + 3) s.exits

def blocks (g : FlowGraph) : Nat → List Nat → List FlowNode → List Nat
  | 0, chosen, _ => chosen
  | _ + 1, chosen, [] => chosen
  | fuel + 1, chosen, n :: stack =>
    if n.addr ∈ chosen then blocks g fuel chosen stack
    else blocks g fuel (chosen ++ [n.addr]) ((g.graph.preds n).reverse ++ stack)

end Slicing

namespace SliceBase

variable (b : SliceBase)

def slice (targets : List (Option FlowNode × Option Int)) : Try BackwardSlice :=
  match Slicing.run b targets {} with
  | .ok () s => .ok s
  | .error f _ => .error f

def blocksTo (targets : List FlowNode) : List Nat :=
  Slicing.blocks b.flow (targets.length + b.flow.graph.arcs.length + 1) [] targets.reverse

end SliceBase

end SymExec
