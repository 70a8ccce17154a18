import SymExec.Word
import SymExec.Table

/-!
# Directed graphs and orders on their nodes

A directed graph with labelled arcs, at most one from a node to another.
-/

namespace SymExec

structure Arc (α β : Type) where
  (src dst : α)
  label : β
deriving DecidableEq

structure Digraph (α β : Type) where
  nodes : List α := []
  arcs : List (Arc α β) := []

namespace Digraph

variable {α β γ : Type} [DecidableEq α] (g : Digraph α β) (n : α)

def addNode : Digraph α β := if n ∈ g.nodes then g else { g with nodes := g.nodes ++ [n] }

variable (u v : α)

def hasArc : Bool := g.arcs.any fun a => a.src = u && a.dst = v

def addArc (l : β) : Digraph α β :=
  let g := (g.addNode u).addNode v
  if g.hasArc u v then { g with arcs := g.arcs.map fun a => if a.src = u && a.dst = v then { a with label := l } else a }
  else { g with arcs := g.arcs ++ [⟨u, v, l⟩] }

def removeArc : Digraph α β := { g with arcs := g.arcs.filter fun a => !(a.src = u && a.dst = v) }

def removeNode : Digraph α β where
  nodes := g.nodes.filter (· ≠ n)
  arcs := g.arcs.filter fun a => a.src ≠ n && a.dst ≠ n

def arcsFrom : List (Arc α β) := g.arcs.filter (·.src = n)

def arcsTo : List (Arc α β) := g.arcs.filter (·.dst = n)

def succs : List α := (g.arcsFrom n).map (·.dst)

def preds : List α := (g.arcsTo n).map (·.src)

def label? : Option β := (g.arcs.find? fun a => a.src = u && a.dst = v).map (·.label)

def arcList : List (Arc α β) := g.nodes.flatMap g.arcsFrom

def restrict (keep : α → Bool) : Digraph α β where
  nodes := g.nodes.filter keep
  arcs := g.arcs.filter fun a => keep a.src && keep a.dst

def reverse : Digraph α β where
  nodes := g.nodes
  arcs := g.arcList.map fun a => ⟨a.dst, a.src, a.label⟩

def ofLists (nodes : List α) (arcs : List (α × α)) : Digraph α Unit :=
  arcs.foldl (fun g (u, v) => g.addArc u v ()) (nodes.foldl addNode {})

/-! ### Depth first -/

structure Visit (α : Type) where
  (seen finished : List α := [])

def visit : Nat → Visit α → α → Visit α
  | 0, v, _ => v
  | fuel + 1, v, n =>
    if n ∈ v.seen then v
    else
      let v := (g.succs n).foldl (visit fuel) { v with seen := n :: v.seen }
      { v with finished := n :: v.finished }

def reversePostorder : List α := (g.nodes.foldl (g.visit (g.nodes.length + 1)) {}).finished

def postorder : List α := g.reversePostorder.reverse

def reachable : List α := (g.visit (g.nodes.length + 1) {} n).seen.reverse

def preorderFrom : List α := g.reachable n

/-- Visits a node and all that can be reached from it, and lists the nodes from which another was found, in the order in which
they first found one. -/
def visitInner : Nat → List α × List α → α → List α × List α
  | 0, v, _ => v
  | fuel + 1, (seen, inner), n =>
    (g.succs n).foldl (fun v s =>
      if s ∈ v.1 then v
      else visitInner fuel (v.1, if n ∈ v.2 then v.2 else v.2 ++ [n]) s) (n :: seen, inner)

def innerFrom : List α := (g.visitInner (g.nodes.length + 1) ([], []) n).2

def components : List (List α) :=
  let post := g.postorder
  let reach := g.nodes.map fun n => (n, g.reachable n)
  let reaches (u v : α) := ((reach.lookup u).getD []).contains v
  post.filterMap fun n =>
    let c := g.nodes.filter fun m => reaches n m && reaches m n
    match (post.filter (c.contains ·)).getLast? with
    | some last => if last = n then some c else none
    | none => none

/-! ### Topological order -/

def generations : Nat → List (α × Nat) → List α → List α
  | 0, _, _ => []
  | _, _, [] => []
  | fuel + 1, degrees, ready =>
    let (degrees, next) := ready.foldl (fun (acc : List (α × Nat) × List α) n =>
      (g.succs n).foldl (fun (degrees, next) m =>
        let d := (degrees.lookup m).getD 0 - 1
        (degrees.map fun e => if e.1 = m then (m, d) else e, if d = 0 then next ++ [m] else next)) acc) (degrees, [])
    ready ++ generations fuel degrees next

def topological : List α :=
  let degrees := g.nodes.map fun n => (n, (g.preds n).length)
  g.generations (g.nodes.length + 1) degrees ((degrees.filter (·.2 = 0)).map (·.1))

inductive Condensed (α : Type) where
  | single (n : α)
  | component (i : Nat)
deriving DecidableEq

variable (cs : List (List α))

def place (n : α) : Condensed α :=
  match cs.findIdx? (·.contains n) with
  | some i => .component i
  | none => .single n

def condense : Digraph (Condensed α) Unit :=
  g.arcList.foldl (fun (h : Digraph (Condensed α) Unit) a =>
    if place cs a.src = place cs a.dst then h else h.addArc (place cs a.src) (place cs a.dst) ()) {}

variable (key : α → Nat)

/-- The node at which a component is entered from the nodes before it, latest first. -/
def entryOf (before c : List α) : Option α :=
  let sorted := c.mergeSort fun a b => key a ≤ key b
  (before.reverse.findSome? fun p => sorted.find? fun n => g.hasArc p n) <|> sorted.head?

/-- An order of the nodes that is topological, but for the arcs that go back to the entry of a component. -/
def quasiTopological : Nat → Digraph α β → List α
  | 0, g => g.nodes
  | fuel + 1, g =>
    match g.nodes with
    | [n] => [n]
    | _ =>
      let cs := g.components.filter (·.length > 1)
      (g.condense cs).topological.foldl (fun out n =>
        match n with
        | .single n => out ++ [n]
        | .component i =>
          let c := cs.getD i []
          match g.entryOf key out c with
          | none => out
          | some head =>
            let sub := g.restrict (c.contains ·)
            let sub := (sub.preds head).foldl (fun s p => s.removeArc p head) sub
            out ++ quasiTopological fuel sub) []

def quasiOrder (g : Digraph α β) : List α := quasiTopological key (g.arcs.length + 1) g

def quasiOrderOf (g : Digraph α β) (ns : List α) : List α :=
  if g.nodes.length = 1 then g.nodes else (quasiOrder key g).filter (ns.contains ·)

def reversePostorderOf (ns : List α) : List α := g.reversePostorder.filter (ns.contains ·)

/-! ### Points of a graph -/

def mergePoints (g : Digraph α β) : List α := quasiOrderOf key g (g.nodes.filter fun n => (g.arcsTo n).length > 1)

/-- One node of each cycle: of each component the first node that is entered from outside, and each node with an arc to
itself. -/
def wideningPoints (g : Digraph α β) : List α :=
  (g.components.filterMap fun c =>
    match c with
    | [n] => if g.hasArc n n then some n else none
    | _ => (c.mergeSort fun a b => key a ≤ key b).find? fun n => (g.preds n).any fun p => !c.contains p)

end Digraph

end SymExec

/-! ## Dominators

The tree of immediate post-dominators of a graph, found by depth-first numbers and semidominators on the reversed graph, and the
dominance frontier that goes with such a tree. -/

namespace SymExec.Digraph

inductive Ended (α : Type) where
  /-- Comes before all nodes without successors in the reversed graph. -/
  | start
  | stop
  | node (n : α)
deriving DecidableEq

def Ended.node? {α : Type} : Ended α → Option α
  | .node n => some n
  | _ => none

variable {α β : Type} [DecidableEq α]

/-! ### The reversed graph -/

structure Reversal (α : Type) where
  graph : Digraph (Ended α) Unit := {}
  passed : List α := []

variable (succs : α → List α)

def reverseFrom : Nat → Reversal α → List α → Reversal α
  | 0, r, _ => r
  | _, r, [] => r
  | fuel + 1, r, n :: stack =>
    let next := succs n
    let passed := if n ∈ r.passed then r.passed else r.passed ++ [n]
    let g := if next.isEmpty then r.graph.addArc .start (.node n) () else r.graph
    let g := next.foldl (fun g s => g.addArc (.node s) (.node n) ()) g
    let open' := next.filter fun s => s ∉ passed
    reverseFrom fuel { graph := g, passed } (open'.reverse ++ stack)

def reversal (fuel : Nat) (entry : α) : Reversal α :=
  let r := reverseFrom succs fuel {} [entry]
  { r with graph := r.graph.addArc (.node entry) .stop () }

/-! ### Numbers -/

structure Numbering (α : Type) where
  vertices : List α := []
  parents : List (α × α) := []
  found : List α := []

variable (g : Digraph α β)

def number : Nat → Numbering α → List α → Numbering α
  | 0, m, _ => m
  | _, m, [] => m
  | fuel + 1, m, n :: stack =>
    let found := if n ∈ m.found then m.found else n :: m.found
    let (fresh, found) := (g.succs n).foldl (fun (fresh, found) s =>
      if s ∈ found then (fresh, found) else (s :: fresh, s :: found)) (([] : List α), found)
    number fuel {
      vertices := m.vertices ++ [n]
      parents := fresh.map (fun s => (s, n)) ++ m.parents
      found } (fresh ++ stack)

def numberAll (start : α) (passed : List α) : Nat → Digraph α Unit → Digraph α Unit × Numbering α
  | 0, g => (g, g.number (g.nodes.length + 1) {} [start])
  | fuel + 1, g =>
    let m := g.number (g.nodes.length + 1) {} [start]
    if passed.length + 2 ≤ m.vertices.length then (g, m)
    else
      match passed.find? fun n => n ∉ m.found with
      | none => (g, m)
      | some n => numberAll start passed fuel (g.addArc start n ())

/-! ### Semidominators -/

structure Forest where
  (semi label : Array Nat)
  ancestor : Array (Option Nat)

def Forest.ancestorOf (f : Forest) (v : Nat) : Option Nat := (f.ancestor.getD v none)

def Forest.compress (v : Nat) : Nat → Forest → Forest
  | 0, f => f
  | fuel + 1, f =>
    match f.ancestorOf v with
    | none => f
    | some a =>
      if (f.ancestorOf a).isNone then f
      else
        let f := compress a fuel f
        let la := f.label.getD a 0
        let f := if f.semi.getD la 0 < f.semi.getD (f.label.getD v 0) 0
          then { f with label := f.label.setIfInBounds v la } else f
        { f with ancestor := f.ancestor.setIfInBounds v (f.ancestorOf a) }

def Forest.least (v : Nat) (f : Forest) : Nat × Forest :=
  if (f.ancestorOf v).isNone then (v, f)
  else
    let f := f.compress v f.ancestor.size
    (f.label.getD v 0, f)

structure DominatorSearch where
  forest : Forest
  buckets : List (Nat × Nat) := []
  dom : Array (Option Nat)

/-- Handles a vertex: its semidominator, and the dominators of those that waited for its parent. -/
def DominatorSearch.handle (preds : Nat → List Nat) (parent : Nat → Option Nat) (s : DominatorSearch) (w : Nat) : DominatorSearch :=
  match parent w with
  | none => s
  | some p =>
    let forest := (preds w).foldl (fun (f : Forest) v =>
      let (u, f) := f.least v
      if f.semi.getD u 0 < f.semi.getD w 0 then { f with semi := f.semi.setIfInBounds w (f.semi.getD u 0) } else f)
      s.forest
    let buckets := (forest.semi.getD w 0, w) :: s.buckets
    let forest := { forest with ancestor := forest.ancestor.setIfInBounds w (some p) }
    let waiting := (buckets.filter (·.1 = p)).map (·.2)
    let (forest, dom) := waiting.foldl (fun (acc : Forest × Array (Option Nat)) v =>
      let (u, f) := acc.1.least v
      let d := if f.semi.getD u 0 < f.semi.getD v 0 then u else p
      (f, acc.2.setIfInBounds v (some d))) (forest, s.dom)
    { forest, buckets := buckets.filter (·.1 ≠ p), dom }

def dominatorsByNumber (count : Nat) (preds : Nat → List Nat) (parent : Nat → Option Nat) : Array (Option Nat) :=
  let numbers := (.range (count + 1))
  let start : DominatorSearch := {
    forest := { semi := numbers, label := numbers, ancestor := .replicate (count + 2) none }
    dom := .replicate (count + 1) none }
  let s := (List.range count).reverse.foldl (fun s i => s.handle preds parent (i + 1)) start
  (List.range count).foldl (fun dom i =>
    let w := i + 1
    match parent w, dom.getD w none with
    | some _, some d => if d = s.forest.semi.getD w 0 then dom else dom.setIfInBounds w (dom.getD d none)
    | _, _ => dom) s.dom

/-- What can be reached from an entry, turned around and with the two nodes added, and the tree of its immediate
dominators. -/
structure PostDominance (α : Type) where
  (graph tree : Digraph (Ended α) Unit)

def postDominance (entry : α) : PostDominance α :=
  let r := reversal g.succs (g.arcs.length + 2) entry
  let (h, m) := numberAll .start (r.passed.map .node) (r.passed.length + 1) r.graph
  let vertices := m.vertices.toArray
  let index (n : Ended α) := ((m.vertices.findIdx? (· = n)).map (· + 1)).getD 0
  let preds (w : Nat) := ((vertices[w - 1]?).map fun n => (h.preds n).map index).getD []
  let parent (w : Nat) := (vertices[w - 1]?).bind fun n => (m.parents.lookup n).map index
  let dom := dominatorsByNumber vertices.size preds parent
  { graph := h
    tree := m.vertices.zipIdx.foldl (fun (t : Digraph (Ended α) Unit) (n, i) =>
      match (dom.getD (i + 1) none).bind fun d => vertices[d - 1]? with
      | some d => t.addArc d n ()
      | none => t) {} }

/-- The tree of immediate post-dominators of what can be reached from an entry: an arc goes from each node to those that it
post-dominates immediately. -/
def postDominators (entry : α) : Digraph (Ended α) Unit := (g.postDominance entry).tree

def dominanceFrontier (tree : Digraph α Unit) : List (α × List α) :=
  tree.postorder.foldl (fun (df : List (α × List α)) x =>
    let add (acc : List α) (y : α) := if x ∈ tree.preds y || y ∈ acc then acc else acc ++ [y]
    let own := (succs x).foldl add []
    let all := (tree.succs x).foldl (fun acc z => if z = x then acc else ((df.lookup z).getD []).foldl add acc) own
    df ++ [(x, all)]) []

end SymExec.Digraph

/-! ## Loops and cycles

The loops of a graph, nested. -/

namespace SymExec

structure Loop (α : Type) where
  entry : α
  (entryArcs breakArcs continueArcs : List (α × α))
  (body subloops : List α)
  hasCalls : Bool

namespace Digraph

variable {α β : Type} [DecidableEq α]

inductive LoopNode (α : Type) where
  | block (n : α)
  | loop (entry : α)
deriving DecidableEq

/-- The graph of a loop in which inner loops are contracted, and the arcs that were moved to an inner loop. -/
structure Contraction (α : Type) where
  graph : Digraph (LoopNode α) Bool
  entered : List ((α × α) × α) := []

variable (c : Contraction α)

def Contraction.enter (inner : α) (a : α × α) : Except Unit (Contraction α) :=
  let u := LoopNode.block a.1
  let v := LoopNode.block a.2
  if c.graph.hasArc u v then
    .ok { graph := (c.graph.removeArc u v).addArc u (.loop inner) false, entered := (a, inner) :: c.entered.filter (·.1 ≠ a) }
  else
    match c.entered.lookup a with
    | some other =>
      let g := c.graph.addArc (.loop other) (.loop inner) false
      .ok { c with graph := g.removeArc (.loop other) v }
    | none => .error ()

def Contraction.leave (inner : α) (a : α × α) : Except Unit (Contraction α) :=
  let u := LoopNode.block a.1
  let v := LoopNode.block a.2
  if c.graph.hasArc u v then .ok { c with graph := (c.graph.removeArc u v).addArc (.loop inner) v false }
  else
    match c.entered.lookup a with
    | some other =>
      let g := c.graph.addArc (.loop inner) (.loop other) false
      .ok { c with graph := g.removeArc u (.loop other) }
    | none => .error ()

variable (g : Digraph α β) (n : α)

def connectedTo : Digraph α β :=
  let both : Digraph α Unit := {
    nodes := g.nodes
    arcs := g.arcs.flatMap fun a => [⟨a.src, a.dst, ()⟩, ⟨a.dst, a.src, ()⟩] }
  let part := both.reachable n
  g.restrict (part.contains ·)

variable (key : α → Nat)

def loopShell (g : Digraph α β) (body : List α) : Option (Loop α) :=
  let entries := body.flatMap fun n => ((g.preds n).filter fun p => !body.contains p).map fun p => (p, n)
  let breaks := body.flatMap fun n => ((g.succs n).filter fun s => !body.contains s).map fun s => (n, s)
  let heads := (entries.map (·.2)).eraseDups
  let entry? := match heads with
    | [h] => some h
    | [] => (body.mergeSort fun a b => key a ≤ key b).head?
    | _ => none
  entry?.map fun entry => {
    entry
    entryArcs := entries
    breakArcs := breaks
    continueArcs := ((g.preds entry).filter (body.contains ·)).map fun p => (p, entry)
    body
    subloops := []
    hasCalls := false }

/-- The arcs of a loop: those within its body, those that enter it and those that leave it. -/
def loopGraph (g : Digraph α Bool) (l : Loop α) : Digraph α Bool :=
  (l.entryArcs ++ l.breakArcs).foldl (fun h (u, v) => h.addArc u v false) (g.restrict (l.body.contains ·))

def loops : Nat → Digraph α Bool → Except Unit (List (Loop α) × List (Loop α))
  | 0, _ => .ok ([], [])
  | fuel + 1, g =>
    let cyclic := g.components.filter fun c => match c with
      | [n] => g.hasArc n n
      | _ => true
    cyclic.foldlM (fun (tops, all) c => do
      let some shell := g.loopShell key c | return (tops, all)
      let whole := g.loopGraph shell
      let open' := shell.continueArcs.foldl (fun h (u, v) => h.removeArc u v) whole
      let (innerTops, innerAll) ← loops fuel open'
      let start : Contraction α := { graph := {
        nodes := whole.nodes.map .block
        arcs := whole.arcs.map fun a => ⟨.block a.src, .block a.dst, a.label⟩ } }
      let contracted ← innerTops.foldlM (fun c s =>
        if s.entry ∈ shell.body then do
          let c ← s.entryArcs.foldlM (fun c a => c.enter s.entry a) c
          let c ← s.breakArcs.foldlM (fun c a => c.leave s.entry a) c
          return { c with graph := c.graph.connectedTo (.block shell.entry) }
        else return c) start
      let calls := innerTops.any (·.hasCalls) || contracted.graph.arcs.any (·.label)
      let me := { shell with subloops := innerTops.map (·.entry), hasCalls := calls }
      return (tops ++ [me], all ++ me :: innerAll)) ([], [])

/-! ### Any cycle -/

def cycleFrom : Nat → List α → List α × Option (List α) → α → List α × Option (List α)
  | 0, _, found, _ => found
  | _, _, (passed, some c), _ => (passed, some c)
  | fuel + 1, path, (passed, none), n =>
    if n ∈ path then (passed, some (n :: (path.takeWhile (· ≠ n)).reverse))
    else if n ∈ passed then (passed, none)
    else
      match (g.succs n).foldl (cycleFrom fuel (n :: path)) (passed, none) with
      | (passed, some c) => (passed, some c)
      | (passed, none) => (n :: passed, none)

def cycle? : Option (List α) :=
  match g.nodes.find? fun n => g.hasArc n n with
  | some n => some [n]
  | none => (g.nodes.foldl (g.cycleFrom (g.nodes.length + 2) []) ([], none)).2

/-! ### A shortest cycle -/

/-- Shortest paths from a node, one step longer in each round, until one of them has an arc to a goal. -/
def pathsTo (goal : α) : Nat → List α → List (List α) → Option (List α)
  | 0, _, _ => none
  | fuel + 1, passed, paths =>
    match paths.find? fun p => p.head?.any fun n => g.hasArc n goal with
    | some p => some p.reverse
    | none =>
      let (passed, longer) := paths.foldl (fun (acc : List α × List (List α)) p =>
        match p.head? with
        | none => acc
        | some n => (g.succs n).foldl (fun (passed, longer) s =>
            if s ∈ passed then (passed, longer) else (s :: passed, longer ++ [s :: p])) acc) (passed, [])
      if longer.isEmpty then none else pathsTo goal fuel passed longer

def cycleThrough? : Option (List α) := g.pathsTo n (g.nodes.length + 1) [n] [[n]]

def shortestCycle? : Option (List α) :=
  (g.nodes.filterMap g.cycleThrough?).foldl (fun best c =>
    match best with
    | some b => if c.length < b.length then some c else some b
    | none => some c) none

/-! ### Dominating sets -/

def dominate : Nat → List α → List α → List α
  | 0, chosen, _ => chosen
  | _, chosen, [] => chosen
  | fuel + 1, chosen, n :: rest =>
    let near := (g.succs n).filter fun m => m ∉ chosen
    dominate fuel (n :: chosen) (rest.filter fun m => m ∉ near)

/-- A set of nodes with a given one such that every other node follows one of them. -/
def dominatingSet : List α := g.dominate (g.nodes.length + 1) [n] (g.nodes.filter fun m => m ≠ n && m ∉ g.succs n)

end Digraph

end SymExec
