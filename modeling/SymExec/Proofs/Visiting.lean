import SymExec.Analysis.Recovery
import SymExec.Proofs.Digraph

/-!
# What a walk leaves out

The order of a walk is made from the arcs between components: a graph without such arcs is not walked at all.
-/

namespace SymExec.Digraph

open List

variable {α β : Type} [DecidableEq α] {g : Digraph α β} {key : α → Nat}

/-- Each arc stays in a component of several nodes, or at a node. -/
abbrev Closed (g : Digraph α β) : Prop := ∀ a ∈ g.arcs,
  place (g.components.filter (·.length > 1)) a.src = place (g.components.filter (·.length > 1)) a.dst

lemma Closed.condense (h : g.Closed) : g.condense (g.components.filter (·.length > 1)) = {} := by
  refine foldl_keeps (I := fun c : Digraph (Condensed α) Unit => c = {}) g.arcList (fun c a ha hc => ?_) rfl
  obtain ⟨_, _, ha⟩ := mem_flatMap.1 ha
  rw [if_pos (h a (mem_filter.1 ha).1), hc]

lemma Closed.quasiOrder (h : g.Closed) (hn : g.nodes.length ≠ 1) : g.quasiOrder key = [] := by
  rw [Digraph.quasiOrder, quasiTopological]
  split
  · exact absurd (by simp [*]) hn
  · simp only [h.condense]
    rfl

/-- **A walk can pass over a graph**: where no arc leads from one component to another, it visits no node, and a call to visit one
fails. -/
theorem walk_closed (h : g.Closed) (hn : g.nodes.length ≠ 1) (n : α) (ns : List α) :
    let w := Walk.ofOrder (g.quasiOrderOf key g.nodes)
    w.next? = none ∧ w.await (n :: ns) = raise .badKey := by
  have horder : g.quasiOrderOf key g.nodes = [] := by rw [quasiOrderOf, if_neg hn, h.quasiOrder hn, filter_nil]
  rw [horder]
  exact ⟨rfl, rfl⟩

/-- Two nodes that lead to each other, and one that leads to itself. -/
theorem walk_cycles : let g := ofLists [0, 1, 2] [(0, 1), (1, 0), (2, 2)]
    (Walk.ofOrder (g.quasiOrderOf id g.nodes)).next? = none :=
  (walk_closed (by decide) (by decide) 0 []).1

end SymExec.Digraph
