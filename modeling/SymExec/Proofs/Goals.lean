import Mathlib.Logic.Relation
import SymExec.Analysis.Veritest

/-!
# Blocks that lead to a goal

An explorer with a flow graph gives up a state at a block from which no way leads to its goal.
-/

namespace SymExec.FlowGraph

open List Relation

variable {g : FlowGraph} {avoid : List Nat} {fuel : Nat} {queue seen : List FlowNode} {n v : FlowNode}

/-- One step of a way: out of a block that is not avoided, and not by a fake return. -/
def Onward (g : FlowGraph) (avoid : List Nat) (u v : FlowNode) : Prop := u.addr ∉ avoid ∧ u ∈ g.predecessors v (!isFakeReturn ·)

def Leads (g : FlowGraph) (avoid : List Nat) (n s : FlowNode) : Prop := s.addr ∉ avoid ∧ ReflTransGen (g.Onward avoid) n s

lemma leads_iff (hv : v.addr ∉ avoid) :
    g.Leads avoid n v ↔ n = v ∨ ∃ u ∈ g.predecessors v (!isFakeReturn ·), g.Leads avoid n u := by
  rw [Leads, and_iff_right hv, ReflTransGen.cases_tail_iff, eq_comm]
  refine or_congr_right (exists_congr fun u => ?_)
  grind [Onward, Leads]

/-- What leads to a seen block is seen or leads to one that waits, if that holds of single steps. -/
lemma leads_of_seen (h : ∀ v ∈ seen, ∀ u, g.Onward avoid u v → u ∈ seen ∨ u ∈ queue) (hv : v ∈ seen)
    (hway : ReflTransGen (g.Onward avoid) n v) : n ∈ seen ∨ ∃ s ∈ queue, g.Leads avoid n s := by
  induction hway using ReflTransGen.head_induction_on with
  | refl => exact .inl hv
  | head hu _ ih =>
    obtain hv | ⟨s, hs, hclear, hway⟩ := ih
    · exact (h _ hv _ hu).imp_right fun hq => ⟨_, hq, hu.1, .refl⟩
    · exact .inr ⟨s, hs, hclear, .head hu hway⟩

/-- Each arc brings at most one block into the queue: when its end is seen for the first time. -/
lemma mem_backFrom (h : ∀ v ∈ seen, ∀ u, g.Onward avoid u v → u ∈ seen ∨ u ∈ queue)
    (hfuel : queue.length + (g.graph.arcs.filter (·.dst ∉ seen)).length < fuel) :
    n ∈ g.backFrom avoid fuel queue seen ↔ n ∈ seen ∨ ∃ s ∈ queue, g.Leads avoid n s := by
  fun_induction backFrom g avoid fuel queue seen with
  | case1 => exact absurd hfuel (Nat.not_lt_zero _)
  | case2 => simp
  | case3 fuel m rest seen hskip ih =>
    have hrest : ∀ v ∈ seen, ∀ u, g.Onward avoid u v → u ∈ seen ∨ u ∈ rest := by grind [Onward]
    rw [ih hrest (by grind)]
    refine ⟨.imp_right (by grind), fun hn => hn.elim .inl ?_⟩
    rintro ⟨s, hs, hlead⟩
    obtain rfl | hs := mem_cons.1 hs
    · exact leads_of_seen hrest (by grind [Leads]) hlead.2
    · exact .inr ⟨s, hs, hlead⟩
  | case4 fuel m rest seen hnew ih =>
    have harcs : (g.predecessors m (!isFakeReturn ·)).length + (g.graph.arcs.filter (·.dst ∉ m :: seen)).length ≤
        (g.graph.arcs.filter (·.dst ∉ seen)).length := by
      simp only [predecessors, Digraph.arcsTo, length_map, ← countP_eq_length_filter, countP_filter]
      induction g.graph.arcs <;> grind
    have hm : m.addr ∉ avoid := by simp_all
    rw [ih (by grind [Onward]) (by grind)]
    simp only [mem_cons, mem_append, or_and_right, exists_or, exists_eq_left, leads_iff hm, or_assoc, or_left_comm]

/-- **Blocks from which a goal is in reach.** A search back from the sought blocks finds the addresses of exactly those blocks from
which a way leads to one of them, through no avoided block and by no fake return; it fails only if all sought blocks are avoided. -/
theorem goodAddrs_exact (g : FlowGraph) (find avoid : List Nat) :
    (g.goodAddrs find avoid = none ∧ ∀ n ∈ g.graph.nodes, n.addr ∈ find → n.addr ∈ avoid) ∨
    ∃ nodes good, g.goodAddrs find avoid = some (nodes, good) ∧ ∀ a, (a ∈ nodes ↔ ∃ n ∈ g.graph.nodes, n.addr = a) ∧
      (a ∈ good ↔ ∃ n s, n.addr = a ∧ s ∈ g.graph.nodes ∧ s.addr ∈ find ∧ g.Leads avoid n s) := by
  have hstart (s : FlowNode) : s ∈ find.flatMap (fun a => g.allNodes a) ↔ s ∈ g.graph.nodes ∧ s.addr ∈ find := by
    simp only [allNodes, mem_flatMap, mem_filter]
    grind
  have hback (n : FlowNode) := @mem_backFrom g avoid _ (find.flatMap fun a => g.allNodes a) [] n (by simp)
    (Nat.lt_succ_of_le (Nat.add_le_add_left (length_filter_le ..) _))
  rw [goodAddrs]
  split
  · rename_i h
    refine .inl ⟨rfl, fun n hn hf => Decidable.byContradiction fun hclear => ?_⟩
    have hgood := (hback n).2 (.inr ⟨n, (hstart n).2 ⟨hn, hf⟩, hclear, .refl⟩)
    simp only [Bool.or_eq_true, List.isEmpty_iff, map_eq_nil_iff] at h
    grind
  · refine .inr ⟨_, _, rfl, fun a => ⟨by simp, ?_⟩⟩
    simp only [mem_eraseDups, mem_map, hback, hstart]
    grind

end SymExec.FlowGraph
