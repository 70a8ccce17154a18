import SymExec.Flow.Graph
import SymExec.Proofs.Digraph

/-!
# Overlaps in flow graphs

Blocks of a flow graph are cut in rounds. A block that is cut gives way to a piece that begins at its address, so no address
loses its node. But the rounds begin with blocks that end at the same address, and blocks that overlap otherwise are only
looked for after one of them.
-/

namespace SymExec.FlowGraph

open Digraph

/-- Every address that has a node in the first graph has one in the second. -/
def AddrsKept (g g' : Digraph FlowNode FlowArc) : Prop := ∀ n ∈ g.nodes, ∃ m ∈ g'.nodes, m.addr = n.addr

lemma AddrsKept.refl (g : Digraph FlowNode FlowArc) : AddrsKept g g := fun n hn => ⟨n, hn, rfl⟩

lemma AddrsKept.trans {g g' g''} (h : AddrsKept g g') (h' : AddrsKept g' g'') : AddrsKept g g'' := fun n hn => by
  obtain ⟨m, hm, hmn⟩ := h n hn
  obtain ⟨k, hk, hkm⟩ := h' m hm
  exact ⟨k, hk, hkm.trans hmn⟩

namespace Cleaving

variable {c : Cleaving} {context : Option Context} {n smallest : FlowNode} {others : List FlowNode}

lemma piece_spec (c : Cleaving) (context n stop) : (c.piece context n stop).1.addr = n.addr ∧
    (c.piece context n stop).2.flow.graph = c.flow.graph := by
  unfold piece
  dsimp only
  split
  · rename_i m hm
    rw [Option.orElse_eq_orElse, Option.orElse_eq_or, Option.or_eq_some_iff] at hm
    obtain hm | ⟨-, hm⟩ := hm
    · exact ⟨by simpa using List.find?_some hm, rfl⟩
    · exact ⟨by simpa using (Option.filter_eq_some_iff.1 hm).2, rfl⟩
  · split <;> exact ⟨rfl, rfl⟩

lemma cutAt_kept : AddrsKept c.flow.graph (c.cutAt context smallest others n).flow.graph := by
  unfold cutAt
  split
  · exact .refl _
  obtain ⟨haddr, hgraph⟩ := piece_spec c context n smallest.addr
  generalize c.piece context n smallest.addr = md at haddr hgraph ⊢
  obtain ⟨m, d⟩ := md
  dsimp only at haddr hgraph ⊢
  rw [← hgraph]
  split
  · exact .refl _
  intro x hx
  by_cases hxn : x = n
  · exact ⟨m, mem_addArc.2 (.inr (.inl rfl)), hxn ▸ haddr⟩
  -- every other node stays: arcs only add nodes
  refine ⟨x, mem_addArc.2 (.inl ?_), rfl⟩
  refine foldl_keeps (I := fun f : FlowGraph => x ∈ f.graph.nodes) _ (fun f a _ hf => ?_) ?_
  · split
    · exact hf
    · exact mem_addArc.2 (.inl hf)
  · split
    all_goals
      refine mem_removeNode.2 ⟨foldl_keeps (I := fun g : Digraph FlowNode FlowArc => x ∈ g.nodes) _ (fun g a _ hg => ?_) hx, hxn⟩
      split
      · exact hg
      · exact mem_addArc.2 (.inl hg)

lemma settleGroup_kept (k : EndKey) (group) : AddrsKept c.flow.graph (c.settleGroup k group).flow.graph := by
  unfold settleGroup
  split
  · exact .refl _
  · exact foldl_keeps (I := fun d : Cleaving => AddrsKept c.flow.graph d.flow.graph) _
      (fun d n _ hd => hd.trans cutAt_kept) (.refl _)

lemma reopenPairs_flow (context ns c) : (reopenPairs context ns c).flow = c.flow := by
  induction ns generalizing c with
  | nil => rfl
  | cons a ns ih =>
    cases ns with
    | nil => rfl
    | cons b rest =>
      rw [reopenPairs, ih]
      dsimp only
      split
      · split <;> rfl
      · rfl

lemma reopen_flow (c : Cleaving) : c.reopen.flow = c.flow := foldl_keeps _ (fun d _ _ hd => (reopenPairs_flow _ _ d).trans hd) rfl

lemma run_kept (fuel : Nat) (c) : AddrsKept c.flow.graph (run fuel c).flow.graph := by
  induction fuel generalizing c with
  | zero => exact .refl _
  | succ fuel ih =>
    rw [run]
    split
    · exact .refl _
    · rename_i k group _
      refine (settleGroup_kept k group).trans ?_
      dsimp only
      split
      · exact reopen_flow (c.settleGroup k group) ▸ ih _
      · exact ih _

/-! ### Graphs without common ends -/

lemma add_single {ns : List FlowNode} (hends : ∀ m ∈ ns, ∀ n ∈ ns, endKey m = endKey n → m = n) (hn : n ∈ ns)
    (h : ∀ e ∈ c.open_.entries, ∃ m ∈ ns, e = (endKey m, [m])) :
    ∀ e ∈ (c.add (endKey n) n).open_.entries, ∃ m ∈ ns, e = (endKey m, [m]) := by
  have hvalue : insertNew n ((c.open_.get? (endKey n)).getD []) = [n] := by
    cases hg : c.open_.get? (endKey n) with
    | none => rfl
    | some group =>
      obtain ⟨e, he, rfl⟩ := Option.map_eq_some_iff.1 hg
      obtain ⟨m, hm, rfl⟩ := h e (List.mem_of_find?_eq_some he)
      obtain rfl := hends m hm n hn (by simpa using List.find?_some he)
      exact if_pos (.head _)
  intro e he
  rw [add, hvalue] at he
  obtain rfl | he := Table.mem_put he
  · exact ⟨n, hn, rfl⟩
  · exact h e he

lemma ofFlow_flow (g) : (ofFlow g).flow = g := by
  have hflow := foldl_keeps (I := fun c : Cleaving => c.flow = g) (f := fun c n => c.add (endKey n) n)
    (g.graph.nodes.filter (!·.isProcedure)) (fun _ _ _ hc => hc) (d := { flow := g }) rfl
  exact hflow

lemma open_ofFlow {g : FlowGraph} (hends : ∀ m ∈ g.graph.nodes.filter (!·.isProcedure),
    ∀ n ∈ g.graph.nodes.filter (!·.isProcedure), endKey m = endKey n → m = n) : (ofFlow g).open_.entries = [] := by
  have hsingle := foldl_keeps (f := fun c n => c.add (endKey n) n) (d := { flow := g })
    (I := fun c : Cleaving => ∀ e ∈ c.open_.entries, ∃ m ∈ g.graph.nodes.filter (!·.isProcedure), e = (endKey m, [m])) _
    (fun c n hn hc => add_single hends hn hc) fun e he => absurd he List.not_mem_nil
  refine List.filter_eq_nil_iff.2 fun e he => ?_
  obtain ⟨m, -, rfl⟩ := hsingle e he
  simp

end Cleaving

/-- **Which overlaps are cut.** However the blocks of a flow graph overlap, each address that had a node has one afterwards. But if
no two blocks of the same context end at the same address, then the graph is left as it is, with all the overlaps that it
has. -/
theorem normalize_cuts_from_ends (g : FlowGraph) : AddrsKept g.graph g.normalize.graph ∧
    ((∀ m ∈ g.graph.nodes.filter (!·.isProcedure), ∀ n ∈ g.graph.nodes.filter (!·.isProcedure),
      m.stop = n.stop → m.context = n.context → m = n) → g.normalize = { g with normalized := true }) := by
  constructor
  · have hkept := Cleaving.run_kept (Cleaving.rounds g) (.ofFlow g)
    rwa [Cleaving.ofFlow_flow] at hkept
  · intro hends
    have hopen := Cleaving.open_ofFlow fun m hm n hn h => hends m hm n hn (congrArg Prod.fst h) (congrArg Prod.snd h)
    have hrun : Cleaving.run (Cleaving.rounds g) (.ofFlow g) = .ofFlow g := by
      cases Cleaving.rounds g with
      | zero => rfl
      | succ fuel => rw [Cleaving.run, hopen]; rfl
    rw [normalize, hrun, Cleaving.ofFlow_flow]

/-- Two blocks of eight bytes, of which one begins inside the other, are left as they are. -/
theorem normalize_cuts_from_ends_none :
    let a : FlowNode := { addr := 0, size := some 8 }
    let b : FlowNode := { addr := 2, size := some 8 }
    let g : FlowGraph := { graph := { nodes := [a, b], arcs := [⟨a, b, { jumpkind := "Ijk_Boring" }⟩] } }
    a.addr < b.addr ∧ b.addr < a.stop ∧ g.normalize.graph.nodes = [a, b] := by
  intro a b g
  refine ⟨by decide, by decide, congrArg (·.graph.nodes) ((normalize_cuts_from_ends g).2 ?_)⟩
  decide

end SymExec.FlowGraph
