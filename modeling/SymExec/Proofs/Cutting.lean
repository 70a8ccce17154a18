import Mathlib.Data.List.Perm.Basic
import SymExec.Knowledge
import SymExec.Proofs.Digraph

/-!
# Cutting the blocks of a function

Blocks that end at the same address are cut where the shortest of them begins.
-/

namespace SymExec

open List Nat CodeNode

def CodeNode.stop (n : CodeNode) : Nat := n.addr + n.size?.getD 0

def CodeNode.cutTo (stop : Nat) : CodeNode → CodeNode
  | .block a _ thumb => .block a (stop - a) thumb
  | n => n

namespace CodeNode

variable {n m : CodeNode} {k : Nat}

lemma isBlock_cutTo : (n.cutTo k).isBlock = n.isBlock := by cases n <;> rfl

lemma addr_cutTo : (n.cutTo k).addr = n.addr := by cases n <;> rfl

lemma stop_cutTo (hn : n.isBlock) (hk : n.addr ≤ k) : (n.cutTo k).stop = k := by
  cases n with
  | block a s t => exact Nat.add_sub_cancel' hk
  | hook | function => cases hn

lemma addr_le_stop (n : CodeNode) : n.addr ≤ n.stop := le_add_right _ _

end CodeNode

namespace Digraph

def blocks (g : CodeGraph) : List CodeNode := g.nodes.filter (·.isBlock)

variable {g g' g'' : CodeGraph} {m n : CodeNode}

lemma mem_blocks : n ∈ g.blocks ↔ n ∈ g.nodes ∧ n.isBlock := mem_filter

/-- Blocks that are disjoint or end at the same address, and then lead to the same places. -/
structure Nested (g : CodeGraph) : Prop where
  proper : g.Proper
  starts : ∀ a ∈ g.blocks, ∀ b ∈ g.blocks, a.addr = b.addr → a = b
  apart : ∀ a ∈ g.blocks, ∀ b ∈ g.blocks, a.stop = b.stop ∨ a.stop ≤ b.addr ∨ b.stop ≤ a.addr
  filled : ∀ a ∈ g.blocks, ∀ b ∈ g.blocks, a ≠ b → a.stop = b.stop → a.addr < a.stop
  succs : ∀ a ∈ g.blocks, ∀ b ∈ g.blocks, a.stop = b.stop → ∀ v, v ∈ g.succs a ↔ v ∈ g.succs b

/-- A graph some of whose blocks have been cut, `σ` being what has become of each. -/
structure Cut (g g' : CodeGraph) (σ : CodeNode → CodeNode) : Prop where
  nodes : ∀ m, m ∈ g'.nodes ↔ ∃ n ∈ g.nodes, σ n = m
  other : ∀ n, n.isBlock = false → σ n = n
  block : ∀ n ∈ g.blocks, (σ n).isBlock ∧ (σ n).addr = n.addr ∧ (σ n).stop ≤ n.stop
  same : ∀ n ∈ g.blocks, (σ n).stop = n.stop → σ n = n
  inner : ∀ n ∈ g.blocks, (σ n).stop ≠ n.stop → ∃ w ∈ g.blocks, w.addr = (σ n).stop ∧ n.addr < w.addr ∧ w.addr < w.stop
  ends : ∀ n ∈ g.blocks, ∃ u ∈ g.blocks, u.stop = n.stop ∧ (σ u).stop = u.stop
  covers : ∀ x, (∃ b ∈ g'.blocks, b.addr ≤ x ∧ x < b.stop) ↔ ∃ b ∈ g.blocks, b.addr ≤ x ∧ x < b.stop
  kept : ∀ u ∈ g.nodes, ∀ v ∈ g.nodes, (σ u).stop = u.stop → (g'.hasArc (σ u) (σ v) ↔ g.hasArc u v)
  next : ∀ u ∈ g.nodes, ∀ v ∈ g.nodes, (σ u).stop ≠ u.stop → (g'.hasArc (σ u) (σ v) ↔ v ∈ g.blocks ∧ v.addr = (σ u).stop)

/-- A block and the others that end where it ends, all of which begin before it. -/
structure Group (g : CodeGraph) (s : CodeNode) (others : List CodeNode) : Prop where
  smallest : s ∈ g.blocks
  some : others ≠ []
  nodup : others.Nodup
  mem : ∀ n, n ∈ others ↔ n ∈ g.blocks ∧ n.stop = s.stop ∧ n ≠ s
  before : ∀ n ∈ others, n.addr < s.addr

end Digraph

namespace Function.Cutting

open Digraph

variable {g : CodeGraph} {n first last s x y : CodeNode} {isOutside : Bool} {others : List CodeNode}

/-! ### One block -/

section
variable (hfollow : ∀ y, g.hasArc n y → g.hasArc last y)
include hfollow

/-- A last part that leads wherever the block did is given no arcs. -/
lemma foldl_after {step} (hstep : ∀ a : Arc CodeNode Transfer, g.hasArc last a.dst → step g a = g) : (g.arcsFrom n).foldl step g = g := by
  refine foldl_keeps (I := (· = g)) _ (fun d a ha hd => ?_) rfl
  obtain ⟨ha, hsrc⟩ := mem_filter.1 ha
  rw [hd, hstep a (hfollow _ (hasArc_iff.2 ⟨a, ha, by simpa using hsrc, rfl⟩))]

lemma hasArc_reroute : (reroute g n first last isOutside others).hasArc x y ↔
    (g.hasArc x y ∧ x ≠ n ∧ y ≠ n) ∨ (g.hasArc x n ∧ x ∉ others ∧ y = first) ∨ (x = first ∧ y = last) := by
  rw [reroute, hasArc_addArc,
    hasArc_foldl (P := fun a : Arc CodeNode Transfer => a.src ∉ others ∧ x = a.src ∧ y = first) _ fun g a _ => ?before,
    foldl_after hfollow fun a ha => if_pos ha, hasArc_removeNode, or_assoc]
  case before =>
    split <;> simp_all
  refine or_congr_right (or_congr_left ?_)
  simp only [arcsTo, mem_filter, decide_eq_true_eq, hasArc_iff]
  constructor
  · rintro ⟨a, ⟨ha, hn⟩, ho, rfl, rfl⟩
    exact ⟨⟨a, ha, rfl, hn⟩, ho, rfl⟩
  · rintro ⟨⟨a, ha, rfl, hn⟩, ho, rfl⟩
    exact ⟨a, ⟨ha, hn⟩, ho, rfl, rfl⟩

lemma proper_reroute (h : g.Proper) : (reroute g n first last isOutside others).Proper := by
  rw [reroute, foldl_after hfollow fun a ha => if_pos ha]
  refine (foldl_keeps _ (fun g a _ hg => ?_) (h.removeNode n)).addArc _ _ _
  split
  · exact hg
  · exact hg.addArc ..

lemma mem_reroute (h : g.Proper) (hn : n ∈ others) (hlast : last ∈ g.nodes) (hne : last ≠ n) {m} :
    m ∈ (reroute g n first last isOutside others).nodes ↔ (m ∈ g.nodes ∧ m ≠ n) ∨ m = first := by
  rw [reroute, foldl_after hfollow fun a ha => if_pos ha, mem_addArc]
  generalize hdef : foldl _ _ _ = d
  let Amid (d : CodeGraph) := (∀ m, m ∈ g.nodes ∧ m ≠ n → m ∈ d.nodes) ∧ ∀ m ∈ d.nodes, (m ∈ g.nodes ∧ m ≠ n) ∨ m = first
  have hbefore : Amid d := by
    subst hdef
    refine foldl_keeps _ (fun d a ha hd => ?_) ⟨fun m => mem_removeNode.2, fun m hm => .inl (mem_removeNode.1 hm)⟩
    obtain ⟨hd, hd'⟩ := hd
    obtain ⟨ha, hdst⟩ := mem_filter.1 ha
    have hsrc : a.src ∈ g.nodes := (h.ends _ _ (hasArc_iff.2 ⟨a, ha, rfl, rfl⟩)).1
    split
    · exact ⟨hd, hd'⟩
    · rename_i hout
      refine ⟨fun m hm => mem_addArc.2 (.inl (hd m hm)), fun m hm => ?_⟩
      obtain hm | rfl | rfl := mem_addArc.1 hm
      · exact hd' m hm
      · exact .inl ⟨hsrc, fun he => hout (he ▸ hn)⟩
      · exact .inr rfl
  obtain ⟨hsub, hsup⟩ := hbefore
  constructor
  · rintro (hm | rfl | rfl)
    · exact hsup m hm
    · exact .inr rfl
    · exact .inl ⟨hlast, hne⟩
  · rintro (hm | rfl)
    · exact .inl (hsub m hm)
    · exact .inr (.inl rfl)

end

lemma cutAt_of_new {c : Cutting} (isOutside : Bool) (others) (hn : n.isBlock) (hne : n.addr ≠ s.addr)
    (hnew : ∀ m ∈ (c.byEnd.get? s.addr).getD [], m.addr ≠ n.addr) : (c.cutAt s isOutside others n).function.transfers =
        reroute c.function.transfers n (n.cutTo s.addr) s isOutside others ∧ (c.cutAt s isOutside others n).byEnd =
        c.byEnd.set s.addr ((c.byEnd.get? s.addr).getD [] ++ [n.cutTo s.addr]) := by
  cases n with
  | hook | function => cases hn
  | block a size thumb =>
    have hfound : ((c.byEnd.get? s.addr).getD []).find? (·.addr = a) = none := find?_eq_none.2 fun m hm => mt of_decide_eq_true (hnew m hm)
    have hne : ¬ s.addr = a := hne.symm
    rw [cutAt, if_neg hne, hfound]
    exact ⟨rfl, rfl⟩

/-! ### A group of blocks -/

/-- What has become of a node when the blocks `done` are cut where `s` begins. -/
def renamed (s : CodeNode) (done : List CodeNode) (n : CodeNode) : CodeNode := if n ∈ done then n.cutTo s.addr else n

/-- The graph `g` of a function and its blocks by their ends while the blocks `others` are cut where `s` begins; `done` are
those that have been cut. -/
structure Amid (g : CodeGraph) (byEnd : Table Nat (List CodeNode)) (s : CodeNode) (others done : List CodeNode)
    (c : Cutting) : Prop where
  proper : c.function.transfers.Proper
  nodes : ∀ m, m ∈ c.function.transfers.nodes ↔ (m ∈ g.nodes ∧ m ∉ done) ∨ ∃ n ∈ done, m = n.cutTo s.addr
  arcs : ∀ x y, c.function.transfers.hasArc x y ↔
    (∃ q, g.hasArc x q ∧ x ∉ done ∧ ¬ (x ∈ others ∧ q ∈ done) ∧ y = renamed s done q) ∨ ∃ n ∈ done, x = n.cutTo s.addr ∧ y = s
  keys : c.byEnd.keys.Nodup
  cut : (c.byEnd.get? s.addr).getD [] = done.map (·.cutTo s.addr)
  rest : ∀ k, k ≠ s.addr → c.byEnd.get? k = byEnd.get? k

end Function.Cutting

variable {b : CodeNode}

namespace Digraph

variable {g : CodeGraph} {n s : CodeNode} {others : List CodeNode} (h : g.Nested) (hg : g.Group s others)
include h hg

lemma Group.filled : s.addr < s.stop := by
  obtain ⟨n, hn⟩ := exists_mem_of_ne_nil _ hg.some
  obtain ⟨hnb, hstop, hne⟩ := (hg.mem n).1 hn
  exact h.filled s hg.smallest n hnb hne.symm hstop.symm

/-- The part of a block before the shortest one is not there yet. -/
lemma Nested.cutTo_not_mem (hn : n ∈ others) : n.cutTo s.addr ∉ g.nodes := by
  intro hm
  obtain ⟨hb, hstop, -⟩ := (hg.mem n).1 hn
  have hblock := (mem_blocks.1 hb).2
  have hcut : n.cutTo s.addr = n := h.starts _ (mem_blocks.2 ⟨hm, isBlock_cutTo.trans hblock⟩) n hb addr_cutTo
  have hend : (n.cutTo s.addr).stop = s.addr := stop_cutTo hblock (Nat.le_of_lt (hg.before n hn))
  rw [hcut] at hend
  exact absurd (hg.filled h) (by omega)

lemma Nested.stop_ne_addr (hb : b ∈ g.blocks) : b.stop ≠ s.addr := by
  intro hend
  obtain ⟨n, hn⟩ := exists_mem_of_ne_nil _ hg.some
  obtain ⟨hnb, hstop, -⟩ := (hg.mem n).1 hn
  have hfilled := hg.filled h
  have hbefore := hg.before n hn
  have hle := b.addr_le_stop
  obtain heq | hlt := Nat.eq_or_lt_of_le hle
  · -- an empty block would begin where the shortest one does
    have := h.starts b hb s hg.smallest (heq.trans hend)
    subst this
    omega
  · have := h.apart b hb n hnb
    omega

end Digraph

namespace Function.Cutting

open Digraph

variable {g : CodeGraph} {byEnd : Table Nat (List CodeNode)} {n s : CodeNode} {others done : List CodeNode}
  {isOutside : Bool} {c : Cutting}

lemma Amid.cutAt (h : g.Nested) (hg : g.Group s others) (hc : Amid g byEnd s others done c) (hdone : done ⊆ others)
    (hn : n ∈ others) (hnew : n ∉ done) : Amid g byEnd s others (done ++ [n]) (c.cutAt s isOutside others n) := by
  obtain ⟨hnb, hstop, hne⟩ := (hg.mem n).1 hn
  have hbefore := hg.before n hn
  have hs : s ∉ others := fun hs => ((hg.mem s).1 hs).2.2 rfl
  have hsnodes : s ∈ c.function.transfers.nodes := (hc.nodes s).2 (.inl ⟨(mem_blocks.1 hg.smallest).1, fun hd => hs (hdone hd)⟩)
  have hpart : ∀ m ∈ others, m.cutTo s.addr ∉ g.nodes := fun m hm => h.cutTo_not_mem hg hm
  obtain ⟨hgraph, htable⟩ := cutAt_of_new isOutside others (mem_blocks.1 hnb).2 (Nat.ne_of_lt hbefore) fun m hm he => by
      rw [hc.cut] at hm
      obtain ⟨d, hd, rfl⟩ := mem_map.1 hm
      rw [addr_cutTo] at he
      exact hnew (h.starts d ((hg.mem d).1 (hdone hd)).1 n hnb he ▸ hd)
  have hnnodes : n ∈ g.nodes := (mem_blocks.1 hnb).1
  have hfollow : ∀ y, c.function.transfers.hasArc n y → c.function.transfers.hasArc s y := by
    intro y hy
    obtain ⟨q, hq, -, hout, rfl⟩ | ⟨d, hd, hnd, -⟩ := (hc.arcs n y).1 hy
    · have hsq : g.hasArc s q := mem_succs.1 ((h.succs n hnb s hg.smallest hstop q).1 (mem_succs.2 hq))
      exact (hc.arcs s _).2 (.inl ⟨q, hsq, fun hd => hs (hdone hd), fun hd => hs hd.1, rfl⟩)
    · exact absurd hnnodes (hnd ▸ hpart d (hdone hd))
  have hinto : ∀ x, x ∉ others → (c.function.transfers.hasArc x n ↔ g.hasArc x n) := by
    intro x hx
    rw [hc.arcs]
    constructor
    · rintro (⟨q, hq, -, -, hnq⟩ | ⟨d, -, -, rfl⟩)
      · by_cases hqd : q ∈ done
        · rw [renamed, if_pos hqd] at hnq
          exact absurd hnnodes (hnq ▸ hpart q (hdone hqd))
        · rw [renamed, if_neg hqd] at hnq
          exact hnq ▸ hq
      · exact absurd rfl hne
    · intro hxn
      exact .inl ⟨n, hxn, fun hd => hx (hdone hd), fun hd => hx hd.1, by rw [renamed, if_neg hnew]⟩
  refine ⟨hgraph ▸ proper_reroute hfollow hc.proper, fun m => ?_, fun x y => ?_, htable ▸ Table.nodup_keys_set hc.keys, ?_, fun k hk => ?_⟩
  · rw [hgraph, mem_reroute hfollow hc.proper hn hsnodes hne.symm, hc.nodes]
    grind
  · rw [hgraph, hasArc_reroute hfollow, hc.arcs x y]
    have hto : c.function.transfers.hasArc x n ∧ x ∉ others ∧ y = n.cutTo s.addr ↔
      g.hasArc x n ∧ x ∉ others ∧ y = n.cutTo s.addr := by grind
    rw [hto]
    grind [renamed]
  · rw [htable, Table.get?_set, if_pos rfl, Option.getD_some, hc.cut, map_append]
    rfl
  · rw [htable, Table.get?_set, if_neg hk, hc.rest k hk]

structure Listed (c : Cutting) : Prop where
  keys : c.byEnd.keys.Nodup
  nodup : ∀ k, ((c.byEnd.get? k).getD []).Nodup
  mem : ∀ k n, n ∈ (c.byEnd.get? k).getD [] ↔ n ∈ c.function.transfers.blocks ∧ n.stop = k

lemma Listed.amid_nil (h : c.function.transfers.Nested) (hl : c.Listed) (hg : c.function.transfers.Group s others) :
    Amid c.function.transfers c.byEnd s others [] c := by
  refine ⟨h.proper, by simp, fun x y => by simp [renamed], hl.keys, ?_, fun _ _ => rfl⟩
  refine eq_nil_iff_forall_not_mem.2 fun b hb => ?_
  obtain ⟨hb, hstop⟩ := (hl.mem _ b).1 hb
  exact h.stop_ne_addr hg hb hstop

lemma Amid.foldl_cutAt (isOutside : Bool) (h : g.Nested) (hg : g.Group s others) (rest)
    (hc : Amid g byEnd s others done c) (hsplit : done ++ rest = others) :
    Amid g byEnd s others others (rest.foldl (fun c n => c.cutAt s isOutside others n) c) := by
  induction rest generalizing done c with
  | nil => exact (append_nil done ▸ hsplit) ▸ hc
  | cons n rest ih =>
    have hn : n ∈ others := hsplit ▸ by simp
    have hdone : done ⊆ others := hsplit ▸ subset_append_left done _
    have hnew : n ∉ done := fun hd => by
      have := hg.nodup
      rw [← hsplit] at this
      exact (nodup_append.1 this).2.2 n hd n (by simp) rfl
    exact ih (hc.cutAt h hg hdone hn hnew) (by rw [← hsplit]; simp)

/-- The blocks with one end, sorted by size, are a group. -/
lemma Listed.group (h : c.function.transfers.Nested) (hl : c.Listed) {stop group} (hget : (c.byEnd.get? stop).getD [] = group)
    (hlen : 1 < group.length) (hsort : group.mergeSort (fun a b => a.size?.getD 0 ≤ b.size?.getD 0) = s :: others) :
    c.function.transfers.Group s others ∧ s.stop = stop := by
  have hperm : (s :: others).Perm group := hsort ▸ mergeSort_perm _ _
  have hnodup : (s :: others).Nodup := hperm.nodup_iff.2 (hget ▸ hl.nodup stop)
  have hmem : ∀ n, n ∈ s :: others ↔ n ∈ c.function.transfers.blocks ∧ n.stop = stop := fun n => by rw [hperm.mem_iff, ← hget, hl.mem]
  have hsorted := @pairwise_mergeSort CodeNode (fun a b => a.size?.getD 0 ≤ b.size?.getD 0)
    (fun a b c => by simpa using Nat.le_trans) (fun a b => by simpa using Nat.le_total _ _) group
  rw [hsort] at hsorted
  obtain ⟨hs, hstop⟩ := (hmem s).1 (by simp)
  obtain ⟨hsout, hothers⟩ := nodup_cons.1 hnodup
  refine ⟨⟨hs, fun he => ?_, hothers, fun n => ?_, fun n hn => ?_⟩, hstop⟩
  · rw [he] at hperm
    exact absurd hperm.length_eq (by simp; omega)
  · grind
  · obtain ⟨hnb, hnstop⟩ := (hmem n).1 (.tail _ hn)
    have hsize : s.size?.getD 0 ≤ n.size?.getD 0 := by simpa using rel_of_pairwise_cons hsorted hn
    have hne : n.addr ≠ s.addr := fun he => hsout (h.starts n hnb s hs he ▸ hn)
    rw [CodeNode.stop] at hstop hnstop
    omega

end Function.Cutting

namespace Digraph

variable {g g' : CodeGraph} {n s : CodeNode} {others : List CodeNode} {σ τ : CodeNode → CodeNode}

open Function.Cutting

lemma Cut.mem_blocks (h : g.Cut g' σ) : b ∈ g'.blocks ↔ ∃ n ∈ g.blocks, σ n = b := by
  rw [Digraph.mem_blocks, h.nodes]
  constructor
  · rintro ⟨⟨n, hn, rfl⟩, hb⟩
    refine ⟨n, Digraph.mem_blocks.2 ⟨hn, ?_⟩, rfl⟩
    cases hnb : n.isBlock with
    | true => rfl
    | false => rwa [h.other n hnb, hnb] at hb
  · rintro ⟨n, hn, rfl⟩
    exact ⟨⟨n, (Digraph.mem_blocks.1 hn).1, rfl⟩, (h.block n hn).1⟩

lemma Group.stop_renamed (hg : g.Group s others) (hn : n ∈ others) : (renamed s others n).stop = s.addr := by
  rw [renamed, if_pos hn]
  exact stop_cutTo (mem_blocks.1 ((hg.mem n).1 hn).1).2 (Nat.le_of_lt (hg.before n hn))

lemma Group.stop_renamed_iff (h : g.Nested) (hg : g.Group s others) : (renamed s others n).stop = n.stop ↔ n ∉ others := by
  constructor
  · intro he hn
    rw [hg.stop_renamed hn, ((hg.mem n).1 hn).2.1] at he
    exact absurd (hg.filled h) (by omega)
  · intro hn
    rw [renamed, if_neg hn]

lemma addr_renamed : (renamed s others n).addr = n.addr := by
  rw [renamed]
  split
  · exact addr_cutTo
  · rfl

lemma isBlock_renamed : (renamed s others n).isBlock = n.isBlock := by
  rw [renamed]
  split
  · exact isBlock_cutTo
  · rfl

lemma Group.renamed_inj (h : g.Nested) (hg : g.Group s others) {u v} (hu : u ∈ g.nodes) (hv : v ∈ g.nodes)
    (huv : renamed s others u = renamed s others v) : u = v := by
  have hblock : u.isBlock = v.isBlock := by simpa only [isBlock_renamed] using congrArg isBlock huv
  have haddr : u.addr = v.addr := by simpa only [addr_renamed] using congrArg addr huv
  cases hb : u.isBlock with
  | true => exact h.starts u (mem_blocks.2 ⟨hu, hb⟩) v (mem_blocks.2 ⟨hv, hblock ▸ hb⟩) haddr
  | false =>
    have hout : ∀ n, n.isBlock = false → n ∉ others := fun n hnb hn => by
      have := (mem_blocks.1 ((hg.mem n).1 hn).1).2
      simp [hnb] at this
    rwa [renamed, renamed, if_neg (hout u hb), if_neg (hout v (hblock ▸ hb))] at huv

end Digraph

namespace Function.Cutting

open Digraph

variable {g : CodeGraph} {byEnd : Table Nat (List CodeNode)} {n s : CodeNode} {others : List CodeNode} {c : Cutting}

lemma Amid.nodes_renamed (hg : g.Group s others) (hc : Amid g byEnd s others others c) (m) :
    m ∈ c.function.transfers.nodes ↔ ∃ n ∈ g.nodes, renamed s others n = m := by
  have hsub : ∀ n ∈ others, n ∈ g.nodes := fun n hn => (mem_blocks.1 ((hg.mem n).1 hn).1).1
  rw [hc.nodes]
  grind [renamed]

section
variable (h : g.Nested) (hg : g.Group s others) (hc : Amid g byEnd s others others c)
include h hg hc

lemma Amid.hasArc_cut (hn : n ∈ others) (y : CodeNode) : c.function.transfers.hasArc (renamed s others n) y ↔ y = s := by
  rw [hc.arcs, renamed, if_pos hn]
  constructor
  · rintro (⟨q, hq, -⟩ | ⟨_, -, -, hy⟩)
    · exact absurd (h.proper.ends _ _ hq).1 (h.cutTo_not_mem hg hn)
    · exact hy
  · exact fun hy => .inr ⟨n, hn, rfl, hy⟩

lemma Amid.hasArc_uncut (hnodes : n ∈ g.nodes) (hn : n ∉ others) (y : CodeNode) :
    c.function.transfers.hasArc (renamed s others n) y ↔ ∃ q, g.hasArc n q ∧ y = renamed s others q := by
  rw [hc.arcs, renamed, if_neg hn]
  constructor
  · rintro (⟨q, hq, -, -, hy⟩ | ⟨d, hd, hnd, -⟩)
    · exact ⟨q, hq, hy⟩
    · exact absurd hnodes (hnd ▸ h.cutTo_not_mem hg hd)
  · rintro ⟨q, hq, hy⟩
    exact .inl ⟨q, hq, hn, fun hd => hn hd.1, hy⟩

/-- **A pass over one group** cuts the graph. -/
theorem Amid.isCut : g.Cut c.function.transfers (renamed s others) := by
  have hs : s ∉ others := fun hs => ((hg.mem s).1 hs).2.2 rfl
  have hfilled := hg.filled h
  have hrs : renamed s others s = s := if_neg hs
  have hblock : ∀ n ∈ g.blocks, renamed s others n ∈ c.function.transfers.blocks := fun n hn =>
    mem_blocks.2 ⟨(hc.nodes_renamed hg _).2 ⟨n, (mem_blocks.1 hn).1, rfl⟩, isBlock_renamed.trans (mem_blocks.1 hn).2⟩
  refine ⟨hc.nodes_renamed hg, fun n hn => ?_, fun n hn => ⟨isBlock_renamed.trans (mem_blocks.1 hn).2, addr_renamed, ?_⟩,
    fun n _ hsame => if_neg ((hg.stop_renamed_iff h).1 hsame), fun n hn hne => ?_, fun n hn => ?_, fun x => ⟨?_, ?_⟩,
    fun u hu v hv huncut => ?_, fun u hu v hv hcut => ?_⟩
  · refine if_neg fun hmem => ?_
    have := (mem_blocks.1 ((hg.mem n).1 hmem).1).2
    simp [hn] at this
  · by_cases hmem : n ∈ others
    · rw [hg.stop_renamed hmem, ((hg.mem n).1 hmem).2.1]
      exact Nat.le_of_lt hfilled
    · exact Nat.le_of_eq ((hg.stop_renamed_iff h).2 hmem)
  · have hmem : n ∈ others := not_not.1 (mt (hg.stop_renamed_iff h).2 hne)
    exact ⟨s, hg.smallest, (hg.stop_renamed hmem).symm, hg.before n hmem, hfilled⟩
  · by_cases hmem : n ∈ others
    · exact ⟨s, hg.smallest, ((hg.mem n).1 hmem).2.1.symm, by rw [hrs]⟩
    · exact ⟨n, hn, rfl, (hg.stop_renamed_iff h).2 hmem⟩
  · rintro ⟨b, hb, hlo, hhi⟩
    obtain ⟨hb, hbb⟩ := mem_blocks.1 hb
    obtain ⟨n, hn, rfl⟩ := (hc.nodes_renamed hg b).1 hb
    rw [isBlock_renamed] at hbb
    rw [addr_renamed] at hlo
    refine ⟨n, mem_blocks.2 ⟨hn, hbb⟩, hlo, ?_⟩
    by_cases hmem : n ∈ others
    · rw [hg.stop_renamed hmem] at hhi
      rw [((hg.mem n).1 hmem).2.1]
      omega
    · rwa [(hg.stop_renamed_iff h).2 hmem] at hhi
  · rintro ⟨b, hb, hlo, hhi⟩
    by_cases hmem : b ∈ others
    · -- a byte of a block that is cut is in its first part or in the shortest block
      obtain hx | hx := Nat.lt_or_ge x s.addr
      · exact ⟨_, hblock b hb, by rwa [addr_renamed], by rwa [hg.stop_renamed hmem]⟩
      · exact ⟨_, hblock s hg.smallest, by rwa [hrs], by rwa [hrs, ← ((hg.mem b).1 hmem).2.1]⟩
    · exact ⟨_, hblock b hb, by rwa [addr_renamed], by rwa [(hg.stop_renamed_iff h).2 hmem]⟩
  · rw [hc.hasArc_uncut h hg hu ((hg.stop_renamed_iff h).1 huncut)]
    constructor
    · rintro ⟨q, hq, hvq⟩
      exact hg.renamed_inj h hv (h.proper.ends _ _ hq).2 hvq ▸ hq
    · exact fun huv => ⟨v, huv, rfl⟩
  · have hmem : u ∈ others := not_not.1 (mt (hg.stop_renamed_iff h).2 hcut)
    rw [hc.hasArc_cut h hg hmem, hg.stop_renamed hmem]
    constructor
    · intro hvs
      obtain rfl := hg.renamed_inj h hv (mem_blocks.1 hg.smallest).1 (hvs.trans hrs.symm)
      exact ⟨hg.smallest, rfl⟩
    · rintro ⟨hvb, haddr⟩
      rw [h.starts v hvb s hg.smallest haddr, hrs]

/-- After a pass the blocks are again disjoint or end at the same address. -/
lemma Amid.nested : c.function.transfers.Nested := by
  have hcut := hc.isCut h hg
  have hfilled := hg.filled h
  have hstops : ∀ m ∈ g.blocks, (m ∈ others ∧ (renamed s others m).stop = s.addr ∧ m.stop = s.stop ∧ m.addr < s.addr) ∨
      (m ∉ others ∧ (renamed s others m).stop = m.stop ∧ (m = s ∨ m.stop ≠ s.stop)) := by
    intro m hm
    by_cases hmo : m ∈ others
    · exact .inl ⟨hmo, hg.stop_renamed hmo, ((hg.mem m).1 hmo).2.1, hg.before m hmo⟩
    · refine .inr ⟨hmo, (hg.stop_renamed_iff h).2 hmo, ?_⟩
      by_cases hms : m = s
      · exact .inl hms
      · exact .inr fun hstop => hmo ((hg.mem m).2 ⟨hm, hstop, hms⟩)
  refine ⟨hc.proper, fun a ha b hb hab => ?_, fun a ha b hb => ?_, fun a ha b hb hne hab => ?_, fun a ha b hb hab v => ?_⟩
    <;> obtain ⟨m, hm, rfl⟩ := hcut.mem_blocks.1 ha <;> obtain ⟨n, hn, rfl⟩ := hcut.mem_blocks.1 hb
  · rw [addr_renamed, addr_renamed] at hab
    rw [h.starts m hm n hn hab]
  · have hmn := h.apart m hm n hn
    rw [addr_renamed, addr_renamed]
    obtain ⟨-, hm1, hm2, hm3⟩ | ⟨-, hm1, hm2⟩ := hstops m hm <;> obtain ⟨-, hn1, hn2, hn3⟩ | ⟨-, hn1, hn2⟩ := hstops n hn
      <;> rw [hm1, hn1]
    · exact .inl rfl
    · obtain rfl | hn2 := hn2 <;> omega
    · obtain rfl | hm2 := hm2 <;> omega
    · exact hmn
  · have hne : m ≠ n := fun he => hne (by rw [he])
    rw [addr_renamed]
    obtain ⟨-, hm1, -, hm3⟩ | ⟨-, hm1, -⟩ := hstops m hm
    · rwa [hm1]
    · obtain ⟨-, hn1, -⟩ | ⟨-, hn1, -⟩ := hstops n hn
      · exact absurd (hm1.symm.trans (hab.trans hn1)) (h.stop_ne_addr hg hm)
      · rw [hm1]
        exact h.filled m hm n hn hne (hm1.symm.trans (hab.trans hn1))
  · rw [mem_succs, mem_succs]
    obtain ⟨hmo, hm1, -⟩ | ⟨hmo, hm1, -⟩ := hstops m hm <;> obtain ⟨hno, hn1, -⟩ | ⟨hno, hn1, -⟩ := hstops n hn
    · rw [hc.hasArc_cut h hg hmo, hc.hasArc_cut h hg hno]
    · exact absurd (hn1.symm.trans (hab.symm.trans hm1)) (h.stop_ne_addr hg hn)
    · exact absurd (hm1.symm.trans (hab.trans hn1)) (h.stop_ne_addr hg hm)
    · rw [hc.hasArc_uncut h hg (mem_blocks.1 hm).1 hmo, hc.hasArc_uncut h hg (mem_blocks.1 hn).1 hno]
      have hsame := h.succs m hm n hn (hm1.symm.trans (hab.trans hn1))
      simp only [mem_succs] at hsame
      simp only [hsame]

end

lemma Amid.listed {c0 : Cutting} (h : c0.function.transfers.Nested) (hl : c0.Listed) (hg : c0.function.transfers.Group s others)
    (hc : Amid c0.function.transfers c0.byEnd s others others c) :
    ({ c with byEnd := c.byEnd.set s.stop [s] } : Cutting).Listed := by
  have hcut := hc.isCut h hg
  have hfilled := hg.filled h
  have hs : s ∉ others := fun hs => ((hg.mem s).1 hs).2.2 rfl
  have hat : ∀ k, ((c.byEnd.set s.stop [s]).get? k).getD [] =
      if k = s.stop then [s] else if k = s.addr then others.map (renamed s others) else (c0.byEnd.get? k).getD [] := by
    intro k
    rw [Table.get?_set]
    split
    · rfl
    · split
      · rename_i hk
        rw [hk, hc.cut]
        exact map_congr_left fun n hn => (if_pos hn).symm
      · rename_i hk
        rw [hc.rest k hk]
  refine ⟨Table.nodup_keys_set hc.keys, fun k => ?_, fun k n => ?_⟩
  · rw [hat]
    split
    · exact nodup_singleton s
    · split
      · have hnodes : ∀ n ∈ others, n ∈ c0.function.transfers.nodes := fun n hn => (mem_blocks.1 ((hg.mem n).1 hn).1).1
        exact Nodup.map_on (fun a ha b hb hab => hg.renamed_inj h (hnodes a ha) (hnodes b hb) hab) hg.nodup
      · exact hl.nodup k
  · have hsb : s ∈ c.function.transfers.blocks := hcut.mem_blocks.2 ⟨s, hg.smallest, if_neg hs⟩
    rw [hat]
    split
    · rename_i hk
      rw [mem_singleton, hk]
      refine ⟨by rintro rfl; exact ⟨hsb, rfl⟩, ?_⟩
      rintro ⟨hn, hstop⟩
      obtain ⟨m, hm, rfl⟩ := hcut.mem_blocks.1 hn
      by_cases hmo : m ∈ others
      · rw [hg.stop_renamed hmo] at hstop
        omega
      · rw [(hg.stop_renamed_iff h).2 hmo] at hstop
        rw [renamed, if_neg hmo]
        exact not_not.1 fun hms => hmo ((hg.mem m).2 ⟨hm, hstop, hms⟩)
    · rename_i hk
      split
      · rename_i hka
        rw [mem_map, hka]
        constructor
        · rintro ⟨m, hm, rfl⟩
          exact ⟨hcut.mem_blocks.2 ⟨m, ((hg.mem m).1 hm).1, rfl⟩, hg.stop_renamed hm⟩
        · rintro ⟨hn, hstop⟩
          obtain ⟨m, hm, rfl⟩ := hcut.mem_blocks.1 hn
          refine ⟨m, not_not.1 fun hmo => ?_, rfl⟩
          rw [(hg.stop_renamed_iff h).2 hmo] at hstop
          exact h.stop_ne_addr hg hm hstop
      · rename_i hka
        rw [hl.mem]
        constructor
        · rintro ⟨hn, hstop⟩
          have hno : n ∉ others := fun hno => hk (hstop.symm.trans ((hg.mem n).1 hno).2.1)
          exact ⟨hcut.mem_blocks.2 ⟨n, hn, if_neg hno⟩, hstop⟩
        · rintro ⟨hn, hstop⟩
          obtain ⟨m, hm, rfl⟩ := hcut.mem_blocks.1 hn
          have hmo : m ∉ others := fun hmo => hka (hstop.symm.trans (hg.stop_renamed hmo))
          rw [renamed, if_neg hmo] at hstop ⊢
          exact ⟨hm, hstop⟩

end Function.Cutting

end SymExec
