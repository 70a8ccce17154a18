import Mathlib.Algebra.Order.BigOperators.Group.List
import Mathlib.Algebra.Order.Group.Nat
import Mathlib.Data.List.Permutation
import SymExec.Proofs.Cutting

/-!
# Overlapping blocks are split

Cutting goes on in passes, since the parts of blocks may again end at the same address.
-/

namespace SymExec

open List Nat Digraph

namespace Digraph

variable {g g' g'' : CodeGraph} {σ τ : CodeNode → CodeNode} {n : CodeNode}

section
variable (h : g.Cut g' σ) (hn : n ∈ g.nodes)
include h hn

lemma Cut.stop_le : (σ n).stop ≤ n.stop := by
  cases hb : n.isBlock with
  | true => exact (h.block n (Digraph.mem_blocks.2 ⟨hn, hb⟩)).2.2
  | false => rw [h.other n hb]

lemma Cut.isBlock : (σ n).isBlock = n.isBlock := by
  cases hb : n.isBlock with
  | true => exact (h.block n (Digraph.mem_blocks.2 ⟨hn, hb⟩)).1
  | false => rw [h.other n hb, hb]

lemma Cut.isBlock_of_ne (hne : (σ n).stop ≠ n.stop) : n ∈ g.blocks := by
  refine Digraph.mem_blocks.2 ⟨hn, ?_⟩
  cases hb : n.isBlock with
  | true => rfl
  | false => exact absurd (by rw [h.other n hb]) hne

end

lemma Cut.stop_new (hg : g.Nested) (h : g.Cut g' σ) {b} (hn : n ∈ g.blocks) (hne : (σ n).stop ≠ n.stop)
    (hb : b ∈ g.blocks) : b.stop ≠ (σ n).stop := by
  intro hstop
  obtain ⟨w, hw, haddr, hlo, hhi⟩ := h.inner n hn hne
  have hle := (h.block n hn).2.2
  obtain hempty | hlt := eq_or_lt_of_le b.addr_le_stop
  · have := hg.starts b hb w hw (by omega)
    subst this
    omega
  · have := hg.apart b hb n hn
    omega

lemma Cut.refl (g : CodeGraph) : g.Cut g id where
  nodes m := by simp
  other _ _ := rfl
  block n hn := ⟨(Digraph.mem_blocks.1 hn).2, rfl, le_rfl⟩
  same _ _ _ := rfl
  inner _ _ hne := absurd rfl hne
  ends n hn := ⟨n, hn, rfl, rfl⟩
  covers _ := Iff.rfl
  kept _ _ _ _ _ := Iff.rfl
  next _ _ _ _ hne := absurd rfl hne

lemma Cut.trans (hg : g.Nested) (h : g.Cut g' σ) (h' : g'.Cut g'' τ) : g.Cut g'' fun n => τ (σ n) := by
  have hnode : ∀ n ∈ g.nodes, σ n ∈ g'.nodes := fun n hn => (h.nodes _).2 ⟨n, hn, rfl⟩
  have hblock : ∀ n ∈ g.blocks, σ n ∈ g'.blocks := fun n hn => h.mem_blocks.2 ⟨n, hn, rfl⟩
  refine ⟨fun m => ?_, fun n hn => ?_, fun n hn => ⟨?_, ?_, ?_⟩, fun n hn hsame => ?_, fun n hn hne => ?_,
    fun n hn => ?_, fun x => (h'.covers x).trans (h.covers x), fun u hu v hv hsame => ?_, fun u hu v hv hne => ?_⟩
  · simp only [h'.nodes, h.nodes]
    constructor
    · rintro ⟨_, ⟨n, hn, rfl⟩, rfl⟩
      exact ⟨n, hn, rfl⟩
    · rintro ⟨n, hn, rfl⟩
      exact ⟨_, ⟨n, hn, rfl⟩, rfl⟩
  · rw [h.other n hn, h'.other n hn]
  · exact (h'.block _ (hblock n hn)).1
  · exact (h'.block _ (hblock n hn)).2.1.trans (h.block n hn).2.1
  · exact le_trans (h'.block _ (hblock n hn)).2.2 (h.block n hn).2.2
  · have hle := (h.block n hn).2.2
    have hle' := (h'.block _ (hblock n hn)).2.2
    rw [h'.same _ (hblock n hn) (by omega), h.same n hn (by omega)]
  · by_cases hstop : (τ (σ n)).stop = (σ n).stop
    · obtain ⟨w, hw, haddr, hlo, hhi⟩ := h.inner n hn (hstop ▸ hne)
      exact ⟨w, hw, haddr.trans hstop.symm, hlo, hhi⟩
    · obtain ⟨_, hw', haddr, hlo, hhi⟩ := h'.inner _ (hblock n hn) hstop
      obtain ⟨w, hw, rfl⟩ := h.mem_blocks.1 hw'
      have hwb := h.block w hw
      rw [(h.block n hn).2.1] at hlo
      exact ⟨w, hw, hwb.2.1 ▸ haddr, hwb.2.1 ▸ hlo, by omega⟩
  · obtain ⟨u, hu, hun, hsame⟩ := h.ends n hn
    obtain ⟨_, hv', hvu, hsame'⟩ := h'.ends _ (hblock u hu)
    obtain ⟨v, hv, rfl⟩ := h.mem_blocks.1 hv'
    -- the end was there at first, so the block that has it now has always had it
    have hvsame : (σ v).stop = v.stop := by
      by_contra hne
      exact h.stop_new hg hv hne hn (by rw [hvu, hsame, hun])
    exact ⟨v, hv, by rw [← hvsame, hvu, hsame, hun], hsame'.trans hvsame⟩
  · have hle := h.stop_le hu
    have hle' := h'.stop_le (hnode u hu)
    rw [h'.kept _ (hnode u hu) _ (hnode v hv) (by omega), h.kept u hu v hv (by omega)]
  · by_cases hstop : (τ (σ u)).stop = (σ u).stop
    · rw [h'.kept _ (hnode u hu) _ (hnode v hv) hstop, h.next u hu v hv (hstop ▸ hne), hstop]
    · rw [h'.next _ (hnode u hu) _ (hnode v hv) hstop]
      have hv' : σ v ∈ g'.blocks ↔ v ∈ g.blocks := by
        rw [Digraph.mem_blocks, Digraph.mem_blocks, h.isBlock hv]
        exact and_congr_left' (iff_of_true (hnode v hv) hv)
      rw [hv']
      exact and_congr_right fun hvb => by rw [(h.block v hvb).2.1]

end Digraph

/-! ### Passes -/

/-- The bytes of all pieces of code, those in several pieces as often as they are there. -/
def Digraph.weight (g : CodeGraph) : Nat := (g.nodes.map fun n => n.size?.getD 0).sum

variable {f : Function}

namespace Function.Cutting

open Digraph Relation

variable {g : CodeGraph} {n s : CodeNode} {others : List CodeNode} {c c' : Cutting}

/-- One pass: some blocks that end at the same address are cut. -/
def Pass (c c' : Cutting) : Prop := ∃ stop group, (stop, group) ∈ c.byEnd.entries ∧ 1 < group.length ∧ c' = c.cutGroup stop group

structure Ready (c : Cutting) : Prop where
  nested : c.function.transfers.Nested
  listed : c.Listed

lemma Amid.weight_lt {byEnd : Table Nat (List CodeNode)} (h : g.Nested) (hg : g.Group s others)
    (hc : Amid g byEnd s others others c) : c.function.transfers.weight < g.weight := by
  have hinj : (g.nodes.map (renamed s others)).Nodup := List.Nodup.map_on (fun a ha b hb hab => hg.renamed_inj h ha hb hab) h.proper.nodup
  have hperm : c.function.transfers.nodes.Perm (g.nodes.map (renamed s others)) :=
    (List.perm_ext_iff_of_nodup hc.proper.nodup hinj).2 fun m => by rw [hc.nodes_renamed hg, List.mem_map]
  have hsize : ∀ n : CodeNode, n.addr + n.size?.getD 0 = n.stop := fun _ => rfl
  have hle : ∀ n ∈ g.nodes, (renamed s others n).size?.getD 0 ≤ n.size?.getD 0 := fun n hn => by
    have := (hc.isCut h hg).stop_le hn
    have := hsize n
    have := hsize (renamed s others n)
    rw [addr_renamed] at this
    omega
  obtain ⟨n, hn⟩ := List.exists_mem_of_ne_nil _ hg.some
  have hlt : (renamed s others n).size?.getD 0 < n.size?.getD 0 := by
    have := hg.stop_renamed hn
    have := ((hg.mem n).1 hn).2.1
    have := hg.filled h
    have := hsize n
    have := hsize (renamed s others n)
    rw [addr_renamed] at this
    omega
  rw [weight, (hperm.map _).sum_nat, List.map_map]
  exact sum_lt_sum _ _ hle ⟨n, (mem_blocks.1 ((hg.mem n).1 hn).1).1, hlt⟩

lemma Ready.pass (h : c.Ready) (hp : c.Pass c') : c'.Ready ∧ (∃ σ, c.function.transfers.Cut c'.function.transfers σ) ∧
      c'.function.transfers.weight < c.function.transfers.weight := by
  obtain ⟨stop, group, hmem, hlen, rfl⟩ := hp
  have hget : (c.byEnd.get? stop).getD [] = group := by
    rw [(Table.get?_eq_some_iff h.listed.keys).2 hmem]
    rfl
  rw [cutGroup]
  split
  · rename_i hsort
    have := (mergeSort_perm group fun a b => a.size?.getD 0 ≤ b.size?.getD 0).length_eq
    rw [hsort] at this
    exact absurd hlen (by simp at this; omega)
  · rename_i s others hsort
    obtain ⟨hg, hstop⟩ := h.listed.group h.nested hget hlen hsort
    subst hstop
    have hamid := (h.listed.amid_nil h.nested hg).foldl_cutAt (s ∉ c.function.transfers.nodes) h.nested hg others rfl
    have hnested := hamid.nested h.nested hg
    have hlisted := hamid.listed h.nested h.listed hg
    have hcut := hamid.isCut h.nested hg
    have hweight := hamid.weight_lt h.nested hg
    exact ⟨⟨hnested, hlisted⟩, ⟨_, hcut⟩, hweight⟩

lemma Ready.acc (h : c.Ready) : Acc (fun d c : Cutting => c.Pass d) c := by
  induction hw : c.function.transfers.weight using Nat.strong_induction_on generalizing c with
  | _ k ih =>
    subst hw
    exact .intro c fun d hd => ih _ (h.pass hd).2.2 (h.pass hd).1 rfl

lemma Ready.passes (h : c.Ready) (hp : ReflTransGen Pass c c') : c'.Ready ∧ ∃ σ, c.function.transfers.Cut c'.function.transfers σ := by
  induction hp with
  | refl => exact ⟨h, id, .refl _⟩
  | tail _ hp ih =>
    obtain ⟨hr, σ, hσ⟩ := ih
    obtain ⟨hr', ⟨τ, hτ⟩, -⟩ := hr.pass hp
    exact ⟨hr', _, hσ.trans h.nested hτ⟩

/-- **With enough rounds** the passes go on until none is left. -/
theorem Ready.run (h : c.Ready) {fuel : Nat} (hf : c.function.transfers.weight < fuel) :
    ReflTransGen Pass c (run fuel c) ∧ ∀ d, ¬ (run fuel c).Pass d := by
  induction fuel generalizing c with
  | zero => omega
  | succ fuel ih =>
    rw [run]
    split
    · rename_i hnone
      refine ⟨.refl, fun d ⟨stop, group, hmem, hlen, _⟩ => ?_⟩
      exact absurd (find?_eq_none.1 hnone _ hmem) (by simpa using hlen)
    · rename_i stop group hsome
      have hp : c.Pass (c.cutGroup stop group) := ⟨stop, group, mem_of_find?_eq_some hsome, by simpa using find?_some hsome, rfl⟩
      obtain ⟨hr, -, hw⟩ := h.pass hp
      obtain ⟨hreach, hdone⟩ := ih hr (by omega)
      exact ⟨.head hp hreach, hdone⟩

lemma Ready.stop_inj (h : c.Ready) (hdone : ∀ d, ¬ c.Pass d) {a b} (ha : a ∈ c.function.transfers.blocks)
    (hb : b ∈ c.function.transfers.blocks) (hab : a.stop = b.stop) : a = b := by
  have ha' := (h.listed.mem b.stop a).2 ⟨ha, hab⟩
  have hb' := (h.listed.mem b.stop b).2 ⟨hb, rfl⟩
  cases hget : c.byEnd.get? b.stop with
  | none => simp [hget] at ha'
  | some group =>
    rw [hget] at ha' hb'
    have hlen : ¬ 1 < group.length := fun hlen => hdone _ ⟨_, group, (Table.get?_eq_some_iff h.listed.keys).1 hget, hlen, rfl⟩
    rcases group with _ | ⟨n, _ | ⟨m, l⟩⟩
    · simp at ha'
    · exact (mem_singleton.1 ha').trans (mem_singleton.1 hb').symm
    · simp at hlen

lemma get?_byEnd (l : List CodeNode) (t : Table Nat (List CodeNode)) (k) : ((l.foldl (fun (t : Table Nat (List CodeNode)) n =>
      match n with
      | .block a s _ => t.set (a + s) ((t.get? (a + s)).getD [] ++ [n])
      | _ => t) t).get? k).getD [] = (t.get? k).getD [] ++ l.filter fun n => n.isBlock && n.stop = k := by
  induction l generalizing t with
  | nil => simp
  | cons n l ih =>
    rw [foldl_cons, ih]
    cases n with
    | block a s thumb =>
      by_cases hk : k = a + s <;> simp [hk, CodeNode.isBlock, CodeNode.stop, CodeNode.addr, CodeNode.size?, eq_comm]
    | hook | function => simp [CodeNode.isBlock]

lemma ready_ofFunction (h : f.transfers.Nested) : (ofFunction f).Ready := by
  have hget : ∀ k, ((ofFunction f).byEnd.get? k).getD [] = f.transfers.nodes.filter fun n => n.isBlock && n.stop = k :=
    fun k => get?_byEnd _ _ k
  refine ⟨h, foldl_keeps (I := fun t : Table Nat (List CodeNode) => t.keys.Nodup) _ (fun t n _ ht => ?_) nodup_nil,
    fun k => ?_, fun k n => ?_⟩
  · split
    · exact Table.nodup_keys_set ht
    · exact ht
  · rw [hget]
    exact h.proper.nodup.filter _
  · rw [hget, mem_filter]
    simp only [Bool.and_eq_true, decide_eq_true_eq, ← and_assoc]
    rw [← mem_blocks]
    rfl

end Function.Cutting

/-! ### The function in the end -/

namespace Digraph

variable {g g' : CodeGraph} {σ : CodeNode → CodeNode} {p q u v b : CodeNode}

/-- What stands where a node began: the block with its start, or the node itself if it is no block. -/
def Heir (g' : CodeGraph) (q v : CodeNode) : Prop := if q.isBlock then v ∈ g'.blocks ∧ v.addr = q.addr else v = q

/-- What stands where a node ended: the block with its end, or the node itself if it is no block. -/
def Tail (g' : CodeGraph) (q u : CodeNode) : Prop := if q.isBlock then u ∈ g'.blocks ∧ u.stop = q.stop else u = q

structure Split (g g' : CodeGraph) : Prop where
  disjoint : ∀ a ∈ g'.blocks, ∀ b ∈ g'.blocks, a ≠ b → a.stop ≤ b.addr ∨ b.stop ≤ a.addr
  covers : ∀ x, (∃ b ∈ g'.blocks, b.addr ≤ x ∧ x < b.stop) ↔ ∃ b ∈ g.blocks, b.addr ≤ x ∧ x < b.stop
  starts : ∀ b ∈ g.blocks, ∃! p, p ∈ g'.blocks ∧ p.addr = b.addr
  started : ∀ p ∈ g'.blocks, ∃ b ∈ g.blocks, b.addr = p.addr
  other : ∀ n, n.isBlock = false → (n ∈ g'.nodes ↔ n ∈ g.nodes)
  /-- A piece that ends where a block ended leads where the block led. -/
  last : ∀ p ∈ g'.blocks, ∀ b ∈ g.blocks, p.stop = b.stop → ∀ v, v ∈ g'.succs p ↔ ∃ q ∈ g.succs b, Heir g' q v
  /-- A piece that ends elsewhere leads to the block that begins there. -/
  inner : ∀ p ∈ g'.blocks, (∀ b ∈ g.blocks, b.stop ≠ p.stop) → ∃ q ∈ g'.blocks, q.addr = p.stop ∧ ∀ v, v ∈ g'.succs p ↔ v = q
  /-- What led to the start of a block leads there from where it ended, and so do the pieces that end there. -/
  preds : ∀ b ∈ g.blocks, ∀ p ∈ g'.blocks, p.addr = b.addr → ∀ u, u ∈ g'.preds p ↔
    (∃ q ∈ g.preds b, Tail g' q u) ∨ (u ∈ g'.blocks ∧ u.stop = p.addr ∧ ∀ c ∈ g.blocks, c.stop ≠ u.stop)
  succs : ∀ n ∈ g.nodes, n.isBlock = false → ∀ v, v ∈ g'.succs n ↔ ∃ q ∈ g.succs n, Heir g' q v

variable (hg : g.Nested) (h : g.Cut g' σ)
include hg h

lemma Cut.eq_of_addr (hp : p ∈ g'.blocks) (hq : q ∈ g'.blocks) (hpq : p.addr = q.addr) : p = q := by
  obtain ⟨a, ha, rfl⟩ := h.mem_blocks.1 hp
  obtain ⟨b, hb, rfl⟩ := h.mem_blocks.1 hq
  rw [(h.block a ha).2.1, (h.block b hb).2.1] at hpq
  rw [hg.starts a ha b hb hpq]

lemma Cut.heir_iff (hq : q ∈ g.nodes) : Heir g' q v ↔ v = σ q := by
  rw [Heir]
  split
  · rename_i hb
    have hq : q ∈ g.blocks := Digraph.mem_blocks.2 ⟨hq, hb⟩
    have hσ : σ q ∈ g'.blocks := h.mem_blocks.2 ⟨q, hq, rfl⟩
    constructor
    · exact fun ⟨hv, haddr⟩ => h.eq_of_addr hg hv hσ (haddr.trans (h.block q hq).2.1.symm)
    · rintro rfl
      exact ⟨hσ, (h.block q hq).2.1⟩
  · rename_i hb
    rw [h.other q (by simpa using hb)]

omit hg in
lemma Cut.tail (hq : q ∈ g.nodes) (hsame : (σ q).stop = q.stop) : Tail g' q (σ q) := by
  rw [Tail]
  split
  · rename_i hb
    exact ⟨h.mem_blocks.2 ⟨q, Digraph.mem_blocks.2 ⟨hq, hb⟩, rfl⟩, hsame⟩
  · rename_i hb
    exact h.other q (by simpa using hb)

/-- A node that ends where it did leads to what stands where it led. -/
lemma Cut.hasArc_kept (hp' : g'.Proper) (hu : u ∈ g.nodes) (hsame : (σ u).stop = u.stop) :
    g'.hasArc (σ u) v ↔ ∃ q, g.hasArc u q ∧ Heir g' q v := by
  constructor
  · intro huv
    obtain ⟨q, hq, rfl⟩ := (h.nodes v).1 (hp'.ends _ _ huv).2
    exact ⟨q, (h.kept u hu q hq hsame).1 huv, (h.heir_iff hg hq).2 rfl⟩
  · rintro ⟨q, huq, hqv⟩
    have hq := (hg.proper.ends _ _ huq).2
    rw [(h.heir_iff hg hq).1 hqv, h.kept u hu q hq hsame]
    exact huq

/-- A block that was cut leads to the block that begins where it now ends. -/
lemma Cut.hasArc_next (hp' : g'.Proper) (hu : u ∈ g.nodes) (hne : (σ u).stop ≠ u.stop) :
    ∃ q ∈ g'.blocks, q.addr = (σ u).stop ∧ ∀ v, g'.hasArc (σ u) v ↔ v = q := by
  obtain ⟨w, hw, haddr, -⟩ := h.inner u (h.isBlock_of_ne hu hne) hne
  have hσ : σ w ∈ g'.blocks := h.mem_blocks.2 ⟨w, hw, rfl⟩
  refine ⟨σ w, hσ, (h.block w hw).2.1.trans haddr, fun v => ⟨fun huv => ?_, ?_⟩⟩
  · obtain ⟨q, hq, rfl⟩ := (h.nodes v).1 (hp'.ends _ _ huv).2
    obtain ⟨hqb, hqaddr⟩ := (h.next u hu q hq hne).1 huv
    rw [hg.starts q hqb w hw (hqaddr.trans haddr.symm)]
  · rintro rfl
    exact (h.next u hu w (Digraph.mem_blocks.1 hw).1 hne).2 ⟨hw, haddr⟩

/-- **Cutting until no two blocks end at the same address** splits the blocks. -/
theorem Cut.split (hg' : g'.Nested) (hstop : ∀ a ∈ g'.blocks, ∀ b ∈ g'.blocks, a.stop = b.stop → a = b) : g.Split g' := by
  have hblock : ∀ n ∈ g.blocks, σ n ∈ g'.blocks := fun n hn => h.mem_blocks.2 ⟨n, hn, rfl⟩
  have hkeptstop : ∀ m ∈ g.blocks, ∀ b ∈ g.blocks, (σ m).stop = b.stop → (σ m).stop = m.stop := fun m hm b hb hmb =>
    not_not.1 fun hne => h.stop_new hg hm hne hb hmb.symm
  refine ⟨fun a ha b hb hne => ?_, h.covers, fun b hb => ?_, fun p hp => ?_, fun n hn => ?_, fun p hp b hb hpb v => ?_,
    fun p hp hnew => ?_, fun b hb p hp hpb u => ?_, fun n hn hnb v => ?_⟩
  · exact (hg'.apart a ha b hb).resolve_left fun hab => hne (hstop a ha b hb hab)
  · refine ⟨σ b, ⟨hblock b hb, (h.block b hb).2.1⟩, fun p ⟨hp, hpb⟩ => ?_⟩
    exact h.eq_of_addr hg hp (hblock b hb) (hpb.trans (h.block b hb).2.1.symm)
  · obtain ⟨b, hb, rfl⟩ := h.mem_blocks.1 hp
    exact ⟨b, hb, (h.block b hb).2.1.symm⟩
  · rw [h.nodes]
    constructor
    · rintro ⟨m, hm, rfl⟩
      rwa [h.other m (h.isBlock hm ▸ hn)]
    · exact fun hmem => ⟨n, hmem, h.other n hn⟩
  · obtain ⟨m, hm, rfl⟩ := h.mem_blocks.1 hp
    have hsame := hkeptstop m hm b hb hpb
    have hsuccs := hg.succs m hm b hb (hsame.symm.trans hpb)
    rw [mem_succs, h.hasArc_kept hg hg'.proper (Digraph.mem_blocks.1 hm).1 hsame]
    simp only [← mem_succs, hsuccs]
  · obtain ⟨m, hm, rfl⟩ := h.mem_blocks.1 hp
    obtain ⟨q, hq, haddr, hnext⟩ := h.hasArc_next hg hg'.proper (Digraph.mem_blocks.1 hm).1 fun he => hnew m hm he.symm
    exact ⟨q, hq, haddr, fun v => mem_succs.trans (hnext v)⟩
  · have hpσ : p = σ b := h.eq_of_addr hg hp (hblock b hb) (hpb.trans (h.block b hb).2.1.symm)
    have hbn := (Digraph.mem_blocks.1 hb).1
    simp only [mem_preds]
    constructor
    · intro hub
      obtain ⟨w, hw, rfl⟩ := (h.nodes u).1 (hg'.proper.ends _ _ hub).1
      rw [hpσ] at hub
      by_cases hsame : (σ w).stop = w.stop
      · exact .inl ⟨w, (h.kept w hw b hbn hsame).1 hub, h.tail hw hsame⟩
      · have hwb := h.isBlock_of_ne hw hsame
        have haddr := ((h.next w hw b hbn hsame).1 hub).2
        exact .inr ⟨hblock w hwb, haddr.symm.trans hpb.symm, fun c hc => h.stop_new hg hwb hsame hc⟩
    · rintro (⟨q, hqb, htail⟩ | ⟨hu, hup, hnew⟩)
      · have hq := (hg.proper.ends _ _ hqb).1
        rw [Tail] at htail
        split at htail
        · rename_i hqblock
          have hqblock : q ∈ g.blocks := Digraph.mem_blocks.2 ⟨hq, hqblock⟩
          obtain ⟨w, hw, rfl⟩ := h.mem_blocks.1 htail.1
          have hsame := hkeptstop w hw q hqblock htail.2
          have hwb : g.hasArc w b := mem_succs.1 ((hg.succs w hw q hqblock (hsame.symm.trans htail.2) b).2 (mem_succs.2 hqb))
          rw [hpσ]
          exact (h.kept w (Digraph.mem_blocks.1 hw).1 b hbn hsame).2 hwb
        · rename_i hqblock
          have hqσ : σ q = q := h.other q (by simpa using hqblock)
          rw [htail, hpσ, ← hqσ]
          exact (h.kept q hq b hbn (by rw [hqσ])).2 hqb
      · obtain ⟨w, hw, rfl⟩ := h.mem_blocks.1 hu
        rw [hpσ]
        exact (h.next w (Digraph.mem_blocks.1 hw).1 b hbn fun he => hnew w hw he.symm).2 ⟨hb, hpb.symm.trans hup.symm⟩
  · have hsame : (σ n).stop = n.stop := by rw [h.other n hnb]
    rw [mem_succs]
    conv_lhs => rw [← h.other n hnb]
    rw [h.hasArc_kept hg hg'.proper hn hsame]
    simp only [mem_succs]

end Digraph

namespace Function

open Cutting Relation

lemma exists_passes_normalize (h : f.transfers.Nested) (hstart : f.startpoint = none → f.transfers.blocks = []) :
    ∃ c, ReflTransGen Pass (.ofFunction f) c ∧ (∀ d, ¬ c.Pass d) ∧ c.function.transfers = f.normalize.transfers := by
  obtain ⟨hreach, hdone⟩ := (ready_ofFunction h).run (lt_succ_of_le (sum_le_sum fun _ _ => le_succ _))
  rw [normalize]
  split
  · rename_i hnone
    -- without blocks there is nothing to pass over
    refine ⟨_, .refl, fun d ⟨stop, group, hmem, hlen, _⟩ => ?_, rfl⟩
    have hlisted := (ready_ofFunction h).listed
    obtain ⟨b, hb⟩ := exists_mem_of_length_pos (zero_lt_of_lt hlen)
    have hget : ((ofFunction f).byEnd.get? stop).getD [] = group := by
      rw [(Table.get?_eq_some_iff hlisted.keys).2 hmem]
      rfl
    have hblock : b ∈ f.transfers.blocks := ((hlisted.mem stop b).1 (hget ▸ hb)).1
    simp [hstart hnone] at hblock
  · exact ⟨_, hreach, hdone, rfl⟩

/-- **Normal functions have no overlapping blocks.** The blocks of a function must be disjoint or end at the same address and
then lead to the same places, and a function without a beginning must have none. However the groups of blocks with the same
end are chosen, one after the other, this comes to an end, and then the blocks are split; so they are in the normal
function. -/
theorem normalize_splits (f : Function) (h : f.transfers.Nested) (hstart : f.startpoint = none → f.transfers.blocks = []) :
    Acc (fun d c : Cutting => c.Pass d) (.ofFunction f) ∧
    (∀ c, ReflTransGen Pass (.ofFunction f) c → (∀ d, ¬ c.Pass d) → f.transfers.Split c.function.transfers) ∧
    f.transfers.Split f.normalize.transfers := by
  have hready := ready_ofFunction h
  have hsplit : ∀ c, ReflTransGen Pass (.ofFunction f) c → (∀ d, ¬ c.Pass d) → f.transfers.Split c.function.transfers := by
    intro c hc hdone
    obtain ⟨hr, σ, hσ⟩ := hready.passes hc
    exact hσ.split h hr.nested fun a ha b hb => hr.stop_inj hdone ha hb
  obtain ⟨c, hc, hdone, hnormal⟩ := exists_passes_normalize h hstart
  exact ⟨hready.acc, hsplit, hnormal ▸ hsplit c hc hdone⟩

/-- Three blocks one inside the other, each of which leads to the longest, to the next and to a hook, and a block that leads
to the longest and to the shortest. The longest is cut twice. -/
theorem normalize_splits_three_nested :
    let long : CodeNode := .block 0 12 false
    let middle : CodeNode := .block 4 8 false
    let short : CodeNode := .block 8 4 false
    let apart : CodeNode := .block 20 4 false
    let hook : CodeNode := .hook 40 none "stop"
    let way (u v : CodeNode) : Arc CodeNode Transfer := ⟨u, v, { kind := .transition }⟩
    let f : Function := { addr := 0, name := "f", startpoint := some long, transfers := {
      nodes := [long, middle, short, apart, hook]
      arcs := [way long long, way long middle, way long hook, way middle long, way middle middle, way middle hook,
        way short long, way short middle, way short hook, way apart long, way apart short] } }
    f.transfers.Nested ∧ f.transfers.Split f.normalize.transfers ∧
      f.normalize.transfers.blocks = [short, apart, .block 4 4 false, .block 0 4 false] := by
  intro long middle short apart hook way f
  have hnested : f.transfers.Nested := by
    have harcs : ∀ a ∈ f.transfers.arcs, a.src ∈ f.transfers.nodes ∧ a.dst ∈ f.transfers.nodes := by decide
    have hsuccs : ∀ a ∈ f.transfers.blocks, ∀ b ∈ f.transfers.blocks, a.stop = b.stop →
        f.transfers.succs a = f.transfers.succs b := by decide
    refine ⟨⟨by decide, fun u v huv => ?_⟩, by decide, by decide, by decide, fun a ha b hb hab v => by rw [hsuccs a ha b hb hab]⟩
    obtain ⟨a, ha, rfl, rfl⟩ := Digraph.hasArc_iff.1 huv
    exact harcs a ha
  exact ⟨hnested, (normalize_splits f hnested (by decide)).2.2, by cbv⟩

/-- Without a beginning the blocks stay as they are; and a block is made to lead to an empty one that stands at its end. -/
theorem normalize_overlaps_or_links :
    let long : CodeNode := .block 0 8 false
    let short : CodeNode := .block 4 4 false
    let empty : CodeNode := .block 8 0 false
    let f : Function := { addr := 16, name := "f", transfers := { nodes := [long, short] } }
    let g : Function := { addr := 0, name := "g", startpoint := some long, transfers := { nodes := [long, empty] } }
    f.transfers.Nested ∧ ¬ f.transfers.Split f.normalize.transfers ∧
      g.transfers.arcs = [] ∧ g.normalize.transfers.succs long = [empty] := by
  intro long short empty f g
  refine ⟨⟨⟨by decide, fun u v huv => by simp [Digraph.hasArc, f] at huv⟩, by decide, by decide, by decide,
    fun a _ b _ _ v => by simp [Digraph.hasArc, f]⟩, fun h => ?_, rfl, by cbv⟩
  exact absurd (h.disjoint long (by decide) short (by decide) (by decide)) (by decide)

end Function

/-! ### Sites -/

namespace Digraph

variable {g g' : CodeGraph} {σ : CodeNode → CodeNode} {b : CodeNode}

lemma Cut.mem_nodes_iff (h : g.Cut g' σ) (hs : g.Split g') (hb : b ∈ g.blocks) :
    b ∈ g'.nodes ↔ ∀ c ∈ g.blocks, c.addr ≤ b.addr ∨ b.stop ≤ c.addr := by
  constructor
  · intro hmem c hc
    have hblock : b ∈ g'.blocks := Digraph.mem_blocks.2 ⟨hmem, (Digraph.mem_blocks.1 hb).2⟩
    have hσc : σ c ∈ g'.blocks := h.mem_blocks.2 ⟨c, hc, rfl⟩
    have haddr := (h.block c hc).2.1
    by_cases hne : b = σ c
    · exact .inl (by rw [hne, haddr])
    · have hle := (σ c).addr_le_stop
      have := hs.disjoint b hblock _ hσc hne
      omega
  · intro houtside
    refine (h.nodes b).2 ⟨b, (Digraph.mem_blocks.1 hb).1, h.same b hb ?_⟩
    by_contra hne
    obtain ⟨w, hw, haddr, hlo, -⟩ := h.inner b hb hne
    have hle := (h.block b hb).2.2
    have := houtside w hw
    omega

lemma Cut.exists_last (hg : g.Nested) (h : g.Cut g' σ) (hs : g.Split g')
    (hstop : ∀ a ∈ g'.blocks, ∀ b ∈ g'.blocks, a.stop = b.stop → a = b) (hb : b ∈ g.blocks) :
    ∃! p, p ∈ g'.blocks ∧ p.stop = b.stop ∧ b.addr ≤ p.addr := by
  obtain ⟨u, hu, hub, hsame⟩ := h.ends b hb
  have hσu : σ u ∈ g'.blocks := h.mem_blocks.2 ⟨u, hu, rfl⟩
  have hend : (σ u).stop = b.stop := hsame.trans hub
  refine ⟨σ u, ⟨hσu, hend, ?_⟩, fun p ⟨hp, hpb, _⟩ => hstop p hp _ hσu (hpb.trans hend.symm)⟩
  by_cases hne : u = b
  · exact le_of_eq (hne ▸ (h.block u hu).2.1.symm)
  · have hfilled := hg.filled b hb u hu (Ne.symm hne) hub.symm
    have hσb : σ b ∈ g'.blocks := h.mem_blocks.2 ⟨b, hb, rfl⟩
    have haddr := (h.block b hb).2.1
    by_cases hσ : σ u = σ b
    · exact le_of_eq (by rw [hσ, haddr])
    · have hle := (σ b).addr_le_stop
      have := hs.disjoint _ hσu _ hσb hσ
      omega

end Digraph

namespace Function

open Cutting Relation

/-- Where a function returns, jumps out, calls without coming back and ends. -/
def sites (f : Function) : List CodeNode × List CodeNode × List (Option CodeNode) × List CodeNode × List (Ending × Option CodeNode) :=
  (f.retSites, f.jumpoutSites, f.calloutSites, f.retoutSites, f.endings)

lemma sites_cutAt (c : Cutting) (s isOutside others n) : (c.cutAt s isOutside others n).function.sites = c.function.sites := by
  cases n with
  | hook | function => rfl
  | block a size thumb =>
    rw [cutAt]
    split
    · rfl
    · cases ((c.byEnd.get? s.addr).getD []).find? (·.addr = a) <;> rfl

lemma sites_cutGroup (c : Cutting) (stop group) : (c.cutGroup stop group).function.sites = c.function.sites := by
  rw [cutGroup]
  split
  · rfl
  · exact foldl_keeps _ (fun d n _ hd => (sites_cutAt d _ _ _ n).trans hd) rfl

lemma sites_run (fuel : Nat) (c) : (run fuel c).function.sites = c.function.sites := by
  induction fuel generalizing c with
  | zero => rfl
  | succ fuel ih =>
    rw [run]
    split
    · rfl
    · exact (ih _).trans (sites_cutGroup c _ _)

lemma sites_normalize (f : Function) : f.normalize.sites = f.sites := by
  rw [normalize]
  split
  · rfl
  · exact sites_run _ _

/-- **Normalization leaves the sites as they are**, blocks that it cuts among them. A block is still there exactly if no
other begins inside it; what has its last bytes in the end is the one block that ends where it ended. -/
theorem normalize_leaves_sites (f : Function) (h : f.transfers.Nested) (hstart : f.startpoint = none → f.transfers.blocks = []) :
    f.normalize.sites = f.sites ∧ ∀ b ∈ f.transfers.blocks,
      (b ∈ f.normalize.transfers.nodes ↔ ∀ c ∈ f.transfers.blocks, c.addr ≤ b.addr ∨ b.stop ≤ c.addr) ∧
      ∃! p, p ∈ f.normalize.transfers.blocks ∧ p.stop = b.stop ∧ b.addr ≤ p.addr := by
  refine ⟨sites_normalize f, fun b hb => ?_⟩
  obtain ⟨c, hc, hdone, hnormal⟩ := exists_passes_normalize h hstart
  obtain ⟨hr, σ, hσ⟩ := (ready_ofFunction h).passes hc
  have hstop := fun a ha b hb => hr.stop_inj hdone (a := a) (b := b) ha hb
  have hsplit := hσ.split h hr.nested hstop
  rw [← hnormal]
  exact ⟨hσ.mem_nodes_iff hsplit hb, hσ.exists_last h hsplit hstop hb⟩

/-- Two blocks that return, the one inside the other: the longer is cut and still stands among those that return. -/
theorem normalize_leaves_sites_cut :
    let long : CodeNode := .block 8 16 false
    let short : CodeNode := .block 16 8 false
    let f : Function :=
      { addr := 8, name := "f", startpoint := some long, retSites := [long, short], transfers := { nodes := [long, short] } }
    f.transfers.Nested ∧ f.normalize.sites = f.sites ∧ long ∈ f.normalize.retSites ∧ long ∉ f.normalize.transfers.nodes := by
  intro long short f
  have hnested : f.transfers.Nested :=
    ⟨⟨by decide, fun u v huv => by simp [Digraph.hasArc, f] at huv⟩, by decide, by decide, by decide,
      fun a _ b _ _ v => by simp [Digraph.hasArc, f]⟩
  obtain ⟨hsites, hblocks⟩ := normalize_leaves_sites f hnested (by decide)
  refine ⟨hnested, hsites, ?_, fun hmem => ?_⟩
  · rw [show f.normalize.retSites = f.retSites from congrArg Prod.fst hsites]
    exact List.mem_cons_self
  · exact absurd ((hblocks long (by decide)).1.1 hmem) (by decide)

end Function

end SymExec
