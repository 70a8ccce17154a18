import Mathlib.Data.List.Nodup
import SymExec.Graph

/-!
# Nodes and arcs after changes

What each change of a graph does to its nodes and arcs, and what a change of a table does to its values.
-/

namespace SymExec

open List

namespace Digraph

variable {α β γ : Type} [DecidableEq α] {g : Digraph α β} {n u v x y : α} {l : β} {m : α}

lemma hasArc_iff : g.hasArc x y ↔ ∃ a ∈ g.arcs, a.src = x ∧ a.dst = y := by simp [hasArc]

@[simp] lemma mem_succs : v ∈ g.succs u ↔ g.hasArc u v := by simp [succs, arcsFrom, hasArc_iff, and_assoc]

@[simp] lemma mem_preds : u ∈ g.preds v ↔ g.hasArc u v := by
  simp only [preds, arcsTo, mem_map, mem_filter, decide_eq_true_eq, hasArc_iff, and_assoc, and_comm]

@[simp] lemma mem_addNode : m ∈ (g.addNode n).nodes ↔ m ∈ g.nodes ∨ m = n := by
  rw [addNode]
  split
  · exact ⟨.inl, fun h => h.elim id fun h => h ▸ ‹_›⟩
  · simp

@[simp] lemma hasArc_addNode : (g.addNode n).hasArc x y = g.hasArc x y := by
  rw [addNode]
  split <;> rfl

@[simp] lemma mem_addArc : m ∈ (g.addArc u v l).nodes ↔ m ∈ g.nodes ∨ m = u ∨ m = v := by
  have h : (g.addArc u v l).nodes = ((g.addNode u).addNode v).nodes := by
    rw [addArc]
    split <;> rfl
  rw [h, mem_addNode, mem_addNode, or_assoc]

@[simp] lemma hasArc_addArc : (g.addArc u v l).hasArc x y ↔ g.hasArc x y ∨ (x = u ∧ y = v) := by
  have hg : g.hasArc x y = ((g.addNode u).addNode v).hasArc x y := by simp
  rw [addArc, hg]
  split
  · rename_i h
    have hkept : ∀ a : Arc α β, (if a.src = u && a.dst = v then { a with label := l } else a).src = a.src ∧
        (if a.src = u && a.dst = v then { a with label := l } else a).dst = a.dst := by
      intro a
      split <;> exact ⟨rfl, rfl⟩
    have hsame : ({ (g.addNode u).addNode v with arcs := ((g.addNode u).addNode v).arcs.map fun a =>
        if a.src = u && a.dst = v then { a with label := l } else a } : Digraph α β).hasArc x y =
        ((g.addNode u).addNode v).hasArc x y := by
      simp only [hasArc, any_map]
      exact congrArg _ (funext fun a => by simp only [Function.comp, (hkept a).1, (hkept a).2])
    rw [hsame]
    refine ⟨.inl, fun h' => h'.elim id ?_⟩
    rintro ⟨rfl, rfl⟩
    exact h
  · simp only [hasArc, any_append, Bool.or_eq_true, any_cons, any_nil, Bool.or_false, Bool.and_eq_true,
      decide_eq_true_eq, eq_comm (a := u), eq_comm (a := v)]

@[simp] lemma mem_removeNode : m ∈ (g.removeNode n).nodes ↔ m ∈ g.nodes ∧ m ≠ n := by simp [removeNode]

@[simp] lemma hasArc_removeNode : (g.removeNode n).hasArc x y ↔ g.hasArc x y ∧ x ≠ n ∧ y ≠ n := by
  simp only [hasArc_iff, removeNode, mem_filter, Bool.and_eq_true, decide_eq_true_eq]
  constructor
  · rintro ⟨a, ⟨ha, h1, h2⟩, rfl, rfl⟩
    exact ⟨⟨a, ha, rfl, rfl⟩, h1, h2⟩
  · rintro ⟨⟨a, ha, rfl, rfl⟩, h1, h2⟩
    exact ⟨a, ⟨ha, h1, h2⟩, rfl, rfl⟩

/-- Every node stands once in the list and every arc goes from a node to a node. -/
structure Proper (g : Digraph α β) : Prop where
  nodup : g.nodes.Nodup
  ends : ∀ u v, g.hasArc u v → u ∈ g.nodes ∧ v ∈ g.nodes

lemma Proper.addNode (h : g.Proper) (n) : (g.addNode n).Proper := by
  refine ⟨?_, fun u v huv => ?_⟩
  · rw [Digraph.addNode]
    split
    · exact h.nodup
    · exact nodup_append.2 ⟨h.nodup, nodup_singleton n, by grind⟩
  · obtain ⟨hu, hv⟩ := h.ends u v (by simpa using huv)
    simp [hu, hv]

lemma Proper.addArc (h : g.Proper) (u v l) : (g.addArc u v l).Proper := by
  refine ⟨?_, fun x y hxy => ?_⟩
  · have hn := ((h.addNode u).addNode v).nodup
    rw [Digraph.addArc]
    split <;> exact hn
  · obtain hxy | ⟨rfl, rfl⟩ := hasArc_addArc.1 hxy
    · simp [h.ends x y hxy]
    · simp

lemma Proper.removeNode (h : g.Proper) (n) : (g.removeNode n).Proper := by
  refine ⟨h.nodup.filter _, fun x y hxy => ?_⟩
  obtain ⟨hxy, hx, hy⟩ := hasArc_removeNode.1 hxy
  simp [h.ends x y hxy, hx, hy]

lemma hasArc_foldl {f} {P : γ → Prop} (l : List γ) (h : ∀ g, ∀ c ∈ l, (f g c).hasArc x y ↔ g.hasArc x y ∨ P c) (g : Digraph α β) :
    (l.foldl f g).hasArc x y ↔ g.hasArc x y ∨ ∃ c ∈ l, P c := by
  induction l generalizing g with
  | nil => simp
  | cons c l ih =>
    rw [foldl_cons, ih fun g d hd => h g d (.tail _ hd), h g c (by simp)]
    simp [or_assoc]

lemma foldl_keeps {δ : Type} {f} {I : δ → Prop} (l : List γ) (h : ∀ d, ∀ c ∈ l, I d → I (f d c)) {d} (hd : I d) :
    I (l.foldl f d) :=
  foldlRecOn l f hd fun d hd c hc => h d c hc hd

end Digraph

namespace Table

variable {κ α : Type} [DecidableEq κ] {t : Table κ α} {k j : κ} {v : α} (l : List (κ × α))

lemma find?_put : (put k v l).find? (·.1 = j) = if j = k then some (k, v) else l.find? (·.1 = j) := by
  induction l with
  | nil => by_cases h : j = k <;> simp [put, h, eq_comm]
  | cons p l ih =>
    obtain ⟨i, w⟩ := p
    by_cases hi : i = k <;> by_cases hj : j = k <;> by_cases hij : i = j <;> simp_all [put]

@[simp] lemma get?_set : (t.set k v).get? j = if j = k then some v else t.get? j := by
  rw [get?, set, find?_put]
  split <;> rfl

lemma mem_put {e l} (h : e ∈ put k v l) : e = (k, v) ∨ e ∈ l := by
  induction l with
  | nil => exact .inl (mem_singleton.1 h)
  | cons p l ih => grind [put]

lemma map_fst_put : (put k v l).map (·.1) = if k ∈ l.map (·.1) then l.map (·.1) else l.map (·.1) ++ [k] := by
  induction l with
  | nil => rfl
  | cons p l ih =>
    obtain ⟨i, w⟩ := p
    by_cases hi : i = k
    · simp [put, hi]
    · simp only [put, hi, if_false, map_cons, ih, mem_cons, eq_comm (a := k), false_or]
      split <;> simp

lemma nodup_keys_set (h : t.keys.Nodup) : (t.set k v).keys.Nodup := by
  rw [keys, set, map_fst_put]
  split
  · exact h
  · exact nodup_append.2 ⟨h, nodup_singleton k, by grind [keys]⟩

lemma get?_eq_some_iff (h : t.keys.Nodup) : t.get? k = some v ↔ (k, v) ∈ t.entries := by
  constructor
  · intro hv
    obtain ⟨p, hp, rfl⟩ := Option.map_eq_some_iff.1 hv
    have hk : p.1 = k := by simpa using find?_some hp
    exact hk ▸ mem_of_find?_eq_some hp
  · intro hv
    obtain ⟨p, hp⟩ : ∃ p, t.entries.find? (·.1 = k) = some p := Option.isSome_iff_exists.1 (find?_isSome.2 ⟨_, hv, by simp⟩)
    have hk : p.1 = k := by simpa using find?_some hp
    rw [get?, hp, inj_on_of_nodup_map h (mem_of_find?_eq_some hp) hv hk]
    rfl

end Table

end SymExec
