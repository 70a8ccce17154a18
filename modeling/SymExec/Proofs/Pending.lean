import Mathlib.Data.List.Perm.Basic
import SymExec.Flow.Scan.Block
import SymExec.Proofs.Queue

/-!
# Jobs that wait for a function to come back

No job is lost or handed out twice, and those that wait for one function come out in the order in which they came.
-/

namespace SymExec

open List

namespace Table

variable {κ α : Type} [DecidableEq κ] {k : κ} (t : Table κ (List α))

def pooled : List α := t.entries.flatMap (·.2)

lemma pooled_set (v : List α) : ((t.set k v).pooled ++ (t.get? k).getD []).Perm (t.pooled ++ v) := by
  simp only [pooled, set, get?]
  induction t.entries with
  | nil => simp [put]
  | cons e l ih =>
    by_cases he : e.1 = k
    · simpa [put, he] using perm_append_comm.trans (perm_append_comm.append_left e.2)
    · simpa [put, he] using ih.append_left e.2

lemma pooled_erase (h : t.keys.Nodup) : ((t.erase k).pooled ++ (t.get? k).getD []).Perm t.pooled := by
  simp only [pooled, erase, get?, keys] at h ⊢
  generalize t.entries = l at h ⊢
  induction l with
  | nil => simp
  | cons e l ih =>
    by_cases he : e.1 = k
    · have hl : l.filter (fun f => !decide (f.1 = k)) = l := filter_eq_self.2 fun f hf => by grind
      simpa [he, hl] using perm_append_comm
    · simpa [he] using (ih (nodup_cons.1 h).2).append_left e.2

end Table

namespace PendingJobs

variable {p q : PendingJobs} {j : ScanJob} {k : Option Nat}

lemma pooled_add : (p.add j).jobs.pooled.Perm (p.jobs.pooled ++ [j]) :=
  (perm_append_right_iff _).1 ((p.jobs.pooled_set _).trans (by simpa using (perm_append_singleton j _).append_left _))

lemma popFrom_some (hk : p.jobs.keys.Nodup) (hp : p.popFrom k = some (j, q)) : ∃ rest, (k, j :: rest) ∈ p.jobs.entries ∧
    (∀ e ∈ q.jobs.entries, e ∈ p.jobs.entries ∨ e = (k, rest) ∧ rest ≠ []) ∧ q.jobs.keys.Nodup ∧
    (q.jobs.pooled ++ [j]).Perm p.jobs.pooled ∧ q.count = p.count - 1 ∧ q.returning = p.returning := by
  rw [popFrom] at hp
  split at hp
  · cases hp
  rename_i i rest hget
  obtain ⟨rfl, rfl⟩ := Prod.mk.inj (Option.some.inj hp)
  refine ⟨rest, (Table.get?_eq_some_iff hk).1 ?_, ?_, ?_, ?_, rfl, rfl⟩
  · cases h : p.jobs.get? k <;> simp_all
  all_goals cases rest
  · exact fun e he => .inl (mem_of_mem_filter he)
  · exact fun e he => (Table.mem_put he).symm.imp id fun h => ⟨h, by simp⟩
  · exact (filter_sublist.map _).nodup hk
  · exact Table.nodup_keys_set hk
  · exact hget ▸ p.jobs.pooled_erase hk
  · rename_i i' rest
    exact (perm_append_right_iff (i' :: rest)).1 (by simpa [hget] using p.jobs.pooled_set (k := k) (i' :: rest))

lemma popFrom_of_pop {returning : Bool} (hp : (if returning then p.popReturning else p.popAny) = some (j, q)) :
    ∃ k, p.popFrom k = some (j, q) ∧ (returning → ∃ f ∈ p.returning, k = some f) := by
  cases returning with
  | false =>
    obtain ⟨k, -, hk⟩ := Option.bind_eq_some_iff.1 (Option.ite_none_left_eq_some.1 hp).2
    exact ⟨k, hk, by simp⟩
  | true =>
    obtain ⟨f, hf, hk⟩ := Option.bind_eq_some_iff.1 (Option.ite_none_left_eq_some.1 hp).2
    exact ⟨some f, hk, fun _ => ⟨f, mem_of_find?_eq_some hf, rfl⟩⟩

lemma mem_insertAddr {f g} (fs : List Nat) : f ∈ Functions.insertAddr g fs ↔ f = g ∨ f ∈ fs := by
  fun_induction Functions.insertAddr g fs <;> grind

inductive Call where
  | add (j : ScanJob)
  | pop (returning : Bool)
  | mark (func : Nat)
  | clean (leaves : Nat → Bool)

/-- Pending jobs with all that came, all that left, and the functions that were marked. -/
structure Log where
  pending : PendingJobs := {}
  came : List ScanJob := []
  gone : List ScanJob := []
  marked : List Nat := []

namespace Log

variable {l : Log}

def step (l : Log) : Call → Log
  | .add j => { l with pending := l.pending.add j, came := l.came ++ [j] }
  | .pop returning =>
    match if returning then l.pending.popReturning else l.pending.popAny with
    | none => l
    | some (j, pending) => { l with pending, gone := l.gone ++ [j] }
  | .mark f => { l with pending := l.pending.addReturning f, marked := f :: l.marked }
  | .clean leaves => { l with
    pending := (l.pending.dropLeaving leaves).2
    gone := l.gone ++ (l.pending.dropLeaving leaves).1 }

/-- What every call keeps: no job is lost, and lists hold the last jobs of their source. -/
structure Kept (l : Log) : Prop where
  nodup : l.pending.jobs.keys.Nodup
  held : ∀ e ∈ l.pending.jobs.entries, e.2 ≠ [] ∧ e.2 <:+ l.came.filter (·.source = e.1)
  count : l.pending.count = l.pending.jobs.pooled.length
  perm : l.came.Perm (l.gone ++ l.pending.jobs.pooled)
  marked (f : Nat) : f ∈ l.pending.returning ↔ f ∈ l.marked

lemma Kept.source (h : l.Kept) {e : Option Nat × List ScanJob} (he : e ∈ l.pending.jobs.entries) (hj : j ∈ e.2) : j.source = e.1 := by
  simpa using (mem_filter.1 ((h.held e he).2.subset hj)).2

lemma Kept.dropped (h : l.Kept) (leaves) :
    (l.pending.dropLeaving leaves).1.Perm (l.pending.jobs.pooled.filter (·.source.any leaves)) := by
  have hsource : ∀ e ∈ l.pending.jobs.entries, ∀ j ∈ e.2, j.source = e.1 := fun e he j hj => h.source he hj
  simp only [dropLeaving, Table.pooled]
  generalize l.pending.jobs.entries = es at hsource
  induction es with
  | nil => simp
  | cons e es ih =>
    have ih := ih fun e he => hsource e (.tail _ he)
    have hany : ∀ j ∈ e.2, j.source.any leaves = e.1.any leaves := fun j hj => by rw [hsource e mem_cons_self j hj]
    by_cases hg : e.1.any leaves
    · simpa [hg, filter_eq_self.2 fun j hj => (hany j hj).trans hg] using (reverse_perm e.2).append ih
    · simpa [hg, filter_eq_nil_iff.2 fun j hj => (hany j hj).symm ▸ hg] using ih

lemma Kept.step (h : l.Kept) (c) : (l.step c).Kept := by
  cases c with
  | add j =>
    have hnodup := Table.nodup_keys_set (k := j.source) (v := (l.pending.jobs.get? j.source).getD [] ++ [j]) h.nodup
    refine ⟨hnodup, fun e he => ?_, ?_, ?_, h.marked⟩
    · have hget := (Table.get?_eq_some_iff hnodup).2 he
      rw [Table.get?_set] at hget
      split at hget
      · rename_i hk
        -- a source that is not in the table holds the empty suffix
        obtain ⟨as, has⟩ : (l.pending.jobs.get? j.source).getD [] <:+ l.came.filter (·.source = j.source) := by
          cases hold : l.pending.jobs.get? j.source with
          | none => exact nil_suffix
          | some js => exact (h.held _ ((Table.get?_eq_some_iff h.nodup).1 hold)).2
        rw [← Option.some.inj hget, hk]
        exact ⟨by simp, as, by simp [Log.step, ← has]⟩
      · rename_i hk
        simpa [Log.step, Ne.symm hk] using h.held e ((Table.get?_eq_some_iff h.nodup).1 hget)
    · rw [Log.step, pooled_add.length_eq]
      simp [add, h.count]
    · simpa [Log.step] using (h.perm.append_right [j]).trans (by simpa using pooled_add.symm.append_left l.gone)
  | mark f => exact ⟨h.nodup, h.held, h.count, h.perm, fun g => by simp [Log.step, addReturning, mem_insertAddr, h.marked]⟩
  | pop returning =>
    rw [Log.step]
    split
    · exact h
    rename_i j q hp
    obtain ⟨k, hk, -⟩ := popFrom_of_pop hp
    obtain ⟨rest, hmem, hheld, hnodup, hperm, hcount, hr⟩ := popFrom_some h.nodup hk
    refine ⟨hnodup, fun e he => ?_, ?_, ?_, hr ▸ h.marked⟩
    · obtain he | ⟨rfl, hne⟩ := hheld e he
      · exact h.held e he
      · exact ⟨hne, (suffix_cons j rest).trans (h.held _ hmem).2⟩
    · simp [hcount, h.count, ← hperm.length_eq]
    · simpa using h.perm.trans ((hperm.symm.trans perm_append_comm).append_left l.gone)
  | clean leaves =>
    have hsplit : ((l.pending.dropLeaving leaves).1 ++ (l.pending.dropLeaving leaves).2.jobs.pooled).Perm l.pending.jobs.pooled :=
      ((Perm.flatMap_left _ fun e _ => reverse_perm e.2).append_right _).trans
        (flatMap_append ▸ (filter_append_perm _ _).flatMap_right _)
    refine ⟨(filter_sublist.map _).nodup h.nodup, fun e he => h.held e (mem_of_mem_filter he), ?_, ?_, h.marked⟩
    · have := hsplit.length_eq
      simp only [length_append] at this
      simp only [Log.step, dropLeaving, h.count] at *
      omega
    · simpa [Log.step] using h.perm.trans (hsplit.symm.append_left l.gone)

lemma kept (calls : List Call) : (calls.foldl step {}).Kept :=
  foldlRecOn calls step ⟨nodup_nil, by simp, rfl, .nil, fun _ => .rfl⟩ fun _ h c _ => h.step c

end Log

end PendingJobs

end SymExec
