import SymExec.Flow.Queue
import SymExec.Proofs.Digraph

/-!
# No job is lost or done twice

Jobs come into a queue and are taken from it. One that comes in waits for itself or is made one with a job of its key that waits.
-/

namespace SymExec

open List Option

namespace Table

variable {κ α : Type} [DecidableEq κ] {t : Table κ α} {k j : κ}

@[simp] lemma get?_erase : (t.erase k).get? j = if j = k then none else t.get? j := by
  rw [get?, erase, find?_filter]
  split
  · subst j
    simp
  · exact congrArg _ (congrArg (find? · t.entries) (funext fun e => by grind))

end Table

namespace JobQueue

variable {κ α : Type}

/-! ### What jobs are made of -/

/-- A job that came in, at its place, or one made of such a job and of one that came in later. -/
inductive Made (p : Queueing κ α) (came : List α) : α → List Nat → Prop where
  | itself {i : Nat} {j : α} (h : came[i]? = some j) : Made p came j [i]
  | joint {i : Nat} {j m old : α} {parts : List Nat} (h : Made p came old parts) (hj : came[i]? = some j) (hm : p.joint? old j = some m) :
    Made p came m (i :: parts)

/-- Jobs that are made of all that came in, each once. -/
def Accounted (p : Queueing κ α) (came jobs : List α) : Prop :=
  ∃ made : List (α × List Nat), (made.map (·.1)).Perm jobs ∧ (∀ x ∈ made, Made p came x.1 x.2) ∧
    (made.flatMap (·.2)).Perm (.range came.length)

variable {p : Queueing κ α} {came jobs rest : List α} {parts : List Nat} {a j m old : α}

lemma Made.later (h : Made p came a parts) : Made p (came ++ [j]) a parts := by
  have hget : ∀ {i} {b}, came[i]? = some b → (came ++ [j])[i]? = some b := fun {i} {b} h => by
    rw [getElem?_append_left (List.getElem?_eq_some_iff.1 h).1, h]
  induction h with
  | itself hi => exact .itself (hget hi)
  | joint _ hi hm ih => exact .joint ih (hget hi) hm

lemma Accounted.perm {jobs'} (h : Accounted p came jobs) (hp : jobs.Perm jobs') : Accounted p came jobs' := by
  obtain ⟨made, hjobs, hmade⟩ := h
  exact ⟨made, hjobs.trans hp, hmade⟩

lemma Accounted.new (h : Accounted p came jobs) : Accounted p (came ++ [j]) (j :: jobs) := by
  obtain ⟨made, hjobs, hmade, hall⟩ := h
  refine ⟨(j, [came.length]) :: made, hjobs.cons j, forall_mem_cons.2 ⟨.itself (by simp), fun x hx => (hmade x hx).later⟩, ?_⟩
  rw [length_append, length_singleton, range_succ]
  exact (hall.cons _).trans (perm_append_singleton _ _).symm

lemma Accounted.joint (h : Accounted p came (old :: rest)) (hm : p.joint? old j = some m) : Accounted p (came ++ [j]) (m :: rest) := by
  obtain ⟨made, hjobs, hmade, hall⟩ := h
  obtain ⟨x, hx, rfl⟩ := mem_map.1 (hjobs.mem_iff.2 (.head _))
  obtain ⟨s, t, rfl⟩ := append_of_mem hx
  have hsplit : (s ++ x :: t).Perm (x :: (s ++ t)) := perm_middle
  have hmade := forall_mem_cons.1 fun y hy => hmade y (hsplit.mem_iff.2 hy)
  refine ⟨(m, came.length :: x.2) :: (s ++ t), ?_, ?_, ?_⟩
  · exact (((hsplit.map _).symm.trans hjobs).cons_inv).cons m
  · exact forall_mem_cons.2 ⟨.joint hmade.1.later (by simp) hm, fun x hx => (hmade.2 x hx).later⟩
  · rw [length_append, length_singleton, range_succ]
    exact (((hsplit.flatMap_right _).symm.trans hall).cons _).trans (perm_append_singleton _ _).symm

variable [DecidableEq κ]

/-- At most one job with a key waits. -/
def Lone (q : JobQueue κ α) (p : Queueing κ α) (k : κ) : Prop := q.jobs.Pairwise fun a b => ¬ (p.key a = k ∧ p.key b = k)

/-- Entries that wait are there under the keys of their jobs, once each, and the latest of a key is one of them. -/
structure Sound (p : Queueing κ α) (q : JobQueue κ α) : Prop where
  entry : ∀ i ∈ q.waiting, i < q.fresh ∧ ∃ j, q.entries.get? i = some (p.key j, j)
  nodup : q.waiting.Nodup
  latest : ∀ k i, q.latest.get? k = some i → i ∈ q.waiting ∧ ∃ j, q.entries.get? i = some (k, j)

/-! ### One step -/

variable {q q' : JobQueue κ α} {id : Nat} {k : κ}

omit [DecidableEq κ] in
lemma place_spec : (q.place p id).waiting.Perm (id :: q.waiting) ∧ (q.place p id).entries = q.entries ∧
    (q.place p id).latest = q.latest ∧ (q.place p id).fresh = q.fresh := by
  unfold place
  split
  · exact ⟨perm_append_singleton _ _, rfl, rfl, rfl⟩
  · refine ⟨perm_middle.trans ?_, rfl, rfl, rfl⟩
    rw [take_append_drop]

/-- An entry with a new job put beside some that waited. -/
lemma placed (latest fresh) {rest} (hnodup : rest.Nodup) (hid : id ∉ rest) (hlt : id < fresh)
    (hrest : ∀ i ∈ rest, i < fresh ∧ ∃ j, q.entries.get? i = some (p.key j, j))
    (hlatest : ∀ k i, latest.get? k = some i → i = id ∧ k = p.key m ∨ i ∈ rest ∧ ∃ j, q.entries.get? i = some (k, j)) :
    let q' := ({ waiting := rest, entries := q.entries.set id (p.key m, m), latest, fresh } : JobQueue κ α).place p id
    q'.Sound p ∧ q'.latest = latest ∧ q'.jobs.Perm (m :: rest.filterMap fun i => (q.entries.get? i).map (·.2)) := by
  intro q'
  obtain ⟨hw, he, hl, hf⟩ : q'.waiting.Perm (id :: rest) ∧ q'.entries = q.entries.set id (p.key m, m) ∧ q'.latest = latest ∧
    q'.fresh = fresh := place_spec
  have hget : ∀ i, q'.entries.get? i = if i = id then some (p.key m, m) else q.entries.get? i := fun i => by rw [he, Table.get?_set]
  have hne : ∀ i ∈ rest, i ≠ id := fun i hi hii => hid (hii ▸ hi)
  refine ⟨⟨fun i hi => ?_, hw.nodup_iff.2 (nodup_cons.2 ⟨hid, hnodup⟩), fun k i hk => ?_⟩, hl, ?_⟩
  · rw [hf, hget]
    obtain rfl | hi := mem_cons.1 (hw.mem_iff.1 hi)
    · exact ⟨hlt, m, if_pos rfl⟩
    · rw [if_neg (hne i hi)]
      exact hrest i hi
  · rw [hget, hw.mem_iff]
    obtain ⟨rfl, rfl⟩ | ⟨hi, hj⟩ := hlatest k i (hl ▸ hk)
    · exact ⟨mem_cons_self, m, if_pos rfl⟩
    · rw [if_neg (hne i hi)]
      exact ⟨.tail _ hi, hj⟩
  · refine (hw.filterMap _).trans ?_
    rw [filterMap_cons, hget, if_pos rfl]
    refine Perm.cons m (Perm.of_eq (filterMap_congr fun i hi => ?_))
    rw [hget, if_neg (hne i hi)]

/-- Where one job with a key waits, its entry is the one that is found by the key. -/
lemma Sound.erase_lone (hq : q.Sound p) (hid : id ∈ q.waiting) (hj : q.entries.get? id = some (k, j)) (hlone : q.Lone p k) :
    q.waiting.Perm (id :: q.waiting.eraseP fun i => (q.entries.get? i).any (·.1 = k)) := by
  have hpred : (q.entries.get? id).any (·.1 = k) = true := by simp [hj]
  have hkey : ∀ i ∈ q.waiting, (q.entries.get? i).any (·.1 = k) = true →
      ∃ b, (q.entries.get? i).map (·.2) = some b ∧ p.key b = k := fun i hi hk => by
    obtain ⟨-, b, hb⟩ := hq.entry i hi
    exact ⟨b, by rw [hb]; rfl, by simpa [hb] using hk⟩
  obtain ⟨a, l, l', hl, ha, hw, he⟩ := exists_of_eraseP (p := fun i => (q.entries.get? i).any (·.1 = k)) hid hpred
  have hpair := pairwise_filterMap.1 hlone
  rw [hw, pairwise_append, pairwise_cons] at hpair
  have haid : a = id := by
    obtain hin | hin := mem_append.1 (hw ▸ hid)
    · exact absurd hpred (hl id hin)
    · obtain rfl | hin := mem_cons.1 hin
      · rfl
      · obtain ⟨b, hb, hbk⟩ := hkey a (hw ▸ by simp) ha
        obtain ⟨b', hb', hbk'⟩ := hkey id hid hpred
        exact absurd ⟨hbk, hbk'⟩ (hpair.2.1.1 id hin b hb b' hb')
  rw [he, ← haid, hw]
  exact perm_middle

lemma fold?_eq_some (h : q.fold? p j = some (id, m)) : q.latest.get? (p.key j) = some id ∧
    ∃ k old, q.entries.get? id = some (k, old) ∧ p.joint? old j = some m := by
  unfold fold? at h
  split at h
  · simp only [bind, bind_eq_some_iff, pure, some.injEq, Prod.mk.injEq] at h
    obtain ⟨i, hi, ⟨k, old⟩, hold, joint, hjoint, rfl, rfl⟩ := h
    exact ⟨hi, k, old, hold, hjoint⟩
  · simp at h

/-- What an insertion does to the jobs that wait: one more, or the new one made one with one of them. -/
lemma insert_spec (hkey : ∀ a b m, p.key a = p.key b → p.joint? a b = some m → p.key m = p.key b) (hq : q.Sound p)
    (hlone : (q.fold? p j).isSome → q.Lone p (p.key j)) : (q.insert p j).Sound p ∧
    (∀ k, (q.insert p j).has k ↔ k = p.key j ∨ q.has k) ∧ ∃ m, p.key m = p.key j ∧ ∃ rest, (q.insert p j).jobs.Perm (m :: rest) ∧
    (m = j ∧ q.jobs = rest ∨ ∃ old, p.key old = p.key j ∧ p.joint? old j = some m ∧ q.jobs.Perm (old :: rest)) := by
  unfold insert
  split
  · have hfresh : q.fresh ∉ q.waiting := fun h => Nat.lt_irrefl _ (hq.entry _ h).1
    obtain ⟨hsound, hlatest, hjobs⟩ := placed (q.latest.set (p.key j) q.fresh) _ hq.nodup hfresh
      (Nat.lt_succ_self _) (fun i hi => ⟨Nat.lt_succ_of_lt (hq.entry i hi).1, (hq.entry i hi).2⟩) fun k i hk => by
        rw [Table.get?_set] at hk
        split at hk
        · exact .inl ⟨(some.inj hk).symm, ‹_›⟩
        · exact .inr (hq.latest k i hk)
    refine ⟨hsound, fun k => ?_, j, rfl, q.jobs, hjobs, .inl ⟨rfl, rfl⟩⟩
    rw [has, addNew, hlatest, Table.get?_set]
    split <;> simp_all [has]
  · rename_i id m hfold
    obtain ⟨hid, k, old, hold, hm⟩ := fold?_eq_some hfold
    obtain ⟨hin, a, ha⟩ := hq.latest _ _ hid
    obtain ⟨hlt, b, hb⟩ := hq.entry _ hin
    obtain ⟨-, rfl⟩ := Prod.mk.inj (some.inj (ha.symm.trans hold))
    obtain ⟨hkb, rfl⟩ := Prod.mk.inj (some.inj (hb.symm.trans ha))
    have hkm := hkey _ _ _ hkb hm
    have hperm := hq.erase_lone hin ha (hlone (by rw [hfold]; rfl))
    have hnodup := nodup_cons.1 (hperm.nodup_iff.1 hq.nodup)
    obtain ⟨hsound, hlatest, hjobs⟩ := placed (q := q) (p := p) (m := m) q.latest q.fresh hnodup.2 hnodup.1 hlt
      (fun i hi => hq.entry i (hperm.mem_iff.2 (.tail _ hi))) fun k i hk => by
        obtain ⟨hi, c, hc⟩ := hq.latest k i hk
        obtain rfl | hi := mem_cons.1 (hperm.mem_iff.1 hi)
        · exact .inl ⟨rfl, by simp_all⟩
        · exact .inr ⟨hi, c, hc⟩
    rw [hkm] at hsound hlatest hjobs
    refine ⟨hsound, fun k => ?_, m, hkm, _, hjobs, .inr ⟨b, hkb, hm, ?_⟩⟩
    · rw [has, hlatest, ← has]
      refine ⟨.inr, fun h => h.elim (fun h => ?_) fun h => h⟩
      rw [h, has, hid]
      rfl
    · refine (hperm.filterMap _).trans (Perm.of_eq ?_)
      rw [filterMap_cons, ha]
      rfl

lemma take?_eq_none (hq : q.Sound p) (h : q.take? p = none) : q.jobs = [] := by
  unfold take? at h
  split at h
  · rename_i hw
    rw [jobs, hw, filterMap_nil]
  · rename_i id rest hw
    obtain ⟨-, j, hj⟩ := hq.entry id (hw ▸ (.head _))
    rw [hj] at h
    cases h

/-- What taking does: the first of the jobs that wait goes, and with it what is known of its key. -/
lemma take?_spec (hq : q.Sound p) (h : q.take? p = some (j, q')) :
    q'.Sound p ∧ q.jobs = j :: q'.jobs ∧ ∀ k, q'.has k ↔ k ≠ p.key j ∧ q.has k := by
  unfold take? at h
  split at h
  · cases h
  · rename_i id rest hw
    obtain ⟨-, b, hb⟩ := hq.entry id (hw ▸ (.head _))
    rw [hb] at h
    obtain ⟨rfl, rfl⟩ := Prod.mk.inj (some.inj h)
    have hnodup := nodup_cons.1 (hw ▸ hq.nodup)
    -- the entry is kept for a later place of its id, and there is none
    have hget : ∀ i ∈ rest, (if id ∈ rest || id ∈ (q.latest.erase (p.key b)).values then q.entries else q.entries.erase id).get? i =
        q.entries.get? i := fun i hi => by
      split
      · rfl
      · rw [Table.get?_erase, if_neg fun (h : i = id) => hnodup.1 (h ▸ hi)]
    refine ⟨⟨fun i hi => ?_, hnodup.2, fun k i hk => ?_⟩, ?_, fun k => ?_⟩
    · rw [hget i hi]
      exact hq.entry i (hw ▸ .tail _ hi)
    · rw [Table.get?_erase] at hk
      split at hk
      · cases hk
      · obtain ⟨hi, c, hc⟩ := hq.latest k i hk
        obtain rfl | hi := mem_cons.1 (hw ▸ hi)
        · rw [hb] at hc
          exact absurd (Prod.mk.inj (some.inj hc)).1.symm ‹_›
        · exact ⟨hi, c, hget i hi ▸ hc⟩
    · rw [jobs, hw, filterMap_cons, hb]
      exact congrArg (b :: ·) (filterMap_congr fun i hi => by rw [hget i hi])
    · rw [has, Table.get?_erase]
      split <;> simp_all [has]

/-! ### Runs -/

/-- What came into a queue and what was taken from it, in order. Jobs are made one only where no other with their key waits. In a
strict run no job is taken while another with its key waits. -/
inductive Runs (p : Queueing κ α) (strict : Prop) : List α → List α → JobQueue κ α → Prop where
  | empty : Runs p strict [] [] {}
  | insert {q : JobQueue κ α} {j : α} {came taken : List α} (h : Runs p strict came taken q)
      (hlone : (q.fold? p j).isSome → q.Lone p (p.key j)) :
    Runs p strict (came ++ [j]) taken (q.insert p j)
  | take {q q' : JobQueue κ α} {j : α} {came taken : List α} (h : Runs p strict came taken q) (hlone : strict → q.Lone p (p.key j))
    (hj : q.take? p = some (j, q')) : Runs p strict came (taken ++ [j]) q'

lemma Sound.has_job (hq : q.Sound p) (h : q.has k) : ∃ j ∈ q.jobs, p.key j = k := by
  obtain ⟨id, hid⟩ := isSome_iff_exists.1 h
  obtain ⟨hin, j, hj⟩ := hq.latest k id hid
  obtain ⟨-, b, hb⟩ := hq.entry id hin
  obtain ⟨hk, rfl⟩ := Prod.mk.inj (some.inj (hb.symm.trans hj))
  exact ⟨b, mem_filterMap.2 ⟨id, hin, by rw [hb]; rfl⟩, hk⟩

section

variable {strict : Prop} {taken : List α} (hkey : ∀ a b m, p.key a = p.key b → p.joint? a b = some m → p.key m = p.key b)

include hkey

section
variable (h : Runs p strict came taken q)
include h

lemma Runs.sound : q.Sound p := by
  induction h with
  | empty => exact ⟨nofun, .nil, nofun⟩
  | insert _ hlone ih => exact (insert_spec hkey ih hlone).1
  | take _ _ hj ih => exact (take?_spec ih hj).1

lemma Runs.accounted : Accounted p came (taken ++ q.jobs) := by
  induction h with
  | empty => exact ⟨[], .nil, nofun, .nil⟩
  | insert h hlone ih =>
    obtain ⟨-, -, m, -, rest, hjobs, ⟨rfl, rfl⟩ | ⟨old, -, hm, hold⟩⟩ := insert_spec hkey (h.sound hkey) hlone
    · exact ih.new.perm (perm_middle.symm.trans (hjobs.symm.append_left _))
    · exact ((ih.perm ((hold.append_left _).trans perm_middle)).joint hm).perm (perm_middle.symm.trans (hjobs.symm.append_left _))
  | take h _ hj ih => rwa [(take?_spec (h.sound hkey) hj).2.1, append_cons] at ih

lemma Runs.known (hs : strict) : ∀ b ∈ q.jobs, q.has (p.key b) := by
  induction h with
  | empty => exact nofun
  | insert h hlone ih =>
    obtain ⟨-, hhas, m, hm, rest, hjobs, hrest⟩ := insert_spec hkey (h.sound hkey) hlone
    intro b hb
    rw [hhas]
    obtain rfl | hb := mem_cons.1 (hjobs.mem_iff.1 hb)
    · exact .inl hm
    · refine .inr (ih b ?_)
      obtain ⟨-, rfl⟩ | ⟨_, -, -, hold⟩ := hrest
      · exact hb
      · exact hold.mem_iff.2 (.tail _ hb)
  | take h hlone hj ih =>
    obtain ⟨-, hjobs, hhas⟩ := take?_spec (h.sound hkey) hj
    intro b hb
    have hpair := hlone hs
    rw [Lone, hjobs, pairwise_cons] at hpair
    exact (hhas _).2 ⟨fun hk => hpair.1 b hb ⟨rfl, hk⟩, ih b (hjobs ▸ .tail _ hb)⟩

end

end

/-- A queue neither loses nor repeats a job: what was taken and what waits is made of all that came in, each once, and nothing
waits where nothing is to be taken. A key is known only if a job with it waits, and in a strict run exactly if one does. -/
theorem runs_conserve {strict : Prop} {came taken : List α}
    (hkey : ∀ a b m, p.key a = p.key b → p.joint? a b = some m → p.key m = p.key b) (h : Runs p strict came taken q) :
    Accounted p came (taken ++ q.jobs) ∧ (q.take? p = none → q.jobs = []) ∧
      (∀ k, q.has k → ∃ j ∈ q.jobs, p.key j = k) ∧ (strict → ∀ k, q.has k ↔ ∃ j ∈ q.jobs, p.key j = k) := by
  have hq := h.sound hkey
  refine ⟨h.accounted hkey, take?_eq_none hq, fun k => hq.has_job, fun hs k => ⟨hq.has_job, ?_⟩⟩
  rintro ⟨j, hj, rfl⟩
  exact h.known hkey hs j hj

def tally : Queueing Nat (Nat × Nat) where
  key := (·.1)
  merges := true
  merge? a b := some (a.1, a.2 + b.2)

theorem runs_conserve_tally : ∃ q, Runs tally True [(0, 1), (1, 5), (0, 2)] [(1, 5)] q ∧ q.jobs = [(0, 3)] ∧
    Accounted tally [(0, 1), (1, 5), (0, 2)] ([(1, 5)] ++ q.jobs) ∧ ∀ k, q.has k ↔ ∃ j ∈ q.jobs, j.1 = k := by
  have hone : Runs tally True [(0, 1)] [] _ := .insert (j := (0, 1)) .empty nofun
  have htwo : Runs tally True [(0, 1), (1, 5)] [] _ := .insert (j := (1, 5)) hone nofun
  have hthree : Runs tally True [(0, 1), (1, 5), (0, 2)] [] _ := .insert (j := (0, 2)) htwo fun _ => by
    unfold Lone
    decide
  have htake : Runs tally True [(0, 1), (1, 5), (0, 2)] [(1, 5)] _ := .take (j := (1, 5)) hthree (fun _ => by unfold Lone; decide) rfl
  obtain ⟨haccounted, -, -, hhas⟩ := runs_conserve (fun a b m hk hm => by obtain rfl := Option.some.inj hm; exact hk) htake
  exact ⟨_, htake, rfl, haccounted, hhas trivial⟩

/-- Lists with one key, appended where they meet, which fails for one of them. -/
def stubborn : Queueing Unit (List Nat) where
  key _ := ()
  merges := true
  merge? a b := if a = [1] then none else some (a ++ b)

/-- A job is made one with the second of two that wait, and takes the place of the first: what waits twice is taken twice, and the
first is lost. The key is forgotten with the one that is taken first. -/
theorem runs_conserve_stubborn :
    let q : JobQueue Unit (List Nat) := (({} : JobQueue Unit (List Nat)).insert stubborn [1] |>.insert stubborn [2]).insert stubborn [3]
    ∃ q₁ q₂, q.take? stubborn = some ([2, 3], q₁) ∧ q₁.jobs = [[2, 3]] ∧ q₁.has () = false ∧
      q₁.take? stubborn = some ([2, 3], q₂) ∧ q₂.jobs = [] :=
  ⟨_, _, rfl, rfl, rfl, rfl, rfl⟩

end JobQueue

end SymExec
