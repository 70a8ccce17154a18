import SymExec.Solver

/-!
# A solver that is exact

What proofs ask of a solver is that its answers are right (`Solver.Exact`), and often only a part of that (`Solver.Folds`).
-/

namespace SymExec.Solver

open List

/-- A solver that gives a term only one value if it has that value in every model. -/
def Folds (S : Solver) : Prop := ∀ e v, S.values [] e 2 = [v] → ∀ m, e.eval m = v

variable {S : Solver} {P : Nat → Prop}

theorem Exact.folds (h : S.Exact) : S.Folds := by
  intro e v hv m
  have hlt : (S.values [] e 2).length < 2 := by
    rw [hv]
    exact Nat.one_lt_two
  have hm : m.Meets [] := fun c hc => absurd hc (by simp)
  have hmem := h.mem_of_canBe [] e 2 (e.eval m) hlt ⟨m, hm, rfl⟩
  rw [hv] at hmem
  exact mem_singleton.1 hmem

open Classical in
/-- Adds to a list up to `n` numbers with a property that are not in it. -/
noncomputable def choose (P : Nat → Prop) : Nat → List Nat → List Nat
  | 0, vs => vs
  | n + 1, vs => if h : ∃ v, P v ∧ v ∉ vs then choose P n (h.choose :: vs) else vs

theorem choose_spec (n) {vs} (hn : vs.Nodup) (hP : ∀ v ∈ vs, P v) : (choose P n vs).Nodup ∧ (∀ v ∈ choose P n vs, P v) ∧
    (choose P n vs).length ≤ n + vs.length ∧ ((choose P n vs).length < n + vs.length → ∀ v, P v → v ∈ choose P n vs) := by
  induction n generalizing vs with
  | zero => exact ⟨hn, hP, Nat.le_of_eq (Nat.zero_add _).symm, by simp [choose]⟩
  | succ n ih =>
    rw [choose]
    split
    · rename_i h
      obtain ⟨hv, hnew⟩ := h.choose_spec
      obtain ⟨h1, h2, h3, h4⟩ := ih (nodup_cons.2 ⟨hnew, hn⟩) fun v hmem => (mem_cons.1 hmem).elim (fun e => e ▸ hv) (hP v)
      rw [length_cons] at h3 h4
      exact ⟨h1, h2, by omega, fun hlt => h4 (by omega)⟩
    · rename_i h
      exact ⟨hn, hP, Nat.le_add_left _ _, fun _ v hv => Classical.byContradiction fun hmem => h ⟨v, hv, hmem⟩⟩

open Classical in
noncomputable def ideal : Solver where
  model? cs := if h : ∃ m : Model, m.Meets cs then some h.choose else none
  values cs e n := choose (CanBe cs e) n []
  least cs e := if h : ∃ v, CanBe cs e v ∧ ∀ u, CanBe cs e u → v ≤ u then some h.choose else none
  greatest cs e := if h : ∃ v, CanBe cs e v ∧ ∀ u, CanBe cs e u → u ≤ v then some h.choose else none

theorem dite_choose_eq_some [Decidable (∃ v, P v)] (unique : ∀ u v, P u → P v → u = v) (v) :
    (if h : ∃ v, P v then some h.choose else none) = some v ↔ P v := by
  constructor
  · intro h
    split at h
    · rename_i hex
      exact Option.some.inj h ▸ hex.choose_spec
    · cases h
  · intro hv
    rw [dif_pos ⟨v, hv⟩, unique _ v (Exists.choose_spec ⟨v, hv⟩) hv]

open Classical in
theorem ideal_exact : ideal.Exact where
  model_meets cs m h := by
    simp only [ideal] at h
    split at h
    · rename_i hex
      exact Option.some.inj h ▸ hex.choose_spec
    · cases h
  satisfiable_iff cs := by
    simp only [satisfiable, ideal]
    split <;> simp_all
  values_nodup cs e n := (choose_spec n nodup_nil (by simp)).1
  values_length cs e n := (choose_spec n nodup_nil (by simp)).2.2.1
  canBe_of_mem cs e n := (choose_spec n nodup_nil (by simp)).2.1
  mem_of_canBe cs e n v hlt := (choose_spec n nodup_nil (by simp)).2.2.2 hlt v
  least_eq cs e v := dite_choose_eq_some (fun _ _ hu hv => Nat.le_antisymm (hu.2 _ hv.1) (hv.2 _ hu.1)) v
  greatest_eq cs e v := dite_choose_eq_some (fun _ _ hu hv => Nat.le_antisymm (hv.2 _ hu.1) (hu.2 _ hv.1)) v

/-- A solver that tries some models before it asks another one. -/
def guessing (ms : List Model) (S : Solver) : Solver :=
  { S with model? := fun cs => (ms.find? fun m => decide (m.Meets cs)).or (S.model? cs) }

theorem Exact.meets_of_guessing (h : S.Exact) {ms cs m} (hm : (S.guessing ms).model? cs = some m) : m.Meets cs := by
  obtain hfound | ⟨-, hasked⟩ := Option.or_eq_some_iff.1 hm
  · have := find?_some hfound
    exact of_decide_eq_true this
  · exact h.model_meets cs m hasked

theorem Exact.guessing (h : S.Exact) (ms) : (S.guessing ms).Exact :=
  { h with
    model_meets := fun _ _ hm => h.meets_of_guessing hm
    satisfiable_iff := fun cs => by
      refine ⟨fun hsat => ?_, fun hex => ?_⟩
      · obtain ⟨m, hm⟩ := Option.isSome_iff_exists.1 hsat
        exact ⟨m, h.meets_of_guessing hm⟩
      · have hsat : (S.model? cs).isSome = true := (h.satisfiable_iff cs).2 hex
        change ((ms.find? _).or (S.model? cs)).isSome = true
        rw [Option.isSome_or, hsat, Bool.or_true] }

end SymExec.Solver
