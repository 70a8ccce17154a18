import Mathlib.Data.List.Perm.Subperm
import SymExec.Proofs.Frame
import SymExec.State.Fork

/-!
# The values of a range
-/

namespace SymExec

open List

open Solver (CanBe)

lemma length_le_of_interval {vs : List Nat} {lo hi} (hn : vs.Nodup) (hin : ∀ u ∈ vs, lo ≤ u ∧ u ≤ hi) :
    vs.length ≤ hi + 1 - lo := by
  have hsub : vs ⊆ .range' lo (hi + 1 - lo) := fun u hu => by
    have := hin u hu
    rw [mem_range'_1]
    omega
  simpa using (subperm_of_subset hn hsub).length_le

namespace Solver.Exact

variable {S : Solver} (hS : S.Exact) {cs : List Cond} {b : Bits} {n v : Nat}
include hS

lemma mem_or_length (hv : CanBe cs b v) : v ∈ S.values cs b n ∨ (S.values cs b n).length = n := by
  by_cases hlen : (S.values cs b n).length < n
  · exact .inl (hS.mem_of_canBe cs b n v hlen hv)
  · exact .inr (Nat.le_antisymm (hS.values_length cs b n) (Nat.not_lt.1 hlen))

lemma values_ne_nil (hn : 0 < n) (hv : CanBe cs b v) : S.values cs b n ≠ [] := fun hnil => by
  obtain hmem | hlen := hS.mem_or_length (n := n) hv
  · simp [hnil] at hmem
  · simp [hnil] at hlen
    omega

end Solver.Exact

namespace Exec

variable {w : World} {b : Bits}

lemma extreme_asks (isGreatest) (hb : b.lit? = none) {v}
    (hv : (if isGreatest then w.solver.greatest w.state.constraints b else w.solver.least w.state.constraints b) = some v) :
    ∃ ps ls es, extreme isGreatest b [] w = .ok v (w.asking ps ls es) := by
  have hcx : w.state.context b.symbols [] = w.state.constraints := rfl
  unfold extreme
  split
  · cases hb
  · rw [bind_get]
    simp only [isEmpty_nil, Bool.true_or, if_true, hcx, hv]
    exact ⟨_, _, _, bind_of_ok (learn_run _ (w.asking _ w.state.learned w.state.extremes)).choose_spec⟩

/-- Values are asked for if the ends of the interval are close enough together. -/
lemma within_limit_run (hS : w.solver.Exact) (hb : b.lit? = none) {lo hi : Nat}
    (hlo : CanBe w.state.constraints b lo ∧ ∀ v, CanBe w.state.constraints b v → lo ≤ v)
    (hhi : CanBe w.state.constraints b hi ∧ ∀ v, CanBe w.state.constraints b v → v ≤ hi) {limit} (extra)
    (s) (hne : w.solver.values (w.state.context b.symbols extra) b limit ≠ []) :
    ∃ o w', (do
        let lo ← least b
        if (← greatest b) - lo ≤ limit then return (some (← values b limit extra), s)
        return (none, s) : Exec (Option (List Nat) × Strategy)) w = .ok (o, s) w' ∧ (o = none ↔ limit < hi - lo) ∧
      ∀ vs, o = some vs → hi - lo ≤ limit ∧ vs.Perm (w.solver.values (w.state.context b.symbols extra) b limit) := by
  obtain ⟨ps, ls, es, h1⟩ := extreme_asks false hb ((hS.least_eq _ b lo).2 hlo)
  obtain ⟨ps', ls', es', h2⟩ := extreme_asks (w := w.asking ps ls es) true hb ((hS.greatest_eq _ b hi).2 hhi)
  rw [least, greatest, bind_of_ok h1, bind_of_ok h2]
  by_cases hfit : hi - lo ≤ limit
  · obtain ⟨ps'', ls'', h3⟩ := values_asks (w := (w.asking ps ls es).asking ps' ls' es') extra hb hne
    rw [if_pos hfit]
    refine ⟨_, _, bind_of_ok h3, by simp [hfit], fun vs hvs => ⟨hfit, ?_⟩⟩
    exact Option.some.inj hvs ▸ mergeSort_perm _ _
  · rw [if_neg hfit]
    exact ⟨none, _, rfl, ⟨fun _ => Nat.lt_of_not_le hfit, fun _ => rfl⟩, fun _ h => nomatch h⟩

end Exec

lemma mem_of_mem_connected (fuel) {names cs c} (h : c ∈ connected fuel names cs) : c ∈ cs.map (·.1) := by
  induction fuel generalizing names cs with
  | zero => exact h
  | succ fuel ih =>
    rw [connected, partition_eq_filter_filter] at h
    dsimp only at h
    split at h
    · exact absurd h not_mem_nil
    · obtain hnear | hfar := mem_append.1 h
      · exact map_subset _ (filter_sublist.subset) hnear
      · exact map_subset _ (filter_sublist.subset) (ih hfar)

lemma State.meets_context {s : State} {about extra} {μ : Model} (hextra : μ.Meets extra)
    (hstate : μ.Meets s.constraints) : μ.Meets (s.context about extra) := by
  unfold context
  split
  · exact hstate
  · split
    · rename_i hfalse
      obtain ⟨c, hc, hlit⟩ := any_eq_true.1 hfalse
      exact absurd (hstate c hc) (by cases c <;> simp_all [Cond.isFalse, Cond.eval])
    · refine forall_mem_append.2 ⟨hextra, fun c hc => hstate c ?_⟩
      obtain ⟨⟨d, _⟩, hd, rfl⟩ := mem_map.1 (mem_of_mem_connected _ hc)
      obtain ⟨e, he, heq⟩ := mem_map.1 hd
      exact (Prod.mk.inj heq).1 ▸ he

namespace World

open Exec

/-- **The values of a range.** An address whose ends are no further apart than the limit is turned into numbers it can be. They
are all of them, unless the ends are as far apart as the limit and the address can be every number between them. Where zero is
left out, all other numbers are there, unless those that are there are as many as the limit. -/
theorem range_values_complete {w : World} (hS : w.solver.Exact) {b : Bits} (hb : b.Formed) (hlit : b.lit? = none)
    {lo hi limit : Nat} (hlo : CanBe w.state.constraints b lo ∧ ∀ v, CanBe w.state.constraints b v → lo ≤ v)
    (hhi : CanBe w.state.constraints b hi ∧ ∀ v, CanBe w.state.constraints b v → v ≤ hi) (hlimit : 0 < limit)
    (r : Region) {marked : Bool} (hmark : marked = true → b.mentionsAny w.multiwrite = true) (exact : Bool) :
    (∃ o w', Strategy.choose r (.range limit marked exact) b w = .ok (o, .range limit marked exact) w' ∧
      (o = none ↔ limit < hi - lo) ∧ ∀ vs, o = some vs → (∀ v ∈ vs, CanBe w.state.constraints b v) ∧
        ((∀ v, CanBe w.state.constraints b v → v ∈ vs) ∨
          hi = lo + limit ∧ vs.length = limit ∧ ∀ v, lo ≤ v → v ≤ hi → CanBe w.state.constraints b v)) ∧
    (0 < hi → ∃ o w', Strategy.choose r (.nonzeroRange limit exact) b w = .ok (o, .nonzeroRange limit exact) w' ∧
      (o = none ↔ limit < hi - lo) ∧
        ∀ vs, o = some vs → (∀ v, v ≠ 0 → CanBe w.state.constraints b v → v ∈ vs) ∨ vs.length = limit) := by
  refine ⟨?_, fun hpos => ?_⟩
  · obtain ⟨o, w', hrun, hnone, hsome⟩ := within_limit_run hS hlit hlo hhi [] (.range limit marked exact)
      (hS.values_ne_nil hlimit hlo.1)
    have hopen : ¬ (marked && !b.mentionsAny w.multiwrite) = true := by
      cases marked <;> simp_all
    refine ⟨o, w', (congrArg (fun x : Exec _ => x w) (if_neg hopen)).trans hrun, hnone, fun vs hvs => ?_⟩
    obtain ⟨hfit, hperm⟩ := hsome vs hvs
    have hcan : ∀ v ∈ vs, CanBe w.state.constraints b v := fun v hv =>
      hS.canBe_of_mem w.state.constraints b limit v (hperm.mem_iff.1 hv)
    refine ⟨hcan, Classical.or_iff_not_imp_left.2 fun hmiss => ?_⟩
    obtain ⟨v, hv, hnot⟩ := by simpa using hmiss
    have hlen : vs.length = limit := hperm.length_eq.trans
      ((hS.mem_or_length (n := limit) hv).resolve_left fun hmem => hnot (hperm.mem_iff.2 hmem))
    -- with the one that is left out they are as many as the interval has
    have hmore : ∀ x ∈ v :: vs, CanBe w.state.constraints b x := List.forall_mem_cons.2 ⟨hv, hcan⟩
    have hdistinct : (v :: vs).Nodup :=
      List.nodup_cons.2 ⟨hnot, hperm.nodup_iff.2 (hS.values_nodup w.state.constraints b limit)⟩
    have hin : ∀ x ∈ v :: vs, lo ≤ x ∧ x ≤ hi := fun x hx => ⟨hlo.2 x (hmore x hx), hhi.2 x (hmore x hx)⟩
    have hle := length_le_of_interval hdistinct hin
    rw [List.length_cons, hlen] at hle
    refine ⟨by omega, hlen, fun u h1 h2 => Classical.byContradiction fun hu => ?_⟩
    have hlt := length_le_of_interval (List.nodup_cons.2 ⟨fun h => hu (hmore u h), hdistinct⟩)
      (List.forall_mem_cons.2 ⟨⟨h1, h2⟩, hin⟩)
    rw [List.length_cons, List.length_cons, hlen] at hlt
    omega
  · have hcan : ∀ v, v ≠ 0 → CanBe w.state.constraints b v → CanBe (w.state.context b.symbols [Cond.nonzero b]) b v := by
      rintro _ hv ⟨μ, hμ, rfl⟩
      exact ⟨μ, State.meets_context (List.forall_mem_singleton.2 ((Cond.eval_nonzero hb μ).2 hv)) hμ, rfl⟩
    obtain ⟨o, w', hrun, hnone, hsome⟩ := within_limit_run hS hlit hlo hhi [Cond.nonzero b] (.nonzeroRange limit exact)
      (hS.values_ne_nil hlimit (hcan hi (by omega) hhi.1))
    refine ⟨o, w', hrun, hnone, fun vs hvs => Classical.or_iff_not_imp_right.2 fun hlen v hv0 hv => ?_⟩
    obtain ⟨-, hperm⟩ := hsome vs hvs
    rw [hperm.length_eq] at hlen
    exact hperm.mem_iff.2 ((hS.mem_or_length (hcan v hv0 hv)).resolve_right hlen)

/-- A symbol of two bits can be any of four numbers, and with the limit four it is turned into all of them. -/
theorem range_values_complete_two_bits :
    let w : World := { state := .blank .amd64 .symbolic {}, solver := .ideal }
    ∃ vs w', Strategy.choose .memory (.range 4 false true) (.sym "x" 2) w = .ok (some vs, .range 4 false true) w' ∧
      ∀ v < 4, v ∈ vs := by
  intro w
  have hcan : ∀ v, CanBe [] (.sym "x" 2) v ↔ v < 4 := fun v => by
    refine ⟨?_, fun hv => ⟨fun _ => v, by simp [Model.Meets], Word.trunc_of_lt (show v < 2 ^ 2 from hv)⟩⟩
    rintro ⟨μ, -, rfl⟩
    exact Word.trunc_lt 2 (μ "x")
  obtain ⟨⟨o, w', hrun, hnone, hsome⟩, -⟩ := @range_values_complete w Solver.ideal_exact (.sym "x" 2) trivial rfl 0 3 4
    ⟨(hcan 0).2 (by decide), fun v _ => Nat.zero_le v⟩ ⟨(hcan 3).2 (by decide), fun v hv => Nat.le_of_lt_succ ((hcan v).1 hv)⟩
    (by decide) .memory false (by simp) true
  cases o with
  | none => exact absurd (hnone.1 rfl) (by decide)
  | some vs =>
    obtain ⟨-, hall | ⟨hend, -⟩⟩ := hsome vs rfl
    · exact ⟨vs, w', hrun, fun v hv => hall v ((hcan v).2 hv)⟩
    · exact absurd hend (by decide)

end World

end SymExec
