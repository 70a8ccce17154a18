import SymExec.Proofs.Conditions
import SymExec.Proofs.Scene

/-!
# Adding conditions to a state

Without breakpoints, conditions are added as they are, or in a simpler form of the same meaning, and nothing that work on memory
depends on changes.
-/

namespace SymExec

open List

namespace World

def inspecting (w : World) (i : Option Inspector) : World := { w with state := { w.state with inspector := i } }

/-- The world with other conditions in its state, and what changes when conditions are added. -/
def adding (w : World) (i : Option Inspector) (h : History) (b : Bool) (cs : List Cond) : World :=
  { w with state := { w.state with inspector := i, history := h, feasible := b, constraints := cs } }

end World

namespace Exec

lemma has_run (s : Setting) (w : World) : has s w = .ok (w.state.settings.has s) w := rfl

/-! ### Inspection -/

lemma forM_setAttribute_inspecting (attrs : Fields) {w} (hw : w.Quiet) :
    ∃ i, (attrs.forM fun (k, v) => setAttribute k v : Exec Unit) w = .ok () (w.inspecting i) ∧ (w.inspecting i).Quiet := by
  induction attrs generalizing w with
  | nil => exact ⟨w.state.inspector, rfl, hw⟩
  | cons p attrs ih =>
    have hset : (w.inspecting (w.state.inspector.map fun i =>
        { i with attributes := i.attributes.insert p.1 p.2 })).Quiet := fun i hi => by
      obtain ⟨j, hj, rfl⟩ := Option.map_eq_some_iff.1 hi
      exact hw j hj
    exact ih hset

/-- **Without breakpoints** an event changes the attributes only. -/
theorem inspect_inspecting (event : String) (moment attrs) {w} (hw : w.Quiet) :
    ∃ i, inspect event moment attrs w = .ok () (w.inspecting i) ∧ (w.inspecting i).Quiet := by
  cases hi : w.state.inspector with
  | none => exact ⟨w.state.inspector, inspect_none hi, hw⟩
  | some j =>
    obtain ⟨i, hset, hquiet⟩ := forM_setAttribute_inspecting attrs hw
    exact ⟨i, inspect_some hi hset hquiet, hquiet⟩

/-! ### Simpler conditions -/

lemma simplifyCond_run (c w) : ∃ c', simplifyCond c w = .ok c' w ∧ (w.solver.Folds → ∀ μ, c'.eval μ = c.eval μ) := by
  fun_cases simplifyCond c with
  | case1 => exact ⟨_, rfl, fun _ _ => rfl⟩
  | case2 =>
    rw [bind_get]
    cases hv : w.solver.values [] (.ofCond c) 2 with
    | nil => exact ⟨_, rfl, fun _ _ => rfl⟩
    | cons v vs =>
      cases vs with
      | cons u us => exact ⟨_, rfl, fun _ _ => rfl⟩
      | nil =>
        refine ⟨_, rfl, fun hfold μ => ?_⟩
        have h := hfold _ v hv μ
        rw [Bits.eval_ofCond] at h
        subst h
        cases c.eval μ <;> rfl

variable (cs : List Cond)

lemma mapM_simplifyCond_run (w) :
    ∃ cs', cs.mapM simplifyCond w = .ok cs' w ∧ (w.solver.Folds → ∀ μ : Model, μ.Meets cs' ↔ μ.Meets cs) := by
  induction cs with
  | nil => exact ⟨[], rfl, fun _ _ => Iff.rfl⟩
  | cons c cs ih =>
    obtain ⟨c', hc, hval⟩ := simplifyCond_run c w
    obtain ⟨cs', hcs, hmeets⟩ := ih
    refine ⟨c' :: cs', ?_, fun hfold μ => ?_⟩
    · rw [mapM_cons, bind_of_ok hc, bind_of_ok hcs]
      rfl
    · have hrest := hmeets hfold μ
      simp only [Model.Meets, forall_mem_cons] at hrest ⊢
      rw [hval hfold μ, hrest]

/-! ### Adding conditions -/

lemma meets_filter (μ : Model) : μ.Meets (cs.filter (!·.isTrue)) ↔ μ.Meets cs := by
  refine ⟨fun h c hc => ?_, fun h c hc => h c (mem_filter.1 hc).1⟩
  by_cases ht : c.isTrue = true
  · cases c with
    | lit b => exact ht
    | _ => simp [Cond.isTrue] at ht
  · exact h c (mem_filter.2 ⟨hc, by simpa using ht⟩)

lemma filterMap_cond {g : Value → Option Cond} (hg : ∀ c, g (.cond c) = some c) (cs : List Cond) : (cs.map .cond).filterMap g = cs := by
  rw [filterMap_map, show g ∘ .cond = some from funext hg, filterMap_some]

lemma meets_reverse_append (cs ds) (μ : Model) : μ.Meets (cs.reverse ++ ds) ↔ μ.Meets cs ∧ μ.Meets ds := by
  simp only [Model.Meets, mem_append, mem_reverse, or_imp, forall_and]

section
variable {w w₁ : World} {ds : List Cond}

/-- A world that differs from another in its conditions and in what is told of adding them. -/
def Adds (w : World) (ds : List Cond) (w₁ : World) : Prop := w₁.Quiet ∧ ∃ i h b, w₁ = w.adding i h b ds

section
variable (h : Adds w ds w₁)
include h

lemma Adds.inspect (event moment attrs) (hn : (attrs.map (·.1)).Nodup) : ∃ w2, Exec.inspect event moment attrs w₁ = .ok () w2 ∧
    Adds w ds w2 ∧ ∀ k v, (k, v) ∈ attrs → Shown w2 k v := by
  obtain ⟨hq, i, h, b, rfl⟩ := h
  obtain ⟨j, hrun, hq'⟩ := inspect_inspecting event moment attrs hq
  obtain ⟨w2, hrun', -, -, hshown⟩ := inspect_run (r := .memory) event moment attrs hn hq
  obtain rfl : w2 = _ := (EStateM.Result.ok.inj (hrun'.symm.trans hrun)).2
  exact ⟨_, hrun, ⟨hq', j, h, b, rfl⟩, hshown⟩

lemma Adds.forM_actions (p : Cond → Bool) (cs : List Cond) :
    ∃ w2, (cs.forM fun c => if p c then constraintAction c else return) w₁ = .ok () w2 ∧ Adds w ds w2 := by
  induction cs generalizing w₁ with
  | nil => exact ⟨w₁, rfl, h⟩
  | cons c cs ih =>
    change ∃ w2, ((if p c then constraintAction c else return) >>= fun _ =>
      cs.forM fun c => if p c then constraintAction c else return : Exec Unit) w₁ = .ok () w2 ∧ _
    split
    · obtain ⟨hq, i, h, b, rfl⟩ := h
      exact ih ⟨hq, i, _, b, rfl⟩
    · exact ih h

lemma Adds.mark (cs : List Cond) : ∃ w2, (do
      if !(← has .symbolic) then
        if cs.any (·.isFalse) then modifyState fun s => { s with feasible := false } : Exec Unit) w₁ = .ok () w2 ∧
      Adds w ds w2 := by
  rw [bind_of_ok (has_run .symbolic w₁)]
  split
  · split
    · obtain ⟨hq, i, h, b, rfl⟩ := h
      exact ⟨_, rfl, hq, i, h, false, rfl⟩
    · exact ⟨w₁, rfl, h⟩
  · exact ⟨w₁, rfl, h⟩

end

/-- **Adding conditions** in a state without breakpoints. -/
theorem addConstraints_run (cs : List Cond) (noted : Bool) (hw : w.Quiet) : ∃ w' ds, addConstraints cs noted w = .ok () w' ∧ Adds w ds w' ∧
      (w.solver.Folds → w.state.settings.has .trackConstraints = true →
        ∀ μ : Model, μ.Meets ds ↔ μ.Meets cs ∧ μ.Meets w.state.constraints) := by
  have start : Adds w w.state.constraints w := ⟨hw, w.state.inspector, w.state.history, w.state.feasible, rfl⟩
  cases hempty : cs.isEmpty with
  | true =>
    obtain rfl := isEmpty_iff.1 hempty
    refine ⟨w, w.state.constraints, rfl, start, fun _ _ μ => ?_⟩
    exact ⟨fun h => ⟨fun c hc => absurd hc (by simp), h⟩, And.right⟩
  | false =>
    unfold addConstraints
    rw [if_neg (by simp [hempty]), bind_of_ok (has_run .trackConstraints w)]
    cases htrack : w.state.settings.has .trackConstraints with
    | false =>
      suffices h : ∃ w', _ = EStateM.Result.ok () w' ∧ Adds w w.state.constraints w' by
        obtain ⟨w', hrun, hadds⟩ := h
        exact ⟨w', _, hrun, hadds, by simp⟩
      cases noted with
      | false => exact start.mark cs
      | true =>
        rw [if_neg (by simp), if_pos rfl, bind_of_ok (has_run .trackConstraintActions w)]
        split
        · obtain ⟨w₁, hrun, hadds⟩ := start.forM_actions (·.symbolic) cs
          rw [bind_of_ok hrun]
          exact hadds.mark cs
        · exact start.mark cs
    | true =>
      -- the conditions in the form in which they are added
      obtain ⟨cs', hsimp, hmean⟩ : ∃ cs', (if w.state.settings.has .simplifyConstraints then cs.mapM simplifyCond
          else Pure.pure cs : Exec (List Cond)) w = .ok cs' w ∧ (w.solver.Folds → ∀ μ : Model, μ.Meets cs' ↔ μ.Meets cs) := by
        split
        · exact mapM_simplifyCond_run cs w
        · exact ⟨cs, rfl, fun _ _ => Iff.rfl⟩
      obtain ⟨w₁, hbefore, hw1, hshown⟩ := start.inspect "constraints" .before
        [("added_constraints", .list (cs'.map .cond))] (by simp)
      have hattr := attr_run (hshown "added_constraints" (.list (cs'.map .cond)) (by simp))
      rw [if_pos rfl, bind_of_ok (has_run .simplifyConstraints w), ← apply_ite (· >>= _), bind_of_ok hsimp]
      dsimp only
      rw [bind_of_ok hbefore, bind_of_ok hattr]
      dsimp only
      rw [filterMap_cond fun _ => rfl, pure_bind]
      obtain ⟨hq, i, h, b, rfl⟩ := hw1
      let ds := (cs'.filter (!·.isTrue)).reverse ++ w.state.constraints
      have hadded : Adds w ds (w.adding i h b ds) := ⟨hq, i, h, b, rfl⟩
      obtain ⟨w2, hafter, hw2, -⟩ := hadded.inspect "constraints" .after [] (by simp)
      suffices hend : ∃ w', _ = EStateM.Result.ok () w' ∧ Adds w ds w' by
        obtain ⟨w', hrun, hadds⟩ := hend
        refine ⟨w', _, hrun, hadds, fun hfold _ μ => ?_⟩
        refine (meets_reverse_append ..).trans ?_
        rw [meets_filter, hmean hfold μ]
      have hraw : addRaw cs' (w.adding i h b w.state.constraints) = .ok (cs'.filter (!·.isTrue)) (w.adding i h b ds) := rfl
      rw [bind_of_ok hraw, bind_of_ok hafter, bind_of_ok (has_run .trackConstraintActions w2)]
      split
      · obtain ⟨w3, hrun, hw3⟩ := hw2.forM_actions (fun _ => true) ((cs'.filter (!·.isTrue)).filter (!·.isFalse))
        simp only [if_true] at hrun
        rw [bind_of_ok hrun]
        exact hw3.mark cs
      · exact hw2.mark cs

end

lemma addConstraints_keeps {r S noted} : Keeps r S (addConstraints cs noted) := by
  rintro w hw rfl
  obtain ⟨_, ds, hrun, ⟨hquiet, i, h, b, rfl⟩, -⟩ := addConstraints_run cs noted hw
  exact ⟨(), _, hrun, hquiet, by cases r <;> rfl⟩

end Exec

end SymExec
