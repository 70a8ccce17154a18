import SymExec.Proofs.Constraints
import SymExec.Proofs.Fork

/-!
# What work leaves as it was

`Does` says what work gives if all is well.
-/

namespace SymExec

open Paged (leaves)

section
variable {σ α β : Type} {P : σ → Prop} {s : σ} {x : EStateM Fault σ α} {f : α → EStateM Fault σ β} {a : α} {q : Prop}

lemma ok_of_bind {b u} (h : (x >>= f) s = .ok b u) : ∃ a t, x s = .ok a t ∧ f a t = .ok b u := by
  cases hx : x s with
  | ok a t => exact ⟨a, t, rfl, (bind_of_ok hx).symm.trans h⟩
  | error e t => exact absurd ((bind_of_error hx).symm.trans h) (by simp)

lemma ok_of_run {t u b} (h : (x >>= f) s = .ok b u) (hx : x s = .ok a t) : f a t = .ok b u := (bind_of_ok hx).symm.trans h

/-- What holds of the result of work, if it succeeds, and of the state it leaves. -/
def After (x : EStateM Fault σ α) (s : σ) (Q : α → σ → Prop) : Prop := ∀ a t, x s = .ok a t → Q a t

/-- Work that keeps a property of the state it starts from, also where it ends in a fault. -/
def Steady (P : σ → Prop) (x : EStateM Fault σ α) (s : σ) : Prop := P s → P (leaves x s)

namespace Steady

variable {x : EStateM Fault σ α} {f : α → EStateM Fault σ β}

lemma of_ok (h : Steady P x s) (hs : P s) {t : σ} (hx : x s = .ok a t) : P t := by
  have := h hs
  rwa [leaves, hx] at this

lemma of_error (h : Steady P x s) (hs : P s) {f : Fault} {t} (hx : x s = .error f t) : P t := by
  have := h hs
  rwa [leaves, hx] at this

lemma pure (a : α) : Steady P (Pure.pure a : EStateM Fault σ α) s := id

lemma throw (f) : Steady P (MonadExcept.throw f : EStateM Fault σ α) s := id

lemma get : Steady P (MonadState.get : EStateM Fault σ σ) s := id

lemma bind_weaken {Q : σ → Prop} (hx : Steady P x s) (hQ : ∀ t, P t → Q t)
    (hf : ∀ a t, x s = .ok a t → P t → Q (leaves (f a) t)) (hs : P s) : Q (leaves (x >>= f) s) := by
  cases h : x s with
  | ok a t =>
    rw [leaves, bind_of_ok h]
    exact hf a t h (hx.of_ok hs h)
  | error e t =>
    rw [leaves, bind_of_error h]
    exact hQ t (hx.of_error hs h)

lemma bind (hx : Steady P x s) (hf : ∀ a t, x s = .ok a t → Steady P (f a) t) : Steady P (x >>= f) s :=
  hx.bind_weaken (fun _ => id) hf

lemma seq (hx : Steady P x s) (hf : ∀ {a t}, Steady P (f a) t) : Steady P (x >>= f) s := hx.bind fun _ _ _ => hf

lemma done {g : α → β} (hx : Steady P x s) : Steady P (x >>= fun a => Pure.pure (g a)) s := hx.seq (.pure _)

lemma read (hx : x s = .ok a s) (hf : Steady P (f a) s) : Steady P (x >>= f) s := by rwa [Steady, Paged.leaves_bind hx]

lemma ite [Decidable q] {y : EStateM Fault σ α} (hx : q → Steady P x s) (hy : ¬ q → Steady P y s) :
    Steady P (if q then x else y) s := by
  split
  · exact hx ‹_›
  · exact hy ‹_›

lemma when [Decidable q] (hx : q → Steady P x s) : Steady P (if q then x else Pure.pure a) s := .ite hx fun _ => .pure a

lemma orElse [Decidable q] (hx : ¬ q → Steady P x s) : Steady P (if q then Pure.pure a else x) s := .ite (fun _ => .pure a) hx

lemma check [Decidable q] {e} {a b : β} :
    Steady P (if q then (MonadExcept.throw e : EStateM Fault σ α) >>= fun _ => Pure.pure a else Pure.pure b) s :=
  .when fun _ => (Steady.throw e).seq (.pure a)

lemma map (f : α → β) (hx : Steady P x s) : Steady P (f <$> x) s := hx.bind fun a _ _ => pure (f a)

lemma tryCatch {h} (hx : Steady P x s) (hh : ∀ f t, Steady P (h f) t) : Steady P (MonadExcept.tryCatch x h) s := by
  intro hs
  cases he : x s with
  | ok a t =>
    rw [leaves, tryCatch_of_ok he]
    exact hx.of_ok hs he
  | error f t =>
    have e : (MonadExcept.tryCatch x h : EStateM Fault σ α) s = h f t := by
      change EStateM.tryCatch x h s = _
      rw [EStateM.tryCatch, he]
      rfl
    rw [leaves, e]
    exact hh f t (hx.of_error hs he)

variable (l : List α)

lemma forM {f} (h : ∀ a ∈ l, ∀ t, Steady P (f a) t) : Steady P (l.forM f) s := by
  induction l generalizing s with
  | nil => exact pure _
  | cons a l ih => exact (h a (by simp) s).bind fun _ t _ => ih fun b hb => h b (.tail _ hb)

lemma mapM (h : ∀ a ∈ l, ∀ t, Steady P (f a) t) : Steady P (l.mapM f) s := by
  induction l generalizing s with
  | nil => exact pure _
  | cons a l ih =>
    rw [List.mapM_cons]
    refine (h a (by simp) s).bind fun _ t _ => ?_
    exact (ih fun b hb => h b (.tail _ hb)).seq <| pure _

lemma foldlM {f} (h : ∀ b, ∀ a ∈ l, ∀ t, Steady P (f b a) t) (b : β) : Steady P (l.foldlM f b) s := by
  induction l generalizing s b with
  | nil => exact pure _
  | cons a l ih => exact (h b a (by simp) s).bind fun c t _ => ih (fun b a' ha' => h b a' (.tail _ ha')) c

lemma filterM {f} (h : ∀ a t, Steady P (f a) t) : Steady P (l.filterM f) s := by
  have loop : ∀ (l acc : List α) (s : σ), Steady P (l.filterAuxM f acc) s := by
    intro l
    induction l with
    | nil => exact fun acc s => pure _
    | cons a l ih => exact fun acc s => (h a s).seq <| ih _ _
  exact (loop l [] s).seq <| pure _

end Steady

end

/-! ### Questions -/

def World.asking (w : World) (ps : List (List Cond)) (ls : List Cond) (es : List (Bits × Bool × Nat)) : World :=
  { w with state := { w.state with probes := ps, learned := ls, extremes := es } }

/-- A property that implies that no breakpoint is set and depends neither on what is told to breakpoints nor on what the
solver was asked. -/
structure World.Blind (P : World → Prop) : Prop where
  quiet : ∀ w, P w → w.Quiet
  inspecting : ∀ w i, P w → (w.inspecting i).Quiet → P (w.inspecting i)
  asking : ∀ w ps ls es, P w → P (w.asking ps ls es)

namespace Exec

variable {P : World → Prop} {w : World} {r : Region} {b : Bits} {extra : List Cond} {n : Nat}

lemma memoryAt_steady : Steady P (memoryAt r) w := by
  refine .bind .get fun s _ _ => ?_
  cases r with
  | file i =>
    dsimp only
    split
    · exact .pure _
    · exact .throw _
  | _ => exact .pure _

lemma leaves_onPages {α : Type} {m} (hm : w.state.memory? r = some m) (x : PagedM α) :
    leaves (onPages r x) w = leaves (modifyMemory r fun m' => { m' with paged := (leaves x (m.paged, w.commons)).1 })
      { w with commons := (leaves x (m.paged, w.commons)).2 } := by
  cases hx : x (m.paged, w.commons) with
  | ok a s | error a s =>
    have hs : leaves x (m.paged, w.commons) = s := by rw [leaves, hx]
    rw [leaves, onPages_run hm, hx, hs]
    rfl

lemma inspect_steady (hP : World.Blind P) {event : String} {moment attrs} : Steady P (inspect event moment attrs) w := by
  intro h
  obtain ⟨i, hrun, hquiet⟩ := inspect_inspecting event moment attrs (hP.quiet w h)
  rw [leaves, hrun]
  exact hP.inspecting w i h hquiet

lemma attr_steady {k v} : Steady P (attr k v) w := by
  refine .bind .get fun s _ _ => ?_
  split <;> exact .pure _

lemma attributeBits_steady {k} : Steady P (attributeBits k b) w := by
  refine attr_steady.bind fun v _ _ => ?_
  split
  · exact .pure _
  · exact .pure _
  · exact .throw _

section
variable (hP : World.Blind P)
include hP

lemma probe_steady {cs} : Steady P (probe cs) w := fun h =>
  hP.asking w (cs :: w.state.probes) w.state.learned w.state.extremes h

lemma learn_steady {c} : Steady P (learn c) w := by
  refine .seq .get <| .orElse fun _ => ?_
  exact fun h => hP.asking _ _ _ _ h

lemma values_steady {e : Bits} : Steady P (values e n extra) w := by
  unfold values
  split
  · exact .pure _
  · refine .bind .get fun _ _ _ => ?_
    dsimp only
    split
    · exact .throw _
    · refine (Steady.forM _ fun v _ _ => probe_steady hP).seq ?_
      exact .when fun _ => (learn_steady hP).done

lemma eval_steady {e : Bits} : Steady P (eval e extra) w := (values_steady hP).done

lemma extreme_steady (isGreatest e extra) : Steady P (extreme isGreatest e extra) w := by
  unfold extreme
  split
  · exact .pure _
  · refine .bind .get fun v _ _ => ?_
    dsimp only
    cases (if extra.isEmpty || v.state.settings.has .cachelessSolver then none
      else v.state.recalled? v.solver isGreatest e extra : Option Nat) with
    | some n => exact .pure n
    | none =>
      cases (if isGreatest then v.solver.greatest (v.state.context e.symbols extra) e
        else v.solver.least (v.state.context e.symbols extra) e : Option Nat) with
      | none => exact .throw _
      | some n =>
        refine (probe_steady hP).seq <| .ite (fun _ => ?_) fun _ => .pure n
        refine (learn_steady hP).bind fun _ t _ => .bind ?_ fun _ _ _ => .pure n
        exact fun h => hP.asking t _ _ _ h

end

lemma forM_probe_run (f : Nat → List Cond) (vs : List Nat) (w) :
    ∃ ps, (vs.forM fun v => probe (f v)) w = .ok () (w.asking ps w.state.learned w.state.extremes) := by
  induction vs generalizing w with
  | nil => exact ⟨w.state.probes, rfl⟩
  | cons v vs ih =>
    obtain ⟨ps, h⟩ := ih (w.asking (f v :: w.state.probes) w.state.learned w.state.extremes)
    exact ⟨ps, (bind_of_ok rfl).trans h⟩

lemma learn_run (c w) : ∃ ls, learn c w = .ok () (w.asking w.state.probes ls w.state.extremes) := by
  change ∃ ls, (if w.state.settings.has .replacementSolver then pure () else modifyState _ : Exec Unit) w = _
  split
  · exact ⟨w.state.learned, rfl⟩
  · exact ⟨_, rfl⟩

/-- What is kept when the values of a term were asked for. -/
def keepValues (b : Bits) (n : Nat) (vs : List Nat) (cs : List Cond) : Exec Unit := do
  vs.forM fun v => probe (.eqNat b v :: cs)
  if vs.length < n then learn (.any (vs.map fun v => .eqNat b v))

lemma keepValues_run (b : Bits) (n : Nat) (vs cs w) :
    ∃ ps ls, keepValues b n vs cs w = .ok () (w.asking ps ls w.state.extremes) := by
  obtain ⟨ps, hps⟩ := forM_probe_run (fun v => .eqNat b v :: cs) vs w
  rw [keepValues, bind_of_ok hps]
  split
  · obtain ⟨ls, hls⟩ := learn_run (.any (vs.map fun v => .eqNat b v)) (w.asking ps w.state.learned w.state.extremes)
    exact ⟨ps, ls, hls⟩
  · exact ⟨ps, w.state.learned, rfl⟩

lemma values_run (hb : b.lit? = none) {vs} (hv : w.solver.values (w.state.context b.symbols extra) b n = vs) (hne : vs ≠ []) :
    values b n extra w = .ok (vs.mergeSort (· ≤ ·))
      (leaves (keepValues b (if extra.isEmpty then n else 0) vs (w.state.context b.symbols extra)) w) := by
  obtain ⟨ps, ls, hkeep⟩ := keepValues_run b (if extra.isEmpty then n else 0) vs (w.state.context b.symbols extra) w
  unfold values
  split
  · cases hb
  rw [bind_get, leaves, hkeep]
  rw [hv]
  cases vs with
  | nil => exact absurd rfl hne
  | cons v vs =>
    obtain ⟨ps', hps⟩ := forM_probe_run (fun v => .eqNat b v :: w.state.context b.symbols extra) (v :: vs) w
    rw [keepValues, bind_of_ok hps] at hkeep
    dsimp only
    rw [bind_of_ok hps]
    have hlearn : (extra.isEmpty && decide ((v :: vs).length < n)) = true ↔ (v :: vs).length < if extra.isEmpty then n else 0 := by
      cases extra <;> simp
    by_cases hlt : (v :: vs).length < if extra.isEmpty then n else 0
    · rw [if_pos hlt] at hkeep
      rw [if_pos (hlearn.2 hlt)]
      exact bind_of_ok hkeep
    · rw [if_neg hlt] at hkeep
      rw [if_neg (mt hlearn.1 hlt)]
      exact congrArg (EStateM.Result.ok _) (EStateM.Result.ok.inj hkeep).2

lemma values_asks (extra) (hb : b.lit? = none) (hne : w.solver.values (w.state.context b.symbols extra) b n ≠ []) :
    ∃ ps ls, values b n extra w = .ok ((w.solver.values (w.state.context b.symbols extra) b n).mergeSort (· ≤ ·))
      (w.asking ps ls w.state.extremes) := by
  obtain ⟨ps, ls, hkeep⟩ := keepValues_run b (if extra.isEmpty then n else 0) _ (w.state.context b.symbols extra) w
  exact ⟨ps, ls, by rw [values_run hb rfl hne, leaves, hkeep]⟩

end Exec

/-! ### Work beside the point -/

/-- What accesses, jumps and the properties of them depend on. -/
structure Core where
  (memory registers : Memory)
  commons : Commons
  constraints : List Cond
  settings : Settings
  solver : Solver
  arch : Arch
  temps : Std.TreeMap Nat Scalar
  guard : Cond
  exit : Option ExitPoint
  target : Option Quantity

namespace World

def core (w : World) : Core where
  memory := w.state.memory
  registers := w.state.registers
  commons := w.commons
  constraints := w.state.constraints
  settings := w.state.settings
  solver := w.solver
  arch := w.state.arch
  temps := w.state.scratch.temps
  guard := w.state.scratch.guard
  exit := w.state.scratch.exitStmt
  target := w.state.scratch.target

/-- A property of the core of worlds without breakpoints. -/
structure Central (P : World → Prop) : Prop where
  quiet : ∀ w, P w → w.Quiet
  drift : ∀ w w', P w → w'.Quiet → w'.core = w.core → P w'

lemma Central.blind {P} (hP : Central P) : Blind P :=
  ⟨hP.quiet, fun w _ h hq => hP.drift w _ h hq rfl, fun w _ _ _ h => hP.drift w _ h (hP.quiet w h) rfl⟩

instance {P : World → Prop} : CoeOut (Central P) (Blind P) := ⟨Central.blind⟩

end World

namespace Exec

section
variable (hP : World.Central P) {name : String} {bits : Nat} {inspected events : Bool}
include hP

lemma modifyState_steady {f}
    (hf : ({ w with state := f w.state } : World).core = w.core) (hi : (f w.state).inspector = w.state.inspector) :
    Steady P (modifyState f) w := fun h => hP.drift w _ h (fun i hx => hP.quiet w h i (hi ▸ hx)) hf

lemma note_steady {type : String} : Steady P (note type) w := modifyState_steady hP rfl rfl

lemma act_steady {a} : Steady P (act a) w := modifyState_steady hP rfl rfl

lemma modifyEpoch_steady {f} : Steady P (modifyEpoch f) w := modifyState_steady hP rfl rfl

lemma freshSymbol_steady : Steady P (freshSymbol name bits inspected events) w := by
  have count : Steady P (modifyGet fun w => (w.symbols, { w with symbols := w.symbols + 1 }) : Exec Nat) w :=
    fun h => hP.drift w _ h (hP.quiet w h) rfl
  refine count.bind fun n _ _ => .ite (fun _ => (inspect_steady hP).seq ?_) fun _ => ?_
  all_goals exact .when fun _ => (note_steady hP).done

lemma unconstrained_steady : Steady P (unconstrained name bits inspected events) w :=
  .seq .get <| .when fun _ => freshSymbol_steady hP

lemma unknownBytes_steady : Steady P (unknownBytes r name bits inspected events) w :=
  .seq .get <| .orElse fun _ => unconstrained_steady hP

end

end Exec

end SymExec
