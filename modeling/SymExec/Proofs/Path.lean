import SymExec.Proofs.Literal

/-!
# Work along a path

A path is what a state meets on the way to an exit: its conditions, up to their meaning, and the settings, solver, architecture,
guard, exit point and target it has (`World.On`).
-/

namespace SymExec

open Exec

open Paged (leaves Refines)

/-- What does not change along a path, conditions apart. -/
structure Lane where
  settings : Settings
  solver : Solver
  arch : Arch
  guard : Cond
  exit : Option ExitPoint
  target : Option Quantity

/-- Conditions are tracked, and neither values nor temporaries are turned into conditions. -/
structure Lane.Plain (l : Lane) : Prop where
  folds : l.solver.Folds
  tracked : l.settings.has .trackConstraints = true
  symbolic : l.settings.has .concretize = false
  assigned : l.settings.has .symbolicTemps = false

lemma Lane.Plain.congr {l l' : Lane} (h : l.Plain) (hsolver : l'.solver = l.solver) (hsettings : l'.settings = l.settings) : l'.Plain where
  folds := hsolver ▸ h.folds
  tracked := hsettings ▸ h.tracked
  symbolic := hsettings ▸ h.symbolic
  assigned := hsettings ▸ h.assigned

namespace World

/-- A world without breakpoints on a lane, with conditions of a meaning. -/
structure On (l : Lane) (Γ : Model → Prop) (w : World) : Prop where
  quiet : w.Quiet
  settings : w.state.settings = l.settings
  solver : w.solver = l.solver
  arch : w.state.arch = l.arch
  guard : w.state.scratch.guard = l.guard
  exit : w.state.scratch.exitStmt = l.exit
  target : w.state.scratch.target = l.target
  meets : ∀ μ : Model, μ.Meets w.state.constraints ↔ Γ μ

structure Pageable (P : World → Prop) : Prop where
  central : Central P
  pages : ∀ {r : Region} {α : Type} {x : PagedM α} {y : UnsharedM α}, r.Main → Refines x y →
    (∀ u, Steady Unshared.Tidy y u) → ∀ w, Steady P (onPages r x) w

structure Wordy (P : World → Prop) : Prop where
  central : Central P
  words : ∀ w (r : Region) f, r.Main → P w → P { w with state := w.state.put r { w.state.part r with fast := f } }

/-- A property that all work on the memory and the registers keeps. -/
structure Loose (P : World → Prop) : Prop extends Pageable P, Wordy P

instance {P : World → Prop} : CoeOut (Loose P) (Central P) := ⟨(·.central)⟩

/-- A property that work keeps which neither takes an exit nor chooses an address. -/
structure Frame (P : World → Prop) : Prop extends Loose P where
  temps : ∀ w ts, P w → P { w with state := { w.state with scratch := { w.state.scratch with temps := ts } } }
  adds : ∀ w cs noted, (∀ μ : Model, μ.Meets w.state.constraints → μ.Meets cs) → Steady P (addConstraints cs noted) w
  symbolic : ∀ w, P w → w.state.settings.has .concretize = false
  assigned : ∀ w, P w → w.state.settings.has .symbolicTemps = false

instance {P : World → Prop} : CoeOut (Frame P) (Loose P) := ⟨Frame.toLoose⟩

variable {l : Lane} {Γ : Model → Prop} {w w' : World} {X : World → Prop}

lemma On.of_core (h : On l Γ w) (hq : w'.Quiet) (hc : w'.core = w.core) : On l Γ w' where
  quiet := hq
  settings := (congrArg Core.settings hc).trans h.settings
  solver := (congrArg Core.solver hc).trans h.solver
  arch := (congrArg Core.arch hc).trans h.arch
  guard := (congrArg Core.guard hc).trans h.guard
  exit := (congrArg Core.exit hc).trans h.exit
  target := (congrArg Core.target hc).trans h.target
  meets μ := by
    rw [show w'.state.constraints = w.state.constraints from congrArg Core.constraints hc]
    exact h.meets μ

lemma On.put (h : On l Γ w) (r m c) : On l Γ { w with commons := c, state := w.state.put r m } := by
  cases r <;> exact ⟨h.quiet, h.settings, h.solver, h.arch, h.guard, h.exit, h.target, h.meets⟩

lemma On.adds (h : On l Γ w) (hl : l.Plain) (cs noted) :
    ∃ w', addConstraints cs noted w = .ok () w' ∧ On l (fun μ => μ.Meets cs ∧ Γ μ) w' ∧ w'.commons = w.commons ∧
      w'.state.scratch = w.state.scratch ∧ ∀ r, w'.state.part r = w.state.part r := by
  obtain ⟨w', ds, hrun, ⟨hq, i, e, b, rfl⟩, hmeets⟩ := addConstraints_run cs noted h.quiet
  refine ⟨_, hrun, ⟨hq, h.settings, h.solver, h.arch, h.guard, h.exit, h.target, fun μ => ?_⟩, rfl, rfl, fun r => ?_⟩
  · rw [← h.meets μ]
    exact hmeets (h.solver ▸ hl.folds) (h.settings ▸ hl.tracked) μ
  · cases r <;> rfl

lemma Paging.loose (hX : Paging X) : Loose X where
  central := ⟨fun w h => (hX.orderly w h).quiet, fun _ _ h hq hc => hX.of_core h hq hc⟩
  pages hr hxy hy w := hX.onPages hr hxy hy w
  words w r f hr h := by
    refine hX.congr w _ h (fun i hi => (hX.orderly w h).quiet i ?_) rfl fun r' hr' => ?_
    · cases hr <;> exact hi
    · cases hr <;> cases hr' <;> rfl

lemma On.congr {Δ} (h : On l Γ w) (hΓ : ∀ μ, Γ μ ↔ Δ μ) : On l Δ w :=
  ⟨h.quiet, h.settings, h.solver, h.arch, h.guard, h.exit, h.target, fun μ => (h.meets μ).trans (hΓ μ)⟩

lemma frame_of_paging (hl : l.Plain) (hX : Paging X) : Frame fun w => On l Γ w ∧ X w where
  central := ⟨fun _ h => h.1.quiet, fun _ _ h hq hc => ⟨h.1.of_core hq hc, hX.of_core h.2 hq hc⟩⟩
  pages hr hxy hy w h := by
    refine ⟨?_, hX.onPages hr hxy hy w h.2⟩
    rw [leaves_onPages_main hr]
    exact h.1.put ..
  words w r f hr h := ⟨h.1.put r _ w.commons, hX.loose.words w r f hr h.2⟩
  temps w ts h :=
    ⟨⟨h.1.quiet, h.1.settings, h.1.solver, h.1.arch, h.1.guard, h.1.exit, h.1.target, h.1.meets⟩,
      hX.congr w _ h.2 h.1.quiet rfl fun r hr => by cases hr <;> rfl⟩
  adds w cs noted himp h := by
    obtain ⟨w', hrun, hon, hcommons, -, hpart⟩ := h.1.adds hl cs noted
    rw [leaves, hrun]
    refine ⟨hon.congr fun μ => ⟨And.right, fun hΓ => ⟨himp μ ((h.1.meets μ).2 hΓ), hΓ⟩⟩, ?_⟩
    exact hX.congr w w' h.2 hon.quiet hcommons fun r _ => congrArg Memory.paged (hpart r)
  symbolic w h := h.1.settings ▸ hl.symbolic
  assigned w h := h.1.settings ▸ hl.assigned

end World

namespace Exec

variable {P : World → Prop} {r : Region} {w : World}

section
variable (hP : World.Pageable P) (hr : r.Main)
include hP hr

lemma fillMissing_steady {addr n inspected events} : Steady P (fillMissing r addr n inspected events) w := by
  refine memoryAt_steady.bind fun m _ _ => .bind (.mapM _ fun _ _ t => unknownBytes_steady hP.central) fun parts _ _ => ?_
  refine .bind .get fun a t _ => .ite (fun _ => (note_steady hP.central).seq ?_) fun _ => ?_
  all_goals
    exact .bind .get fun _ t _ => (hP.pages hr (Paged.store_refines _ _ _ _) (Unshared.store_tidy _ _ _ _) t).done

lemma gather_go_steady (inspected events) (items : List (Nat × Chunk)) (stop)
    (segments) : Steady P (gather.go r inspected events stop segments items) w := by
  induction items generalizing w stop segments with
  | nil => exact .pure _
  | cons item items ih => exact .ite (fun _ => ih _ _) fun _ => (fillMissing_steady hP hr).seq <| ih _ _

lemma readFrom_steady {addr n inspected events} : Steady P (readFrom r addr n inspected events) w := by
  refine strict_steady.bind fun enforced t _ => ?_
  refine .bind (hP.pages hr (Paged.chunks_refines _ _ _ _) (Unshared.chunks_tidy _ _ _ _ _) t) fun items t _ => ?_
  obtain _ | ⟨p, _ | ⟨q, l⟩⟩ := items
  on_goal 2 => refine .orElse fun _ => ?_
  all_goals
    refine (gather_go_steady hP hr inspected events _ _ _).seq ?_
    exact .when fun _ => (fillMissing_steady hP hr).done

end

section
variable (hP : World.Wordy P) (hr : r.Main) {part : Nat × Nat × Nat} {width : Nat}
include hP hr

lemma modifyWords_steady {g} : Steady P (modifyMemory r fun m => { m with fast := m.fast.map g }) w := by
  intro h
  rw [leaves, modifyMemory_main hr]
  exact hP.words w r _ hr h

lemma loadWord_steady : Steady P (loadWord r width part) w := by
  refine memoryAt_steady.bind fun m t _ => ?_
  split
  · exact .pure _
  · refine (freshSymbol_steady hP.central).bind fun v t _ => ?_
    exact (modifyWords_steady hP hr).done

lemma storeWord_steady {data} : Steady P (storeWord r width part data) w :=
  storeWord_keeps (fun _ _ => loadWord_steady hP hr) (fun _ _ => modifyWords_steady hP hr)

end

end Exec

namespace World

variable {P : World → Prop} {r : Region} {addr : Quantity}

section
variable (hP : Loose P) (hr : r.Main)
include hP hr

lemma Loose.readable (n) : Readable P r n :=
  ⟨fun _ _ _ _ => readFrom_steady hP.toPageable hr, fun _ _ _ => loadWord_steady hP.toWordy hr⟩

lemma Loose.writable (a n) : Writable P r a n :=
  ⟨fun _ _ _ w => hP.pages hr (Paged.store_refines _ _ _ _) (Unshared.store_tidy _ _ _ _) w,
    fun _ _ _ _ _ _ => storeWord_steady hP.toWordy hr⟩

lemma Loose.load (ha : addr.nat?.isSome) (o) {n} (hsize : o.size = some (.num n)) (hcond : o.condition = none)
    (hcut : o.cut = false) {w} : Steady P (load r addr o) w := by
  obtain ⟨a, ha⟩ := Option.isSome_iff_exists.1 ha
  exact load_steady hP hr (hP.readable hr n) ha o hsize hcond hcut

lemma Loose.store (ha : addr.nat?.isSome) (data o)
    (hsize : ∀ q, o.size = some q → ∃ n, q = .num n) {w} : Steady P (store r addr data o) w := by
  obtain ⟨a, ha⟩ := Option.isSome_iff_exists.1 ha
  exact store_steady hP hr ha hsize (fun _ k => hP.readable hr k) fun _ _ k _ _ => hP.writable hr a k

end

end World

end SymExec
