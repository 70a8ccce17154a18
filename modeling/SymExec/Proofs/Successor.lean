import SymExec.Proofs.Carry
import SymExec.Proofs.Statement

/-!
# Successors

A state becomes a successor under a guard: the guard is added to its conditions, the jump is made, and the call stack follows.
-/

namespace SymExec

open List Option World Array

open Paged (leaves)
open EStateM (Result)

lemma Settings.has_erase (s : Settings) {o o'} (h : o.ctorIdx ≠ o'.ctorIdx) : (s.erase o).has o' = s.has o' := by
  unfold erase
  split
  · simp [has, Nat.testBit_xor, Nat.one_shiftLeft, h]
  · rfl

lemma CallConv.callNumber_fixed {a os c} (h : CallConv.ofSystem? a os = some c) : Exec.Fixed (c.callNumber.getD "") := by
  have hall : ∀ c ∈ CallConv.every, Exec.Fixed (c.callNumber.getD "") := by decide +kernel
  refine hall c ?_
  unfold CallConv.ofSystem? CallConv.ofName? at h
  split at h
  on_goal 6 => cases h
  all_goals exact mem_of_find?_eq_some h

variable {quiet : Bool} {v : Bits} {offset : Nat}

namespace Exec

variable {P : World → Prop} {a : Arch} {w : World} {data : Bits}

lemma values_single (hS : w.solver.Exact) {e} (he : e.Valid) {n v w'} (hn : 1 < n) (h : values e n [] w = .ok [v] w') :
    w'.state.constraints = w.state.constraints ∧ ∀ μ, μ.Meets w.state.constraints → e.eval μ = v := by
  cases hlit : e.lit? with
  | some u =>
    cases e with
    | lit k u =>
      obtain ⟨hv, rfl⟩ := Result.ok.inj h
      exact ⟨rfl, fun μ _ => (Word.trunc_of_lt he).trans (cons.inj hv).1⟩
    | _ => cases hlit
  | none =>
    have hne : w.solver.values w.state.constraints e n ≠ [] := fun hnil => by
      unfold values at h
      split at h
      · cases hlit
      · replace h := ok_of_run h rfl
        have hcx : w.state.context e.symbols [] = w.state.constraints := rfl
        simp only [hcx, hnil] at h
        cases h
    obtain ⟨ps, ls, hrun⟩ := values_asks [] hlit hne
    obtain ⟨hvs, rfl⟩ := Result.ok.inj (hrun.symm.trans h)
    refine ⟨rfl, fun μ hμ => ?_⟩
    have hperm : [v].Perm (w.solver.values w.state.constraints e n) := hvs ▸ mergeSort_perm _ _
    have hmem := hS.mem_of_canBe w.state.constraints e n (e.eval μ) (by rw [← hperm.length_eq]; exact hn) ⟨μ, hμ, rfl⟩
    exact mem_singleton.1 (hperm.mem_iff.2 hmem)

/-! ### The call stack -/

section
variable (hP : Central P)
include hP

lemma stackAction_steady {s} : Steady P (stackAction s) w := modifyEpoch_steady hP

lemma setCallstack_steady {fs} : Steady P (setCallstack fs) w := .seq .get <| modifyState_steady hP rfl rfl

lemma pushFrame_steady {f} : Steady P (pushFrame f) w := .seq .get <| (setCallstack_steady hP).seq <| stackAction_steady hP

lemma popFrame_steady : Steady P popFrame w := by
  refine .bind .get fun s _ _ => ?_
  split
  · exact (setCallstack_steady hP).seq <| stackAction_steady hP
  · exact .throw _

lemma leaveFrame_steady : Steady P leaveFrame w :=
  .seq .get <| (inspect_steady hP).seq <| (popFrame_steady hP).bind fun _ _ _ => inspect_steady hP

lemma posix_steady : Steady P posix w := by
  refine .bind .get fun s _ _ => ?_
  split
  · exact .pure _
  · refine .bind (.foldlM _ (fun p x _ t => ?_) _) fun _ _ _ => (modifyState_steady hP rfl rfl).done
    exact .bind (fun h => hP.drift t _ h (hP.quiet t h) rfl) fun _ _ _ => .pure _

end

/-! ### Registers -/

section
variable (hP : Passage a P) (ha : a.Regular)
include hP ha

lemma regAt_passes : Steady P (regAt offset quiet) w := by
  refine .read rfl fun h => ?_
  have hn : w.state.arch.bytes ≤ pageSize := hP.arch w h ▸ ha.word
  exact load_steady hP .registers (hP.readable .registers hn) (show (Quantity.num offset).nat? = some offset from rfl) _ rfl rfl rfl h

lemma ip_passes : Steady P ip w := .seq .get <| regAt_passes hP ha

lemma quietIp_passes : Steady P quietIp w := .seq .get <| regAt_passes hP ha

lemma quietSp_passes : Steady P quietSp w := .seq .get <| regAt_passes hP ha

lemma writable_of_jumped {o n} (hj : a.Jumped o n) {t k} (ht : P t)
    (hk : (storeSize t.state.arch.bits (some (.num n)) data).nat? = some k) : Writable P .registers o k := by
  rw [hP.arch t ht] at hk
  obtain rfl := (Nat.mod_eq_of_lt (Nat.lt_of_le_of_lt (ha.jumped hj) ha.wide)).symm.trans (some.inj hk)
  exact hP.writable hj

lemma setIp_passes : Steady P (setRegAt a.ipOffset v quiet) w := by
  refine .read rfl fun h => ?_
  have harch := hP.arch w h
  refine Steady.bind (store_steady hP .registers (show (Quantity.num a.ipOffset).nat? = some a.ipOffset from rfl)
    (fun q hq => ⟨_, (some.inj hq).symm⟩) (fun hc => nomatch hc) fun t data k ht hk => ?_) (fun _ _ _ => .pure _) h
  exact writable_of_jumped hP ha (.inl ⟨rfl, congrArg Arch.bytes harch⟩) ht hk

lemma setSyscallIp_passes : Steady P (setReg "ip_at_syscall" v) w := by
  intro h
  refine setReg_steady hP (by decide +kernel) (fun o n hr t data k ht hk => ?_) h
  rw [hP.arch w h] at hr
  exact writable_of_jumped hP ha (.inr hr) ht hk

/-! ### Calls and returns -/

lemma leaveFrames_passes {n} : Steady P (leaveFrames n) w := by
  induction n generalizing w with
  | zero => exact .pure _
  | succ n ih =>
    refine (quietSp_passes hP ha).bind fun s _ _ => .seq .get <| .when fun _ => ?_
    exact (leaveFrame_steady hP).seq <| ih

lemma addr_passes : Steady P addr w := (quietIp_passes hP ha).seq <| evalOne_steady hP

end

/-- If the state calls, the stack pointer at which its return address is looked for is a number. -/
def Rooted (w : World) : Prop :=
  w.state.history.current.jumpkind = some "Ijk_Call" → w.state.arch.callPushesRet = true →
    After (announceCall w.state.arch >>= fun _ => quietSp) w fun s _ => s.lit?.isSome

section
variable (hP : Passage a P) (ha : a.Regular)
include hP ha

lemma announceCall_passes : Steady P (announceCall a) w := by
  refine (quietIp_passes hP ha).bind fun ip _ _ => (inspect_steady hP).seq ?_
  refine attr_steady.bind fun v _ _ => ?_
  cases v with
  | bits b | int i => exact (quietIp_passes hP ha).seq <| .when fun _ => setIp_passes hP ha
  | _ => exact .pure _

section
variable (h : w.state.arch.callPushesRet = true → After quietSp w fun s _ => s.lit?.isSome)
include h

lemma returnAddress_passes : Steady P returnAddress w := by
  refine .read rfl fun hw => ?_
  refine Steady.ite (fun hret => ?_) (fun _ => ?_) hw
  · refine Steady.bind (quietSp_passes hP ha) fun s t hs => ?_
    obtain ⟨n, hn⟩ := isSome_iff_exists.1 (h hret s t hs)
    have hlong : w.state.arch.longBits / 8 ≤ pageSize := hP.arch w hw ▸ ha.long
    refine .bind (load_steady hP .memory (hP.readable .memory hlong) (show (Quantity.bits s).nat? = some n from hn) _
      rfl rfl rfl) fun _ _ _ => ?_
    exact (eval_steady hP).done
  · refine (regAt_passes hP ha).seq ?_
    exact (eval_steady hP).done

lemma enterCall_passes : Steady P enterCall w := by
  refine .bind (returnAddress_passes hP ha h) fun _ _ _ => ?_
  have hfunc : ∀ t, Steady P (handling .solverValue (some <$> addr) (return none)) t := fun t =>
    .tryCatch (.map _ (addr_passes hP ha)) fun f t => .orElse fun _ => .throw _
  refine .bind (hfunc _) fun _ _ _ => (quietSp_passes hP ha).seq ?_
  refine (eval_steady hP).seq <| .bind .get fun _ _ _ => ?_
  split
  · exact .throw _
  · exact (pushFrame_steady hP).seq <| inspect_steady hP

end

lemma followCalls_passes (h : Rooted w) : Steady P followCalls w := by
  refine .read rfl fun hw => ?_
  have harch := hP.arch w hw
  refine Steady.read rfl ?_ hw
  refine Steady.ite (fun hcall => ?_) fun _ => ?_
  · refine .bind (harch ▸ announceCall_passes hP ha) fun u t hu ht => ?_
    refine enterCall_passes hP ha (fun hret s t' hs => ?_) ht
    rw [hP.arch t ht, ← harch] at hret
    exact h hcall hret s t' ((bind_of_ok hu).trans hs)
  · refine .seq .get <| (leaveFrames_passes hP ha).seq <| .when fun _ => ?_
    refine .seq .get <| (quietIp_passes hP ha).seq <| (quietSp_passes hP ha).seq ?_
    exact .when fun _ => leaveFrame_steady hP

/-! ### System calls and targets -/

lemma systemCallNumbers_passes : Steady P systemCallNumbers w := by
  refine .read rfl fun hw => ?_
  refine Steady.read rfl ?_ hw
  dsimp only
  split
  · exact .throw _
  · rename_i c hc
    have hfixed : Fixed (c.callNumber.getD "") := by obtain hc | ⟨-, hc⟩ := (orElse_eq_some ..).1 hc <;> exact CallConv.callNumber_fixed hc
    have hread : ∀ o n, w.state.arch.register? (c.callNumber.getD "") = some (o, n) → Readable P .registers n := fun o n hr =>
      hP.readable .registers (ha.register _ o n (hP.arch w hw ▸ hr))
    refine .bind (reg_steady hP hfixed hread) fun n _ _ => .seq .get <| .orElse fun _ => ?_
    exact (posix_steady hP).seq <| (values_steady hP).done

omit ha in
lemma jumpTargets_passes (hexact : ∀ w, P w → w.solver.Exact) {target} (hform : target.Formed) :
    Steady P (Stepping.jumpTargets target) w := by
  refine .bind .get fun _ t _ => .ite (fun _ => ?_) fun _ => values_steady hP
  refine .bind .get fun _ t _ => .when fun _ => ?_
  refine fun ht => Steady.bind (values_steady hP) (fun vs t' hvs => ?_) ht
  dsimp only
  split
  · rename_i v
    refine .bind (hP.adds t' _ _ fun μ hμ => ?_) fun _ _ _ => .pure _
    obtain ⟨hsame, hone⟩ := values_single (hexact t ht) hform.valid (by decide) hvs
    have hv := hone μ (hsame ▸ hμ)
    have hlt : v < 2 ^ target.width := hv ▸ Bits.eval_lt hform.valid μ
    intro c hc
    obtain rfl := mem_singleton.1 hc
    rw [Cond.eval_eqNat hform hlt, hv]
    exact beq_self_eq_true v
  · exact .pure _

end

section
variable (hP : Central P) {extra : List Cond}
include hP

lemma downsizeInspector_steady : Steady P downsizeInspector w := by
  intro h
  refine hP.drift w _ h (fun i hi => ?_) rfl
  cases hi
  cases hw : w.state.inspector with
  | none => rfl
  | some i => exact hP.quiet w h i hw

lemma solverSatisfiable_steady : Steady P (solverSatisfiable extra) w := .seq .get <| .when fun _ => (probe_steady hP).done

lemma satisfiable_steady : Steady P (satisfiable extra) w :=
  .seq .get <| .ite (fun _ => solverSatisfiable_steady hP) fun _ => .orElse fun _ => .seq .get <| .pure _

omit hP in
lemma enterSystemCall_steady : Steady P enterSystemCall w := .seq .get <| .when fun _ => .throw _

end

end Exec

/-! ### Work on a copy -/

namespace World

/-- A state at work beside others, whose memories it leaves as they are. -/
structure Away (hs : List (Paged × Unshared)) (S : Solver) (w : World) : Prop where
  holds : Holds hs w
  solver : w.solver = S

variable {hs : List (Paged × Unshared)} {S : Solver} {w : World}

lemma away_loose : Loose (Away hs S) where
  central := ⟨fun _ h => h.holds.orderly.quiet, fun _ _ h hq hc =>
    ⟨(holds_paging hs).of_core h.holds hq hc, (congrArg Core.solver hc).trans h.solver⟩⟩
  pages hr hxy hy w h := by
    refine ⟨(holds_paging hs).onPages hr hxy hy w h.holds, ?_⟩
    rw [Exec.leaves_onPages_main hr]
    exact h.solver
  words w r f hr h := ⟨(holds_paging hs).loose.words w r f hr h.holds, h.solver⟩

lemma away_adds {cs noted} : Steady (Away hs S) (Exec.addConstraints cs noted) w := by
  intro h
  obtain ⟨w', ds, hrun, ⟨hq, i, e, b, rfl⟩, -⟩ := Exec.addConstraints_run cs noted h.holds.orderly.quiet
  rw [leaves, hrun]
  exact ⟨(holds_paging hs).congr w _ h.holds hq rfl fun r hr => by cases hr <;> rfl, h.solver⟩

lemma away_setRegAt : Steady (Away hs S) (Exec.setRegAt offset v quiet) w :=
  .bind .get fun _ _ _ => (away_loose.store .registers rfl v _ fun _ hq => ⟨_, (some.inj hq).symm⟩).done

end World

/-! ### The successors so far -/

/-- One more successor than before is listed, in the next place of the pool. -/
structure Successors.Listed (old o : Successors) : Prop where
  all : o.all = old.all ++ [old.pool.size]
  there : old.pool.size < o.pool.size
  keeps : ∀ j < old.pool.size, o.pool[j]? = old.pool[j]?

lemma Successors.Listed.push {old o : Successors} (h : old.Listed o) (s) : old.Listed { o with pool := o.pool.push s } where
  all := h.all
  there := by
    rw [size_push]
    exact Nat.lt_succ_of_lt h.there
  keeps j hj := by
    rw [← h.keeps j hj]
    exact getElem?_push_lt (Nat.lt_trans hj h.there) |>.trans (Array.getElem?_eq_getElem _).symm

namespace Stepping

open Exec

/-- What holds of the world and of the successors so far. -/
structure Under (P : World → Prop) (Q : Successors → Prop) (c : Course) : Prop where
  world : P c.world
  out : Q c.out

variable {P : World → Prop} {Q : Successors → Prop} {c : Course} {α β : Type} {x : Exec α}

lemma exec_steady (h : Steady P x c.world) : Steady (Under P Q) (exec x) c := by
  rintro ⟨hP, hQ⟩
  unfold leaves exec
  cases hx : x c.world with
  | ok a w => exact ⟨h.of_ok hP hx, hQ⟩
  | error f w => exact ⟨h.of_error hP hx, hQ⟩

section
variable {l : Lane} {Γ : Model → Prop} {hs : List (Paged × Unshared)} {v : World} {old : Successors}

/-- A copy that works on its own becomes a flat successor; the state itself is as it was. -/
lemma splitFlat_passes {act : Exec Unit} (hact : ∀ hs w, Steady (Away hs l.solver) act w) :
    Steady (Under (Parting l Γ hs v) old.Listed) (splitFlat act) c := by
  rintro ⟨h, hlist⟩
  obtain ⟨copy, w', hrun, hown, hcopy⟩ := fork_copied c.world
  have hstart : Away (w'.parts ++ hs) l.solver { w' with state := copy } :=
    ⟨hcopy.holds_parts hown h.holds, hown.solver.trans h.on.solver⟩
  have hafter := hact _ _ hstart
  have hback : ∀ w, Away (w'.parts ++ hs) l.solver w → Parting l Γ hs v { w with state := w'.state } := fun w hw =>
    (h.copied hown).back hown.bare hw.holds hw.solver
  have hfork : (liftM fork : Stepping State) c = .ok copy { c with world := w' } := by
    change exec fork c = _
    unfold exec
    rw [hrun]
  rw [leaves, splitFlat, bind_of_ok hfork]
  unfold leaves at hafter
  cases hx : act { w' with state := copy } with
  | ok u w =>
    rw [hx] at hafter
    have hon : onState copy (exec act) { c with world := w' } = .ok (u, w.state) { c with world := { w with state := w'.state } } := by
      unfold onState exec
      rw [hx]
    rw [bind_of_ok hon]
    exact ⟨hback w hafter, ⟨(hlist.push w.state).all, (hlist.push w.state).there, (hlist.push w.state).keeps⟩⟩
  | error f w =>
    rw [hx] at hafter
    have hon : onState copy (exec act) { c with world := w' } = .error f { c with world := { w with state := w'.state } } := by
      unfold onState exec
      rw [hx]
    rw [bind_of_error hon]
    exact ⟨hback w hafter, hlist⟩

end

/-! ### Adding a successor -/

section
variable {l : Lane} {Γ : Model → Prop} {hs : List (Paged × Unshared)} {v w w' : World} {c' : Course} {guard : Cond}
  {jumpkind : String} {exit : Option ExitPoint} {instruction : Option Nat} {b : Bits}

lemma exec_ok {a} (h : exec x c = .ok a c') : x c.world = .ok a c'.world ∧ c'.out = c.out := by
  unfold exec at h
  cases hx : x c.world with
  | ok b w =>
    rw [hx] at h
    cases h
    exact ⟨rfl, rfl⟩
  | error f w =>
    rw [hx] at h
    cases h

lemma ok_of_exec {f} {a : β} (h : (exec x >>= f) c = .ok a c') :
    ∃ a' c1, x c.world = .ok a' c1.world ∧ c1.out = c.out ∧ f a' c1 = .ok a c' := by
  obtain ⟨a', c1, h1, h⟩ := ok_of_bind h
  obtain ⟨hw, ho⟩ := exec_ok h1
  exact ⟨a', c1, hw, ho, h⟩

lemma parting_modifyScratch {f} (h : Parting l Γ hs v w)
    (ht : (f w.state.scratch).temps = w.state.scratch.temps) (hrun : modifyScratch f w = .ok () w') :
    Parting { l with
      guard := (f w.state.scratch).guard, exit := (f w.state.scratch).exitStmt, target := (f w.state.scratch).target } Γ hs v w' := by
  cases hrun
  refine h.congr ⟨h.on.quiet, h.on.settings, h.on.solver, h.on.arch, rfl, rfl, rfl, h.on.meets⟩ rfl (fun r hr => ?_) rfl ht
  cases hr <;> rfl

lemma simplify_cases {q} (h : simplify b w = .ok q w') : w' = w ∧ (q = b ∨ q.symbolic = false) := by
  unfold simplify at h
  split at h
  · cases h
    exact ⟨rfl, .inl rfl⟩
  · cases h
    exact ⟨rfl, .inl rfl⟩
  · replace h := ok_of_run h rfl
    generalize w.solver.values [] b 2 = vs at h
    match vs, h with
    | [], h | _ :: _ :: _, h =>
      cases h
      exact ⟨rfl, .inl rfl⟩
    | [_], h =>
      cases h
      exact ⟨rfl, .inr rfl⟩

lemma mark_spec (hl : l.Plain) (hv : v.state.arch = l.arch) (h : Parting l Γ hs v c.world)
    (hrun : mark (.bits b) guard jumpkind exit instruction c = .ok () c') :
    c'.out = c.out ∧ ∃ g q, (∀ μ, g.eval μ = guard.eval μ) ∧ (q = b ∨ q.symbolic = false) ∧
      Parting { l with guard := g, exit, target := some (.bits q) } Γ hs v c'.world := by
  have hP := parting_passage Γ hs hl hv
  replace hrun := ok_of_run hrun rfl
  obtain ⟨_, c1, hw1, ho1, hrun⟩ := ok_of_exec hrun
  obtain ⟨_, c2, hw2, ho2, hrun⟩ := ok_of_exec hrun
  have hmarked := parting_modifyScratch ((modifyEpoch_steady hP).of_ok h hw1) rfl hw2
  replace hrun := ok_of_run hrun rfl
  have ho2 := ho2.trans ho1
  -- the guard in simpler form
  obtain ⟨g, c4, hg, ho4, h, hrun⟩ : ∃ g, ∃ c4, (∀ μ, g.eval μ = guard.eval μ) ∧ c4.out = c.out ∧
      Parting { l with guard := g, exit, target := some (.bits b) } Γ hs v c4.world ∧ aim (.bits b) c4 = .ok () c' := by
    split at hrun
    · obtain ⟨g, c3, hw3, ho3, hrun⟩ := ok_of_exec hrun
      obtain ⟨g', hg', hmean⟩ := simplifyCond_run guard c2.world
      have hmean := hmean (hmarked.on.solver ▸ hl.folds)
      obtain ⟨rfl, hw⟩ := Result.ok.inj (hg'.symm.trans hw3)
      obtain ⟨_, c4, hw4, ho4, hrun⟩ := ok_of_exec hrun
      have hmarked := hw ▸ hmarked
      have hnext := parting_modifyScratch hmarked rfl hw4
      rw [show ((fun s => { s with guard := g' } : Scratch → Scratch) c3.world.state.scratch).exitStmt = exit from hmarked.on.exit,
        show ((fun s => { s with guard := g' } : Scratch → Scratch) c3.world.state.scratch).target = some (.bits b) from
          hmarked.on.target] at hnext
      exact ⟨g', c4, hmean, ho4.trans (ho3.trans ho2), hnext, hrun⟩
    · exact ⟨guard, _, fun _ => rfl, ho2, hmarked, hrun⟩
  -- and then the target
  replace hrun := ok_of_run hrun rfl
  split at hrun
  · obtain ⟨q, c5, hw5, ho5, hrun⟩ := ok_of_exec hrun
    obtain ⟨hw, hq⟩ := simplify_cases hw5
    obtain ⟨hw6, ho6⟩ := exec_ok hrun
    have h := hw ▸ h
    have hlast := parting_modifyScratch h rfl hw6
    rw [show ((fun s => { s with target := some (.bits q) } : Scratch → Scratch) c5.world.state.scratch).guard = g from h.on.guard,
      show ((fun s => { s with target := some (.bits q) } : Scratch → Scratch)
        c5.world.state.scratch).exitStmt = exit from h.on.exit] at hlast
    exact ⟨ho6.trans (ho5.trans ho4), g, q, hg, hq, hlast⟩
  · cases hrun
    exact ⟨ho4, g, b, hg, .inl rfl, h⟩

lemma attributeCond_run {k} (h : Shown w k (.cond guard)) : attributeCond k guard w = .ok guard w := bind_of_ok (attr_run h)

lemma attributeKind_run (h : Shown w "exit_jumpkind" (.str jumpkind)) : attributeKind jumpkind w = .ok jumpkind w :=
  bind_of_ok (attr_run h)

lemma arrive_spec (hl : l.Plain) (ha : l.arch.Regular) (hv : v.state.arch = l.arch) (h : Parting l Γ hs v c.world)
    (hrun : arrive (.bits b) guard jumpkind exit instruction true c = .ok () c') :
    c'.out = c.out ∧ ∃ g q, (∀ μ, g.eval μ = guard.eval μ) ∧ (q = b ∨ q.symbolic = false) ∧
      Parting { l with guard := g, exit, target := some (.bits q) } (fun μ => guard.eval μ = true ∧ Γ μ) hs v
        c'.world := by
  have hP := parting_passage Γ hs hl hv
  -- without breakpoints the exit is as it was asked for
  obtain ⟨_, c1, hw1, ho1, hrun⟩ := ok_of_exec hrun
  obtain ⟨w1, hinspect, -, -, hshown⟩ := inspect_run (r := .memory) "exit" .before (exitAttrs (.bits b) guard jumpkind)
    (show ["exit_target", "exit_guard", "exit_jumpkind"].Nodup by decide) h.on.quiet
  obtain ⟨-, rfl⟩ := Result.ok.inj (hinspect.symm.trans hw1)
  have h := (inspect_steady hP).of_ok h hw1
  obtain ⟨target, c2, hw2, ho2, hrun⟩ := ok_of_exec hrun
  obtain ⟨rfl, he2⟩ := Result.ok.inj ((attributeQ_run (hshown _ _ (by simp [exitAttrs]))).symm.trans hw2)
  obtain ⟨g0, c3, hw3, ho3, hrun⟩ := ok_of_exec hrun
  obtain ⟨rfl, he3⟩ := Result.ok.inj ((attributeCond_run (he2 ▸ hshown _ _ (by simp [exitAttrs]))).symm.trans hw3)
  obtain ⟨kind, c4, hw4, ho4, hrun⟩ := ok_of_exec hrun
  obtain ⟨rfl, he4⟩ := Result.ok.inj ((attributeKind_run (he3 ▸ he2 ▸ hshown _ _ (by simp [exitAttrs]))).symm.trans hw4)
  rw [he2, he3, he4] at h
  obtain ⟨_, c5, h5, hrun⟩ := ok_of_bind hrun
  obtain ⟨ho5, g, q, hg, hq, h⟩ := mark_spec hl hv h h5
  -- the guard is added
  replace hrun := ok_of_run hrun rfl
  obtain ⟨_, c7, hw7, ho7, hrun⟩ := ok_of_exec hrun
  have hplain : Lane.Plain { l with guard := g, exit, target := some (.bits q) } := hl.congr rfl rfl
  obtain ⟨w7, hadds, hon, hcommons, hscratch, hparts⟩ := h.on.adds hplain [c5.world.state.scratch.guard] false
  obtain ⟨-, rfl⟩ := Result.ok.inj (hadds.symm.trans hw7)
  have hmeets : ∀ μ, μ.Meets [c5.world.state.scratch.guard] ∧ Γ μ ↔ guard.eval μ = true ∧ Γ μ := fun μ => by
    rw [h.on.guard, ← hg μ]
    exact and_congr_left fun _ => ⟨fun hm => hm g (mem_singleton.2 rfl), fun hm c hc => mem_singleton.1 hc ▸ hm⟩
  have h := h.congr (hon.congr hmeets) hcommons (fun r _ => hparts r) (hon.arch.trans h.on.arch.symm) (congrArg Scratch.temps hscratch)
  have hP := parting_passage (fun μ => guard.eval μ = true ∧ Γ μ) hs hplain hv
  -- and the jump is made
  obtain ⟨hw', ho'⟩ := exec_ok hrun
  have hjump := (setIp_passes hP ha).of_ok h (by rw [← h.on.arch]; exact hw')
  exact ⟨ho'.trans (ho7.trans (ho5.trans (ho4.trans (ho3.trans (ho2.trans ho1))))), g, q, hg, hq, hjump⟩

/-- The state is the next in the pool and in the list of all successors. -/
structure Enlisted (c c' : Course) : Prop where
  all : c'.out.all = c.out.all ++ [c.out.pool.size]
  entry : c'.out.pool[c.out.pool.size]? = some c'.world.state
  keeps : ∀ j < c.out.pool.size, c'.out.pool[j]? = c.out.pool[j]?

section
variable (hl : l.Plain) (hexact : l.solver.Exact) (ha : l.arch.Regular) (hv : v.state.arch = l.arch)
  (haim : ∀ b, l.target = some (.bits b) → b.symbolic = true → b.Formed)
include hl hexact ha hv haim

/-- **The current state is listed** by what is known of it. -/
theorem categorize_passes (old : Successors) (h : Parting l Γ hs v c.world) (hall : c.out.all = old.all)
    (hthere : old.pool.size < c.out.pool.size) (hkeeps : ∀ j < old.pool.size, c.out.pool[j]? = old.pool[j]?) :
    Under (Parting l Γ hs v) old.Listed (leaves (categorize old.pool.size) c) := by
  have hP := parting_passage Γ hs hl hv
  let P := Under (Parting l Γ hs v) old.Listed
  have list : ∀ {f : Successors → Successors} {c}, (∀ o, (f o).all = o.all ∧ (f o).pool = o.pool) →
      Steady P (modifyOut f) c := fun {f c} hf ⟨hP, ho⟩ =>
    ⟨hP, show old.Listed (f c.out) from ⟨(hf _).1.trans ho.all, (hf c.out).2 ▸ ho.there, (hf c.out).2 ▸ ho.keeps⟩⟩
  have lift : ∀ {α : Type} {x : Exec α} {c}, (∀ w, Steady (Parting l Γ hs v) x w) →
      Steady P (exec x) c := fun hx => exec_steady (hx _)
  have flat : ∀ i c, Steady P (listFlat i) c := fun _ _ => list fun _ => ⟨rfl, rfl⟩
  have plain : ∀ i c, Steady P (listPlain i) c := fun _ _ => list fun _ => ⟨rfl, rfl⟩
  have unsat : ∀ i c, Steady P (listUnsat i) c := fun _ _ => list fun _ => ⟨rfl, rfl⟩
  have loose : ∀ i c, Steady P (listUnconstrained i) c := fun _ _ => list fun _ => ⟨rfl, rfl⟩
  rw [categorize, Paged.leaves_bind (x := modifyOut _) rfl]
  refine (?_ : Steady P _ _) ⟨h, ⟨congrArg (· ++ [old.pool.size]) hall, hthere, hkeeps⟩⟩
  refine .read rfl ?_
  refine .bind (lift fun _ => .get) fun _ _ _ => .ite (fun _ => unsat _ _) fun _ => ?_
  refine .bind (lift fun _ => .get) fun _ _ _ => .bind (lift fun _ => solverSatisfiable_steady hP) fun _ _ _ => ?_
  refine .ite (fun _ => unsat _ _) fun _ => .ite (fun _ => unsat _ _) fun _ => ?_
  refine .bind (lift fun _ => .get) fun _ _ _ => .bind (lift fun _ => satisfiable_steady hP) fun _ _ _ => ?_
  refine .ite (fun _ => unsat _ _) fun _ => .bind (lift fun _ => .get) fun _ _ _ => ?_
  refine .ite (fun _ => loose _ _) fun _ => .ite (fun _ => (plain _ _).seq <| flat _ _) fun hsym => ?_
  refine .ite (fun _ => ?_) fun hsys => ?_
  · -- a system call
    refine (plain _ _).seq <| .bind (lift fun _ => ip_passes hP ha) fun b _ _ => ?_
    refine .bind (lift fun _ => setSyscallIp_passes hP ha) fun _ _ _ => ?_
    refine .bind (lift fun _ => systemCallNumbers_passes hP ha) fun nvs _ _ => ?_
    obtain ⟨n, vs⟩ := nvs
    cases vs with
    | none => exact .bind (lift fun _ => enterSystemCall_steady) fun _ _ _ => flat _ _
    | some vs =>
      refine .forM _ fun v _ t => splitFlat_passes fun hs w => ?_
      refine away_adds.seq ?_
      exact (downsizeInspector_steady away_loose.toPageable.central).seq <| enterSystemCall_steady
  · -- a target with symbols
    have hsymbolic : (c.world.state.scratch.target.getD (.num 0)).symbolic = true := by simpa [hsys] using hsym
    obtain ⟨b, hb, hbits, hbsym⟩ : ∃ b, l.target = some (.bits b) ∧
        (c.world.state.scratch.target.getD (.num 0)).toBits c.world.state.arch.bits = b ∧ b.symbolic = true := by
      rw [h.on.target] at hsymbolic ⊢
      match hq : l.target with
      | none => exact nomatch hq ▸ hsymbolic
      | some (.num n) => exact nomatch hq ▸ hsymbolic
      | some (.bits b) =>
        rw [hq] at hsymbolic
        exact ⟨b, rfl, rfl, hsymbolic⟩
    have hexact : ∀ w, Parting l Γ hs v w → w.solver.Exact := fun w hw => hw.on.solver ▸ hexact
    refine .bind (.tryCatch (.map _ (lift fun _ => ?_)) fun f t => .orElse fun _ => .throw _) fun vs _ _ => ?_
    · exact jumpTargets_passes hP hexact (hbits ▸ haim b hb hbsym)
    cases vs with
    | none => exact unsat _ _
    | some vs =>
      refine .ite (fun _ => loose _ _) fun _ => ?_
      refine .bind (.forM _ fun v _ t => splitFlat_passes fun hs w => ?_) fun _ _ _ => plain _ _
      have last : ∀ {hs} {w : World}, Steady (Away hs l.solver) downsizeInspector w :=
        downsizeInspector_steady away_loose.toPageable.central
      refine .seq .get <| .ite (fun _ => ?_) fun _ => ?_
      · exact away_setRegAt.seq <| last
      · exact away_adds.seq <| away_setRegAt.seq <| last

lemma enlist_spec (h : Parting l Γ hs v c.world) {attrs}
    (hrun : enlist attrs c = .ok () c') : Enlisted c c' ∧ Parting l Γ hs v c'.world := by
  have hP := parting_passage Γ hs hl hv
  replace hrun := ok_of_run hrun rfl
  obtain ⟨_, c2, h2, hrun⟩ := ok_of_bind hrun
  have hlisted := categorize_passes (c := ⟨c.world, { c.out with pool := c.out.pool.push c.world.state }⟩) hl hexact ha hv haim c.out h rfl
    (by rw [size_push]; exact Nat.lt_succ_self _) fun j hj => (getElem?_push_lt hj).trans (Array.getElem?_eq_getElem hj).symm
  rw [leaves, show categorize c.out.pool.size ⟨c.world, { c.out with pool := c.out.pool.push c.world.state }⟩ = _ from h2] at hlisted
  obtain ⟨_, c3, h3, hrun⟩ := ok_of_bind hrun
  have hlisted := (exec_steady (inspect_steady hP)).of_ok hlisted h3
  obtain ⟨_, c4, h4, hrun⟩ := ok_of_bind hrun
  obtain ⟨hparting, hlisted⟩ := (exec_steady (downsizeInspector_steady hP)).of_ok hlisted h4
  -- at the end the place in the pool gets the state as it is by then
  cases hrun
  refine ⟨⟨hlisted.all, ?_, fun j hj => ?_⟩, hparting⟩
  · exact (getElem?_setIfInBounds_self_of_lt hlisted.there)
  · exact (getElem?_setIfInBounds_ne (Nat.ne_of_gt hj)).trans (hlisted.keeps j hj)

lemma depart_spec (hroot : Rooted c.world) (h : Parting l Γ hs v c.world) {target}
    (hrun : depart target guard jumpkind c = .ok () c') :
    Enlisted c c' ∧ Parting { l with settings := (l.settings.erase .astDeps).erase .autoRefs } Γ hs v c'.world := by
  have hP := parting_passage Γ hs hl hv
  obtain ⟨_, c1, hw1, ho1, hrun⟩ := ok_of_exec hrun
  have h := (followCalls_passes hP ha hroot).of_ok h hw1
  replace hrun := ok_of_run hrun rfl
  -- the settings of a successor
  have hplain : Lane.Plain { l with settings := (l.settings.erase .astDeps).erase .autoRefs } := by
    refine ⟨hl.folds, ?_, ?_, ?_⟩ <;>
    · rw [Settings.has_erase _ (by decide), Settings.has_erase _ (by decide)]
      first | exact hl.tracked | exact hl.symbolic | exact hl.assigned
  split at hrun
  on_goal 1 =>
    obtain ⟨_, c3, hw3, ho3, hrun⟩ := ok_of_exec hrun
    replace ho1 := ho3.trans ho1
    replace h := (inspect_steady hP).of_ok h hw3
  all_goals
    obtain ⟨_, c4, hw4, ho4, hrun⟩ := ok_of_exec hrun
    obtain ⟨-, hw4⟩ := Result.ok.inj hw4
    have h : Parting { l with settings := (l.settings.erase .astDeps).erase .autoRefs } Γ hs v c4.world := by
      rw [← hw4]
      refine h.congr ⟨h.on.quiet, ?_, h.on.solver, h.on.arch, h.on.guard, h.on.exit, h.on.target, h.on.meets⟩ rfl (fun r hr => ?_) rfl rfl
      · exact congrArg (fun s => (s.erase .astDeps).erase .autoRefs) h.on.settings
      · cases hr <;> rfl
    obtain ⟨henlisted, h⟩ := enlist_spec hplain hexact ha hv haim h hrun
    have ho := ho4.trans ho1
    exact ⟨⟨ho ▸ henlisted.all, ho ▸ henlisted.entry, ho ▸ henlisted.keeps⟩, h⟩

end

/-- **A state is added as a successor**: it has the guard as a condition and otherwise what it had. -/
theorem addSuccessor_spec (hl : l.Plain) (hexact : l.solver.Exact) (ha : l.arch.Regular) (hv : v.state.arch = l.arch)
    (hb : b.symbolic = true → b.Formed) (h : Parting l Γ hs v c.world)
    (hroot : After (arrive (.bits b) guard jumpkind exit instruction) c fun _ c1 => Rooted c1.world)
    (hrun : addSuccessor (.bits b) guard jumpkind exit instruction true c = .ok () c') :
    Enlisted c c' ∧ ∃ g q, (∀ μ, g.eval μ = guard.eval μ) ∧
      Parting { l with settings := (l.settings.erase .astDeps).erase .autoRefs, guard := g, exit, target := some (.bits q) }
        (fun μ => guard.eval μ = true ∧ Γ μ) hs v c'.world := by
  obtain ⟨_, c1, h1, hrun⟩ := ok_of_bind hrun
  obtain ⟨ho1, g, q, hg, hq, h⟩ := arrive_spec hl ha hv h h1
  have hplain : Lane.Plain { l with guard := g, exit, target := some (.bits q) } := hl.congr rfl rfl
  have haim : ∀ b', (some (.bits q) : Option Quantity) = some (.bits b') → b'.symbolic = true → b'.Formed := by
    intro b' he hsym
    obtain rfl := Quantity.bits.inj (some.inj he)
    obtain rfl | hq := hq
    · exact hb hsym
    · exact nomatch hsym.symm.trans hq
  obtain ⟨henlisted, h⟩ := depart_spec hplain hexact ha hv haim (hroot _ c1 h1) h hrun
  exact ⟨⟨ho1 ▸ henlisted.all, ho1 ▸ henlisted.entry, ho1 ▸ henlisted.keeps⟩, g, q, hg, h⟩

end

end Stepping

end SymExec
