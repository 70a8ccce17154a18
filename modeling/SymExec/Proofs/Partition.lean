import SymExec.Engine.Run
import SymExec.Proofs.Flat
import SymExec.Proofs.Successor

/-!
# The successors of a block

A block is left by one of its exits or at its end.
-/

namespace SymExec

open List Cond World EStateM

open Paged (leaves)
open Exec

def BlockOptions.takes (o : BlockOptions) (b : Ir.Block) (fast : Bool) (i : Nat) : Bool :=
  (if fast then max o.skip (Stepping.fastSkip b.stmts) else o.skip) ≤ i && o.last.all ((i : Int) ≤ ·) && o.whitelist.all (·.contains i)

/-- The course in which the statements of a block are run. -/
def Course.enter (c : Course) (b : Ir.Block) : Course where
  world := { c.world with state := { c.world.state with scratch := { c.world.state.scratch with block := some b.addr } } }
  out := { c.out with block := some b }

/-! ### Worlds at the start -/

lemma State.empty_part_blank {r} (hr : r.Main) (arch mode settings) : ((State.blank arch mode settings).part r).paged.Empty := by
  cases hr with
  | memory => exact empty_blank arch mode settings
  | registers =>
    simp only [State.part, State.blank]
    split <;> exact ⟨fun n => by simp [Memory.empty], rfl⟩

variable {w : World}

lemma World.orderly_of_empty (hq : w.Quiet) (h : ∀ r, r.Main → (w.state.part r).paged.Empty) : w.Orderly where
  quiet := hq
  placed r hr := (h r hr).placed _
  tidy r hr := ((h r hr).sound _).page
  apart _ r' _ hr' _ _ _ n hn := nomatch ((h r' hr').pages n).symm.trans hn

/-! ### Models and successors -/

namespace Successors

/-- A model goes to a successor: it meets the guard and the conditions of it. -/
def Takes (o : Successors) (i : Nat) (μ : Model) : Prop := ∃ s, o.pool[i]? = some s ∧ μ.Meets (s.scratch.guard :: s.constraints)

def takers (o : Successors) (μ : Model) : List Nat :=
  o.all.filter fun i => o.pool[i]?.any fun s => decide (μ.Meets (s.scratch.guard :: s.constraints))

/-- Of the models in `Γ₀` those in `Γ` are under way, and each of the others went to one successor. -/
structure Divides (o : Successors) (Γ₀ Γ : Model → Prop) : Prop where
  nodup : o.all.Nodup
  below : ∀ i ∈ o.all, i < o.pool.size
  within : ∀ i ∈ o.all, ∀ μ, o.Takes i μ → Γ₀ μ ∧ ¬ Γ μ
  rest : ∀ μ, Γ μ → Γ₀ μ
  taken : ∀ μ, Γ₀ μ → ¬ Γ μ → ∃! i, i ∈ o.all ∧ o.Takes i μ

variable {o : Successors} {Γ₀ Γ : Model → Prop}

lemma divides_start (h : o.all = []) : o.Divides Γ₀ Γ₀ where
  nodup := h ▸ nodup_nil
  below _ hi := absurd (h ▸ hi) not_mem_nil
  within _ hi := absurd (h ▸ hi) not_mem_nil
  rest _ := id
  taken _ h0 hn := absurd h0 hn

lemma Divides.congr {Δ} (h : o.Divides Γ₀ Γ) (hΓ : ∀ μ, Γ μ ↔ Δ μ) : o.Divides Γ₀ Δ := (funext fun μ => propext (hΓ μ)) ▸ h

end Successors

abbrev State.leaving (s : State) : List Cond := s.scratch.guard :: s.constraints

namespace Stepping

variable {i : Nat} {s : Ir.Stmt}

section
variable {c c' : Course} {Γ₀ Γ g : Model → Prop}

/-- **One more successor** takes some of the models that were under way. -/
theorem Enlisted.divides (h : Enlisted c c') (hd : c.out.Divides Γ₀ Γ) (hg : ∀ μ, μ.Meets c'.world.state.leaving ↔ g μ ∧ Γ μ) :
    c'.out.Divides Γ₀ fun μ => ¬ g μ ∧ Γ μ := by
  have hmem : ∀ i, i ∈ c'.out.all ↔ i ∈ c.out.all ∨ i = c.out.pool.size := fun i => by rw [h.all, mem_append, mem_singleton]
  have hself : ∀ μ, c'.out.Takes c.out.pool.size μ ↔ g μ ∧ Γ μ := fun μ => by
    rw [← hg, Successors.Takes, h.entry]
    exact ⟨fun ⟨s, hs, hm⟩ => Option.some.inj hs ▸ hm, fun hm => ⟨_, rfl, hm⟩⟩
  have hold : ∀ i ∈ c.out.all, ∀ μ, c'.out.Takes i μ ↔ c.out.Takes i μ := fun i hi μ => by
    rw [Successors.Takes, h.keeps i (hd.below i hi), Successors.Takes]
  refine ⟨?_, fun i hi => ?_, fun i hi μ ht => ?_, fun μ hμ => hd.rest μ hμ.2, fun μ h0 hn => ?_⟩
  · rw [h.all]
    exact nodup_append.2 ⟨hd.nodup, pairwise_singleton _ _, fun i hi j hj => mem_singleton.1 hj ▸ (hd.below i hi).ne⟩
  · have hsize : c.out.pool.size < c'.out.pool.size := (Array.getElem?_eq_some_iff.1 h.entry).1
    obtain hi | rfl := (hmem i).1 hi
    · exact (hd.below i hi).trans hsize
    · exact hsize
  · obtain hi | rfl := (hmem i).1 hi
    · obtain ⟨h0, hn⟩ := hd.within i hi μ ((hold i hi μ).1 ht)
      exact ⟨h0, fun hμ => hn hμ.2⟩
    · obtain ⟨hgμ, hΓ⟩ := (hself μ).1 ht
      exact ⟨hd.rest μ hΓ, fun hμ => hμ.1 hgμ⟩
  · by_cases hΓ : Γ μ
    · -- it went to the new one, and to no other since it was under way
      have hgμ : g μ := Classical.byContradiction fun hng => hn ⟨hng, hΓ⟩
      refine ⟨c.out.pool.size, ⟨(hmem _).2 (.inr rfl), (hself μ).2 ⟨hgμ, hΓ⟩⟩, fun i hi => ?_⟩
      obtain hmi | he := (hmem i).1 hi.1
      · exact absurd hΓ (hd.within i hmi μ ((hold i hmi μ).1 hi.2)).2
      · exact he
    · obtain ⟨i, hi, hone⟩ := hd.taken μ h0 hΓ
      refine ⟨i, ⟨(hmem i).2 (.inl hi.1), (hold i hi.1 μ).2 hi.2⟩, fun j hj => ?_⟩
      obtain hmj | rfl := (hmem j).1 hj.1
      · exact hone j ⟨hmj, (hold j hmj μ).1 hj.2⟩
      · exact absurd ((hself μ).1 hj.2).2 hΓ

end

/-! ### Work inside a block -/

section
variable {P : World → Prop} {Q : Successors → Prop} {c c' : Course} {α : Type}

section
variable (hP : Central P)
include hP

lemma announce_steady : Steady (Under P Q) (announce i) c :=
  (exec_steady (modifyScratch_steady hP rfl rfl rfl rfl)).seq <| exec_steady (inspect_steady hP)

lemma startInstruction_steady {addr len delta} : Steady (Under P Q) (startInstruction addr len delta) c := by
  have told : ∀ {event moment attrs} {c}, Steady (Under P Q) (exec (inspect event moment attrs)) c :=
    exec_steady (inspect_steady hP)
  refine (exec_steady (modifyScratch_steady hP rfl rfl rfl rfl)).seq <| (exec_steady .get).seq <| .orElse fun _ => ?_
  exact told.seq <| (exec_steady (modifyScratch_steady hP rfl rfl rfl rfl)).seq <| told.done

lemma actions_steady {as : List Action} : Steady (Under P Q) (as.forM fun a => exec (act a)) c :=
  .forM _ fun _ _ _ => exec_steady (act_steady hP)

end

lemma perform_steady (hP : World.Frame P) (hs : s.Concrete c.world)
    (hexit : ∀ guard target jumpkind, s ≠ .exit guard target jumpkind) : Steady (Under P Q) (perform i s) c := by
  have last {c : Course} : Steady (Under P Q) (do
      inspect "statement" .after []
      return false) c := (exec_steady (inspect_steady hP)).done
  cases s with
  | mark addr len delta =>
    refine (startInstruction_steady hP).seq <| .orElse fun _ => ?_
    exact (exec_steady (runStatement_steady hP (.mark addr len delta) trivial)).seq last
  | exit guard target jumpkind => exact absurd rfl (hexit guard target jumpkind)
  | _ => exact (exec_steady (runStatement_steady hP _ hs)).seq <| (actions_steady hP).seq last

lemma onState_ok {s s' : State} {act} {a : α} (h : onState s act c = .ok (a, s') c') :
    ∃ d, act { c with world := { c.world with state := s } } = .ok a d ∧
      c' = { d with world := { d.world with state := c.world.state } } := by
  unfold onState at h
  split at h
  · rename_i d hd
    obtain ⟨he, rfl⟩ := Result.ok.inj h
    obtain ⟨rfl, -⟩ := Prod.mk.inj he
    exact ⟨_, hd, rfl⟩
  · cases h

end

/-! ### Leaving a block -/

/-- How a state left a block, and the course at the time: its guard or its next address was just found. -/
inductive Left (taken : Nat → Bool) (b : Ir.Block) (c : Course) (s : State) : Course → Prop
  /-- By an exit, after the statements before it, if its guard is not zero. -/
  | exit {k : Nat} {guard : Ir.Expr} {target : Ir.Const} {jumpkind : String} {ck cv : Course} {g : Operand}
    (stmt : b.stmts[k]? = some (.exit guard target jumpkind)) (run : runStmts taken 0 (b.stmts.take k) c = .ok .reached ck)
    (found : (announce k >>= fun _ => exec (operand guard)) ck = .ok g cv) (place : s.scratch.exitStmt = some (.atStmt k))
    (meets : ∀ μ : Model, μ.Meets (s.scratch.guard :: s.constraints) ↔ (bitsOf g).eval μ ≠ 0 ∧ μ.Meets cv.world.state.constraints) :
    Left taken b c s cv
  | rest {cn cv : Course} {g : Operand} (run : runStmts taken 0 b.stmts c = .ok .reached cn)
    (found : (close b >>= fun _ => exec (operand b.next)) cn = .ok g cv) (place : s.scratch.exitStmt = some .atEnd)
    (meets : ∀ μ : Model, μ.Meets (s.scratch.guard :: s.constraints) ↔ μ.Meets cv.world.state.constraints) : Left taken b c s cv

/-- A state that left a block has what it had by then, as long as some memories stay as they are. -/
def Gone (taken : Nat → Bool) (b : Ir.Block) (c : Course) (hs : List (Paged × Unshared)) (s : State) : Prop :=
  s.settings.has .doRetEmulation = false ∧ ∃ cv, Left taken b c s cv ∧ ∀ w, Holds hs w → Carries cv.world { w with state := s }

/-- A block under way: the state is on a path whose models did not leave, and the others left by the successors so far. -/
structure Splits (taken : Nat → Bool) (b : Ir.Block) (c₀ : Course) (Γ₀ : Model → Prop) (l : Lane) (Γ : Model → Prop)
    (hs : List (Paged × Unshared)) (c : Course) : Prop where
  on : On l Γ c.world
  holds : Holds hs c.world
  guard : ∀ μ, Γ μ → l.guard.eval μ = true
  divides : c.out.Divides Γ₀ Γ
  gone : ∀ i ∈ c.out.all, ∃ s, c.out.pool[i]? = some s ∧ Gone taken b c₀ hs s

section
variable {taken : Nat → Bool} {b : Ir.Block} {c₀ c c' : Course} {Γ₀ Γ : Model → Prop} {l : Lane} {hs hs' : List (Paged × Unshared)}
  {jumpkind : String} {p : Scalar × State} {target : Ir.Const} {v : World} {i : Nat} {P : World → Prop} {o : BlockOptions}

lemma Splits.steady (h : Splits taken b c₀ Γ₀ l Γ hs c) {α : Type} {x} {a : α}
    (hx : Steady (Under (fun w => On l Γ w ∧ Holds hs w) (· = c.out)) x c) (hrun : x c = .ok a c') :
    Splits taken b c₀ Γ₀ l Γ hs c' := by
  obtain ⟨⟨hon, hholds⟩, ho⟩ := hx.of_ok ⟨⟨h.on, h.holds⟩, rfl⟩ hrun
  exact ⟨hon, hholds, h.guard, ho ▸ h.divides, ho ▸ h.gone⟩

lemma constant_symbolic {t w'} (h : constant target w = .ok t w') : t.toBits.symbolic = false := by
  cases target with
  | num ty n =>
    cases h
    rfl
  | flt s n =>
    obtain ⟨_, _, -, h⟩ := ok_of_bind h
    split at h
    · cases h
    · cases h
      rfl

lemma ready_spec (hl : l.Plain) (hv : v.state.arch = l.arch) (h : Parting l Γ hs v c.world) {g : Operand}
    (hrun : ready target g c = .ok p c') : c'.out = c.out ∧ p.1.toBits.symbolic = false ∧ c'.world.Bare ∧
    Parting l Γ hs v c'.world ∧ Parting l Γ (c'.world.parts ++ hs) v { c'.world with state := p.2 } := by
  have hP := parting_passage Γ hs hl hv
  obtain ⟨t, c₁, hw1, ho1, hrun⟩ := ok_of_exec hrun
  have h := constant_steady.of_ok h hw1
  have ht := constant_symbolic hw1
  replace hrun := ok_of_run hrun rfl
  split at hrun
  on_goal 1 =>
    obtain ⟨_, c₃, hw3, ho3, hrun⟩ := ok_of_exec hrun
    replace ho1 := ho3.trans ho1
    replace h := tracked_steady.of_ok h hw3
    replace hrun := ok_of_run hrun rfl
  all_goals
    replace hrun := ok_of_run hrun rfl
    obtain ⟨_, c5, h5, hrun⟩ := ok_of_bind hrun
    obtain ⟨h, ho5⟩ := (actions_steady (Q := (· = c.out)) hP).of_ok ⟨h, ho1⟩ h5
    obtain ⟨copy, c6, hw6, ho6, hrun⟩ := ok_of_exec hrun
    cases hrun
    exact ⟨ho6.trans ho5, ht, h.fork hw6⟩

lemma Gone.mono {s} (h : Gone taken b c₀ hs s) (hsub : ∀ q ∈ hs, q ∈ hs') : Gone taken b c₀ hs' s := by
  obtain ⟨hset, cv, hleft, hcarries⟩ := h
  exact ⟨hset, cv, hleft, fun w hw => hcarries w ⟨hw.orderly, fun q hq => hw.shields q (hsub q hq)⟩⟩

lemma meets_cons {d : Cond} {cs μ} : μ.Meets (d :: cs) ↔ d.eval μ = true ∧ μ.Meets cs := forall_mem_cons

lemma Enlisted.gone (h : Enlisted c c') (hbelow : ∀ i ∈ c.out.all, i < c.out.pool.size)
    (hold : ∀ i ∈ c.out.all, ∃ s, c.out.pool[i]? = some s ∧ Gone taken b c₀ hs s) (hnew : Gone taken b c₀ hs' c'.world.state) :
    ∀ i ∈ c'.out.all, ∃ s, c'.out.pool[i]? = some s ∧ Gone taken b c₀ (hs' ++ hs) s := by
  intro i hi
  rw [h.all, mem_append, mem_singleton] at hi
  obtain hi | rfl := hi
  · obtain ⟨s, hs, hgone⟩ := hold i hi
    exact ⟨s, (h.keeps i (hbelow i hi)).trans hs, hgone.mono fun q hq => mem_append_right _ hq⟩
  · exact ⟨_, h.entry, hnew.mono fun q hq => mem_append_left _ hq⟩

/-- The stack pointer is a number if the jump is a call that leaves its return address on the stack. -/
def Lands (target : Quantity) (guard : Cond) (jumpkind : String) (exit : Option ExitPoint) (instruction : Option Nat) (c : Course) :
    Prop := After (arrive target guard jumpkind exit instruction) c fun _ c' => Rooted c'.world

/-! ### The run of a block -/

/-- A statement whose places are numbers; of an exit, the guard is a formed term, and if it is a call that leaves its return
address on the stack, the stack pointer is a number. -/
def Clear (k : Nat) (s : Ir.Stmt) (c : Course) : Prop :=
  s.Concrete c.world ∧ ∀ guard target jumpkind, s = .exit guard target jumpkind → After (exec (operand guard)) c fun g c =>
    (bitsOf g).Formed ∧ After (ready target g) c fun p c =>
      Lands (.bits p.1.toBits) (.nonzero (bitsOf g)) jumpkind (some (.atStmt k)) c.world.state.scratch.instruction
        { c with world := { c.world with state := p.2 } }

lemma runStmts_append {ss} (h : runStmts taken i ss c = .ok .reached c') (s) :
    runStmts taken i (ss ++ [s]) c = runStmts taken (i + ss.length) [s] c' := by
  induction ss generalizing i c with
  | nil =>
    cases h
    rfl
  | cons t ss ih =>
    rw [length_cons, Nat.add_comm ss.length, ← Nat.add_assoc]
    rw [runStmts] at h
    rw [cons_append, runStmts]
    split at h
    · rw [if_pos ‹_›]
      exact ih h
    · rw [if_neg ‹_›]
      obtain ⟨r, c₁, h₁, h⟩ := ok_of_bind h
      rw [bind_of_ok h₁]
      match r, h with
      | none, h => cases h
      | some true, h => cases h
      | some false, h => exact ih h

lemma runStmts_single (ht : taken i = true) (h : runStmt i s c = .ok false c') : runStmts taken i [s] c = .ok .reached c' := by
  rw [runStmts, if_neg (by simp [ht]), bind_of_ok (tryCatch_of_ok (map_of_ok h) _)]
  rfl

lemma runStmts_skip (ht : taken i = false) : runStmts taken i [s] c = .ok .reached c := by
  rw [runStmts, if_pos (by simp [ht])]
  rfl

/-- A block that runs to its end: no statement raises a fault or changes the code that follows, and the places that are accessed
are numbers. -/
structure Smooth (taken : Nat → Bool) (b : Ir.Block) (c : Course) : Prop where
  stmt : ∀ k s ck, b.stmts[k]? = some s → taken k = true → runStmts taken 0 (b.stmts.take k) c = .ok .reached ck →
    (∃ ck', runStmt k s ck = .ok false ck') ∧ After (announce k) ck fun _ c => Clear k s c
  rest : ∀ cn, runStmts taken 0 b.stmts c = .ok .reached cn → After (close b) cn fun _ c =>
    (∃ c', leaveBlock b c = .ok () c') ∧ b.next.Concrete c.world ∧ After (exec (operand b.next)) c fun next c =>
      ((bitsOf next).symbolic = true → (bitsOf next).Formed) ∧ After (settle next) c fun _ c =>
        Lands (.bits (bitsOf next)) c.world.state.scratch.guard b.jumpkind (some .atEnd) c.world.state.scratch.instruction c

lemma Splits.close (h : Splits taken b c₀ Γ₀ l Γ hs c) (hl : l.Plain) (hclose : close b c = .ok () c') :
    Splits taken b c₀ Γ₀ l Γ hs c' := by
  obtain ⟨_, c₁, h₁, hclose⟩ := ok_of_bind hclose
  cases hclose
  have hP := frame_of_paging (Γ := Γ) hl (holds_paging hs)
  have h := h.steady (exec_steady (modifyScratch_steady hP rfl rfl rfl rfl)) h₁
  exact ⟨h.on, h.holds, h.guard, ⟨h.divides.nodup, h.divides.below, h.divides.within, h.divides.rest, h.divides.taken⟩, h.gone⟩

lemma settle_steady {Q : Successors → Prop} (hP : Central P) {next} : Steady (Under P Q) (settle next) c := by
  refine (actions_steady hP).seq <| (exec_steady .get).seq <| .when fun _ => ?_
  exact (exec_steady tracked_steady).seq <| (exec_steady (.seq .get (.pure _))).seq <| exec_steady (act_steady hP)

section
variable (hl : l.Plain) (hexact : l.solver.Exact) (ha : l.arch.Regular) (hret : l.settings.has .doRetEmulation = false) {k : Nat}
include hl hexact ha hret

/-- **A state leaves** with the models of a guard; what it has it keeps while the others go on. -/
theorem addSuccessor_gone {cv : Course} (hv : cv.world.state.arch = l.arch) {target} (hb : target.symbolic = true → target.Formed)
    {guard : Cond}
    {exit instruction} (h : Parting l Γ hs cv.world c.world)
    (hland : Lands (.bits target) guard jumpkind exit instruction c)
    (hrun : addSuccessor (.bits target) guard jumpkind exit instruction true c = .ok () c')
    (hleft : c'.world.state.scratch.exitStmt = exit → (∀ μ, μ.Meets c'.world.state.leaving ↔ guard.eval μ = true ∧ Γ μ) →
      Left taken b c₀ c'.world.state cv) :
    Enlisted c c' ∧ (∀ μ, μ.Meets c'.world.state.leaving ↔ guard.eval μ = true ∧ Γ μ) ∧
      Holds hs c'.world ∧ c'.world.solver = l.solver ∧ Gone taken b c₀ c'.world.parts c'.world.state := by
  obtain ⟨henlisted, g, q, hg, h⟩ := addSuccessor_spec hl hexact ha hv hb h hland hrun
  have hmeets : ∀ μ, μ.Meets c'.world.state.leaving ↔ guard.eval μ = true ∧ Γ μ :=
    fun μ => by
      rw [meets_cons, h.on.guard, hg μ, h.on.meets μ]
      exact and_self_left
  refine ⟨henlisted, hmeets, h.holds, h.on.solver, ?_, cv, hleft h.on.exit hmeets, fun w hw => ?_⟩
  · rw [h.on.settings]
    exact (Settings.has_erase _ (by decide)).trans ((Settings.has_erase _ (by decide)).trans hret)
  · exact h.carries.held (fun _ hq => hq) hw

section
variable (h : Splits taken b c₀ Γ₀ l Γ hs c)
include h

/-- **An exit** takes the models of its guard from those under way. -/
theorem divide_splits {g}
    (hleft : ∀ s, s.scratch.exitStmt = some (.atStmt k) →
      (∀ μ, μ.Meets (s.scratch.guard :: s.constraints) ↔ (bitsOf g).eval μ ≠ 0 ∧ μ.Meets c.world.state.constraints) →
      Left taken b c₀ s c)
    (hg : (bitsOf g).Formed) {c₁} (hready : ready target g c = .ok p c₁)
    (hland : Lands (.bits p.1.toBits) (nonzero (bitsOf g)) jumpkind (some (.atStmt k)) c₁.world.state.scratch.instruction
      { c₁ with world := { c₁.world with state := p.2 } })
    (hrun : divide jumpkind k g p.1 p.2 c₁ = .ok () c') :
    ∃ d Γ' hs', Splits taken b c₀ Γ₀ { l with guard := d } Γ' hs' c' := by
  obtain ⟨ho1, hsym, hbare, hown, hcopy⟩ := ready_spec hl h.on.arch ⟨h.on, h.holds, carries_refl h.holds.orderly⟩ hready
  replace hrun := ok_of_run hrun rfl
  obtain ⟨⟨_, _⟩, c₃, h₃, hrun⟩ := ok_of_bind hrun
  obtain ⟨d, hadd, rfl⟩ := onState_ok h₃
  obtain ⟨henlisted, hmeets, hholds, hsolver, hgone⟩ : _ ∧ _ ∧ _ ∧ _ ∧ Gone taken b c₀ d.world.parts d.world.state :=
    addSuccessor_gone hl hexact ha hret h.on.arch (fun hs => nomatch hsym.symm.trans hs) hcopy hland hadd fun he hm =>
      hleft _ he fun μ => by rw [hm μ, eval_nonzero hg, h.on.meets μ]
  -- the state that goes on was held in the meantime
  have hback := hown.back hbare hholds hsolver
  have htrade := hholds.trade hown.holds.orderly hbare
  obtain ⟨_, c4, hw4, ho4, hrun⟩ := ok_of_exec hrun
  obtain ⟨hw', ho'⟩ := exec_ok hrun
  obtain ⟨w4, hadds, hon, hcommons, hscratch, hparts⟩ := hback.on.adds hl [(nonzero (bitsOf g)).mkNot] false
  obtain ⟨-, rfl⟩ := Result.ok.inj (hadds.symm.trans hw4)
  have hheld := (holds_paging _).congr _ _ htrade hon.quiet hcommons fun r _ => congrArg Memory.paged (hparts r)
  obtain ⟨-, hw'⟩ := Result.ok.inj hw'
  have ho : c'.out = d.out := ho'.trans ho4
  have hmeets' : ∀ μ, μ.Meets [(nonzero (bitsOf g)).mkNot] ∧ Γ μ ↔ ¬ (nonzero (bitsOf g)).eval μ = true ∧ Γ μ :=
    fun μ => and_congr_left fun _ => by
      rw [Model.Meets, forall_mem_singleton, eval_mkNot (formed_nonzero hg), Bool.not_eq_true', Bool.not_eq_true]
  refine ⟨mkAnd l.guard (nonzero (bitsOf g)).mkNot, fun μ => ¬ (nonzero (bitsOf g)).eval μ = true ∧ Γ μ,
    d.world.parts ++ hs, ?_, ?_, fun μ hμ => ?_, ?_, ?_⟩
  · rw [← hw']
    have hon := hon.congr hmeets'
    exact ⟨hon.quiet, hon.settings, hon.solver, hon.arch, congrArg (mkAnd · _) hon.guard, hon.exit, hon.target, hon.meets⟩
  · rw [← hw']
    exact (holds_paging _).congr _ _ hheld hon.quiet rfl fun r hr => by cases hr <;> rfl
  · rw [eval_mkAnd, h.guard μ hμ.2, eval_mkNot (formed_nonzero hg), Bool.eq_false_iff.2 hμ.1]
    rfl
  · rw [ho]
    exact henlisted.divides (ho1 ▸ h.divides) hmeets
  · rw [ho]
    exact henlisted.gone (ho1 ▸ h.divides.below) (ho1 ▸ h.gone) hgone

/-- **One statement** keeps the division; if it is an exit, it takes the models of its guard. -/
theorem runStmt_splits (hstmt : b.stmts[k]? = some s)
    (hreached : runStmts taken 0 (b.stmts.take k) c₀ = .ok .reached c) (hclear : After (announce k) c fun _ c => Clear k s c)
    {r} (hrun : runStmt k s c = .ok r c') : ∃ d Γ' hs', Splits taken b c₀ Γ₀ { l with guard := d } Γ' hs' c' := by
  have hP : ∀ {l} {Γ : Model → Prop} {hs : List (Paged × Unshared)}, l.Plain →
      World.Frame fun w => On l Γ w ∧ Holds hs w := fun hl => frame_of_paging hl (holds_paging _)
  obtain ⟨_, c₁, h₁, hrun⟩ := ok_of_bind hrun
  obtain ⟨hconcrete, hexit⟩ := hclear _ c₁ h₁
  have h := h.steady (announce_steady (hP hl).central) h₁
  by_cases hs' : ∃ guard target jumpkind, s = .exit guard target jumpkind
  · obtain ⟨guard, target, jumpkind, rfl⟩ := hs'
    obtain ⟨_, c₂, h₂, hrun⟩ := ok_of_bind hrun
    obtain ⟨g, c₃, h₃, h₂⟩ := ok_of_bind h₂
    obtain ⟨p, c4, h₄, h₂⟩ := ok_of_bind h₂
    obtain ⟨hg, hland⟩ := hexit guard target jumpkind rfl g c₃ h₃
    have h := h.steady (exec_steady (operand_steady (hP hl) guard _ hconcrete)) h₃
    have hfound : (announce k >>= fun _ => exec (operand guard)) c = .ok g c₃ := (bind_of_ok h₁).trans h₃
    obtain ⟨d, Γ', hs', h⟩ := divide_splits hl hexact ha hret h (fun _ hplace hmeets => .exit hstmt hreached hfound hplace hmeets) hg h₄
      (hland p c4 h₄) h₂
    have hl' : Lane.Plain { l with guard := d } := hl.congr rfl rfl
    refine ⟨d, Γ', hs', h.steady ?_ hrun⟩
    exact (exec_steady (inspect_steady (hP hl').central.blind)).done
  · exact ⟨l.guard, Γ, hs, h.steady (perform_steady (hP hl) hconcrete fun g t j he => hs' ⟨g, t, j, he⟩) hrun⟩

end

/-- **The statements up to a place** divide the models among the exits so far. -/
theorem runStmts_splits (hstart : Splits taken b c Γ₀ l Γ hs c) (hsmooth : Smooth taken b c) (hk : k ≤ b.stmts.length) :
    ∃ ck d Γ' hs', runStmts taken 0 (b.stmts.take k) c = .ok .reached ck ∧ Splits taken b c Γ₀ { l with guard := d } Γ' hs' ck := by
  induction k with
  | zero => exact ⟨c, l.guard, Γ, hs, rfl, hstart⟩
  | succ k ih =>
    obtain ⟨ck, d, Γ', hs', hrun, h⟩ := ih (Nat.le_of_succ_le hk)
    have hstmt : b.stmts[k]? = some (b.stmts[k]) := getElem?_eq_getElem hk
    have hnext : runStmts taken 0 (b.stmts.take (k + 1)) c = runStmts taken k [b.stmts[k]] ck := by
      rw [take_add_one, hstmt, Option.toList_some, runStmts_append hrun, Nat.zero_add, length_take_of_le (Nat.le_of_succ_le hk)]
    cases ht : taken k with
    | false => exact ⟨ck, d, Γ', hs', hnext.trans (runStmts_skip ht), h⟩
    | true =>
      obtain ⟨⟨ck', hrun'⟩, hclear⟩ := hsmooth.stmt k _ ck hstmt ht hrun
      obtain ⟨d', Γ'', hs'', h'⟩ := runStmt_splits (l := { l with guard := d }) (hl.congr rfl rfl) hexact ha hret h hstmt hrun
        hclear hrun'
      exact ⟨ck', d', Γ'', hs'', hnext.trans (runStmts_single ht hrun'), h'⟩

/-- **The end of a block** takes all models that are under way. -/
theorem leaveBlock_splits (h : Splits taken b c₀ Γ₀ l Γ hs c) (hsmooth : Smooth taken b c₀)
    (hreached : runStmts taken 0 b.stmts c₀ = .ok .reached c) {cb : Course} (hclose : close b c = .ok () cb)
    (hrun : leaveBlock b cb = .ok () c') : c'.out.Divides Γ₀ (fun _ => False) ∧ c'.out.all ≠ [] ∧
    c'.world.state.settings.has .callless = l.settings.has .callless ∧ ∀ i ∈ c'.out.all, ∃ s, c'.out.pool[i]? = some s ∧
    s.settings.has .doRetEmulation = false ∧ ∃ cv, Left taken b c₀ s cv ∧ Carries cv.world { c'.world with state := s } := by
  have hP := frame_of_paging (Γ := Γ) hl (holds_paging hs)
  have h := h.close hl hclose
  obtain ⟨-, hconcrete, hends⟩ := hsmooth.rest c hreached () cb hclose
  obtain ⟨next, cv, h₁, hrun⟩ := ok_of_bind hrun
  obtain ⟨hform, hland⟩ := hends next cv h₁
  have h := h.steady (exec_steady (operand_steady hP b.next _ hconcrete)) h₁
  obtain ⟨_, c₂, h₂, hrun⟩ := ok_of_bind hrun
  have hpass := parting_passage Γ hs hl h.on.arch
  obtain ⟨hparting, ho⟩ := (settle_steady (Q := (· = cv.out)) hpass.central).of_ok
    ⟨⟨h.on, h.holds, carries_refl h.holds.orderly⟩, rfl⟩ h₂
  obtain ⟨henlisted, g, q, hg, hlast⟩ := addSuccessor_spec hl hexact ha h.on.arch hform hparting (hland _ c₂ h₂) hrun
  have hmeets : ∀ μ, μ.Meets c'.world.state.leaving ↔ True ∧ Γ μ := fun μ => by
    rw [meets_cons, hlast.on.guard, hg μ, hlast.on.meets μ, hparting.on.guard]
    exact ⟨fun hm => ⟨trivial, hm.2.2⟩, fun hm => ⟨h.guard μ hm.2, h.guard μ hm.2, hm.2⟩⟩
  have hsettings : ∀ o, Setting.astDeps.ctorIdx ≠ o.ctorIdx → Setting.autoRefs.ctorIdx ≠ o.ctorIdx →
      c'.world.state.settings.has o = l.settings.has o := fun o h₁ h₂ => by
    rw [hlast.on.settings, Settings.has_erase _ h₂, Settings.has_erase _ h₁]
  refine ⟨(henlisted.divides (ho ▸ h.divides) hmeets).congr fun μ => ⟨fun hμ => hμ.1 trivial, False.elim⟩, ?_,
    hsettings _ (by decide) (by decide), fun i hi => ?_⟩
  · rw [henlisted.all]
    exact append_ne_nil_of_right_ne_nil _ (cons_ne_nil _ _)
  · rw [henlisted.all, mem_append, mem_singleton] at hi
    obtain hi | rfl := hi
    · rw [ho] at hi
      obtain ⟨s, hs, hset, cv, hleft, hcarries⟩ := h.gone i hi
      exact ⟨s, (henlisted.keeps i (ho ▸ h.divides.below i hi)).trans (ho ▸ hs), hset, cv, hleft, hcarries _ hlast.holds⟩
    · refine ⟨_, henlisted.entry, (hsettings _ (by decide) (by decide)).trans hret, cv, ?_, hlast.carries⟩
      refine .rest hreached ((bind_of_ok hclose).trans h₁) hlast.on.exit fun μ => ?_
      rw [hmeets μ, h.on.meets μ, true_and]

end

/-! ### The whole block -/

lemma afterCall_run {s} (hs : c.out.pool[i]? = some s) (hret : s.settings.has .doRetEmulation = false)
    (trueGuard next instruction) : afterCall i false trueGuard next instruction c = .ok () c := by
  rw [afterCall, bind_of_ok (x := out) rfl, hs]
  simp only [Bool.false_and, Bool.false_eq_true, if_false, hret]
  rfl

lemma afterCalls_run {is : List Nat} (h : ∀ i ∈ is, ∃ s, c.out.pool[i]? = some s ∧ s.settings.has .doRetEmulation = false)
    (trueGuard next instruction) : (is.forM fun i => afterCall i false trueGuard next instruction) c = .ok () c := by
  induction is with
  | nil => rfl
  | cons i is ih =>
    obtain ⟨s, hs, hret⟩ := h i (.head _)
    change (afterCall i false trueGuard next instruction >>= fun _ => is.forM fun i => afterCall i false trueGuard next instruction) c = _
    rw [bind_of_ok (afterCall_run hs hret trueGuard next instruction)]
    exact ih fun j hj => h j (.tail _ hj)

lemma finishBlock_run (hcall : c.world.state.settings.has .callless = false)
    (hall : ∀ i ∈ c.out.all, ∃ s, c.out.pool[i]? = some s ∧ s.settings.has .doRetEmulation = false) (hsome : c.out.all ≠ [])
    (ended) : finishBlock b o ended c = .ok ended c := by
  have hempty : c.out.isEmpty = false := by
    rw [Successors.isEmpty, isEmpty_eq_false_iff.2 hsome]
    rfl
  change ((c.out.all.forM fun i => afterCall i (c.world.state.settings.has .callless) _ _ _) >>= fun _ => _) c = _
  rw [hcall, bind_of_ok (afterCalls_run hall ..)]
  change (if !(o.whitelist.getD []).isEmpty && c.out.isEmpty then _ else pure ended : Stepping BlockEnd) c = _
  rw [hempty, Bool.and_false]
  rfl

lemma runFound_run {cn cb cl} (ht : taken = o.takes b (c.world.state.settings.has .superFastpath))
    (hlast : o.last.any (fun l => decide ((b.stmts.length : Int) ≤ l)) = true)
    (hreached : runStmts taken 0 b.stmts (c.enter b) = .ok .reached cn) (hclose : close b cn = .ok () cb)
    (hleave : leaveBlock b cb = .ok () cl) : runFound b o c = finishBlock b o .reached cl := by
  subst ht
  cases hclose
  change (runStmts (o.takes b (c.world.state.settings.has .superFastpath)) 0 b.stmts >>= _) (c.enter b) = _
  rw [bind_of_ok hreached]
  change (if (o.last.any fun l => decide ((b.stmts.length : Int) ≤ l)) = true then _ else _ : Stepping BlockEnd) _ = _
  rw [if_pos hlast, bind_of_ok (tryCatch_of_ok hleave _)]

/-- A course at the start of a block: no breakpoint is set, the pages are in order, the solver is exact, and nothing was added so
far. -/
structure Poised (c : Course) : Prop where
  orderly : c.world.Orderly
  exact : c.world.solver.Exact
  regular : c.world.state.arch.Regular
  tracked : c.world.state.settings.has .trackConstraints = true
  symbolic : c.world.state.settings.has .concretize = false
  assigned : c.world.state.settings.has .symbolicTemps = false
  followed : c.world.state.settings.has .callless = false
  single : c.world.state.settings.has .doRetEmulation = false
  guard : c.world.state.scratch.guard = .lit true
  fresh : c.out.all = []

/-- **Every block partitions the models.** A block whose statements raise no fault and access memory at numbers is run to its end,
and every model of the conditions at its start meets the guard and the conditions of exactly one successor. Each successor left by
one exit or at the end; it has the memory, registers and temporaries that the statements before its exit left, but for what the
jump writes. -/
theorem runFound_partitions {o : BlockOptions} (hc : Poised c)
    (hlast : o.last.any (fun l => decide ((b.stmts.length : Int) ≤ l)) = true)
    (hsmooth : Smooth (o.takes b (c.world.state.settings.has .superFastpath)) b (c.enter b)) :
    ∃ c', runFound b o c = .ok .reached c' ∧
      (∀ μ : Model, μ.Meets c.world.state.constraints → ∃! i, i ∈ c'.out.all ∧ c'.out.Takes i μ) ∧
      ∀ i ∈ c'.out.all, ∃ s cv, c'.out.pool[i]? = some s ∧
        Left (o.takes b (c.world.state.settings.has .superFastpath)) b (c.enter b) s cv ∧
        World.Carries cv.world { c'.world with state := s } := by
  let s := c.world.state
  let l : Lane := ⟨s.settings, c.world.solver, s.arch, .lit true, s.scratch.exitStmt, s.scratch.target⟩
  have hl : l.Plain := ⟨hc.exact.folds, hc.tracked, hc.symbolic, hc.assigned⟩
  have horderly : (c.enter b).world.Orderly := hc.orderly.congr hc.orderly.quiet rfl fun r hr => by cases hr <;> rfl
  have hstart : Splits (o.takes b (s.settings.has .superFastpath)) b (c.enter b) (fun μ => μ.Meets s.constraints) l
      (fun μ => μ.Meets s.constraints) [] (c.enter b) :=
    ⟨⟨hc.orderly.quiet, rfl, rfl, rfl, hc.guard, rfl, rfl, fun _ => Iff.rfl⟩, ⟨horderly, fun _ h => nomatch h⟩, fun _ _ => rfl,
      Successors.divides_start hc.fresh, fun i hi => absurd (hc.fresh ▸ hi : i ∈ []) List.not_mem_nil⟩
  obtain ⟨cn, d, Γ', hs', hreached, hn⟩ := runStmts_splits hl hc.exact hc.regular hc.single hstart hsmooth (Nat.le_refl _)
  rw [List.take_length] at hreached
  obtain ⟨⟨cl, hleave⟩, -⟩ := hsmooth.rest cn hreached () _ rfl
  obtain ⟨hdivides, hsome, hcall, hall⟩ := leaveBlock_splits (l := { l with guard := d }) (hl.congr rfl rfl) hc.exact hc.regular
    hc.single hn hsmooth hreached rfl hleave
  have hret : ∀ i ∈ cl.out.all, ∃ s, cl.out.pool[i]? = some s ∧ s.settings.has .doRetEmulation = false := fun i hi =>
    let ⟨s, hs, hret, _⟩ := hall i hi
    ⟨s, hs, hret⟩
  refine ⟨cl, ?_, fun μ hμ => hdivides.taken μ hμ id, fun i hi => ?_⟩
  · rw [runFound_run rfl hlast hreached rfl hleave]
    exact finishBlock_run (hcall.trans hc.followed) hret hsome _
  · obtain ⟨s, hs, -, cv, hleft, hcarries⟩ := hall i hi
    exact ⟨s, cv, hs, hleft, hcarries⟩

end

/-! ### Blocks that are run -/

/-- Whether work ends without a fault in something that passes a check. -/
def returns {σ α : Type} (x : EStateM Fault σ α) (s : σ) (q : α → σ → Bool) : Bool :=
  match x s with
  | .ok a t => q a t
  | .error .. => false

section
variable {σ α : Type} {x : EStateM Fault σ α} {s : σ} {q : α → σ → Bool}

lemma ok_of_returns (h : returns x s q = true) : ∃ a t, x s = .ok a t ∧ q a t = true := by
  unfold returns at h
  split at h
  · exact ⟨_, _, ‹_›, h⟩
  · cases h

lemma after_of_returns (h : returns x s q = true) : After x s fun a t => q a t = true := fun a t hrun => by
  rw [returns, hrun] at h
  exact h

end

lemma rooted_of_kind (h : (!decide (w.state.history.current.jumpkind = some "Ijk_Call")) = true) : Rooted w := fun he => by
  rw [decide_eq_true he] at h
  cases h

def isSymbol : Bits → Bool
  | .sym .. => true
  | _ => false

lemma formed_of_isSymbol {b} (h : isSymbol b = true) : b.Formed := by
  cases b with
  | sym n w => exact trivial
  | _ => cases h

theorem runFound_partitions_jump_or_fall :
    let b : Ir.Block :=
      { addr := 0x1000, types := #[.int 1], next := .const (.num (.int 64) 0x1010), jumpkind := "Ijk_Boring", size := 16
        stmts := [.put 16 (.const (.num (.int 64) 7)), .exit (.temp 0) (.num (.int 64) 0x2000) "Ijk_Boring",
          .put 16 (.const (.num (.int 64) 8))] }
    let c : Course :=
      { world :=
          { state := { State.blank .amd64 .symbolic (.ofList [.trackConstraints, .symbolic]) with
              scratch := { temps := Std.TreeMap.empty.insert 0 (.bits (.sym "x" 1)), types := #[.int 1] } }
            solver := Solver.guessing [fun _ => 0, fun _ => 1] .ideal }
        out := { addr := 0x1000 } }
    let taken := ({} : BlockOptions).takes b (c.world.state.settings.has .superFastpath)
    Poised c ∧ Smooth taken b (c.enter b) ∧ ∃ c', runFound b {} c = .ok .reached c' ∧ c'.out.all = [0, 1] ∧
      ∀ μ : Model, ∃! i, i ∈ c'.out.all ∧ c'.out.Takes i μ := by
  intro b c taken
  have hpoised : Poised c := by
    refine ⟨World.orderly_of_empty (fun i hi => nomatch hi) fun r hr => ?_, Solver.ideal_exact.guessing _,
      Arch.regular_of_name (show Arch.ofName? "AMD64" = some .amd64 from rfl),
      by decide, by decide, by decide, by decide, by decide, rfl, rfl⟩
    have hempty := State.empty_part_blank hr .amd64 .symbolic (.ofList [.trackConstraints, .symbolic])
    cases hr <;> exact hempty
  have hsmooth : Smooth taken b (c.enter b) := by
    have hrun : ∀ k s, b.stmts[k]? = some s → returns (runStmts taken 0 (b.stmts.take k)) (c.enter b) (fun _ ck =>
        returns (runStmt k s) ck fun changed _ => !changed) = true := by
      intro k s hs
      match k, hs with
      | 0, hs | 1, hs | 2, hs =>
        cases hs
        decide +kernel
    have hexit : returns (runStmts taken 0 (b.stmts.take 1)) (c.enter b) (fun _ ck => returns (announce 1) ck fun _ c =>
        returns (exec (operand (.temp 0))) c fun g c => isSymbol (bitsOf g) && returns (ready (.num (.int 64) 0x2000) g) c fun p c =>
          returns (arrive (.bits p.1.toBits) (Cond.nonzero (bitsOf g)) "Ijk_Boring" (some (.atStmt 1)) c.world.state.scratch.instruction)
            { c with world := { c.world with state := p.2 } } fun _ c =>
              !decide (c.world.state.history.current.jumpkind = some "Ijk_Call")) = true := by decide +kernel
    have hrest : returns (runStmts taken 0 b.stmts) (c.enter b) (fun _ cn => returns (close b) cn fun _ c =>
        returns (leaveBlock b) c (fun _ _ => true) && returns (exec (operand b.next)) c fun next c => !(bitsOf next).symbolic &&
          returns (settle next) c fun _ c => returns (arrive (.bits (bitsOf next)) c.world.state.scratch.guard "Ijk_Boring" (some .atEnd)
            c.world.state.scratch.instruction) c fun _ c => !decide (c.world.state.history.current.jumpkind = some "Ijk_Call")) = true := by
      decide +kernel
    refine ⟨fun k s ck hs _ hck => ⟨?_, fun _ c₁ h₁ => ?_⟩, fun cn hcn _ c₁ h₁ => ?_⟩
    · obtain ⟨changed, ck', hok, hch⟩ := ok_of_returns (after_of_returns (hrun k s hs) _ _ hck)
      obtain rfl : changed = false := by simpa using hch
      exact ⟨ck', hok⟩
    · match k, hs with
      | 0, hs | 2, hs =>
        cases hs
        exact ⟨trivial, fun _ _ _ he => nomatch he⟩
      | 1, hs =>
        cases hs
        refine ⟨trivial, fun _ _ _ he => ?_⟩
        obtain ⟨rfl, rfl, rfl⟩ := Ir.Stmt.exit.inj he
        intro g c₂ h₂
        have hfound := after_of_returns (after_of_returns (after_of_returns hexit _ _ hck) _ _ h₁) _ _ h₂
        obtain ⟨hg, hready⟩ := (Bool.and_eq_true _ _).mp hfound
        refine ⟨formed_of_isSymbol hg, fun p c₃ h₃ => ?_⟩
        exact fun _ _ h₄ => rooted_of_kind (after_of_returns (after_of_returns hready _ _ h₃) _ _ h₄)
    · have hend := after_of_returns (after_of_returns hrest _ _ hcn) _ _ h₁
      obtain ⟨hleave, hnext⟩ := (Bool.and_eq_true _ _).mp hend
      obtain ⟨_, c', hok, -⟩ := ok_of_returns hleave
      refine ⟨⟨c', hok⟩, trivial, fun next c₂ h₂ => ?_⟩
      obtain ⟨hsym, hsettle⟩ := (Bool.and_eq_true _ _).mp (after_of_returns hnext _ _ h₂)
      refine ⟨fun h => absurd h (by simpa using hsym), fun _ c₃ h₃ => ?_⟩
      exact fun _ _ h₄ => rooted_of_kind (after_of_returns (after_of_returns hsettle _ _ h₃) _ _ h₄)
  refine ⟨hpoised, hsmooth, ?_⟩
  obtain ⟨c', hrun, hpart, -⟩ := runFound_partitions (b := b) (o := {}) hpoised (by decide) hsmooth
  have hall : returns (runFound b {}) c (fun _ c' => decide (c'.out.all = [0, 1])) = true := by decide +kernel
  exact ⟨c', hrun, of_decide_eq_true (after_of_returns hall _ _ hrun), fun μ => hpart μ (fun _ h => nomatch h)⟩

/-- Where conditions are not tracked, a model goes to two exits under one guard. Where values are made numbers, or where a breakpoint
changes a guard, a model goes to no successor. -/
theorem models_doubled_or_lost :
    let block (stmts : List Ir.Stmt) : Ir.Block :=
      { addr := 0x1000, types := #[.int 1, .int 1], next := .const (.num (.int 64) 0x1010), jumpkind := "Ijk_Boring", size := 16, stmts }
    let course (on : List Setting) (inspector : Option Inspector) : Course :=
      { world :=
          { state := { State.blank .amd64 .symbolic (.ofList (.symbolic :: on)) with
              scratch := { temps := Std.TreeMap.empty.insert 0 (.bits (.sym "x" 1)), types := #[.int 1, .int 1] }, inspector }
            solver := { model? := fun _ => some fun _ => 0, values := fun _ _ n => [0, 1].take n, least := fun _ _ => some 0
                        greatest := fun _ _ => some 1 } }
        out := { addr := 0x1000 } }
    let jump : Ir.Stmt := .exit (.temp 0) (.num (.int 64) 0x2000) "Ijk_Boring"
    let veto : Breakpoint :=
      { id := 0, name := "veto", event := "exit", moment := .before, attributes := [], assigns := some ("exit_guard", .bool false) }
    (∃ c', runFound (block [jump, jump]) { last := some 1 } (course [] none) = .ok .reached c' ∧ c'.out.takers (fun _ => 1) = [0, 1]) ∧
    (∃ c', runFound (block [.write 1 (.temp 0)]) {} (course [.trackConstraints, .concretize] none) = .ok .reached c' ∧
      c'.out.takers (fun _ => 1) = []) ∧
    ∃ c', runFound (block []) {} (course [.trackConstraints] (some { breakpoints := [veto] })) = .ok .reached c' ∧
      c'.out.takers (fun _ => 1) = [] := by
  intro block course jump veto
  have goes : ∀ {b : Ir.Block} {o : BlockOptions} {c : Course} {is : List Nat},
      returns (runFound b o) c (fun e c' => decide (e = .reached ∧ c'.out.takers (fun _ => 1) = is)) = true →
      ∃ c', runFound b o c = .ok .reached c' ∧ c'.out.takers (fun _ => 1) = is := fun h => by
    obtain ⟨e, c', hrun, hq⟩ := ok_of_returns h
    obtain ⟨rfl, his⟩ := of_decide_eq_true hq
    exact ⟨c', hrun, his⟩
  exact ⟨goes (by decide +kernel), goes (by decide +kernel), goes (by decide +kernel)⟩

end Stepping

end SymExec
