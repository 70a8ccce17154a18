import SymExec.State.Access
import SymExec.Proofs.Solver
import SymExec.Proofs.View

/-!
# Work seen from one memory

Work on a state changes much that a memory does not depend on: events, attributes of breakpoints, the ranges that were written.
-/

namespace SymExec

open Option

def State.memory? (s : State) : Region → Option Memory
  | .registers => some s.registers
  | .memory => some s.memory
  | .file i => (s.posix.bind (·.table[i]?)).map (·.content)

structure Scene where
  memory : Option Memory
  commons : Commons
  settings : Settings
  arch : Arch
  solver : Solver

/-- Whether protections are enforced on a memory at all. -/
def Scene.Enforced (S : Scene) (m : Memory) : Prop := m.paged.checked = true ∧ S.settings.has .strictPageAccess = true

def Scene.withPages (S : Scene) (m : Memory) (p : Paged) (c : Commons) : Scene :=
  { S with memory := some { m with paged := p }, commons := c }

def World.scene (w : World) (r : Region) : Scene := ⟨w.state.memory? r, w.commons, w.state.settings, w.state.arch, w.solver⟩

def World.Quiet (w : World) : Prop := ∀ i, w.state.inspector = some i → i.breakpoints = []

namespace Exec

section
variable {α β : Type} {r : Region} {S T : Scene} {x : Exec α} {P : α → Scene → Prop} {Q : β → Scene → Prop} {a : α} {y : Exec α}
  {f : α → Exec β} {q : Prop} {w : World} {m : Memory} {k : String}

/-- Work that succeeds from a scene, with what it gives and the scene it leaves. -/
def Does (r : Region) (S : Scene) (x : Exec α) (Q : α → Scene → Prop) : Prop :=
  ∀ w, w.Quiet → w.scene r = S → ∃ a w', x w = .ok a w' ∧ w'.Quiet ∧ Q a (w'.scene r)

/-- Work that gives a value and leaves the scene as it is. -/
def Gives (r : Region) (S : Scene) (x : Exec α) (a : α) : Prop := Does r S x fun b T => b = a ∧ T = S

def Keeps (r : Region) (S : Scene) (x : Exec α) : Prop := Does r S x fun _ T => T = S

/-! ### Rules -/

lemma Does.mono {Q} (h : Does r S x P) (hpq : ∀ a T, P a T → Q a T) : Does r S x Q := by
  intro w hw hs
  obtain ⟨a, w', hx, hq, hp⟩ := h w hw hs
  exact ⟨a, w', hx, hq, hpq a _ hp⟩

lemma Does.pure {Q : α → Scene → Prop} (h : Q a S) : Does r S (pure a) Q := by
  rintro w hw rfl
  exact ⟨a, w, rfl, hw, h⟩

lemma Does.bind (hx : Does r S x P) (hf : ∀ a T, P a T → Does r T (f a) Q) : Does r S (x >>= f) Q := by
  intro w hw hs
  obtain ⟨a, w', hx, hq, hp⟩ := hx w hw hs
  obtain ⟨b, w'', hf, hq', hp'⟩ := hf a _ hp w' hq rfl
  exact ⟨b, w'', (bind_of_ok hx).trans hf, hq', hp'⟩

lemma Gives.bind (hx : Gives r S x a) (hf : Does r S (f a) Q) : Does r S (x >>= f) Q := .bind hx fun _ _ ⟨ha, hs⟩ => ha ▸ hs ▸ hf

lemma Keeps.bind (hx : Keeps r S x) (hf : ∀ a, Does r S (f a) Q) : Does r S (x >>= f) Q := .bind hx fun a _ hs => hs ▸ hf a

lemma Gives.pure (a : α) : Gives r S (pure a) a := Does.pure ⟨rfl, rfl⟩

lemma Does.ite [Decidable q] {Q} (hx : q → Does r S x Q) (hy : ¬ q → Does r S y Q) : Does r S (if q then x else y) Q := by
  split
  · exact hx ‹_›
  · exact hy ‹_›

lemma Does.ite_bind [Decidable q] (h : Does r S (if q then x else y) P) (hf : ∀ a T, P a T → Does r T (f a) Q) :
    Does r S (if q then x >>= f else y >>= f) Q := by
  split at h
  · rw [if_pos ‹_›]
    exact h.bind hf
  · rw [if_neg ‹_›]
    exact h.bind hf

lemma Keeps.when_bind [Decidable q] {x f} (h : q → Keeps r S x) (hf : Does r S (f ()) Q) :
    Does r S (if q then x >>= f else f ()) Q :=
  .ite (fun hq => (h hq).bind fun _ => hf) fun _ => hf

lemma Does.mapM {P : α → β → Prop} (l : List α) (h : ∀ a ∈ l, Does r S (f a) fun b T => T = S ∧ P a b) :
    Does r S (l.mapM f) fun bs T => T = S ∧ ∀ b ∈ bs, ∃ a ∈ l, P a b := by
  induction l with
  | nil => exact .pure ⟨rfl, by simp⟩
  | cons a l ih =>
    rw [List.mapM_cons]
    refine (h a (by simp)).bind fun b T ⟨hT, hb⟩ => ?_
    subst hT
    refine (ih fun a' ha' => h a' (.tail _ ha')).bind fun bs T' ⟨hT', hbs⟩ => ?_
    subst hT'
    refine .pure ⟨rfl, fun b' hb' => ?_⟩
    obtain rfl | hb' := List.mem_cons.1 hb'
    · exact ⟨a, by simp, hb⟩
    · obtain ⟨a', ha', hp⟩ := hbs b' hb'
      exact ⟨a', .tail _ ha', hp⟩

lemma Gives.mapM {g : α → β} (l : List α) (h : ∀ a ∈ l, Gives r S (f a) (g a)) : Gives r S (l.mapM f) (l.map g) := by
  induction l with
  | nil => exact .pure []
  | cons a l ih =>
    rw [List.mapM_cons]
    exact (h a (by simp)).bind ((ih fun a' ha' => h a' (.tail _ ha')).bind (Gives.pure _))

/-! ### Questions and events -/

lemma bind_state (f : State → Exec α) (w) : (state >>= f) w = f w.state w := rfl

lemma memoryAt_run (h : w.state.memory? r = some m) : memoryAt r w = .ok m w := by
  cases r with
  | registers =>
    cases h
    rfl
  | memory =>
    cases h
    rfl
  | file i =>
    obtain ⟨f, hf, rfl⟩ := map_eq_some_iff.1 h
    rw [memoryAt, bind_state]
    dsimp only
    rw [hf]
    rfl

lemma memoryAt_gives (h : S.memory = some m) : Gives r S (memoryAt r) m := by
  rintro w hw rfl
  exact ⟨m, w, memoryAt_run h, hw, rfl, rfl⟩

lemma has_gives {s} : Gives r S (has s) (S.settings.has s) := by
  rintro w hw rfl
  exact ⟨_, w, rfl, hw, rfl, rfl⟩

lemma arch_gives : Gives r S arch S.arch := by
  rintro w hw rfl
  exact ⟨_, w, rfl, hw, rfl, rfl⟩

lemma state_does : Does r S state fun s T => T = S ∧ s.settings = S.settings ∧ s.memory? r = S.memory := by
  rintro w hw rfl
  exact ⟨_, w, rfl, hw, rfl, rfl, rfl⟩

lemma get_does : Does r S get fun w T => T = S ∧ w.solver = S.solver := by
  rintro w hw rfl
  exact ⟨_, w, rfl, hw, rfl, rfl⟩

lemma act_keeps {a} : Keeps r S (act a) := by
  rintro w hw rfl
  refine ⟨(), _, rfl, hw, ?_⟩
  cases r <;> rfl

lemma note_keeps {type} : Keeps r S (note type) := by
  rintro w hw rfl
  refine ⟨(), _, rfl, hw, ?_⟩
  cases r <;> rfl

lemma modifyScratch_keeps {f} : Keeps r S (modifyScratch f) := by
  rintro w hw rfl
  refine ⟨(), _, rfl, hw, ?_⟩
  cases r <;> rfl

lemma strict_gives (h : S.memory = some m) (hs : ¬ S.Enforced m) : Gives r S (strict r) false := by
  refine Does.bind state_does fun s T ⟨hT, hset, _⟩ => ?_
  subst hT
  refine (memoryAt_gives h).bind ?_
  refine Does.pure ⟨?_, rfl⟩
  rw [hset]
  cases hc : m.paged.checked
  · simp
  · cases hp : T.settings.has .strictPageAccess
    · simp
    · exact absurd ⟨hc, hp⟩ hs

lemma simplify_does (hs : S.solver.Folds) {e} (he : e.Valid) : Does r S (simplify e) fun e' T => T = S ∧ e'.Agrees e := by
  have plain : Does r S (Pure.pure e) fun e' T => T = S ∧ e'.Agrees e := .pure ⟨rfl, .refl he⟩
  fun_cases simplify e with
  | case1 | case2 => exact plain
  | case3 =>
    refine .bind get_does ?_
    rintro w T ⟨rfl, hsol⟩
    rw [hsol]
    split
    · rename_i v hv
      have hval := hs e v hv
      have hlt : v < 2 ^ e.width := hval (fun _ => 0) ▸ Bits.eval_lt he _
      exact .pure ⟨rfl, hlt, rfl, fun m => (Bits.eval_lit hlt m).trans (hval m).symm⟩
    · exact plain

/-! ### Pages -/

lemma scene_modifyMemory (h : w.state.memory? r = some m) (f) :
    ∃ w', modifyMemory r f w = .ok () w' ∧ w'.scene r = { w.scene r with memory := some (f m) } ∧
      w'.state.inspector = w.state.inspector := by
  cases r with
  | registers =>
    cases h
    exact ⟨_, rfl, rfl, rfl⟩
  | memory =>
    cases h
    exact ⟨_, rfl, rfl, rfl⟩
  | file i =>
    obtain ⟨g, hg, rfl⟩ := map_eq_some_iff.1 h
    obtain ⟨p, hp, hg⟩ := bind_eq_some_iff.1 hg
    refine ⟨_, rfl, ?_, rfl⟩
    rw [World.scene]
    congr 1
    simp [State.memory?, hp, hg, Std.TreeMap.getElem?_modify_self]

lemma onPages_run (h : w.state.memory? r = some m) (x) : onPages r x w = (match x (m.paged, w.commons) with
      | .ok a (p, c) => do
        set { w with commons := c }
        modifyMemory r fun m => { m with paged := p }
        return a
      | .error f (p, c) => do
        set { w with commons := c }
        modifyMemory r fun m => { m with paged := p }
        throw f : Exec α) w :=
  bind_of_ok (memoryAt_run h)

lemma onPages_of_run (h : S.memory = some m) {x p c}
    (hx : x (m.paged, S.commons) = .ok a (p, c)) : Does r S (onPages r x) fun b T => b = a ∧ T = S.withPages m p c := by
  rintro w hw rfl
  obtain ⟨w', hw', hscene, hinsp⟩ := scene_modifyMemory (w := { w with commons := c }) h fun m => { m with paged := p }
  refine ⟨a, w', ?_, fun i hi => hw i (hinsp ▸ hi), rfl, hscene⟩
  have hx' : x (m.paged, w.commons) = .ok a (p, c) := hx
  rw [onPages_run h, hx']
  change (modifyMemory r (fun m => { m with paged := p }) >>= fun _ => Pure.pure a) { w with commons := c } = _
  exact bind_of_ok hw'

/-- **Work on the pages** of a memory is work on its contents. -/
theorem onPages_does (h : S.memory = some m) (hp : m.paged.Placed S.commons) {x y} (hxy : Paged.Refines x y) {u}
    (hy : y (m.paged.unshared S.commons) = .ok a u) : Does r S (onPages r x) fun b T => b = a ∧ ∃ p c, T = S.withPages m p c ∧
    p.unshared c = u ∧ p.Placed c ∧ Paged.Moves m.paged S.commons p c := by
  obtain ⟨p, c, hx, hu, hm, hp'⟩ := hxy.run_ok hp hy
  exact (onPages_of_run h hx).mono fun b T ⟨hb, hT⟩ => ⟨hb, p, c, hT, hu, hp', hm⟩

/-! ### Inspection -/

/-- An attribute is the given value, where there is inspection. -/
def Shown (w : World) (k : String) (v : Value) : Prop := ∀ i, w.state.inspector = some i → i.attributes[k]? = some v

lemma attr_run {v} (h : Shown w k v) : attr k v w = .ok v w := by
  rw [attr, bind_state]
  cases hi : w.state.inspector with
  | none => rfl
  | some i =>
    dsimp only
    rw [h i hi]
    rfl

lemma setAttribute_run (k v) (hw : w.Quiet) : ∃ w', setAttribute k v w = .ok () w' ∧ w'.Quiet ∧ w'.scene r = w.scene r ∧
    Shown w' k v ∧ ∀ k' v', k' ≠ k → Shown w k' v' → Shown w' k' v' := by
  refine ⟨_, rfl, fun i hi => ?_, ?_, fun i hi => ?_, fun k' v' hk h i hi => ?_⟩
  · obtain ⟨j, hj, rfl⟩ := map_eq_some_iff.1 hi
    exact hw j hj
  · cases r <;> rfl
  · obtain ⟨j, -, rfl⟩ := map_eq_some_iff.1 hi
    simp
  · obtain ⟨j, hj, rfl⟩ := map_eq_some_iff.1 hi
    simpa [Std.TreeMap.getElem?_insert, hk.symm] using h j hj

lemma forM_setAttribute (attrs : Fields) (hn : (attrs.map (·.1)).Nodup) (hw : w.Quiet) :
    ∃ w', (attrs.forM fun (k, v) => setAttribute k v : Exec Unit) w = .ok () w' ∧ w'.Quiet ∧ w'.scene r = w.scene r ∧
      (∀ k v, (k, v) ∈ attrs → Shown w' k v) ∧ ∀ k v, k ∉ attrs.map (·.1) → Shown w k v → Shown w' k v := by
  induction attrs generalizing w with
  | nil => exact ⟨w, rfl, hw, rfl, by simp, fun _ _ _ h => h⟩
  | cons p attrs ih =>
    obtain ⟨k, v⟩ := p
    obtain ⟨hk, hn⟩ := List.nodup_cons.1 hn
    obtain ⟨w1, hw1, hq1, hs1, hset, hold⟩ := setAttribute_run k v hw
    obtain ⟨w2, hw2, hq2, hs2, hset', hold'⟩ := ih hn hq1
    refine ⟨w2, (bind_of_ok hw1).trans hw2, hq2, hs2.trans hs1, fun k' v' h => ?_, fun k' v' h hs => ?_⟩
    · obtain h | h := List.mem_cons.1 h
      · obtain ⟨rfl, rfl⟩ := Prod.mk.inj h
        exact hold' k' v' hk hset
      · exact hset' k' v' h
    · obtain ⟨h1, h2⟩ := not_or.1 (mt List.mem_cons.2 h)
      exact hold' k' v' h2 (hold k' v' h1 hs)

lemma inspect_none {event moment attrs} (hi : w.state.inspector = none) : inspect event moment attrs w = .ok () w := by
  rw [inspect, bind_state, hi]
  rfl

lemma inspect_some {event moment attrs w' i}
    (hi : w.state.inspector = some i) (hset : (attrs.forM fun (k, v) => setAttribute k v : Exec Unit) w = .ok () w')
    (hq : w'.Quiet) : inspect event moment attrs w = .ok () w' := by
  have hnone : (w'.state.inspector.getD {}).breakpoints = [] := by
    cases hi' : w'.state.inspector with
    | none => rfl
    | some j => exact hq j hi'
  rw [inspect, bind_state, hi]
  dsimp only
  rw [bind_of_ok hset, bind_state, hnone]
  rfl

section
variable (event : String) (moment : When) (attrs : Fields) (hn : (attrs.map (·.1)).Nodup)
include event moment attrs hn

lemma inspect_run (hw : w.Quiet)
    : ∃ w', inspect event moment attrs w = .ok () w' ∧ w'.Quiet ∧ w'.scene r = w.scene r ∧ ∀ k v, (k, v) ∈ attrs → Shown w' k v := by
  cases hi : w.state.inspector with
  | none => exact ⟨w, inspect_none hi, hw, rfl, fun k v _ i h => absurd (hi.symm.trans h) (by simp)⟩
  | some i =>
    obtain ⟨w', hw', hq, hs, hset, -⟩ := forM_setAttribute attrs hn hw
    exact ⟨w', inspect_some hi hw' hq, hq, hs, hset⟩

lemma inspect_keeps : Keeps r S (inspect event moment attrs) := by
  rintro w hw rfl
  obtain ⟨w', hw', hq, hs, -⟩ := inspect_run event moment attrs hn hw
  exact ⟨(), w', hw', hq, hs⟩

end

lemma attr_keeps {v} : Keeps r S (attr k v) := by
  rintro w hw rfl
  rw [attr, bind_state]
  cases w.state.inspector with
  | none | some i => exact ⟨_, w, rfl, hw, rfl⟩

lemma attributeQ_run {q} (h : Shown w k q.toValue) : attributeQ k q w = .ok q w := by
  rw [attributeQ, bind_of_ok (attr_run h)]
  cases q <;> rfl

lemma attributeBits_run {b} (h : Shown w k (.bits b)) : attributeBits k b w = .ok b w := by
  rw [attributeBits, bind_of_ok (attr_run h)]
  rfl

end

end Exec

end SymExec
