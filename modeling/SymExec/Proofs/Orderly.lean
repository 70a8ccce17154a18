import SymExec.Proofs.Frame
import SymExec.State.Fork

/-!
# States whose pages are in order

The memory and the registers of a state lie in pages of one table.
-/

namespace SymExec

open Paged (leaves Moves Apart Refines)

/-! ### Sound pages -/

lemma Page.underwrite_sound {p : Page} {n} (h : p.Sound n) (c) : (p.underwrite c).Sound n := by
  simp only [underwrite]
  split <;> rename_i hfull
  · exact ⟨h.base, h.cell, fun d hd => Option.some.inj hd ▸ clip_eq_iff.1 hfull⟩
  · refine ⟨h.base, fun a d hd => ?_, h.whole⟩
    rw [getElem?_foldl_insertIfNew, Option.or_eq_some_iff, Option.ite_none_right_eq_some, Option.some.injEq] at hd
    obtain hd | ⟨-, ha, rfl⟩ := hd
    · exact h.cell a d hd
    · obtain ⟨hn, hcov⟩ := (mem_clip_iff h.base).1 ha
      exact ⟨hn, hcov, fun hc => hfull (clip_eq_iff.2 hc)⟩

namespace Unshared

/-- A memory with the origin of another, whose pages are sound. -/
structure Offspring (o u : Unshared) : Prop where
  origin : SameOrigin o u
  tidy : u.Tidy

variable {o u v : Unshared} {n : Nat} {pg : Page} {create : Bool}

lemma Offspring.reads (h : Offspring o u) (hr : Reads u v) : Offspring o v := ⟨h.origin.trans hr.origin, hr.tidy h.tidy⟩

lemma lookup_offspring : Steady (Offspring o) (lookup n create) u := by
  intro hu
  obtain ⟨v, hv, ho, hk, hn, -⟩ := lookup_spec u n create
  rw [leaves, hv]
  refine ⟨hu.origin.trans ho, fun k pg hpg => ?_⟩
  by_cases hkn : k = n
  · subst hkn
    rw [hn] at hpg
    obtain hpg | ⟨-, hpg⟩ := (Option.orElse_eq_some ..).1 hpg
    · exact hu.tidy k pg hpg
    · split at hpg
      · cases hpg
        exact blank_sound u k
      · cases hpg
  · exact hu.tidy k pg ((hk k hkn).2 ▸ hpg)

lemma lookup_tidy : Steady Tidy (lookup n create) u := fun h =>
  (lookup_offspring ⟨⟨rfl, rfl⟩, h⟩).tidy

lemma peek_of_lookup (h : lookup n create u = .ok (some pg) v) : v.peek n = some pg := by
  obtain ⟨v', hrun, -, -, hn, -⟩ := lookup_spec u n create
  obtain ⟨he, rfl⟩ := EStateM.Result.ok.inj (hrun.symm.trans h)
  rw [hn, he]

lemma tidy_setPage (hu : u.Tidy) (h : pg.Sound n) : (u.setPage n pg).Tidy := by
  intro k qg hq
  by_cases hk : k = n
  · subst hk
    rw [peek, show (u.setPage k pg).pages k = some pg from if_pos rfl] at hq
    cases hq
    exact h
  · rw [peek, show (u.setPage n pg).pages k = u.pages k from if_neg hk] at hq
    exact hu k qg hq

lemma Offspring.setPage (h : Offspring o u) (hpg : pg.Sound n) : Offspring o (u.setPage n pg) :=
  ⟨⟨h.origin.backing, h.origin.stack⟩, tidy_setPage h.tidy hpg⟩

lemma putChunk_offspring {strict anew : Bool} {c} : Steady (Offspring o) (putChunk strict anew n c) u := by
  refine lookup_offspring.bind fun r v hv => ?_
  cases r with
  | none => exact .throw _
  | some pg =>
    refine .ite (fun _ => .throw _) fun _ hv' => hv'.setPage ?_
    have hpg := hv'.tidy n pg (peek_of_lookup hv)
    split
    · exact Page.overwrite_sound hpg c
    · exact Page.underwrite_sound hpg c

variable (strict tracking anew : Bool)

lemma store_offspring {c} : Steady (Offspring o) (store strict tracking anew c) u := by
  refine (Steady.forM _ fun n _ v => putChunk_offspring).seq (.when fun _ => .forM _ fun a _ v h => ?_)
  obtain ⟨w, hw, hr⟩ := noteByte_reads v a c.content
  rw [leaves, hw]
  exact h.reads hr

lemma store_tidy (c : Chunk) (u) : Steady Tidy (store strict tracking anew c) u := fun h =>
  (store_offspring strict tracking anew ⟨⟨rfl, rfl⟩, h⟩).tidy

lemma chunks_tidy (strict cut addr n ks u) : Steady Tidy (chunks strict cut addr n ks) u := by
  induction ks generalizing u with
  | nil => exact .pure _
  | cons k ks ih =>
    refine lookup_tidy.bind fun r v _ => ?_
    cases r with
    | none => exact .ite (fun _ => .ite (fun _ => .pure _) fun _ => (Steady.throw _).bind fun _ w _ => ih w) fun _ => ih v
    | some pg =>
      have rest : ∀ w, Steady Tidy (do return pg.slice addr (addr + n) ++ (← chunks strict cut addr n ks)) w := fun w =>
        (ih w).done
      exact .ite (fun _ => .ite (fun _ => .pure _) fun _ => (Steady.throw _).bind fun _ w _ => rest w) fun _ => rest v

end Unshared

/-! ### The memory and the registers of a state -/

inductive Region.Main : Region → Prop
  | memory : Main .memory
  | registers : Main .registers

namespace State

def part (s : State) : Region → Memory
  | .registers => s.registers
  | _ => s.memory

def put (s : State) (r : Region) (m : Memory) : State :=
  match r with
  | .registers => { s with registers := m }
  | _ => { s with memory := m }

variable {s : State} {r r' : Region} {m : Memory}

lemma memory?_of_main (h : r.Main) : s.memory? r = some (s.part r) := by cases h <;> rfl

lemma part_put_self (h : r.Main) : (s.put r m).part r = m := by cases h <;> rfl

lemma part_put_ne (h : r.Main) (h' : r'.Main) (hne : r' ≠ r) : (s.put r m).part r' = s.part r' := by
  cases h <;> cases h' <;> first | rfl | exact absurd rfl hne

end State

def World.withPages (w : World) (r : Region) (p : Paged) (c : Commons) : World :=
  { w with commons := c, state := w.state.put r { w.state.part r with paged := p } }

def World.contents (w : World) (r : Region) : Unshared := (w.state.part r).paged.unshared w.commons

namespace Exec

variable {r : Region} {w : World} {α : Type}

lemma memoryAt_main (h : r.Main) (w) : memoryAt r w = .ok (w.state.part r) w := memoryAt_run (State.memory?_of_main h)

lemma modifyMemory_main (h : r.Main) (f w) :
    modifyMemory r f w = .ok () { w with state := w.state.put r (f (w.state.part r)) } := by
  cases h <;> rfl

lemma onPages_main (h : r.Main) (x : PagedM α) : onPages r x w = (match x ((w.state.part r).paged, w.commons) with
      | .ok a s => .ok a (w.withPages r s.1 s.2)
      | .error f s => .error f (w.withPages r s.1 s.2)) := by
  rw [onPages_run (State.memory?_of_main h)]
  cases x ((w.state.part r).paged, w.commons) <;> cases h <;> rfl

lemma leaves_onPages_main (h : r.Main) (x : PagedM α) :
    leaves (onPages r x) w = w.withPages r (leaves x ((w.state.part r).paged, w.commons)).1
      (leaves x ((w.state.part r).paged, w.commons)).2 := by
  rw [leaves, onPages_main h, leaves]
  cases x ((w.state.part r).paged, w.commons) <;> rfl

end Exec

/-! ### Order -/

namespace World

/-- No breakpoint is set, and the pages of the memory and of the registers are in place and sound, and each is owned by one of
the two at most. -/
structure Orderly (w : World) : Prop where
  quiet : w.Quiet
  placed : ∀ r : Region, r.Main → (w.state.part r).paged.Placed w.commons
  tidy : ∀ r : Region, r.Main → (w.contents r).Tidy
  apart : ∀ r r' : Region, r.Main → r'.Main → r ≠ r' → Apart (w.state.part r).paged (w.state.part r').paged

variable {w w' u v : World} {r : Region} {p : Paged} {c : Commons} {X : World → Prop} {hs : List (Paged × Unshared)}

lemma quiet_withPages (h : w.Quiet) : (w.withPages r p c).Quiet := by
  intro i hi
  refine h i ?_
  cases r <;> exact hi

lemma part_withPages_self (hr : r.Main) : ((w.withPages r p c).state.part r).paged = p := by rw [withPages, State.part_put_self hr]

lemma part_withPages_ne {r'} (hr : r.Main) (hr' : r'.Main) (hne : r' ≠ r) :
    (w.withPages r p c).state.part r' = w.state.part r' := State.part_put_ne hr hr' hne

/-- **Work on the pages** of one region keeps the order. -/
theorem Orderly.withPages (h : w.Orderly) (hr : r.Main) (hm : Moves (w.state.part r).paged w.commons p c) (hp : p.Placed c)
    (ht : (p.unshared c).Tidy) : (w.withPages r p c).Orderly := by
  have hother : ∀ r', r'.Main → r' ≠ r → (w.state.part r').paged.Placed c ∧ (w.state.part r').paged.unshared c = w.contents r' :=
    fun r' hr' hne => hm.frame (h.placed r' hr') (h.apart r r' hr hr' hne.symm)
  refine ⟨quiet_withPages h.quiet, fun r' hr' => ?_, fun r' hr' => ?_, fun r1 r2 h1 h2 hne => ?_⟩
  · by_cases he : r' = r
    · subst he
      rw [part_withPages_self hr]
      exact hp
    · rw [part_withPages_ne hr hr' he]
      exact (hother r' hr' he).1
  · by_cases he : r' = r
    · subst he
      rw [contents, part_withPages_self hr]
      exact ht
    · rw [contents, part_withPages_ne hr hr' he]
      exact (hother r' hr' he).2 ▸ h.tidy r' hr'
  · by_cases he1 : r1 = r
    · subst he1
      rw [part_withPages_self hr, part_withPages_ne hr h2 hne.symm]
      exact hm.apart_left (h.placed r2 h2) (h.apart r1 r2 hr h2 hne)
    · rw [part_withPages_ne hr h1 he1]
      by_cases he2 : r2 = r
      · subst he2
        rw [part_withPages_self hr]
        exact hm.apart_right (h.placed r1 h1) (h.apart r1 r2 h1 hr hne)
      · rw [part_withPages_ne hr h2 he2]
        exact h.apart r1 r2 h1 h2 hne

lemma Orderly.congr (h : w.Orderly) (hq : w'.Quiet) (hc : w'.commons = w.commons)
    (hp : ∀ r, r.Main → (w'.state.part r).paged = (w.state.part r).paged) : w'.Orderly := by
  refine ⟨hq, fun r hr => ?_, fun r hr => ?_, fun r r' hr hr' hne => ?_⟩
  · rw [hp r hr, hc]
    exact h.placed r hr
  · rw [contents, hp r hr, hc]
    exact h.tidy r hr
  · rw [hp r hr, hp r' hr']
    exact h.apart r r' hr hr' hne

/-! ### Properties that work on pages keeps -/

/-- A property of the pages of an orderly world that all work on them keeps. -/
structure Paging (X : World → Prop) : Prop where
  orderly : ∀ w, X w → w.Orderly
  congr : ∀ w w', X w → w'.Quiet → w'.commons = w.commons → (∀ r : Region, r.Main → (w'.state.part r).paged = (w.state.part r).paged) → X w'
  moves : ∀ w r p c, r.Main → X w → Moves (w.state.part r).paged w.commons p c → p.Placed c → (p.unshared c).Tidy → X (w.withPages r p c)

lemma Paging.onPages (hX : Paging X) (hr : r.Main) {α : Type} {x} {y : UnsharedM α} (hxy : Refines x y)
    (hy : ∀ u, Steady Unshared.Tidy y u) (w : World) : Steady X (Exec.onPages r x) w := by
  intro h
  have ho := hX.orderly w h
  obtain ⟨hm, hp, hu⟩ := hxy.leaves (ho.placed r hr) rfl
  rw [Exec.leaves_onPages_main hr]
  exact hX.moves w r _ _ hr h hm hp (hu ▸ hy _ (ho.tidy r hr))

lemma Paging.of_core (hX : Paging X) (h : X w) (hq : w'.Quiet) (hcore : w'.core = w.core) : X w' := by
  refine hX.congr w w' h hq (congrArg Core.commons hcore) fun r hr => ?_
  cases hr <;> [exact congrArg (·.memory.paged) hcore; exact congrArg (·.registers.paged) hcore]

lemma orderly_paging : Paging Orderly :=
  ⟨fun _ h => h, fun _ _ h hq hc hp => h.congr hq hc hp, fun _ _ _ _ hr h hm hp ht => h.withPages hr hm hp ht⟩

/-- A memory that some other state holds has some contents, and the current state owns none of its pages. -/
structure Shields (q : Paged) (u : Unshared) (w : World) : Prop where
  orderly : w.Orderly
  placed : q.Placed w.commons
  contents : q.unshared w.commons = u
  apart : ∀ r : Region, r.Main → Apart (w.state.part r).paged q

lemma shields_paging (q : Paged) (u) : Paging (Shields q u) := by
  refine ⟨fun _ h => h.orderly, fun w w' h hq hc hp => ?_, fun w r p c hr h hm hp ht => ?_⟩
  · refine ⟨h.orderly.congr hq hc hp, hc ▸ h.placed, hc ▸ h.contents, fun r hr => ?_⟩
    rw [hp r hr]
    exact h.apart r hr
  · obtain ⟨hplaced, hcont⟩ := hm.frame h.placed (h.apart r hr)
    refine ⟨h.orderly.withPages hr hm hp ht, hplaced, hcont.trans h.contents, fun r' hr' => ?_⟩
    by_cases he : r' = r
    · subst he
      rw [part_withPages_self hr]
      exact hm.apart_left h.placed (h.apart r' hr)
    · rw [part_withPages_ne hr hr' he]
      exact h.apart r' hr'

/-- Memories that other states hold have some contents, and the current state owns none of their pages. -/
structure Holds (hs : List (Paged × Unshared)) (w : World) : Prop where
  orderly : w.Orderly
  shields : ∀ h ∈ hs, Shields h.1 h.2 w

lemma holds_paging (hs : List (Paged × Unshared)) : Paging (Holds hs) where
  orderly _ h := h.orderly
  congr w w' h hq hc hp := ⟨h.orderly.congr hq hc hp, fun q hmem => (shields_paging q.1 q.2).congr w w' (h.shields q hmem) hq hc hp⟩
  moves w r p c hr h hm hp ht :=
    ⟨h.orderly.withPages hr hm hp ht, fun q hmem => (shields_paging q.1 q.2).moves w r p c hr (h.shields q hmem) hm hp ht⟩

/-! ### Copies -/

/-- A world whose state has what that of another has, but owns no page. -/
structure Copied (w v : World) : Prop where
  quiet : w.Quiet → v.Quiet
  commons : v.commons = w.commons
  solver : v.solver = w.solver
  settings : v.state.settings = w.state.settings
  arch : v.state.arch = w.state.arch
  constraints : v.state.constraints = w.state.constraints
  temps : v.state.scratch.temps = w.state.scratch.temps
  guard : v.state.scratch.guard = w.state.scratch.guard
  exit : v.state.scratch.exitStmt = w.state.scratch.exitStmt
  target : v.state.scratch.target = w.state.scratch.target
  fast : ∀ r : Region, r.Main → (v.state.part r).fast = (w.state.part r).fast
  pages : ∀ r : Region, r.Main → (v.state.part r).paged.pages = (w.state.part r).paged.pages
  contents : ∀ r : Region, r.Main → v.contents r = w.contents r
  bare : ∀ r : Region, r.Main → ∀ i, ¬ (v.state.part r).paged.Owns i

/-- A world whose state owns no page. -/
def Bare (w : World) : Prop := ∀ r : Region, r.Main → ∀ i, ¬ (w.state.part r).paged.Owns i

def parts (w : World) : List (Paged × Unshared) :=
  [((w.state.part .memory).paged, w.contents .memory), ((w.state.part .registers).paged, w.contents .registers)]

lemma mem_parts {q} : q ∈ w.parts ↔ ∃ r, r.Main ∧ q = ((w.state.part r).paged, w.contents r) := by
  simp only [parts, List.mem_cons, List.not_mem_nil, or_false]
  constructor
  · rintro (rfl | rfl)
    · exact ⟨.memory, .memory, rfl⟩
    · exact ⟨.registers, .registers, rfl⟩
  · rintro ⟨_, _ | _, rfl⟩
    · exact .inl rfl
    · exact .inr rfl

section
variable (hv : Copied w v)
include hv

lemma Copied.placed (h : w.Orderly) (hr : r.Main) : (v.state.part r).paged.Placed v.commons :=
  Paged.placed_of_pages (h.placed r hr) (hv.pages r hr) (by rw [hv.commons])

lemma Copied.orderly (h : w.Orderly) : v.Orderly where
  quiet := hv.quiet h.quiet
  placed _ hr := hv.placed h hr
  tidy r hr := hv.contents r hr ▸ h.tidy r hr
  apart r _ hr _ _ i ho := absurd ho (hv.bare r hr i)

lemma Copied.holds (h : Holds hs w) : Holds hs v where
  orderly := hv.orderly h.orderly
  shields q hq := by
    have hs := h.shields q hq
    refine ⟨hv.orderly h.orderly, ?_, ?_, fun r hr i ho => absurd ho (hv.bare r hr i)⟩
    · rw [hv.commons]
      exact hs.placed
    · rw [hv.commons]
      exact hs.contents

lemma Copied.holds_parts (hu : Copied w u) (h : Holds hs w) : Holds (u.parts ++ hs) v where
  orderly := hv.orderly h.orderly
  shields q hq := by
    obtain hq | hq := List.mem_append.1 hq
    · obtain ⟨r, hr, rfl⟩ := mem_parts.1 hq
      have hc : v.commons = u.commons := hv.commons.trans hu.commons.symm
      refine ⟨hv.orderly h.orderly, ?_, ?_, fun r' hr' i ho => absurd ho (hv.bare r' hr' i)⟩
      · rw [hc]
        exact hu.placed h.orderly hr
      · rw [hc]
        rfl
    · exact (hv.holds h).shields q hq

end

section
variable (h : Holds (u.parts ++ hs) v) (hu : u.Orderly) (hbare : u.Bare)
include h hu hbare

/-- **Back to a state** that was held while another one worked. -/
theorem Holds.back : Holds hs { v with state := u.state } ∧
      ∀ r, r.Main → ({ v with state := u.state } : World).contents r = u.contents r := by
  have hpart : ∀ r, r.Main → Shields (u.state.part r).paged (u.contents r) v := fun r hr =>
    h.shields _ (List.mem_append_left _ (mem_parts.2 ⟨r, hr, rfl⟩))
  have hcont : ∀ r, r.Main → ({ v with state := u.state } : World).contents r = u.contents r := fun r hr => (hpart r hr).contents
  have horder : Orderly { v with state := u.state } :=
    ⟨hu.quiet, fun r hr => (hpart r hr).placed, fun r hr => hcont r hr ▸ hu.tidy r hr, fun r _ hr _ _ i ho => absurd ho (hbare r hr i)⟩
  refine ⟨⟨horder, fun q hq => ?_⟩, hcont⟩
  have hq := h.shields q (List.mem_append_right _ hq)
  exact ⟨horder, hq.placed, hq.contents, fun r hr i ho => absurd ho (hbare r hr i)⟩

lemma Holds.trade : Holds (v.parts ++ hs) { v with state := u.state } := by
  obtain ⟨hback, -⟩ := h.back hu hbare
  refine ⟨hback.orderly, fun q hq => ?_⟩
  obtain hq | hq := List.mem_append.1 hq
  · obtain ⟨r, hr, rfl⟩ := mem_parts.1 hq
    exact ⟨hback.orderly, h.orderly.placed r hr, rfl, fun r' hr' i ho => absurd ho (hbare r' hr' i)⟩
  · exact hback.shields q hq

end

end World

/-- **A copy of the current state**: it and the state it was taken from have what the state had. -/
theorem Exec.fork_copied (w) :
    ∃ copy w', Exec.fork w = .ok copy w' ∧ World.Copied w w' ∧ World.Copied w { w' with state := copy } := by
  refine ⟨_, _, rfl, ⟨id, rfl, rfl, rfl, rfl, rfl, rfl, rfl, rfl, rfl, ?_, ?_, ?_, ?_⟩,
    ⟨id, rfl, rfl, rfl, rfl, rfl, rfl, rfl, rfl, rfl, ?_, ?_, ?_, ?_⟩⟩
  all_goals
    intro r hr
    cases hr
  all_goals first
    | rfl
    | exact fun i => (Paged.not_owns_branch _ i).1

end SymExec
