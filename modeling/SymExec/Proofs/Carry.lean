import SymExec.Proofs.Path

/-!
# What a jump leaves as it was

A jump writes the instruction pointer, and for a system call the place where it is kept (`Arch.Jumped`).
-/

namespace SymExec

open Exec

open Paged (leaves)

/-! ### Bytes that a store does not touch -/

namespace Unshared

lemma view_setPage (u : Unshared) (n pg x) : (u.setPage n pg).view x = if x / pageSize = n then pg.at? x else u.view x := by
  rw [view, peek]
  by_cases h : x / pageSize = n
  · rw [if_pos h, show (u.setPage n pg).pages (x / pageSize) = some pg from if_pos h]
    rfl
  · rw [if_neg h, show (u.setPage n pg).pages (x / pageSize) = u.pages (x / pageSize) from if_neg h]
    rfl

lemma lookup_view (u n create x) : (leaves (lookup n create) u).view x = u.view x := by
  obtain ⟨v, hv, -, hk, hn, -⟩ := lookup_spec u n create
  rw [leaves, hv]
  rw [view, view]
  by_cases h : x / pageSize = n
  · subst h
    rw [hn]
    cases u.peek (x / pageSize) with
    | some pg => rfl
    | none =>
      cases create with
      | false => rfl
      | true => exact at?_blank u _ x
  · rw [(hk _ h).2]

variable {c : Chunk} {x : Nat}

section
variable (hx : c.covers x = false) (shown : Option Chunk)
include hx shown

lemma putChunk_outside {strict n u} : Steady (fun u => u.Tidy ∧ u.view x = shown) (putChunk strict true n c) u := by
  refine .bind (fun h => ⟨lookup_tidy h.1, (lookup_view u n _ x).trans h.2⟩) fun r v hv => ?_
  cases r with
  | none => exact .throw _
  | some pg =>
    refine .ite (fun _ => .throw _) fun _ h => ?_
    have hpg := peek_of_lookup hv
    have hsound := h.1 n pg hpg
    refine ⟨tidy_setPage h.1 (Page.overwrite_sound hsound c), ?_⟩
    change (v.setPage n (pg.overwrite c)).view x = shown
    rw [view_setPage]
    split
    · rename_i hn
      rw [Page.at?_overwrite hsound hn, hx, at?_eq_view hpg hn]
      exact h.2
    · exact h.2

/-- **Outside the chunk** that is stored all shows as before, also where the store ends in a fault under way. -/
theorem store_outside (strict tracking u) : Steady (fun u => u.Tidy ∧ u.view x = shown) (store strict tracking true c) u := by
  refine (Steady.forM _ fun n _ v => putChunk_outside hx shown).seq ?_
  refine .when fun _ => .forM _ fun a _ v h => ?_
  obtain ⟨v', hv, hr⟩ := noteByte_reads v a c.content
  rw [leaves, hv]
  exact ⟨hr.tidy h.1, (hr.view x).trans h.2⟩

end

end Unshared

namespace World

variable {V : Region → Nat → Chunk → Prop} {w w' : World} {r : Region}

lemma Shows.congr (h : Shows V w) (hq : w'.Quiet) (hc : w'.commons = w.commons)
    (hp : ∀ r, r.Main → (w'.state.part r).paged = (w.state.part r).paged) : Shows V w' := by
  refine ⟨h.orderly.congr hq hc hp, fun r hr a c hV => ?_⟩
  rw [contents, hp r hr, hc]
  exact h.shows r hr a c hV

lemma shows_wordy : Wordy (Shows V) where
  central := shows_central
  words w r f hr h := by
    refine h.congr (fun i hi => h.orderly.quiet i ?_) rfl fun r' hr' => ?_
    · cases hr <;> exact hi
    · cases hr <;> cases hr' <;> rfl

lemma shows_readable (hr : r.Main) {n} (hn : n ≤ pageSize) : Readable (Shows V) r n :=
  ⟨fun _ _ _ _ => readFrom_shows hr hn, fun _ _ _ => loadWord_steady shows_wordy hr⟩

lemma shows_writable (hr : r.Main) {a n} (hV : ∀ x c, V r x c → ¬ (a ≤ x ∧ x < a + n)) : Writable (Shows V) r a n where
  pages enforced tracking v w h := by
    obtain ⟨hm, hp, hu⟩ := (Paged.store_refines enforced tracking true ⟨v, a, n⟩).leaves (h.orderly.placed r hr) rfl
    rw [leaves_onPages_main hr]
    have ht := Unshared.store_tidy enforced tracking true ⟨v, a, n⟩ _ (h.orderly.tidy r hr)
    refine h.withPages hr hm hp (hu ▸ ht) fun x d hd => ?_
    have hx : (⟨v, a, n⟩ : Chunk).covers x = false := by
      rw [Bool.eq_false_iff]
      exact fun hc => hV x d hd (Chunk.covers_iff.1 hc)
    rw [hu]
    exact (Unshared.store_outside hx (some d) enforced tracking _ ⟨h.orderly.tidy r hr, h.shows r hr x d hd⟩).2
  words width part _ data w _ := storeWord_steady shows_wordy hr

end World

/-! ### The ranges that a jump writes -/

namespace Arch

/-- The ranges of registers that a jump writes: the instruction pointer, and where it is kept for a system call. -/
def Jumped (a : Arch) (o n : Nat) : Prop := (o = a.ipOffset ∧ n = a.bytes) ∨ a.register? "ip_at_syscall" = some (o, n)

/-- Words and registers are no longer than a page, and a word can hold their sizes. -/
structure Regular (a : Arch) : Prop where
  word : a.bytes ≤ pageSize
  long : a.longBits / 8 ≤ pageSize
  register : ∀ name o n, a.register? name = some (o, n) → n ≤ pageSize
  wide : pageSize < 2 ^ a.bits

variable {a : Arch}

lemma Regular.jumped (h : a.Regular) {o n} (hj : a.Jumped o n) : n ≤ pageSize := by
  obtain ⟨-, rfl⟩ | hr := hj
  · exact h.word
  · exact h.register _ o n hr

lemma mem_of_getElem?_insertMany {l : Layout} {m : Std.HashMap String (Nat × Nat)} {k v}
    (h : (m.insertMany l)[k]? = some v) : m[k]? = some v ∨ (k, v) ∈ l := by
  induction l generalizing m with
  | nil => exact .inl (by simpa using h)
  | cons p l ih =>
    rw [Std.HashMap.insertMany_cons] at h
    obtain hm | hm := ih h
    · rw [Std.HashMap.getElem?_insert] at hm
      split at hm
      · rename_i hk
        obtain rfl := eq_of_beq hk
        cases hm
        exact .inr (.head _)
      · exact .inl hm
    · exact .inr (.tail _ hm)

lemma regular_of_list (l) (ha : a.registers = Std.HashMap.ofList l) (hword : a.bytes ≤ pageSize)
    (hlong : a.longBits / 8 ≤ pageSize) (hwide : pageSize < 2 ^ a.bits) (hl : ∀ p ∈ l, p.2.2 ≤ pageSize) : a.Regular := by
  refine ⟨hword, hlong, fun name o n h => ?_, hwide⟩
  rw [register?, ha, Std.HashMap.ofList_eq_insertMany_empty] at h
  obtain h | h := mem_of_getElem?_insertMany h
  · simp at h
  · exact hl _ h

lemma bank_sizes {start stride size names} (h : size ≤ pageSize) : ∀ p ∈ bank start stride size names, p.2.2 ≤ pageSize := by
  simp only [bank, List.mem_flatten, List.mem_mapIdx]
  rintro p ⟨_, ⟨i, hi, rfl⟩, hp⟩
  obtain ⟨n, -, rfl⟩ := List.mem_map.1 hp
  exact h

lemma regular_of_name {name} (h : ofName? name = some a) : a.Regular := by
  unfold ofName? at h
  split at h
  case h_11 => cases h
  all_goals
    cases h
    refine regular_of_list _ rfl (by decide +kernel) (by decide +kernel) (by decide +kernel) ?_
    repeat' refine List.forall_mem_append.2 ⟨?_, ?_⟩
    all_goals first | exact bank_sizes (by decide) | decide +kernel

end Arch

namespace World

variable {v w w' u : World} {r : Region} {n : Nat} {P Q : World → Prop} {part : Nat × Nat × Nat} {l : Lane} {Γ : Model → Prop}
  {hs : List (Paged × Unshared)}

/-! ### What a state has -/

def Overwritten (v : World) (r : Region) (x : Nat) : Prop := r = .registers ∧ ∃ o n, v.state.arch.Jumped o n ∧ o ≤ x ∧ x < o + n

/-- The chunks that a state has, but for bytes that a jump writes. -/
def Spared (v : World) (r : Region) (x : Nat) (c : Chunk) : Prop := (v.contents r).view x = some c ∧ ¬ v.Overwritten r x

def word? (w : World) (r : Region) (base : Nat) : Option Bits := (w.state.part r).fast.bind (·.words[base]?)

def Rewritten (v : World) (r : Region) (base : Nat) : Prop :=
  r = .registers ∧ ∃ o n width, v.state.arch.Jumped o n ∧ v.Spans r width ∧ ∃ part ∈ wordParts width o n, part.1 = base

/-- The temporaries of a state and its words, but for those that a jump writes. -/
structure Stays (v w : World) : Prop where
  quiet : w.Quiet
  arch : w.state.arch = v.state.arch
  temps : w.state.scratch.temps = v.state.scratch.temps
  widths : ∀ r : Region, r.Main → (w.state.part r).fast.map WordMemory.width = (v.state.part r).fast.map WordMemory.width
  words : ∀ r : Region, r.Main → ∀ base d, v.word? r base = some d → ¬ v.Rewritten r base → w.word? r base = some d

/-- A world whose state has what that of another has, but for the ranges that a jump writes. -/
structure Carries (v w : World) : Prop where
  shows : Shows (Spared v) w
  stays : Stays v w

lemma carries_refl (h : v.Orderly) : Carries v v :=
  ⟨⟨h, fun _ _ _ _ hk => hk.1⟩, ⟨h.quiet, rfl, rfl, fun _ _ => rfl, fun _ _ _ _ hd _ => hd⟩⟩

lemma Stays.congr (h : Stays v w) (hq : w'.Quiet) (ha : w'.state.arch = w.state.arch)
    (ht : w'.state.scratch.temps = w.state.scratch.temps)
    (hf : ∀ r, r.Main → (w'.state.part r).fast = (w.state.part r).fast) : Stays v w' := by
  refine ⟨hq, ha.trans h.arch, ht.trans h.temps, fun r hr => ?_, fun r hr base d hd hn => ?_⟩
  · rw [hf r hr]
    exact h.widths r hr
  · rw [word?, hf r hr]
    exact h.words r hr base d hd hn

lemma stays_pageable : Pageable (Stays v) where
  central := ⟨fun _ h => h.quiet, fun w w' h hq hc =>
    h.congr hq (congrArg Core.arch hc) (congrArg Core.temps hc) fun r _ => congrArg Memory.fast (part_of_core hc r)⟩
  pages {r} _ x _ hr _ _ w h := by
    rw [leaves_onPages_main hr]
    refine h.congr (quiet_withPages h.quiet) ?_ ?_ fun r' hr' => ?_
    · cases hr <;> rfl
    · cases hr <;> rfl
    · cases hr <;> cases hr' <;> rfl

lemma Stays.insert (h : Stays v w) (hr : r.Main) {base} (hfree : v.word? r base = none ∨ v.Rewritten r base) (d) :
    Stays v { w with state := w.state.put r { w.state.part r with
      fast := (w.state.part r).fast.map fun f => { f with words := f.words.insert base d } } } := by
  refine ⟨fun i hi => h.quiet i ?_, ?_, ?_, fun r' hr' => ?_, fun r' hr' base' d' hd hn => ?_⟩
  · cases hr <;> exact hi
  · cases hr <;> exact h.arch
  · cases hr <;> exact h.temps
  · by_cases he : r' = r
    · subst he
      rw [State.part_put_self hr, Option.map_map]
      exact h.widths r' hr
    · rw [State.part_put_ne hr hr' he]
      exact h.widths r' hr'
  · have hold := h.words r' hr' base' d' hd hn
    by_cases he : r' = r
    · subst he
      have hne : base ≠ base' := fun e => hfree.elim (fun hf => by rw [e, hd] at hf; exact nomatch hf) (e ▸ hn)
      rw [word?, State.part_put_self hr]
      rw [word?] at hold
      cases hf : (w.state.part r').fast with
      | none =>
        rw [hf] at hold
        cases hold
      | some f =>
        rw [hf] at hold
        change (f.words.insert base d)[base']? = some d'
        rw [Std.TreeMap.getElem?_insert, if_neg fun hc => hne (compare_eq_iff_eq.1 hc)]
        exact hold
    · rw [word?, State.part_put_ne hr hr' he]
      exact hold

lemma loadWord_stays (hr : r.Main) {width} : Steady (Stays v) (loadWord r width part) w := by
  refine memoryAt_steady.bind fun m t hm => ?_
  cases (memoryAt_main hr w).symm.trans hm
  split
  · exact .pure _
  · rename_i hnone
    intro h
    -- until it is set, the word is missing
    have central : Central fun t => Stays v t ∧ t.word? r part.1 = none :=
      ⟨fun _ h => h.1.quiet, fun s t h hq hc => ⟨stays_pageable.central.drift s t h.1 hq hc, by rw [word?, part_of_core hc]; exact h.2⟩⟩
    refine Steady.bind_weaken (freshSymbol_steady central) (fun _ h => h.1) (fun b t _ ht => ?_) ⟨h, hnone⟩
    refine Steady.bind (fun _ => ?_) (fun _ _ _ => .pure _) ht.1
    rw [leaves, setWord, modifyMemory_main hr]
    refine ht.1.insert hr ?_ _
    cases hv : v.word? r part.1 with
    | none => exact .inl rfl
    | some d => exact .inr (Classical.byContradiction fun hn => by cases ht.2.symm.trans (ht.1.words r hr _ d hv hn))

lemma storeWord_stays {o width} (hj : v.state.arch.Jumped o n) (hpart : part ∈ wordParts width o n) {data}
    (hw : w.Spans .registers width) : Steady (Stays v) (storeWord .registers width part data) w := by
  intro h
  have hspans : v.Spans .registers width := (h.widths .registers .registers).symm.trans hw
  refine storeWord_keeps (fun p _ => loadWord_stays .registers) (fun d t ht => ?_) h
  exact ht.insert .registers (.inr ⟨rfl, o, n, width, hj, hspans, part, hpart, rfl⟩) _

lemma Carries.held {hs u} (h : Carries v u) (hparts : ∀ q ∈ u.parts, q ∈ hs) (hw : Holds hs w) :
    Carries v { w with state := u.state } := by
  have hshield : ∀ r, r.Main → Shields (u.state.part r).paged (u.contents r) w := fun r hr =>
    hw.shields _ (hparts _ (mem_parts.2 ⟨r, hr, rfl⟩))
  have hcont : ∀ r, r.Main → ({ w with state := u.state } : World).contents r = u.contents r := fun r hr => (hshield r hr).contents
  have horder := h.shows.orderly
  refine ⟨⟨⟨horder.quiet, fun r hr => (hshield r hr).placed, fun r hr => hcont r hr ▸ horder.tidy r hr, horder.apart⟩, ?_⟩, ?_⟩
  · intro r hr a c hk
    rw [hcont r hr]
    exact h.shows.shows r hr a c hk
  · exact h.stays.congr horder.quiet rfl rfl fun _ _ => rfl

/-! ### What a jump keeps -/

/-- A property that a jump keeps on an architecture: reads and the writes of the jump keep it, and so does adding conditions
that hold anyway. -/
structure Passage (a : Arch) (P : World → Prop) : Prop where
  central : Central P
  arch : ∀ w, P w → w.state.arch = a
  readable : ∀ {r : Region} {n : Nat}, r.Main → n ≤ pageSize → Readable P r n
  writable : ∀ {o n : Nat}, a.Jumped o n → Writable P .registers o n
  adds : ∀ w cs noted, (∀ μ : Model, μ.Meets w.state.constraints → μ.Meets cs) → Steady P (addConstraints cs noted) w

instance {a : Arch} : CoeOut (Passage a P) (Central P) := ⟨(·.central)⟩

lemma Readable.and (hP : Readable P r n) (hQ : Readable Q r n) : Readable (fun w => P w ∧ Q w) r n :=
  ⟨fun a i e w h => ⟨hP.pages a i e w h.1, hQ.pages a i e w h.2⟩,
    fun width part w h => ⟨hP.words width part w h.1, hQ.words width part w h.2⟩⟩

lemma Writable.and {a} (hP : Writable P r a n) (hQ : Writable Q r a n) : Writable (fun w => P w ∧ Q w) r a n :=
  ⟨fun e t d w h => ⟨hP.pages e t d w h.1, hQ.pages e t d w h.2⟩,
    fun width part hp d w hs h => ⟨hP.words width part hp d w hs h.1, hQ.words width part hp d w hs h.2⟩⟩

/-- A state on its way out of a block: it is on a path, owns no page that other states hold, and has what the state of a world
had, but for the ranges that a jump writes. -/
structure Parting (l : Lane) (Γ : Model → Prop) (hs : List (Paged × Unshared)) (v w : World) : Prop where
  on : On l Γ w
  holds : Holds hs w
  carries : Carries v w

/-- **What a jump keeps**: the path, what other states hold, and what the state has. -/
theorem parting_passage (Γ : Model → Prop) (hs : List (Paged × Unshared)) (hl : l.Plain) (ha : v.state.arch = l.arch) :
    Passage l.arch (Parting l Γ hs v) := by
  have hframe : Frame fun w => On l Γ w ∧ Holds hs w := frame_of_paging hl (holds_paging hs)
  have hiff : Parting l Γ hs v = fun w => (On l Γ w ∧ Holds hs w) ∧ Shows (Spared v) w ∧ Stays v w := by
    funext w
    exact propext ⟨fun h => ⟨⟨h.on, h.holds⟩, h.carries.shows, h.carries.stays⟩, fun h => ⟨h.1.1, h.1.2, h.2.1, h.2.2⟩⟩
  rw [hiff]
  refine ⟨⟨fun _ h => h.1.1.quiet, fun w w' h hq hc => ?_⟩, fun w h => h.1.1.arch, fun {r n} hr hn => ?_, fun {o n} hj => ?_, ?_⟩
  · exact ⟨hframe.central.drift w w' h.1 hq hc, shows_central.drift w w' h.2.1 hq hc, stays_pageable.central.drift w w' h.2.2 hq hc⟩
  · refine (hframe.toLoose.readable hr n).and ((shows_readable hr hn).and ⟨fun a i e w => ?_, fun width part w => ?_⟩)
    · exact readFrom_steady stays_pageable hr
    · exact loadWord_stays hr
  · rw [← ha] at hj
    refine (hframe.toLoose.writable .registers o n).and ((shows_writable .registers fun x c hk hx => ?_).and ⟨?_, ?_⟩)
    · exact hk.2 ⟨rfl, o, n, hj, hx⟩
    · exact fun e t d w => stays_pageable.pages .registers (Paged.store_refines _ _ _ _) (Unshared.store_tidy _ _ _ _) w
    · exact fun width part hp d w hw => storeWord_stays hj hp hw
  · intro w cs noted himp h
    refine ⟨hframe.adds w cs noted himp h.1, ?_⟩
    obtain ⟨w', ds, hrun, ⟨hq, i, e, b, rfl⟩, -⟩ := addConstraints_run cs noted h.1.1.quiet
    rw [leaves, hrun]
    refine ⟨h.2.1.congr hq rfl fun r hr => ?_, h.2.2.congr hq rfl rfl fun r hr => ?_⟩ <;>
    · cases hr <;> rfl

section
variable (h : Parting l Γ hs v w)
include h

lemma Parting.congr {l' Γ'} (hon : On l' Γ' w') (hc : w'.commons = w.commons)
    (hparts : ∀ r, r.Main → w'.state.part r = w.state.part r) (ha : w'.state.arch = w.state.arch)
    (ht : w'.state.scratch.temps = w.state.scratch.temps) : Parting l' Γ' hs v w' where
  on := hon
  holds := (holds_paging hs).congr w w' h.holds hon.quiet hc fun r hr => congrArg Memory.paged (hparts r hr)
  carries :=
    ⟨h.carries.shows.congr hon.quiet hc fun r hr => congrArg Memory.paged (hparts r hr),
      h.carries.stays.congr hon.quiet ha ht fun r hr => congrArg Memory.fast (hparts r hr)⟩

lemma Parting.copied (hu : Copied w u) : Parting l Γ hs v u where
  on :=
    ⟨hu.quiet h.on.quiet, hu.settings.trans h.on.settings, hu.solver.trans h.on.solver, hu.arch.trans h.on.arch,
      hu.guard.trans h.on.guard, hu.exit.trans h.on.exit, hu.target.trans h.on.target, fun μ => by rw [hu.constraints]; exact h.on.meets μ⟩
  holds := hu.holds h.holds
  carries :=
    ⟨⟨hu.orderly h.holds.orderly, fun r hr a c hk => by rw [hu.contents r hr]; exact h.carries.shows.shows r hr a c hk⟩,
      h.carries.stays.congr (hu.quiet h.on.quiet) hu.arch hu.temps hu.fast⟩

/-- **A copy and the state it was taken from** have what the state had, and the copy owns no page that the state holds. -/
theorem Parting.fork {copy} (hrun : fork w = .ok copy w') : w'.Bare ∧ Parting l Γ hs v w' ∧
    Parting l Γ (w'.parts ++ hs) v { w' with state := copy } := by
  obtain ⟨_, _, hfork, hown, hcopy⟩ := fork_copied w
  cases hfork.symm.trans hrun
  exact ⟨hown.bare, h.copied hown, (h.copied hcopy).on, hcopy.holds_parts hown h.holds, (h.copied hcopy).carries⟩

end

lemma Parting.back (h : Parting l Γ hs v u) (hbare : u.Bare)
    (hw : Holds (u.parts ++ hs) w) (hsolver : w.solver = l.solver) : Parting l Γ hs v { w with state := u.state } := by
  obtain ⟨hholds, hcont⟩ := hw.back h.holds.orderly hbare
  refine ⟨⟨h.on.quiet, h.on.settings, hsolver, h.on.arch, h.on.guard, h.on.exit, h.on.target, h.on.meets⟩, hholds, ⟨hholds.orderly, ?_⟩, ?_⟩
  · intro r hr a c hk
    rw [hcont r hr]
    exact h.carries.shows.shows r hr a c hk
  · exact h.carries.stays.congr h.on.quiet rfl rfl fun _ _ => rfl

end World

end SymExec
