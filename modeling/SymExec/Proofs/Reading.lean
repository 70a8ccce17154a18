import SymExec.Proofs.Orderly

/-!
# Reading changes no byte that is there

Reading a range finds the chunks over it and fills in the bytes that are missing.
-/

namespace SymExec

open Chunk Paged Unshared

variable {c : Chunk}

/-! ### Filling in -/

/-- **A chunk laid under a page** at bytes that are missing shows at the addresses it covers; the others show what they did. -/
theorem Page.at?_underwrite {p : Page} {n a : Nat} (h : p.Sound n) (ha : a / pageSize = n)
    (hmiss : ∀ x, x / pageSize = n → c.covers x = true → p.at? x = none) :
    (p.underwrite c).at? a = if c.covers a then some c else p.at? a := by
  have hcells : c.covers a = true → p.cells[a]? = none ∧ p.whole = none := fun hc => by
    have := hmiss a ha hc
    rw [at?, Option.orElse_eq_none] at this
    exact this
  simp only [underwrite]
  split
  · rename_i hfull
    obtain ⟨h1, h2⟩ := clip_eq_iff.1 hfull
    have hm := mem_page_iff.1 ha
    have hb := h.base
    rw [stop] at h2
    have hc : c.covers a = true := covers_iff.2 ⟨by omega, by omega⟩
    rw [if_pos hc]
    simp [at?, (hcells hc).1]
  · rw [at?, getElem?_foldl_insertIfNew]
    by_cases hc : c.covers a
    · rw [if_pos ((mem_clip_iff h.base).2 ⟨ha, hc⟩), if_pos hc, (hcells hc).1]
      rfl
    · rw [if_neg (fun hm => hc ((mem_clip_iff h.base).1 hm).2), if_neg hc, Option.or_none]
      rfl

namespace Unshared

variable {u : Unshared}

lemma store_under (hu : u.Tidy) (tracking : Bool) (hmiss : ∀ x, c.covers x = true → u.view x = none) :
    ∃ v, store false tracking false c u = .ok () v ∧ ∀ a, v.view a = if c.covers a then some c else u.view a := by
  obtain ⟨v, hv, -, hk, -, hp⟩ := store_run u tracking false c
  refine ⟨v, hv, fun a => ?_⟩
  by_cases hin : a / pageSize ∈ pagesOf c.base c.stop
  · rw [view, peek, hp _ hin]
    change ((u.under (a / pageSize)).underwrite c).at? a = _
    rw [Page.at?_underwrite (under_sound (hu _)) rfl fun x hx hc => ?_, at?_under u rfl]
    rw [at?_under u hx, hmiss x hc]
  · rw [if_neg fun h => hin (mem_pagesOf_of_covers h), view, view, hk _ hin]

end Unshared

/-! ### What shows in a world -/

namespace World

/-- The world is orderly, and its memory and registers show certain chunks. -/
structure Shows (V : Region → Nat → Chunk → Prop) (w : World) : Prop where
  orderly : w.Orderly
  shows : ∀ r : Region, r.Main → ∀ a c, V r a c → (w.contents r).view a = some c

variable {V : Region → Nat → Chunk → Prop} {w w' : World} {r : Region} {p : Paged} {k : Commons}

lemma contents_withPages_self (hr : r.Main) : (w.withPages r p k).contents r = p.unshared k := by
  rw [contents, part_withPages_self hr]
  rfl

lemma Shows.withPages (h : Shows V w) (hr : r.Main) (hm : Moves (w.state.part r).paged w.commons p k) (hp : p.Placed k)
    (ht : (p.unshared k).Tidy) (hv : ∀ a c, V r a c → (p.unshared k).view a = some c) : Shows V (w.withPages r p k) := by
  refine ⟨h.orderly.withPages hr hm hp ht, fun r' hr' a c hc => ?_⟩
  by_cases he : r' = r
  · subst he
    rw [contents_withPages_self hr]
    exact hv a c hc
  · rw [contents, part_withPages_ne hr hr' he]
    exact (hm.frame (h.orderly.placed r' hr') (h.orderly.apart r r' hr hr' (Ne.symm he))).2 ▸ h.shows r' hr' a c hc

lemma part_of_core (h : w'.core = w.core) (r : Region) : w'.state.part r = w.state.part r := by
  cases r <;> [exact congrArg Core.registers h; exact congrArg Core.memory h; exact congrArg Core.memory h]

lemma contents_of_core (h : w'.core = w.core) (r) : w'.contents r = w.contents r := by
  rw [contents, contents, show w'.commons = w.commons from congrArg Core.commons h, part_of_core h]

lemma shows_central : Central (Shows V) :=
  ⟨fun _ h => h.orderly.quiet, fun _ _ h hq hc => ⟨orderly_paging.of_core h.orderly hq hc, fun r hr a c hV => by
    rw [contents_of_core hc]
    exact h.shows r hr a c hV⟩⟩

end World

namespace Exec

open World

variable {V : Region → Nat → Chunk → Prop} {w : World} {r : Region} {name : String} {bits n addr : Nat} {inspected events : Bool}
  {b : Bits} {w' : World}

lemma freshSymbol_spec (h : freshSymbol name bits inspected events w = .ok b w') : b.Valid ∧ b.width = bits := by
  obtain ⟨n, t, -, h⟩ := ok_of_bind h
  have hsym : ∀ t, (do
      if events then note "unconstrained"
      return .sym s!"{name}_{n}_{bits}" bits : Exec Bits) t = .ok b w' → b.Valid ∧ b.width = bits := fun t h => by
    split at h <;>
    · cases h
      exact ⟨trivial, rfl⟩
  cases inspected with
  | true =>
    obtain ⟨_, t, -, h⟩ := ok_of_bind h
    exact hsym t h
  | false => exact hsym _ h

lemma unconstrained_spec (h : unconstrained name bits inspected events w = .ok b w') : b.Valid ∧ b.width = bits := by
  obtain ⟨_, _, -, h⟩ := ok_of_bind h
  split at h
  · exact freshSymbol_spec h
  · cases h
    exact ⟨Bits.valid_zero bits, rfl⟩

lemma unknownBytes_spec (h : unknownBytes r name bits inspected events w = .ok b w') : b.Valid ∧ b.width = bits := by
  obtain ⟨_, _, -, h⟩ := ok_of_bind h
  split at h
  · cases h
    exact ⟨Bits.valid_zero bits, rfl⟩
  · exact unconstrained_spec h

lemma length_filled (hn : n ≤ pageSize) {parts}
    (h : (List.range ((n + pageSize - 1) / pageSize)).mapM
      (fun _ => unknownBytes r name (8 * min pageSize n) inspected events) w = .ok parts w')
    (little : Bool) : (Bits.concatList (if little then parts.map Bits.reverse else parts)).width = 8 * n := by
  rw [Nat.min_eq_right hn] at h
  by_cases hz : n = 0
  · subst hz
    cases h
    cases little <;> rfl
  · have hone : (n + pageSize - 1) / pageSize = 1 := by
      simp only [pageSize] at hn ⊢
      omega
    rw [hone, List.range_one] at h
    obtain ⟨b, t, hb, h⟩ := ok_of_bind h
    cases h
    obtain ⟨hvalid, hwidth⟩ := unknownBytes_spec hb
    cases little with
    | false => exact hwidth
    | true => exact (Bits.reverse_agrees hvalid (by omega)).width.trans hwidth

lemma onPages_under (hr : r.Main) (tracking : Bool) (hmiss : ∀ x, c.covers x = true → (w.contents r).view x = none)
    (h : Shows V w) : Shows V (leaves (onPages r (Paged.store false tracking false c)) w) ∧ ∀ x, c.covers x = false →
        ((leaves (onPages r (Paged.store false tracking false c)) w).contents r).view x = (w.contents r).view x := by
  obtain ⟨v, hrun, hview⟩ := Unshared.store_under (h.orderly.tidy r hr) tracking hmiss
  obtain ⟨hm, hp, hu⟩ := (Paged.store_refines false tracking false c).leaves (h.orderly.placed r hr) rfl
  have hv : leaves (Unshared.store false tracking false c) ((w.state.part r).paged.unshared w.commons) = v := by
    change leaves (Unshared.store false tracking false c) (w.contents r) = v
    rw [leaves, hrun]
  rw [hv] at hu
  have ht : v.Tidy := (Unshared.store_tidy false tracking false c _).of_ok (h.orderly.tidy r hr) hrun
  rw [leaves_onPages_main hr]
  refine ⟨h.withPages hr hm hp (hu ▸ ht) fun a d hd => ?_, fun x hx => ?_⟩
  · have hold := h.shows r hr a d hd
    have hfree : c.covers a = false := by
      cases hc : c.covers a with
      | false => rfl
      | true => exact absurd (hold.symm.trans (hmiss a hc)) (by simp)
    rw [hu, hview a, hfree]
    exact hold
  · rw [contents_withPages_self hr, hu, hview x, hx]
    rfl

/-- **Missing bytes that are filled in** show where they are missing; all that showed before does so still. -/
theorem fillMissing_shows (hr : r.Main) (hn : n ≤ pageSize) (inspected events : Bool)
    (hmiss : ∀ x, addr ≤ x → x < addr + n → (w.contents r).view x = none) (h : Shows V w) :
    Shows V (leaves (fillMissing r addr n inspected events) w) ∧
      ∀ x < addr, ((leaves (fillMissing r addr n inspected events) w).contents r).view x = (w.contents r).view x := by
  -- up to the store nothing happens to the pages
  let Q (t : World) : Prop := Shows V t ∧ t.contents r = w.contents r
  let G (t : World) : Prop := Shows V t ∧ ∀ x < addr, (t.contents r).view x = (w.contents r).view x
  have central : Central Q :=
    ⟨fun _ h => h.1.orderly.quiet, fun s t h hq hc =>
      ⟨shows_central.drift s t h.1 hq hc, (contents_of_core hc r).trans h.2⟩⟩
  have weaken : ∀ t, Q t → G t := fun t ht => ⟨ht.1, fun x _ => by rw [ht.2]⟩
  refine Steady.bind_weaken memoryAt_steady weaken (fun m t hm ht => ?_) ⟨h, rfl⟩
  refine Steady.bind_weaken (.mapM _ fun _ _ t => unknownBytes_steady central) weaken (fun parts t hparts ht => ?_) ht
  refine Steady.bind_weaken .get weaken (fun a t ha ht => ?_) ht
  have stored : ∀ (c) t, Q t → c.base = addr → c.length = n → G (leaves (do
      let tracking ← trackingNames
      onPages r (Paged.store false tracking false c)
      return c : Exec Chunk) t) := by
    intro c t ht hbase hlen
    refine Steady.bind_weaken .get weaken (fun v t hv ht => ?_) ht
    have hcov : ∀ x, c.covers x = true ↔ addr ≤ x ∧ x < addr + n := fun x => by rw [covers_iff, stop, hbase, hlen]
    obtain ⟨h1, h2⟩ := onPages_under hr v (fun x hx => by rw [ht.2]; exact hmiss x ((hcov x).1 hx).1 ((hcov x).1 hx).2) ht.1
    refine Steady.bind (fun _ => ⟨h1, fun x hx => ?_⟩) (fun _ _ _ => .pure c) (weaken t ht)
    rw [h2 x, ht.2]
    cases hc : c.covers x with
    | false => rfl
    | true => exact absurd ((hcov x).1 hc).1 (Nat.not_le.2 hx)
  have hlen := length_filled hn hparts (decide (a.endness = .little))
  simp only [decide_eq_true_eq] at hlen
  have hbytes : (8 * n) / 8 = n := by omega
  cases events with
  | true =>
    exact Steady.bind_weaken (note_steady central) weaken (fun _ t _ ht => stored _ t ht rfl (by rw [Chunk.ofBits, hlen, hbytes])) ht
  | false => exact stored _ t ht rfl (by rw [Chunk.ofBits, hlen, hbytes])

/-- The bytes of the chunks of a range, from the last one back, with those that are missing after a chunk. -/
lemma gather_go_shows (hr : r.Main) (inspected events) (items : List (Nat × Chunk)) {stop} (segments)
    (hn : stop - addr ≤ pageSize) (hback : (w.contents r).view.Back addr stop items) (h : Shows V w) :
    Shows V (leaves (gather.go r inspected events stop segments items) w) ∧
      ∀ p w', gather.go r inspected events stop segments items w = .ok p w' →
        p.1 ≤ stop ∧ ∀ x, addr ≤ x → x < p.1 → (w'.contents r).view x = none := by
  induction items generalizing w stop segments with
  | nil =>
    refine ⟨h, fun p w' hrun => ?_⟩
    cases hrun
    exact ⟨le_rfl, hback⟩
  | cons item items ih =>
    obtain ⟨a, c⟩ := item
    obtain ⟨hle, hlt, hfirst, hrest, hback⟩ := hback
    obtain ⟨hbase, hstop⟩ := covers_iff.1 ((h.orderly.tidy r hr).covers hfirst)
    rw [gather.go]
    by_cases hcov : c.covers (stop - 1) = true
    · rw [if_pos hcov]
      obtain ⟨h1, h2⟩ := ih (c.bytesAt a (stop - a) :: segments) (by omega) hback h
      exact ⟨h1, fun p w' hp => ⟨Nat.le_trans (h2 p w' hp).1 hlt.le, (h2 p w' hp).2⟩⟩
    · rw [if_neg hcov]
      -- past the chunk nothing shows
      have hmiss : ∀ x, c.stop ≤ x → x < c.stop + (stop - c.stop) → (w.contents r).view x = none := fun x hx hx' => by
        refine (hrest x (by omega) (by omega)).resolve_right fun hc => ?_
        have := (covers_iff.1 ((h.orderly.tidy r hr).covers hc)).2
        omega
      obtain ⟨h1, h2⟩ := fillMissing_shows hr (by omega) inspected events hmiss h
      cases hfill : fillMissing r c.stop (stop - c.stop) inspected events w with
      | error f t =>
        rw [leaves, bind_of_error hfill]
        rw [leaves, hfill] at h1
        exact ⟨h1, by simp⟩
      | ok fill t =>
        rw [leaves, bind_of_ok hfill]
        rw [leaves, hfill] at h1 h2
        obtain ⟨h3, h4⟩ := ih (c.bytesAt a (c.stop - a) :: (fill.bytesAt c.stop (stop - c.stop)).reverse :: segments)
          (by omega) (hback.congr fun x _ hx => (h2 x (by omega)).symm) h1
        exact ⟨h3, fun p w' hp => ⟨Nat.le_trans (h4 p w' hp).1 hlt.le, (h4 p w' hp).2⟩⟩

lemma onPages_chunks_shows (hr : r.Main) (enforced : Bool) (addr n) (h : Shows V w) :
    Shows V (leaves (onPages r (chunks enforced false addr n)) w) ∧
      ∀ items w', onPages r (chunks enforced false addr n) w = .ok items w' → (w'.contents r).view.Back addr (addr + n) items.reverse := by
  obtain ⟨v, hreads, hcase⟩ := chunks_back (h.orderly.tidy r hr) enforced false (fun _ => rfl) addr n
  obtain ⟨hm, hp, hu⟩ := (chunks_refines enforced false addr n).leaves (h.orderly.placed r hr) rfl
  have hv : leaves (chunks enforced false addr n (pagesOf addr (addr + n))) (w.contents r) = v := by
    obtain ⟨_, f, hf⟩ | ⟨items, hi, -⟩ := hcase
    · rw [leaves, hf]
    · rw [leaves, hi]
  replace hu := hu.trans hv
  rw [leaves_onPages_main hr]
  refine ⟨h.withPages hr hm hp (hu ▸ hreads.tidy (h.orderly.tidy r hr)) fun a c hc => ?_, fun items w' hrun => ?_⟩
  · rw [hu, hreads.view a]
    exact h.shows r hr a c hc
  · obtain ⟨_, f, hf⟩ | ⟨items', hi, hback⟩ := hcase
    · -- a fault is one on the pages too
      have hans := (chunks_refines enforced false addr n).answer (h.orderly.placed r hr)
      rw [answer, answer, show chunks _ _ _ _ _ ((w.state.part r).paged.unshared w.commons) = _ from hf] at hans
      rw [onPages_main hr] at hrun
      split at hrun
      · rename_i hx
        rw [hx] at hans
        cases hans
      · cases hrun
    · obtain ⟨p, k, hx, hpk, -, -⟩ := (chunks_refines enforced false addr n).run_ok (h.orderly.placed r hr) hi
      rw [onPages_main hr, hx] at hrun
      cases hrun
      rw [contents_withPages_self hr, hpk]
      exact hback.congr fun x _ _ => (hreads.view x).symm

lemma strict_steady {P} : Steady P (strict r) w := .bind .get fun _ _ _ => memoryAt_steady.done

/-- **Reading a range** of a page at most: all that showed before does so still. -/
theorem readFrom_shows (hr : r.Main) (hn : n ≤ pageSize) : Steady (Shows V) (readFrom r addr n inspected events) w := by
  refine strict_steady.bind fun enforced t ht h => ?_
  obtain ⟨hchunks, hback⟩ := onPages_chunks_shows hr enforced addr n h
  refine Steady.bind (fun _ => hchunks) (fun items t hitems h => ?_) h
  have hback := hback items t hitems
  have rest : Shows V (leaves (gather r addr n inspected events items) t) := by
    obtain ⟨h1, h2⟩ := gather_go_shows hr inspected events items.reverse [] (by omega) hback h
    refine Steady.bind (fun _ => h1) (fun p t hp h => ?_) h
    obtain ⟨hle, hmiss⟩ := h2 p t hp
    refine Steady.ite (fun _ => ?_) (fun _ => .pure _) h
    refine Steady.bind (fun h => (fillMissing_shows hr (by omega) inspected events (fun x hx hx' => ?_) h).1) fun _ _ _ => .pure _
    exact hmiss x hx (by omega)
  rcases items with _ | ⟨⟨a, c⟩, _ | ⟨q, l⟩⟩
  · exact rest
  · exact Steady.ite (fun _ => .pure _) (fun _ _ => rest) h
  · exact rest

end Exec

end SymExec
