import SymExec.Proofs.Unshared

/-!
# What a memory shows

The pages of an unshared memory are those it holds and those that come into being when they are looked for; `peek` gives both, and
`view` the chunk that shows at an address.
-/

namespace SymExec

open List Option Chunk Paged Unshared

def Chunk.over (c : Chunk) (V : View) : View := fun a => if c.covers a then some c else V a

/-- One chunk in the place of another wherever that shows. -/
def View.swap (V : View) (old new : Chunk) : View := fun a => (V a).map fun c => if c = old then new else c

namespace Unshared

/-- The page of a number, held or yet to come into being. -/
def peek (u : Unshared) (n : Nat) : Option Page := u.pages n <|> u.fresh? n false

def view (u : Unshared) : View := fun a => (u.peek (a / pageSize)).bind (·.at? a)

def blank (u : Unshared) (n : Nat) : Page := emptyPage u.backing n none

structure SameOrigin (u v : Unshared) : Prop where
  backing : v.backing = u.backing
  stack : v.stack = u.stack

lemma SameOrigin.trans {u v w} (h : SameOrigin u v) (h' : SameOrigin v w) : SameOrigin u w :=
  ⟨h'.backing.trans h.backing, h'.stack.trans h.stack⟩

variable {n k a addr : Nat} {u v : Unshared} {c : Chunk} {pg : Page}

lemma fresh?_create (u : Unshared) (n) : u.fresh? n true = some ((u.fresh? n false).getD (u.blank n)) := by
  simp only [fresh?, Paged.fresh?, blank, Bool.true_or, if_true, Bool.false_or]
  cases if u.initialized.contains n = true then none else Paged.load u.backing n with
  | some pg => rfl
  | none => split <;> rfl

lemma fresh?_seek (hk : k ≠ n) (u : Unshared) (create) : (u.seek n).fresh? k create = u.fresh? k create := by
  have hc : (u.initialized.insert n).contains k = u.initialized.contains k := by simp [Std.TreeSet.contains_insert, hk.symm]
  rw [fresh?, fresh?, Paged.fresh?, Paged.fresh?, seek, hc]

lemma fresh?_seek_self (h : u.fresh? n false = none) : (u.seek n).fresh? n false = none := by
  simp only [fresh?, Paged.fresh?, Option.orElse_eq_none] at h ⊢
  exact ⟨by simp [seek], h.2⟩

/-- **Looking for a page** gives what `peek` shows, or a blank page if it is to be created. -/
theorem lookup_spec (u : Unshared) (n create) :
    ∃ u', lookup n create u = .ok (u.peek n <|> if create then some (u.blank n) else none) u' ∧ SameOrigin u u' ∧
      (∀ k, k ≠ n → u'.pages k = u.pages k ∧ u'.peek k = u.peek k) ∧
      u'.peek n = (u.peek n <|> if create then some (u.blank n) else none) ∧ u'.pages n = u'.peek n := by
  cases hn : u.pages n with
  | some pg =>
    have hpeek : u.peek n = some pg := by rw [peek, hn]; rfl
    refine ⟨u, ?_, ⟨rfl, rfl⟩, fun k _ => ⟨rfl, rfl⟩, ?_, ?_⟩
    · rw [lookup, hn, hpeek]
      rfl
    · rw [hpeek]
      rfl
    · rw [hpeek, hn]
  | none =>
    have hpeek : u.peek n = u.fresh? n false := by rw [peek, hn]; rfl
    have hcreate : u.fresh? n create = (u.fresh? n false <|> if create then some (u.blank n) else none) := by
      cases create
      · simp
      · rw [fresh?_create]
        cases u.fresh? n false <;> rfl
    rw [hpeek, ← hcreate]
    cases hf : u.fresh? n create with
    | some pg =>
      refine ⟨(u.seek n).setPage n pg, ?_, ⟨rfl, rfl⟩, fun k hk => ?_, ?_, ?_⟩
      · rw [lookup, hn]
        simp only [hf]
      · have hpages : ((u.seek n).setPage n pg).pages k = u.pages k := if_neg hk
        have hfresh : ((u.seek n).setPage n pg).fresh? k false = u.fresh? k false := fresh?_seek hk u false
        rw [peek, hpages, hfresh]
        exact ⟨rfl, rfl⟩
      · simp [peek, setPage]
      · simp [peek, setPage]
    | none =>
      have hnone : u.fresh? n false = none := ((orElse_eq_none _ _).1 (hcreate.symm.trans hf)).1
      have hpages : (u.seek n).pages n = none := hn
      have hpeek' : (u.seek n).peek n = none := by
        rw [peek, hpages, fresh?_seek_self hnone]
        rfl
      refine ⟨u.seek n, ?_, ⟨rfl, rfl⟩, fun k hk => ⟨rfl, ?_⟩, hpeek', ?_⟩
      · rw [lookup, hn]
        simp only [hf]
      · rw [peek, fresh?_seek hk]
        rfl
      · rw [hpeek', hpages]

/-! ### Reading -/

/-- What reading may do: pages that were yet to come into being are held. -/
structure Reads (u v : Unshared) : Prop where
  origin : SameOrigin u v
  peek : ∀ n, v.peek n = u.peek n
  held : ∀ n pg, u.pages n = some pg → v.pages n = some pg

lemma Reads.refl (u : Unshared) : Reads u u := ⟨⟨rfl, rfl⟩, fun _ => rfl, fun _ _ h => h⟩

lemma Reads.trans {w} (h : Reads u v) (h' : Reads v w) : Reads u w :=
  ⟨h.origin.trans h'.origin, fun n => (h'.peek n).trans (h.peek n), fun n pg hp => h'.held n pg (h.held n pg hp)⟩

lemma Reads.view (h : Reads u v) (a : Nat) : v.view a = u.view a := by rw [Unshared.view, Unshared.view, h.peek]

lemma lookup_reads (u : Unshared) (n) : ∃ v, lookup n false u = .ok (u.peek n) v ∧ Reads u v ∧ v.pages n = u.peek n := by
  obtain ⟨v, hv, ho, hk, hn, hp⟩ := lookup_spec u n false
  have e : (u.peek n <|> if false = true then some (u.blank n) else none) = u.peek n := by simp
  rw [e] at hv hn
  refine ⟨v, hv, ⟨ho, fun k => ?_, fun k pg h => ?_⟩, hp.trans hn⟩
  · by_cases h : k = n
    · rw [h, hn]
    · exact (hk k h).2
  · by_cases h' : k = n
    · subst h'
      rw [hp, hn, peek, h]
      rfl
    · rw [(hk k h').1, h]

lemma at?_view (u a) : ∃ v, at? a u = .ok (u.view a) v ∧ Reads u v := by
  obtain ⟨v, hv, hr, -⟩ := lookup_reads u (a / pageSize)
  refine ⟨v, ?_, hr⟩
  rw [at?, bind_of_ok hv, view]
  cases u.peek (a / pageSize) <;> rfl

lemma noteByte_reads (u a content) : ∃ v, noteByte a content u = .ok () v ∧ Reads u v := by
  by_cases h : content.symbols.isEmpty = true
  · refine ⟨u, ?_, .refl u⟩
    rw [noteByte, if_pos h]
    rfl
  · obtain ⟨v, hv, hr⟩ := at?_view u a
    refine ⟨v, ?_, hr⟩
    rw [noteByte, if_neg h]
    exact map_of_ok hv

lemma forM_noteByte_reads (content : Bits) (as : List Nat) (u) :
    ∃ v, as.forM (fun a => noteByte a content) u = .ok () v ∧ Reads u v := by
  induction as generalizing u with
  | nil => exact ⟨u, rfl, .refl u⟩
  | cons a as ih =>
    obtain ⟨v, hv, hr⟩ := noteByte_reads u a content
    obtain ⟨w, hw, hr'⟩ := ih v
    refine ⟨w, ?_, hr.trans hr'⟩
    exact (bind_of_ok hv).trans hw

/-! ### Sound memories -/

/-- A memory whose pages are sound, whatever terms they hold. -/
def Tidy (u : Unshared) : Prop := ∀ n pg, u.peek n = some pg → pg.Sound n

lemma Reads.tidy (h : Reads u v) (hu : u.Tidy) : v.Tidy := fun n pg hp => hu n pg (h.peek n ▸ hp)

structure Sound (u : Unshared) : Prop where
  page : u.Tidy
  chunk : ∀ a c, u.view a = some c → c.Sound

lemma Reads.sound (h : Reads u v) (hu : u.Sound) : v.Sound := ⟨h.tidy hu.page, fun a c hc => hu.chunk a c (h.view a ▸ hc)⟩

lemma view_eq_some : u.view a = some c ↔ ∃ pg, u.peek (a / pageSize) = some pg ∧ pg.at? a = some c := bind_eq_some_iff

lemma Tidy.covers (hu : u.Tidy) (h : u.view a = some c) : c.covers a = true := by
  obtain ⟨pg, hpg, hc⟩ := view_eq_some.1 h
  exact (hu _ pg hpg).covers rfl hc

lemma Sound.covers (hu : u.Sound) (h : u.view a = some c) : c.covers a = true := hu.page.covers h

lemma mem_pagesOf {start stop} : k ∈ pagesOf start stop ↔ start < (k + 1) * pageSize ∧ k * pageSize < stop := by
  rw [pagesOf, mem_range'_1]
  simp only [pageSize]
  omega

lemma mem_pagesOf_of_covers (h : c.covers a = true) : a / pageSize ∈ pagesOf c.base c.stop := by
  obtain ⟨h1, h2⟩ := covers_iff.1 h
  rw [mem_pagesOf]
  simp only [pageSize]
  omega

lemma div_eq_of_mem (h : n * pageSize ≤ a) (h' : a < (n + 1) * pageSize) : a / pageSize = n := by
  simp only [pageSize] at *
  omega

lemma at?_eq_view (h : u.peek n = some pg) (ha : a / pageSize = n) : pg.at? a = u.view a := by
  rw [view, ha, h]
  rfl

lemma chunks_range'_back (hu : u.Tidy) {strict cut} (hcut : strict = true → cut = false) (j k : Nat)
    (hk : k + j = (addr + n + pageSize - 1) / pageSize) (hlow : addr < (k + 1) * pageSize) :
    ∃ v, Reads u v ∧ ((strict = true ∧ ∃ f, chunks strict cut addr n (.range' k j) u = .error f v) ∨
      ∃ items, chunks strict cut addr n (.range' k j) u = .ok items v ∧
        u.view.Back (max addr (min (k * pageSize) (addr + n))) (addr + n) items.reverse) := by
  induction j generalizing k u with
  | zero =>
    refine ⟨u, .refl u, .inr ⟨[], rfl, fun x hx hx' => ?_⟩⟩
    have hge : addr + n ≤ k * pageSize := by
      simp only [pageSize] at hk ⊢
      omega
    omega
  | succ j ih =>
    have hlt : k * pageSize < addr + n := by
      simp only [pageSize] at hk ⊢
      omega
    obtain ⟨v, hv, hr, -⟩ := lookup_reads u k
    have hnext : addr < (k + 1 + 1) * pageSize := Nat.lt_of_lt_of_le hlow (Nat.mul_le_mul_right _ (Nat.le_succ _))
    obtain ⟨w, hr', hrest⟩ := ih (hr.tidy hu) (k + 1) (by omega) hnext
    have hback : ∀ items : List (Nat × Chunk), v.view.Back (max addr (min ((k + 1) * pageSize) (addr + n))) (addr + n) items.reverse →
        u.view.Back (min (addr + n) ((k + 1) * pageSize)) (addr + n) items.reverse := fun items h => by
      rw [show max addr (min ((k + 1) * pageSize) (addr + n)) = min (addr + n) ((k + 1) * pageSize) by omega] at h
      exact h.congr fun x _ _ => hr.view x
    have hstart : max addr (min (k * pageSize) (addr + n)) = max addr (k * pageSize) := by omega
    have hmid : max addr (k * pageSize) ≤ min (addr + n) ((k + 1) * pageSize) := by
      simp only [pageSize] at hlow hlt ⊢
      omega
    rw [range'_succ, chunks, bind_of_ok hv, hstart]
    cases hpg : u.peek k with
    | none =>
      -- a page that is not there has no byte of the range
      have hnone : u.view.Back (max addr (k * pageSize)) (min (addr + n) ((k + 1) * pageSize)) [] :=
        fun x hx hx' => by rw [view, div_eq_of_mem (n := k) (by omega) (by omega), hpg]; rfl
      cases strict with
      | true =>
        rw [hcut rfl]
        exact ⟨v, hr, .inl ⟨rfl, _, rfl⟩⟩
      | false =>
        obtain ⟨hs, _⟩ | ⟨items, hi, hb⟩ := hrest
        · cases hs
        · refine ⟨w, hr.trans hr', .inr ⟨items, hi, ?_⟩⟩
          have := (hback items hb).append hnone hmid (Nat.min_le_left _ _)
          rwa [append_nil] at this
    | some pg =>
      have hbase : pg.base = k * pageSize := (hu k pg hpg).base
      have hstop : pg.stop = (k + 1) * pageSize := by rw [Page.stop, hbase, Nat.succ_mul]
      have hslice := pg.slice_back addr (addr + n) (by rw [hbase, hstop]; exact hmid)
      rw [hbase, hstop] at hslice
      have hslice : u.view.Back (max addr (k * pageSize)) (min (addr + n) ((k + 1) * pageSize))
          (pg.slice addr (addr + n)).reverse :=
        hslice.congr fun x hx hx' => at?_eq_view hpg (div_eq_of_mem (by omega) (by omega))
      dsimp only
      by_cases hgrant : (strict && !pg.grants protRead) = true
      · have hs : strict = true := (Bool.and_eq_true_iff.1 hgrant).1
        refine ⟨v, hr, .inl ⟨hs, .segfault addr "non-readable", ?_⟩⟩
        rw [if_pos hgrant, hcut hs]
        rfl
      · rw [if_neg hgrant]
        obtain ⟨hs, f, hf⟩ | ⟨items, hi, hb⟩ := hrest
        · exact ⟨w, hr.trans hr', .inl ⟨hs, f, bind_of_error hf⟩⟩
        · refine ⟨w, hr.trans hr', .inr ⟨pg.slice addr (addr + n) ++ items, bind_of_ok hi, ?_⟩⟩
          rw [reverse_append]
          exact (hback items hb).append hslice hmid (Nat.min_le_left _ _)

/-- **Reading a range** changes nothing that shows, and what it finds tells which bytes are missing. -/
theorem chunks_back (hu : u.Tidy) (strict cut) (hcut : strict = true → cut = false) (addr n) :
    ∃ v, Reads u v ∧ ((strict = true ∧ ∃ f, chunks strict cut addr n (pagesOf addr (addr + n)) u = .error f v) ∨
      ∃ items, chunks strict cut addr n (pagesOf addr (addr + n)) u = .ok items v ∧ u.view.Back addr (addr + n) items.reverse) := by
  have hlow : addr < (addr / pageSize + 1) * pageSize := by
    simp only [pageSize]
    omega
  have h := chunks_range'_back hu hcut (n := n)
    ((addr + n + pageSize - 1) / pageSize - addr / pageSize) (addr / pageSize) (by simp only [pageSize]; omega) hlow
  rwa [show max addr (min (addr / pageSize * pageSize) (addr + n)) = addr by simp only [pageSize]; omega] at h

/-- **Reading a range** all of whose bytes are there gives the runs of the view. -/
theorem chunks_runs (hu : u.Sound) (cut) (h : ∀ x, addr ≤ x → x < addr + n → (u.view x).isSome) :
    ∃ items v, chunks false cut addr n (pagesOf addr (addr + n)) u = .ok items v ∧ Reads u v ∧ Runs u.view (addr + n) addr items := by
  obtain ⟨v, hr, ⟨hs, _⟩ | ⟨items, hi, hb⟩⟩ := chunks_back hu.page false cut (by simp) addr n
  · cases hs
  · have hruns := hb.runs (Nat.le_add_right addr n) h
    rw [reverse_reverse] at hruns
    exact ⟨items, v, hi, hr, hruns⟩

/-! ### Storing -/

def under (u : Unshared) (n : Nat) : Page := (u.peek n).getD (u.blank n)

/-- A page with a chunk laid over or under what it holds. -/
def laid (u : Unshared) (anew : Bool) (c : Chunk) (n : Nat) : Page :=
  if anew then (u.under n).overwrite c else (u.under n).underwrite c

def Retains (u v : Unshared) : Prop := ∀ k pg, u.pages k = some pg → (v.pages k).isSome

/-- The pages of some numbers are set by what was under them, and all else stays. -/
structure Sets (u : Unshared) (ns : List Nat) (f : Page → Page) (v : Unshared) : Prop where
  origin : SameOrigin u v
  kept : ∀ k ∉ ns, v.pages k = u.pages k ∧ v.peek k = u.peek k
  set : ∀ k ∈ ns, v.pages k = some (f (u.under k))

variable {ns : List Nat} {f : Page → Page}

lemma Sets.retains (h : Sets u ns f v) : u.Retains v := fun k pg hk => by
  by_cases hkn : k ∈ ns
  · rw [h.set k hkn]
    rfl
  · rw [(h.kept k hkn).1, hk]
    rfl

lemma lookup_sets (u n create) : ∃ v, lookup n create u = .ok (u.peek n <|> if create then some (u.blank n) else none) v ∧
    ∀ f, Sets u [n] f (v.setPage n (f (u.under n))) := by
  obtain ⟨v, hv, ho, hk, -⟩ := lookup_spec u n create
  refine ⟨v, hv, fun f => ⟨⟨ho.backing, ho.stack⟩, fun k h => ?_, forall_mem_singleton.2 (if_pos rfl)⟩⟩
  have h : k ≠ n := mt mem_singleton.2 h
  have hpages : ∀ pg, (v.setPage n pg).pages k = v.pages k := fun pg => if_neg h
  refine ⟨(hpages _).trans (hk k h).1, ?_⟩
  rw [← (hk k h).2, peek, hpages]
  rfl

lemma forM_sets {act : Nat → UnsharedM Unit} {P : Option Page → Prop}
    (hact : ∀ u n, P (u.peek n) → ∃ v, act n u = .ok () v ∧ Sets u [n] f v) (hns : ns.Nodup) (h : ∀ n ∈ ns, P (u.peek n)) :
    ∃ v, ns.forM act u = .ok () v ∧ Sets u ns f v := by
  induction ns generalizing u with
  | nil => exact ⟨u, rfl, ⟨rfl, rfl⟩, fun _ _ => ⟨rfl, rfl⟩, nofun⟩
  | cons n ns ih =>
    obtain ⟨hn, hns⟩ := nodup_cons.1 hns
    obtain ⟨hP, h⟩ := forall_mem_cons.1 h
    obtain ⟨v, hv, ho, hk, hp⟩ := hact u n hP
    replace hk := fun k (hkn : k ≠ n) => hk k (mt mem_singleton.1 hkn)
    obtain ⟨w, hw, ho', hk', hp'⟩ := ih hns fun m hm => (hk m fun e => hn (e ▸ hm)).2 ▸ h m hm
    refine ⟨w, ?_, ho.trans ho', fun k h => ?_, fun k h => ?_⟩
    · exact (bind_of_ok hv).trans hw
    · obtain ⟨hkn, hkns⟩ := not_or.1 (mt mem_cons.2 h)
      rw [(hk' k hkns).1, (hk' k hkns).2]
      exact hk k hkn
    · by_cases hkn : k = n
      · subst hkn
        rw [(hk' k hn).1, hp k (by simp)]
      · rw [hp' k ((mem_cons.1 h).resolve_left hkn), under, (hk k hkn).2, blank, ho.backing]
        rfl

lemma putChunk_run (u anew n c) : ∃ v, putChunk false anew n c u = .ok () v ∧
    Sets u [n] (fun pg => if anew then pg.overwrite c else pg.underwrite c) v := by
  obtain ⟨v, hv, hs⟩ := lookup_sets u n true
  refine ⟨_, ?_, hs _⟩
  rw [putChunk, Bool.not_false, bind_of_ok hv, under]
  cases u.peek n <;> rfl

lemma forM_putChunk_run (c : Chunk) (anew ns) (hns : ns.Nodup) (u) : ∃ v, ns.forM (fun n => putChunk false anew n c) u = .ok () v ∧
    Sets u ns (fun pg => if anew then pg.overwrite c else pg.underwrite c) v :=
  forM_sets (P := fun _ => True) (fun u n _ => putChunk_run u anew n c) hns fun _ _ => trivial

/-- **A store** of any chunk succeeds, holds the pages it touches and leaves the others. -/
theorem store_run (u : Unshared) (tracking anew c) : ∃ v, store false tracking anew c u = .ok () v ∧ SameOrigin u v ∧
      (∀ k, k ∉ pagesOf c.base c.stop → v.peek k = u.peek k) ∧ u.Retains v ∧
      ∀ k ∈ pagesOf c.base c.stop, v.pages k = some (u.laid anew c k) := by
  obtain ⟨v, hv, hs⟩ := forM_putChunk_run c anew (pagesOf c.base c.stop) nodup_range' u
  have held := hs.retains
  obtain ⟨ho, hk, hp⟩ := hs
  cases tracking with
  | false =>
    refine ⟨v, ?_, ho, fun k h => (hk k h).2, held, hp⟩
    exact bind_of_ok hv
  | true =>
    obtain ⟨w, hw, hr⟩ := forM_noteByte_reads c.content (range' c.base c.length) v
    refine ⟨w, ?_, ho.trans hr.origin, fun k h => (hr.peek k).trans (hk k h).2, fun k pg h => ?_, fun k h => hr.held k _ (hp k h)⟩
    · exact (bind_of_ok hv).trans hw
    · obtain ⟨pg', hpg'⟩ := isSome_iff_exists.1 (held k pg h)
      rw [hr.held k pg' hpg']
      rfl

lemma blank_sound (u : Unshared) (n) : (u.blank n).Sound n := emptyPage_sound ..

lemma at?_blank (u : Unshared) (n a) : (u.blank n).at? a = none := by simp [blank, emptyPage, Page.at?]

section
variable {o : Unshared} (h : SameOrigin o u) (ho : o.backing.segments = [])
include h ho

/-- A page that is not held over nothing is empty, and there only if it lies in the stack. -/
lemma SameOrigin.peek (hn : u.pages n = none) :
    u.peek n = if o.stack.1 ≤ n * pageSize && n * pageSize < o.stack.2 then some (o.blank n) else none := by
  simp [Unshared.peek, hn, fresh?, Paged.fresh?, Paged.load, blank, h.backing, h.stack, ho]

lemma SameOrigin.unheld_sound (hn : u.pages n = none) (hpg : u.peek n = some pg) : pg.Sound n := by
  rw [h.peek ho hn] at hpg
  exact some.inj (ite_none_right_eq_some.1 hpg).2 ▸ blank_sound o n

lemma SameOrigin.view (hn : u.pages (a / pageSize) = none) : u.view a = none := by
  rw [Unshared.view, h.peek ho hn]
  split
  · exact at?_blank o _ a
  · rfl

end

lemma at?_under (u : Unshared) (ha : a / pageSize = n) : (u.under n).at? a = u.view a := by
  rw [view, ha, under]
  cases u.peek n with
  | none => exact at?_blank u n a
  | some pg => rfl

lemma under_sound (hu : ∀ pg, u.peek n = some pg → pg.Sound n) : (u.under n).Sound n := by
  rw [under]
  cases h : u.peek n with
  | none => exact blank_sound u n
  | some pg => exact hu pg h

/-- **The view after a store**: the chunk shows where it lies, and all else is as it was. -/
theorem store_view (hu : u.Sound) (tracking : Bool) (hc : 0 < c.length → c.Sound) :
    ∃ v, store false tracking true c u = .ok () v ∧ SameOrigin u v ∧ v.Sound ∧
      u.Retains v ∧ ∀ a, v.view a = if c.covers a then some c else u.view a := by
  obtain ⟨v, hv, ho, hk, held, hp⟩ := store_run u tracking true c
  have hview : ∀ a, v.view a = if c.covers a then some c else u.view a := fun a => by
    by_cases hin : a / pageSize ∈ pagesOf c.base c.stop
    · rw [view, peek, hp _ hin]
      change ((u.under (a / pageSize)).overwrite c).at? a = _
      rw [Page.at?_overwrite (under_sound (hu.page _)) rfl, at?_under u rfl]
    · rw [if_neg fun h => hin (mem_pagesOf_of_covers h), view, view, hk _ hin]
  refine ⟨v, hv, ho, ⟨fun k pg hpg => ?_, fun a d hd => ?_⟩, held, hview⟩
  · by_cases hin : k ∈ pagesOf c.base c.stop
    · rw [peek, hp k hin] at hpg
      cases hpg
      exact Page.overwrite_sound (under_sound (hu.page k)) c
    · exact hu.page k pg (hk k hin ▸ hpg)
  · rw [hview] at hd
    split at hd
    · rename_i hcov
      cases hd
      obtain ⟨h1, h2⟩ := covers_iff.1 hcov
      rw [stop] at h2
      exact hc (by omega)
    · exact hu.chunk a d hd

/-! ### Replacing -/

lemma forM_replaceOn_run (old new : Chunk) (hns : ns.Nodup) (h : ∀ n ∈ ns, (u.peek n).isSome) :
    ∃ v, ns.forM (replaceOn old new) u = .ok () v ∧ Sets u ns (·.replace old new) v := by
  refine forM_sets (P := (·.isSome)) (fun u n hn => ?_) hns h
  obtain ⟨v, hv, hs⟩ := lookup_sets u n false
  refine ⟨_, ?_, hs _⟩
  obtain ⟨pg, hpg⟩ := isSome_iff_exists.1 hn
  rw [replaceOn, bind_of_ok hv, under, hpg]
  rfl

/-- **The view after a chunk was replaced**: the new content shows wherever the old one did. -/
theorem replaceChunk_view (hu : u.Sound) (tracking : Bool) {old content} (hold : old.Sound) (hc : content.Valid)
    (hw : content.width = old.content.width) (hpages : ∀ n ∈ pagesOf old.base old.stop, (u.peek n).isSome) :
    ∃ v, replaceChunk tracking old content u = .ok (.ofBits content old.base) v ∧ SameOrigin u v ∧ v.Sound ∧
      u.Retains v ∧ ∀ a, v.view a = u.view.swap old (.ofBits content old.base) a := by
  have hlen : (ofBits content old.base).length = old.length := by
    change content.width / 8 = old.length
    rw [hw, hold.width]
    omega
  obtain ⟨v, hv, hs⟩ := forM_replaceOn_run old (.ofBits content old.base) nodup_range' hpages
  have hp : ∀ k, v.peek k = if k ∈ pagesOf old.base old.stop then (u.peek k).map (·.replace old (.ofBits content old.base))
      else u.peek k := fun k => by
    split
    · rename_i hk
      obtain ⟨pg, hpg⟩ := isSome_iff_exists.1 (hpages k hk)
      rw [peek, hs.set k hk, under, hpg]
      rfl
    · rename_i hk
      exact (hs.kept k hk).2
  have hview : ∀ a, v.view a = u.view.swap old (.ofBits content old.base) a := fun a => by
    rw [View.swap, view, view, hp]
    split
    · cases hpg : u.peek (a / pageSize) with
      | none => rfl
      | some pg => exact Page.at?_replace (hu.page _ pg hpg) old _ a
    · rename_i hin
      cases hva : u.view a with
      | none => rw [← view, hva]; rfl
      | some c =>
        have hne : c ≠ old := fun e => hin (mem_pagesOf_of_covers (e ▸ hu.covers hva))
        rw [← view, hva, map_some, if_neg hne]
  have hsound : v.Sound := by
    refine ⟨fun k pg hpg => ?_, fun a d hd => ?_⟩
    · rw [hp] at hpg
      split at hpg
      · obtain ⟨qg, hqg, rfl⟩ := map_eq_some_iff.1 hpg
        exact Page.replace_sound (hu.page k qg hqg) rfl hlen
      · exact hu.page k pg hpg
    · rw [hview, View.swap, map_eq_some_iff] at hd
      obtain ⟨c, hca, rfl⟩ := hd
      split
      · exact ofBits_sound hc (by rw [hw, hold.width]; omega) _
      · exact hu.chunk a c hca
  have hrun : replaceChunk tracking old content u = ((pagesOf old.base old.stop).forM (replaceOn old (.ofBits content old.base)) >>=
      fun _ => do
        if tracking then (range' old.base old.length).forM fun a => noteByte a content
        return ofBits content old.base) u := by
    rw [replaceChunk, if_neg (not_not.2 hw.symm)]
  rw [hrun]
  cases tracking with
  | false =>
    refine ⟨v, ?_, hs.origin, hsound, hs.retains, hview⟩
    exact bind_of_ok hv
  | true =>
    obtain ⟨w, hw, hr⟩ := forM_noteByte_reads content (range' old.base old.length) v
    refine ⟨w, ?_, hs.origin.trans hr.origin, hr.sound hsound, fun k pg h => ?_, fun a => (hr.view a).trans (hview a)⟩
    · exact (bind_of_ok hv).trans (bind_of_ok hw)
    · obtain ⟨pg', hpg'⟩ := isSome_iff_exists.1 (hs.retains k pg h)
      rw [hr.held k pg' hpg']
      rfl

end Unshared

end SymExec
