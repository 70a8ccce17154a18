import SymExec.State.Access

/-!
# The segments of a store

A store at one of several addresses is cut into segments: ranges on which all bytes are covered by the same addresses.
-/

namespace SymExec

open List Nat

namespace Exec

namespace Segment

/-- A segment that lies within the range of each address or apart from it, with an option for each that it lies within. -/
structure Fits (addrs : List Nat) (size : Nat) (s : Segment) : Prop where
  pos : 0 < s.size
  apart : ∀ a ∈ addrs, s.start + s.size ≤ a ∨ a + size ≤ s.start ∨ (a ≤ s.start ∧ s.start + s.size ≤ a + size)
  option : ∀ i, i ∈ s.options ↔ ∃ a ∈ addrs, a ≤ s.start ∧ s.start < a + size ∧ i = s.start - a

def cover (addr : Nat) (s : Segment) : Segment := { s with options := s.options ++ [s.start - addr] }

variable {addrs : List Nat} {size addr : Nat} {s : Segment}

section
variable (h : s.Fits addrs size)
include h

theorem Fits.inside {a} (ha : a ∈ addrs) (h2 : s.start < a + size) : s.start + s.size ≤ a + size := by
  obtain h | h | h := h.apart a ha <;> omega

theorem Fits.part {b n} (hn : 0 < n) (hb : s.start ≤ b) (he : b + n ≤ s.start + s.size) :
    Fits addrs size ⟨b, n, s.options.map (· + (b - s.start))⟩ := by
  refine ⟨hn, fun a ha => ?_, fun i => ?_⟩
  · change b + n ≤ a ∨ a + size ≤ b ∨ (a ≤ b ∧ b + n ≤ a + size)
    obtain h | h | h := h.apart a ha <;> omega
  · change i ∈ s.options.map (· + (b - s.start)) ↔ ∃ a ∈ addrs, a ≤ b ∧ b < a + size ∧ i = b - a
    constructor
    · intro hi
      obtain ⟨j, hj, rfl⟩ := mem_map.1 hi
      obtain ⟨a, ha, h1, h2, rfl⟩ := (h.option j).1 hj
      have := h.inside ha h2
      exact ⟨a, ha, by omega, by omega, by omega⟩
    · rintro ⟨a, ha, h1, h2, rfl⟩
      have hstart : a ≤ s.start ∧ s.start < a + size := by obtain h | h | h := h.apart a ha <;> omega
      refine mem_map.2 ⟨s.start - a, (h.option _).2 ⟨a, ha, hstart.1, hstart.2, rfl⟩, ?_⟩
      omega

theorem Fits.past (ha : s.start + s.size ≤ addr) : s.Fits (addrs ++ [addr]) size := by
  have hpos := h.pos
  refine ⟨hpos, forall_mem_append.2 ⟨h.apart, forall_mem_singleton.2 (.inl ha)⟩, fun i => ?_⟩
  refine (h.option i).trans ⟨fun ⟨a, hmem, hrest⟩ => ⟨a, mem_append_left _ hmem, hrest⟩, ?_⟩
  rintro ⟨a, hmem, h1, hrest⟩
  obtain hmem | hmem := mem_append.1 hmem
  · exact ⟨a, hmem, h1, hrest⟩
  · obtain rfl := mem_singleton.1 hmem
    omega

theorem Fits.cover (h1 : addr ≤ s.start) (h2 : s.start + s.size ≤ addr + size) : (s.cover addr).Fits (addrs ++ [addr]) size := by
  have hpos := h.pos
  refine ⟨hpos, forall_mem_append.2 ⟨h.apart, forall_mem_singleton.2 (.inr (.inr ⟨h1, h2⟩))⟩, fun i => ?_⟩
  change i ∈ s.options ++ [s.start - addr] ↔ _
  rw [mem_append, mem_singleton, h.option i]
  constructor
  · rintro (⟨a, hmem, hrest⟩ | rfl)
    · exact ⟨a, mem_append_left _ hmem, hrest⟩
    · exact ⟨addr, by simp, h1, show s.start < addr + size by omega, rfl⟩
  · rintro ⟨a, hmem, hrest⟩
    obtain hmem | hmem := mem_append.1 hmem
    · exact .inl ⟨a, hmem, hrest⟩
    · obtain rfl := mem_singleton.1 hmem
      exact .inr hrest.2.2

end

end Segment

/-- Segments that are in order and disjoint, make up the ranges of addresses, and each fit them. -/
structure Cut (addrs : List Nat) (size : Nat) (segments : List Segment) : Prop where
  ordered : segments.Pairwise fun s t => s.start + s.size ≤ t.start
  fits : ∀ s ∈ segments, s.Fits addrs size
  chosen : ∀ s ∈ segments, s.options ≠ []
  covers : ∀ a ∈ addrs, ∀ x, a ≤ x → x < a + size → ∃ s ∈ segments, s.start ≤ x ∧ x < s.start + s.size

section
variable {addrs : List Nat} {size addr : Nat} {segments : List Segment} {s : Segment} {before after : List Segment}

theorem Cut.within (h : Cut addrs size segments) (hs : s ∈ segments) : ∃ a ∈ addrs, a ≤ s.start ∧ s.start + s.size ≤ a + size := by
  obtain ⟨i, hi⟩ := exists_mem_of_ne_nil _ (h.chosen s hs)
  obtain ⟨a, ha, h1, h2, -⟩ := ((h.fits s hs).option i).1 hi
  exact ⟨a, ha, h1, (h.fits s hs).inside ha h2⟩

theorem Cut.cut (h : Cut addrs size (before ++ s :: after)) {k} (hk : 0 < k) (hks : k < s.size) :
    Cut addrs size (before ++ ⟨s.start, k, s.options⟩ :: ⟨s.start + k, s.size - k, s.options.map (· + k)⟩ :: after) := by
  have hs : s ∈ before ++ s :: after := by simp
  obtain ⟨hbefore, hafter, hcross⟩ := pairwise_append.1 h.ordered
  obtain ⟨hnext, hafter⟩ := pairwise_cons.1 hafter
  have hlow : Segment.Fits addrs size ⟨s.start, k, s.options⟩ := by
    have := (h.fits s hs).part hk (Nat.le_refl _) (by omega)
    simpa using this
  have hhigh : Segment.Fits addrs size ⟨s.start + k, s.size - k, s.options.map (· + k)⟩ := by
    have := (h.fits s hs).part (b := s.start + k) (n := s.size - k) (by omega) (by omega) (by omega)
    rwa [Nat.add_sub_cancel_left] at this
  refine ⟨pairwise_append.2 ⟨hbefore, pairwise_cons.2 ⟨fun t ht => ?_, pairwise_cons.2 ⟨fun t ht => ?_, hafter⟩⟩,
    fun t ht u hu => ?_⟩, fun t ht => ?_, fun t ht => ?_, fun a ha x h1 h2 => ?_⟩
  · obtain rfl | ht := mem_cons.1 ht
    · exact Nat.le_refl _
    · exact Nat.le_trans (by simp only; omega) (hnext t ht)
  · exact Nat.le_trans (by simp only; omega) (hnext t ht)
  · have hts := hcross t ht s (by simp)
    simp only [mem_cons] at hu
    obtain rfl | rfl | hu := hu
    · exact hts
    · exact Nat.le_trans hts (Nat.le_add_right _ _)
    · exact hcross t ht u (by simp [hu])
  · simp only [mem_append, mem_cons] at ht
    obtain ht | rfl | rfl | ht := ht
    · exact h.fits t (by simp [ht])
    · exact hlow
    · exact hhigh
    · exact h.fits t (by simp [ht])
  · simp only [mem_append, mem_cons] at ht
    obtain ht | rfl | rfl | ht := ht
    · exact h.chosen t (by simp [ht])
    · exact h.chosen s hs
    · simpa using h.chosen s hs
    · exact h.chosen t (by simp [ht])
  · obtain ⟨t, ht, hx⟩ := h.covers a ha x h1 h2
    simp only [mem_append, mem_cons] at ht
    obtain ht | rfl | ht := ht
    · exact ⟨t, by simp [ht], hx⟩
    · by_cases hlt : x < t.start + k
      · exact ⟨⟨t.start, k, t.options⟩, by simp, hx.1, hlt⟩
      · exact ⟨⟨t.start + k, t.size - k, t.options.map (· + k)⟩, by simp, by simp only; omega, by simp only; omega⟩
    · exact ⟨t, by simp [ht], hx⟩

/-- **Cutting at an address** that some segment covers: all before its place end by then, all others start from there on. -/
theorem splitSegment_spec (h : Cut addrs size segments) (hs : s ∈ segments) (h1 : s.start ≤ addr) (h2 : addr < s.start + s.size) :
    ∃ before after, splitSegment addr segments = (before.length, before ++ after) ∧ Cut addrs size (before ++ after) ∧
      (∀ t ∈ before, t.start + t.size ≤ addr) ∧ ∀ t ∈ after, addr ≤ t.start := by
  obtain ⟨i, hi⟩ : ∃ i, segments.findIdx? (fun s => s.start ≤ addr && addr < s.start + s.size) = some i := by
    rw [← Option.isSome_iff_exists, findIdx?_isSome, any_eq_true]
    exact ⟨s, hs, by simp [h1, h2]⟩
  obtain ⟨hlt, hcov, -⟩ := findIdx?_eq_some_iff_getElem.1 hi
  simp only [Bool.and_eq_true, decide_eq_true_eq] at hcov
  have hsplit : segments = segments.take i ++ segments[i] :: segments.drop (i + 1) := by simp
  have hlen : (segments.take i).length = i := by simp [Nat.le_of_lt hlt]
  have hget : segments.getD i default = segments[i] := by simp [getD, hlt]
  generalize segments[i] = t at hcov hsplit hget
  generalize htake : segments.take i = before at hsplit hlen
  generalize hdrop : segments.drop (i + 1) = after at hsplit
  rw [hsplit] at h
  obtain ⟨-, hafter, hcross⟩ := pairwise_append.1 h.ordered
  have hbefore : ∀ u ∈ before, u.start + u.size ≤ t.start := fun u hu => hcross u hu t (by simp)
  have hnext : ∀ u ∈ after, t.start + t.size ≤ u.start := (pairwise_cons.1 hafter).1
  have hsegments : splitSegment addr segments = if t.start = addr then (i, segments) else
      (i + 1, before ++ [⟨t.start, addr - t.start, t.options⟩,
        ⟨addr, t.size - (addr - t.start), t.options.map (· + (addr - t.start))⟩] ++ after) := by
    rw [splitSegment, hi, Option.getD_some, hget, htake, hdrop]
  rw [hsegments]
  split
  · rename_i heq
    refine ⟨before, t :: after, by rw [hlen, ← hsplit], h, fun u hu => ?_, fun u hu => ?_⟩
    · have := hbefore u hu
      omega
    · obtain rfl | hu := mem_cons.1 hu
      · exact Nat.le_of_eq heq.symm
      · have := hnext u hu
        omega
  · have hcut := h.cut (k := addr - t.start) (by omega) (by omega)
    rw [show t.start + (addr - t.start) = addr by omega] at hcut
    refine ⟨before ++ [⟨t.start, addr - t.start, t.options⟩],
      ⟨addr, t.size - (addr - t.start), t.options.map (· + (addr - t.start))⟩ :: after, by simp [hlen], by simpa using hcut,
      fun u hu => ?_, fun u hu => ?_⟩
    · obtain hu | hu := mem_append.1 hu
      · have := hbefore u hu
        omega
      · obtain rfl := mem_singleton.1 hu
        change t.start + (addr - t.start) ≤ addr
        omega
    · obtain rfl | hu := mem_cons.1 hu
      · exact Nat.le_refl _
      · have := hnext u hu
        omega

/-- **One more address**, past the starts of those before: it covers the segments from its place on, and what lies beyond
them. -/
theorem Cut.extend (h : Cut addrs size (before ++ after)) (hbefore : ∀ t ∈ before, t.start + t.size ≤ addr)
    (hafter : ∀ t ∈ after, addr ≤ t.start) {b} (hb : addr ≤ b) (hb' : b < addr + size) (hends : ∀ a ∈ addrs, a + size ≤ b)
    (hfilled : ∀ x, addr ≤ x → x < b → ∃ s ∈ before ++ after, s.start ≤ x ∧ x < s.start + s.size) : Cut (addrs ++ [addr]) size
      (before ++ (after ++ [(⟨b, addr + size - b, []⟩ : Segment)]).map (.cover addr)) := by
  have hstop : ∀ s ∈ before ++ after, s.start + s.size ≤ b := fun s hs => by
    obtain ⟨a, ha, -, h2⟩ := h.within hs
    have := hends a ha
    omega
  have hfresh : Segment.Fits addrs size ⟨b, addr + size - b, []⟩ := by
    refine ⟨by simp only; omega, fun a ha => .inr (.inl (hends a ha)), fun i => ⟨by simp, ?_⟩⟩
    rintro ⟨a, ha, -, h2, -⟩
    exact absurd h2 (Nat.not_lt.2 (hends a ha))
  obtain ⟨hob, hoa, hcross⟩ := pairwise_append.1 h.ordered
  generalize hrest : after ++ [(⟨b, addr + size - b, []⟩ : Segment)] = rest
  have mem_rest : ∀ t, t ∈ rest ↔ t ∈ after ∨ t = ⟨b, addr + size - b, []⟩ := fun t => by simp [← hrest]
  have covered : ∀ t ∈ rest, t.Fits addrs size ∧ addr ≤ t.start ∧ t.start + t.size ≤ addr + size := fun t ht => by
    obtain ht | rfl := (mem_rest t).1 ht
    · have := hstop t (by simp [ht])
      exact ⟨h.fits t (by simp [ht]), hafter t ht, by omega⟩
    · exact ⟨hfresh, hb, by simp only; omega⟩
  have hordered : rest.Pairwise fun s t => s.start + s.size ≤ t.start := by
    rw [← hrest]
    exact pairwise_append.2 ⟨hoa, pairwise_singleton _ _, fun s hs t ht => by
      obtain rfl := mem_singleton.1 ht
      exact hstop s (by simp [hs])⟩
  refine ⟨pairwise_append.2 ⟨hob, pairwise_map.2 hordered, fun s hs t ht => ?_⟩, fun s hs => ?_, fun s hs => ?_, fun a ha x h1 h2 => ?_⟩
  · obtain ⟨u, hu, rfl⟩ := mem_map.1 ht
    exact Nat.le_trans (hbefore s hs) (covered u hu).2.1
  · obtain hs | hs := mem_append.1 hs
    · exact (h.fits s (by simp [hs])).past (hbefore s hs)
    · obtain ⟨u, hu, rfl⟩ := mem_map.1 hs
      exact (covered u hu).1.cover (covered u hu).2.1 (covered u hu).2.2
  · obtain hs | hs := mem_append.1 hs
    · exact h.chosen s (by simp [hs])
    · obtain ⟨u, -, rfl⟩ := mem_map.1 hs
      simp [Segment.cover]
  · have old : ∀ s ∈ before ++ after, s.start ≤ x ∧ x < s.start + s.size →
        ∃ t ∈ before ++ rest.map (.cover addr), t.start ≤ x ∧ x < t.start + t.size := fun s hs hx => by
      obtain hs | hs := mem_append.1 hs
      · exact ⟨s, by simp [hs], hx⟩
      · exact ⟨s.cover addr, by simp only [mem_append, mem_map]; exact .inr ⟨s, (mem_rest s).2 (.inl hs), rfl⟩, hx⟩
    obtain ha | ha := mem_append.1 ha
    · obtain ⟨s, hs, hx⟩ := h.covers a ha x h1 h2
      exact old s hs hx
    · obtain rfl := mem_singleton.1 ha
      by_cases hxb : x < b
      · obtain ⟨s, hs, hx⟩ := hfilled x h1 hxb
        exact old s hs hx
      · refine ⟨.cover a ⟨b, a + size - b, []⟩, ?_, Nat.not_lt.1 hxb, ?_⟩
        · exact mem_append_right _ (mem_map_of_mem ((mem_rest _).2 (.inr rfl)))
        · change x < b + (a + size - b)
          omega

theorem mapIdx_cover (before rest : List Segment) (h : ∀ t ∈ rest, addr < t.start + t.size) :
    (before ++ rest).mapIdx (fun j s => if before.length ≤ j ∧ addr < s.start + s.size then s.cover addr else s) =
      before ++ rest.map (Segment.cover addr) := by
  rw [mapIdx_append]
  congr 1
  · refine List.ext_getElem (by simp) fun j h1 h2 => ?_
    simp [Nat.not_le.2 h2]
  · refine ext_getElem (by simp) fun j h1 h2 => ?_
    simp only [length_mapIdx] at h1
    simp [h _ (getElem_mem h1)]

/-- The segments, and the end of the range of the last address, after one more address. -/
def addSegments (size : Nat) (acc : List Segment × Nat) (addr : Nat) : List Segment × Nat :=
  (if addr < acc.2 then
    ((splitSegment addr acc.1).2 ++ [(⟨acc.2, addr + size - acc.2, []⟩ : Segment)]).mapIdx fun j s =>
      if (splitSegment addr acc.1).1 ≤ j ∧ addr < s.start + s.size then s.cover addr else s
  else acc.1 ++ [⟨addr, size, [0]⟩], addr + size)

/-- What is known of the segments after some of the addresses. -/
structure CutTo (addrs : List Nat) (size : Nat) (acc : List Segment × Nat) : Prop where
  cut : Cut addrs size acc.1
  ends : ∀ a ∈ addrs, a + size ≤ acc.2
  last : acc.2 = 0 ∨ ∃ a ∈ addrs, acc.2 = a + size

theorem CutTo.add {acc} (h : CutTo addrs size acc) (hsize : 0 < size) (hadd : ∀ a ∈ addrs, a < addr) :
    CutTo (addrs ++ [addr]) size (addSegments size acc addr) := by
  have hends : ∀ a ∈ addrs ++ [addr], a + size ≤ addr + size := fun a ha => by
    obtain ha | ha := mem_append.1 ha
    · exact Nat.add_le_add_right (Nat.le_of_lt (hadd a ha)) size
    · exact Nat.le_of_eq (by rw [List.mem_singleton.1 ha])
  refine ⟨?_, hends, .inr ⟨addr, by simp, rfl⟩⟩
  rw [addSegments]
  split
  · rename_i hlt
    obtain hzero | ⟨last, hlast, heq⟩ := h.last
    · omega
    have hlastlt := hadd last hlast
    obtain ⟨s, hs, h1, h2⟩ := h.cut.covers last hlast addr (Nat.le_of_lt hlastlt) (by omega)
    obtain ⟨before, after, hsplit, hcut, hbefore, hafter⟩ := splitSegment_spec h.cut hs h1 h2
    have hnew := hcut.extend hbefore hafter (Nat.le_of_lt hlt) (by omega) h.ends fun x hx1 hx2 =>
      hcut.covers last hlast x (by omega) (by omega)
    rw [hsplit, append_assoc, mapIdx_cover]
    · exact hnew
    · intro t ht
      obtain ht | ht := mem_append.1 ht
      · have := hafter t ht
        have := (hcut.fits t (by simp [ht])).pos
        omega
      · obtain rfl := mem_singleton.1 ht
        change addr < acc.2 + (addr + size - acc.2)
        omega
  · rename_i hge
    have hge := Nat.not_lt.1 hge
    have hbefore : ∀ t ∈ acc.1, t.start + t.size ≤ addr := fun t ht => by
      obtain ⟨a, ha, -, h2⟩ := h.cut.within ht
      have := h.ends a ha
      omega
    have hcut : Cut addrs size (acc.1 ++ []) := by simpa using h.cut
    have hnew := hcut.extend hbefore (by simp) (Nat.le_refl addr) (by omega)
      (fun a ha => Nat.le_trans (h.ends a ha) hge) fun x h1 h2 => absurd h2 (by omega)
    simpa [Segment.cover] using hnew

/-- **The segments of a store** at addresses in order. -/
theorem storeSegments_cut (hsize : 0 < size) (haddrs : addrs.Pairwise (· < ·)) : Cut addrs size (storeSegments addrs size) := by
  have run : ∀ (rest done) (acc), CutTo done size acc → (done ++ rest).Pairwise (· < ·) →
      CutTo (done ++ rest) size (rest.foldl (addSegments size) acc) := by
    intro rest
    induction rest with
    | nil => exact fun done acc h _ => by simpa using h
    | cons a rest ih =>
      intro done acc h hp
      have hlt : ∀ b ∈ done, b < a := fun b hb => (pairwise_append.1 hp).2.2 b hb a (by simp)
      have := ih (done ++ [a]) (addSegments size acc a) (h.add hsize hlt) (by simpa using hp)
      simpa using this
  have hnil : CutTo [] size ([], 0) :=
    ⟨⟨.nil, by simp, by simp, by simp⟩, by simp, .inl rfl⟩
  exact (run addrs [] ([], 0) hnil haddrs).cut

end

end Exec

end SymExec
