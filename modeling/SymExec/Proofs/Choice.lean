import SymExec.State.Merge
import SymExec.Proofs.Arith
import SymExec.Proofs.Changed
import SymExec.Proofs.Flat
import SymExec.Proofs.Walk

/-!
# Choices among memories

What the merged memory has at a place where memories differ is a choice: a term that stands for the bytes of the memory whose
condition holds.
-/

namespace SymExec

open List Chunk

/-- A chunk that has at an address the byte of the chunks whose conditions hold, if these all have one and the same. -/
def Chunk.Picks (d : Chunk) (found : List (Option Chunk × Cond)) (x : Nat) : Prop :=
  ∀ μ t, (∃ s ∈ found, s.2.eval μ = true) → (∀ s ∈ found, s.2.eval μ = true → ∃ c, s.1 = some c ∧ c.byte μ x = t) → d.byte μ x = t

variable {bits : Nat}

lemma Exec.mergeValues_spec {vs} (hvs : ∀ p ∈ vs, p.1.Valid ∧ p.1.width = bits) :
    (mergeValues bits vs).Valid ∧ (mergeValues bits vs).width = bits ∧
    ∀ μ, (∃ p ∈ vs, p.2.eval μ = true) → ∃ p ∈ vs, p.2.eval μ = true ∧ (mergeValues bits vs).eval μ = p.1.eval μ := by
  obtain ⟨hs, heval⟩ := Bits.foldl_mkIte_spec vs (fun p hp => ⟨(hvs p hp).1, (hvs p hp).2⟩) (Bits.sized_zero bits)
  refine ⟨hs.valid, hs.width, fun μ ⟨p, hp, hpt⟩ => (heval μ).resolve_right fun h => ?_⟩
  exact absurd ((h.1 p hp).symm.trans hpt) Bool.false_ne_true

/-! ### Looking at other memories -/

namespace Exec

section
variable {r : Region} {S : Scene} {m : Memory} {b : Nat} {found : List (Option Chunk × Cond)} {chunks : List (Chunk × Cond)}
  {first : Chunk} {p : Paged} {name : String}

lemma chunkIn_gives (hp : p.Placed S.commons) {a} : Gives r S (chunkIn p a) (S.view p a) := by
  rintro w hw rfl
  obtain ⟨p', c', hrun, -⟩ := Paged.at?_spec hp a
  refine ⟨_, w, ?_, hw, rfl, rfl⟩
  have hrun' : (Paged.at? a).run (p, w.commons) = .ok ((p.unshared (w.scene r).commons).view a) (p', c') := hrun
  rw [chunkIn, hrun']

lemma mergeViewAt_gives (hm : S.memory = some m) (hp : m.paged.Placed S.commons) {others}
    (hothers : ∀ s ∈ others, s.1.Placed S.commons) (own b) : Gives r S (mergeViewAt r others own b)
      { chunks := ((m.paged, own) :: others).filterMap fun s => (S.view s.1 b).map (·, s.2)
        missing := ((m.paged, own) :: others).filter fun s => (S.view s.1 b).isNone } := by
  refine (memoryAt_gives hm).bind ?_
  have hplaced : ∀ s ∈ (m.paged, own) :: others, s.1.Placed S.commons := fun s hs => by
    obtain rfl | hs := mem_cons.1 hs
    · exact hp
    · exact hothers s hs
  have looks : ∀ s ∈ (m.paged, own) :: others, Gives r S (do return (← chunkIn s.1 b, s.1, s.2))
      (S.view s.1 b, s.1, s.2) := fun s hs =>
    (chunkIn_gives (hplaced s hs)).bind (.pure ⟨rfl, rfl⟩)
  refine (Gives.mapM _ looks).bind (Does.pure ⟨?_, rfl⟩)
  rw [MergeView.mk.injEq, filterMap_map, filterMap_map, ← filterMap_eq_filter]
  refine ⟨rfl, congrArg (filterMap · _) (funext fun s => ?_)⟩
  rfl

lemma firstPresent_gives (hp : p.Placed S.commons) (a n i) : ∃ d, Gives r S (firstPresent p a n i) d ∧ i ≤ d ∧ d ≤ i + n ∧
    (∀ j, i ≤ j → j < d → S.view p (a + j) = none) ∧ (d < i + n → (S.view p (a + d)).isSome) := by
  induction n generalizing i with
  | zero => exact ⟨i, .pure i, le_rfl, le_rfl, fun j h1 h2 => by omega, fun h => by omega⟩
  | succ n ih =>
    by_cases hi : (S.view p (a + i)).isSome = true
    · refine ⟨i, ?_, le_rfl, by omega, fun j h1 h2 => by omega, fun _ => hi⟩
      refine (chunkIn_gives hp).bind ?_
      rw [if_pos hi]
      exact Gives.pure i
    · obtain ⟨d, hd, h1, h2, hnone, hsome⟩ := ih (i + 1)
      refine ⟨d, ?_, by omega, by omega, fun j h3 h4 => ?_, fun h => hsome (by omega)⟩
      · refine (chunkIn_gives hp).bind ?_
        rw [if_neg hi]
        exact hd
      · by_cases hj : j = i
        · rw [hj]
          exact Option.not_isSome_iff_eq_none.1 hi
        · exact hnone j (by omega) h4

lemma foldlM_firstPresent_gives (ps : List (Paged × Cond)) (hps : ∀ s ∈ ps, s.1.Placed S.commons) (b n) :
    ∃ d, Gives r S (ps.foldlM (fun n s => firstPresent s.1 b n 0) n) d ∧ d ≤ n ∧ (∀ s ∈ ps, ∀ j < d, S.view s.1 (b + j) = none) ∧
    (d < n → ∃ s ∈ ps, (S.view s.1 (b + d)).isSome) := by
  induction ps generalizing n with
  | nil => exact ⟨n, .pure n, le_rfl, by simp, fun h => absurd h (Nat.lt_irrefl n)⟩
  | cons s ps ih =>
    obtain ⟨d, hd, -, hle, hnone, hsome⟩ := firstPresent_gives (hps s (by simp)) b n 0
    obtain ⟨e, he, hle', hnone', hsome'⟩ := ih (fun t ht => hps t (.tail _ ht)) d
    rw [Nat.zero_add] at hle hsome
    refine ⟨e, ?_, by omega, fun t ht j hj => ?_, fun hlt => ?_⟩
    · exact hd.bind he
    · obtain rfl | ht := mem_cons.1 ht
      · exact hnone j (Nat.zero_le j) (by omega)
      · exact hnone' t ht j hj
    · by_cases hed : e < d
      · obtain ⟨t, ht, h⟩ := hsome' hed
        exact ⟨t, .tail _ ht, h⟩
      · obtain rfl : e = d := by omega
        exact ⟨s, by simp, hsome hlt⟩

/-- **How far a place reaches** is computed as the least of what is left of its chunks and of the distances at which the memories
without a chunk have something again. -/
theorem reach_gives {sides : List (Paged × Cond)} (hsides : ∀ s ∈ sides, s.1.Placed S.commons)
    (hsound : ∀ s ∈ sides, (s.1.unshared S.commons).Sound) {rest}
    (hcs : (sides.filterMap fun s => (S.view s.1 b).map (·, s.2)).map (·.1) = first :: rest) :
    ∃ size, Gives r S ((sides.filter fun s => (S.view s.1 b).isNone).foldlM (fun n s => firstPresent s.1 b n 0)
        ((first :: rest).foldl (fun n c => min n (c.length - (b - c.base))) (first.length - (b - first.base)))) size ∧
      ∀ x, View.joint (sides.map fun s => S.view s.1) b x = true ↔ b ≤ x ∧ x < b + size := by
  have hmem : ∀ c, c ∈ first :: rest ↔ ∃ s ∈ sides, S.view s.1 b = some c := fun c => by
    rw [← hcs]
    simp only [mem_map, mem_filterMap, Option.map_eq_some_iff]
    constructor
    · rintro ⟨_, ⟨s, hs, d, hd, rfl⟩, rfl⟩
      exact ⟨s, hs, hd⟩
    · rintro ⟨s, hs, hc⟩
      exact ⟨(c, s.2), ⟨s, hs, c, hc, rfl⟩, rfl⟩
  have hleft : ∀ s ∈ sides, ∀ c, S.view s.1 b = some c → c.length - (b - c.base) = c.stop - b :=
    fun s hs c hc => by
      obtain ⟨h1, h2⟩ := covers_iff.1 ((hsound s hs).covers hc)
      rw [stop] at h2 ⊢
      omega
  rw [← foldl_map (f := fun c : Chunk => c.length - (b - c.base)) (g := min)]
  generalize hmin : foldl (min : Nat → _) _ _ = least
  obtain ⟨hattained, hleast⟩ := min?_eq_some_iff.1 (min?_cons'.trans (congrArg some hmin))
  have hattained : ∃ c ∈ first :: rest, c.length - (b - c.base) = least := mem_map.1 (by simpa using hattained)
  obtain ⟨size, hsize, hle, hnone, hsome⟩ := foldlM_firstPresent_gives (sides.filter fun s => (S.view s.1 b).isNone)
    (fun s hs => hsides s (mem_filter.1 hs).1) b least
  refine ⟨size, hsize, fun x => ?_⟩
  rw [View.joint_iff]
  refine and_congr_right fun hbx => ⟨fun h => ?_, fun hx V hV => ?_⟩
  · -- past the least of the distances one of the views has changed
    by_contra hge
    by_cases hlt : size < least
    · obtain ⟨s, hs, hthere⟩ := hsome hlt
      obtain ⟨hs, hgap⟩ := mem_filter.1 hs
      have hgone := (h _ (mem_map_of_mem hs)).2 (Option.isNone_iff_eq_none.1 hgap) (b + size) (by omega) (by omega)
      rw [hgone] at hthere
      cases hthere
    · obtain ⟨c, hc, hmin⟩ := hattained
      obtain ⟨s, hs, hview⟩ := (hmem c).1 hc
      have hstop := (h _ (mem_map_of_mem hs)).1 c hview
      rw [hleft s hs c hview] at hmin
      omega
  · obtain ⟨s, hs, rfl⟩ := mem_map.1 hV
    refine ⟨fun c hc => ?_, fun hn y h1 h2 => ?_⟩
    · have hmin := forall_mem_map.1 (forall_mem_cons.1 hleast).2 c ((hmem c).2 ⟨s, hs, hc⟩)
      rw [hleft s hs c hc] at hmin
      omega
    · have hgap := hnone s (mem_filter.2 ⟨hs, by rw [hn]; rfl⟩) (y - b) (by omega)
      rwa [Nat.add_sub_cancel' h1] at hgap

/-! ### What is written at one place -/

lemma freshSymbol_does {inspected events} :
    Does r S (freshSymbol name bits inspected events) fun v T => T = S ∧ v.Valid ∧ v.width = bits := by
  have count : Keeps r S (modifyGet fun w => (w.symbols, { w with symbols := w.symbols + 1 }) : Exec Nat) := by
    rintro w hw rfl
    exact ⟨w.symbols, { w with symbols := w.symbols + 1 }, rfl, hw, rfl⟩
  refine count.bind fun n => Keeps.when_bind (fun _ => inspect_keeps _ _ _ (by simp)) ?_
  exact Keeps.when_bind (fun _ => note_keeps) (Does.pure ⟨rfl, trivial, rfl⟩)

lemma unknownBytes_does : Does r S (unknownBytes r name bits) fun v T => T = S ∧ v.Valid ∧ v.width = bits := by
  have zero : Does r S (pure (.lit bits 0)) fun (v : Bits) T => T = S ∧ v.Valid ∧ v.width = bits :=
    Does.pure ⟨rfl, Bits.valid_zero bits, rfl⟩
  refine has_gives.bind (.ite (fun _ => zero) fun _ => has_gives.bind ?_)
  exact .ite (fun _ => freshSymbol_does) fun _ => zero

lemma replaceChunk_does (hS : S.Ready m) {tracking old value} (hold : old.Sound) (hv : value.Valid)
    (hw : value.width = 8 * old.length) (hb : old.covers b = true)
    (hthere : ∀ x, old.covers x = true → ((S.contents m).view x).isSome) :
    Does r S (onPages r (Paged.replaceChunk tracking old value)) fun new T => new = .ofBits value old.base ∧
      S.Shows m ((S.contents m).view.swap old (.ofBits value old.base)) T := by
  have hpages : ∀ n ∈ Paged.pagesOf old.base old.stop, ((S.contents m).peek n).isSome := fun n hn => by
    obtain ⟨h1, h2⟩ := Unshared.mem_pagesOf.1 hn
    obtain ⟨h3, h4⟩ := covers_iff.1 hb
    obtain ⟨c, hc⟩ := Option.isSome_iff_exists.1 (hthere (max old.base (n * pageSize)) (covers_iff.2 ⟨by omega, by omega⟩))
    obtain ⟨pg, hpg, -⟩ := Unshared.view_eq_some.1 hc
    have hgap : max old.base (n * pageSize) < (n + 1) * pageSize := by
      simp only [pageSize] at h1 ⊢
      omega
    rw [Unshared.div_eq_of_mem (by omega) hgap] at hpg
    rw [hpg]
    rfl
  obtain ⟨u, hu, -, hsound, -, hview⟩ := Unshared.replaceChunk_view hS.sound tracking hold hv (hw.trans hold.width.symm) hpages
  refine (onPages_does hS.memory hS.placed (Paged.replaceChunk_refines) hu).mono ?_
  rintro _ T ⟨rfl, p, k, rfl, rfl, hp, hm⟩
  exact ⟨rfl, p, k, rfl, hm, hS.withPages hm hp hsound, hview⟩

/-- **The chunk that takes the place** of one that all memories have over its range. -/
theorem picks_contents (hfound : ∀ s ∈ found, ∃ c, s.1 = some c ∧ c.Sound ∧ c.base = first.base ∧ c.length = first.length)
    (hchunks : ∀ c f, (c, f) ∈ chunks ↔ (some c, f) ∈ found) :
    let value := mergeValues (8 * first.length) (chunks.map fun (c, f) => (c.content, f))
    value.Valid ∧ value.width = 8 * first.length ∧ ∀ x, (ofBits value first.base).Picks found x := by
  intro value
  have hchunk : ∀ p ∈ chunks, p.1.Sound ∧ p.1.base = first.base ∧ p.1.length = first.length := fun p hp => by
    obtain ⟨d, hd, h⟩ := hfound _ ((hchunks p.1 p.2).1 hp)
    cases hd
    exact h
  have hall : ∀ q ∈ chunks.map fun (c, f) => (c.content, f), q.1.Valid ∧ q.1.width = 8 * first.length := fun q hq => by
    obtain ⟨p, hp, rfl⟩ := mem_map.1 hq
    obtain ⟨hsound, -, hlength⟩ := hchunk p hp
    exact ⟨hsound.valid, hlength ▸ hsound.width⟩
  obtain ⟨hvalid, hwidth, heval⟩ := mergeValues_spec hall
  refine ⟨hvalid, hwidth, fun x μ t ⟨s, hs, hst⟩ hsame => ?_⟩
  obtain ⟨c, hc, -⟩ := hsame s hs hst
  have hmem : (c, s.2) ∈ chunks := (hchunks c s.2).2 (hc ▸ hs)
  obtain ⟨q, hq, hqt, hqe⟩ := heval μ ⟨_, mem_map.2 ⟨_, hmem, rfl⟩, hst⟩
  obtain ⟨p, hp, rfl⟩ := mem_map.1 hq
  obtain ⟨d, hd, hbyte⟩ := hsame _ ((hchunks p.1 p.2).1 hp) hqt
  cases hd
  obtain ⟨-, hbase, hlength⟩ := hchunk p hp
  rw [← hbyte, byte, byte, stop, stop, hbase, hlength]
  change Word.byte (value.eval μ) (first.base + value.width / 8 - 1 - x) = _
  rw [hqe, hwidth, Nat.mul_div_cancel_left _ (by decide)]

/-- **What is written over a range** that all chunks reach, with unknown bytes where there are none. -/
theorem picks_parts {size} (hsize : 0 < size) (hfound : ∀ s ∈ found, ∀ c, s.1 = some c → c.Sound ∧ c.base ≤ b ∧ b + size ≤ c.stop)
    (hchunks : ∀ c f, (c, f) ∈ chunks ↔ (some c, f) ∈ found) {made}
    (hmade : ∀ p ∈ made, (p.1.Valid ∧ p.1.width = 8 * size) ∧ (none, p.2) ∈ found) :
    let value := mergeValues (8 * size) ((chunks.map fun (c, f) => (c.bytesAt b size, f)) ++ made)
    value.Valid ∧ value.width = 8 * size ∧ ∀ d : Chunk, d.Holds .big value b size → ∀ x, b ≤ x → x < b + size → d.Picks found x := by
  have hspell : ∀ p ∈ chunks, (p.1.bytesAt b size).Spells p.1.byte b size := fun p hp => by
    obtain ⟨hsound, hbase, hstop⟩ := hfound _ ((hchunks p.1 p.2).1 hp) p.1 rfl
    exact bytesAt_spells hsound hsize hbase hstop
  have hall : ∀ q ∈ (chunks.map fun (c, f) => (c.bytesAt b size, f)) ++ made, q.1.Valid ∧ q.1.width = 8 * size :=
    fun q hq => by
      obtain hq | hq := mem_append.1 hq
      · obtain ⟨p, hp, rfl⟩ := mem_map.1 hq
        exact ⟨(hspell p hp).valid, (hspell p hp).width⟩
      · exact (hmade q hq).1
  obtain ⟨hvalid, hwidth, heval⟩ := mergeValues_spec hall
  refine ⟨hvalid, hwidth, fun d hd x hx hx' μ t ⟨s, hs, hst⟩ hsame => ?_⟩
  obtain ⟨c, hc, -⟩ := hsame s hs hst
  have hmem : (c, s.2) ∈ chunks := (hchunks c s.2).2 (hc ▸ hs)
  obtain ⟨q, hq, hqt, hqe⟩ := heval μ ⟨_, mem_append_left _ (mem_map.2 ⟨_, hmem, rfl⟩), hst⟩
  rw [hd.byte μ x hx hx', hqe, Endness.byteAt, if_neg (by simp)]
  obtain hq | hq := mem_append.1 hq
  · obtain ⟨p, hp, rfl⟩ := mem_map.1 hq
    obtain ⟨e, he, hbyte⟩ := hsame _ ((hchunks p.1 p.2).1 hp) hqt
    cases he
    have hspelled := (hspell p hp).byte μ (x - b) (by omega)
    rw [Nat.add_sub_cancel' hx] at hspelled
    rw [← hbyte, ← hspelled]
    congr 1
    omega
  · -- a memory that has nothing there would have to be the one that is meant
    obtain ⟨e, he, -⟩ := hsame _ (hmade q hq).2 hqt
    cases he

end

end Exec

end SymExec
