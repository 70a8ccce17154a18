import SymExec.Proofs.Choice

/-!
# Merging place by place

The loop that merges memories goes through the places at which they differ and writes a choice at each, in the own memory.
-/

namespace SymExec

open List Option Bool Chunk View

/-! ### The own memory after some places -/

/-- Memories that are merged, each with its condition: what the own one had at first, and the others over a table of pages. -/
structure Sides where
  own : Unshared
  condition : Cond
  others : List (Paged × Cond)
  table : Commons

namespace Sides

variable (K : Sides) {c : Chunk} {size : Nat}

def views : List View := K.others.map fun s => (s.1.unshared K.table).view

def all : List View := K.own.view :: K.views

/-- What is over an address in each memory, with its condition. -/
def found (b : Nat) : List (Option Chunk × Cond) :=
  (K.own.view b, K.condition) :: K.others.map fun s => ((s.1.unshared K.table).view b, s.2)

/-- What the own memory shows after some places were merged: what a place takes is chosen among what is found there, and all else is
as it was. -/
def Patched (steps : List Nat) (stop : Nat) (W : View) : Prop :=
  ∀ x, match steps.find? (takes K.own.view K.views · x) with
    | none => W x = K.own.view x
    | some b => ∃ d, W x = some d ∧ d.stop ≤ stop ∧ d.Picks (K.found b) x

variable {K} {steps : List Nat} {stop b : Nat} {W : View} {x : Nat}

section
variable (h : K.Patched steps stop W)
include h

lemma Patched.view_eq (hW : W.Sound) (hx : stop ≤ x) : W x = K.own.view x := by
  have hx' := h x
  split at hx'
  · exact hx'
  · obtain ⟨d, hd, hle, -⟩ := hx'
    have hcov := covers_iff.1 (hW.covers x d hd)
    omega

lemma Patched.isSome (hx : (K.own.view x).isSome) : (W x).isSome := by
  have hx' := h x
  split at hx'
  · rwa [hx']
  · obtain ⟨d, hd, -⟩ := hx'
    rw [hd]
    rfl

lemma Patched.replace (hle : stop ≤ b) (ha : View.alike K.own.view K.views b = true)
    {first new} (hfirst : K.own.view b = some first) (hb : b < first.stop) (hstop : new.stop = first.stop)
    (hpicks : ∀ x, new.Picks (K.found b) x) : K.Patched (steps ++ [b]) first.stop (W.swap first new) := by
  intro x
  have hx := h x
  rw [List.find?_append]
  cases hs : steps.find? (View.takes K.own.view K.views · x) with
  | some b' =>
    rw [hs] at hx
    obtain ⟨d, hd, hdstop, hdpicks⟩ := hx
    have hne : d ≠ first := fun e => by
      rw [e] at hdstop
      omega
    refine ⟨d, ?_, by omega, hdpicks⟩
    rw [View.swap, hd, Option.map_some, if_neg hne]
  | none =>
    rw [hs] at hx
    simp only [List.find?_singleton, View.takes, ha, if_true, Option.none_or]
    by_cases hown : K.own.view x = K.own.view b
    · simp only [hown, decide_true, if_true]
      refine ⟨new, ?_, Nat.le_of_eq hstop, hpicks x⟩
      rw [View.swap, hx, hown, hfirst, Option.map_some, if_pos rfl]
    · simp only [hown, decide_false, Bool.false_eq_true, if_false]
      rw [View.swap, hx]
      cases hc : K.own.view x with
      | none => rfl
      | some c =>
        have hne : c ≠ first := fun e => hown (by rw [hc, hfirst, e])
        rw [Option.map_some, if_neg hne]

lemma Patched.over (hW : W.Sound) (hle : stop ≤ b) (ha : ¬ alike K.own.view K.views b = true) {d : Chunk} (hbase : d.base = b)
    (hjoint : ∀ x, joint K.all b x = true ↔ d.covers x = true) (hpicks : ∀ x, d.covers x = true → d.Picks (K.found b) x) :
    K.Patched (steps ++ [b]) d.stop (d.over W) := by
  intro x
  have hx := h x
  have hstop : stop ≤ d.stop := by
    rw [Chunk.stop]
    omega
  rw [find?_append]
  cases hs : steps.find? (takes K.own.view K.views · x) with
  | some b' =>
    rw [hs] at hx
    obtain ⟨e, he, hestop, hepicks⟩ := hx
    have hnot : ¬ d.covers x = true := fun hcov => by
      have h1 := covers_iff.1 hcov
      have h2 := covers_iff.1 (hW.covers x e he)
      omega
    refine ⟨e, ?_, hestop.trans hstop, hepicks⟩
    rw [Chunk.over, if_neg hnot, he]
  | none =>
    rw [hs] at hx
    have htakes : takes K.own.view K.views b x = d.covers x := by
      rw [takes, if_neg ha]
      exact eq_iff_iff.2 (hjoint x)
    simp only [find?_singleton, htakes, none_or]
    by_cases hcov : d.covers x = true
    · simp only [hcov, if_true]
      refine ⟨d, ?_, le_rfl, hpicks x hcov⟩
      rw [Chunk.over, if_pos hcov]
    · simp only [hcov, false_eq_true, if_false]
      rw [Chunk.over, if_neg hcov, hx]

end

/-- After all places each address has the byte of the chunk in which it lands, in a model in which one memory is meant. -/
lemma Patched.landing {places} (h : K.Patched (walk K.all none places) stop W) {V}
    (hc : landing K.own.view K.views places V x = some c) {μ}
    (hone : ∀ b, (∃ s ∈ K.found b, s.2.eval μ = true) ∧ ∀ s ∈ K.found b, s.2.eval μ = true → s.1 = V b) :
    ∃ d, W x = some d ∧ d.byte μ x = c.byte μ x := by
  have hx := h x
  change match source K.own.view K.views places x with
    | none => W x = K.own.view x
    | some b => ∃ d, W x = some d ∧ d.stop ≤ stop ∧ d.Picks (K.found b) x at hx
  rw [View.landing] at hc
  cases hs : source K.own.view K.views places x with
  | none =>
    rw [hs] at hx hc
    exact ⟨c, hx.trans hc, rfl⟩
  | some b =>
    rw [hs] at hx hc
    obtain ⟨d, hd, -, hpicks⟩ := hx
    exact ⟨d, hd, hpicks μ _ (hone b).1 fun s hs hst => ⟨c, ((hone b).2 s hs hst).trans hc, rfl⟩⟩

/-! ### One place -/

/-- The memory of a scene among the others, which have their pages in the table and hold none that it owns. -/
structure Stands (K : Sides) (S : Scene) (m : Memory) : Prop where
  ready : S.Ready m
  placed : ∀ s ∈ K.others, s.1.Placed S.commons
  apart : ∀ s ∈ K.others, Paged.Apart m.paged s.1
  contents : ∀ s ∈ K.others, s.1.unshared S.commons = s.1.unshared K.table

section
variable {r : Region} {S : Scene} {m : Memory} {bits : Nat} {f : Cond} {first : Chunk} {rest done : List Chunk}

lemma Stands.withPages (h : K.Stands S m) {p k} (hm : Paged.Moves m.paged S.commons p k)
    (hr : (S.withPages m p k).Ready { m with paged := p }) : K.Stands (S.withPages m p k) { m with paged := p } := by
  refine ⟨hr, fun s hs => ?_, fun s hs => hm.apart_left (h.placed s hs) (h.apart s hs), fun s hs => ?_⟩
  · exact (hm.frame (h.placed s hs) (h.apart s hs)).1
  · exact (hm.frame (h.placed s hs) (h.apart s hs)).2.trans (h.contents s hs)

abbrev sides (K : Sides) (m : Memory) : List (Paged × Cond) := (m.paged, K.condition) :: K.others

lemma Stands.views_eq (h : K.Stands S m) : (K.sides m).map (fun s => S.view s.1) = (S.contents m).view :: K.views := by
  exact congrArg _ (map_congr_left fun s hs => by rw [Scene.view, h.contents s hs])

lemma Stands.found_eq (h : K.Stands S m) (hb : (S.contents m).view b = K.own.view b) :
    (K.sides m).map (fun s => (S.view s.1 b, s.2)) = K.found b := by
  rw [map_cons]
  congr 1
  · exact congrArg (·, K.condition) hb
  · exact map_congr_left fun s hs => by rw [Scene.view, h.contents s hs]

lemma mem_found_iff {o} :
    (o, f) ∈ K.found b ↔ (o = K.own.view b ∧ f = K.condition) ∨ ∃ s ∈ K.others, o = (s.1.unshared K.table).view b ∧ f = s.2 := by
  rw [found, List.mem_cons, List.mem_map]
  simp only [Prod.mk.injEq, eq_comm]

def chunks (K : Sides) (b : Nat) : List (Chunk × Cond) := (K.found b).filterMap fun s => s.1.map (·, s.2)

lemma mem_chunks_iff : (c, f) ∈ K.chunks b ↔ (some c, f) ∈ K.found b := by
  rw [chunks, mem_filterMap]
  constructor
  · rintro ⟨s, hs, he⟩
    obtain ⟨d, hd, e⟩ := map_eq_some_iff.1 he
    cases e
    rwa [← hd]
  · exact fun h => ⟨_, h, rfl⟩

/-- The memories have chunks over one range at a place: as it is decided from the chunks that are found. -/
lemma alike_iff_chunks (hcs : (K.chunks b).map (·.1) = first :: rest) : View.alike K.own.view K.views b = true ↔
      (∀ s ∈ K.found b, s.1.isSome) ∧ ∀ c ∈ first :: rest, c.base = first.base ∧ c.length = first.length := by
  have hfirst : ∀ c, K.own.view b = some c → first = c := fun c hc => by
    rw [chunks, found, hc] at hcs
    exact (List.cons.inj hcs).1.symm
  have hmem : ∀ c, c ∈ first :: rest ↔ ∃ f, (some c, f) ∈ K.found b := fun c => by
    rw [← hcs, List.mem_map]
    constructor
    · rintro ⟨p, hp, rfl⟩
      exact ⟨p.2, mem_chunks_iff.1 hp⟩
    · rintro ⟨f, hf⟩
      exact ⟨(c, f), mem_chunks_iff.2 hf, rfl⟩
  rw [View.alike_iff]
  constructor
  · rintro ⟨c, hc, hothers⟩
    obtain rfl := hfirst c hc
    have hall : ∀ s ∈ K.found b, ∃ d, s.1 = some d ∧ d.base = first.base ∧ d.length = first.length := fun s hs => by
      obtain ⟨h, -⟩ | ⟨o, ho, h, -⟩ := mem_found_iff.1 hs
      · exact ⟨first, h.trans hc, rfl, rfl⟩
      · rw [h]
        exact hothers _ (List.mem_map_of_mem ho)
    refine ⟨fun s hs => ?_, fun d hd => ?_⟩
    · obtain ⟨d, hd, -⟩ := hall s hs
      rw [hd]
      rfl
    · obtain ⟨f, hf⟩ := (hmem d).1 hd
      obtain ⟨e, he, h⟩ := hall _ hf
      cases he
      exact h
  · rintro ⟨hall, hext⟩
    obtain ⟨c, hc⟩ := Option.isSome_iff_exists.1 (hall _ (mem_found_iff.2 (.inl ⟨rfl, rfl⟩)))
    obtain rfl := hfirst c hc
    refine ⟨first, hc, fun V hV => ?_⟩
    obtain ⟨o, ho, rfl⟩ := List.mem_map.1 hV
    have hin : ((o.1.unshared K.table).view b, o.2) ∈ K.found b := mem_found_iff.2 (.inr ⟨o, ho, rfl, rfl⟩)
    obtain ⟨d, hd⟩ := Option.isSome_iff_exists.1 (hall _ hin)
    exact ⟨d, hd, hext d ((hmem d).2 ⟨o.2, hd ▸ hin⟩)⟩

lemma Stands.missing_spec (h : K.Stands S m) (hb : (S.contents m).view b = K.own.view b) :
    (((K.sides m).filter fun s => (S.view s.1 b).isNone).isEmpty = true ↔ ∀ s ∈ K.found b, s.1.isSome) ∧
    ∀ s ∈ (K.sides m).filter fun s => (S.view s.1 b).isNone, (none, s.2) ∈ K.found b := by
  have hmem : ∀ s ∈ K.sides m, (S.view s.1 b, s.2) ∈ K.found b := fun s hs => by
    rw [← h.found_eq hb]
    exact mem_map_of_mem hs
  refine ⟨?_, fun s hs => ?_⟩
  · rw [List.isEmpty_iff, filter_eq_nil_iff, ← h.found_eq hb, List.forall_mem_map]
    refine forall₂_congr fun s _ => ?_
    simp [isSome_iff_ne_none]
  · obtain ⟨hs, hn⟩ := mem_filter.1 hs
    have hin := hmem s hs
    rwa [isNone_iff_eq_none.1 hn] at hin

structure Regular (K : Sides) (bits : Nat) : Prop where
  own : K.own.Regular bits
  others : ∀ s ∈ K.others, (s.1.unshared K.table).Regular bits

lemma Regular.found (hK : K.Regular bits) (h : (some c, f) ∈ K.found b) : c.Sound ∧ c.covers b = true ∧ c.length < 2 ^ bits := by
  have of : ∀ u : Unshared, u.Regular bits → some c = u.view b → c.Sound ∧ c.covers b = true ∧ c.length < 2 ^ bits :=
    fun u hu hc => ⟨hu.sound.chunk b c hc.symm, hu.sound.covers hc.symm, hu.fits b c hc.symm⟩
  obtain ⟨hc, -⟩ | ⟨s, hs, hc, -⟩ := mem_found_iff.1 h
  · exact of _ hK.own hc
  · exact of _ (hK.others s hs) hc

/-- What is left after a place was merged: the end of what was merged, the chunks that are merged now, and the own memory. -/
structure Merged (K : Sides) (S : Scene) (m : Memory) (steps : List Nat) (b stop : Nat) (done : List Chunk) (T : Scene) : Prop where
  reach : ∀ x, joint K.all b x = true ↔ b ≤ x ∧ x < stop
  done : ∀ c ∈ done, c.stop ≤ stop
  memory : ∃ p k, T = S.withPages m p k ∧ K.Stands T { m with paged := p } ∧ K.Patched (steps ++ [b]) stop (p.unshared k).view

open Exec

lemma store_choice_does (hS : S.Ready m) (hbits : S.arch.bits = bits) {value} (hv : value.Valid)
    (hw : value.width = 8 * size) (hfits : size < 2 ^ bits) :
    Does r S (store r (.num b) value { endness := some .big, inspected := false }) fun _ => S.Lays m .big value b size := by
  have hcount : Put.count { addr := .num b, data := value, options := { endness := some .big, inspected := false } } = size := by
    change value.width / 8 = size
    omega
  have hdata : storeData m.category S.arch.bits none value = value := by cases m.category <;> rfl
  have hplain : Put.Plain { addr := .num b, data := value, options := { endness := some .big, inspected := false } } m.category
      S.arch.bits := by
    refine ⟨rfl, by simp, rfl, hv, show value.width % 8 = 0 by omega, ?_, by rwa [hcount, hbits]⟩
    rw [hdata]
    exact le_rfl
  have hstore := store_does (r := r) hS hplain.nat?_addr hplain.valid hplain.whole hplain.condition hplain.nat?_size
    hplain.reaches
  rw [hcount] at hstore
  exact hstore

section
variable (h : K.Stands S m) (hbits : S.arch.bits = bits) (hK : K.Regular bits) (hP : K.Patched steps stop (S.contents m).view)
  (hle : stop ≤ b) (hdone : ∀ c ∈ done, c.stop ≤ stop)
include h hK hP hle hdone

lemma replace_first_does (hcs : (K.chunks b).map (·.1) = first :: rest) (ha : alike K.own.view K.views b = true) : Does r S (do
      let new ← onPages r (Paged.replaceChunk (← trackingNames) first
        (mergeValues (8 * first.length) ((K.chunks b).map fun (c, f) => (c.content, f))))
      return some (first.base + first.length, new :: (first :: rest) ++ done)) fun res T =>
      ∃ stop' done', res = some (stop', done') ∧ K.Merged S m steps b stop' done' T := by
  obtain ⟨hall, hext⟩ := (alike_iff_chunks hcs).1 ha
  obtain ⟨c, hc⟩ := isSome_iff_exists.1 (hall _ (mem_found_iff.2 (.inl ⟨rfl, rfl⟩)))
  obtain rfl : first = c := by
    rw [chunks, found, filterMap_cons, hc] at hcs
    exact (cons.inj hcs).1.symm
  have hown : (some first, K.condition) ∈ K.found b := mem_found_iff.2 (.inl ⟨hc.symm, rfl⟩)
  obtain ⟨hsound, hcov, -⟩ := hK.found hown
  have hfound : ∀ s ∈ K.found b, ∃ c, s.1 = some c ∧ c.Sound ∧ c.base = first.base ∧ c.length = first.length :=
    fun s hs => by
      obtain ⟨d, hd⟩ := isSome_iff_exists.1 (hall s hs)
      have hin : (some d, s.2) ∈ K.found b := hd ▸ hs
      refine ⟨d, hd, (hK.found hin).1, hext d ?_⟩
      rw [← hcs]
      exact mem_map.2 ⟨_, mem_chunks_iff.2 hin, rfl⟩
  obtain ⟨hvalid, hwidth, hpicks⟩ := picks_contents hfound (fun c f => mem_chunks_iff)
  have hthere : ∀ x, first.covers x = true → ((S.contents m).view x).isSome := fun x hx =>
    hP.isSome (hK.own.unbroken b first hc x hx)
  have hstop : (ofBits (mergeValues (8 * first.length) ((K.chunks b).map fun (c, f) => (c.content, f)))
      first.base).stop = first.stop := by
    change first.base + _ / 8 = first.base + first.length
    rw [hwidth, Nat.mul_div_cancel_left _ (by decide)]
  have hb := (covers_iff.1 hcov).2
  refine has_gives.bind ((replaceChunk_does h.ready hsound hvalid hwidth hcov hthere).bind ?_)
  rintro new T ⟨rfl, p, k, rfl, hm, hready, hview⟩
  refine .pure ⟨first.stop, _, rfl, fun x => joint_iff_of_alike ha hc, fun d hd => ?_, p, k, rfl, h.withPages hm hready, ?_⟩
  · obtain rfl | hd := mem_cons.1 hd
    · exact Nat.le_of_eq hstop
    · obtain hd | hd := mem_append.1 hd
      · rw [Chunk.stop, Chunk.stop, (hext d hd).1, (hext d hd).2]
      · have := hdone d hd
        omega
  · rw [funext hview]
    exact hP.replace hle ha hc hb hstop hpicks

include hbits

lemma store_parts_does (hcs : (K.chunks b).map (·.1) = first :: rest) (ha : ¬ alike K.own.view K.views b = true)
    {missing : List (Paged × Cond)} (hmissing : ∀ s ∈ missing, (none, s.2) ∈ K.found b)
    (hsize : ∀ x, joint K.all b x = true ↔ b ≤ x ∧ x < b + size) :
    Does r S (do
      let id := (← memoryAt r).id
      let made ← missing.mapM fun (_, f) => do
        return (← unknownBytes r ("merge_uc_" ++ id ++ "_" ++ hexDigits b) (8 * size), f)
      let cut := if size = 0 then [] else (K.chunks b).map fun (c, f) => (c.bytesAt b size, f)
      let value := mergeValues (8 * size) (cut ++ made)
      let _ ← store r (.num b) value { endness := some .big, inspected := false }
      return some (b + size, done)) fun res T =>
      ∃ stop' done', res = some (stop', done') ∧ K.Merged S m steps b stop' done' T := by
  have hall : ∀ V ∈ K.all, V.Sound := fun V hV => by
    obtain rfl | hV := mem_cons.1 hV
    · exact hK.own.sound.sound_view
    · obtain ⟨s, hs, rfl⟩ := mem_map.1 hV
      exact (hK.others s hs).sound.sound_view
  have hpos : 0 < size := by
    have hself := ((hsize b).1 (joint_self hall b)).2
    omega
  -- the chunks that are found reach as far as the place does
  have hfound : ∀ s ∈ K.found b, ∀ c, s.1 = some c → c.Sound ∧ c.base ≤ b ∧ b + size ≤ c.stop := fun s hs c hc => by
    have hin : (some c, s.2) ∈ K.found b := hc ▸ hs
    obtain ⟨hsound, hcov, -⟩ := hK.found hin
    refine ⟨hsound, (covers_iff.1 hcov).1, ?_⟩
    obtain ⟨-, hreach⟩ := joint_iff.1 ((hsize (b + size - 1)).2 ⟨by omega, by omega⟩)
    have hlast : b + size - 1 < c.stop := by
      obtain ⟨e, -⟩ | ⟨o, ho, e, -⟩ := mem_found_iff.1 hin
      · exact (hreach _ (.head _)).1 c e.symm
      · exact (hreach _ (.tail _ (mem_map_of_mem ho))).1 c e.symm
    omega
  have hfits : size < 2 ^ bits := by
    obtain ⟨p, hp, rfl⟩ : ∃ p ∈ K.chunks b, p.1 = first := mem_map.1 (hcs ▸ (.head _))
    have hin := mem_chunks_iff.1 hp
    obtain ⟨-, hbase, hstop⟩ := hfound _ hin p.1 rfl
    have hlt := (hK.found hin).2.2
    rw [Chunk.stop] at hstop
    omega
  refine (memoryAt_gives h.ready.memory).bind ?_
  refine (Does.mapM (P := fun (s : Paged × Cond) (p : Bits × Cond) => (p.1.Valid ∧ p.1.width = 8 * size) ∧ p.2 = s.2)
    missing fun s _ => ?_).bind ?_
  · refine unknownBytes_does.bind ?_
    rintro v T ⟨rfl, hv, hw⟩
    exact .pure ⟨rfl, ⟨hv, hw⟩, rfl⟩
  · rintro made T ⟨rfl, hmade⟩
    have hmade' : ∀ p ∈ made, (p.1.Valid ∧ p.1.width = 8 * size) ∧ (none, p.2) ∈ K.found b := fun p hp => by
      obtain ⟨s, hs, hp, e⟩ := hmade p hp
      exact ⟨hp, e ▸ hmissing s hs⟩
    obtain ⟨hvalid, hwidth, hpicks⟩ := picks_parts hpos hfound (fun c f => mem_chunks_iff) hmade'
    rw [if_neg (Nat.ne_of_gt hpos)]
    refine (store_choice_does h.ready hbits hvalid hwidth hfits).bind ?_
    rintro _ T' ⟨d, hd, p, k, rfl, hm, hready, hview⟩
    have hcov : ∀ x, d.covers x = true ↔ b ≤ x ∧ x < b + size := fun x => by rw [covers_iff, Chunk.stop, hd.base, hd.length]
    have hstop : d.stop = b + size := by rw [Chunk.stop, hd.base, hd.length]
    refine .pure ⟨b + size, done, rfl, hsize, fun c hc => ?_, p, k, rfl, h.withPages hm hready, ?_⟩
    · have hc' := hdone c hc
      omega
    · rw [funext hview, ← hstop]
      exact hP.over h.ready.sound.sound_view hle ha hd.base (fun x => (hsize x).trans (hcov x).symm) fun x hx =>
        hpicks d hd x ((hcov x).1 hx).1 ((hcov x).1 hx).2

lemma mergeAt_does (hthere : ∃ s ∈ K.found b, s.1.isSome) : Does r S (mergeAt r K.others K.condition done b) fun res T =>
      ∃ stop' done', res = some (stop', done') ∧ K.Merged S m steps b stop' done' T := by
  have hsame : ∀ y, b ≤ y → (S.contents m).view y = K.own.view y := fun y hy => hP.view_eq h.ready.sound.sound_view (hle.trans hy)
  have hb := hsame b le_rfl
  obtain ⟨hempty, hmissing⟩ := h.missing_spec hb
  have hchunks : ((K.sides m).filterMap fun s => (S.view s.1 b).map (·, s.2)) = K.chunks b := by
    rw [chunks, ← h.found_eq hb, filterMap_map]
    rfl
  obtain ⟨first, rest, hcs⟩ : ∃ first rest, (K.chunks b).map (·.1) = first :: rest := by
    obtain ⟨s, hs, hsome⟩ := hthere
    obtain ⟨c, hc⟩ := isSome_iff_exists.1 hsome
    have hin : c ∈ (K.chunks b).map (·.1) := mem_map.2 ⟨(c, s.2), mem_chunks_iff.2 (hc ▸ hs), rfl⟩
    exact exists_cons_of_ne_nil (ne_nil_of_mem hin)
  have hview := mergeViewAt_gives (r := r) h.ready.memory h.ready.placed h.placed K.condition b
  rw [hchunks] at hview
  refine hview.bind ?_
  simp only [hcs]
  -- no chunk that is found was merged before: it goes on past the end of what was
  have hnew : first ∉ done := fun hin => by
    obtain ⟨p, hp, rfl⟩ : ∃ p ∈ K.chunks b, p.1 = first := mem_map.1 (hcs ▸ (.head _))
    have hcov := covers_iff.1 (hK.found (mem_chunks_iff.1 hp)).2.1
    have hstop := hdone _ hin
    omega
  refine .ite (by simp [hnew]) fun _ => ?_
  have hcond : (((K.sides m).filter fun s => (S.view s.1 b).isNone).isEmpty &&
      (first :: rest).all fun c => c.base = first.base && c.length = first.length) = true ↔
      alike K.own.view K.views b = true := by
    rw [and_eq_true, hempty, alike_iff_chunks hcs, List.all_eq_true]
    simp only [and_eq_true, decide_eq_true_eq]
  refine .ite (fun ha => ?_) fun ha => ?_
  · exact replace_first_does h hK hP hle hdone hcs (hcond.1 ha)
  · have hplaced : ∀ s ∈ K.sides m, s.1.Placed S.commons ∧ (s.1.unshared S.commons).Sound := by
      intro s hs
      obtain rfl | hs := mem_cons.1 hs
      · exact ⟨h.ready.placed, h.ready.sound⟩
      · exact ⟨h.placed s hs, h.contents s hs ▸ (hK.others s hs).sound⟩
    obtain ⟨size, hsize, hreach⟩ := reach_gives (fun s hs => (hplaced s hs).1) (fun s hs => (hplaced s hs).2)
      (by rw [hchunks]; exact hcs)
    rw [h.views_eq] at hreach
    refine hsize.bind (store_parts_does h hbits hK hP hle hdone hcs (mt hcond.2 ha) hmissing fun x => ?_)
    rw [← hreach x]
    exact eq_iff_iff.1 (joint_congr hsame x).symm

end

lemma mergePlaces_does (h : K.Stands S m) (hbits : S.arch.bits = bits) (hK : K.Regular bits) (bs)
    (hsorted : bs.Pairwise (· ≤ ·)) (hthere : ∀ b ∈ bs, ∃ s ∈ K.found b, s.1.isSome) (last) {mergedTo}
    (hP : K.Patched steps (mergedTo.getD 0) (S.contents m).view)
    (hlast : ∀ b ∈ bs, (mergedTo.any fun e => decide (b < e)) = last.any (joint K.all · b))
    (hdone : ∀ c ∈ done, c.stop ≤ mergedTo.getD 0) (n) :
    Does r S (mergePlaces r K.others K.condition bs mergedTo done n) fun n' T =>
      n' = n + (walk K.all last bs).length ∧ ∃ p k stop', T = S.withPages m p k ∧ K.Stands T { m with paged := p } ∧
        K.Patched (steps ++ walk K.all last bs) stop' (p.unshared k).view := by
  induction bs generalizing S m steps last mergedTo done n with
  | nil =>
    refine .pure ⟨rfl, m.paged, S.commons, mergedTo.getD 0, ?_, h, ?_⟩
    · rw [Scene.withPages, ← h.ready.memory]
    · rw [walk, append_nil]
      exact hP
  | cons b bs ih =>
    obtain ⟨hb, hsorted⟩ := pairwise_cons.1 hsorted
    have hthere' := fun b' hb' => hthere b' (.tail _ hb')
    have hskip := hlast b (.head _)
    rw [walk]
    refine .ite (fun hpassed => ?_) fun hnew => ?_
    · rw [if_pos (hskip ▸ hpassed)]
      exact ih h hbits hsorted hthere' last hP (fun b' hb' => hlast b' (.tail _ hb')) hdone n
    · rw [if_neg (hskip ▸ hnew)]
      have hle : mergedTo.getD 0 ≤ b := by
        cases mergedTo with
        | none => exact Nat.zero_le b
        | some e => simpa using hnew
      refine (mergeAt_does h hbits hK hP hle hdone (hthere b (.head _))).bind ?_
      rintro _ T ⟨stop', done', rfl, hmerged⟩
      obtain ⟨p, k, rfl, hstands, hpatched⟩ := hmerged.memory
      refine (ih hstands hbits hsorted hthere' (some b) hpatched (fun b' hb' => ?_) hmerged.done (n + 1)).mono ?_
      · exact eq_iff_iff.2 (by simp [hmerged.reach, hb b' hb'])
      · rintro n' T ⟨rfl, q, k', stop'', rfl, hstands', hpatched'⟩
        refine ⟨by simp only [length_cons]; omega, q, k', stop'', rfl, hstands', ?_⟩
        rwa [append_assoc] at hpatched'

end

end Sides

end SymExec
