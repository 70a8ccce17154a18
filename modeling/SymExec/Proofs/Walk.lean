import SymExec.Proofs.View

/-!
# The places at which memories are merged

Memories are merged place by place, in the order of the addresses at which they differ.
-/

namespace SymExec

open List Option Chunk

namespace View

/-- Whether all views show chunks over one range at a place. -/
def alike (own : View) (others : List View) (b : Nat) : Bool :=
  (own b).isSome && others.all fun V => (V b).map (fun c => (c.base, c.length)) = (own b).map fun c => (c.base, c.length)

/-- Whether what is done at a place goes on to an address: a view that shows a chunk at the place has it reach the address, and
one that does not shows nothing on the way. -/
def joint (all : List View) (b x : Nat) : Bool :=
  b ≤ x && all.all fun V =>
    match V b with
    | some c => x < c.stop
    | none => (range' b (x + 1 - b)).all fun y => (V y).isNone

/-- Whether what is done at a place decides what is at an address. -/
def takes (own : View) (others : List View) (b x : Nat) : Bool :=
  if alike own others b then own x = own b else joint (own :: others) b x

/-- The places of a list that are not passed over after the last one. -/
def walk (all : List View) : Option Nat → List Nat → List Nat
  | _, [] => []
  | last, b :: bs => if last.any (joint all · b) then walk all last bs else b :: walk all (some b) bs

/-- The place that decides what is at an address: the first that takes it. -/
def source (own : View) (others : List View) (places : List Nat) (x : Nat) : Option Nat :=
  (walk (own :: others) none places).find? (takes own others · x)

/-- The chunk of a view from which an address gets its byte. -/
def landing (own : View) (others : List View) (places : List Nat) (V : View) (x : Nat) : Option Chunk :=
  match source own others places x with
  | some b => V b
  | none => own x

/-- Chunks have as many bytes as they are long, and show only where they lie. -/
structure Sound (V : View) : Prop where
  covers : ∀ a c, V a = some c → c.covers a = true
  chunk : ∀ a c, V a = some c → c.Sound

/-- The chunks that show at places show over all of their range. -/
def Intact (all : List View) (bs : List Nat) : Prop :=
  ∀ b ∈ bs, ∀ V ∈ all, ∀ c, V b = some c → ∀ x, c.covers x = true → V x = some c

def Differences (own : View) (others : List View) (places : List Nat) : Prop :=
  ∀ x, x ∈ places ↔ ∃ V ∈ others, Paged.differs x (own x) (V x) = true

section
variable {own V : View} {others all : List View} {places : List Nat} {b x : Nat} {c : Chunk} {d : Chunk}

lemma alike_iff : alike own others b = true ↔ ∃ c, own b = some c ∧
      ∀ V ∈ others, ∃ d, V b = some d ∧ d.base = c.base ∧ d.length = c.length := by
  rw [alike, Bool.and_eq_true, Option.isSome_iff_exists, List.all_eq_true]
  constructor
  · rintro ⟨⟨c, hc⟩, h⟩
    refine ⟨c, hc, fun V hV => ?_⟩
    have hd := of_decide_eq_true (h V hV)
    rw [hc, Option.map_some, Option.map_eq_some_iff] at hd
    obtain ⟨d, hd, e⟩ := hd
    exact ⟨d, hd, Prod.mk.inj e⟩
  · rintro ⟨c, hc, h⟩
    refine ⟨⟨c, hc⟩, fun V hV => ?_⟩
    obtain ⟨d, hd, hb, hl⟩ := h V hV
    simp [hc, hd, hb, hl]

lemma joint_iff : joint all b x = true ↔ b ≤ x ∧ ∀ V ∈ all, (∀ c, V b = some c → x < c.stop) ∧
      (V b = none → ∀ y, b ≤ y → y ≤ x → V y = none) := by
  rw [joint, Bool.and_eq_true, decide_eq_true_eq, List.all_eq_true]
  refine and_congr_right fun hbx => forall₂_congr fun V _ => ?_
  cases hV : V b with
  | some c => simp
  | none =>
    simp only [List.all_eq_true, List.mem_range'_1, Option.isNone_iff_eq_none, reduceCtorEq, false_implies, implies_true,
      true_and, forall_const]
    exact ⟨fun h y h1 h2 => h y ⟨h1, by omega⟩, fun h y ⟨h1, h2⟩ => h y h1 (by omega)⟩

lemma joint_self (hall : ∀ V ∈ all, V.Sound) (b) : joint all b b = true := by
  refine joint_iff.2 ⟨le_rfl, fun V hV => ⟨fun c hc => (covers_iff.1 ((hall V hV).covers b c hc)).2, fun hn y h1 h2 => ?_⟩⟩
  rwa [Nat.le_antisymm h2 h1]

lemma joint_congr {W} (h : ∀ y, b ≤ y → W y = V y) (x) : joint (W :: others) b x = joint (V :: others) b x := by
  refine Bool.eq_iff_iff.2 ?_
  rw [joint_iff, joint_iff]
  refine and_congr_right fun hbx => ?_
  rw [forall_mem_cons, forall_mem_cons, h b le_rfl]
  refine and_congr_left fun _ => and_congr_right fun _ => forall_congr' fun _ => forall_congr' fun y => ?_
  exact forall_congr' fun hy => by rw [h y hy]

lemma joint_iff_of_alike (ha : alike own others b = true) (hc : own b = some c) :
    joint (own :: others) b x = true ↔ b ≤ x ∧ x < c.stop := by
  obtain ⟨c', hc', hothers⟩ := alike_iff.1 ha
  obtain rfl := some.inj (hc'.symm.trans hc)
  rw [joint_iff]
  refine and_congr_right fun _ => ⟨fun h => (h own (.head _)).1 c' hc, fun hx V hV => ?_⟩
  obtain ⟨d, hd, hb, hl⟩ : ∃ d, V b = some d ∧ d.base = c'.base ∧ d.length = c'.length := by
    obtain rfl | hV := mem_cons.1 hV
    · exact ⟨c', hc, rfl, rfl⟩
    · exact hothers V hV
  refine ⟨fun e he => ?_, fun hn => absurd (hn.symm.trans hd) (by simp)⟩
  obtain rfl := some.inj (hd.symm.trans he)
  rwa [stop, hb, hl]

lemma exists_joint_of_mem (hall : ∀ V ∈ all, V.Sound) (last) (hx : x ∈ places) :
    (∃ b, last = some b ∧ joint all b x = true) ∨ ∃ b ∈ walk all last places, joint all b x = true := by
  fun_induction walk all last places with
  | case1 => cases hx
  | case2 last b bs hskip ih =>
    obtain rfl | hx := mem_cons.1 hx
    · obtain ⟨l, hl, hj⟩ := (any_eq_true _ _).1 hskip
      exact .inl ⟨l, hl, hj⟩
    · exact ih hx
  | case3 last b bs _ ih =>
    obtain rfl | hx := mem_cons.1 hx
    · exact .inr ⟨x, mem_cons_self, joint_self hall x⟩
    · obtain ⟨l, hl, hj⟩ | ⟨l, hl, hj⟩ := ih hx
      · cases hl
        exact .inr ⟨b, mem_cons_self, hj⟩
      · exact .inr ⟨l, .tail _ hl, hj⟩

lemma source_of_least (hsorted : places.Pairwise (· ≤ ·)) (hb : b ∈ places) (hleast : ∀ b' ∈ places, b ≤ b')
    (ht : takes own others b x = true) : source own others places x = some b := by
  cases places with
  | nil => cases hb
  | cons b' bs =>
    obtain rfl : b = b' := by
      refine Nat.le_antisymm (hleast b' (.head _)) ?_
      obtain rfl | hb := mem_cons.1 hb
      · exact le_rfl
      · exact (pairwise_cons.1 hsorted).1 b hb
    exact find?_cons_of_pos ht

lemma covers_of_takes (hall : ∀ V ∈ own :: others, V.Sound) (hV : V ∈ own :: others) (ht : takes own others b x = true)
    (hc : V b = some c) : c.covers x = true := by
  rw [takes] at ht
  split at ht
  · rename_i ha
    obtain ⟨d, hd, hother⟩ := alike_iff.1 ha
    have hx := covers_iff.1 ((hall own (.head _)).covers x d ((of_decide_eq_true ht).trans hd))
    obtain rfl | hV := mem_cons.1 hV
    · cases hc.symm.trans hd
      exact covers_iff.2 hx
    · obtain ⟨e, he, hb, hl⟩ := hother V hV
      cases hc.symm.trans he
      rw [covers_iff, stop, hb, hl]
      exact hx
  · obtain ⟨hle, h⟩ := joint_iff.1 ht
    have hb := (covers_iff.1 ((hall V hV).covers b c hc)).1
    exact covers_iff.2 ⟨hb.trans hle, (h V hV).1 c hc⟩

lemma isSome_of_takes (hV : V ∈ own :: others) (ht : takes own others b x = true) (hx : (V x).isSome) : (V b).isSome := by
  rw [takes] at ht
  split at ht
  · rename_i ha
    obtain ⟨d, hd, hother⟩ := alike_iff.1 ha
    obtain rfl | hV := mem_cons.1 hV
    · rw [hd]
      rfl
    · obtain ⟨e, he, -⟩ := hother V hV
      rw [he]
      rfl
  · obtain ⟨hle, h⟩ := joint_iff.1 ht
    cases hb : V b with
    | some _ => rfl
    | none =>
      rw [(h V hV).2 hb x hle le_rfl] at hx
      cases hx

/-- A difference that no place takes lies under a chunk that all views have, and that does not show there any more. -/
lemma covers_of_untaken (hall : ∀ V ∈ own :: others, V.Sound) (hx : x ∈ places) (hs : source own others places x = none) :
    ∃ b ∈ walk (own :: others) none places, ∃ c, own b = some c ∧ c.covers x = true ∧ own x ≠ own b := by
  obtain ⟨b, hb, -⟩ | ⟨b, hb, hj⟩ := exists_joint_of_mem hall none hx
  · cases hb
  · have ht := find?_eq_none.1 hs b hb
    rw [takes] at ht
    split at ht
    · rename_i ha
      obtain ⟨c, hc, -⟩ := alike_iff.1 ha
      obtain ⟨hle, h⟩ := joint_iff.1 hj
      have hbase := (covers_iff.1 ((hall own (.head _)).covers b c hc)).1
      refine ⟨b, hb, c, hc, covers_iff.2 ⟨hbase.trans hle, (h own (.head _)).1 c hc⟩, ?_⟩
      simpa using ht
    · exact absurd hj ht

lemma isSome_of_not_mem (hp : Differences own others places) (hV : V ∈ own :: others) (hx : x ∉ places)
    (h : (V x).isSome) : (own x).isSome := by
  obtain rfl | hV := mem_cons.1 hV
  · exact h
  · have hd := mt (fun hd => (hp x).2 ⟨V, hV, hd⟩) hx
    obtain ⟨c, hc⟩ := isSome_iff_exists.1 h
    cases ho : own x with
    | some _ => rfl
    | none =>
      rw [ho, hc] at hd
      exact absurd rfl hd

/-- **An address that a view has** gets its byte from some chunk of that view. -/
theorem isSome_landing (hall : ∀ V ∈ own :: others, V.Sound) (hp : Differences own others places)
    (hwhole : ∀ a c, own a = some c → ∀ x, c.covers x = true → (own x).isSome) (hV : V ∈ own :: others)
    (hx : (V x).isSome) : (landing own others places V x).isSome := by
  rw [landing]
  split
  · rename_i b hb
    exact isSome_of_takes hV (find?_some (p := (takes own others · x)) hb) hx
  · rename_i hs
    by_cases hmem : x ∈ places
    · obtain ⟨b, -, c, hc, hcov, -⟩ := covers_of_untaken hall hmem hs
      exact hwhole b c hc x hcov
    · exact isSome_of_not_mem hp hV hmem hx

lemma intact_of_single (cs : List Chunk) (bs) : Intact (cs.map fun c => c.over fun _ => none) bs := by
  intro b _ V hV c hc x hx
  obtain ⟨d, -, rfl⟩ := mem_map.1 hV
  rw [Chunk.over] at hc ⊢
  split at hc
  · cases hc
    rw [if_pos hx]
  · cases hc

lemma byte_eq_of_not_differs (hc : c.Sound) (hd : d.Sound) (hcx : c.covers x = true) (hdx : d.covers x = true)
    (h : ¬ Paged.differs x (some c) (some d) = true) (μ : Model) : c.byte μ x = d.byte μ x := by
  by_cases e : c = d
  · rw [e]
  · have hbytes : c.bytesAt x 1 = d.bytesAt x 1 := by
      simpa [Paged.differs, e] using h
    have byte : ∀ e : Chunk, e.Sound → e.covers x = true → Word.byte ((e.bytesAt x 1).eval μ) 0 = e.byte μ x := fun e he hx => by
      obtain ⟨h1, h2⟩ := covers_iff.1 hx
      exact (bytesAt_spells he Nat.one_pos h1 h2).byte μ 0 Nat.one_pos
    rw [← byte c hc hcx, hbytes, byte d hd hdx]

/-- **Where the chunks that are merged show over all of their range** each address gets the byte of the view itself. -/
theorem byte_landing_of_intact (hall : ∀ V ∈ own :: others, V.Sound) (hp : Differences own others places)
    (hi : Intact (own :: others) (walk (own :: others) none places)) (hV : V ∈ own :: others)
    (hd : V x = some d) (hc : landing own others places V x = some c) (μ : Model) : c.byte μ x = d.byte μ x := by
  rw [landing] at hc
  split at hc
  · rename_i b hb
    have hcov := covers_of_takes hall hV (find?_some (p := (takes own others · x)) hb) hc
    have hx := hi b (mem_of_find?_eq_some hb) V hV c hc x hcov
    rw [some.inj (hx.symm.trans hd)]
  · rename_i hs
    have hmem : x ∉ places := fun hmem => by
      obtain ⟨b, hb, e, he, hcov, hne⟩ := covers_of_untaken hall hmem hs
      exact hne ((hi b hb own (.head _) e he x hcov).trans he.symm)
    obtain rfl | hV' := mem_cons.1 hV
    · rw [some.inj (hc.symm.trans hd)]
    · have hown := hall own (.head _)
      have hother := hall V hV
      refine byte_eq_of_not_differs (hown.chunk x c hc) (hother.chunk x d hd) (hown.covers x c hc) (hother.covers x d hd) ?_ μ
      rw [← hc, ← hd]
      exact mt (fun h => (hp x).2 ⟨V, hV', h⟩) hmem

end

end View

lemma Unshared.Sound.sound_view {u : Unshared} (hu : u.Sound) : u.view.Sound := ⟨fun _ _ => hu.covers, hu.chunk⟩

end SymExec
