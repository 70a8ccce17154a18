import Mathlib.Order.Interval.Set.Nat
import SymExec.Flow.Segments

/-!
# Segments as a map

A list of segments says of which sort an address is (`look`).
-/

namespace SymExec

open List Nat Option Segment

def Segment.hull (p n : Segment) : Segment := ⟨min p.start n.start, max p.stop n.stop, n.sort⟩

lemma Segment.holds_iff {s : Segment} {a} : s.holds a = true ↔ s.start ≤ a ∧ a < s.stop := by simp [holds]

namespace Segments

/-! ### Lists of segments -/

/-- The sort of the first segment that holds an address. -/
def look (l : List Segment) (a : Nat) : Option String := (l.find? (·.holds a)).map (·.sort)

structure Ordered (l : List Segment) : Prop where
  nonempty : ∀ s ∈ l, s.start < s.stop
  disjoint : l.Pairwise fun s t => s.stop ≤ t.start

def lay (p : Segment) (f : Nat → Option String) (a : Nat) : Option String := if p.holds a then some p.sort else f a

section
variable {l l' A B R : List Segment} {p n s : Segment} {a : Nat}

lemma look_cons : look (s :: l) = lay s (look l) := by
  funext a
  rw [look, lay, find?_cons]
  cases s.holds a <;> rfl

lemma look_append : look (l ++ l') a = (look l a).or (look l' a) := by cases h : l.find? (·.holds a) <;> simp [look, h]

lemma look_eq_none : look l a = none ↔ ∀ s ∈ l, s.start ≤ a → s.stop ≤ a := by simp [look, holds]

lemma ordered_iff : Ordered l ↔ (∀ s ∈ l, s.start < s.stop) ∧ l.Pairwise fun s t => s.stop ≤ t.start :=
  ⟨fun ⟨h, h'⟩ => ⟨h, h'⟩, fun ⟨h, h'⟩ => ⟨h, h'⟩⟩

lemma ordered_cons : Ordered (s :: l) ↔ s.start < s.stop ∧ (∀ t ∈ l, s.stop ≤ t.start) ∧ Ordered l := by
  simp only [ordered_iff, forall_mem_cons, pairwise_cons]
  tauto

lemma ordered_append : Ordered (l ++ l') ↔ Ordered l ∧ Ordered l' ∧ ∀ s ∈ l, ∀ t ∈ l', s.stop ≤ t.start := by
  simp only [ordered_iff, forall_mem_append, pairwise_append]
  tauto

lemma lay_append (hA : ∀ x ∈ A, x.stop ≤ p.start) : lay p (look (A ++ l)) a = (look A a).or (lay p (look l) a) := by
  rw [lay, lay, look_append]
  split_ifs with h
  · have hnone : look A a = none := look_eq_none.2 fun x hx _ => (hA x hx).trans (holds_iff.1 h).1
    rw [hnone, none_or]
  · rfl

lemma lay_hull (hsort : n.sort = p.sort) (hn : n.start ≤ p.stop) (hp : p.start ≤ n.stop) (f) :
    lay (p.hull n) f = lay p (lay n f) := by
  funext a
  simp only [lay, holds_iff, hull]
  grind

section
variable (hsort : n.sort ≠ p.sort) (hn : n.start < p.stop) (hp : p.start < n.stop)
include hsort hn hp

lemma fuse_cut : fuse (p.cut n p.sort) = (if n.start < p.start then [⟨n.start, p.start, n.sort⟩] else []) ++
      p :: if p.stop < n.stop then [⟨p.stop, n.stop, n.sort⟩] else [] := by
  obtain ⟨start, stop, sort⟩ := p
  unfold cut
  split_ifs <;> simp_all [fuse, eq_comm] <;> omega

lemma lay_cut (hps : p.start < p.stop)
    (hA : ∀ x ∈ A, x.stop ≤ p.start) (hR : ∀ r ∈ R, p.stop ≤ r.start) (ho : Ordered (A ++ n :: R)) :
    Ordered (A ++ fuse (p.cut n p.sort) ++ R) ∧ look (A ++ fuse (p.cut n p.sort) ++ R) = lay p (look (A ++ n :: R)) := by
  rw [fuse_cut hsort hn hp]
  simp only [ordered_append, ordered_cons, forall_mem_cons] at ho
  obtain ⟨hoA, ⟨hns, hnR, hoR⟩, hAR⟩ := ho
  constructor
  · split_ifs <;> simp [ordered_append, ordered_cons] <;> grind
  · funext a
    rw [lay_append hA, append_assoc, look_append]
    congr 1
    split_ifs <;> simp only [nil_append, cons_append, look_cons, lay, holds_iff] <;> grind

end

end

/-! ### Settling -/

/-- The place from which a segment and the next one are settled, if so many segments are before them. -/
def Sweep.place (k : Nat) : Sweep → Nat
  | .forward => k
  | .backward => k + 1

section
variable {l A B R : List Segment} {p n : Segment} {s s' : Segments} {t : Int} {dir : Sweep} {pos pos' : Nat} {P : Segments → Prop}

lemma settle_split (A B : List Segment) (p n t dir) : settle ⟨A ++ p :: n :: B, t⟩ (Sweep.place A.length dir) dir =
    if p.stop < n.start then none
    else if n.sort = p.sort then some (A.length, ⟨A ++ p.hull n :: B, t - (n.size + p.size - (p.hull n).size)⟩)
    else if n.start = p.stop then none
    else
      let parts := fuse (p.cut n (match dir with | .forward => p.sort | .backward => n.sort))
      some (match dir with | .forward => A.length + parts.length | .backward => A.length,
        ⟨A ++ parts ++ B, t + ((parts.map Segment.size).sum - (p.size + n.size))⟩) := by
  cases dir <;> simp [settle, Sweep.place, hull]

lemma exists_split (h : s.settle pos dir = some (pos', s')) : ∃ A p n B, s.list = A ++ p :: n :: B ∧ pos = Sweep.place A.length dir := by
  obtain ⟨i, hpos, p, hp, n, hn⟩ : ∃ i, pos = Sweep.place i dir ∧ ∃ p, s.list[i]? = some p ∧ ∃ n, s.list[i + 1]? = some n := by
    cases dir with
    | forward =>
      simp only [settle, bind_eq_bind, bind_some, bind_eq_some_iff] at h
      obtain ⟨p, hp, n, hn, -⟩ := h
      exact ⟨pos, rfl, p, hp, n, hn⟩
    | backward =>
      simp only [settle, bind_eq_bind, bind_eq_some_iff] at h
      obtain ⟨i, hi, p, hp, n, hn, -⟩ := h
      exact ⟨i, by grind [Sweep.place], p, hp, n, hn⟩
  obtain ⟨hi, rfl⟩ := List.getElem?_eq_some_iff.1 hp
  obtain ⟨hi', rfl⟩ := List.getElem?_eq_some_iff.1 hn
  refine ⟨s.list.take i, s.list[i], s.list[i + 1], s.list.drop (i + 2), ?_, ?_⟩
  · rw [← drop_eq_getElem_cons hi', ← drop_eq_getElem_cons hi, take_append_drop]
  · rw [length_take_of_le hi.le, hpos]

/-- In ordered segments there is nothing to settle but neighbours of one sort that touch. -/
lemma settle_ordered (hs : Ordered s.list) (h : s.settle pos dir = some (pos', s')) : Ordered s'.list ∧ look s'.list = look s.list := by
  obtain ⟨A, p, n, B, hl, rfl⟩ := exists_split h
  obtain ⟨list, t⟩ := s
  subst hl
  have ho := hs
  simp only [ordered_append, ordered_cons, forall_mem_cons] at ho
  have htouch : ¬ p.stop < n.start → n.start = p.stop := by omega
  rw [settle_split] at h
  split_ifs at h with hgap hsort
  · obtain ⟨-, rfl⟩ := Prod.mk.inj (some.inj h)
    constructor
    · simp only [ordered_append, ordered_cons, hull]
      grind
    · funext a
      rw [look_append, look_append, look_cons, look_cons, look_cons, lay_hull hsort (by omega) (by omega)]
  · exact absurd (htouch hgap) ‹_›

/-- The number of addresses that are taken is the sum of the sizes. -/
def Tallied (s : Segments) : Prop := s.taken = (s.list.map Segment.size).sum

lemma settle_tallied (hs : s.Tallied) (h : s.settle pos dir = some (pos', s')) : s'.Tallied := by
  obtain ⟨A, p, n, B, hl, rfl⟩ := exists_split h
  obtain ⟨list, t⟩ := s
  subst hl
  simp only [Tallied, List.map_append, List.map_cons, List.sum_append, List.sum_cons] at hs
  rw [settle_split] at h
  split_ifs at h <;>
  · obtain ⟨-, rfl⟩ := Prod.mk.inj (Option.some.inj h)
    simp only [Tallied, List.map_append, List.map_cons, List.sum_append, List.sum_cons]
    omega

lemma settleForward_keeps (hP : ∀ {s s' pos pos'}, P s → s.settle pos .forward = some (pos', s') → P s') (fuel) (hs : P s) :
    P (settleForward fuel pos s).2 := by
  fun_induction settleForward fuel pos s <;> grind

lemma settleBackward_keeps (hP : ∀ {s s' pos pos'}, P s → s.settle pos .backward = some (pos', s') → P s') (fuel)
    (hs : P s) : P (settleBackward fuel pos s) := by
  fun_induction settleBackward fuel pos s <;> grind

/-- A range may be laid over segments if one of another sort is the last one that it meets. -/
def Clear (p : Segment) (l : List Segment) : Prop := l.Pairwise fun t u => p.start < t.stop → u.start < p.stop → t.sort = p.sort

lemma lay_free (hp : p.start < p.stop) (hA : ∀ x ∈ A, x.stop ≤ p.start) (hR : ∀ r ∈ R, p.stop ≤ r.start)
    (ho : Ordered (A ++ R)) : Ordered (A ++ p :: R) ∧ look (A ++ p :: R) = lay p (look (A ++ R)) := by
  constructor
  · simp only [ordered_append, ordered_cons, forall_mem_cons] at ho ⊢
    exact ⟨ho.1, ⟨hp, hR, ho.2.1⟩, fun x hx => ⟨hA x hx, ho.2.2 x hx⟩⟩
  · funext a
    rw [lay_append hA, look_append, look_cons]

/-- The pass forward lays a range over the segments behind it, by induction on them: the range grows by those of its sort until it
meets none or one of another sort. -/
lemma settleForward_lays {fuel} (hfuel : R.length < fuel) (ho : Ordered (A ++ R)) (hp : p.start < p.stop)
    (hA : ∀ x ∈ A, x.stop ≤ p.start) (hR : ∀ r ∈ R, p.start < r.stop) (hclear : Clear p R) :
    let s' := (settleForward fuel A.length ⟨A ++ p :: R, t⟩).2
    Ordered s'.list ∧ look s'.list = lay p (look (A ++ R)) := by
  induction R generalizing p fuel t with
  | nil =>
    obtain ⟨fuel, rfl⟩ := exists_eq_add_one.2 hfuel
    have hnone : settle ⟨A ++ [p], t⟩ A.length .forward = none := by simp [settle]
    rw [settleForward, if_neg (by simp), hnone]
    exact lay_free hp hA nofun ho
  | cons n R ih =>
    obtain ⟨fuel, rfl⟩ := exists_eq_add_one.2 (zero_lt_of_lt hfuel)
    have ho' := ho
    simp only [ordered_append, ordered_cons, forall_mem_cons] at ho'
    obtain ⟨hoA, ⟨hn, hnR, hoR⟩, hAR⟩ := ho'
    obtain ⟨hnc, hRc⟩ := pairwise_cons.1 hclear
    obtain ⟨hpn, hpR⟩ := forall_mem_cons.1 hR
    have hfree (h : p.stop ≤ n.start) : ∀ r ∈ n :: R, p.stop ≤ r.start :=
      forall_mem_cons.2 ⟨h, fun r hr => h.trans (hn.le.trans (hnR r hr))⟩
    have hsplit : settle ⟨A ++ p :: n :: R, t⟩ A.length .forward = _ := settle_split A R p n t .forward
    rw [settleForward, if_neg (by simp), hsplit]
    split_ifs with hgap hsort htouch
    · exact lay_free hp hA (hfree (by omega)) ho
    · have hgrown : Clear (p.hull n) R := hRc.imp_of_mem fun {u v} hu hv h _ hv' => hsort.symm ▸ h (hpR u hu) <| by
        have hnv := hnR v hv
        simp only [hull] at hv'
        omega
      obtain ⟨hord, hlook⟩ := ih (lt_of_succ_lt_succ hfuel)
        (by grind [ordered_append]) (by grind [hull]) (by grind [hull]) (by grind [hull]) hgrown
      refine ⟨hord, hlook.trans (funext fun a => ?_)⟩
      rw [lay_append hA, look_cons, ← lay_hull hsort (by omega) hpn.le, lay_append]
      grind [hull]
    · exact lay_free hp hA (hfree (by omega)) ho
    · have hlast : ∀ r ∈ R, p.stop ≤ r.start := fun r hr => by
        by_contra h
        exact hsort (hnc r hr hpn (by omega))
      refine settleForward_keeps (P := fun s => Ordered s.list ∧ look s.list = lay p (look (A ++ n :: R)))
        (fun h hs => ?_) fuel (lay_cut hsort (by omega) hpn hp hA hlast ho)
      obtain ⟨h1, h2⟩ := settle_ordered h.1 hs
      exact ⟨h1, h2.trans h.2⟩

end

/-! ### Searching -/

section
variable {l : List Segment} {s : Segments} {a : Nat} {k : Nat}

/-- The segments before a place are those that end before an address or at it. -/
structure Splits (l : List Segment) (a k : Nat) : Prop where
  le : k ≤ l.length
  lt_iff : ∀ i x, l[i]? = some x → (i < k ↔ x.stop ≤ a)

lemma Splits.before (h : Splits l a k) : ∀ x ∈ l.take k, x.stop ≤ a := fun x hx => by
  obtain ⟨i, hi⟩ := mem_iff_getElem?.1 hx
  rw [getElem?_take] at hi
  split_ifs at hi with hik
  exact (h.lt_iff i x hi).1 hik

lemma Splits.after (h : Splits l a k) : ∀ x ∈ l.drop k, a < x.stop := fun x hx => by
  obtain ⟨i, hi⟩ := mem_iff_getElem?.1 hx
  rw [getElem?_drop] at hi
  exact Nat.lt_of_not_le fun hle => not_lt.2 (le_add_right k i) ((h.lt_iff _ x hi).2 hle)

section
variable (ho : Ordered l)
include ho

lemma Ordered.start_lt_stop {i : Nat} {x} (hi : l[i]? = some x) : x.start < x.stop := ho.nonempty x (mem_of_getElem? hi)

lemma Ordered.stop_le_start {i j : Nat} {x y} (hi : l[i]? = some x) (hj : l[j]? = some y) (hij : i < j) : x.stop ≤ y.start := by
  obtain ⟨_, rfl⟩ := List.getElem?_eq_some_iff.1 hi
  obtain ⟨_, rfl⟩ := List.getElem?_eq_some_iff.1 hj
  exact pairwise_iff_getElem.1 ho.disjoint _ _ _ _ hij

lemma Ordered.splits_of_holds {y : Segment} (hk : l[k]? = some y) (hstart : y.start ≤ a) (hstop : a < y.stop) : Splits l a k := by
  refine ⟨(List.getElem?_eq_some_iff.1 hk).1.le, fun i x hi => ?_⟩
  obtain hlt | rfl | hgt := lt_trichotomy i k
  · have := ho.stop_le_start hi hk hlt
    omega
  · cases hi.symm.trans hk
    omega
  · have := ho.stop_le_start hk hi hgt
    have := ho.start_lt_stop hi
    omega

lemma searchFrom_splits {fuel lo hi : Nat} (hle : lo ≤ hi) (hhi : hi ≤ l.length) (hfuel : hi ≤ lo + fuel)
    (hbefore : ∀ i x, l[i]? = some x → i < lo → x.stop ≤ a) (hafter : ∀ i x, l[i]? = some x → hi ≤ i → a < x.stop) :
    Splits l a (searchFrom l a fuel lo hi) := by
  have hdone : ∀ lo, lo ≤ l.length → (∀ i x, l[i]? = some x → i < lo → x.stop ≤ a) →
      (∀ i x, l[i]? = some x → lo ≤ i → a < x.stop) → Splits l a lo := fun lo hlo hb ha =>
    ⟨hlo, fun i x hx => ⟨hb i x hx, fun h => Nat.lt_of_not_le fun hi => not_lt.2 h (ha i x hx hi)⟩⟩
  fun_induction searchFrom l a fuel lo hi with
  | case1 lo hi => exact hdone lo (by omega) hbefore fun i x hx hi => hafter i x hx (by omega)
  | case2 fuel lo => exact hdone lo hhi hbefore hafter
  | case3 fuel lo hi hne mid hnone => exact absurd (getElem?_eq_none_iff.1 hnone) (by omega)
  | case4 fuel lo hi hne mid seg hseg ha ih =>
    refine ih (by omega) (by omega) (by omega) hbefore fun i x hx hi => ?_
    have hpos := ho.start_lt_stop hx
    obtain heq | hlt := eq_or_lt_of_le hi
    · cases hseg.symm.trans (heq ▸ hx)
      omega
    · have := ho.stop_le_start hseg hx hlt
      have := ho.start_lt_stop hseg
      omega
  | case5 fuel lo hi hne mid seg hseg ha hstop ih =>
    refine ih (by omega) hhi (by omega) (fun i x hx hi => ?_) hafter
    obtain heq | hlt := eq_or_lt_of_le (le_of_lt_succ hi)
    · cases hseg.symm.trans (heq ▸ hx)
      exact hstop
    · have := ho.stop_le_start hx hseg hlt
      omega
  | case6 fuel lo hi hne mid seg hseg ha hstop => exact ho.splits_of_holds hseg (by omega) (by omega)

end

lemma search_splits (ho : Ordered s.list) : Splits s.list a (s.search a) :=
  searchFrom_splits ho (zero_le _) le_rfl (by omega) (fun _ _ _ h => absurd h (by omega))
    fun i x hx h => absurd (List.getElem?_eq_some_iff.1 hx).1 (by omega)

lemma sortAt?_eq_look (ho : Ordered s.list) : s.sortAt? a = look s.list a := by
  have hs := search_splits (a := a) ho
  have hlook : look s.list a = look (s.list.drop (s.search a)) a := by
    conv_lhs => rw [← take_append_drop (s.search a) s.list]
    rw [look_append, look_eq_none.2 fun x hx _ => hs.before x hx, none_or]
  have hhead := head?_drop (l := s.list) (i := s.search a)
  rw [hlook, sortAt?, segmentAt?]
  cases hd : s.list.drop (s.search a) with
  | nil =>
    rw [hd] at hhead
    simp [← hhead, look]
  | cons seg R =>
    rw [hd] at hhead
    have hseg := hs.after seg (by simp [hd])
    by_cases hstart : seg.start ≤ a
    · have hholds : seg.holds a = true := holds_iff.2 ⟨hstart, hseg⟩
      simp [← hhead, hholds, look_cons, lay]
    · have hholds : seg.holds a = false := by simp [holds, hstart]
      have hnone : look (seg :: R) a = none := look_eq_none.2 fun x hx hxa => by
        have hdrop : Ordered (seg :: R) := hd ▸ ⟨fun x hx => ho.nonempty x (mem_of_mem_drop hx), ho.disjoint.drop⟩
        obtain rfl | hxR := mem_cons.1 hx
        · exact absurd hxa hstart
        · have := (ordered_cons.1 hdrop).2.1 x hxR
          omega
      rw [hnone]
      simpa [← hhead, hholds] using fun h x hx => (hs.lt_iff _ x hx).1 (by omega)

end

/-! ### Taking ranges -/

structure Taking where
  addr : Nat
  size : Int
  sort : String

def Taking.range (c : Taking) : Segment := ⟨c.addr, c.addr + c.size.toNat, c.sort⟩

section
variable {s : Segments} {p : Segment} {k : Nat}

section
variable (ho : Ordered s.list)
include ho

lemma insertAt_lays (ht : s.Tallied) (hk : Splits s.list p.start k) (hp : p.start < p.stop) (hclear : Clear p s.list) :
    let s' := s.insertAt p k
    Ordered s'.list ∧ look s'.list = lay p (look s.list) ∧ s'.Tallied := by
  have hlist := List.take_append_drop k s.list
  have hlen : (s.list.take k).length = k := List.length_take_of_le hk.le
  let s1 : Segments := ⟨s.list.take k ++ p :: s.list.drop k, s.taken + p.size⟩
  have ht1 : s1.Tallied := by
    rw [Tallied, ← hlist] at ht
    simp only [Tallied, s1, ht, List.map_append, List.map_cons, List.sum_append, List.sum_cons]
    omega
  obtain ⟨hord, hlook⟩ := settleForward_lays
    (show (s.list.drop k).length < 4 * s1.list.length + 4 by simp [s1]; omega) (hlist.symm ▸ ho) hp hk.before hk.after
    (hclear.sublist (List.drop_sublist k _))
  rw [hlen] at hord hlook
  rw [hlist] at hlook
  have htal : (settleForward (4 * s1.list.length + 4) k s1).2.Tallied := settleForward_keeps settle_tallied _ ht1
  refine settleBackward_keeps (P := fun s' => Ordered s'.list ∧ look s'.list = lay p (look s.list) ∧ s'.Tallied)
    (fun h hs => ?_) _ ⟨hord, hlook, htal⟩
  obtain ⟨h1, h2⟩ := settle_ordered h.1 hs
  exact ⟨h1, h2.trans h.2.1, settle_tallied h.2.2 hs⟩

lemma placeBefore_eq (hk : Splits s.list p.start k) (hp : p.start < p.stop) : placeBefore s.list p.stop k = k := by
  cases k with
  | zero => rfl
  | succ k =>
    rw [placeBefore]
    split
    · rename_i before hb
      have hstop := (hk.lt_iff k before hb).1 (by omega)
      have hpos := ho.start_lt_stop hb
      rw [if_neg (by omega)]
    · rfl

lemma occupy_eq_insertAt {c : Taking} (hsize : 0 < c.size) :
    s.occupy c.addr c.size c.sort = s.insertAt c.range (s.search c.addr) ∧ c.range.start < c.range.stop := by
  have hstop : c.range.stop = c.range.start + c.size.toNat := rfl
  have hrange : c.range.start < c.range.stop := by omega
  refine ⟨?_, hrange⟩
  rw [occupy, if_neg (by omega)]
  change (if s.list.isEmpty then _ else s.insertAt c.range (placeBefore s.list c.range.stop (s.search c.addr))) = _
  rw [placeBefore_eq ho (k := s.search c.addr) (search_splits ho) hrange]
  split_ifs with hnil
  · rw [List.isEmpty_iff] at hnil
    have hsum : c.range.size = c.size := by
      rw [Segment.size]
      omega
    simp [insertAt, settleForward, settleBackward, settle, search, searchFrom, hnil, hsum]
    rfl
  · rfl

/-- **One range** is laid over the segments. -/
theorem occupy_lays {c : Taking} (ht : s.Tallied) (hsize : 0 < c.size) (hclear : Clear c.range s.list) :
    let s' := s.occupy c.addr c.size c.sort
    Ordered s'.list ∧ look s'.list = lay c.range (look s.list) ∧ s'.Tallied := by
  obtain ⟨heq, hrange⟩ := occupy_eq_insertAt ho hsize
  rw [heq]
  exact insertAt_lays ho ht (search_splits ho) hrange hclear

end

end

/-- The segments after ranges were taken one after the other. -/
def run (s : Segments) (cs : List Taking) : Segments := cs.foldl (fun s c => s.occupy c.addr c.size c.sort) s

/-- Each of the ranges may be laid over the segments that there are when it is taken. -/
def Clears (s : Segments) : List Taking → Prop
  | [] => True
  | c :: cs => Clear c.range s.list ∧ Clears (s.occupy c.addr c.size c.sort) cs

lemma run_lays (cs) {s : Segments} (ho : Ordered s.list) (ht : s.Tallied) (hsize : ∀ c ∈ cs, 0 < c.size) (hclear : Clears s cs) :
    Ordered (s.run cs).list ∧ (∀ a, look (s.run cs).list a = (look (cs.reverse.map Taking.range) a).or (look s.list a)) ∧
    (s.run cs).Tallied := by
  induction cs generalizing s with
  | nil => exact ⟨ho, fun a => rfl, ht⟩
  | cons c cs ih =>
    obtain ⟨hc, hcs⟩ := forall_mem_cons.1 hsize
    obtain ⟨ho', hlook, ht'⟩ := occupy_lays ho ht hc hclear.1
    obtain ⟨hord, hlook', htal⟩ := ih ho' ht' hcs hclear.2
    refine ⟨hord, fun a => (hlook' a).trans ?_, htal⟩
    rw [hlook, reverse_cons, map_append, look_append, Option.or_assoc, map_singleton, look_cons]
    rw [lay, lay]
    split_ifs <;> rfl

/-- Ordered segments hold as many addresses as the sum of their sizes. -/
lemma ncard_look {l : List Segment} (ho : Ordered l) :
    {a | (look l a).isSome}.Finite ∧ ({a | (look l a).isSome}.ncard : Int) = (l.map Segment.size).sum := by
  induction l with
  | nil => simp [look]
  | cons s l ih =>
    obtain ⟨hs, hsl, hl⟩ := ordered_cons.1 ho
    obtain ⟨hfin, hsum⟩ := ih hl
    have hset : {a | (look (s :: l) a).isSome} = Set.Ico s.start s.stop ∪ {a | (look l a).isSome} := by
      ext a
      rw [look_cons]
      by_cases h : s.holds a
      · simp [lay, h, Segment.holds_iff.1 h]
      · simp [lay, h, mt Segment.holds_iff.2 h]
    have hdisj : Disjoint (Set.Ico s.start s.stop) {a | (look l a).isSome} :=
      Set.disjoint_left.2 fun a ha h => by
        rw [Set.mem_ofPred_eq, look_eq_none.2 fun t ht hta => absurd (hsl t ht) (by have := ha.2; omega)] at h
        cases h
    rw [hset]
    refine ⟨(Set.finite_Ico ..).union hfin, ?_⟩
    rw [Set.ncard_union_eq hdisj (Set.finite_Ico ..) hfin, Set.ncard_Ico_nat, List.map_cons, List.sum_cons, Segment.size]
    omega

/-- **Segments are a map in which the last range wins**, as long as a segment of another sort is the last one that a range meets:
they are in order and disjoint, an address has the sort of the range that was taken last of those which hold it, and as many
addresses are taken as the ranges have together. -/
theorem run_exact (cs : List Taking) (hsize : ∀ c ∈ cs, 0 < c.size) (hclear : Clears {} cs) :
    let s := run {} cs
    Ordered s.list ∧ (∀ a, s.sortAt? a = look (cs.reverse.map Taking.range) a) ∧
      s.taken = Set.ncard {a | ∃ c ∈ cs, c.range.holds a} := by
  obtain ⟨ho, hlook, ht⟩ := run_lays cs (s := {}) ⟨nofun, .nil⟩ rfl hsize hclear
  have hlook' : ∀ a, look (run {} cs).list a = look (cs.reverse.map Taking.range) a := fun a => by
    rw [hlook a]
    exact Option.or_none
  refine ⟨ho, fun a => (sortAt?_eq_look ho).trans (hlook' a), ?_⟩
  have hset : {a | ∃ c ∈ cs, c.range.holds a} = {a | (look (run {} cs).list a).isSome} := by
    ext a
    rw [Set.mem_ofPred_eq, Set.mem_ofPred_eq, hlook']
    simp [look]
  rw [hset, (ncard_look ho).2]
  exact ht

/-- Code that is taken twice, with a text over a part of it. -/
theorem run_exact_overlapping :
    let cs : List Taking := [⟨0, 4, "code"⟩, ⟨2, 6, "string"⟩, ⟨10, 2, "code"⟩, ⟨9, 4, "code"⟩]
    (∀ c ∈ cs, 0 < c.size) ∧ Clears {} cs ∧ (run {} cs).sortAt? 3 = some "string" ∧ (run {} cs).sortAt? 9 = some "code" ∧
      Ordered (run {} cs).list := by
  intro cs
  have hsize : ∀ c ∈ cs, 0 < c.size := by decide
  have hclear : Clears {} cs := by
    refine ⟨?_, ?_, ?_, ?_, trivial⟩ <;> unfold Clear <;> decide
  obtain ⟨ho, hsort, -⟩ := run_exact cs hsize hclear
  exact ⟨hsize, hclear, (hsort 3).trans rfl, (hsort 9).trans rfl, ho⟩

/-! ### Ranges of one sort -/

section
/-- Non-empty segments of one sort, in order and with a gap between any two. -/
def Spaced (w : String) (l : List Segment) : Prop := (∀ s ∈ l, s.start < s.stop ∧ s.sort = w) ∧ l.Pairwise fun s t => s.stop < t.start

variable {w : String} {l l' A R : List Segment} {p q : Segment} {s : Segments} {t : Int} {a k m : Nat}

lemma spaced_append : Spaced w (l ++ l') ↔ Spaced w l ∧ Spaced w l' ∧ ∀ s ∈ l, ∀ t ∈ l', s.stop < t.start := by
  simp only [Spaced, forall_mem_append, pairwise_append]
  tauto

lemma spaced_cons : Spaced w (p :: l) ↔ (p.start < p.stop ∧ p.sort = w) ∧ (∀ t ∈ l, p.stop < t.start) ∧ Spaced w l := by
  simp only [Spaced, forall_mem_cons, pairwise_cons]
  tauto

lemma isSome_look : (look l a).isSome ↔ ∃ x ∈ l, x.holds a := by simp [look]

lemma Spaced.ordered (h : Spaced w l) : Ordered l := ⟨fun s hs => (h.1 s hs).1, h.2.imp le_of_lt⟩

/-- The pass forward joins a range with the segments behind it that it reaches, by induction on them. -/
lemma settleForward_spaced (hfuel : R.length < m) (h : Spaced w (A ++ R)) (hp : p.start < p.stop ∧ p.sort = w)
    (hA : ∀ x ∈ A, x.stop ≤ p.start) : ∃ q R' t', settleForward m A.length ⟨A ++ p :: R, t⟩ = (A.length, ⟨A ++ q :: R', t'⟩) ∧
      Spaced w (q :: R') ∧ ∀ x ∈ A, x.stop ≤ q.start := by
  induction R generalizing p m t with
  | nil =>
    obtain ⟨m, rfl⟩ := exists_eq_add_one.2 hfuel
    have hnone : settle ⟨A ++ [p], t⟩ A.length .forward = none := by simp [settle]
    rw [settleForward, if_neg (by simp), hnone]
    exact ⟨p, [], t, rfl, spaced_cons.2 ⟨hp, nofun, nofun, .nil⟩, hA⟩
  | cons n R ih =>
    obtain ⟨m, rfl⟩ := exists_eq_add_one.2 (zero_lt_of_lt hfuel)
    simp only [spaced_append, spaced_cons, forall_mem_cons] at h
    have hsplit : settle ⟨A ++ p :: n :: R, t⟩ A.length .forward = _ := settle_split A R p n t .forward
    rw [settleForward, if_neg (by simp), hsplit]
    split_ifs with hgap hsort
    · exact ⟨p, n :: R, t, rfl, by grind [spaced_cons], hA⟩
    · exact ih (lt_of_succ_lt_succ hfuel) (by grind [spaced_append]) (by grind [hull]) (by grind [hull])
    all_goals exact absurd (h.2.1.1.2.trans hp.2.symm) hsort

/-- The pass backward joins a segment with those before it that reach it, by induction on them. -/
lemma settleBackward_spaced (hfuel : A.length < m) (hA : Spaced w A) (hq : Spaced w (q :: R)) (h : ∀ x ∈ A, x.stop ≤ q.start) :
    Spaced w (settleBackward m A.length ⟨A ++ q :: R, t⟩).list := by
  induction A using reverseRecOn generalizing q m t with
  | nil =>
    obtain ⟨m, rfl⟩ := exists_eq_add_one.2 hfuel
    exact hq
  | append_singleton A x ih =>
    obtain ⟨m, rfl⟩ := exists_eq_add_one.2 (zero_lt_of_lt hfuel)
    have hsplit : settle ⟨A ++ x :: q :: R, t⟩ (A.length + 1) .backward = _ := settle_split A R x q t .backward
    simp only [spaced_append, spaced_cons] at hA hq
    rw [length_append, length_singleton, append_assoc, singleton_append, settleBackward, hsplit]
    split_ifs with hgap hsort
    · grind [spaced_append, spaced_cons]
    · exact ih (by simpa using hfuel) hA.1 (by grind [hull, spaced_cons]) (by grind [hull])
    all_goals exact absurd (hq.1.2.trans hA.2.1.1.2.symm) hsort

lemma insertAt_spaced (h : Spaced w s.list) (hk : Splits s.list p.start k) (hp : p.start < p.stop ∧ p.sort = w) :
    Spaced w (s.insertAt p k).list := by
  have hlist := take_append_drop k s.list
  have hlen : (s.list.take k).length = k := length_take_of_le hk.le
  obtain ⟨q, R, t, hforward, hq, hA⟩ := settleForward_spaced (m := 4 * (s.list.take k ++ p :: s.list.drop k).length + 4)
    (t := s.taken + p.size) (by simp; omega) (hlist.symm ▸ h) hp hk.before
  rw [hlen] at hforward
  rw [insertAt, hforward]
  simp only [length_append, length_cons, hlen]
  rw [if_neg (by omega)]
  have := settleBackward_spaced (t := t) (m := 4 * (k + ((s.list.drop k).length + 1)) + 4) (by omega)
    (spaced_append.1 (hlist.symm ▸ h)).1 hq hA
  rwa [hlen] at this

lemma run_spaced (cs : List Taking) (h : Spaced w s.list) (hsize : ∀ c ∈ cs, 0 < c.size) (hsort : ∀ c ∈ cs, c.sort = w) :
    Spaced w (s.run cs).list ∧ Clears s cs := by
  induction cs generalizing s with
  | nil => exact ⟨h, trivial⟩
  | cons c cs ih =>
    simp only [forall_mem_cons] at hsize hsort
    obtain ⟨heq, hrange⟩ := occupy_eq_insertAt h.ordered hsize.1
    have hnext : Spaced w (s.occupy c.addr c.size c.sort).list := heq ▸ insertAt_spaced h (search_splits h.ordered) ⟨hrange, hsort.1⟩
    obtain ⟨hrun, hclear⟩ := ih hnext hsize.2 hsort.2
    exact ⟨hrun, pairwise_of_forall_mem_list fun x hx _ _ _ _ => (h.1 x hx).2.trans hsort.1.symm, hclear⟩

/-- The segments are determined by the addresses that they hold: the first one of each list starts at the least of them, and stops at
the first that follows and is not held. -/
lemma Spaced.ext (h : Spaced w l) (h' : Spaced w l') (hl : ∀ a, (∃ s ∈ l, s.holds a) ↔ ∃ s ∈ l', s.holds a) : l = l' := by
  simp only [holds_iff] at hl
  induction l generalizing l' with
  | nil =>
    cases l' with
    | nil => rfl
    | cons q l' => exact absurd ((hl q.start).2 ⟨q, mem_cons_self, le_rfl, (spaced_cons.1 h').1.1⟩) (by simp)
  | cons p l ih =>
    cases l' with
    | nil => exact absurd ((hl p.start).1 ⟨p, mem_cons_self, le_rfl, (spaced_cons.1 h).1.1⟩) (by simp)
    | cons q l' =>
      obtain ⟨hp, hpl, hs⟩ := spaced_cons.1 h
      obtain ⟨hq, hql, hs'⟩ := spaced_cons.1 h'
      have hstart : p.start = q.start := by
        have h1 := hl p.start
        have h2 := hl q.start
        grind [Spaced]
      have hstop : p.stop = q.stop := by
        have h1 := hl p.stop
        have h2 := hl q.stop
        grind [Spaced]
      obtain rfl : p = q := by
        cases p
        cases q
        simp_all
      rw [ih hs hs' fun a => ?_]
      have := hl a
      grind

/-- The place of the search is where an address is held, if it is held at all, and no segment touches the next. -/
lemma nextFree_least (h : Spaced w s.list) (a) : IsLeast {b | a ≤ b ∧ ¬ ∃ x ∈ s.list, x.holds b} (s.nextFree a) := by
  have hs := search_splits (a := a) h.ordered
  have hbefore := hs.before
  have hafter := hs.after
  have hlist := take_append_drop (s.search a) s.list
  rw [nextFree]
  generalize s.list.take (s.search a) = A, s.list.drop (s.search a) = R at *
  simp only [← hlist, holds_iff] at h ⊢
  cases R with
  | nil => exact ⟨⟨le_rfl, by grind⟩, fun b hb => hb.1⟩
  | cons y R =>
    simp only [spaced_append, spaced_cons] at h ⊢
    split_ifs with hy
    · have hend : runEnd y R = y.stop := by cases R <;> grind [runEnd]
      exact hend ▸ ⟨⟨hy.2.le, by grind⟩, fun b hb => by grind⟩
    · exact ⟨⟨le_rfl, by grind [Spaced]⟩, fun b hb => hb.1⟩

/-- **Ranges of one sort leave the maximal intervals of their union**: the list is the only one of segments with gaps between them that
hold the addresses of the ranges; the number of addresses that are taken, whether one is, and the next that is free are those of
the union. So the order of the ranges does not matter. -/
theorem run_one_sort (cs : List Taking) (hsize : ∀ c ∈ cs, 0 < c.size) (hsort : ∀ c ∈ cs, c.sort = w) :
    let s := run {} cs
    let union := {a | ∃ c ∈ cs, c.range.holds a}
    (∀ l, l = s.list ↔ Spaced w l ∧ ∀ a, (∃ x ∈ l, x.holds a) ↔ a ∈ union) ∧ s.taken = union.ncard ∧
      (∀ a, (s.isOccupied a ↔ a ∈ union) ∧ IsLeast {b | a ≤ b ∧ b ∉ union} (s.nextFree a)) ∧ ∀ cs', cs'.Perm cs → run {} cs' = s := by
  have canonical : ∀ cs : List Taking, (∀ c ∈ cs, 0 < c.size) → (∀ c ∈ cs, c.sort = w) → Spaced w (run {} cs).list ∧
      (∀ a, (∃ x ∈ (run {} cs).list, x.holds a) ↔ ∃ c ∈ cs, c.range.holds a) ∧ (run {} cs).Tallied := fun cs hsize hsort => by
    obtain ⟨hs, hclear⟩ := run_spaced cs (s := {}) ⟨nofun, .nil⟩ hsize hsort
    obtain ⟨-, hlook, ht⟩ := run_lays cs (s := {}) ⟨nofun, .nil⟩ rfl hsize hclear
    refine ⟨hs, fun a => ?_, ht⟩
    rw [← isSome_look, hlook]
    simp [look]
  obtain ⟨hs, hheld, ht⟩ := canonical cs hsize hsort
  have hcard : ∀ s : Segments, s.Tallied → s = ⟨s.list, (s.list.map Segment.size).sum⟩ := fun s h => h ▸ rfl
  refine ⟨fun l => ⟨fun h => h ▸ ⟨hs, hheld⟩, fun h => h.1.ext hs fun a => (h.2 a).trans (hheld a).symm⟩, ?_,
    fun a => ⟨?_, ?_⟩, fun cs' hperm => ?_⟩
  · simp only [← hheld, ← isSome_look]
    exact ht.trans (ncard_look hs.ordered).2.symm
  · rw [isOccupied, ← Option.isSome_map (f := (·.sort)), ← sortAt?, sortAt?_eq_look hs.ordered, isSome_look]
    exact hheld a
  · simp only [Set.mem_ofPred_eq, ← hheld]
    exact nextFree_least hs a
  · obtain ⟨hs', hheld', ht'⟩ := canonical cs' (by simpa [hperm.mem_iff] using hsize) (by simpa [hperm.mem_iff] using hsort)
    have hlist := hs'.ext hs fun a => by rw [hheld', hheld]; simp [hperm.mem_iff]
    exact (hcard _ ht').trans (hlist ▸ (hcard _ ht).symm)

/-- Two ranges and a third that fills the gap between them. -/
theorem run_one_sort_bridged :
    let cs : List Taking := [⟨4, 2, "code"⟩, ⟨0, 2, "code"⟩, ⟨2, 2, "code"⟩]
    (∀ c ∈ cs, 0 < c.size) ∧ (∀ c ∈ cs, c.sort = "code") ∧ (run {} cs).list = [⟨0, 6, "code"⟩] ∧ (run {} cs).taken = 6 ∧
      run {} cs.reverse = run {} cs := by
  intro cs
  have hsize : ∀ c ∈ cs, 0 < c.size := by decide
  have hsort : ∀ c ∈ cs, c.sort = "code" := by decide
  exact ⟨hsize, hsort, rfl, rfl, (run_one_sort cs hsize hsort).2.2.2 _ (List.reverse_perm cs)⟩

end

end Segments

end SymExec
