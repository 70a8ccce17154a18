import SymExec.Proofs.Constraints

/-!
# Stores and loads at plain addresses

Before a store or a load comes to the pages it goes through inspection, the choice of addresses, limits of sizes, conditions and the
order of bytes, and afterwards through the record of actions.
-/

namespace SymExec

open List Nat Word Bits Quantity

variable {n a : Nat} {v : Bits} {u : Unshared} {q : Quantity} {w : World} {c : Chunk} {e : Endness}

lemma Quantity.eq_of_nat? (h : q.nat? = some n) : q = .num n ∨ ∃ w, q = .bits (.lit w n) := by
  cases q with
  | num k => exact .inl (congrArg _ (Option.some.inj h))
  | bits b =>
    cases b with
    | lit w v => exact .inr ⟨w, by rw [← Option.some.inj h]⟩
    | _ => simp [nat?, lit?] at h

lemma Quantity.symbolic_of_nat? (h : q.nat? = some n) : q.symbolic = false := by obtain rfl | ⟨w, rfl⟩ := eq_of_nat? h <;> rfl

namespace Scene

def contents (S : Scene) (m : Memory) : Unshared := m.paged.unshared S.commons

abbrev view (S : Scene) (p : Paged) : Nat → Option Chunk := (p.unshared S.commons).view

/-- A memory in pages on which no protection is enforced. -/
structure Ready (S : Scene) (m : Memory) : Prop where
  memory : S.memory = some m
  fast : m.fast = none
  placed : m.paged.Placed S.commons
  sound : (S.contents m).Sound
  free : ¬ S.Enforced m
  folds : S.solver.Folds
  whole : S.arch.bits % 8 = 0

/-- The scene after work on the pages of a memory, which then shows `V`. -/
def Shows (S : Scene) (m : Memory) (V : View) (T : Scene) : Prop :=
  ∃ p k, T = S.withPages m p k ∧ Paged.Moves m.paged S.commons p k ∧ T.Ready { m with paged := p } ∧ ∀ a, (p.unshared k).view a = V a

lemma Ready.withPages {S : Scene} {m} (h : S.Ready m) {p k} (hm : Paged.Moves m.paged S.commons p k) (hp : p.Placed k)
    (hu : (p.unshared k).Sound) : (S.withPages m p k).Ready { m with paged := p } :=
  ⟨rfl, h.fast, hp, hu, fun ⟨hc, hs⟩ => h.free ⟨hm.checked ▸ hc, hs⟩, h.folds, h.whole⟩

end Scene

/-- The byte at an address of a value of which `n` bytes are stored at `a`. -/
def Endness.byteAt (e : Endness) (v a n x : Nat) : Nat := byte v (if e = .little then x - a else a + n - 1 - x)

/-- A chunk with the low bytes of a term, in the order of an endness. -/
structure Chunk.Holds (c : Chunk) (e : Endness) (v : Bits) (a n : Nat) : Prop where
  base : c.base = a
  length : c.length = n
  sound : 0 < n → c.Sound
  byte : ∀ m x, a ≤ x → x < a + n → c.byte m x = e.byteAt (v.eval m) a n x

/-- The scene after a value was laid over a memory. -/
abbrev Scene.Lays (S : Scene) (m : Memory) (e : Endness) (v : Bits) (a n : Nat) (T : Scene) : Prop :=
  ∃ c : Chunk, c.Holds e v a n ∧ S.Shows m (c.over (S.contents m).view) T

lemma Chunk.Holds.congr {u} (h : c.Holds e u a n)
    (huv : ∀ m i, i < n → Word.byte (u.eval m) i = Word.byte (v.eval m) i) : c.Holds e v a n := by
  refine ⟨h.base, h.length, h.sound, fun m x h1 h2 => (h.byte m x h1 h2).trans (huv m _ ?_)⟩
  split <;> omega

lemma Bits.byte_reverse (hv : v.Valid) (hw : v.width = 8 * n) (m : Model) {i} (hi : i < n) :
    byte (v.reverse.eval m) i = byte (v.eval m) (n - 1 - i) := by
  rw [(reverse_agrees hv (by omega)).eval]
  change byte (reverseBytes (v.width / 8) (v.eval m)) i = _
  rw [show v.width / 8 = n by omega]
  exact byte_reverseBytes _ hi

/-- The number of a list of bytes, the first of which is the least significant if little and the most if big. -/
def Endness.number (e : Endness) (bytes : List Nat) : Nat := ofDigits 256 (if e = .little then bytes else bytes.reverse)

lemma Endness.number_singleton (e : Endness) (b) : e.number [b] = b := by
  rw [number, reverse_singleton, ite_self, ofDigits_singleton]

lemma Bits.Spells.number {f} (h : v.Spells f a n) (e : Endness) :
    (if e = .little then v.reverse else v).Valid ∧ (if e = .little then v.reverse else v).width = 8 * n ∧
      ∀ m, (if e = .little then v.reverse else v).eval m = e.number ((range n).map fun i => f m (a + i)) := by
  by_cases he : e = .little
  · have hr := reverse_agrees h.valid (by rw [h.width]; omega)
    have hwidth : v.reverse.width = 8 * n := hr.width.trans h.width
    simp only [Endness.number, he, if_true]
    refine ⟨hr.valid, hwidth, fun m => ?_⟩
    have hlt : v.reverse.eval m < 2 ^ (8 * n) := hwidth ▸ eval_lt hr.valid m
    refine (ofDigits_byte hlt).symm.trans (congrArg _ (map_congr_left fun i hi => ?_))
    have hi : i < n := mem_range.1 hi
    rw [byte_reverse h.valid h.width m hi, h.byte m i hi]
  · simp only [Endness.number, he, if_false]
    refine ⟨h.valid, h.width, fun m => ?_⟩
    have hlt : v.eval m < 2 ^ (8 * n) := h.width ▸ eval_lt h.valid m
    refine (ofDigits_byte hlt).symm.trans (congrArg _ (ext_getElem (by simp) fun i hi _ => ?_))
    have hi : i < n := by simpa using hi
    simp only [getElem_map, getElem_range, getElem_reverse, length_map, length_range]
    rw [← h.byte m (n - 1 - i) (by omega)]
    congr 1
    omega

lemma Chunk.holds_of_agrees (e) {u} (hu : u.Agrees v) (hn : 0 < n → v.width = 8 * n) (a) :
    (⟨if e = .little then u.reverse else u, a, n⟩ : Chunk).Holds e v a n := by
  have hw : 0 < n → u.width = 8 * n := fun h => hu.width.trans (hn h)
  by_cases he : e = .little
  · rw [if_pos he]
    refine ⟨rfl, rfl, fun h => ?_, fun m x h1 h2 => ?_⟩
    · have hr := reverse_agrees hu.valid (by rw [hw h]; omega)
      exact ⟨hr.valid, hr.width.trans (hw h)⟩
    · change Word.byte (u.reverse.eval m) (a + n - 1 - x) = _
      rw [byte_reverse hu.valid (hw (by omega)) m (by omega), hu.eval, Endness.byteAt, if_pos he]
      congr 1
      omega
  · rw [if_neg he]
    refine ⟨rfl, rfl, fun h => ⟨hu.valid, hw h⟩, fun m x _ _ => ?_⟩
    change Word.byte (u.eval m) (a + n - 1 - x) = _
    rw [hu.eval, Endness.byteAt, if_neg he]

def Unshared.byte (u : Unshared) (m : Model) (a : Nat) : Nat := ((u.view a).map (·.byte m a)).getD 0

lemma Unshared.Sound.spells (hu : u.Sound) (hn : 0 < n)
    (h : ∀ x, a ≤ x → x < a + n → u.view x = some c) : (c.bytesAt a n).Spells u.byte a n := by
  have hfirst := h a le_rfl (by omega)
  obtain ⟨hbase, -⟩ := Chunk.covers_iff.1 (hu.covers hfirst)
  obtain ⟨-, hstop⟩ := Chunk.covers_iff.1 (hu.covers (h (a + n - 1) (by omega) (by omega)))
  refine (Chunk.bytesAt_spells (hu.chunk a c hfirst) hn hbase (by omega)).congr fun m x h1 h2 => ?_
  rw [byte, h x h1 h2]
  rfl

namespace Exec

section
variable {r : Region} {S : Scene} {addr size : Quantity} {a n : Nat} {m : Memory} {data value : Bits} {o : StoreOptions}

/-! ### Inspection and actions -/

lemma inspected_gives {α : Type} {x} {v : α} {event moment attrs}
    {inspected : Bool} (hn : (attrs.map (·.1)).Nodup) (hx : ∀ w, (∀ k v, (k, v) ∈ attrs → Shown w k v) → x w = .ok v w) :
    Gives r S (if inspected then do
      inspect event moment attrs
      x else pure v) v := by
  refine Does.ite (fun _ => ?_) fun _ => Gives.pure _
  rintro w hw rfl
  obtain ⟨w', hw', hq, hs, hset⟩ := inspect_run event moment attrs hn hw
  exact ⟨_, w', (bind_of_ok hw').trans (hx w' hset), hq, rfl, hs⟩

section
variable (cat : Category) (inspected : Bool)
include cat inspected

lemma beginLoad_gives (addr size) : Gives r S (beginLoad cat inspected addr size) (addr, size) := by
  refine inspected_gives (by cases cat <;> simp [accessName]) fun w hset => ?_
  rw [bind_of_ok (attributeQ_run (hset _ _ (by simp))), bind_of_ok (attributeQ_run (hset _ _ (by simp)))]
  rfl

lemma endLoad_gives : Gives r S (endLoad cat inspected value) value :=
  inspected_gives (by simp) fun _ hset => attributeBits_run (hset _ _ (by simp))

lemma beginStore_gives : Gives r S (beginStore cat inspected addr size data) (addr, size, data) := by
  refine inspected_gives (by cases cat <;> simp [accessName]) fun w hset => ?_
  rw [bind_of_ok (attributeQ_run (hset _ _ (by simp))), bind_of_ok (attributeQ_run (hset _ _ (by simp))),
    bind_of_ok (attributeBits_run (hset _ _ (by simp)))]
  rfl

end

lemma keepsConstraints_keeps {given} : Keeps r S (keepsConstraints given) := by
  refine attr_keeps.bind fun v => ?_
  cases v <;> exact .pure rfl

section
variable (h : addr.nat? = some a)
include h

lemma actionOffset_keeps {r'} : Keeps r S (actionOffset r' addr) := by
  refine .ite (fun _ => .pure rfl) fun _ => ?_
  obtain rfl | ⟨w, rfl⟩ := eq_of_nat? h <;> exact .pure rfl

lemma recordAs_keeps {fill} : Keeps r S (recordAs r m addr fill) := by
  refine state_does.bind fun _ T ⟨hT, _⟩ => ?_
  subst hT
  exact (actionOffset_keeps h).bind fun _ => act_keeps

lemma recordLoad_keeps {o addrs} : Keeps r S (recordLoad r m o addr size addrs value) := by
  refine has_gives.bind (.ite (fun _ => ?_) fun _ => .pure rfl)
  exact has_gives.bind (recordAs_keeps h)

lemma recordStore_keeps {res} : Keeps r S (recordStore r m o addr data res) := by
  exact has_gives.bind (.ite (fun _ => recordAs_keeps h) fun _ => .pure rfl)

/-! ### Plain addresses and sizes -/

lemma concretize_gives {r' write f} : Gives r S (tryCatch (some <$> concretize r' addr write) f) (some [a]) := by
  obtain rfl | ⟨w, rfl⟩ := eq_of_nat? h <;> exact .pure _

end

lemma sizeRange_gives (h : size.nat? = some n) (hn : n ≤ maximumConcreteSize) : Gives r S (sizeRange size) (n, n) := by
  rw [sizeRange, h]
  exact Does.ite (fun hgt => absurd hn (not_le.2 hgt)) fun _ => Gives.pure _

variable {cat : Category}

/-! ### Stores -/

lemma putPiece_does (hS : S.Ready m) {simplifying tracking : Bool} (hv : v.Valid)
    (hw : v.width % 8 = 0) (hn : 0 < n → v.width = 8 * n) :
    Does r S (putPiece r cat (decide (e = .little)) simplifying tracking ⟨v, a, n⟩) fun _ => S.Lays m e v a n := by
  have simpler : Does r S (if simplifying then simplify v else pure v) fun u T => T = S ∧ u.Agrees v :=
    Does.ite (fun _ => simplify_does hS.folds hv) fun _ => .pure ⟨rfl, .refl hv⟩
  refine simpler.ite_bind fun u T ⟨hT, hu⟩ => ?_
  subst hT
  have hw' : ¬ ((decide (e = .little) && decide (u.width % 8 ≠ 0)) = true) := by simp [hu.width, hw]
  refine .ite (fun h => absurd h hw') fun _ => ?_
  refine (strict_gives hS.memory hS.free).bind ?_
  have put : Does r T (onPages r (Paged.store false tracking true ⟨if decide (e = .little) then u.reverse else u, a, n⟩) >>=
      fun _ => pure (if decide (e = .little) then u.reverse else u)) fun _ => T.Lays m e v a n := by
    have hc := Chunk.holds_of_agrees e hu hn a
    simp only [decide_eq_true_eq]
    obtain ⟨u', hu', -, hsound, -, hview⟩ := Unshared.store_view
      (c := ⟨if e = .little then u.reverse else u, a, n⟩) hS.sound tracking hc.sound
    refine (onPages_does hS.memory hS.placed (Paged.store_refines false tracking true _) hu').bind ?_
    rintro _ T' ⟨-, p, k, rfl, rfl, hp, hm⟩
    exact .pure ⟨_, hc, p, k, rfl, hm, hS.withPages hm hp hsound, hview⟩
  exact Keeps.when_bind (fun _ => modifyScratch_keeps) put

lemma storeConcrete_gives (little a) (hd : data.Valid) (hw : data.width % 8 = 0) (hn : n ≤ data.width / 8) :
    ∃ v, Gives r S (storeConcrete r little a n data none) [⟨v, a, n⟩] ∧ v.Valid ∧ v.width % 8 = 0 ∧
      (0 < n → v.width = 8 * n) ∧ ∀ m i, i < n → byte (v.eval m) i = byte (data.eval m) i := by
  refine ⟨if 0 < n ∧ n < data.width / 8 then data.slice (8 * n - 1) 0 else data, .pure _, ?_⟩
  split
  · have hr := slice_agrees (8 * n - 1) 0 hd (by omega) (by omega)
    have hwidth : (data.slice (8 * n - 1) 0).width = 8 * n := by
      refine hr.width.trans ?_
      change 8 * n - 1 + 1 - 0 = 8 * n
      omega
    refine ⟨hr.valid, by omega, fun _ => hwidth, fun m i hi => ?_⟩
    rw [hr.eval]
    refine (byte_slice _ 0 rfl (by omega)).trans ?_
    rw [zero_add]
  · exact ⟨hd, hw, fun h => by omega, fun _ _ _ => rfl⟩

lemma boundSize_run {k} (h : size.nat? = some n) (hn : n ≤ k) (w) : boundSize size k w = .ok () w := by
  have hle : ¬ n > k := not_lt.2 hn
  obtain rfl | ⟨v, rfl⟩ := eq_of_nat? h
  all_goals
    change (if n > k then _ else _ : Exec Unit) w = _
    rw [if_neg hle]
    rfl

lemma storeRaw_run (hm : w.state.memory? r = some m) (hfast : m.fast = none) (ha : addr.nat? = some a)
    (hsize : size.nat? = some n) (hn : n ≤ data.width / 8) (cond endness) :
    storeRaw r addr data size cond endness w =
      storeAt r m.category (decide (endness.getD m.endness = .little)) addr [a] size data cond w := by
  rw [storeRaw, bind_of_ok (memoryAt_run hm), hfast, symbolic_of_nat? ha, symbolic_of_nat? hsize]
  change (boundSize size (data.width / 8) >>= _) w = _
  rw [bind_of_ok (boundSize_run hsize hn w)]
  obtain rfl | ⟨v, rfl⟩ := eq_of_nat? ha <;> rfl

section
variable (hS : S.Ready m) (ha : addr.nat? = some a) (hsize : size.nat? = some n) (hd : data.Valid) (hw : data.width % 8 = 0)
  (hn : n ≤ data.width / 8)
include hS ha hsize hd hw hn

/-- **A store at one number** lays the low bytes of the data over the memory. -/
theorem storeAt_does :
    Does r S (storeAt r cat (decide (e = .little)) addr [a] size data none) fun res T => res.conditions = [] ∧ S.Lays m e data a n T := by
  obtain ⟨v, hv, hvalid, hwidth, hlen, hbyte⟩ := storeConcrete_gives (r := r) (S := S) (decide (e = .little)) a hd hw hn
  have pieces : Gives r S (storePieces r (decide (e = .little)) addr [a] size data none) [⟨v, a, n⟩] := by
    obtain rfl | ⟨w, rfl⟩ := eq_of_nat? hsize <;> exact hv
  refine pieces.bind (has_gives.bind (has_gives.bind (has_gives.bind ?_)))
  refine .bind (P := fun _ => S.Lays m e v a n) ?_ ?_
  · exact (putPiece_does hS hvalid hwidth hlen).bind fun _ T hT => .pure hT
  · rintro _ T ⟨c, hc, hT⟩
    refine .pure ⟨?_, c, hc.congr hbyte, hT⟩
    rw [symbolic_of_nat? ha]
    rfl

lemma storeRaw_does (endness : Option Endness) :
    Does r S (storeRaw r addr data size none endness) fun res T => res.conditions = [] ∧
      S.Lays m (endness.getD m.endness) data a n T := by
  rintro w hw' rfl
  rw [storeRaw_run hS.memory hS.fast ha hsize hn]
  exact storeAt_does hS ha hsize hd hw hn w hw' rfl

end

lemma storeData_spec (cat) {bits : Nat} (hbits : bits % 8 = 0) (size) (hd : data.Valid) (hw : data.width % 8 = 0) :
    let d := storeData cat bits size data
    d.Valid ∧ d.width % 8 = 0 ∧ ∀ m, d.eval m = data.eval m := by
  have filled : ∀ want, want % 8 = 0 →
      let d := if data.width < want then data.zext (want - data.width) else data
      d.Valid ∧ d.width % 8 = 0 ∧ ∀ m, d.eval m = data.eval m := by
    intro want hwant
    split
    · have hz := zext_agrees (n := want - data.width) hd
      refine ⟨hz.valid, ?_, hz.eval⟩
      rw [hz.width]
      change (data.width + (want - data.width)) % 8 = 0
      omega
    · exact ⟨hd, hw, fun _ => rfl⟩
  unfold storeData
  split
  · split
    · exact filled _ (by omega)
    · exact filled _ hbits
  · exact ⟨hd, hw, fun _ => rfl⟩

lemma store_of_storeRaw (hm : S.memory = some m) (ha : addr.nat? = some a) (o)
    (hcond : (o.condition.map (·.isFalse)).getD false = false) {Q : Scene → Prop}
    (h : Does r S (storeRaw r addr (storeData m.category S.arch.bits o.size data)
      (storeSize S.arch.bits o.size (storeData m.category S.arch.bits o.size data)) o.condition o.endness) fun _ T => Q T)
    : Does r S (store r addr data o) fun _ T => Q T := by
  have plain : Does r S (storePlain r addr data o) fun _ T => Q T := by
    refine (memoryAt_gives hm).bind (arch_gives.bind ((beginStore_gives _ _).bind ?_))
    refine .ite (by simp [hcond]) fun _ => h.bind fun res T hT => ?_
    refine Keeps.when_bind (fun _ => inspect_keeps _ _ _ nodup_nil) (keepsConstraints_keeps.bind fun b => ?_)
    refine Keeps.when_bind (fun _ => addConstraints_keeps _) ((recordStore_keeps ha).bind fun _ => ?_)
    exact .pure hT
  have rest : Does r S (do
      let res ← storePlain r addr data o
      if o.priv.isSome then modifyScratch fun s => { s with priv := s.priv.tail }
      return res) fun _ T => Q T :=
    plain.bind fun _ _ hT => Keeps.when_bind (fun _ => modifyScratch_keeps) (Does.pure hT)
  rw [store]
  split
  · exact modifyScratch_keeps.bind fun _ => rest
  · exact rest

/-- **A store at a plain address** lays the low bytes of the data over the memory. -/
theorem store_does (hS : S.Ready m) (ha : addr.nat? = some a) (hd : data.Valid) (hw : data.width % 8 = 0)
    (hcond : o.condition = none)
    (hsize : (storeSize S.arch.bits o.size (storeData m.category S.arch.bits o.size data)).nat? = some n)
    (hn : n ≤ (storeData m.category S.arch.bits o.size data).width / 8) :
    Does r S (store r addr data o) fun _ => S.Lays m (o.endness.getD m.endness) data a n := by
  obtain ⟨hd', hw', heval⟩ := storeData_spec m.category hS.whole o.size hd hw
  refine store_of_storeRaw hS.memory ha o (by rw [hcond]; rfl) ?_
  rw [hcond]
  refine (storeRaw_does hS ha hsize hd' hw' hn o.endness).mono ?_
  rintro res T ⟨-, c, hc, hT⟩
  exact ⟨c, hc.congr fun m _ _ => by rw [heval], hT⟩

/-! ### Loads -/

lemma gather_go_gives (hu : u.Sound) (inspected events) {addr stop e}
    (items : List (Nat × Chunk)) (hr : Runs u.view stop addr items.reverse) {segments}
    (hs : Tiles u.byte e stop segments) :
    ∃ segments', Gives r S (gather.go r inspected events stop segments items) (addr, segments') ∧ Tiles u.byte e addr segments' := by
  induction items generalizing stop segments with
  | nil =>
    cases hr
    exact ⟨segments, .pure _, hs⟩
  | cons p items ih =>
    obtain ⟨a, c⟩ := p
    rw [reverse_cons] at hr
    obtain ⟨hr, hlt, hc⟩ := hr.of_concat
    have hcov : c.covers (stop - 1) = true := hu.covers (hc (stop - 1) (le_sub_one_of_lt hlt) (sub_one_lt_of_lt hlt))
    have hpart : (c.bytesAt a (stop - a)).Spells u.byte a (stop - a) := hu.spells (Nat.sub_pos_of_lt hlt) fun x h1 h2 => hc x h1 (by omega)
    have hrest : Tiles u.byte e (a + (stop - a)) segments := by rwa [Nat.add_sub_cancel' hlt.le]
    obtain ⟨segments', hgo, hs'⟩ := ih hr (.cons hpart hrest)
    refine ⟨segments', ?_, hs'⟩
    rw [gather.go, if_pos hcov]
    exact hgo

lemma readFrom_does (hS : S.Ready m) {addr : Nat} (h : ∀ x, addr ≤ x → x < addr + n → ((S.contents m).view x).isSome)
    {inspected events cut} : Does r S (readFrom r addr n inspected events cut) fun v T =>
      v.Spells (S.contents m).byte addr n ∧ S.Shows m (S.contents m).view T := by
  obtain ⟨found, u, hu, hreads, hruns⟩ := Unshared.chunks_runs hS.sound cut h
  refine (strict_gives hS.memory hS.free).bind ?_
  refine (onPages_does hS.memory hS.placed (Paged.chunks_refines false cut addr n) hu).bind ?_
  rintro items T ⟨rfl, p, k, rfl, rfl, hp, hm⟩
  have shown : S.Shows m (S.contents m).view (S.withPages m p k) := ⟨p, k, rfl, hm, hS.withPages hm hp (hreads.sound hS.sound), hreads.view⟩
  have parts : Does r (S.withPages m p k) (gather r addr n inspected events items) fun v T =>
      v.Spells (S.contents m).byte addr n ∧ S.Shows m (S.contents m).view T := by
    obtain ⟨segments, hgo, htiles⟩ := gather_go_gives hS.sound inspected events items.reverse (by rwa [reverse_reverse]) .nil
    refine hgo.bind (Does.ite (fun h => absurd rfl h) fun _ => (Gives.pure _).bind (Does.pure ⟨?_, shown⟩))
    have whole := concatList_spells htiles
    rwa [Nat.add_sub_cancel_left] at whole
  rcases items with _ | ⟨⟨a, c⟩, _ | ⟨q, items⟩⟩
  · exact parts
  · -- a single chunk that shows over the whole range is cut at once
    obtain ⟨hnil, hlt, hc⟩ := Runs.of_concat (l := []) hruns
    cases hnil
    have hn : 0 < n := by simpa using hlt
    exact .ite (fun _ => .pure ⟨hS.sound.spells hn hc, shown⟩) fun _ => parts
  · exact parts

section
variable (hS : S.Ready m) (ha : addr.nat? = some a) (o : LoadOptions) (hsize : (o.size.getD (.num S.arch.bytes)).nat? = some n)
  (hn : n ≤ maximumConcreteSize) (hcond : o.condition = none) (h : ∀ x, a ≤ x → x < a + n → ((S.contents m).view x).isSome)
include hS ha hsize hn hcond h

lemma loadRaw_does : Does r S (loadRaw r addr (o.size.getD (.num S.arch.bytes)) o) fun x T =>
    x.2.1.Spells (S.contents m).byte a n ∧ x.2.2 = [] ∧ S.Shows m (S.contents m).view T := by
  have haddr : addr.symbolic = false := symbolic_of_nat? ha
  have hsym := symbolic_of_nat? hsize
  have hplain : (addr.eqNat a).symbolic = false := by obtain rfl | ⟨w, rfl⟩ := eq_of_nat? ha <;> rfl
  refine (memoryAt_gives hS.memory).bind ?_
  rw [hS.fast]
  refine (sizeRange_gives hsize hn).bind ?_
  rw [hsym, haddr]
  refine Keeps.when_bind (by simp) (Keeps.when_bind (fun _ => note_keeps) ?_)
  refine has_gives.bind (Does.ite (by simp) fun _ => (concretize_gives ha).bind ?_)
  refine (readFrom_does hS h).bind ?_
  rintro v T ⟨hv, hT⟩
  rw [hcond]
  refine .pure ⟨hv, ?_, hT⟩
  change (if (addr.eqNat a).symbolic = true then [addr.eqNat a] else []) = []
  rw [hplain]
  rfl

/-- **A load from a plain address** gives the number of the bytes that are there. -/
theorem load_does : Does r S (load r addr o) fun v T => (v.Valid ∧ v.width = 8 * n ∧ ∀ μ, v.eval μ =
      (o.endness.getD m.endness).number ((range n).map fun i => (S.contents m).byte μ (a + i))) ∧
      S.Shows m (S.contents m).view T := by
  refine (memoryAt_gives hS.memory).bind (arch_gives.bind ((beginLoad_gives _ _ _ _).bind ?_))
  refine (loadRaw_does hS ha o hsize hn hcond h).bind ?_
  rintro ⟨addrs, v, conds⟩ T ⟨hv, rfl, hT⟩
  obtain ⟨p, k, rfl, hm, hready, hview⟩ := hT
  refine keepsConstraints_keeps.bind fun b => .ite (by simp) fun _ => ?_
  refine has_gives.bind (has_gives.bind ?_)
  refine .ite_bind (P := fun u T => T = S.withPages m p k ∧ u.Spells (S.contents m).byte a n)
    (.ite (fun _ => (simplify_does hready.folds hv.valid).mono fun u T ⟨hT, hu⟩ => ⟨hT, hv.of_agrees hu⟩)
      fun _ => .pure ⟨rfl, hv⟩) ?_
  rintro u T ⟨rfl, hu⟩
  refine (endLoad_gives _ _).bind ((recordLoad_keeps ha).bind fun _ => .pure ⟨?_, p, k, rfl, hm, hready, hview⟩)
  exact hu.number _

end

/-- **A load of more bytes than the limit** is a fault. -/
theorem load_over_limit (hw : w.Quiet) (hm : w.state.memory? r = some m) (hfast : m.fast = none) (addr)
    (o) (hsize : (o.size.getD (.num w.state.arch.bytes)).nat? = some n) (hn : maximumConcreteSize < n) :
    ∃ w', load r addr o w = .error (.because .memoryLimit s!"Concrete size {n} outside of allowable limits") w' := by
  obtain ⟨_, w', hw', -, rfl, hs⟩ := beginLoad_gives m.category o.inspected addr (o.size.getD (.num w.state.arch.bytes)) w hw rfl
  have hm' : w'.state.memory? r = some m := (congrArg Scene.memory hs).trans hm
  have hrange : sizeRange (o.size.getD (.num w.state.arch.bytes)) w' =
      .error (.because .memoryLimit s!"Concrete size {n} outside of allowable limits") w' := by
    rw [sizeRange, hsize]
    change (if n > maximumConcreteSize then _ else _ : Exec _) w' = _
    rw [if_pos hn]
    rfl
  refine ⟨w', ?_⟩
  rw [load, bind_of_ok (memoryAt_run hm)]
  change (beginLoad m.category o.inspected addr (o.size.getD (.num w.state.arch.bytes)) >>= _) w = _
  rw [bind_of_ok hw']
  refine bind_of_error ?_
  rw [loadRaw, bind_of_ok (memoryAt_run hm'), hfast]
  exact bind_of_error hrange

end

end Exec

end SymExec
