import SymExec.Proofs.Arith
import SymExec.Proofs.Flat

/-!
# Stores in pieces

A store whose size or address has symbols, or that has a condition, reads what is in its range, makes up the pieces that are to be
there, and puts them in their places.
-/

namespace SymExec

open List Word Bits

namespace Flat

/-- The byte of a map at an address in a model, if there is one. -/
def at? (f : Flat) (μ : Model) (x : Nat) : Option Nat := (f x).map (· μ)

/-- The byte of a map at an address, zero where there is none. -/
def byte (f : Flat) (μ : Model) (x : Nat) : Nat := (f.at? μ x).getD 0

lemma at?_lay (f : Flat) (e v a n) (μ : Model) (x) :
    (f.lay e v a n).at? μ x = if a ≤ x ∧ x < a + n then some (e.byteAt (v.eval μ) a n x) else f.at? μ x := by
  rw [at?, lay]
  split <;> rfl

lemma at?_eq_byte {f : Flat} {x} (h : (f x).isSome) (μ : Model) : f.at? μ x = some (f.byte μ x) := by
  obtain ⟨b, hb⟩ := Option.isSome_iff_exists.1 h
  rw [byte, at?, hb]
  rfl

end Flat

namespace Exec

def Piece.lay (e : Endness) (f : Flat) (p : Piece) : Flat := f.lay e p.value p.addr p.size

structure Piece.Whole (p : Piece) : Prop where
  valid : p.value.Valid
  width : p.value.width = 8 * p.size

section
variable {r : Region} {S T : Scene} {m : Memory} {f : Flat}

/-! ### Work on the flat map -/

lemma ready_has (hS : S.Ready m) : S.Has m (S.contents m).flat S :=
  ⟨m.paged, S.commons, by rw [Scene.withPages, ← hS.memory], hS, rfl⟩

lemma readFrom_has (h : S.Has m f T) {a n : Nat} (hf : ∀ x, a ≤ x → x < a + n → (f x).isSome) {inspected events cut} :
    Does r T (readFrom r a n inspected events cut) fun v T' => v.Spells f.byte a n ∧ S.Has m f T' := by
  obtain ⟨p, k, rfl, hready, rfl⟩ := h
  refine (readFrom_does hready (fun x h1 h2 => ?_)).mono ?_
  · rw [← Unshared.isSome_flat]
    exact hf x h1 h2
  · rintro v T' ⟨hv, p', k', rfl, -, hready', hview⟩
    refine ⟨hv.congr fun μ x _ _ => Unshared.byte_eq_flat _ μ x, p', k', rfl, hready', Unshared.flat_eq_of_view hview⟩

section
variable (h : S.Has m f T) {cat : Category} {e : Endness} {simplifying tracking : Bool}
include h

lemma putPiece_has {p} (hp : p.Whole) :
    Does r T (putPiece r cat (decide (e = .little)) simplifying tracking p) fun _ T' => S.Has m (p.lay e f) T' := by
  obtain ⟨q, k, rfl, hready, rfl⟩ := h
  refine (putPiece_does hready hp.valid (by rw [hp.width]; omega) (fun _ => hp.width)).mono ?_
  rintro _ T' ⟨c, hc, q', k', rfl, -, hready', hview⟩
  exact ⟨q', k', rfl, hready', Unshared.flat_of_over hc hview⟩

lemma putPieces_has {ps : List Piece}
    (hps : ∀ p ∈ ps, p.Whole) : Does r T (ps.mapM (putPiece r cat (decide (e = .little)) simplifying tracking)) fun _ T' =>
      S.Has m (ps.foldl (Piece.lay e) f) T' := by
  induction ps generalizing f T with
  | nil => exact .pure h
  | cons p ps ih =>
    rw [mapM_cons]
    refine (putPiece_has h (hps p (by simp))).bind fun _ T' hT' => ?_
    exact (ih hT' fun q hq => hps q (.tail _ hq)).bind fun _ T'' hT'' => .pure hT''

end

lemma storeAt_has {cat : Category} {e addr size addrs data cond}
    {G : List Piece → Prop} (h : Does r S (storePieces r (decide (e = .little)) addr addrs size data cond) fun ps T =>
      (∀ p ∈ ps, p.Whole) ∧ G ps ∧ S.Has m f T) :
    Does r S (storeAt r cat (decide (e = .little)) addr addrs size data cond) fun _ T =>
      ∃ ps, G ps ∧ S.Has m (ps.foldl (Piece.lay e) f) T := by
  refine h.bind fun ps T ⟨hps, hG, hT⟩ => ?_
  refine has_gives.bind (has_gives.bind (has_gives.bind ?_))
  exact (putPieces_has hT hps).bind fun _ T' hT' => .pure ⟨ps, hG, hT'⟩

end

end Exec

/-! ### Bytes of vectors -/

namespace Bits

variable {t u : Bits} {f g : Model → Nat → Nat} {a n : Nat}

lemma Spells.ite (c : Cond) (ht : t.Spells f a n) (hu : u.Spells g a n) :
    (mkIte c t u).Spells (fun μ x => if c.eval μ then f μ x else g μ x) a n := by
  have h := mkIte_agrees (c := c) ht.valid hu.valid (ht.width.trans hu.width.symm)
  refine ⟨h.valid, h.width.trans ht.width, fun μ i hi => ?_⟩
  rw [h.eval, eval]
  cases c.eval μ
  · exact hu.byte μ i hi
  · exact ht.byte μ i hi

lemma slice_spells (ht : t.Valid) (hw : t.width = 8 * n) {i} (hi : i < n) :
    (t.slice (8 * (n - i) - 1) (8 * (n - 1 - i))).Spells (fun μ x => byte (t.eval μ) (n - 1 - x)) i 1 := by
  have h := slice_agrees (8 * (n - i) - 1) (8 * (n - 1 - i)) ht (by omega) (by omega)
  refine ⟨h.valid, h.width.trans ?_, fun μ j hj => ?_⟩
  · change 8 * (n - i) - 1 + 1 - 8 * (n - 1 - i) = 8 * 1
    omega
  · obtain rfl : j = 0 := by omega
    rw [h.eval]
    exact (byte_slice _ (n - 1 - i) rfl (by omega)).trans (by rw [Nat.add_zero, Nat.add_zero])

lemma tiles_range' {g} (k : Nat) (h : ∀ i, a ≤ i → i < a + k → (g i).Spells f i 1) : Tiles f (a + k) a ((range' a k).map g) := by
  induction k generalizing a with
  | zero => exact .nil
  | succ k ih =>
    have hrest := ih (a := a + 1) fun i h1 h2 => h i (by omega) (by omega)
    rw [show a + 1 + k = a + (k + 1) by omega] at hrest
    exact .cons (h a le_rfl (by omega)) hrest

lemma chop_eq (hw : t.width = 8 * n) : t.chop 8 = (range n).map fun i => t.slice (8 * (n - i) - 1) (8 * (n - 1 - i)) := by
  rw [chop, hw, Nat.mul_div_cancel_left n (by decide)]

lemma choose_spells (c : Nat → Cond) (ht : t.Valid) (htw : t.width = 8 * n) (hu : u.Valid) (huw : u.width = 8 * n) :
    (concatList (((t.chop 8).zip (u.chop 8)).mapIdx fun i (a, b) => mkIte (c i) a b)).Spells (fun μ x =>
      if (c x).eval μ then byte (t.eval μ) (n - 1 - x) else byte (u.eval μ) (n - 1 - x)) 0 n := by
  have hlist : ((t.chop 8).zip (u.chop 8)).mapIdx (fun i (a, b) => mkIte (c i) a b) =
      (range' 0 n).map fun i => mkIte (c i) (t.slice (8 * (n - i) - 1) (8 * (n - 1 - i)))
        (u.slice (8 * (n - i) - 1) (8 * (n - 1 - i))) := by
    rw [chop_eq htw, chop_eq huw]
    refine ext_getElem (by simp) fun i h1 h2 => ?_
    simp
  rw [hlist]
  have htiles := concatList_spells (tiles_range' (a := 0) n fun i _ hi =>
    ((slice_spells ht htw (by omega)).ite (c i) (slice_spells hu huw (by omega))).congr (g := fun μ x =>
      if (c x).eval μ then byte (t.eval μ) (n - 1 - x) else byte (u.eval μ) (n - 1 - x)) fun μ x h1 h2 => by
        obtain rfl : x = i := by omega
        rfl)
  rwa [Nat.zero_add] at htiles

end Bits

/-! ### Sizes with symbols -/

/-- The number of bytes of a range that are more significant than the one at an address. -/
def Endness.rank (e : Endness) (a n x : Nat) : Nat := if e = .little then a + n - 1 - x else x - a

lemma Endness.byteAt_eq_rank (e : Endness) (v) {a n x} (h1 : a ≤ x) (h2 : x < a + n) :
    e.byteAt v a n x = byte v (n - 1 - e.rank a n x) := by
  rw [byteAt, rank]
  congr 1
  split <;> omega

lemma Bits.Spells.ordered {v : Bits} {f a n} (h : v.Spells f a n) (e : Endness) :
    (if decide (e = .little) then v.reverse else v).Valid ∧ (if decide (e = .little) then v.reverse else v).width = 8 * n ∧
      ∀ μ x, a ≤ x → x < a + n → e.byteAt ((if decide (e = .little) then v.reverse else v).eval μ) a n x = f μ x := by
  simp only [decide_eq_true_eq]
  by_cases he : e = .little
  · have hr := reverse_agrees h.valid (by rw [h.width]; omega)
    rw [if_pos he]
    refine ⟨hr.valid, hr.width.trans h.width, fun μ x h1 h2 => ?_⟩
    rw [Endness.byteAt, if_pos he, byte_reverse h.valid h.width μ (by omega), h.byte μ (x - a) (by omega)]
    congr 1
    omega
  · rw [if_neg he]
    refine ⟨h.valid, h.width, fun μ x h1 h2 => ?_⟩
    rw [Endness.byteAt, if_neg he, show a + n - 1 - x = n - 1 - (x - a) by omega, h.byte μ (x - a) (by omega)]
    congr 1
    omega

namespace Exec

section
variable {r : Region} {S T : Scene} {m : Memory} {f : Flat} {size : Bits} {data : Bits}

lemma eval_ugt_ofNat (hs : size.Valid) {i} (hi : i < 2 ^ size.width) (μ : Model) :
    (Cond.ugt size (ofNat size.width i)).eval μ = decide (i < size.eval μ) := by
  refine (Cond.eval_mkCmp .ult (valid_ofNat _ _) hs μ).trans ?_
  rw [ofNat, eval_lit (trunc_lt _ _), trunc_of_lt hi]
  rfl

/-- The piece of a store whose size has symbols: of the data it has as many bytes as the size, the most significant ones. -/
lemma storeSymbolicSize_does (h : S.Has m f T) {e : Endness} {a n} (hs : size.Valid)
    (hsn : n ≤ 2 ^ size.width) (hd : data.Valid) (hw : data.width = 8 * n) (hf : ∀ x, a ≤ x → x < a + n → (f x).isSome) :
    Does r T (storeSymbolicSize r (decide (e = .little)) a size data none) fun ps T' => S.Has m f T' ∧
      ∃ v, ps = [⟨v, a, n⟩] ∧ v.Valid ∧ v.width = 8 * n ∧ ∀ μ x, a ≤ x → x < a + n → e.byteAt (v.eval μ) a n x =
        if e.rank a n x < size.eval μ then e.byteAt (data.eval μ) a n x else f.byte μ x := by
  have hn : data.width / 8 = n := by omega
  unfold storeSymbolicSize
  rw [hn]
  refine (readFrom_has h hf).bind fun old T' ⟨hold, hT'⟩ => .pure ⟨hT', ?_⟩
  obtain ⟨hv, hvw, hbyte⟩ := hold.ordered e
  have hst := choose_spells (fun i => .ugt size (ofNat size.width i)) hd hw hv hvw
  rw [Option.map_none, Option.getD_none]
  refine ⟨_, rfl, hst.valid, hst.width, fun μ x h1 h2 => ?_⟩
  have hrank : e.rank a n x < n := by
    rw [Endness.rank]
    split <;> omega
  rw [Endness.byteAt_eq_rank e _ h1 h2, Endness.byteAt_eq_rank e _ h1 h2, ← hbyte μ x h1 h2,
    Endness.byteAt_eq_rank e _ h1 h2, hst.byte μ _ hrank, Nat.zero_add, eval_ugt_ofNat hs (by omega)]
  simp only [decide_eq_true_eq]

lemma nat?_of_symbolic {b} (h : b.symbolic = true) : (Quantity.bits b).nat? = none := by
  cases b with
  | lit w v => simp [symbolic] at h
  | _ => rfl

lemma boundSize_keeps (hsym : size.symbolic = true) {n : Nat} : Keeps r S (boundSize (.bits size) n) := by
  unfold boundSize
  rw [nat?_of_symbolic hsym]
  change Keeps r S (if size.symbolic then addConstraints [Cond.ule size (ofNat size.width n)] else pure ())
  rw [if_pos hsym]
  exact addConstraints_keeps _

/-- **A store whose size has symbols**, at a plain address, changes the byte at an address if there are not as many more
significant ones as the size says. -/
theorem storeRaw_sized_does (hS : S.Ready m) {addr : Quantity} {a n} (ha : addr.nat? = some a)
    (hs : size.Valid) (hsym : size.symbolic = true) (hsn : n ≤ 2 ^ size.width) (hd : data.Valid) (hw : data.width = 8 * n)
    (hf : ∀ x, a ≤ x → x < a + n → ((S.contents m).flat x).isSome) (hmulti : S.settings.has .avoidMultivaluedWrites = false)
    (hsizes : S.settings.has .concretizeSymbolicWriteSizes = false) (endness : Option Endness) :
    Does r S (storeRaw r addr data (.bits size) none endness) fun _ T => ∃ g, S.Has m g T ∧ ∀ μ x, g.at? μ x =
      if (a ≤ x ∧ x < a + n) ∧ (endness.getD m.endness).rank a n x < size.eval μ then
        some ((endness.getD m.endness).byteAt (data.eval μ) a n x) else (S.contents m).flat.at? μ x := by
  refine (memoryAt_gives hS.memory).bind ?_
  rw [hS.fast]
  refine has_gives.bind ?_
  rw [hmulti, Bool.and_false]
  refine has_gives.bind ?_
  rw [hsizes, Bool.and_false]
  refine (Gives.pure _).bind (has_gives.bind ?_)
  rw [hmulti, Bool.and_false]
  refine (boundSize_keeps hsym).bind fun _ => (concretize_gives ha).bind ?_
  have pieces : Does r S (storePieces r (decide (endness.getD m.endness = .little)) addr [a] (.bits size) data none)
      fun ps T => (∀ p ∈ ps, p.Whole) ∧ (∃ v, ps = [⟨v, a, n⟩] ∧ ∀ μ x, a ≤ x → x < a + n →
        (endness.getD m.endness).byteAt (v.eval μ) a n x =
          if (endness.getD m.endness).rank a n x < size.eval μ then (endness.getD m.endness).byteAt (data.eval μ) a n x
          else (S.contents m).flat.byte μ x) ∧ S.Has m (S.contents m).flat T := by
    unfold storePieces
    rw [nat?_of_symbolic hsym, Quantity.symbolic_of_nat? ha]
    refine (storeSymbolicSize_does (ready_has hS) hs hsn hd hw hf).mono ?_
    rintro _ T ⟨hT, v, rfl, hv, hvw, hbyte⟩
    refine ⟨fun p hp => ?_, ⟨v, rfl, hbyte⟩, hT⟩
    obtain rfl := mem_singleton.1 hp
    exact ⟨hv, hvw⟩
  refine (storeAt_has pieces).mono ?_
  rintro _ T ⟨_, ⟨v, rfl, hbyte⟩, hT⟩
  refine ⟨_, hT, fun μ x => ?_⟩
  rw [foldl_cons, foldl_nil, Piece.lay, Flat.at?_lay]
  by_cases hx : a ≤ x ∧ x < a + n
  · rw [if_pos hx, hbyte μ x hx.1 hx.2, Flat.at?_eq_byte (hf x hx.1 hx.2)]
    simp only [hx, and_self, true_and]
    split <;> rfl
  · rw [if_neg hx, if_neg fun h => hx h.1]

end

end Exec

namespace Put

/-- The data as it is stored, filled up where it is too short for a register. -/
def filled (p : Put) (cat : Category) (bits : Nat) : Bits := Exec.storeData cat bits p.options.size p.data

/-- A store of whole bytes at a plain address, with a size that has symbols and without a condition. -/
structure Sized (p : Put) (s : Bits) : Prop where
  addr : p.addr.nat?.isSome
  size : p.options.size = some (.bits s)
  symbolic : s.symbolic = true
  sizeValid : s.Valid
  condition : p.options.condition = none
  valid : p.data.Valid
  whole : p.data.width % 8 = 0

/-- The store of the `k` most significant bytes of data of `n`, where they stand in the range of all: at its start if the
first byte is the most significant, else at its end. -/
def top (p : Put) (e : Endness) (d : Bits) (n k : Nat) : Put where
  addr := .num (if p.options.endness.getD e = .little then p.first + n - k else p.first)
  data := d.slice (8 * n - 1) (8 * (n - k))
  options := { p.options with size := none }

variable {p : Put} {cat : Category} {bits n k : Nat} {e : Endness} {d : Bits}

section
variable (hd : d.Valid) (hw : d.width = 8 * n) (hk : 1 ≤ k) (hkn : k ≤ n)
include hd hw hk hkn

lemma top_agrees : (p.top e d n k).data.Sized (8 * k) ∧
      ∀ μ i, i < k → byte ((p.top e d n k).data.eval μ) i = byte (d.eval μ) (n - k + i) := by
  have h := slice_agrees (8 * n - 1) (8 * (n - k)) hd (by omega) (by omega)
  refine ⟨⟨h.valid, h.width.trans ?_⟩, fun μ i hi => ?_⟩
  · change 8 * n - 1 + 1 - 8 * (n - k) = 8 * k
    omega
  · rw [top, h.eval]
    exact byte_slice _ (n - k) rfl (by omega)

lemma count_top : (p.top e d n k).count = k := by
  have h := (top_agrees (p := p) (e := e) hd hw hk hkn).1.width
  change (p.top e d n k).data.width / 8 = k
  omega

lemma plain_top (hcond : p.options.condition = none) (hbits : n < 2 ^ bits) : (p.top e d n k).Plain cat bits := by
  have h := (top_agrees (p := p) (e := e) hd hw hk hkn).1
  have hcount := count_top (p := p) (e := e) hd hw hk hkn
  have hdata : Exec.storeData cat bits none (p.top e d n k).data = (p.top e d n k).data := by cases cat <;> rfl
  refine ⟨rfl, by simp [top], hcond, h.valid, by rw [h.width]; omega, ?_, by omega⟩
  rw [hcount]
  change k ≤ (Exec.storeData cat bits none (p.top e d n k).data).width / 8
  rw [hdata, h.width]
  omega

/-- The bytes that the store of the most significant ones changes are those with fewer than `k` above them. -/
lemma at?_lay_top (f : Flat) (μ : Model) (x) : Flat.at? ((p.top e d n k).lay e f) μ x =
      if (p.first ≤ x ∧ x < p.first + n) ∧ (p.options.endness.getD e).rank p.first n x < k then
        some ((p.options.endness.getD e).byteAt (d.eval μ) p.first n x) else f.at? μ x := by
  have hbyte := (top_agrees (p := p) (e := e) hd hw hk hkn).2 μ
  have hlay : (p.top e d n k).lay e f =
      f.lay (p.options.endness.getD e) (p.top e d n k).data (p.top e d n k).first (p.top e d n k).count := rfl
  rw [hlay, count_top hd hw hk hkn, Flat.at?_lay]
  have hfirst : (p.top e d n k).first = if p.options.endness.getD e = .little then p.first + n - k else p.first := rfl
  generalize (p.top e d n k).first = a at hfirst ⊢
  have hiff : a ≤ x ∧ x < a + k ↔ (p.first ≤ x ∧ x < p.first + n) ∧ (p.options.endness.getD e).rank p.first n x < k := by
    rw [Endness.rank]
    split_ifs at * <;> omega
  by_cases hx : a ≤ x ∧ x < a + k
  · rw [if_pos hx, if_pos (hiff.1 hx), Endness.byteAt, Endness.byteAt, hbyte _ (by split <;> omega)]
    congr 2
    split_ifs at * <;> omega
  · rw [if_neg hx, if_neg (mt hiff.2 hx)]

end

end Put

namespace World

open Exec

variable {w : World} {r : Region} {m : Memory}

/-- **A store whose size has symbols** writes, in a model in which the size is `k`, the `k` most significant bytes of its
data where they stand when all of it is stored, as the plain store of these bytes does. A plain store of size `k` writes the
`k` least significant bytes, at the first addresses. -/
theorem sized_store_writes_top (hready : (w.scene r).Ready m) (hquiet : w.Quiet)
    (hmulti : w.state.settings.has .avoidMultivaluedWrites = false)
    (hsizes : w.state.settings.has .concretizeSymbolicWriteSizes = false) {p : Put} {s : Bits} (hp : p.Sized s) {n : Nat}
    (hn : (p.filled m.category w.state.arch.bits).width = 8 * n) (hbits : n < 2 ^ w.state.arch.bits)
    (hsn : n ≤ 2 ^ s.width) (hthere : ∀ x, p.first ≤ x → x < p.first + n → (w.flat r x).isSome) :
    ∃ w', p.run r w = .ok () w' ∧ ∀ k, 1 ≤ k → k ≤ n →
      ∃ w'', (p.top m.endness (p.filled m.category w.state.arch.bits) n k).run r w = .ok () w'' ∧
        ∀ μ, s.eval μ = k → ∀ x, (w'.flat r).at? μ x = (w''.flat r).at? μ x := by
  have hd : (p.filled m.category w.state.arch.bits).Valid :=
    (storeData_spec m.category hready.whole p.options.size hp.valid hp.whole).1
  have hflat : w.flat r = ((w.scene r).contents m).flat := flat_of_has (ready_has hready)
  have haddr : p.addr.nat? = some p.first := by
    obtain ⟨a, ha⟩ := Option.isSome_iff_exists.1 hp.addr
    rw [Put.first, ha]
    rfl
  have hsize : storeSize w.state.arch.bits p.options.size (p.filled m.category w.state.arch.bits) = .bits s := by
    rw [hp.size]
    rfl
  have hrun : Does r (w.scene r) (p.run r) fun _ T => ∃ g, (w.scene r).Has m g T ∧ ∀ μ x, g.at? μ x =
      if (p.first ≤ x ∧ x < p.first + n) ∧ (p.options.endness.getD m.endness).rank p.first n x < s.eval μ then
        some ((p.options.endness.getD m.endness).byteAt ((p.filled m.category w.state.arch.bits).eval μ) p.first n x)
      else ((w.scene r).contents m).flat.at? μ x := by
    refine (store_of_storeRaw hready.memory haddr p.options (by rw [hp.condition]; rfl) ?_).bind fun _ T hT => Does.pure hT
    rw [hp.condition]
    exact hsize ▸ storeRaw_sized_does hready haddr hp.sizeValid hp.symbolic hsn hd hn (hflat ▸ hthere) hmulti hsizes _
  obtain ⟨_, w', hok, -, g, hhas, hg⟩ := hrun w hquiet rfl
  refine ⟨w', hok, fun k hk hkn => ?_⟩
  obtain ⟨_, w'', hok', -, hhas'⟩ := Put.run_does (r := r) hready
    (Put.plain_top (p := p) (e := m.endness) hd hn hk hkn hp.condition hbits) w hquiet rfl
  refine ⟨w'', hok', fun μ hμ x => ?_⟩
  rw [flat_of_has hhas, flat_of_has hhas', hg, hμ, Put.at?_lay_top hd hn hk hkn]

/-- Four bytes, then a store of four bytes over them with a size `n`, first byte least significant. Where `n` is 1 the last
address has the most significant byte, and not the first the least significant one. -/
theorem sized_store_writes_last_byte :
    let w : World := { state := .blank .amd64 .symbolic (Mode.settings .symbolic), solver := .ideal }
    let before : Put := { addr := .num 256, data := .lit 32 0xaabbccdd }
    let sized : Put :=
      { addr := .num 256, data := .lit 32 0x11223344
        options := { size := some (.bits (.sym "n" 64)), endness := some .little } }
    ∃ w₁ w₂, before.run .memory w = .ok () w₁ ∧ sized.run .memory w₁ = .ok () w₂ ∧ ∀ μ : Model, μ "n" = 1 →
      (List.range 4).map (fun i => (w₂.flat .memory).at? μ (256 + i)) = [some 0xaa, some 0xbb, some 0xcc, some 0x11] := by
  intro w before sized
  have hempty := empty_blank .amd64 .symbolic (Mode.settings .symbolic)
  have hready : (w.scene .memory).Ready w.state.memory :=
    ⟨rfl, rfl, hempty.placed _, hempty.sound _, fun h => absurd h.2 (by decide), Solver.ideal_exact.folds,
      Nat.mul_mod_left 8 8⟩
  have hquiet : w.Quiet := fun i hi => absurd hi (by simp [w, State.blank])
  have hplain : before.Plain .memory 64 :=
    ⟨rfl, fun q hq => absurd hq (by simp [before]), rfl, show 0xaabbccdd < 2 ^ 32 by decide, Nat.mul_mod_left 4 8,
      Nat.le_refl _, by decide⟩
  obtain ⟨_, w₁, hrun₁, hquiet₁, hhas₁⟩ := Put.run_does (r := .memory) hready hplain w hquiet rfl
  have hflat₁ := flat_of_has hhas₁
  obtain ⟨p₁, k₁, hscene₁, hready₁, -⟩ := hhas₁
  have hsettings : w₁.state.settings = w.state.settings := congrArg Scene.settings hscene₁
  have harch : w₁.state.arch = .amd64 := congrArg Scene.arch hscene₁
  have hsized : sized.Sized (.sym "n" 64) :=
    ⟨rfl, rfl, rfl, trivial, rfl, show 0x11223344 < 2 ^ 32 by decide, Nat.mul_mod_left 4 8⟩
  have hbefore : ∀ x, w₁.flat .memory x =
      if 256 ≤ x ∧ x < 260 then some fun μ => Word.byte ((Bits.lit 32 0xaabbccdd).eval μ) (259 - x) else none := fun x => by
    have hnone : ((w.scene .memory).contents w.state.memory).view x = none := hempty.view _ x
    rw [hflat₁, Put.lay, Unshared.flat, hnone]
    simp [before, Put.first, Put.count, Quantity.nat?, Bits.width, Endness.byteAt, w, State.blank, Memory.empty]
  have hthere : ∀ x, sized.first ≤ x → x < sized.first + 4 → (w₁.flat .memory x).isSome := fun x h1 h2 => by
    have hx : 256 ≤ x ∧ x < 260 := ⟨h1, h2⟩
    rw [hbefore, if_pos hx]
    rfl
  have hbits : 4 < 2 ^ w₁.state.arch.bits := by
    rw [harch]
    decide
  obtain ⟨w₂, hrun₂, hsame⟩ := sized_store_writes_top hready₁ hquiet₁ (by rw [hsettings]; decide) (by rw [hsettings]; decide)
    hsized (n := 4) rfl hbits (by decide) hthere
  obtain ⟨w₃, hrun₃, hsame⟩ := hsame 1 (by decide) (by decide)
  obtain ⟨_, w₄, hrun₄, -, hhas₄⟩ := Put.run_does (r := .memory) hready₁
    (Put.plain_top (p := sized) (e := .big) (n := 4) (k := 1) hsized.valid rfl (by decide) (by decide) rfl hbits)
    w₁ hquiet₁ rfl
  obtain rfl : w₄ = w₃ := (EStateM.Result.ok.inj (hrun₄.symm.trans hrun₃)).2
  refine ⟨w₁, w₂, hrun₁, hrun₂, fun μ hμ => ?_⟩
  have hn : (Bits.sym "n" 64).eval μ = 1 := by simp [Bits.eval, hμ, Word.trunc]
  have hbytes : ∀ x, (w₂.flat .memory).at? μ x =
      Flat.at? (Put.lay .big (w₁.flat .memory) (sized.top .big sized.data 4 1)) μ x := fun x => by
    rw [hsame μ hn x, flat_of_has hhas₄, flat_of_has (ready_has hready₁)]
    rfl
  simp only [hbytes, Put.at?_lay_top hsized.valid (n := 4) rfl (show 1 ≤ 1 by decide) (show 1 ≤ 4 by decide)]
  simp [List.range_succ, sized, Put.first, Quantity.nat?, Endness.rank, Endness.byteAt, Flat.at?, hbefore, Bits.eval, Word.byte,
    Word.trunc]

end World

end SymExec
