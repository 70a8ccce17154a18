import Mathlib.Tactic.IntervalCases
import SymExec.Flags.Pc
import SymExec.Proofs.Arith

/-!
# Conditions from operands and from a word of flags

A condition of the PC can be computed from the operands of the last operation, or from a word in which the flags of that operation
have been collected.
-/

namespace SymExec.Flags

open Bits Except

@[simp] lemma ok_bind {α β : Type} (a) (f : α → Try β) : (.ok a >>= f) = f a := rfl

@[simp] lemma pure_eq_ok {α : Type} (a) : (pure a : Try α) = .ok a := rfl

/-! ### Flags are bits -/

variable {a b old r : Bits} {n w k v : Nat} {cx : HelperContext} {f : PcFlags} {a' b' : Bits}

lemma bit_sized {i} (ha : a.Sized n) (hi : i < n) : (bit a i).Sized 1 := by
  have h := ha.slice le_rfl hi
  rwa [Nat.add_sub_cancel_left] at h

lemma ofCond_sized (c) : (ofCond c).Sized 1 := (sized_lit (by decide)).ite (sized_lit (by decide)) c

lemma parity_sized (ha : a.Sized n) : (parity a).Sized 1 := by
  have fold : ∀ (is : List Nat) (b : Bits), b.Sized 1 → (∀ i ∈ is, i < n) → (is.foldl (fun b i => b.xor (bit a i)) b).Sized 1 := by
    intro is
    induction is with
    | nil => exact fun b hb _ => hb
    | cons i is ih =>
      intro b hb his
      exact ih _ (hb.xor (bit_sized ha (his i (by simp)))) fun j hj => his j (by simp [hj])
  refine fold _ _ (sized_lit (by decide)) fun i hi => ?_
  rw [List.mem_range, ha.width] at hi
  split_ifs at hi <;> omega

lemma low_sized (ha : a.Sized w) (hn : 0 < n) (h : n ≤ w) : ∃ x, low n a = .ok x ∧ x.Sized n :=
  ⟨_, if_pos (ha.width ▸ h), (ha.low hn h).1⟩

structure PcFlags.Sized (f : PcFlags) : Prop where
  cf : f.cf.Sized 1
  pf : f.pf.Sized 1
  af : f.af.Sized 1
  zf : f.zf.Sized 1
  sf : f.sf.Sized 1
  of : f.of.Sized 1

lemma PcOp.flags_sized (op : PcOp) (hn : 8 ≤ n) (ha : a.Sized n) (hb : b.Sized n) (ho : old.Sized n) : (op.flags n a b old).Sized := by
  have hone : (Bits.ofNat n 1).Sized n := sized_ofNat n 1
  have hones : (lit n (Word.ones n)).Sized n := sized_lit (Nat.sub_lt (Nat.two_pow_pos n) Nat.one_pos)
  have hzero : (lit 1 0).Sized 1 := sized_lit (by decide)
  have top : ∀ {x}, x.Sized n → (bit x (n - 1)).Sized 1 := fun hx => bit_sized hx (by omega)
  have at_ : ∀ {x} (i), i < 8 → x.Sized n → (bit x i).Sized 1 := fun i hi hx => bit_sized hx (by omega)
  -- the flags that a result `r` of operands `x` and `y` leaves beside carry and overflow
  have common : ∀ {r x y cf of}, r.Sized n → x.Sized n → y.Sized n → cf.Sized 1 → of.Sized 1 →
      (PcFlags.mk cf (parity r) (bit ((r.xor x).xor y) 4) (isZero r) (bit r (n - 1)) of).Sized :=
    fun hr hx hy hc hov => ⟨hc, parity_sized hr, at_ 4 (by omega) ((hr.xor hx).xor hy), ofCond_sized _, top hr, hov⟩
  cases op with
  | add =>
    have hr := ha.add hb
    exact common hr ha hb (ofCond_sized _) (top (((ha.xor hb).xor hones).and (ha.xor hr)))
  | sub =>
    have hr := ha.sub hb
    exact common hr ha hb (ofCond_sized _) (top ((ha.xor hb).and (ha.xor hr)))
  | adc =>
    have hc := ho.and hone
    have hy := hb.xor hc
    have hr := (ha.add hy).add hc
    exact common hr ha hy ((ofCond_sized _).ite (ofCond_sized _) _) (top (((ha.xor hy).xor hones).and (ha.xor hr)))
  | sbb =>
    have hc : ((bit old 0).zext (n - 1)).Sized n := by
      have h0 := at_ 0 (by omega) ho
      refine (zext_agrees h0.valid).sized ?_
      change (bit old 0).width + (n - 1) = n
      rw [h0.width]
      omega
    have hy := hb.xor hc
    have hr := (ha.sub hy).sub hc
    exact common hr ha hy ((ofCond_sized _).ite (ofCond_sized _) _) (top ((ha.xor hy).and (ha.xor hr)))
  | logic => exact ⟨hzero, parity_sized ha, hzero, ofCond_sized _, top ha, hzero⟩
  | inc => exact common ha (ha.sub hone) hone (at_ 0 (by omega) ho) (hzero.ite (sized_lit (by decide)) _)
  | dec => exact common ha (ha.add hone) hone (at_ 0 (by omega) ho) (hzero.ite (sized_lit (by decide)) _)
  | shl => exact ⟨top ha, parity_sized ha, hzero, ofCond_sized _, top ha, (at_ 0 (by omega) ha).xor (at_ 0 (by omega) hb)⟩
  | shr => exact ⟨ofCond_sized _, parity_sized ha, hzero, ofCond_sized _, top ha, (at_ 0 (by omega) ha).xor (at_ 0 (by omega) hb)⟩
  | rol =>
    exact ⟨at_ 0 (by omega) ha, at_ 2 (by omega) ho, at_ 4 (by omega) ho, at_ 6 (by omega) ho, at_ 7 (by omega) ho,
      at_ 0 (by omega) ((ha.lshr (sized_ofNat n _)).xor ha)⟩
  | ror =>
    exact ⟨top ha, at_ 2 (by omega) ho, at_ 4 (by omega) ho, at_ 6 (by omega) ho, at_ 7 (by omega) ho,
      (top ha).xor (bit_sized ha (by omega))⟩
  | umul | smul =>
    have hr := ha.mul hb
    exact ⟨ofCond_sized _, parity_sized hr, hzero, ofCond_sized _, top hr, ofCond_sized _⟩

/-- Every code of a machine but that of a copy names an operation and a size that words have. -/
lemma PcOp.decode_ok {c} (hw : w = 32 ∨ w = 64) (hc : 1 ≤ c ∧ c ≤ 13 * sizeCount w) :
    ∃ op n, PcOp.decode w c = .ok (op, n) ∧ 8 ≤ n ∧ n ≤ w := by
  have hall : ∀ i < 13, ∃ op, PcOp.all[i]? = some op := fun i hi => ⟨_, List.getElem?_eq_getElem hi⟩
  have hsize : 0 < sizeCount w ∧ w = 8 * 2 ^ (sizeCount w - 1) := by rcases hw with rfl | rfl <;> decide
  obtain ⟨op, hop⟩ := hall ((c - 1) / sizeCount w) (Nat.div_lt_of_lt_mul (by omega))
  refine ⟨op, 8 * 2 ^ ((c - 1) % sizeCount w), by simp [PcOp.decode, hop], ?_, ?_⟩
  · have := Nat.two_pow_pos ((c - 1) % sizeCount w)
    omega
  · have := Nat.pow_le_pow_right (n := 2) (by decide) (Nat.le_sub_one_of_lt (Nat.mod_lt (c - 1) hsize.1))
    omega

lemma pcFlags_ok {c} (hw : w = 32 ∨ w = 64) {code} (hcode : cx.pick code = .ok c) (hc : 1 ≤ c ∧ c ≤ 13 * sizeCount w)
    (ha : a.Sized w) (hb : b.Sized w) (ho : old.Sized w) : ∃ f, pcFlags cx w code a b old = .ok (.inr f) ∧ f.Sized := by
  obtain ⟨op, n, hop, hn, hnw⟩ := PcOp.decode_ok hw hc
  obtain ⟨x, hx, hxs⟩ := low_sized ha (by omega) hnw
  obtain ⟨y, hy, hys⟩ := low_sized hb (by omega) hnw
  obtain ⟨z, hz, hzs⟩ := low_sized ho (by omega) hnw
  refine ⟨op.flags n x y z, ?_, op.flags_sized hn hxs hys hzs⟩
  have h0 : c ≠ 0 := by omega
  simp [pcFlags, hcode, h0, hop, hx, hy, hz]

/-! ### The word of flags -/

def PcFlags.number (f : PcFlags) (m : Model) : Nat :=
  f.of.eval m * 2 ^ 11 + f.sf.eval m * 2 ^ 7 + f.zf.eval m * 2 ^ 6 + f.af.eval m * 2 ^ 4 + f.pf.eval m * 2 ^ 2 + f.cf.eval m

lemma place_eval (hr : r.Sized k) (j) (hb : b.Sized 1) (m) :
    ((r.concat (.lit j 0)).concat b).eval m = r.eval m * 2 ^ (j + 1) + b.eval m := by
  have hz := sized_zero j
  rw [(hr.concat hz).eval_concat hb, hr.eval_concat hz, eval_zero]
  ring

variable (fs : List (Nat × Bits))

lemma foldl_place_eval {q p} (hq : q ≤ 32) (hr : r.Sized (32 - q))
    (hlt : (q :: fs.map Prod.fst).Pairwise (· > ·)) (hlast : (q :: fs.map Prod.fst).getLast? = some p)
    (hfs : ∀ x ∈ fs, x.2.Sized 1) :
    let r' := fs.foldl (fun (r : Bits) (p, b) => (r.concat (.lit (31 - r.width - p) 0)).concat b) r
    r'.Sized (32 - p) ∧ ∀ m, r'.eval m * 2 ^ p = r.eval m * 2 ^ q + (fs.map fun x => x.2.eval m * 2 ^ x.1).sum := by
  -- the vector always ends at the place of the last flag put
  induction fs generalizing q r with
  | nil =>
    obtain rfl : q = p := by simpa using hlast
    exact ⟨hr, fun m => rfl⟩
  | cons x fs ih =>
    obtain ⟨t, b⟩ := x
    have ht : t < q := List.rel_of_pairwise_cons hlt (by simp)
    have hb : b.Sized 1 := hfs (t, b) (by simp)
    have hj : 31 - r.width - t = q - 1 - t := by
      rw [hr.width]
      omega
    have hs := (hr.concat (sized_zero (q - 1 - t))).concat hb
    rw [show 32 - q + (q - 1 - t) + 1 = 32 - t by omega] at hs
    obtain ⟨hr', he⟩ := ih (by omega) hs hlt.tail (by simpa using hlast) fun y hy => hfs y (by simp [hy])
    simp only [List.foldl_cons, hj, List.map_cons, List.sum_cons]
    refine ⟨hr', fun m => (he m).trans ?_⟩
    have hpow : 2 ^ (q - 1 - t + 1) * 2 ^ t = 2 ^ q := by
      rw [← pow_add]
      congr 1
      omega
    rw [place_eval hr _ hb, add_mul, mul_assoc, hpow, add_assoc]

lemma placeFlags_eval {p} (hp : p ≤ 32) (hlt : (32 :: fs.map Prod.fst).Pairwise (· > ·))
    (hlast : (32 :: fs.map Prod.fst).getLast? = some p) (hfs : ∀ x ∈ fs, x.2.Sized 1) (hw : 32 ≤ w) : (placeFlags w fs).Sized w ∧
      ∀ m, (placeFlags w fs).eval m = (fs.map fun x => x.2.eval m * 2 ^ x.1).sum * 2 ^ (w - 32) := by
  obtain ⟨hr, he⟩ := foldl_place_eval fs le_rfl (sized_lit (v := 0) (by decide)) hlt hlast hfs
  have hj : w - (32 - p) = p + (w - 32) := by omega
  have hz := sized_zero (p + (w - 32))
  rw [placeFlags, hr.width, hj]
  refine ⟨?_, fun m => ?_⟩
  · have h := hr.concat hz
    rwa [show 32 - p + (p + (w - 32)) = w by omega] at h
  · have h := he m
    rw [eval_lit (by decide), zero_mul, zero_add] at h
    rw [hr.eval_concat hz, eval_zero, add_zero, pow_add, ← mul_assoc, h]

/-- **The word of flags.** It holds the flags at their places in 32 bits, and these at its high end. -/
theorem PcFlags.toWord_eval (hf : f.Sized) (hw : 32 ≤ w) : (f.toWord w).Sized w ∧ ∀ m, (f.toWord w).eval m = f.number m * 2 ^ (w - 32) := by
  obtain ⟨hs, he⟩ := placeFlags_eval [(11, f.of), (7, f.sf), (6, f.zf), (4, f.af), (2, f.pf), (0, f.cf)] (p := 0)
    (by decide) (by simp) (by simp) (by simp [hf.of, hf.sf, hf.zf, hf.af, hf.pf, hf.cf]) hw
  refine ⟨hs, fun m => (he m).trans ?_⟩
  simp [PcFlags.number, Nat.add_assoc]

/-! ### Conditions read the lowest bits of flags -/

structure SameLow (n k : Nat) (a b : Bits) : Prop where
  left : a.Sized n
  right : b.Sized k
  bit : ∀ m, a.eval m % 2 = b.eval m % 2

lemma SameLow.or (h : SameLow n k a b) (h' : SameLow n k a' b') : SameLow n k (a.or a') (b.or b') := by
  have low : ∀ x y, (x ||| y) % 2 = x % 2 ||| y % 2 := fun x y => Nat.or_mod_two_pow (n := 1)
  refine ⟨h.left.or h'.left, h.right.or h'.right, fun m => ?_⟩
  rw [h.left.eval_or h'.left, h.right.eval_or h'.right, low, h.bit, h'.bit, ← low]

lemma SameLow.xor (h : SameLow n k a b) (h' : SameLow n k a' b') : SameLow n k (a.xor a') (b.xor b') := by
  have low : ∀ x y, (x ^^^ y) % 2 = x % 2 ^^^ y % 2 := fun x y => Nat.xor_mod_two_pow (n := 1)
  refine ⟨h.left.xor h'.left, h.right.xor h'.right, fun m => ?_⟩
  rw [h.left.eval_xor h'.left, h.right.eval_xor h'.right, low, h.bit, h'.bit, ← low]

/-- Every condition is a value, and its lowest bit depends on the lowest bits of the flags only. -/
lemma pcCondition_sameLow (hv : v < 16) {cf pf zf sf of cf' pf' zf' sf' of'} (hc : SameLow n k cf cf')
    (hp : SameLow n k pf pf') (hz : SameLow n k zf zf') (hs : SameLow n k sf sf') (ho : SameLow n k of of') :
    ∃ r r', pcCondition v cf pf zf sf of = some r ∧ pcCondition v cf' pf' zf' sf' of' = some r' ∧ SameLow n k r r' := by
  unfold pcCondition
  have hv : v / 2 < 8 := by omega
  generalize v / 2 = i at hv
  match i with
  | 0 => exact ⟨_, _, rfl, rfl, ho⟩
  | 1 => exact ⟨_, _, rfl, rfl, hc⟩
  | 2 => exact ⟨_, _, rfl, rfl, hz⟩
  | 3 => exact ⟨_, _, rfl, rfl, hc.or hz⟩
  | 4 => exact ⟨_, _, rfl, rfl, hs⟩
  | 5 => exact ⟨_, _, rfl, rfl, hp⟩
  | 6 => exact ⟨_, _, rfl, rfl, hs.xor ho⟩
  | 7 => exact ⟨_, _, rfl, rfl, (hs.xor ho).or hz⟩
  | i + 8 => omega

lemma pcCondition_none (hv : v < 16) : pcCondition v (.lit 1 0) (.lit 1 0) (.lit 1 0) (.lit 1 0) (.lit 1 0) = some (.lit 1 0) := by
  interval_cases v <;> rfl

/-- The flags stand at their places in a number, as conditions read them. -/
structure PcFlags.In (f : PcFlags) (m : Model) (v : Nat) : Prop where
  cf : v / 2 ^ 0 % 2 = f.cf.eval m
  pf : v / 2 ^ 2 % 2 = f.pf.eval m
  zf : v / 2 ^ 6 % 2 = f.zf.eval m
  sf : v / 2 ^ 7 % 2 = f.sf.eval m
  of : v / 2 ^ 11 % 2 = f.of.eval m

lemma PcFlags.in_number (hf : f.Sized) (m) : f.In m (f.number m) := by
  have hc := hf.cf.eval_lt m
  have hp := hf.pf.eval_lt m
  have ha := hf.af.eval_lt m
  have hz := hf.zf.eval_lt m
  have hs := hf.sf.eval_lt m
  have ho := hf.of.eval_lt m
  constructor <;> unfold PcFlags.number <;> omega

lemma copied_sameLow {f i} (ha : a.Sized w) (hw : 12 ≤ w) (hi : pcMask.testBit i = true) (hi' : i < 12) (hf : f.Sized 1)
    (h : ∀ m, a.eval m / 2 ^ i % 2 = f.eval m) : SameLow w 1 ((a.and (ofNat w pcMask)).lshr (ofNat w i)) f := by
  have hm : (ofNat w pcMask).Sized w := sized_ofNat w _
  have hmask : pcMask < 2 ^ w := Nat.lt_of_lt_of_le (by decide) (Nat.pow_le_pow_right (by decide) hw)
  refine ⟨(ha.and hm).lshr (sized_ofNat w i), hf, fun m => ?_⟩
  rw [(ha.and hm).eval_lshr (by omega), ha.eval_and hm, eval_ofNat, Word.trunc_of_lt hmask,
    Nat.mod_eq_of_lt (show f.eval m < 2 from hf.eval_lt m),
    ← h m, Nat.shiftRight_eq_div_pow, ← Nat.toNat_testBit, ← Nat.toNat_testBit, Nat.testBit_and, hi, Bool.and_true]

lemma pcCond_copy {cond copy} (hcopy : cx.pick copy = .ok 0) (hs : cond.symbolic = false) (hcond : cx.pick cond = .ok v)
    (hv : v < 16) (hw : 12 ≤ w) (ha : a.Sized w) (hf : f.Sized) (hin : ∀ m, f.In m (a.eval m)) (b old) :
    ∃ r x, pcCond cx w cond copy a b old = .ok (r, []) ∧ pcCondition v f.cf f.pf f.zf f.sf f.of = some x ∧
      ∀ m, r.eval m = (v + x.eval m) % 2 := by
  have at_ := fun i hi hi' f hf h => copied_sameLow (i := i) (f := f) ha hw hi hi' hf h
  obtain ⟨y, x, hy, hx, hyx⟩ := pcCondition_sameLow hv (at_ 0 (by decide) (by decide) f.cf hf.cf fun m => (hin m).cf)
    (at_ 2 (by decide) (by decide) f.pf hf.pf fun m => (hin m).pf)
    (at_ 6 (by decide) (by decide) f.zf hf.zf fun m => (hin m).zf)
    (at_ 7 (by decide) (by decide) f.sf hf.sf fun m => (hin m).sf)
    (at_ 11 (by decide) (by decide) f.of hf.of fun m => (hin m).of)
  have hone : 1 < 2 ^ w := Nat.one_lt_two_pow (by omega)
  have hr : (a.and (.ofNat w pcMask)).width = w := (ha.and (sized_ofNat w _)).width
  refine ⟨((ofNat w (v % 2)).xor y).and (ofNat w 1), x, ?_, hx, fun m => ?_⟩
  · simp [pcCond, pcFlags, hcopy, hs, hcond, ha.width, hr, hy]
  · have hn : (ofNat w (v % 2)).Sized w := sized_ofNat w _
    rw [(hn.xor hyx.left).eval_and (sized_ofNat w 1), hn.eval_xor hyx.left, eval_ofNat, eval_ofNat, Word.trunc_of_lt hone,
      Word.trunc_of_lt (by omega), Nat.and_one_is_mod, Nat.xor_mod_two_eq]
    have := hyx.bit m
    omega

lemma pcCond_direct {cond code} (hflags : pcFlags cx w code a b old = .ok (.inr f)) (hf : f.Sized) (hs : cond.symbolic = false)
    (hcond : cx.pick cond = .ok v) (hv : v < 16) : ∃ r x, pcCond cx w cond code a b old = .ok (r, []) ∧
    pcCondition v f.cf f.pf f.zf f.sf f.of = some x ∧ ∀ m, r.eval m = (v + x.eval m) % 2 := by
  have self : ∀ {b}, b.Sized 1 → SameLow 1 1 b b := fun hb => ⟨hb, hb, fun _ => rfl⟩
  obtain ⟨x, _, hx, -, hxs⟩ := pcCondition_sameLow hv (self hf.cf) (self hf.pf) (self hf.zf) (self hf.sf) (self hf.of)
  have hn : (ofNat 1 v).Sized 1 := sized_ofNat 1 v
  have hz := sized_zero (cx.wordBits - 1)
  have hbit := hn.xor hxs.left
  refine ⟨(lit (cx.wordBits - 1) 0).concat ((ofNat 1 v).xor x), x, ?_, hx, fun m => ?_⟩
  · simp [pcCond, hflags, hs, hcond, hx]
  · have hlt := hbit.eval_lt m
    rw [hz.eval_concat hbit, eval_zero, zero_mul, zero_add, ← Nat.mod_eq_of_lt hlt, hn.eval_xor hxs.left,
      eval_ofNat, Word.trunc, Nat.xor_mod_two_eq, Nat.mod_add_mod]

/-- **Conditions from operands and from collected flags.** On both machines, for every operation at every size of operands,
the flags of the operation are collected in a word that holds them at their places in 32 bits, at the high end. Each of the
16 conditions computed from the operands is the one computed from the word shifted down to these 32 bits. From the word
itself it is the same on the 32-bit machine; on the 64-bit machine the word shows no flag to any condition, whatever the
operands are. -/
theorem pcCond_eq_copied {cx : HelperContext} {w : Nat} (hw : w = 32 ∨ w = 64) {code copy cond : Bits} {c v : Nat}
    (hcode : cx.pick code = .ok c) (hc : 1 ≤ c ∧ c ≤ 13 * sizeCount w) (hcopy : cx.pick copy = .ok 0)
    (hs : cond.symbolic = false) (hcond : cx.pick cond = .ok v) (hv : v < 16) {a b old : Bits} (ha : a.Sized w)
    (hb : b.Sized w) (ho : old.Sized w) :
    ∃ f word direct, pcFlags cx w code a b old = .ok (.inr f) ∧ pcAll cx w code a b old = .ok (word, []) ∧
      (∀ m, word.eval m = f.number m * 2 ^ (w - 32)) ∧ pcCond cx w cond code a b old = .ok (direct, []) ∧
      (∀ b' old', ∃ r, pcCond cx w cond copy (word.lshr (.ofNat w (w - 32))) b' old' = .ok (r, []) ∧
        ∀ m, r.eval m = direct.eval m) ∧ ∀ b' old', ∃ r, pcCond cx w cond copy word b' old' = .ok (r, []) ∧
        ∀ m, r.eval m = if w = 32 then direct.eval m else v % 2 := by
  have h32 : 32 ≤ w := by omega
  obtain ⟨f, hflags, hf⟩ := pcFlags_ok hw hcode hc ha hb ho
  obtain ⟨hword, hval⟩ := f.toWord_eval hf h32
  obtain ⟨direct, x, hdirect, hx, hxv⟩ := pcCond_direct hflags hf hs hcond hv
  have hall : pcAll cx w code a b old = .ok (f.toWord w, []) := by
    simp [pcAll, hflags]
  have copied : ∀ {a' : Bits}, a'.Sized w → (∀ m, f.In m (a'.eval m)) → ∀ b' old',
      ∃ r, pcCond cx w cond copy a' b' old' = .ok (r, []) ∧ ∀ m, r.eval m = direct.eval m := fun ha' hin b' old' => by
    obtain ⟨r, x', hr, hx', hrv⟩ := pcCond_copy hcopy hs hcond hv (by omega) ha' hf hin b' old'
    obtain rfl : x = x' := Option.some.inj (hx.symm.trans hx')
    exact ⟨r, hr, fun m => (hrv m).trans (hxv m).symm⟩
  refine ⟨f, f.toWord w, direct, hflags, hall, hval, hdirect, copied (hword.lshr (sized_ofNat w _)) fun m => ?_, ?_⟩
  · rw [hword.eval_lshr (by omega), hval, Nat.shiftRight_eq_div_pow, Nat.mul_div_cancel _ (Nat.two_pow_pos _)]
    exact f.in_number hf m
  · rcases hw with rfl | rfl
    · refine copied hword fun m => ?_
      rw [hval, Nat.sub_self, pow_zero, mul_one]
      exact f.in_number hf m
    · -- below bit 32 the word is zero, as the word without flags
      intro b' old'
      have hzero : (Bits.lit 1 0).Sized 1 := sized_lit (by decide)
      obtain ⟨r, x', hr, hx', hrv⟩ := pcCond_copy (f := ⟨.lit 1 0, .lit 1 0, .lit 1 0, .lit 1 0, .lit 1 0, .lit 1 0⟩)
        hcopy hs hcond hv (by omega) hword ⟨hzero, hzero, hzero, hzero, hzero, hzero⟩
        (fun m => by
          rw [hval]
          constructor <;> rw [eval_lit (by decide)] <;> omega) b' old'
      obtain rfl : Bits.lit 1 0 = x' := Option.some.inj ((pcCondition_none hv).symm.trans hx')
      refine ⟨r, hr, fun m => ?_⟩
      rw [hrv, eval_lit (by decide)]
      rfl

def numberContext : HelperContext where
  wordBits := 64
  pick
    | .lit _ v => .ok v
    | _ => .error (.of .badTerm)

/-- After the subtraction of 5 from 5 on the 64-bit machine, "zero" holds by the operands and not by the collected flags. -/
theorem zero_lost_after_equal_sub :
    ∃ direct word copied, pcCond numberContext 64 (.lit 64 4) (.lit 64 8) (.lit 64 5) (.lit 64 5) (.lit 64 0) = .ok (direct, []) ∧
      pcAll numberContext 64 (.lit 64 8) (.lit 64 5) (.lit 64 5) (.lit 64 0) = .ok (word, []) ∧
      pcCond numberContext 64 (.lit 64 4) (.lit 64 0) word (.lit 64 0) (.lit 64 0) = .ok (copied, []) ∧
      ∀ m, direct.eval m = 1 ∧ copied.eval m = 0 := by
  obtain ⟨f, word, direct, -, hword, -, hdirect, -, hcopied⟩ :=
    @pcCond_eq_copied numberContext 64 (.inr rfl) (.lit 64 8) (.lit 64 0) (.lit 64 4) 8 4 rfl (by decide) rfl rfl rfl (by decide)
      (.lit 64 5) (.lit 64 5) (.lit 64 0) (sized_lit (by decide)) (sized_lit (by decide)) (sized_lit (by decide))
  obtain ⟨copied, hcopy, hval⟩ := hcopied (.lit 64 0) (.lit 64 0)
  refine ⟨direct, word, copied, hdirect, hword, hcopy, fun m => ⟨?_, hval m⟩⟩
  have hone : pcCond numberContext 64 (.lit 64 4) (.lit 64 8) (.lit 64 5) (.lit 64 5) (.lit 64 0) = .ok (.lit 64 1, []) := rfl
  obtain rfl : Bits.lit 64 1 = direct := (Prod.mk.inj (Except.ok.inj (hone.symm.trans hdirect))).1
  exact eval_lit (by decide) m

end SymExec.Flags
