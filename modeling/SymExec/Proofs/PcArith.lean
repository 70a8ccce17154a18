import SymExec.Proofs.Overflow

/-!
# Flags of the PC and exact results

The flags of sums, differences and logical operations say what became of the exact result (`PcFlags.Meets`).
-/

namespace SymExec

open List Word Cond

/-- Whether the low byte has an even number of bits set. -/
def Word.evenLow (v : Nat) : Bool := (range 8).countP v.testBit % 2 == 0

/-- The comparison of words that a condition names by its number: below, equal, below or equal, less, less or equal. -/
def Word.compares (n cond u v : Nat) : Bool :=
  (match cond / 2 with
    | 1 => decide (u < v)
    | 2 => decide (u = v)
    | 3 => decide (u ≤ v)
    | 6 => decide (toInt n u < toInt n v)
    | _ => decide (toInt n u ≤ toInt n v)) != (cond % 2 == 1)

namespace Flags

open Bits

/-! ### Operations on integers -/

/-- Sums and differences, with a carry or without, and logical operations. -/
def PcOp.arithmetic : List PcOp := [.add, .sub, .adc, .sbb, .logic]

/-- What an operation gives on integers, with a carry or borrow that comes in. -/
def PcOp.exact (op : PcOp) (x y c : Int) : Int :=
  match op with
  | .add => x + y
  | .sub => x - y
  | .adc => x + y + c
  | .sbb => x - y - c
  | _ => x

/-- What is left behind of the right operand: where a carry comes in, the operand with the carry laid over it. -/
def PcOp.rightLeft (op : PcOp) (y c : Nat) : Nat := if op = .adc ∨ op = .sbb then y ^^^ c else y

/-- **Flags meet the arithmetic** of an operation on words of `n` bits, with the carry `c`. -/
structure PcFlags.Meets (f : PcFlags) (m : Model) (op : PcOp) (n x y c : Nat) : Prop where
  cf : f.cf.eval m = if FitsUnsigned n (op.exact x y c) then 0 else 1
  of : f.of.eval m = if FitsSigned n (op.exact (toInt n x) (toInt n y) c) then 0 else 1
  af : f.af.eval m = if FitsUnsigned 4 (op.exact (x % 16) (y % 16) c) then 0 else 1
  zf : f.zf.eval m = if Word.ofInt n (op.exact x y c) = 0 then 1 else 0
  sf : f.sf.eval m = ((Word.ofInt n (op.exact x y c)).testBit (n - 1)).toNat
  pf : f.pf.eval m = if evenLow (ofInt n (op.exact x y c)) then 1 else 0

variable {n : Nat}

lemma eval_parity {a} (ha : a.Sized n) (hn : 8 ≤ n) (m) : (parity a).eval m = if evenLow (a.eval m) then 1 else 0 := by
  -- each bit that is set turns the one that is carried along
  have fold : ∀ (is : List Nat) (b : Bits), b.Sized 1 → (∀ i ∈ is, i < n) →
      (is.foldl (fun b i => b.xor (bit a i)) b).eval m = (b.eval m + is.countP (a.eval m).testBit) % 2 := by
    intro is
    induction is with
    | nil => exact fun b hb _ => (Nat.mod_eq_of_lt (hb.eval_lt m)).symm
    | cons i is ih =>
      intro b hb his
      have hi := bit_sized ha (his i (by simp))
      have hstep := (hb.xor hi).eval_lt m
      rw [hb.eval_xor hi] at hstep
      rw [foldl_cons, ih _ (hb.xor hi) fun j hj => his j (by simp [hj]), hb.eval_xor hi,
        ← Nat.mod_eq_of_lt hstep, eval_bit ha (his i (by simp)), countP_cons]
      cases (a.eval m).testBit i <;> simp
      omega
  rw [parity, ha.width, if_pos (by omega), fold _ _ (sized_lit (by decide)) (fun i hi => by rw [mem_range] at hi; omega),
    eval_lit (by decide), evenLow]
  split_ifs with h <;> rw [beq_iff_eq] at h <;> omega

/-! ### Flags of one operation -/

section
variable {op : PcOp} {n u v c k : Nat} {r x y cf of : Bits} {m : Model}

/-- The flags that do not say whether the result fits are those of the word that is left of it. -/
lemma PcFlags.meets_of {af} (hn : 8 ≤ n) (hr : r.Neat n) (he : r.eval m = Word.ofInt n (op.exact u v c))
    (hcf : cf.eval m = if FitsUnsigned n (op.exact u v c) then 0 else 1)
    (hof : of.eval m = if FitsSigned n (op.exact (toInt n u) (toInt n v) c) then 0 else 1)
    (haf : af.eval m = if FitsUnsigned 4 (op.exact (u % 16) (v % 16) c) then 0 else 1) :
    (PcFlags.mk cf (parity r) af (isZero r) (bit r (n - 1)) of).Meets m op n u v c where
  cf := hcf
  of := hof
  af := haf
  zf := he ▸ eval_isZero hr.formed m
  sf := he ▸ eval_bit hr.toSized (by omega) m
  pf := he ▸ eval_parity hr hn m

lemma toNat_eq_of_iff {b p} [Decidable p] (h : b = true ↔ ¬ p) : b.toNat = if p then 0 else 1 := by
  split_ifs with hp
  · rw [Bool.eq_false_iff.2 fun hb => h.1 hb hp]
    rfl
  · rw [h.2 hp]
    rfl

lemma sum_meets (hop : ∀ s t, op.exact s t c = s + t + k) (hk : k ≤ 1) (hn : 8 ≤ n) (hx : x.Neat n) (hy : y.Neat n)
    (hr : r.Neat n) (he : r.eval m = add n (add n (x.eval m) (y.eval m)) k)
    (hcf : cf.eval m = if (if k = 0 then x.eval m ≤ r.eval m else x.eval m < r.eval m) then 0 else 1) :
    (PcFlags.mk cf (parity r) (bit ((r.xor x).xor y) 4) (isZero r) (bit r (n - 1))
      (bit (((x.xor y).xor (.lit n (ones n))).and (x.xor r)) (n - 1))).Meets m op n (x.eval m) (y.eval m) c := by
  have hu := hx.eval_lt m
  have hv := hy.eval_lt m
  have hones : ones n < 2 ^ n := Nat.sub_lt (Nat.two_pow_pos n) Nat.one_pos
  have hxy := hx.xor hy
  have hm := neat_lit hones
  have hxr := hx.xor hr
  have hrx := hr.xor hx
  refine PcFlags.meets_of hn hr ?_ ?_ ?_ ?_
  · rw [he, add_add_eq_ofInt, hop]
  · rw [hcf, hop, he]
    simp only [add_unsigned_iff hu hv hk]
  · rw [eval_bit ((hxy.xor hm).and hxr).toSized (by omega), (hxy.xor hm).eval_and hxr, hxy.eval_xor hm, hx.eval_xor hy,
      hx.eval_xor hr, eval_lit hones, he, hop]
    refine toNat_eq_of_iff ?_
    rw [add_signed_iff (by omega) hu hv hk, Nat.testBit_and, ones]
    simp [show n - 1 < n by omega]
  · rw [eval_bit (hrx.xor hy).toSized (by omega), hrx.eval_xor hy, hr.eval_xor hx, he, hop]
    exact toNat_eq_of_iff (by exact_mod_cast add_half hn hu hv hk)

lemma dif_meets (hop : ∀ s t, op.exact s t c = s - t - k) (hk : k ≤ 1) (hn : 8 ≤ n) (hx : x.Neat n) (hy : y.Neat n)
    (hr : r.Neat n) (he : r.eval m = sub n (sub n (x.eval m) (y.eval m)) k)
    (hcf : cf.eval m = if y.eval m + k ≤ x.eval m then 0 else 1) :
    (PcFlags.mk cf (parity r) (bit ((r.xor x).xor y) 4) (isZero r) (bit r (n - 1))
      (bit ((x.xor y).and (x.xor r)) (n - 1))).Meets m op n (x.eval m) (y.eval m) c := by
  have hu := hx.eval_lt m
  have hv := hy.eval_lt m
  have hxy := hx.xor hy
  have hxr := hx.xor hr
  have hrx := hr.xor hx
  refine PcFlags.meets_of hn hr ?_ ?_ ?_ ?_
  · rw [he, sub_sub_eq_ofInt (by omega) hu hv hk, hop]
  · rw [hcf, hop]
    simp only [sub_unsigned_iff hu]
  · rw [eval_bit (hxy.and hxr).toSized (by omega), hxy.eval_and hxr, hx.eval_xor hy, hx.eval_xor hr, he, hop]
    refine toNat_eq_of_iff ?_
    rw [sub_signed_iff (by omega) hu hv hk, Nat.testBit_and, Nat.testBit_xor]
    simp
  · rw [eval_bit (hrx.xor hy).toSized (by omega), hrx.eval_xor hy, hr.eval_xor hx, he, hop]
    exact toNat_eq_of_iff (by exact_mod_cast sub_half hn hu hv hk)

lemma eval_ofCond_ult (hx : x.Neat n) (hy : y.Neat n) (m) : (ofCond (ult x y)).eval m = if y.eval m ≤ x.eval m then 0 else 1 := by
  rw [eval_ofCond, ult_eval hx hy]
  simp only [decide_eq_true_eq]
  split_ifs <;> omega

lemma eval_ofCond_ule (hx : x.Neat n) (hy : y.Neat n) (m) : (ofCond (ule x y)).eval m = if y.eval m < x.eval m then 0 else 1 := by
  rw [eval_ofCond, ule_eval hx hy]
  simp only [decide_eq_true_eq]
  split_ifs <;> omega

lemma eval_right {b cin : Bits} (hb : b.Neat n) (hc : cin.Neat n) (hcv : cin.eval m = c) (hleft : b.eval m = v ^^^ c) :
    (b.xor cin).eval m = v := by
  rw [hb.eval_xor hc, hcv, hleft, Nat.xor_assoc, Nat.xor_self, Nat.xor_zero]

section
variable {a b old : Bits} (hn : 8 ≤ n) (ha : a.Neat n) (hb : b.Neat n) (ho : old.Neat n)
include hn ha hb ho

lemma adc_flags_meet (hleft : b.eval m = v ^^^ (old.eval m % 2)) :
    (PcOp.adc.flags n a b old).Meets m .adc n (a.eval m) v (old.eval m % 2) := by
  have hone := neat_ofNat n 1
  have hc := ho.and hone
  have hcv : (old.and (.ofNat n 1)).eval m = old.eval m % 2 := by
    rw [ho.eval_and hone, eval_ofNat, trunc_of_lt (Nat.one_lt_two_pow (by omega)), Nat.and_one_is_mod]
  have hy := hb.xor hc
  have hr := (ha.add hy).add hc
  obtain rfl := eval_right hb hc hcv hleft
  refine sum_meets (fun s t => rfl) (by omega) hn ha hy hr ?_ ?_
  · rw [(ha.add hy).eval_add hc, ha.eval_add hy, hcv]
  · rw [eval_mkIte (ofCond_sized _) (ofCond_sized _), eval_ofCond_ule hr ha, eval_ofCond_ult hr ha]
    simp only [eval_nonzero hc.formed, hcv]
    split_ifs <;> omega

lemma sbb_flags_meet (hleft : b.eval m = v ^^^ (old.eval m % 2)) :
    (PcOp.sbb.flags n a b old).Meets m .sbb n (a.eval m) v (old.eval m % 2) := by
  have hc : ((bit old 0).zext (n - 1)).Neat n := by
    have h := (ho.slice (Nat.le_refl 0) (by omega)).zext (n - 1)
    rwa [show 0 + 1 - 0 + (n - 1) = n by omega] at h
  have hcv : ((bit old 0).zext (n - 1)).eval m = old.eval m % 2 := by
    rw [(bit_sized ho.toSized (by omega)).eval_zext, eval_bit ho.toSized (by omega), Nat.toNat_testBit, Nat.div_one]
  have hw : 1 < 2 ^ ((bit old 0).zext (n - 1)).width := by
    rw [hc.width]
    exact Nat.one_lt_two_pow (by omega)
  have hy := hb.xor hc
  have hr := (ha.sub hy).sub hc
  obtain rfl := eval_right hb hc hcv hleft
  refine dif_meets (fun s t => rfl) (by omega) hn ha hy hr ?_ ?_
  · rw [(ha.sub hy).eval_sub hc, ha.eval_sub hy, hcv]
  · rw [eval_mkIte (ofCond_sized _) (ofCond_sized _), eval_ofCond_ule ha hy, eval_ofCond_ult ha hy, eval_eqNat hc.formed hw, hcv]
    simp only [beq_iff_eq]
    split_ifs <;> omega

/-- **The flags of an operation** on words of one size meet its arithmetic. -/
theorem PcOp.flags_meet (hop : op ∈ PcOp.arithmetic) (hleft : b.eval m = op.rightLeft v (old.eval m % 2)) :
    (op.flags n a b old).Meets m op n (a.eval m) v (old.eval m % 2) := by
  cases op with
  | add =>
    obtain rfl : b.eval m = v := hleft
    have hr := ha.add hb
    refine sum_meets (k := 0) (fun s t => (Int.add_zero _).symm) (by omega) hn ha hb hr ?_ (eval_ofCond_ult hr ha m)
    exact (ha.eval_add hb m).trans (add_zero (trunc_lt _ _)).symm
  | sub =>
    obtain rfl : b.eval m = v := hleft
    have hr := ha.sub hb
    refine dif_meets (k := 0) (fun s t => (Int.sub_zero _).symm) (by omega) hn ha hb hr ?_ (eval_ofCond_ult ha hb m)
    have hd : Word.sub n (a.eval m) (b.eval m) < 2 ^ n := trunc_lt _ _
    rw [ha.eval_sub hb, sub_eq hd (Nat.two_pow_pos n), if_pos (Nat.zero_le _), Nat.sub_zero]
  | adc => exact adc_flags_meet hn ha hb ho hleft
  | sbb => exact sbb_flags_meet hn ha hb ho hleft
  | logic =>
    -- the result is a word already, so it fits in every way
    have hu := ha.eval_lt m
    refine PcFlags.meets_of hn ha ?_ ?_ ?_ ?_
    · exact ((ofInt_natCast n _).trans (trunc_of_lt hu)).symm
    · rw [eval_lit (by decide), if_pos ⟨Int.natCast_nonneg _, Int.ofNat_lt.2 hu⟩]
    · exact (eval_lit (by decide) m).trans (if_pos (fitsSigned_toInt (by omega) hu)).symm
    · rw [eval_lit (by decide), if_pos]
      change 0 ≤ (a.eval m : Int) % 16 ∧ (a.eval m : Int) % 16 < 16
      omega
  | _ => exact absurd hop (by decide)

end

end

/-! ### Flags by operation code -/

lemma PcOp.decode_size {w k op} (hw : w = 32 ∨ w = 64) (hk : k ≠ 0) (h : PcOp.decode w k = .ok (op, n)) : 8 ≤ n ∧ n ≤ w := by
  have hs : 0 < sizeCount w := by
    rw [sizeCount]
    split_ifs <;> omega
  have hlt : (k - 1) / sizeCount w < PcOp.all.length := by
    by_contra hge
    simp [PcOp.decode, getElem?_eq_none (Nat.not_lt.1 hge)] at h
  have hc : 1 ≤ k ∧ k ≤ 13 * sizeCount w := by
    have := (Nat.div_lt_iff_lt_mul hs).1 hlt
    change k - 1 < 13 * sizeCount w at this
    omega
  obtain ⟨op', n', h', hn⟩ := PcOp.decode_ok hw hc
  cases h.symm.trans h'
  exact hn

def comparing : List Nat := [2, 3, 4, 5, 6, 7, 12, 13, 14, 15]

lemma PcFlags.Compare.condition {f : PcFlags} (hf : f.Sized) {u v cond t m} (hn : 0 < n)
    (hu : u < 2 ^ n) (hv : v < 2 ^ n) (h : f.Compare n m u v) (hcond : cond ∈ comparing)
    (ht : pcCondition cond f.cf f.pf f.zf f.sf f.of = some t) :
    (cond + t.eval m) % 2 = if compares n cond u v then 1 else 0 := by
  have hor := hf.cf.eval_or hf.zf
  have hxor := hf.sf.eval_xor hf.of
  have hle := (hf.sf.xor hf.of).eval_or hf.zf
  have hinj := toInt_inj hn hu hv
  simp only [comparing, mem_cons, not_mem_nil, or_false] at hcond
  rcases hcond with rfl | rfl | rfl | rfl | rfl | rfl | rfl | rfl | rfl | rfl
  all_goals
    cases ht
    simp only [hor, hle, hxor, h.cf, h.zf, h.less, compares]
    simp only [Nat.reduceMod, Nat.reduceBEq, bne_iff_ne, ne_eq, decide_eq_true_eq, decide_eq_false_iff_not]
    split_ifs <;> first | rfl | (omega)

lemma low_neat {a w} (ha : a.Neat w) (hn : 0 < n) (hnw : n ≤ w) :
    low n a = .ok (a.slice (n - 1) 0) ∧ (a.slice (n - 1) 0).Neat n ∧ ∀ m, (a.slice (n - 1) 0).eval m = a.eval m % 2 ^ n :=
  ⟨if_pos (ha.width ▸ hnw), ha.low hn hnw, (ha.toSized.low hn hnw).2⟩

/-- **Flags and exact results.** On both machines, for sums, differences and logical operations at every size of operands: carry
and overflow say that the exact result does not fit as an unsigned and as a signed word, the auxiliary carry that it does not
fit in the low digit, and zero, sign and parity are those of the word that is left of it. Where a carry comes in, the right
operand is left behind with the carry laid over it. After a difference the ten conditions that compare are the comparisons of
its operands. -/
theorem pcFlags_meet {cx : HelperContext} {w : Nat} (hw : w = 32 ∨ w = 64) {code : Bits} {k n : Nat} {op : PcOp}
    (hcode : cx.pick code = .ok k) (hk : k ≠ 0) (hdec : PcOp.decode w k = .ok (op, n)) (hop : op ∈ PcOp.arithmetic)
    {a b old : Bits} (ha : a.Neat w) (hb : b.Neat w) (ho : old.Neat w) : ∃ f, pcFlags cx w code a b old = .ok (.inr f) ∧
      (∀ m y, b.eval m % 2 ^ n = op.rightLeft y (old.eval m % 2) → f.Meets m op n (a.eval m % 2 ^ n) y (old.eval m % 2)) ∧
      (op = .sub → ∀ cond v, cond.symbolic = false → cx.pick cond = .ok v → v ∈ comparing →
        ∃ r, pcCond cx w cond code a b old = .ok (r, []) ∧
          ∀ m, r.eval m = if Word.compares n v (a.eval m % 2 ^ n) (b.eval m % 2 ^ n) then 1 else 0) := by
  obtain ⟨hn, hnw⟩ := PcOp.decode_size hw hk hdec
  obtain ⟨hx, hxn, hxv⟩ := low_neat ha (by omega) hnw
  obtain ⟨hy, hyn, hyv⟩ := low_neat hb (by omega) hnw
  obtain ⟨hz, hzn, hzv⟩ := low_neat ho (by omega) hnw
  have hflags : pcFlags cx w code a b old =
      .ok (.inr (op.flags n (a.slice (n - 1) 0) (b.slice (n - 1) 0) (old.slice (n - 1) 0))) := by
    simp [pcFlags, hcode, hk, hdec, hx, hy, hz]
  have hsized := op.flags_sized hn hxn.toSized hyn.toSized hzn.toSized
  refine ⟨_, hflags, fun m y hleft => ?_, ?_⟩
  · have hcarry : (old.slice (n - 1) 0).eval m % 2 = old.eval m % 2 := by
      rw [hzv]
      exact Nat.mod_mod_of_dvd _ (dvd_pow_self 2 (by omega))
    rw [← hyv, ← hcarry] at hleft
    rw [← hxv, ← hcarry]
    exact PcOp.flags_meet hn hxn hyn hzn hop hleft
  · rintro rfl cond v hs hcond hv
    have hv16 : v < 16 := (show ∀ i ∈ comparing, i < 16 by decide) v hv
    obtain ⟨r, t, hr, ht, hval⟩ := pcCond_direct hflags hsized hs hcond hv16
    refine ⟨r, hr, fun m => ?_⟩
    rw [hval, ← hxv, ← hyv]
    exact (sub_compare (by omega) hxn hyn _ m).condition hsized (by omega) (hxn.eval_lt m) (hyn.eval_lt m) hv ht

/-- The difference of the bytes 127 and 128 overflows: 127 is below 128 as an unsigned byte, and not less as a signed one. -/
theorem pcFlags_meet_byte_overflow :
    ∃ f below less, pcFlags numberContext 64 (.lit 64 5) (.lit 64 127) (.lit 64 128) (.lit 64 0) = .ok (.inr f) ∧
      pcCond numberContext 64 (.lit 64 2) (.lit 64 5) (.lit 64 127) (.lit 64 128) (.lit 64 0) = .ok (below, []) ∧
      pcCond numberContext 64 (.lit 64 12) (.lit 64 5) (.lit 64 127) (.lit 64 128) (.lit 64 0) = .ok (less, []) ∧
      ∀ m, f.cf.eval m = 1 ∧ f.of.eval m = 1 ∧ f.af.eval m = 0 ∧ f.zf.eval m = 0 ∧ f.sf.eval m = 1 ∧ f.pf.eval m = 1 ∧
        below.eval m = 1 ∧ less.eval m = 0 := by
  have number : ∀ {v : Nat}, v < 2 ^ 64 → (Bits.lit 64 v).Neat 64 := neat_lit
  have value : ∀ {v : Nat} (m : Model), v < 2 ^ 64 → (Bits.lit 64 v).eval m = v := fun m h => eval_lit h m
  obtain ⟨f, hf, hmeet, hcomp⟩ := @pcFlags_meet numberContext 64 (.inr rfl) (.lit 64 5) 5 8 .sub rfl (by decide) rfl (by decide)
    (.lit 64 127) (.lit 64 128) (.lit 64 0) (number (by decide)) (number (by decide)) (number (by decide))
  obtain ⟨below, hbelow, hb⟩ := hcomp rfl (.lit 64 2) 2 rfl rfl (by decide)
  obtain ⟨less, hless, hl⟩ := hcomp rfl (.lit 64 12) 12 rfl rfl (by decide)
  refine ⟨f, below, less, hf, hbelow, hless, fun m => ?_⟩
  have h := hmeet m 128 (by rw [value m (by decide), value m (by decide)]; rfl)
  rw [value m (by decide), value m (by decide)] at h
  have hb := hb m
  have hl := hl m
  rw [value m (by decide), value m (by decide)] at hb hl
  exact ⟨h.cf, h.of, h.af, h.zf, h.sf, h.pf, hb, hl⟩

end Flags

end SymExec
