import SymExec.Proofs.PcArith

/-!
# Carry and overflow after steps, shifts and products

The overflow of a step by one is also set where it wraps, shifts are read at the wrong ends, and the high half of a product is gone
before it is looked at.
-/

namespace SymExec

open Nat Word Cond

/-- From the last bit on, a shift leaves copies of the sign. -/
lemma Word.ashr_sign {n v k} (hn : 0 < n) (hv : v < 2 ^ n) (hk : n - 1 ≤ k) :
    ashr n v k = if v.testBit (n - 1) then ones n else 0 := by
  have hpow := Flags.two_pow_eq hn
  have hsmall : ∀ x < 2 ^ (n - 1), x >>> k = 0 := fun x hx => by
    rw [shiftRight_eq_div_pow]
    exact div_eq_of_lt (hx.trans_le (Nat.pow_le_pow_right (by decide) hk))
  rw [ashr, isNeg, bne_iff_ne.2 hn.ne', Bool.true_and, Flags.testBit_top hn hv, lshr, ones]
  split_ifs with hneg <;> rw [decide_eq_true_eq] at hneg
  · rw [hsmall _ (by omega), Nat.sub_zero]
  · exact hsmall v (by omega)

namespace Bits

variable {a b : Bits} {n k : Nat} {m : Model}

def isLit : Bits → Bool
  | .lit .. => true
  | _ => false

/-- The sign that a long shift leaves; a number loses even that if it is shifted by its width. -/
lemma Neat.eval_ashr_sign (ha : a.Neat n) (hn : 1 < n) (hk : n - 1 ≤ k) (hkn : k ≤ n) : (a.ashr (.ofNat n k)).eval m =
    if (a.eval m).testBit (n - 1) ∧ (a.isLit → k < n) then ones n else 0 := by
  have hv : trunc n k = k := trunc_of_lt (hkn.trans_lt Nat.lt_two_pow_self)
  have hs := ashr_sign (by omega) (ha.eval_lt m) hk
  rw [ofNat, hv]
  by_cases hlit : a.isLit
  · cases a <;> cases hlit
    rename_i w v
    obtain rfl : w = n := ha.width
    rw [eval_lit ha.valid] at hs ⊢
    change (lit w (if k < w then Word.ashr w v k else 0)).eval m = _
    rw [hs, eval_lit (by split_ifs <;> simp [ones])]
    simp only [isLit, forall_const, and_comm, ite_and]
  · have hb : (lit n k).Valid := hv ▸ trunc_lt n k
    have hashr : a.ashr (.lit n k) = mkBin .ashr a (.lit n k) := by
      cases a <;> first | exact absurd rfl hlit | (cases k <;> [omega; rfl])
    rw [hashr, (mkBin_agrees .ashr ha.valid hb (.inr ha.width)).eval m, eval, eval_lit hb, show (lit n k).width = n from rfl,
      ha.width]
    exact hs.trans (if_congr (by simp [hlit]) rfl rfl)

end Bits

namespace Flags

open Bits

/-- Steps by one, shifts and products. -/
def PcOp.stepping : List PcOp := [.inc, .dec, .shl, .shr, .umul, .smul]

/-- The carry that comes of what is left behind and of the old carry; `known` says that the product is a number. -/
def PcOp.carryOut (op : PcOp) (n : Nat) (known : Bool) (x y c : Nat) : Nat :=
  let sign := ((mul n x y).testBit (n - 1)).toNat
  match op with
  | .shl => (x.testBit (n - 1)).toNat
  | .shr => y % 2
  | .umul => if known then 0 else sign
  | .smul => if known then sign else 0
  | _ => c

def PcOp.overflowOut (op : PcOp) (n : Nat) (known : Bool) (x y c : Nat) : Nat :=
  match op with
  | .inc => if x = 0 ∨ x = 2 ^ (n - 1) then 1 else 0
  | .dec => if x + 1 = 2 ^ n ∨ x + 1 = 2 ^ (n - 1) then 1 else 0
  | .shl | .shr => (x ^^^ y) % 2
  | _ => op.carryOut n known x y c

section
variable {op : PcOp} {n : Nat} {a b old : Bits} {m : Model}

lemma eval_low_bit (ha : a.Neat n) (hn : 0 < n) : (bit a 0).eval m = a.eval m % 2 := by
  rw [eval_bit ha.toSized hn, toNat_testBit, Nat.div_one]

/-- The overflow of a step: the sign of the result is not that of the word before. -/
lemma eval_step_overflow {x} (hn : 0 < n) (ha : a.Neat n) (hx : x.Neat n) :
    (mkIte (.eq (bit a (n - 1)) (bit x (n - 1))) (.lit 1 0) (.lit 1 1)).eval m =
      if 2 ^ (n - 1) ≤ a.eval m ↔ 2 ^ (n - 1) ≤ x.eval m then 0 else 1 := by
  have neat : ∀ {y}, y.Neat n → (bit y (n - 1)).Neat 1 := fun hy => by
    have h := hy.slice (le_refl (n - 1)) (by omega)
    rwa [Nat.add_sub_cancel_left] at h
  rw [eval_mkIte (sized_lit (by decide)) (sized_lit (by decide)), (eq_spec (neat ha) (neat hx)).2, eval_bit ha.toSized (by omega),
    eval_bit hx.toSized (by omega), testBit_top hn (ha.eval_lt m), testBit_top hn (hx.eval_lt m), eval_lit (by decide),
    eval_lit (by decide)]
  by_cases h : 2 ^ (n - 1) ≤ a.eval m <;> by_cases h' : 2 ^ (n - 1) ≤ x.eval m <;> simp [h, h']

/-- The carry of a product, from what is left of it after a shift by its width: not zero, or not copies of the sign. -/
lemma eval_product_carry (hn : 8 ≤ n) {r : Bits} (hr : r.Neat n) (m) :
    (ofCond (nonzero (r.ashr (ofNat n n)))).eval m = (if r.isLit then 0 else ((r.eval m).testBit (n - 1)).toNat) ∧
    (ofCond (ne (r.ashr (ofNat n n)) (r.ashr (ofNat n (n - 1))))).eval m =
      if r.isLit then ((r.eval m).testBit (n - 1)).toNat else 0 := by
  have hall := hr.ashr (neat_ofNat n n)
  have hsign := hr.ashr (neat_ofNat n (n - 1))
  have hones : 0 ≠ Word.ones n := (Nat.sub_pos_of_lt (Nat.one_lt_two_pow (by omega))).ne
  rw [eval_ofCond, eval_ofCond, ne, eval_mkNot (eq_spec hall hsign).1, (eq_spec hall hsign).2]
  simp only [eval_nonzero hall.formed, hr.eval_ashr_sign (show 1 < n by omega) (sub_le n 1) (le_refl n),
    hr.eval_ashr_sign (show 1 < n by omega) (le_refl _) (sub_le n 1), lt_irrefl, show n - 1 < n by omega]
  cases r.isLit <;> cases (r.eval m).testBit (n - 1) <;> simp [hones, hones.symm]

lemma PcOp.flags_outs (hop : op ∈ PcOp.stepping) (hn : 8 ≤ n) (ha : a.Neat n) (hb : b.Neat n) (ho : old.Neat n) (m) :
    (op.flags n a b old).cf.eval m = op.carryOut n (a.mul b).isLit (a.eval m) (b.eval m) (old.eval m % 2) ∧
    (op.flags n a b old).of.eval m = op.overflowOut n (a.mul b).isLit (a.eval m) (b.eval m) (old.eval m % 2) := by
  have hone := neat_ofNat n 1
  have hval : (Bits.ofNat n 1).eval m = 1 := (eval_ofNat n 1 m).trans (trunc_of_lt (Nat.one_lt_two_pow (by omega)))
  have hu := ha.eval_lt m
  have hpow := two_pow_eq (n := n) (by omega)
  have hcarry := eval_low_bit (m := m) ho (by omega)
  obtain ⟨humul, hsmul⟩ := eval_product_carry hn (ha.mul hb) m
  rw [show (a.mul b).eval m = mul n (a.eval m) (b.eval m) from
    ha.width ▸ (mul_agrees ha.valid hb.valid (ha.toSized.widths hb)).eval m] at humul hsmul
  have hodd : ((bit a 0).xor (bit b 0)).eval m = (a.eval m ^^^ b.eval m) % 2 := by
    rw [(bit_sized ha.toSized (by omega)).eval_xor (bit_sized hb.toSized (by omega)), eval_low_bit ha (by omega),
      eval_low_bit hb (by omega)]
    exact (xor_mod_two_pow (n := 1)).symm
  cases op with
  | inc =>
    refine ⟨hcarry, (eval_step_overflow (by omega) ha (ha.sub hone)).trans ?_⟩
    rw [ha.toSized.eval_sub hone, hval, sub_eq hu (by omega), overflowOut]
    split_ifs <;> first | rfl | (omega)
  | dec =>
    refine ⟨hcarry, (eval_step_overflow (by omega) ha (ha.add hone)).trans ?_⟩
    rw [ha.toSized.eval_add hone, hval, Word.add, trunc, add_mod_eq_ite, mod_eq_of_lt hu, mod_eq_of_lt (by omega), overflowOut]
    split_ifs <;> first | rfl | (omega)
  | shl => exact ⟨eval_bit ha.toSized (by omega) m, hodd⟩
  | shr =>
    refine ⟨?_, hodd⟩
    change (ofCond (nonzero (b.and (Bits.ofNat n 1)))).eval m = b.eval m % 2
    rw [eval_ofCond]
    simp only [eval_nonzero (hb.and hone).formed, hb.toSized.eval_and hone.toSized, hval, and_one_is_mod]
    split_ifs <;> omega
  | umul => exact ⟨humul, humul⟩
  | smul => exact ⟨hsmul, hsmul⟩
  | _ => exact absurd hop (by decide)

end

/-- **Carry and overflow of steps, shifts and products**, on both machines and at every size of operands. -/
theorem pcFlags_outs {cx : HelperContext} {w : Nat} (hw : w = 32 ∨ w = 64) {code : Bits} {k n : Nat} {op : PcOp}
    (hcode : cx.pick code = .ok k) (hk : k ≠ 0) (hdec : PcOp.decode w k = .ok (op, n)) (hop : op ∈ PcOp.stepping)
    {a b old : Bits} (ha : a.Neat w) (hb : b.Neat w) (ho : old.Neat w) : ∃ f, pcFlags cx w code a b old = .ok (.inr f) ∧
      let known := ((a.slice (n - 1) 0).mul (b.slice (n - 1) 0)).isLit
      ∀ m, f.cf.eval m = op.carryOut n known (a.eval m % 2 ^ n) (b.eval m % 2 ^ n) (old.eval m % 2) ∧
        f.of.eval m = op.overflowOut n known (a.eval m % 2 ^ n) (b.eval m % 2 ^ n) (old.eval m % 2) := by
  obtain ⟨hn, hnw⟩ := PcOp.decode_size hw hk hdec
  obtain ⟨hx, hxn, hxv⟩ := low_neat ha (by omega) hnw
  obtain ⟨hy, hyn, hyv⟩ := low_neat hb (by omega) hnw
  obtain ⟨hz, hzn, hzv⟩ := low_neat ho (by omega) hnw
  refine ⟨op.flags n (a.slice (n - 1) 0) (b.slice (n - 1) 0) (old.slice (n - 1) 0), ?_, fun m => ?_⟩
  · simp [pcFlags, hcode, hk, hdec, hx, hy, hz]
  · have hcarry := Nat.mod_mod_of_dvd (old.eval m) (dvd_pow_self 2 (show n ≠ 0 by omega))
    rw [← hxv, ← hyv, ← hcarry, ← hzv]
    exact PcOp.flags_outs hop hn hxn hyn hzn m

/-- A step up to zero sets the overflow flag of a byte. -/
theorem pcFlags_outs_inc_zero : ∃ f, pcFlags numberContext 64 (.lit 64 21) (.lit 64 0) (.lit 64 0) (.lit 64 1) = .ok (.inr f) ∧
    ∀ m, f.cf.eval m = 1 ∧ f.of.eval m = 1 := by
  have number : ∀ {v : Nat}, v < 2 ^ 64 → (Bits.lit 64 v).Neat 64 := neat_lit
  obtain ⟨f, hf, h⟩ := @pcFlags_outs numberContext 64 (.inr rfl) (.lit 64 21) 21 8 .inc rfl (by decide) rfl (by decide)
    (.lit 64 0) (.lit 64 0) (.lit 64 1) (number (by decide)) (number (by decide)) (number (by decide))
  refine ⟨f, hf, fun m => ?_⟩
  have h := h m
  rw [eval_lit (by decide), eval_lit (by decide)] at h
  exact h

end Flags

end SymExec
