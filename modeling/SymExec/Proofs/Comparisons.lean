import SymExec.Proofs.Conditions
import SymExec.Proofs.Flags

/-!
# Conditions answered from operands

Some conditions of the PC can be answered by comparing operands, without flags.
-/

namespace SymExec

open Word Cond

/-! ### Formed vectors -/

namespace Bits

@[simp] def Inner : Bits → Prop
  | .lit .. | .sym .. => True
  | .un _ a => a.Inner
  | .bin _ a b => a.Inner ∧ b.Inner
  | .ite c a b => c.Formed ∧ a.Inner ∧ b.Inner
  | .ofFloat _ f => f.Formed

lemma formed_iff {a : Bits} : a.Formed ↔ a.Valid ∧ a.Inner := by
  induction a using Inner.induct <;> simp_all only [Formed, Valid, Inner] <;> tauto

section
variable {a b : Bits} (ha : a.Inner) (hb : b.Inner)
include ha

lemma inner_mkUn (op) : (mkUn op a).Inner := by fun_cases mkUn op a <;> simp_all [Inner]

lemma inner_zext (n) : (zext n a).Inner := by fun_cases zext n a <;> simp_all [Inner, inner_mkUn]

include hb

lemma inner_mkBin (op) : (mkBin op a b).Inner := by fun_cases mkBin op a b <;> simp_all [Inner]

lemma inner_snoc : (snoc a b).Inner := by
  fun_cases snoc a b <;> simp_all [Inner]
  split <;> simp_all [Inner]

lemma inner_concat : (concat a b).Inner := by fun_induction concat a b <;> simp_all [Inner, inner_snoc]

lemma inner_add : (add a b).Inner := by fun_cases add a b <;> simp_all [Inner]

lemma inner_sub : (sub a b).Inner := by
  fun_cases sub a b with
  | case1 => exact inner_add ha trivial
  | case2 => rw [if_pos rfl]; trivial
  | case3 _ hab => rw [if_neg hab]; exact inner_mkBin ha hb _

lemma inner_mul : (mul a b).Inner := by fun_cases mul a b <;> simp_all [Inner]

lemma inner_and : (a.and b).Inner := by fun_cases Bits.and a b <;> simp_all [Inner]

lemma inner_xor : (a.xor b).Inner := by fun_cases Bits.xor a b <;> simp_all [Inner]

lemma inner_shift (op) : (shift op a b).Inner := by fun_cases shift op a b <;> simp_all [inner_mkBin]

lemma inner_ashr : (ashr a b).Inner := by fun_cases ashr a b <;> simp_all [Inner, inner_shift]

omit hb

lemma inner_reverse : (reverse a).Inner := by fun_induction reverse a <;> simp_all [Inner, inner_mkUn, inner_concat]

lemma inner_slice (hi lo : Nat) : (slice hi lo a).Inner := by
  fun_induction slice hi lo a <;> simp_all [Inner, inner_mkUn, inner_mkBin, inner_concat, inner_zext, inner_reverse]

end

/-- A vector of a width, with the conditions inside it formed. -/
structure Neat (a : Bits) (n : Nat) : Prop extends a.Sized n where
  inner : a.Inner

variable {a b : Bits} {n : Nat}

instance : CoeOut (a.Neat n) (a.Sized n) := ⟨Neat.toSized⟩

lemma Neat.formed (h : a.Neat n) : a.Formed := formed_iff.2 ⟨h.valid, h.inner⟩

lemma neat_lit {w v} (h : v < 2 ^ w) : (lit w v).Neat w := ⟨sized_lit h, trivial⟩

lemma neat_ofNat (w v) : (ofNat w v).Neat w := ⟨sized_ofNat w v, trivial⟩

section
variable (ha : a.Neat n)
include ha

lemma Neat.slice {hi lo} (hl : lo ≤ hi) (hh : hi < n) : (a.slice hi lo).Neat (hi + 1 - lo) :=
  ⟨ha.toSized.slice hl hh, inner_slice ha.inner _ _⟩

lemma Neat.zext (k) : (a.zext k).Neat (n + k) := ⟨ha.toSized.zext k, inner_zext ha.inner k⟩

lemma Neat.low (hk : 0 < k) (hkn : k ≤ n) : (a.slice (k - 1) 0).Neat k := ⟨(ha.toSized.low hk hkn).1, inner_slice ha.inner _ _⟩

variable (hb : b.Neat n)
include hb

lemma Neat.add : (a.add b).Neat n := ⟨ha.toSized.add hb, inner_add ha.inner hb.inner⟩

lemma Neat.sub : (a.sub b).Neat n := ⟨ha.toSized.sub hb, inner_sub ha.inner hb.inner⟩

lemma Neat.mul : (a.mul b).Neat n := ⟨ha.toSized.mul hb, inner_mul ha.inner hb.inner⟩

lemma Neat.and : (a.and b).Neat n := ⟨ha.toSized.and hb, inner_and ha.inner hb.inner⟩

lemma Neat.xor : (a.xor b).Neat n := ⟨ha.toSized.xor hb, inner_xor ha.inner hb.inner⟩

lemma Neat.ashr : (a.ashr b).Neat n := ⟨ashr_sized ha hb, inner_ashr ha.inner hb.inner⟩

lemma Neat.shl : (a.shl b).Neat n := by
  refine ⟨?_, inner_shift ha.inner hb.inner _⟩
  unfold Bits.shl
  fun_cases shift .shl a b
  · exact ha.toSized
  · exact (mkBin_agrees .shl ha.valid hb.valid (.inr (ha.toSized.widths hb))).sized ha.width

end

end Bits

/-! ### Equality of vectors -/

namespace Cond

variable {a b : Bits} {n : Nat}

lemma eval_concat_mod {x w v k} (h : (Bits.bin .concat x (.lit w v)).Valid) (hk : k ≤ w) (m) :
    (Bits.bin .concat x (.lit w v)).eval m % 2 ^ k = v % 2 ^ k := by
  have hv : v < 2 ^ w := h.2.1
  rw [Bits.eval, Bits.eval_lit hv]
  change (x.eval m <<< w ||| v) % 2 ^ k = _
  rw [Nat.or_mod_two_pow, Nat.shiftLeft_eq, ← Nat.add_sub_cancel' hk, pow_add, mul_left_comm, Nat.mul_mod_right, Nat.zero_or]

lemma ne_of_ends (ha : a.Valid) (hb : b.Valid) (hna : ∀ w v, a = .lit w v → False) (hnb : ∀ w v, b = .lit w v → False)
    (h : lowBitsDiffer a b = true) (m) : a.eval m ≠ b.eval m := by
  revert h
  fun_cases lowBitsDiffer a b with
  | case1 => exact absurd rfl (hnb _ _)
  | case2 => exact absurd rfl (hna _ _)
  | case3 _ w v _ w' v' =>
    intro h he
    refine bne_iff_ne.1 h ?_
    rw [trunc, trunc, ← eval_concat_mod ha (Nat.min_le_left ..) m, he, eval_concat_mod hb (Nat.min_le_right ..) m]
  | case4 => exact fun h => absurd h Bool.false_ne_true

lemma eq_spec (ha : a.Neat n) (hb : b.Neat n) : (eq a b).Formed ∧ ∀ m, (eq a b).eval m = (a.eval m == b.eval m) := by
  fun_cases eq a b with
  | case1 w v =>
    have hv : v < 2 ^ w := ha.valid
    have hw : b.width = w := hb.width.trans ha.width.symm
    refine ⟨formed_eqLit hb.formed hw hv, fun m => ?_⟩
    rw [eval_eqLit hb.formed hw hv, Bits.eval_lit hv, Bool.beq_comm]
  | case2 _ w v =>
    have hv : v < 2 ^ w := hb.valid
    have hw : a.width = w := ha.width.trans hb.width.symm
    refine ⟨formed_eqLit ha.formed hw hv, fun m => ?_⟩
    rw [eval_eqLit ha.formed hw hv, Bits.eval_lit hv]
  | case3 x => exact ⟨trivial, fun m => (beq_self_eq_true _).symm⟩
  | case4 x y =>
    obtain ⟨hx, h8⟩ := ha.formed
    obtain ⟨hy, -⟩ := hb.formed
    have hw : x.width = y.width := ha.width.trans hb.width.symm
    have h8 : 8 * (x.width / 8) = x.width := Nat.mul_div_cancel' (Nat.dvd_of_mod_eq_zero h8)
    refine ⟨⟨hx, hy, hw⟩, fun m => ?_⟩
    have hlt : x.eval m < 2 ^ (8 * (x.width / 8)) := h8.symm ▸ Bits.eval_lt hx.valid m
    have hlt' : y.eval m < 2 ^ (8 * (x.width / 8)) := h8.symm ▸ hw ▸ Bits.eval_lt hy.valid m
    change (x.eval m == y.eval m) = (reverseBytes (x.width / 8) (x.eval m) == reverseBytes (y.width / 8) (y.eval m))
    rw [← hw, ← reverse_beq hlt (reverseBytes_lt _ _), Bits.reverseBytes_reverseBytes hlt']
  | case5 =>
    rw [if_pos rfl]
    exact ⟨trivial, fun m => (beq_self_eq_true _).symm⟩
  | case6 _ _ hne hdiff hna hnb =>
    rw [if_neg hne, if_pos hdiff]
    refine ⟨trivial, fun m => (beq_eq_false_iff_ne.2 ?_).symm⟩
    exact ne_of_ends ha.valid hb.valid hna hnb hdiff m
  | case7 _ _ hne hdiff =>
    rw [if_neg hne, if_neg hdiff]
    exact ⟨⟨ha.formed, hb.formed, ha.toSized.widths hb⟩, fun m => rfl⟩

end Cond

namespace Flags

open Bits

variable {op : PcOp} {a b x y : Bits} {n u v : Nat}

/-! ### Words in flags -/

lemma PcOp.result_neat {r} (ha : a.Neat n) (hb : b.Neat n) (h : op.result a b = some r) : r.Neat n := by
  have hone : (Bits.ofNat a.width 1).Neat n := ha.width ▸ neat_ofNat _ 1
  cases op <;> cases h
  · exact ha.add hb
  · exact ha.sub hb
  · exact ha
  · exact ha.add hone
  · exact ha.sub hone
  · exact ha.shl hb
  · exact ha.ashr hb

lemma eval_bit {i} (ha : a.Sized n) (hi : i < n) (m) : (bit a i).eval m = ((a.eval m).testBit i).toNat := by
  rw [bit, (slice_agrees i i ha.valid le_rfl (ha.width.symm ▸ hi)).eval m]
  change trunc (i + 1 - i) (a.eval m >>> i) = _
  rw [Nat.add_sub_cancel_left, trunc, Nat.shiftRight_eq_div_pow, Nat.toNat_testBit]

lemma testBit_top (hn : 0 < n) (hv : v < 2 ^ n) : v.testBit (n - 1) = decide (2 ^ (n - 1) ≤ v) := by
  obtain ⟨k, rfl⟩ := Nat.exists_eq_add_of_le' hn
  rw [Nat.add_sub_cancel, Nat.testBit_eq_decide_div_mod_eq]
  have hdiv : v / 2 ^ k < 2 := Nat.div_lt_of_lt_mul (pow_succ 2 k ▸ hv)
  have hone := Nat.one_le_div_iff (a := v) (Nat.two_pow_pos k)
  rw [Nat.mod_eq_of_lt hdiv, decide_eq_decide]
  omega

lemma toInt_eq (hn : 0 < n) (hv : v < 2 ^ n) : toInt n v = if 2 ^ (n - 1) ≤ v then (v : Int) - (2 ^ n : Nat) else v := by
  rw [toInt, isNeg, testBit_top hn hv]
  simp [hn.ne']

lemma toInt_inj (hn : 0 < n) (hu : u < 2 ^ n) (hv : v < 2 ^ n) : toInt n u = toInt n v ↔ u = v := by
  rw [toInt_eq hn hu, toInt_eq hn hv]
  split_ifs <;> omega

lemma two_pow_eq (hn : 0 < n) : 2 ^ n = 2 * 2 ^ (n - 1) := by rw [← pow_succ', Nat.sub_add_cancel hn]

lemma eval_ofCond_slt_zero (ha : a.Sized n) (hn : 0 < n) (m : Model) :
    (ofCond (slt a (.lit n 0))).eval m = (bit a (n - 1)).eval m := by
  have h0 := Nat.two_pow_pos n
  have hv := ha.eval_lt m
  have hpow := two_pow_eq hn
  rw [eval_ofCond, slt, eval_mkCmp .slt ha.valid (valid_zero n), ha.width, eval_lit h0, eval_bit ha (by omega), testBit_top hn hv]
  simp only [CmpOp.apply, toInt_eq hn hv, toInt_eq hn h0, decide_eq_true_eq]
  by_cases h : 2 ^ (n - 1) ≤ a.eval m <;> simp only [h, decide_true, decide_false, if_true, if_false] <;> split_ifs <;>
    first | rfl | (omega)

/-- How flags tell two words of `n` bits apart: carry says "below", zero "equal", and sign and overflow differ for "less". -/
structure PcFlags.Compare (f : PcFlags) (n : Nat) (m : Model) (u v : Nat) : Prop where
  cf : f.cf.eval m = if u < v then 1 else 0
  zf : f.zf.eval m = if u = v then 1 else 0
  less : f.sf.eval m ^^^ f.of.eval m = if toInt n u < toInt n v then 1 else 0

lemma eval_isZero (ha : a.Formed) (m : Model) : (isZero a).eval m = if a.eval m = 0 then 1 else 0 := by
  rw [isZero, eval_ofCond, eval_eqNat ha (Nat.two_pow_pos _)]
  simp

lemma sub_eq (hu : u < 2 ^ n) (hv : v < 2 ^ n) : Word.sub n u v = if v ≤ u then u - v else u + 2 ^ n - v := by
  rw [Word.sub, trunc_of_lt hv, trunc]
  split_ifs with h
  · rw [show u + (2 ^ n - v) = u - v + 2 ^ n by omega, Nat.add_mod_right, Nat.mod_eq_of_lt (by omega)]
  · rw [Nat.mod_eq_of_lt (by omega)]
    omega

/-- Of two words one is less than the other when the sign of their difference is not what overflow says. -/
lemma sub_less {n u v} (hn : 0 < n) (hu : u < 2 ^ n) (hv : v < 2 ^ n) :
    ((sub n u v).testBit (n - 1)).toNat ^^^ (((u ^^^ v) &&& (u ^^^ sub n u v)).testBit (n - 1)).toNat =
      if toInt n u < toInt n v then 1 else 0 := by
  have hr : sub n u v < 2 ^ n := trunc_lt _ _
  have hpow := two_pow_eq hn
  have heq := sub_eq hu hv
  simp only [Nat.testBit_and, Nat.testBit_xor, testBit_top hn hu, testBit_top hn hv, testBit_top hn hr, toInt_eq hn hu, toInt_eq hn hv]
  generalize sub n u v = r at *
  by_cases hU : 2 ^ (n - 1) ≤ u <;> by_cases hV : 2 ^ (n - 1) ≤ v <;> by_cases hR : 2 ^ (n - 1) ≤ r <;>
    simp only [hU, hV, hR, decide_true, decide_false, if_true, if_false] <;> split_ifs at * <;> first | rfl | (omega)

lemma ult_eval (hx : x.Neat n) (hy : y.Neat n) {m} : (ult x y).eval m = decide (x.eval m < y.eval m) :=
  eval_mkCmp .ult hx.valid hy.valid m

lemma ule_eval (hx : x.Neat n) (hy : y.Neat n) {m} : (ule x y).eval m = decide (x.eval m ≤ y.eval m) :=
  eval_mkCmp .ule hx.valid hy.valid m

lemma sub_compare (hn : 0 < n) (hx : x.Neat n) (hy : y.Neat n) (z : Bits) (m) :
    (PcOp.sub.flags n x y z).Compare n m (x.eval m) (y.eval m) := by
  have hr := hx.sub hy
  have hu := hx.eval_lt m
  have hv := hy.eval_lt m
  have he := hx.toSized.eval_sub hy.toSized m
  refine ⟨?_, ?_, ?_⟩
  · change (ofCond (ult x y)).eval m = _
    rw [eval_ofCond, ult_eval hx hy]
    simp
  · change (isZero (x.sub y)).eval m = _
    rw [eval_isZero hr.formed, he]
    rw [sub_eq hu hv]
    split_ifs <;> omega
  · change (bit (x.sub y) (n - 1)).eval m ^^^ (bit ((x.xor y).and (x.xor (x.sub y))) (n - 1)).eval m = _
    have hxy := hx.xor hy
    have hxr := hx.xor hr
    rw [eval_bit hr.toSized (by omega), eval_bit (hxy.and hxr).toSized (by omega), hxy.eval_and hxr, hx.eval_xor hy, hx.eval_xor hr, he]
    exact sub_less hn hu hv

lemma logic_compare {r : Bits} (hn : 0 < n) (hr : r.Neat n) (y z : Bits) (m) :
    (PcOp.logic.flags n r y z).Compare n m (r.eval m) 0 := by
  refine ⟨eval_lit (by decide) m, eval_isZero hr.formed m, ?_⟩
  change (bit r (n - 1)).eval m ^^^ (lit 1 0).eval m = _
  rw [eval_lit (by decide), ← eval_ofCond_slt_zero hr hn, eval_ofCond, slt,
    eval_mkCmp .slt hr.valid (valid_zero n), hr.width, eval_zero]
  simp [CmpOp.apply]

/-! ### Answers -/

/-- The conditions that a comparison of operands answers. -/
def comparisons : List Nat := [2, 4, 5, 6, 7, 12, 14, 15]

lemma comparison_eval {f : PcFlags} (hf : f.Sized) (hn : 0 < n) (hx : x.Neat n) (hy : y.Neat n)
    (hcmp : ∀ m, f.Compare n m (x.eval m) (y.eval m)) (hv : v ∈ comparisons) :
    ∃ c t, comparison (pcCondNames.getD v "") x y = some c ∧ pcCondition v f.cf f.pf f.zf f.sf f.of = some t ∧
      ∀ m, (ofCond c).eval m = (v + t.eval m) % 2 := by
  obtain ⟨hformed, heq⟩ := eq_spec hx hy
  have cmp : ∀ (op) {a b}, a.Neat n → b.Neat n → ∀ m,
      (mkCmp op a b).eval m = op.apply n (a.eval m) (b.eval m) := fun op a b ha hb m => by
    rw [eval_mkCmp op ha.valid hb.valid, ha.width]
  have hor := hf.cf.eval_or hf.zf
  have hxor := hf.sf.eval_xor hf.of
  have hle := (hf.sf.xor hf.of).eval_or hf.zf
  simp only [comparisons, List.mem_cons, List.not_mem_nil, or_false] at hv
  rcases hv with rfl | rfl | rfl | rfl | rfl | rfl | rfl | rfl
  all_goals
    refine ⟨_, _, rfl, rfl, fun m => ?_⟩
    have hinj := toInt_inj hn (hx.eval_lt m) (hy.eval_lt m)
    simp only [eval_ofCond, ne, ult, ule, ugt, slt, sle, sgt, eval_mkNot hformed,
      heq, cmp _ hx hy, cmp _ hy hx, CmpOp.apply, hor, hle, hxor, (hcmp m).cf, (hcmp m).zf, (hcmp m).less,
      decide_eq_true_eq, beq_iff_eq, Bool.not_eq_true', beq_eq_false_iff_ne]
    split_ifs <;> first | rfl | (omega)

/-- The conditions that are answered from operands: comparisons, and the sign of a result. -/
def answered : List Nat := 8 :: comparisons

/-- The operations whose conditions are answered from operands. -/
def comparable : List PcOp := [.sub, .dec, .inc, .shr, .shl, .add, .logic]

def PcOp.shortcut (op : PcOp) (n : Nat) (x y z : Bits) : Option PcFlags :=
  if op = .sub then some (PcOp.sub.flags n x y z) else (op.result x y).map fun r => PcOp.logic.flags n r y z

def PcOp.answer (op : PcOp) (n v : Nat) (x y : Bits) : Option Cond :=
  if v = 8 then (op.result x y).map fun r => .slt r (.lit n 0)
  else if op = .sub then comparison (pcCondNames.getD v "") x y
  else (op.result x y).bind fun r => comparison (pcCondNames.getD v "") r (.lit n 0)

lemma pcCondSimple_run {cx w c cond code}
    (hs : cond.symbolic = false) (hcond : cx.pick cond = .ok v) (hv : v < 16) (hcode : cx.pick code = .ok c)
    (hc : 1 ≤ c ∧ c ≤ 13 * sizeCount w) (hop : PcOp.decode w c = .ok (op, n)) (hx : low n a = .ok x) (hy : low n b = .ok y) :
    pcCondSimple cx w cond code a b = match op.answer n v x y with
      | some c => .ok ((lit (cx.wordBits - 1) 0).concat (ofCond c), [])
      | none => .error (.of .badKey) := by
  have h0 : c ≠ 0 := by omega
  have h1 : c ≠ 13 * sizeCount w + 1 := by omega
  have hname : pcCondNames.getD v "" = "S" ↔ v = 8 := by interval_cases v <;> decide
  simp only [pcCondSimple, hs, hcond, hcode, h0, h1, hop, hx, hy, ok_bind, pure_eq_ok, PcOp.answer, hname]
  by_cases hsub : op = .sub
  · subst hsub
    by_cases h8 : v = 8
    · simp [h8, PcOp.result]
    · simp [h8]
      rfl
  · cases op.result x y <;> by_cases h8 : v = 8 <;> simp [h8, hsub] <;> rfl

lemma PcOp.result_isSome (h : op ∈ comparable) (x y) : ∃ r, op.result x y = some r := by
  cases op <;> first | exact ⟨_, rfl⟩ | exact absurd h (by decide)

lemma PcOp.result_eq_none (h : op ∉ comparable) (x y) : op.result x y = none := by
  cases op <;> first | rfl | exact absurd h (by decide)

lemma PcOp.answer_spec (hn : 8 ≤ n) {z : Bits} (hx : x.Neat n) (hy : y.Neat n) (hz : z.Sized n) (hop : op ∈ comparable)
    (hv : v ∈ answered) : ∃ c f t, op.answer n v x y = some c ∧ op.shortcut n x y z = some f ∧
    pcCondition v f.cf f.pf f.zf f.sf f.of = some t ∧ ∀ m, (ofCond c).eval m = (v + t.eval m) % 2 := by
  obtain ⟨r, hr⟩ := op.result_isSome hop x y
  have hrn := PcOp.result_neat hx hy hr
  have sign : ∀ m, (ofCond (slt r (.lit n 0))).eval m = (8 + (bit r (n - 1)).eval m) % 2 := fun m => by
    have hlt := (bit_sized hrn.toSized (show n - 1 < n by omega)).eval_lt m
    rw [eval_ofCond_slt_zero hrn (by omega)]
    omega
  have hzero : (lit n 0).Neat n := ⟨sized_zero n, trivial⟩
  rw [answer, shortcut, hr]
  by_cases hsub : op = .sub
  · subst hsub
    cases hr
    rcases List.mem_cons.1 hv with rfl | hv
    · exact ⟨_, _, _, rfl, rfl, rfl, sign⟩
    · obtain ⟨c, t, hc, ht, he⟩ := comparison_eval (PcOp.sub.flags_sized hn hx hy hz) (by omega) hx hy
        (sub_compare (by omega) hx hy z) hv
      exact ⟨c, _, t, by rw [if_neg (by rintro rfl; exact absurd hv (by decide)), if_pos rfl, hc], rfl, ht, he⟩
  · rw [if_neg hsub, if_neg hsub]
    rcases List.mem_cons.1 hv with rfl | hv
    · exact ⟨_, _, _, rfl, rfl, rfl, sign⟩
    · obtain ⟨c, t, hc, ht, he⟩ := comparison_eval (PcOp.logic.flags_sized hn hrn hy hz) (by omega) hrn hzero
        (fun m => by exact logic_compare (by omega) hrn y z m) hv
      exact ⟨c, _, t, by rw [if_neg (by rintro rfl; exact absurd hv (by decide)), Option.bind_some, hc], rfl, ht, he⟩

lemma PcOp.answer_eq_none (hv : v < 16) (h : ¬ (op ∈ comparable ∧ v ∈ answered)) (n : Nat) (x y) : op.answer n v x y = none := by
  rcases not_and_or.1 h with hop | hnv
  · have hsub : op ≠ .sub := by rintro rfl; exact hop (by decide)
    simp [answer, result_eq_none hop, hsub]
  · have hnone : ∀ a b, comparison (pcCondNames.getD v "") a b = none := fun a b => by
      interval_cases v <;> first | rfl | exact absurd hnv (by decide)
    have h8 : v ≠ 8 := by rintro rfl; exact hnv (by decide)
    simp only [answer, hnone, if_neg h8, Option.bind_fun_none, ite_self]

/-- **Conditions answered from operands.** On both machines, for every operation at every size of operands and each of the
16 conditions: an answer from the operands is given exactly for seven operations and nine conditions. It is then the
condition in the flags of the operation for a subtraction, and in those of a logical operation with the same result for the
others. So it is the condition from the operation's own flags after subtractions and logical operations, and "zero", "not
zero" and "negative" also after additions. -/
theorem pcCondSimple_eq_flags {cx : HelperContext} {w : Nat} (hw : w = 32 ∨ w = 64) {code cond : Bits} {c v : Nat}
    (hcode : cx.pick code = .ok c) (hc : 1 ≤ c ∧ c ≤ 13 * sizeCount w) (hs : cond.symbolic = false)
    (hcond : cx.pick cond = .ok v) (hv : v < 16) {a b old : Bits} (ha : a.Neat w) (hb : b.Neat w) (ho : old.Sized w) :
    ∃ op n x y z direct, PcOp.decode w c = .ok (op, n) ∧ low n a = .ok x ∧ low n b = .ok y ∧ low n old = .ok z ∧
      pcCond cx w cond code a b old = .ok (direct, []) ∧ if op ∈ comparable ∧ v ∈ answered then
        ∃ r f t, pcCondSimple cx w cond code a b = .ok (r, []) ∧ op.shortcut n x y z = some f ∧
          pcCondition v f.cf f.pf f.zf f.sf f.of = some t ∧ (∀ m, r.eval m = (v + t.eval m) % 2) ∧
          (op ∈ [.sub, .logic] ∨ op = .add ∧ v ∈ [4, 5, 8] → ∀ m, r.eval m = direct.eval m)
      else pcCondSimple cx w cond code a b = .error (.of .badKey) := by
  obtain ⟨op, n, hop, hn, hnw⟩ := PcOp.decode_ok hw hc
  have low_neat : ∀ {a : Bits}, a.Neat w → low n a = .ok (a.slice (n - 1) 0) ∧ (a.slice (n - 1) 0).Neat n := fun ha =>
    ⟨if_pos (ha.width ▸ hnw), ha.low (by omega) hnw⟩
  obtain ⟨hx, hxn⟩ := low_neat ha
  obtain ⟨hy, hyn⟩ := low_neat hb
  obtain ⟨z, hz, hzs⟩ := low_sized ho (by omega) hnw
  have h0 : c ≠ 0 := by omega
  have hflags : pcFlags cx w code a b old = .ok (.inr (op.flags n (a.slice (n - 1) 0) (b.slice (n - 1) 0) z)) := by
    simp [pcFlags, hcode, h0, hop, hx, hy, hz]
  obtain ⟨direct, t', hdirect, ht', he'⟩ := pcCond_direct hflags (op.flags_sized hn hxn.toSized hyn.toSized hzs) hs hcond hv
  refine ⟨op, n, _, _, z, direct, hop, hx, hy, hz, hdirect, ?_⟩
  rw [pcCondSimple_run hs hcond hv hcode hc hop hx hy]
  split_ifs with hans
  · obtain ⟨c, f, t, hc, hf, ht, he⟩ := PcOp.answer_spec hn hxn hyn hzs hans.1 hans.2
    have hval : ∀ m, ((Bits.lit (cx.wordBits - 1) 0).concat (Bits.ofCond c)).eval m = (v + t.eval m) % 2 := fun m => by
      rw [(sized_lit (Nat.two_pow_pos _)).eval_concat (ofCond_sized c), eval_lit (Nat.two_pow_pos _), zero_mul, zero_add, he]
    refine ⟨_, f, t, by rw [hc], hf, ht, hval, fun hsame m => ?_⟩
    -- both answers are read from the same flags
    obtain rfl : t = t' := by
      rcases hsame with hsame | ⟨rfl, hv⟩
      · rcases List.mem_cons.1 hsame with rfl | hsame
        · cases hf
          exact Option.some.inj (ht.symm.trans ht')
        · obtain rfl := List.mem_singleton.1 hsame
          cases hf
          exact Option.some.inj (ht.symm.trans ht')
      · cases hf
        simp only [List.mem_cons, List.not_mem_nil, or_false] at hv
        rcases hv with rfl | rfl | rfl <;> exact Option.some.inj (ht.symm.trans ht')
    rw [hval, he']
  · rw [PcOp.answer_eq_none hv hans]

/-- After a decrement that leaves 1, "zero" is answered from the operands and does not hold by the flags. -/
theorem zero_answered_after_decrement_to_one :
    ∃ r direct, pcCondSimple numberContext 64 (.lit 64 4) (.lit 64 28) (.lit 64 1) (.lit 64 0) = .ok (r, []) ∧
      pcCond numberContext 64 (.lit 64 4) (.lit 64 28) (.lit 64 1) (.lit 64 0) (.lit 64 0) = .ok (direct, []) ∧
      ∀ m, r.eval m = 1 ∧ direct.eval m = 0 := by
  have number : ∀ {v : Nat}, v < 2 ^ 64 → (Bits.lit 64 v).Neat 64 := fun hv => ⟨sized_lit hv, trivial⟩
  obtain ⟨op, n, x, y, z, direct, hop, -, -, -, hdirect, hans⟩ :=
    @pcCondSimple_eq_flags numberContext 64 (.inr rfl) (.lit 64 28) (.lit 64 4) 28 4 rfl (by decide) rfl rfl (by decide)
      (.lit 64 1) (.lit 64 0) (.lit 64 0) (number (by decide)) (number (by decide)) (number (by decide)).toSized
  cases hop
  rw [if_pos (by decide)] at hans
  obtain ⟨r, f, t, hr, -⟩ := hans
  have hone : pcCondSimple numberContext 64 (.lit 64 4) (.lit 64 28) (.lit 64 1) (.lit 64 0) = .ok (.lit 64 1, []) := rfl
  have hzero : pcCond numberContext 64 (.lit 64 4) (.lit 64 28) (.lit 64 1) (.lit 64 0) (.lit 64 0) = .ok (.lit 64 0, []) := rfl
  obtain rfl : Bits.lit 64 1 = r := (Prod.mk.inj (Except.ok.inj (hone.symm.trans hr))).1
  obtain rfl : Bits.lit 64 0 = direct := (Prod.mk.inj (Except.ok.inj (hzero.symm.trans hdirect))).1
  exact ⟨_, _, hr, hdirect, fun m => ⟨eval_lit (by decide) m, eval_lit (by decide) m⟩⟩

end Flags

end SymExec
