import SymExec.Op.Eval
import SymExec.Proofs.Overflow

/-!
# Counts of bits and division

Counts of zero bits from either end, and division that gives a quotient and a remainder at once.
-/

namespace SymExec

namespace Word

/-- The number that a word stands for, with a sign or without. -/
def value (signed : Bool) (n u : Nat) : Int := if signed then toInt n u else u

def Fits (signed : Bool) (n : Nat) (e : Int) : Prop := if signed then FitsSigned n e else FitsUnsigned n e

variable {n u v w : Nat} {signed : Bool} {e : Int}

/-- Extended words stand for the same number. -/
lemma ext_eq_ofInt (signed) (hu : u < 2 ^ n) (k) : (if signed then sext n k u else u) = ofInt (n + k) (value signed n u) := by
  have hpow : 2 ^ n ≤ 2 ^ (n + k) := Nat.pow_le_pow_right (by decide) (Nat.le_add_right n k)
  have hplain : u = ofInt (n + k) u := by rw [ofInt_natCast, trunc_of_lt (hu.trans_le hpow)]
  cases signed with
  | false => exact hplain
  | true =>
    change (if isNeg n u then u + (2 ^ (n + k) - 2 ^ n) else u) = ofInt (n + k) (if isNeg n u then u - (2 ^ n : Nat) else u)
    split_ifs with hneg
    · have h := ofInt_of_neg (n := n + k) (e := u - (2 ^ n : Nat)) (by omega) (by omega)
      omega
    · exact hplain

lemma ofInt_value (signed) (hu : u < 2 ^ n) : ofInt n (value signed n u) = u := by
  have h := ext_eq_ofInt signed hu 0
  rw [Nat.add_zero] at h
  rw [← h]
  cases signed <;> simp [sext]

lemma value_fits (hn : 0 < n) (hu : u < 2 ^ n) : Fits signed n (value signed n u) := by
  cases signed with
  | true => exact fitsSigned_toInt hn hu
  | false => exact ⟨Int.natCast_nonneg u, Int.ofNat_lt.2 hu⟩

lemma value_ofInt (hn : 0 < n) (h : Fits signed n e) : value signed n (ofInt n e) = e := by
  have hpow := Flags.two_pow_eq hn
  have hcast := cast_ofInt n e
  cases signed with
  | true =>
    obtain ⟨hlo, hhi⟩ := h
    change toInt n _ = e
    rw [Flags.toInt_eq hn (ofInt_lt n e)]
    by_cases he : e < 0
    · have hneg := ofInt_of_neg (n := n) he (by omega)
      split_ifs <;> omega
    · rw [Int.emod_eq_of_lt (by omega) (by omega)] at hcast
      split_ifs <;> omega
  | false => exact hcast.trans (Int.emod_eq_of_lt h.1 h.2)

lemma Fits.mono (h : Fits signed n e) (hnw : n ≤ w) : Fits signed w e := by
  have h1 : 2 ^ n ≤ 2 ^ w := Nat.pow_le_pow_right (by decide) hnw
  have h2 : 2 ^ (n - 1) ≤ 2 ^ (w - 1) := Nat.pow_le_pow_right (by decide) (by omega)
  cases signed <;> obtain ⟨hlo, hhi⟩ := h
  · exact ⟨hlo, by omega⟩
  · exact ⟨by omega, by omega⟩

lemma natAbs_tmod_lt (e : Int) {d} (h0 : d ≠ 0) : (e.tmod d).natAbs < d.natAbs := by
  rw [Int.natAbs_tmod]
  exact Nat.mod_lt _ (Int.natAbs_pos.2 h0)

/-- A remainder is a word of the width of the divisor. -/
lemma fits_tmod {d} (hx : Fits signed w e) (hd : Fits signed n d) (h0 : d ≠ 0) : Fits signed n (e.tmod d) := by
  have hlt := natAbs_tmod_lt e h0
  cases signed with
  | true =>
    obtain ⟨hlo, hhi⟩ := hd
    exact ⟨by omega, by omega⟩
  | false =>
    obtain ⟨hlo, hhi⟩ := hd
    exact ⟨Int.tmod_nonneg d hx.1, by omega⟩

lemma div_eq_ofInt (signed : Bool) (hx : u < 2 ^ w) (h0 : v ≠ 0) (k) :
    (if signed then BinOp.sdiv else .udiv).apply w k u v = ofInt w ((value signed w u).tdiv (value signed w v)) ∧
    (if signed then BinOp.srem else .urem).apply w k u v = ofInt w ((value signed w u).tmod (value signed w v)) := by
  cases signed with
  | true => exact ⟨if_neg h0, if_neg h0⟩
  | false =>
    refine ⟨(if_neg h0).trans ?_, ?_⟩
    · change u / v = ofInt w ((u : Int).tdiv v)
      rw [← Int.ofNat_tdiv, ofInt_natCast, trunc_of_lt ((Nat.div_le_self u v).trans_lt hx)]
    · change u % v = ofInt w ((u : Int).tmod v)
      rw [← Int.ofNat_tmod, ofInt_natCast, trunc_of_lt ((Nat.mod_le u v).trans_lt hx)]

end Word

namespace Bits

variable {a b : Bits} {n w i : Nat} {signed : Bool}

lemma sext_agrees (ha : a.Valid) (k) : (a.sext k).Agrees (.un (.sext k) a) := by
  unfold sext
  split_ifs with hk
  · subst hk
    exact ⟨ha, rfl, fun m => by simp [eval, UnOp.apply, Word.sext]⟩
  · exact mkUn_agrees ha trivial

lemma Sized.extend (ha : a.Sized n) (signed k) : (Op.extend signed k a).Sized (n + k) ∧
    ∀ m, (Op.extend signed k a).eval m = Word.ofInt (n + k) (Word.value signed n (a.eval m)) := by
  simp only [← Word.ext_eq_ofInt signed (ha.eval_lt _)]
  cases signed with
  | false => exact ⟨ha.zext k, ha.eval_zext k⟩
  | true =>
    have h := sext_agrees ha.valid k
    refine ⟨h.sized (congrArg (· + k) ha.width), fun m => (h.eval m).trans ?_⟩
    rw [eval, ha.width]
    rfl

end Bits

namespace Op

open Bits Flags List Nat Word

variable {op : Op} {a b r : Bits} {n w s k : Nat} {signed : Bool} {pos : Nat → Nat} {p : Nat → Bits} {f : Int → Int → Int}

lemma apply_of_compute {P : Bits → Prop} (args : List Bits) (hf : op.float = false)
    (h : ∃ r, op.compute (args.map .bits) = .ok (.bits r) ∧ r.Sized op.outBits ∧ P r) :
    ∃ r, op.apply (args.map .bits) = .ok (.bits r) ∧ P r := by
  obtain ⟨r, h, hr, hp⟩ := h
  have hargs : (args.map Scalar.bits).map (fun x => Scalar.bits x.toBits) = args.map .bits := by
    rw [map_map]
    rfl
  refine ⟨r, ?_, hp⟩
  rw [apply, hf, if_neg Bool.false_ne_true, hargs, h]
  change (op.extendTo r >>= fun b => pure (Scalar.bits b)) = _
  rw [extendTo, if_neg (by rw [hr.width]; exact lt_irrefl _), if_neg (by rw [hr.width]; exact lt_irrefl _)]
  rfl

lemma bind_bits {x : Except Fault Bits} (h : x = .ok r) : (x >>= fun r => pure (Scalar.bits r)) = .ok (.bits r) := by
  rw [h]
  rfl

/-- The number of zero bits of a word of `n` bits before the first that is one, in an order of its places. -/
structure Zeros (pos : Nat → Nat) (n x r : Nat) : Prop where
  le : r ≤ n
  clear : ∀ i < r, x.testBit (pos i) = false
  set : r < n → x.testBit (pos r) = true

lemma count_run (ha : a.Neat w) (hpos : ∀ i < w, pos i < w) (hp : ∀ i < w, p (pos i) = .lit w i) (hk : s + k = w) :
    let r := ((range' s k).map pos).foldr (fun i r => mkIte (Cond.eqNat (a.slice i i) 1) (p i) r) (ofNat w w)
    r.Sized w ∧ ∀ m, s ≤ r.eval m ∧ r.eval m ≤ w ∧ (∀ i, s ≤ i → i < r.eval m → (a.eval m).testBit (pos i) = false) ∧
      (r.eval m < w → (a.eval m).testBit (pos (r.eval m)) = true) := by
  induction k generalizing s with
  | zero =>
    refine ⟨sized_ofNat w w, fun m => ?_⟩
    have heval : (ofNat w w).eval m = w := by rw [eval_ofNat, trunc_of_lt Nat.lt_two_pow_self]
    change _ ≤ (ofNat w w).eval m ∧ (ofNat w w).eval m ≤ _ ∧ (∀ i, _ → i < (ofNat w w).eval m → _) ∧ ((ofNat w w).eval m < _ → _)
    rw [heval]
    exact ⟨by omega, le_rfl, fun i hi hi' => by omega, fun h => absurd h (lt_irrefl w)⟩
  | succ k ih =>
    obtain ⟨hs, hval⟩ := ih (s := s + 1) (by omega)
    have hlit : s < 2 ^ w := Nat.lt_two_pow_self.trans_le (Nat.pow_le_pow_right (by decide) (by omega))
    have hps : (p (pos s)).Sized w := by
      rw [hp s (by omega)]
      exact sized_lit hlit
    have hbit := ha.slice (le_refl (pos s)) (hpos s (by omega))
    rw [Nat.add_sub_cancel_left] at hbit
    rw [range'_succ, map_cons, foldr_cons]
    refine ⟨hps.ite hs _, fun m => ?_⟩
    obtain ⟨hle, hle', hclear, hset⟩ := hval m
    have htest : (Cond.eqNat (a.slice (pos s) (pos s)) 1).eval m = (a.eval m).testBit (pos s) := by
      have h : (a.slice (pos s) (pos s)).eval m = _ := eval_bit ha.toSized (hpos s (by omega)) m
      rw [Cond.eval_eqNat hbit.formed (by rw [hbit.width]; decide), h]
      cases (a.eval m).testBit (pos s) <;> rfl
    rw [eval_mkIte hps hs, htest]
    cases hs' : (a.eval m).testBit (pos s) with
    | true =>
      rw [if_pos rfl, hp s (by omega), eval_lit hlit]
      exact ⟨le_rfl, by omega, fun i hi hi' => by omega, fun _ => hs'⟩
    | false =>
      rw [if_neg Bool.false_ne_true]
      refine ⟨by omega, hle', fun i hi hi' => ?_, hset⟩
      obtain rfl | hlt := eq_or_lt_of_le hi
      · exact hs'
      · exact hclear i hlt hi'

lemma zeros_foldr (pos) (ha : a.Neat w) (hpos : ∀ i < w, pos i < w) (hp : ∀ i < w, p (pos i) = .lit w i) :
    let r := ((range w).map pos).foldr (fun i r => mkIte (Cond.eqNat (a.slice i i) 1) (p i) r) (ofNat w w)
    r.Sized w ∧ ∀ m, Zeros pos w (a.eval m) (r.eval m) := by
  obtain ⟨hs, hval⟩ := count_run ha hpos hp (zero_add w)
  rw [range_eq_range']
  refine ⟨hs, fun m => ?_⟩
  obtain ⟨-, hle, hclear, hset⟩ := hval m
  exact ⟨hle, fun i hi => hclear i (zero_le i) hi, hset⟩

lemma leading_spec (ha : a.Neat w) : (countLeadingZeros w a).Sized w ∧
    ∀ m, Zeros (w - 1 - ·) w (a.eval m) ((countLeadingZeros w a).eval m) := by
  have h := zeros_foldr (w - 1 - ·) (p := fun i => .lit w (w - i - 1)) ha (fun i hi => by omega) fun i hi =>
    congrArg (lit w) (show w - (w - 1 - i) - 1 = i by omega)
  have hrev : (range w).map (w - 1 - ·) = (range w).reverse := by
    rw [range_eq_range', reverse_range', zero_add, ← range_eq_range']
  rw [hrev, ← foldl_eq_foldr_reverse] at h
  exact h

lemma trailing_spec (ha : a.Neat w) : (countTrailingZeros w a).Sized w ∧
    ∀ m, Zeros id w (a.eval m) ((countTrailingZeros w a).eval m) := by
  have h := zeros_foldr id (p := fun i => ofNat w i) ha (fun i hi => hi) fun i hi =>
    congrArg (lit w) (trunc_of_lt (hi.trans Nat.lt_two_pow_self))
  rw [map_id, ← foldl_reverse] at h
  exact h

lemma checkDivisor_ok {d m} (h : d.eval m ≠ 0) : checkDivisor a d = .ok () := by
  fun_cases checkDivisor a d with
  | case1 w v w' => exact absurd (eval_zero _ m) h
  | case2 => rfl

section
variable (hs : op.fromSize = some w) (ht : op.toSize = some n) (hn : 0 < n) (hnw : n ≤ w) (ha : a.Sized w) (hb : b.Sized n)
include hs ht hn hnw ha hb

lemma divMod_run (h0 : ∃ m, b.eval m ≠ 0) : ∃ r, op.divMod a b = .ok r ∧ r.Sized (n + n) ∧ ∀ m, b.eval m ≠ 0 →
    let x := value op.signed w (a.eval m)
    let d := value op.signed n (b.eval m)
    r.eval m % 2 ^ n = Word.ofInt n (x.tdiv d) ∧ r.eval m / 2 ^ n = Word.ofInt n (x.tmod d) := by
  obtain ⟨hd, hdv⟩ := hb.extend op.signed (w - n)
  rw [Nat.add_sub_cancel' hnw] at hd hdv
  set d := extend op.signed (w - n) b
  have hnz : ∀ {m}, b.eval m ≠ 0 → d.eval m ≠ 0 := fun {m} hm h => hm (by
    rw [← ofInt_value op.signed (hb.eval_lt m), ← ofInt_low hnw, ← hdv, h, Nat.zero_mod])
  have hagrees : ∀ o, (mkBin o a d).Agrees (.bin o a d) := fun o => mkBin_agrees o ha.valid hd.valid (.inr (ha.widths hd))
  have hq := (hagrees (if op.signed then .sdiv else .udiv)).sized (by cases op.signed <;> exact ha.width)
  have hr := (hagrees (if op.signed then .srem else .urem)).sized (by cases op.signed <;> exact ha.width)
  obtain ⟨hql, hqv⟩ := hq.low hn hnw
  obtain ⟨hrl, hrv⟩ := hr.low hn hnw
  refine ⟨_, ?_, hrl.concat hql, fun m hm => ?_⟩
  · obtain ⟨m, hm⟩ := h0
    have hpart : ∀ {x}, x.Sized w → part (n - 1) 0 x = .ok (x.slice (n - 1) 0) := fun hx =>
      if_pos ⟨by rw [hx.width]; omega, Nat.zero_le _⟩
    rw [divMod, hs, ht, Option.getD_some, Option.getD_some, if_neg (by rw [ha.widths hd, bne_self_eq_false]; decide),
      checkDivisor_ok (hnz hm), hpart hr, hpart hq]
    rfl
  · have hdval : value op.signed w (d.eval m) = value op.signed n (b.eval m) := by
      rw [hdv, value_ofInt (hn.trans_le hnw) ((value_fits hn (hb.eval_lt m)).mono hnw)]
    obtain ⟨hquo, hrem⟩ := div_eq_ofInt op.signed (ha.eval_lt m) (hnz hm) w
    rw [hdval] at hquo hrem
    have hlt := hql.eval_lt m
    rw [hrl.eval_concat hql, Nat.mul_add_mod_self_right, mod_eq_of_lt hlt, Nat.add_comm, add_mul_div_right _ _ (Nat.two_pow_pos n),
      div_eq_of_lt hlt, Nat.zero_add, hqv, hrv, (hagrees _).eval, (hagrees _).eval, Bits.eval, Bits.eval, ha.width, hd.width, hquo, hrem,
      ofInt_low hnw, ofInt_low hnw]
    exact ⟨rfl, rfl⟩

end

/-- **Counts of bits and divisions are exact.** The count is the number of zero bits before the first that is one, from the high end
or from the low end. Where the quotient fits, quotient and remainder are those of division rounded toward zero. -/
theorem apply_count_divide (op : Op) (hf : op.float = false) : (∀ pos, op.fromSize = some n → op.outBits = n → a.Neat n →
      op.rule = .leadingZeros ∧ pos = (n - 1 - ·) ∨ op.rule = .trailingZeros ∧ pos = id →
      ∃ r, op.apply [.bits a] = .ok (.bits r) ∧ ∀ m, Zeros pos n (a.eval m) (r.eval m)) ∧
    ∀ w, op.rule = .divMod → op.fromSize = some w → op.toSize = some n → op.outBits = n + n → 0 < n → n ≤ w → a.Sized w →
      b.Sized n → (∃ m, b.eval m ≠ 0) → ∃ r, op.apply [.bits a, .bits b] = .ok (.bits r) ∧ ∀ m, b.eval m ≠ 0 →
        let x := value op.signed w (a.eval m)
        let d := value op.signed n (b.eval m)
        let q := value op.signed n (r.eval m % 2 ^ n)
        let s := value op.signed n (r.eval m / 2 ^ n)
        Fits op.signed n (x.tdiv d) → x = q * d + s ∧ s.natAbs < d.natAbs ∧ (0 ≤ x → 0 ≤ s) ∧ (x ≤ 0 → s ≤ 0) := by
  refine ⟨fun pos hs ho ha hrule => ?_, fun w hrule hs ht ho hn hnw ha hb h0 => ?_⟩
  · refine apply_of_compute [a] hf ?_
    rw [ho, map_singleton]
    obtain ⟨hrule, rfl⟩ | ⟨hrule, rfl⟩ := hrule
    · exact ⟨_, by rw [compute, hrule, hs]; rfl, leading_spec ha⟩
    · exact ⟨_, by rw [compute, hrule, hs]; rfl, trailing_spec ha⟩
  · obtain ⟨r, hr, hsize, hval⟩ := divMod_run hs ht hn hnw ha hb h0
    refine apply_of_compute [a, b] hf ⟨r, ?_, ho ▸ hsize, fun m hm => ?_⟩
    · rw [map_cons, map_singleton, compute, hrule]
      exact bind_bits hr
    intro x d q s hfit
    obtain ⟨hq, hs⟩ := hval m hm
    have hx : Fits op.signed w x := value_fits (hn.trans_le hnw) (ha.eval_lt m)
    have hd : Fits op.signed n d := value_fits hn (hb.eval_lt m)
    have hd0 : d ≠ 0 := fun h => hm (by rw [← ofInt_value op.signed (hb.eval_lt m), show value _ _ _ = 0 from h]; exact Nat.zero_mod _)
    have hq' : q = x.tdiv d := (congrArg _ hq).trans (value_ofInt hn hfit)
    have hs' : s = x.tmod d := (congrArg _ hs).trans (value_ofInt hn (fits_tmod hx hd hd0))
    rw [hq', hs']
    refine ⟨by rw [Int.mul_comm, Int.mul_tdiv_add_tmod], natAbs_tmod_lt x hd0, Int.tmod_nonneg d, fun hneg => ?_⟩
    have h := Int.tmod_nonneg d (Int.neg_nonneg_of_nonpos hneg)
    rw [Int.neg_tmod] at h
    omega

theorem apply_count_divide_words :
    let op : Op := ⟨"Iop_DivModS64to32", { fromSigned := some "S" }, .divMod, false, 64, some 64, some 32, none, none⟩
    (∃ r, Op.apply ⟨"Iop_Clz32", {}, .leadingZeros, false, 32, some 32, none, none, none⟩ [.bits (.lit 32 9)] = .ok (.bits r) ∧
      ∀ m, Zeros (31 - ·) 32 ((Bits.lit 32 9).eval m) (r.eval m)) ∧
    ∃ r, op.apply [.bits (.lit 64 9), .bits (.lit 32 2)] = .ok (.bits r) := by
  intro op
  refine ⟨(apply_count_divide (b := default) _ rfl).1 _ rfl rfl (neat_lit (by decide)) (.inl ⟨rfl, rfl⟩), ?_⟩
  obtain ⟨r, hr, -⟩ := (apply_count_divide (n := 32) (a := .lit 64 9) (b := .lit 32 2) op rfl).2 64 rfl rfl rfl rfl (by decide) (by decide)
    (sized_lit (by decide)) (sized_lit (by decide)) ⟨default, by rw [eval_lit (by decide)]; decide⟩
  exact ⟨r, hr⟩

/-- What an operation of two words makes of the numbers they stand for, read with a sign or without. -/
inductive Reads (op : Op) (n : Nat) : Bool → (Int → Int → Int) → Prop where
  | less : op.rule = .less → op.outBits = 1 → Reads op n op.signed fun x y => if x < y then 1 else 0
  | lessEqual : op.rule = .lessEqual → op.outBits = 1 → Reads op n op.signed fun x y => if x ≤ y then 1 else 0
  | order : op.rule = .orderCode → op.outBits = n → Reads op n false fun x y => if x = y then 2 else if x < y then 8 else 4
  | quotient : op.rule = .mapped → op.attrs.generic = some "Div" → op.outBits = n → Reads op n false .tdiv

lemma flag_eq {p} [Decidable p] {c d} (hc : c = d) (h : d = true ↔ p) :
    (if c then 1 else 0) = Word.ofInt 1 (if p then 1 else 0) := by
  simp only [hc, h]
  split_ifs <;> rfl

section
variable (ha : a.Neat n) (hb : b.Neat n)
include ha hb

lemma eval_mkCmp (o m) : (Cond.mkCmp o a b).eval m = o.apply n (a.eval m) (b.eval m) := by
  rw [Cond.eval_mkCmp o ha.valid hb.valid, ha.width]

lemma orderCode_spec (hn : 4 ≤ n) : (orderCode n a b).Sized n ∧ ∀ m, (orderCode n a b).eval m =
    Word.ofInt n (if (a.eval m : Int) = b.eval m then 2 else if (a.eval m : Int) < b.eval m then 8 else 4) := by
  have hlit : ∀ v < 2 ^ 4, lit n v = ofNat n v := fun v hv =>
    congrArg (lit n) (trunc_of_lt (hv.trans_le (Nat.pow_le_pow_right (by decide) hn))).symm
  rw [orderCode, hlit 2 (by decide), hlit 8 (by decide), hlit 4 (by decide)]
  have hs := (sized_ofNat n 8).ite (sized_ofNat n 4) (.ult a b)
  refine ⟨(sized_ofNat n 2).ite hs _, fun m => ?_⟩
  rw [eval_mkIte (sized_ofNat n 2) hs, eval_mkIte (sized_ofNat n 8) (sized_ofNat n 4), (Cond.eq_spec ha hb).2, Cond.ult, eval_mkCmp ha hb]
  simp only [eval_ofNat, ← ofInt_natCast, CmpOp.apply, beq_iff_eq, decide_eq_true_eq, Int.ofNat_inj, Int.ofNat_lt]
  split_ifs <;> rfl

/-- **Where a sign counts.** Comparisons read their words with the sign of the operation, order codes and quotients never do. -/
theorem apply_reads (op : Op) (h : op.Reads n signed f) (hf : op.float = false) (hs : op.fromSize = some n) (hl : op.laneSize = none)
    (hn : 4 ≤ n) (h0 : op.rule = .mapped → ∃ m, b.eval m ≠ 0) :
    ∃ r, op.apply [.bits a, .bits b] = .ok (.bits r) ∧ ∀ m, (op.rule = .mapped → b.eval m ≠ 0) →
      r.eval m = Word.ofInt op.outBits (f (value signed n (a.eval m)) (value signed n (b.eval m))) := by
  have hw := ha.widths hb.toSized
  have hcompare : ∀ c, op.compare a b c = .ok (.ofCond (c a b)) := fun c => by rw [compare, hl]; exact if_pos hw
  refine apply_of_compute [a, b] hf ?_
  rw [map_cons, map_singleton]
  cases h with
  | less hrule ho | lessEqual hrule ho =>
    refine ⟨_, by rw [compute, hrule]; exact bind_bits (hcompare _), ho ▸ ofCond_sized _, fun m _ => ?_⟩
    rw [ho, eval_ofCond]
    cases op.signed <;> exact flag_eq (eval_mkCmp ha hb _ m) (by simp [CmpOp.apply, value])
  | order hrule ho =>
    rw [ho]
    exact ⟨_, by rw [compute, hrule, hs]; exact bind_bits (if_pos hw),
      (orderCode_spec ha hb hn).1, fun m _ => (orderCode_spec ha hb hn).2 m⟩
  | quotient hrule hg ho =>
    have hq := mkBin_agrees .udiv ha.valid hb.valid (.inr hw)
    refine ⟨a.udiv b, ?_, hq.sized (ha.width.trans ho.symm), fun m hm => ?_⟩
    · obtain ⟨m, hm⟩ := h0 hrule
      have hwords : op.mapWords [a, b] = wordOp "Div" a b := by
        rw [mapWords, hs, hg]
        simp [ha.width, hb.width]
      rw [compute, hrule]
      refine bind_bits (hwords.trans ?_)
      rw [wordOp, if_neg (by rw [hw, bne_self_eq_false]; decide), checkDivisor_ok hm]
      rfl
    · rw [Bits.udiv, hq.eval, Bits.eval, ho, ha.width, hb.width]
      exact (div_eq_ofInt false (ha.eval_lt m) (hm hrule) _).1

end

theorem apply_reads_quotient :
    let op : Op := ⟨"Iop_DivS32", { generic := some "Div", fromSigned := some "S" }, .mapped, false, 32, some 32, none, none, none⟩
    ∃ r, op.apply [.bits (.lit 32 0xfffffff8), .bits (.lit 32 2)] = .ok (.bits r) ∧ ∀ m, r.eval m = 0x7ffffffc := by
  intro op
  have hb : ∀ m, (Bits.lit 32 2).eval m = 2 := eval_lit (by decide)
  obtain ⟨r, hr, hval⟩ := apply_reads (a := .lit 32 0xfffffff8) (b := .lit 32 2) (neat_lit (by decide))
    (neat_lit (by decide)) op (.quotient rfl rfl rfl) rfl rfl rfl (by decide) fun _ => ⟨default, by rw [hb]; decide⟩
  refine ⟨r, hr, fun m => (hval m fun _ => by rw [hb]; decide).trans ?_⟩
  rw [hb, eval_lit (by decide)]
  rfl

end Op

end SymExec
