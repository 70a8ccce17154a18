import SymExec.Flags.Arm
import SymExec.Proofs.PcArith

/-!
# Flags of ARM

Both machines compute four flags from an operation and its operands, collect them in a word, and answer conditions from the flags.
-/

namespace SymExec

open Word Nat Cond Except

/-- The comparison of words that a condition names by its number: equal, not below, above, not less, greater. -/
def Word.armCompares (n cond u v : Nat) : Bool :=
  (match cond / 2 with
    | 0 => decide (u = v)
    | 1 => decide (v ≤ u)
    | 4 => decide (v < u)
    | 5 => decide (toInt n v ≤ toInt n u)
    | _ => decide (toInt n v < toInt n u)) != (cond % 2 == 1)

lemma Word.not_and_one {n} (hn : 0 < n) {v} (hv : v < 2 ^ n) : not n v &&& 1 = 1 - v % 2 := by
  have hpow := Flags.two_pow_eq hn
  rw [and_one_is_mod, not, trunc_of_lt hv]
  omega

lemma Word.shiftRight_top {n v} (hn : 0 < n) (hv : v < 2 ^ n) : v >>> (n - 1) = (v.testBit (n - 1)).toNat := by
  have hpow := Flags.two_pow_eq hn
  rw [toNat_testBit, shiftRight_eq_div_pow]
  exact (mod_eq_of_lt ((Nat.div_lt_iff_lt_mul (Nat.two_pow_pos _)).2 (by omega))).symm

namespace Flags

open Bits

/-! ### Flags of exact results -/

/-- The flag that an operation on words of `n` bits leaves, from its exact result on unsigned and on signed operands. -/
def ArmFlag.ofExact (f : ArmFlag) (n : Nat) (difference : Bool) (e s : Int) : Bool :=
  match f with
  | .n => (Word.ofInt n e).testBit (n - 1)
  | .z => decide (Word.ofInt n e = 0)
  | .c => difference == decide (FitsUnsigned n e)
  | .v => !decide (FitsSigned n s)

def armSays (pair : Nat) (p : ArmFlag → Bool) : Bool :=
  match pair with
  | 0 => p .z
  | 1 => p .c
  | 2 => p .n
  | 3 => p .v
  | 4 => p .c && !p .z
  | 5 => p .n == p .v
  | _ => !p .z && p .n == p .v

/-- Whether a condition holds under given flags: its lowest bit negates what the flags say about its pair. -/
def armHolds (cond : Nat) (p : ArmFlag → Bool) : Bool := 14 ≤ cond || (armSays (cond / 2) p != (cond % 2 == 1))

def armNumber (p : ArmFlag → Nat) : Nat := p .n * 2 ^ 31 + p .z * 2 ^ 30 + p .c * 2 ^ 29 + p .v * 2 ^ 28

section
variable {n : Nat} {x y r : Bits} {k : Nat} {m : Model}

lemma wordOfCond_sized {w} (hw : 0 < w) (c : Cond) : (wordOfCond w c).Sized w :=
  (sized_lit (Nat.one_lt_two_pow (by omega))).ite (sized_zero w) c

lemma wordOfCond_eval {w} (hw : 0 < w) (c : Cond) (m) : (wordOfCond w c).eval m = (c.eval m).toNat := by
  have hone : 1 < 2 ^ w := Nat.one_lt_two_pow (by omega)
  rw [wordOfCond, eval_mkIte (sized_lit hone) (sized_zero w), eval_lit hone]
  cases c.eval m <;> rfl

lemma lshr_top_sized {i} (hx : x.Sized n) : (x.lshr (.ofNat x.width i)).Sized n := hx.lshr (hx.width ▸ sized_ofNat _ _)

lemma lshr_top_eval (hn : 0 < n) (hx : x.Sized n) (m : Model) :
    (x.lshr (.ofNat x.width (n - 1))).eval m = ((x.eval m).testBit (n - 1)).toNat := by
  rw [hx.width, hx.eval_lshr (by omega), shiftRight_top hn (hx.eval_lt m)]

section
variable (hn : 0 < n) (hk : k ≤ 1) (hx : x.Sized n) (hy : y.Sized n) (hr : r.Sized n)
include hn hk hx hy hr

lemma sum_overflow (he : r.eval m = add n (add n (x.eval m) (y.eval m)) k) :
    (((r.xor x).and (r.xor y)).lshr (.ofNat ((r.xor x).and (r.xor y)).width (n - 1))).eval m =
      (!decide (FitsSigned n (toInt n (x.eval m) + toInt n (y.eval m) + k))).toNat := by
  rw [lshr_top_eval hn ((hr.xor hx).and (hr.xor hy)), (hr.xor hx).eval_and (hr.xor hy), hr.eval_xor hx, hr.eval_xor hy, he, ← decide_not]
  congr 1
  rw [Bool.eq_iff_iff, decide_eq_true_iff, add_signed_iff hn (hx.eval_lt m) (hy.eval_lt m) hk, testBit_and, testBit_xor]
  grind

lemma dif_overflow (he : r.eval m = sub n (sub n (x.eval m) (y.eval m)) k) :
    (((x.xor y).and (x.xor r)).lshr (.ofNat ((x.xor y).and (x.xor r)).width (n - 1))).eval m =
      (!decide (FitsSigned n (toInt n (x.eval m) - toInt n (y.eval m) - k))).toNat := by
  rw [lshr_top_eval hn ((hx.xor hy).and (hx.xor hr)), (hx.xor hy).eval_and (hx.xor hr), hx.eval_xor hy, hx.eval_xor hr, he, ← decide_not]
  congr 1
  rw [Bool.eq_iff_iff, decide_eq_true_iff, sub_signed_iff hn (hx.eval_lt m) (hy.eval_lt m) hk, testBit_and, testBit_xor]
  grind

end

end

/-! ### Reading flags -/

/-- The words that a machine computes for the flags of an operation. -/
def Reads (flag : FlagOf) (w : Nat) (cx : HelperContext) (code a b d : Bits) (x : ArmFlag → Bits) : Prop :=
  ∀ f, (x f).Sized w ∧ ∃ cs, flag cx f code a b d = .ok (x f, cs)

/-- A condition and an operation in one word: the condition is `v` and the operation has the code `k`. -/
structure Names (cx : HelperContext) (w : Nat) (cond : Bits) (v k : Nat) : Prop where
  sized : cond.Sized w
  pick_cond : cx.pick (cond.lshr (.ofNat cond.width 4)) = .ok v
  pick_op : cx.pick (cond.and (.ofNat cond.width 0xf)) = .ok k

variable {k : Nat}

section
variable {flag : FlagOf} {w : Nat} {cx : HelperContext} {code a b d : Bits} {x : ArmFlag → Bits} {cond : Bits} {v : Nat}

/-- **The collected word** holds the flags at their places in 32 bits, and these at its high end. -/
theorem Reads.armAll_eval (h : Reads flag w cx code a b d x) (hw : 32 ≤ w) :
    ∃ word cs, armAll flag w cx code a b d = .ok (word, cs) ∧ word.Sized w ∧
      ∀ m, word.eval m = armNumber (fun f => (x f).eval m % 2) * 2 ^ (w - 32) := by
  obtain ⟨hn, cn, en⟩ := h .n
  obtain ⟨hz, cz, ez⟩ := h .z
  obtain ⟨hc, cc, ec⟩ := h .c
  obtain ⟨hv, cv, ev⟩ := h .v
  have low : ∀ {y}, y.Sized w → (bit y 0).Sized 1 := fun hy => bit_sized hy (by omega)
  have bit0 : ∀ {y}, y.Sized w → ∀ m, (bit y 0).eval m = y.eval m % 2 := fun hy m => by
    rw [eval_bit hy (by omega), Nat.toNat_testBit, Nat.div_one]
  obtain ⟨hs, he⟩ := placeFlags_eval [(31, bit (x .n) 0), (30, bit (x .z) 0), (29, bit (x .c) 0), (28, bit (x .v) 0)] (p := 28)
    (by decide) (by simp) (by simp) (by simp [low hn, low hz, low hc, low hv]) hw
  refine ⟨_, cn ++ cz ++ cc ++ cv, ?_, hs, fun m => ?_⟩
  · simp only [armAll, en, ez, ec, ev, ok_bind, pure_eq_ok]
  · -- stated for any places, for the powers are not to be computed
    have sum : ∀ i j k l, ([(i, bit (x .n) 0), (j, bit (x .z) 0), (k, bit (x .c) 0), (l, bit (x .v) 0)].map
        fun x => x.2.eval m * 2 ^ x.1).sum = (x .n).eval m % 2 * 2 ^ i + (x .z).eval m % 2 * 2 ^ j +
          (x .c).eval m % 2 * 2 ^ k + (x .v).eval m % 2 * 2 ^ l := by
      simp [bit0 hn, bit0 hz, bit0 hc, bit0 hv, Nat.add_assoc]
    rw [he m, sum, armNumber]

/-- The word of what the flags say about a pair of conditions. -/
def armTerm (w pair : Nat) (x : ArmFlag → Bits) : Bits :=
  match pair with
  | 0 => x .z
  | 1 => x .c
  | 2 => x .n
  | 3 => x .v
  | 4 => if w = 64 then ((x .c).and (x .z).not).and (.ofNat w 1) else (x .c).and (x .z).not
  | 5 => ((x .n).xor (x .v)).not.and (.ofNat w 1)
  | _ => ((x .z).or ((x .n).xor (x .v))).not.and (.ofNat w 1)

def armNegates (cond : Bits) : Bits := (cond.lshr (.ofNat cond.width 4)).and (.ofNat (cond.lshr (.ofNat cond.width 4)).width 1)

lemma armTerm_sized (hx : ∀ f, (x f).Sized w) (pair) : (armTerm w pair x).Sized w := by
  have one : (ofNat w 1).Sized w := sized_ofNat w 1
  fun_cases armTerm w pair x with
  | case1 => exact hx .z
  | case2 => exact hx .c
  | case3 => exact hx .n
  | case4 => exact hx .v
  | case5 => exact ((hx .c).and (hx .z).not).and one
  | case6 => exact (hx .c).and (hx .z).not
  | case7 => exact ((hx .n).xor (hx .v)).not.and one
  | case8 => exact ((hx .z).or ((hx .n).xor (hx .v))).not.and one

lemma eval_one (hw : 0 < w) (m) : (ofNat w 1).eval m = 1 := (eval_ofNat w 1 m).trans (trunc_of_lt (Nat.one_lt_two_pow hw.ne'))

lemma toNat_mod (u) : (u % 2 == 1).toNat = u % 2 := by rcases mod_two_eq_zero_or_one u with h | h <;> rw [h] <;> rfl

lemma toNat_of_le_one {u : Nat} (h : u ≤ 1) : u = (u % 2 == 1).toNat :=
  (mod_eq_of_lt (lt_succ_of_le h)).symm.trans (toNat_mod u).symm

lemma toNat_mod_two (b) : (b.toNat % 2 == 1) = b := by cases b <;> rfl

lemma armTerm_eval (hw : 0 < w) (hx : ∀ f, (x f).Sized w) {pair} (hpair : pair < 7) {m}
    (hz : (x .z).eval m ≤ 1) (hc : (x .c).eval m ≤ 1) (hv : (x .v).eval m ≤ 1) : (armTerm w pair x).eval m =
      if pair = 2 then (x .n).eval m else (armSays pair fun f => (x f).eval m % 2 == 1).toNat := by
  have one : (ofNat w 1).Sized w := sized_ofNat w 1
  have low_not : ∀ {t : Bits}, t.Sized w → (t.not.and (ofNat w 1)).eval m = 1 - t.eval m % 2 := fun ht => by
    rw [ht.not.eval_and one, eval_one hw, ht.eval_not, not_and_one hw (ht.eval_lt m)]
  have hi : ((x .c).and (x .z).not).eval m = (x .c).eval m * (1 - (x .z).eval m % 2) := by
    have low := not_and_one hw ((hx .z).eval_lt m)
    rw [(hx .c).eval_and (hx .z).not, (hx .z).eval_not]
    generalize (x .c).eval m = u at hc ⊢
    interval_cases u
    · simp
    · rw [Nat.and_comm, low, one_mul]
  have hnv := (hx .n).xor (hx .v)
  interval_cases pair
  · exact toNat_of_le_one hz
  · exact toNat_of_le_one hc
  · rfl
  · exact toNat_of_le_one hv
  · have hval : (armTerm w 4 x).eval m = (x .c).eval m * (1 - (x .z).eval m % 2) := by
      rw [armTerm]
      split_ifs
      · rw [((hx .c).and (hx .z).not).eval_and one, eval_one hw, hi, and_one_is_mod]
        generalize (x .c).eval m = u at hc ⊢
        interval_cases u <;> omega
      · exact hi
    rw [hval, armSays]
    generalize (x .c).eval m = u at hc ⊢
    generalize (x .z).eval m = u' at hz ⊢
    interval_cases u <;> interval_cases u' <;> rfl
  · rw [armTerm, low_not hnv, (hx .n).eval_xor (hx .v), xor_mod_two_eq, armSays]
    rcases mod_two_eq_zero_or_one ((x .n).eval m) with h | h <;>
      rcases mod_two_eq_zero_or_one ((x .v).eval m) with h' | h' <;> simp [add_mod, h, h']
  · change (((x .z).or ((x .n).xor (x .v))).not.and (.ofNat w 1)).eval m =
      (!((x .z).eval m % 2 == 1) && ((x .n).eval m % 2 == 1) == ((x .v).eval m % 2 == 1)).toNat
    have hor : ((x .z).eval m ||| (x .n).eval m ^^^ (x .v).eval m) % 2 = 1 ↔
        (x .z).eval m % 2 = 1 ∨ ¬ ((x .n).eval m % 2 = 1 ↔ (x .v).eval m % 2 = 1) := by
      rw [or_mod_two_eq_one, xor_mod_two_eq_one]
    rw [low_not ((hx .z).or hnv), (hx .z).eval_or hnv, (hx .n).eval_xor (hx .v)]
    rcases mod_two_eq_zero_or_one ((x .z).eval m ||| (x .n).eval m ^^^ (x .v).eval m) with h | h <;> rw [h] at hor ⊢ <;> grind

lemma xor_toNat {i} (hi : i < 2) (b) : i ^^^ b.toNat = (b != (i == 1)).toNat := by interval_cases i <;> cases b <;> rfl

lemma Reads.armCondition_run (hcond : Names cx w cond v k) (h : Reads flag w cx (cond.and (ofNat cond.width 0xf)) a b d x)
    (hv : v < 14) : ∃ cs, armCondition flag w cx cond a b d = .ok ((armNegates cond).xor (armTerm w (v / 2) x), cs) := by
  obtain ⟨-, cn, en⟩ := h .n
  obtain ⟨-, cz, ez⟩ := h .z
  obtain ⟨-, cc, ec⟩ := h .c
  obtain ⟨-, co, eo⟩ := h .v
  have hguard : ¬ (v = 14 ∨ v = 15 ∧ w = 64) := by omega
  have hpair : v / 2 < 7 := by omega
  simp only [armCondition, hcond.pick_cond, ok_bind, pure_eq_ok, hguard, if_false]
  generalize v / 2 = q at hpair
  interval_cases q <;> simp only [en, ez, ec, eo, armTerm, armNegates] <;> exact ⟨_, rfl⟩

/-- **Conditions in terms of flags.** A condition holds by the lowest bits of the flags; only the condition on the sign alone
passes its whole word on. -/
theorem Reads.armCondition_eval (hcond : Names cx w cond v k)
    (h : Reads flag w cx (cond.and (.ofNat cond.width 0xf)) a b d x) (hw : 32 ≤ w) (hv : v < 15 ∨ w = 64 ∧ v < 16) :
    ∃ r cs, armCondition flag w cx cond a b d = .ok (r, cs) ∧ ∀ m, cond.eval m / 16 = v →
      (x .z).eval m ≤ 1 → (x .c).eval m ≤ 1 → (x .v).eval m ≤ 1 →
      r.eval m = if v / 2 = 2 then v % 2 ^^^ (x .n).eval m else (armHolds v fun f => (x f).eval m % 2 == 1).toNat := by
  by_cases h14 : 14 ≤ v
  · have hguard : v = 14 ∨ v = 15 ∧ w = 64 := by omega
    refine ⟨.ofNat w 1, [eqNat (cond.lshr (.ofNat cond.width 4)) v], ?_, fun m _ _ _ _ => ?_⟩
    · simp [armCondition, hcond.pick_cond, hguard]
    · rw [if_neg (by omega), eval_one (by omega), armHolds, decide_eq_true h14]
      rfl
  · have hs := hcond.sized
    have hshift : (cond.lshr (.ofNat cond.width 4)).Sized w := lshr_top_sized hs
    have hbit : (ofNat (cond.lshr (ofNat cond.width 4)).width 1).Sized w := hshift.width ▸ sized_ofNat _ _
    have hterm := armTerm_sized (fun f => (h f).1) (v / 2)
    obtain ⟨cs, hrun⟩ := h.armCondition_run hcond (by omega)
    refine ⟨_, cs, hrun, fun m hm hz hc ho => ?_⟩
    have eval_negates : (armNegates cond).eval m = v % 2 := by
      rw [armNegates, hshift.eval_and hbit, hshift.width, eval_one (by omega), hs.width, hs.eval_lshr (by omega), and_one_is_mod,
        shiftRight_eq_div_pow]
      exact congrArg (· % 2) hm
    rw [(show (armNegates cond).Sized w from hshift.and hbit).eval_xor hterm, eval_negates,
      armTerm_eval (by omega) (fun f => (h f).1) (by omega) hz hc ho]
    split_ifs
    · rfl
    · rw [xor_toNat (mod_lt _ (by decide)), armHolds, decide_eq_false h14, Bool.false_or]

lemma armHolds_sign (hv : v / 2 = 2) (p) : v % 2 ^^^ (p .n).toNat = (armHolds v p).toNat := by
  rw [xor_toNat (mod_lt _ (by decide)), armHolds, hv, armSays, decide_eq_false (by omega), Bool.false_or]

lemma armCondition_copied {y} (hcond : Names cx w cond v 0)
    (hcopy : ∀ f, ∃ cs, flag cx f (cond.and (.ofNat cond.width 0xf)) y b d = .ok ((y.lshr (.ofNat y.width f.place)).and (.ofNat w 1), cs))
    (hy : y.Sized w) (hw : 32 ≤ w) (hv : v < 15 ∨ w = 64 ∧ v < 16) :
    ∃ r cs, armCondition flag w cx cond y b d = .ok (r, cs) ∧ ∀ m, cond.eval m / 16 = v →
      ∀ p, y.eval m % 2 ^ 32 = armNumber (fun f => (p f).toNat) → r.eval m = (armHolds v p).toNat := by
  have hshift : ∀ i, (y.lshr (.ofNat y.width i)).Sized w := fun i => lshr_top_sized hy
  let x (f : ArmFlag) : Bits := (y.lshr (.ofNat y.width f.place)).and (.ofNat w 1)
  have reads : Reads flag w cx _ y b d x := fun f => ⟨(hshift _).and (sized_ofNat w 1), hcopy f⟩
  obtain ⟨r, cs, hr, hval⟩ := reads.armCondition_eval hcond hw hv
  refine ⟨r, cs, hr, fun m hm p hp => ?_⟩
  have shown : ∀ f, (x f).eval m = (p f).toNat := fun f => by
    have hz := (p .z).toNat_le
    have hc := (p .c).toNat_le
    have ho := (p .v).toNat_le
    rw [(hshift _).eval_and (sized_ofNat w 1), eval_one (by omega), hy.width,
      hy.eval_lshr (show f.place < w by cases f <;> exact lt_of_lt_of_le (by decide) hw), and_one_is_mod]
    simp only [armNumber] at hp
    cases f <;> simp only [ArmFlag.place] <;> omega
  have le_one : ∀ f, (x f).eval m ≤ 1 := fun f => (shown f).trans_le (p f).toNat_le
  have heq : (fun f => (x f).eval m % 2 == 1) = p := by
    funext f
    rw [shown f, toNat_mod_two]
  rw [hval m hm (le_one .z) (le_one .c) (le_one .v), heq, shown .n]
  split_ifs with h
  · exact armHolds_sign h p
  · rfl

end

/-! ### The 32-bit machine -/

def ArmOp.arithmetic : List ArmOp := [.add, .sub, .adc, .sbb]

/-- What an operation gives on integers, with a carry that comes in. -/
def ArmOp.exact (op : ArmOp) (x y c : Int) : Int :=
  match op with
  | .add => x + y
  | .sub => x - y
  | .adc => x + y + c
  | .sbb => x - y - (1 - c)
  | _ => x

def ArmOp.subtracts (op : ArmOp) : Bool := op = .sub ∨ op = .sbb

/-- Whether the flags that an operation takes over are in their range. -/
def ArmOp.InRange (op : ArmOp) (b d : Nat) : Prop :=
  match op with
  | .adc | .sbb => d ≤ 1
  | .logic => b ≤ 1 ∧ d ≤ 1
  | .mul | .mull => d < 4
  | _ => True

/-- The words of the flags of a result, given those of its carry and its overflow. -/
def flagWords (w n : Nat) (r c v : Bits) : ArmFlag → Bits
  | .n => r.lshr (.ofNat r.width (n - 1))
  | .z => wordOfCond w (.eqNat r 0)
  | .c => c
  | .v => v

section
variable {w n k : Nat} {x y r c : Bits} {e s : Int} {m : Model}

lemma flagWords_eval (hw : 0 < w) (hn : 0 < n) (hr : r.Neat n) (he : r.eval m = Word.ofInt n e) {difference v}
    (hc : c.eval m = (ArmFlag.c.ofExact n difference e s).toNat) (hv : v.eval m = (ArmFlag.v.ofExact n difference e s).toNat)
    (f) : (flagWords w n r c v f).eval m = (f.ofExact n difference e s).toNat := by
  cases f with
  | n => rw [flagWords, lshr_top_eval hn hr, he, ArmFlag.ofExact]
  | z =>
    rw [flagWords, wordOfCond_eval hw, Cond.eval_eqNat hr.formed (Nat.two_pow_pos _), he]
    rfl
  | c => exact hc
  | v => exact hv

section
variable (hw : 0 < w) (hn : 0 < n) (hk : k ≤ 1) (hx : x.Sized n) (hy : y.Sized n) (hr : r.Neat n)
include hw hn hk hx hy hr

lemma flagWords_sum (hval : r.eval m = add n (add n (x.eval m) (y.eval m)) k) (he : e = x.eval m + y.eval m + k)
    (hs : s = toInt n (x.eval m) + toInt n (y.eval m) + k)
    (hc : c.eval m = (decide (if k = 0 then r.eval m < x.eval m else r.eval m ≤ x.eval m)).toNat) (f) :
    (flagWords w n r c (((r.xor x).and (r.xor y)).lshr (.ofNat ((r.xor x).and (r.xor y)).width (n - 1))) f).eval m =
      (f.ofExact n false e s).toNat := by
  have hfits := add_unsigned_iff (hx.eval_lt m) (hy.eval_lt m) hk
  rw [← he] at hfits
  refine flagWords_eval hw hn hr ?_ ?_ ?_ f
  · rw [hval, he, add_add_eq_ofInt]
  · rw [hc, ArmFlag.ofExact, Bool.false_beq, ← decide_not]
    congr 1
    rw [decide_eq_decide, hfits]
    split_ifs <;> omega
  · rw [sum_overflow hn hk hx hy hr hval, hs, ArmFlag.ofExact]

lemma flagWords_dif (hval : r.eval m = sub n (sub n (x.eval m) (y.eval m)) k) (he : e = x.eval m - y.eval m - k)
    (hs : s = toInt n (x.eval m) - toInt n (y.eval m) - k)
    (hc : c.eval m = (decide (y.eval m + k ≤ x.eval m)).toNat) (f) :
    (flagWords w n r c (((x.xor y).and (x.xor r)).lshr (.ofNat ((x.xor y).and (x.xor r)).width (n - 1))) f).eval m =
      (f.ofExact n true e s).toNat := by
  refine flagWords_eval hw hn hr ?_ ?_ ?_ f
  · rw [hval, he, sub_sub_eq_ofInt hn (hx.eval_lt m) (hy.eval_lt m) hk]
  · rw [hc, ArmFlag.ofExact, Bool.true_beq, he]
    congr 1
    rw [decide_eq_decide, sub_unsigned_iff (hx.eval_lt m)]
  · rw [dif_overflow hn hk hx hy hr hval, hs, ArmFlag.ofExact]

end

end

section
variable {n : Nat} {a b d : Bits} {m : Model}

section
variable (ha : a.Sized n) (hb : b.Sized n)
include ha hb

lemma sum_eval : (a.add b).eval m = add n (add n (a.eval m) (b.eval m)) 0 :=
  (ha.eval_add hb m).trans (add_zero (trunc_lt _ _)).symm

lemma dif_eval : (a.sub b).eval m = sub n (Word.sub n (a.eval m) (b.eval m)) 0 := by
  have hd : sub n (a.eval m) (b.eval m) < 2 ^ n := trunc_lt _ _
  rw [ha.eval_sub hb, sub_eq hd (Nat.two_pow_pos n), if_pos (zero_le _), Nat.sub_zero]

lemma sum_carry_eval (hd : d.Sized n) : ((a.add b).add d).eval m = add n (add n (a.eval m) (b.eval m)) (d.eval m) := by
  rw [(ha.add hb).eval_add hd, ha.eval_add hb]

end

lemma dif_borrow_eval (hn : 0 < n) (ha : a.Sized n) (hb : b.Sized n) (hd : d.Sized n) (hc : d.eval m ≤ 1) :
    ((a.sub b).sub (d.xor (ofNat d.width 1))).eval m = sub n (sub n (a.eval m) (b.eval m)) (1 - d.eval m) := by
  have hone : (ofNat d.width 1).Sized n := hd.width ▸ sized_ofNat _ 1
  rw [(ha.sub hb).eval_sub (hd.xor hone), ha.eval_sub hb, hd.eval_xor hone, hd.width, eval_one hn]
  generalize d.eval m = u at hc
  interval_cases u <;> rfl

end

section
variable {a b d : Bits} {m : Model} {op : ArmOp}

lemma ArmOp.result_neat (op : ArmOp) (ha : a.Neat 32) (hb : b.Neat 32) (hd : d.Neat 32) : (op.result a b d).Neat 32 := by
  have hone : (Bits.ofNat d.width 1).Neat 32 := hd.width ▸ neat_ofNat _ 1
  cases op with
  | add => exact ha.add hb
  | sub => exact ha.sub hb
  | adc => exact (ha.add hb).add hd
  | sbb => exact (ha.sub hb).sub (hd.xor hone)
  | _ => exact ha

lemma ArmOp.flag_sized (op : ArmOp) (f) (ha : a.Neat 32) (hb : b.Neat 32) (hd : d.Neat 32) : (op.flag f a b d).Sized 32 := by
  have hr := (op.result_neat ha hb hd)
  have one : (Bits.ofNat 32 1).Sized 32 := sized_ofNat 32 1
  have word : ∀ c, (wordOfCond 32 c).Sized 32 := wordOfCond_sized (by decide)
  fun_cases ArmOp.flag op f a b d with
  | case1 => exact (lshr_top_sized ha).and one
  | case2 => exact lshr_top_sized hb
  | case3 => exact lshr_top_sized hr
  | case4 | case5 | case6 | case7 => exact word _
  | case8 | case9 => exact (word _).ite (word _) _
  | case10 => exact hb.toSized
  | case11 => exact (lshr_top_sized hd).and one
  | case12 | case13 => exact lshr_top_sized ((hr.xor ha).and (hr.xor hb))
  | case14 | case15 => exact lshr_top_sized ((ha.xor hb).and (ha.xor hr))
  | case16 => exact hd.toSized
  | case17 => exact hd.toSized.and one

section
variable (hop : op ∈ ArmOp.arithmetic) (f : ArmFlag)
include hop f

lemma ArmOp.flag_eq : op.flag f a b d = flagWords 32 32 (op.result a b d) (op.flag .c a b d) (op.flag .v a b d) f := by
  simp only [ArmOp.arithmetic, List.mem_cons, List.not_mem_nil, or_false] at hop
  rcases hop with rfl | rfl | rfl | rfl <;> cases f <;> rfl

/-- **The flags of sums and differences** are those of the exact result. -/
theorem ArmOp.flag_exact (ha : a.Neat 32) (hb : b.Neat 32) (hd : d.Neat 32) (hrange : op.InRange (b.eval m) (d.eval m)) :
    (op.flag f a b d).eval m = (f.ofExact 32 op.subtracts (op.exact (a.eval m) (b.eval m) (d.eval m))
      (op.exact (toInt 32 (a.eval m)) (toInt 32 (b.eval m)) (d.eval m))).toNat := by
  have hr := op.result_neat ha hb hd
  have word : ∀ c, (wordOfCond 32 c).eval m = (c.eval m).toNat := fun c => wordOfCond_eval (by decide) c m
  have size : ∀ c, (wordOfCond 32 c).Sized 32 := wordOfCond_sized (by decide)
  rw [ArmOp.flag_eq hop]
  cases op with
  | add =>
    refine flagWords_sum (by decide) (by decide) (zero_le 1) ha hb hr (sum_eval ha hb)
      (Int.add_zero _).symm (Int.add_zero _).symm ?_ f
    exact (word _).trans (congrArg Bool.toNat (ult_eval hr ha))
  | sub =>
    refine flagWords_dif (by decide) (by decide) (zero_le 1) ha hb hr (dif_eval ha hb)
      (Int.sub_zero _).symm (Int.sub_zero _).symm ?_ f
    exact (word _).trans (congrArg Bool.toNat (ule_eval hb ha))
  | adc =>
    refine flagWords_sum (by decide) (by decide) hrange ha hb hr (sum_carry_eval ha hb hd) rfl rfl ?_ f
    change (mkIte (nonzero d) (wordOfCond 32 (ule (ArmOp.adc.result a b d) a))
      (wordOfCond 32 (ult (ArmOp.adc.result a b d) a))).eval m = _
    rw [eval_mkIte (size _) (size _), word, word, ult_eval hr ha, ule_eval hr ha]
    simp only [eval_nonzero hd.formed]
    split_ifs <;> first | rfl | contradiction
  | sbb =>
    have hc : d.eval m ≤ 1 := hrange
    refine flagWords_dif (by decide) (by decide) (by omega) ha hb hr (dif_borrow_eval (by decide) ha hb hd hc) ?_ ?_ ?_ f
    · rw [ArmOp.exact, cast_sub hc, cast_one]
    · rw [ArmOp.exact, cast_sub hc, cast_one]
    · change (mkIte (nonzero d) (wordOfCond 32 (ule b a)) (wordOfCond 32 (ult b a))).eval m = _
      rw [eval_mkIte (size _) (size _), word, word, ult_eval hb ha, ule_eval hb ha]
      simp only [eval_nonzero hd.formed]
      split_ifs <;> congr 2 <;> apply propext <;> omega
  | _ => exact absurd hop (by decide)

end

lemma ArmOp.flag_le_one (op : ArmOp) (f) (ha : a.Neat 32) (hb : b.Neat 32) (hd : d.Neat 32)
    (hrange : op.InRange (b.eval m) (d.eval m)) : (op.flag f a b d).eval m ≤ 1 := by
  by_cases hop : op ∈ ArmOp.arithmetic
  · rw [ArmOp.flag_exact hop f ha hb hd hrange]
    exact Bool.toNat_le _
  have low : ∀ {x : Bits}, x.Sized 32 → (x.and (Bits.ofNat 32 1)).eval m ≤ 1 := fun hx => by
    rw [hx.eval_and (sized_ofNat 32 1)]
    exact and_le_right
  have sign : ∀ {x : Bits}, x.Sized 32 → (x.lshr (Bits.ofNat x.width 31)).eval m ≤ 1 := fun hx =>
    (lshr_top_eval (by decide) hx m).trans_le (Bool.toNat_le _)
  have word : ∀ c, (wordOfCond 32 c).eval m ≤ 1 := fun c => (wordOfCond_eval (by decide) c m).trans_le (Bool.toNat_le _)
  have shift : ∀ {x : Bits} (i : Nat), x.Sized 32 → (x.lshr (Bits.ofNat x.width i)).Sized 32 := fun i hx => lshr_top_sized hx
  cases op with
  | copy => cases f <;> exact low (shift _ ha)
  | logic =>
    cases f with
    | n => exact sign ha.toSized
    | z => exact word _
    | c => exact hrange.1
    | v => exact hrange.2
  | mul =>
    cases f with
    | n => exact sign ha.toSized
    | z => exact word _
    | c => exact low (shift _ hd)
    | v => exact low hd
  | mull =>
    cases f with
    | n => exact sign hb
    | z => exact word _
    | c => exact low (shift _ hd)
    | v => exact low hd
  | _ => exact absurd (by decide) hop

lemma ArmOp.reads {cx code} (hcode : cx.pick code = .ok k) (hop : ArmOp.ofCode? k = some op)
    (ha : a.Neat 32) (hb : b.Neat 32) (hd : d.Neat 32) : Reads armFlag 32 cx code a b d fun f => op.flag f a b d :=
  fun f => ⟨op.flag_sized f ha hb hd, _, by simp [armFlag, hcode, hop]; rfl⟩

def armComparing : List Nat := [0, 1, 2, 3, 8, 9, 10, 11, 12, 13]

lemma difference_flags {n u v : Nat} (hn : 0 < n) (hu : u < 2 ^ n) (hv : v < 2 ^ n) :
    let p : ArmFlag → Bool := fun f => f.ofExact n true (u - v) (toInt n u - toInt n v)
    p .z = decide (u = v) ∧ p .c = decide (v ≤ u) ∧ (p .n == p .v) = decide (toInt n v ≤ toInt n u) := by
  have hpow := two_pow_eq hn
  have hval := sub_sub_eq_ofInt hn hu hv (zero_le 1)
  rw [sub_sub_eq hn hu hv (zero_le 1), cast_zero, Int.sub_zero] at hval
  have hlt : Word.ofInt n (u - v) < 2 ^ n := ofInt_lt n _
  simp only [ArmFlag.ofExact, Bool.true_beq, decide_eq_decide]
  refine ⟨?_, ?_, ?_⟩
  · rw [← hval]
    split_ifs <;> omega
  · rw [FitsUnsigned]
    omega
  · rw [testBit_top hn hlt, toInt_eq hn hu, toInt_eq hn hv, ← decide_not, Bool.beq_eq_decide_eq, decide_eq_decide, decide_eq_decide,
      FitsSigned]
    split_ifs at * <;> omega

/-- Conditions under the flags of a difference are comparisons of its operands. -/
lemma armHolds_difference {n u v cond : Nat} (hn : 0 < n) (hu : u < 2 ^ n) (hv : v < 2 ^ n) (hcond : cond ∈ armComparing) :
    (armHolds cond fun f => f.ofExact n true (u - v) (toInt n u - toInt n v)) = armCompares n cond u v := by
  obtain ⟨hz, hc, hnv⟩ := difference_flags hn hu hv
  have hinj := toInt_inj hn hu hv
  have habove : (decide (v ≤ u) && !decide (u = v)) = decide (v < u) := by grind
  have hgreater : (!decide (u = v) && decide (toInt n v ≤ toInt n u)) = decide (toInt n v < toInt n u) := by grind
  simp only [armComparing, List.mem_cons, List.not_mem_nil, or_false] at hcond
  rcases hcond with rfl | rfl | rfl | rfl | rfl | rfl | rfl | rfl | rfl | rfl <;>
    simp only [armHolds, armSays, armCompares, reduceDiv, reduceMod, reduceLeDiff, decide_false, Bool.false_or,
      hz, hc, hnv, habove, hgreater]

end

/-- **Flags and conditions of the 32-bit machine.** For every operation and every condition, with terms for the operands: the
condition from the operands is the condition from the word in which their flags are collected, in every model where the flags
that the operation takes over are in their range. After sums and differences the flags, and the bits of the word, are those of
the exact result; after a difference the ten conditions that compare are the comparisons of its operands. -/
theorem armCondition_eq_copied {cx : HelperContext} {op : ArmOp} {k v : Nat} (hop : ArmOp.ofCode? k = some op) (hv : v < 15)
    {code cond copy a b d : Bits} (hcode : cx.pick code = .ok k) (hcond : Names cx 32 cond v k)
    (hcopy : Names cx 32 copy v 0) (ha : a.Neat 32) (hb : b.Neat 32) (hd : d.Neat 32) (b' d' : Bits) :
    ∃ (x : ArmFlag → Bits) (word direct copied : Bits), (∀ f, ∃ cs, armFlag cx f code a b d = .ok (x f, cs)) ∧
      (∃ cs, armAll armFlag 32 cx code a b d = .ok (word, cs)) ∧
      (∃ cs, armCondition armFlag 32 cx cond a b d = .ok (direct, cs)) ∧
      (∃ cs, armCondition armFlag 32 cx copy word b' d' = .ok (copied, cs)) ∧
      ∀ m, cond.eval m / 16 = v → copy.eval m / 16 = v → op.InRange (b.eval m) (d.eval m) →
        direct.eval m = copied.eval m ∧ word.eval m = armNumber (fun f => (x f).eval m) ∧
        (op ∈ ArmOp.arithmetic → ∀ f, (x f).eval m = (f.ofExact 32 op.subtracts (op.exact (a.eval m) (b.eval m) (d.eval m))
            (op.exact (Word.toInt 32 (a.eval m)) (Word.toInt 32 (b.eval m)) (d.eval m))).toNat) ∧
        (op = .sub → v ∈ armComparing → direct.eval m = (Word.armCompares 32 v (a.eval m) (b.eval m)).toNat) := by
  have reads := ArmOp.reads hcode hop ha hb hd
  obtain ⟨word, cs, hword, hsize, hval⟩ := reads.armAll_eval (Nat.le_refl 32)
  obtain ⟨direct, ds, hdirect, hdval⟩ := (ArmOp.reads hcond.pick_op hop ha hb hd).armCondition_eval hcond (Nat.le_refl 32) (.inl hv)
  have hshown : ∀ f, ∃ cs, armFlag cx f (copy.and (Bits.ofNat copy.width 0xf)) word b' d' =
      .ok ((word.lshr (Bits.ofNat word.width f.place)).and (Bits.ofNat 32 1), cs) := fun f =>
    ⟨_, by simp [armFlag, hcopy.pick_op, ArmOp.ofCode?, ArmOp.flag]; rfl⟩
  obtain ⟨copied, es, hcopied, hcval⟩ := armCondition_copied hcopy hshown hsize (Nat.le_refl 32) (.inl hv)
  refine ⟨_, word, direct, copied, fun f => (reads f).2, ⟨cs, hword⟩, ⟨ds, hdirect⟩, ⟨es, hcopied⟩, fun m hm hm' hrange => ?_⟩
  have le_one := fun f => op.flag_le_one f ha hb hd hrange
  have hmod : ∀ f, (op.flag f a b d).eval m % 2 = (op.flag f a b d).eval m := fun f => Nat.mod_eq_of_lt (Nat.lt_succ_of_le (le_one f))
  have hnumber : word.eval m = armNumber fun f => (op.flag f a b d).eval m := by
    rw [hval m, Nat.sub_self, pow_zero, mul_one]
    simp only [hmod]
  -- each flag is a bit, so that the condition is decided by truth values
  have hholds : direct.eval m = (armHolds v fun f => (op.flag f a b d).eval m % 2 == 1).toNat := by
    rw [hdval m hm (le_one .z) (le_one .c) (le_one .v)]
    split_ifs with hsign
    · rw [toNat_of_le_one (le_one .n)]
      exact armHolds_sign hsign fun f => (op.flag f a b d).eval m % 2 == 1
    · rfl
  refine ⟨?_, hnumber, fun harith f => ArmOp.flag_exact harith f ha hb hd hrange, ?_⟩
  · rw [hholds, hcval m hm' (fun f => (op.flag f a b d).eval m % 2 == 1)]
    rw [Nat.mod_eq_of_lt (hsize.eval_lt m), hnumber]
    simp only [← toNat_of_le_one (le_one _)]
  · rintro rfl hcomp
    rw [hholds, ← armHolds_difference (by decide) (ha.eval_lt m) (hb.eval_lt m) hcomp]
    congr 2
    funext f
    rw [ArmOp.flag_exact (by decide) f ha hb hd hrange]
    exact toNat_mod_two _

/-- The difference of the largest and the least signed word is negative and overflows, so that the first is not less. -/
theorem armCondition_eq_copied_overflow :
    ∃ word direct copied, (∃ cs, armAll armFlag 32 numberContext (.lit 32 2) (.lit 32 0x7fffffff) (.lit 32 0x80000000) (.lit 32 0) =
        .ok (word, cs)) ∧
      (∃ cs, armCondition armFlag 32 numberContext (.lit 32 0xa2) (.lit 32 0x7fffffff) (.lit 32 0x80000000) (.lit 32 0) =
        .ok (direct, cs)) ∧
      (∃ cs, armCondition armFlag 32 numberContext (.lit 32 0xa0) word (.lit 32 0) (.lit 32 0) = .ok (copied, cs)) ∧
      ∀ m, word.eval m = 0x90000000 ∧ direct.eval m = 1 ∧ copied.eval m = 1 := by
  have number : ∀ {v : Nat}, v < 2 ^ 32 → (Bits.lit 32 v).Neat 32 := neat_lit
  have value : ∀ {v : Nat} (m : Model), v < 2 ^ 32 → (Bits.lit 32 v).eval m = v := fun m h => eval_lit h m
  obtain ⟨x, word, direct, copied, -, hword, hdirect, hcopied, h⟩ :=
    @armCondition_eq_copied numberContext .sub 2 10 rfl (by decide) (.lit 32 2) (.lit 32 0xa2) (.lit 32 0xa0)
      (.lit 32 0x7fffffff) (.lit 32 0x80000000) (.lit 32 0) rfl ⟨sized_lit (by decide), rfl, rfl⟩ ⟨sized_lit (by decide), rfl, rfl⟩
      (number (by decide)) (number (by decide)) (number (by decide)) (.lit 32 0) (.lit 32 0)
  refine ⟨word, direct, copied, hword, hdirect, hcopied, fun m => ?_⟩
  obtain ⟨hsame, hnumber, hflags, hcompare⟩ := h m (by rw [value m (by decide)]) (by rw [value m (by decide)]) trivial
  have hgreater := hcompare rfl (by decide)
  rw [value m (by decide), value m (by decide)] at hgreater
  simp only [hflags (by decide), value m (show 0x7fffffff < 2 ^ 32 by decide), value m (show 0x80000000 < 2 ^ 32 by decide),
    value m (show 0 < 2 ^ 32 by decide)] at hnumber
  exact ⟨hnumber.trans (by decide), hgreater.trans (by decide), hsame ▸ hgreater.trans (by decide)⟩

end Flags

end SymExec
