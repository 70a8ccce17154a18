import Mathlib.Data.Int.ModEq
import SymExec.Proofs.ArmFlags

/-!
# Flags of 64-bit ARM

The 64-bit machine computes the flags of an operation on words or on their low halves.
-/

namespace SymExec.Flags

open Bits Word Nat Cond Arm64Op

/-- What an operation gives on integers, with a carry that comes in. -/
def Arm64Op.exact (op : Arm64Op) (x y c : Int) : Int :=
  match op with
  | .add => x + y
  | .sub => x - y
  | .adc => x + y + c
  | .sbc => x - y - (1 - c)
  | _ => x

def Arm64Op.subtracts (op : Arm64Op) : Bool := op = .sub ∨ op = .sbc

def Arm64Op.carries (op : Arm64Op) : Bool := op = .adc ∨ op = .sbc

def operandBits (wide : Bool) : Nat := if wide then 64 else 32

/-- The flag that an operation on words or halves is to leave. -/
def Arm64Op.due (op : Arm64Op) (wide : Bool) (f : ArmFlag) (u v c : Nat) : Bool :=
  let n := operandBits wide
  f.ofExact n op.subtracts (op.exact (u % 2 ^ n : Nat) (v % 2 ^ n : Nat) c)
    (op.exact (toInt n (u % 2 ^ n)) (toInt n (v % 2 ^ n)) c)

/-- Where a flag comes out right: overflow always; the others on words, and on halves if the high halves are zero and the result
does not leave the low ones. -/
def Arm64Op.Exact (op : Arm64Op) (wide : Bool) (f : ArmFlag) (u v c : Nat) : Prop :=
  f = .v ∨ (wide = true ∨ u < 2 ^ 32 ∧ v < 2 ^ 32 ∧ FitsUnsigned 32 (op.exact u v c)) ∧
    ¬ (f = .c ∧ op = .sbc ∧ u = v ∧ (v = 0 ↔ c = 1))

section
variable {op : Arm64Op} {a b d : Bits} {m : Model} {n : Nat} {wide : Bool} {f : ArmFlag}

/-! ### Results -/

lemma Arm64Op.result_neat (ha : a.Neat n) (hb : b.Neat n) (hd : op.carries = true → d.Neat n) : (op.result a b d).Neat n := by
  cases op with
  | add => exact ha.add hb
  | sub => exact ha.sub hb
  | adc => exact (ha.add hb).add (hd rfl)
  | sbc =>
    have hd := hd rfl
    exact (ha.sub hb).sub (hd.xor (hd.width ▸ neat_ofNat _ 1))
  | _ => exact ha

lemma Arm64Op.result_eval (hn : 0 < n) (ha : a.Neat n) (hb : b.Neat n) (hd : op.carries = true → d.Neat n ∧ d.eval m ≤ 1) :
    (op.result a b d).eval m = Word.ofInt n (op.exact (a.eval m) (b.eval m) (d.eval m)) := by
  have hu := ha.eval_lt m
  have hv := hb.eval_lt m
  have hself : a.eval m = Word.ofInt n (a.eval m) := ((ofInt_natCast n _).trans (trunc_of_lt hu)).symm
  cases op with
  | copy | logic => exact hself
  | add =>
    refine (sum_eval ha.toSized hb).trans ?_
    rw [add_add_eq_ofInt, Nat.cast_zero, Int.add_zero, exact]
  | sub =>
    refine (dif_eval ha.toSized hb).trans ?_
    rw [sub_sub_eq_ofInt hn hu hv (zero_le 1), Nat.cast_zero, Int.sub_zero, exact]
  | adc => exact (sum_carry_eval ha hb (hd rfl).1).trans (add_add_eq_ofInt ..)
  | sbc =>
    obtain ⟨hd, hc⟩ := hd rfl
    refine (dif_borrow_eval hn ha hb hd hc).trans ?_
    rw [sub_sub_eq_ofInt hn hu hv (by omega), cast_sub hc, Nat.cast_one, exact]

lemma Arm64Op.ofInt_exact_low (op : Arm64Op) (k u v c : Nat) :
    Word.ofInt k (op.exact u v c) = Word.ofInt k (op.exact (u % 2 ^ k) (v % 2 ^ k) c) := by
  have low : ∀ x, (x) ≡ (x % 2 ^ k) [ZMOD (2 ^ k)] := fun x => by exact (Int.mod_modEq _ _).symm
  have h : op.exact u v c ≡ op.exact (u % 2 ^ k) (v % 2 ^ k) c [ZMOD (2 ^ k)] := by
    cases op with
    | add => exact (low u).add (low v)
    | sub => exact (low u).sub (low v)
    | adc => exact ((low u).add (low v)).add_right _
    | sbc => exact ((low u).sub (low v)).sub_right _
    | _ => exact low u
  exact congrArg Int.toNat h

/-! ### Overflow -/

lemma Arm64Op.overflow_sized (hn : n ≤ 64) (ha : a.Neat n) (hb : b.Neat n) (hd : op.carries = true → d.Neat n) :
    (op.overflow a b d).Sized 64 := by
  have hr := (op.result_neat ha hb hd)
  have last : ∀ {x : Bits}, x.Sized n → ((x.lshr (.ofNat a.width (a.width - 1))).zext (64 - a.width)).Sized 64 := fun hx => by
    have h := (hx.lshr (sized_ofNat n (n - 1))).zext (64 - n)
    rwa [Nat.add_sub_cancel' hn, ← ha.width] at h
  cases op with
  | add | adc => exact last ((hr.xor ha).and (hr.xor hb))
  | copy | sub | sbc | logic => exact last ((ha.xor hb).and (ha.xor hr))

/-- **The overflow flag** says that the exact result on signed operands does not fit. -/
theorem Arm64Op.overflow_eval (hop : op ≠ .copy ∧ op ≠ .logic) (hn : 0 < n) (ha : a.Neat n) (hb : b.Neat n)
    (hd : op.carries = true → d.Neat n ∧ d.eval m ≤ 1) : (op.overflow a b d).eval m =
      (!decide (FitsSigned n (op.exact (toInt n (a.eval m)) (toInt n (b.eval m)) (d.eval m)))).toNat := by
  have hr := (op.result_neat ha hb fun h => (hd h).1)
  have sum : ∀ {k}, k ≤ 1 → (op.result a b d).eval m = Word.add n (Word.add n (a.eval m) (b.eval m)) k →
      (((((op.result a b d).xor a).and ((op.result a b d).xor b)).lshr (Bits.ofNat a.width (a.width - 1))).zext
        (64 - a.width)).eval m =
      (!decide (FitsSigned n (toInt n (a.eval m) + toInt n (b.eval m) + k))).toNat := fun hk he => by
    have hs := (hr.xor ha).and (hr.xor hb)
    rw [ha.width, (hs.lshr (sized_ofNat n _)).eval_zext, ← sum_overflow hn hk ha hb hr he, hs.width]
  have dif : ∀ {k}, k ≤ 1 → (op.result a b d).eval m = Word.sub n (Word.sub n (a.eval m) (b.eval m)) k →
      ((((a.xor b).and (a.xor (op.result a b d))).lshr (Bits.ofNat a.width (a.width - 1))).zext (64 - a.width)).eval m =
      (!decide (FitsSigned n (toInt n (a.eval m) - toInt n (b.eval m) - k))).toNat := fun hk he => by
    have hs := (ha.xor hb).and (ha.xor hr)
    rw [ha.width, (hs.lshr (sized_ofNat n _)).eval_zext, ← dif_overflow hn hk ha hb hr he, hs.width]
  cases op with
  | copy => exact absurd rfl hop.1
  | logic => exact absurd rfl hop.2
  | add =>
    refine (sum (zero_le 1) (sum_eval ha hb)).trans ?_
    rw [cast_zero, Int.add_zero, exact]
  | sub =>
    refine (dif (zero_le 1) (dif_eval ha hb)).trans ?_
    rw [cast_zero, Int.sub_zero, exact]
  | adc =>
    obtain ⟨hd, hc⟩ := hd rfl
    exact sum hc (sum_carry_eval ha hb hd)
  | sbc =>
    obtain ⟨hd, hc⟩ := hd rfl
    refine (dif (by omega) (dif_borrow_eval hn ha hb hd hc)).trans ?_
    rw [cast_sub hc, cast_one, exact]

/-- **The carry flag**, which is wrong where the comparison of a difference with a borrow is chosen wrong. -/
theorem Arm64Op.carry_spec (hop : op ≠ .copy) (wide) (ha : a.Neat 64) (hb : b.Neat 64) (hd : d.Neat 64) :
    ∃ x, op.flag wide .c a b d = .ok x ∧ x.Sized 64 ∧ ∀ m s, (op.carries = true → d.eval m ≤ 1) → x.eval m ≤ 1 ∧
      (¬ (op = .sbc ∧ a.eval m = b.eval m ∧ (b.eval m = 0 ↔ d.eval m = 1)) →
        x.eval m = (ArmFlag.c.ofExact 64 op.subtracts (op.exact (a.eval m) (b.eval m) (d.eval m)) s).toNat) := by
  have hr : (op.result a b d).Neat 64 := op.result_neat ha hb fun _ => hd
  have size : ∀ c, (wordOfCond 64 c).Sized 64 := wordOfCond_sized (by decide)
  have word : ∀ c m, (wordOfCond 64 c).eval m = (c.eval m).toNat := wordOfCond_eval (by decide)
  have choice : ∀ (c c' c'') m, (mkIte c (wordOfCond 64 c') (wordOfCond 64 c'')).eval m =
      (if c.eval m then c'.eval m else c''.eval m).toNat := fun c c' c'' m => by
    rw [eval_mkIte (size _) (size _), word, word]
    split_ifs <;> rfl
  cases op with
  | copy => exact absurd rfl hop
  | add =>
    refine ⟨_, rfl, size _, fun m s _ => ?_⟩
    have hfits := add_unsigned_iff (ha.eval_lt m) (hb.eval_lt m) (zero_le 1)
    rw [← sum_eval ha hb, cast_zero, Int.add_zero, if_pos rfl] at hfits
    rw [word, ult_eval hr ha]
    refine ⟨Bool.toNat_le _, fun _ => congrArg _ ?_⟩
    change decide ((a.add b).eval m < a.eval m) = (false == decide (FitsUnsigned 64 (a.eval m + b.eval m)))
    rw [Bool.false_beq, ← decide_not, decide_eq_decide, hfits, not_le]
  | sub =>
    refine ⟨_, rfl, size _, fun m s _ => ?_⟩
    have hfits := sub_unsigned_iff (n := 64) (v := b.eval m) (ha.eval_lt m) 0
    rw [word, uge, ule_eval hb ha]
    refine ⟨Bool.toNat_le _, fun _ => congrArg _ ?_⟩
    change _ = (true == decide (FitsUnsigned 64 (a.eval m - b.eval m)))
    rw [Bool.true_beq]
    simpa using hfits.symm
  | adc =>
    refine ⟨_, rfl, (size _).ite (size _) _, fun m s hc => ?_⟩
    have hc := hc rfl
    have hu := ha.eval_lt m
    have hv := hb.eval_lt m
    have hsum : (adc.result a b d).eval m = _ := (sum_carry_eval ha hb hd).trans (add_add_eq hu hv hc)
    rw [choice, ult_eval hr ha, ule_eval hr ha]
    refine ⟨Bool.toNat_le _, fun _ => congrArg _ ?_⟩
    change _ = (false == decide (FitsUnsigned 64 (a.eval m + b.eval m + d.eval m)))
    rw [Bool.false_beq, ← decide_not]
    simp only [eval_nonzero hb.formed]
    -- a sum with a second operand that is not zero, or with a carry, is not the first one
    split_ifs at hsum ⊢ <;> rw [decide_eq_decide, FitsUnsigned] <;> omega
  | sbc =>
    refine ⟨_, rfl, (size _).ite (size _) _, fun m s hc => ?_⟩
    have hc := hc rfl
    have hu := ha.eval_lt m
    rw [choice, uge, ugt, ult_eval hb ha, ule_eval hb ha]
    refine ⟨Bool.toNat_le _, fun hchosen => congrArg _ ?_⟩
    change _ = (true == decide (FitsUnsigned 64 (a.eval m - b.eval m - (1 - d.eval m))))
    rw [Bool.true_beq]
    simp only [eval_nonzero hb.formed]
    have hchosen : ¬ (a.eval m = b.eval m ∧ (b.eval m = 0 ↔ d.eval m = 1)) := fun h => hchosen ⟨rfl, h⟩
    split_ifs <;> rw [decide_eq_decide, FitsUnsigned] <;> omega
  | logic =>
    refine ⟨_, rfl, sized_lit (by decide), fun m s _ => ?_⟩
    have hu := ha.eval_lt m
    rw [eval_lit (by decide)]
    refine ⟨by decide, fun _ => ?_⟩
    change 0 = (false == decide (FitsUnsigned 64 (a.eval m))).toNat
    rw [decide_eq_true (show FitsUnsigned 64 (a.eval m) from ⟨by omega, by omega⟩)]
    rfl

/-! ### All flags -/

/-- A result that does not leave the low half has one sign bit, zero and carry in both sizes. -/
lemma ofExact_low {e s s' : Int} (he : FitsUnsigned 32 e) (hf : f = .z ∨ f = .c) (difference) :
    f.ofExact 64 difference e s = f.ofExact 32 difference e s' := by
  obtain ⟨h0, h32⟩ := he
  lift e to Nat using h0
  have h : e < 2 ^ 32 := by omega
  rcases hf with rfl | rfl
  · rw [ArmFlag.ofExact, ArmFlag.ofExact, ofInt_natCast, ofInt_natCast, trunc_of_lt h, trunc_of_lt (by omega)]
  · rw [ArmFlag.ofExact, ArmFlag.ofExact, decide_eq_true (show FitsUnsigned 64 e from ⟨by omega, by omega⟩),
      decide_eq_true (show FitsUnsigned 32 e from ⟨by omega, by omega⟩)]

/-- On words, and on halves that stand alone, zero and carry are those of the exact result of the operands. -/
lemma Arm64Op.due_eq {u v c : Nat} (hu : u < 2 ^ 64) (hv : v < 2 ^ 64)
    (h : wide = true ∨ u < 2 ^ 32 ∧ v < 2 ^ 32 ∧ FitsUnsigned 32 (op.exact u v c)) (hf : f = .z ∨ f = .c)
    (s) : op.due wide f u v c = f.ofExact 64 op.subtracts (op.exact u v c) s := by
  have other : ∀ {n} {e s s'}, f.ofExact n op.subtracts e s = f.ofExact n op.subtracts e s' := by
    rcases hf with rfl | rfl <;> intros <;> rfl
  cases wide with
  | true =>
    simp only [due, operandBits, if_true, mod_eq_of_lt hu, mod_eq_of_lt hv]
    exact other
  | false =>
    obtain ⟨hu, hv, hfits⟩ := h.resolve_left (by decide)
    simp only [due, operandBits, Bool.false_eq_true, if_false, mod_eq_of_lt hu, mod_eq_of_lt hv]
    exact (ofExact_low hfits hf _).symm

lemma Arm64Op.flag_sign (hop : op ≠ .copy) (wide) : op.flag wide .n a b d =
    .ok ((op.result a b d).lshr (.ofNat (op.result a b d).width (operandBits wide - 1))) := by
  cases op with
  | copy => exact absurd rfl hop
  | _ => cases wide <;> rfl

lemma Arm64Op.flag_zero (hop : op ≠ .copy) (wide) : op.flag wide .z a b d = .ok (wordOfCond 64 (.eqNat (op.result a b d) 0)) := by
  cases op with
  | copy => exact absurd rfl hop
  | _ => rfl

lemma Arm64Op.flag_overflow (hop : op ≠ .copy ∧ op ≠ .logic) (h : wide = true ∨ op.carries = false) :
    op.flag wide .v a b d = .ok (if wide then op.overflow a b d else op.overflow (a.slice 31 0) (b.slice 31 0) d) := by
  cases op with
  | copy => exact absurd rfl hop.1
  | logic => exact absurd rfl hop.2
  | add | sub => cases wide <;> rfl
  | adc | sbc =>
    obtain rfl : wide = true := h.resolve_right (by decide)
    rfl

section
variable (ha : a.Neat 64) (hb : b.Neat 64) (hd : d.Neat 64)
include ha hb hd

/-- The sign stands in the lowest bit of its word, and alone if the operation is on words or its result not longer than a
half. -/
lemma Arm64Op.sign_spec (wide : Bool) (hc : op.carries = true → d.eval m ≤ 1) :
    let x := (op.result a b d).lshr (.ofNat (op.result a b d).width (operandBits wide - 1))
    x.eval m % 2 = (op.due wide .n (a.eval m) (b.eval m) (d.eval m)).toNat ∧ ((op.result a b d).eval m < 2 ^ operandBits wide →
        x.eval m = (op.due wide .n (a.eval m) (b.eval m) (d.eval m)).toNat) := by
  have hr : (op.result a b d).Neat 64 := op.result_neat ha hb fun _ => hd
  have hn : 0 < operandBits wide ∧ operandBits wide ≤ 64 := by cases wide <;> decide
  have hdue : op.due wide .n (a.eval m) (b.eval m) (d.eval m) = ((op.result a b d).eval m).testBit (operandBits wide - 1) := by
    have hlow := testBit_mod_two_pow ((op.result a b d).eval m) (operandBits wide) (operandBits wide - 1)
    rw [decide_eq_true (by omega), Bool.true_and] at hlow
    rw [← hlow, result_eval (by decide) ha hb fun h => ⟨hd, hc h⟩, ofInt_low hn.2, op.ofInt_exact_low]
    rfl
  simp only [hr.width]
  rw [hr.eval_lshr (by omega), hdue]
  refine ⟨?_, shiftRight_top hn.1⟩
  rw [toNat_testBit, shiftRight_eq_div_pow]

lemma Arm64Op.overflow_spec (hop : op ≠ .copy) (h : wide = true ∨ op.carries = false) :
    ∃ x, op.flag wide .v a b d = .ok x ∧ x.Sized 64 ∧ ∀ m, (op.carries = true → d.eval m ≤ 1) →
      x.eval m = (op.due wide .v (a.eval m) (b.eval m) (d.eval m)).toNat := by
  by_cases hlogic : op = .logic
  · subst hlogic
    refine ⟨.lit 64 0, rfl, sized_lit (by decide), fun m _ => ?_⟩
    have hn : 0 < operandBits wide := by cases wide <;> decide
    have hfits := fitsSigned_toInt hn (mod_lt (a.eval m) (Nat.two_pow_pos (operandBits wide)))
    change 0 = (!decide (FitsSigned _ _)).toNat
    rw [decide_eq_true]
    · rfl
    · exact hfits
  · rw [op.flag_overflow ⟨hop, hlogic⟩ h]
    cases wide with
    | true =>
      refine ⟨_, rfl, op.overflow_sized (by decide) ha hb fun _ => hd, fun m hc => ?_⟩
      rw [if_pos rfl, overflow_eval ⟨hop, hlogic⟩ (by decide) ha hb fun h => ⟨hd, hc h⟩]
      simp only [due, operandBits, if_true, mod_eq_of_lt (ha.eval_lt m), mod_eq_of_lt (hb.eval_lt m)]
      rfl
    | false =>
      obtain ⟨-, hx, hxv⟩ := low_neat (n := 32) ha (by decide) (by decide)
      obtain ⟨-, hy, hyv⟩ := low_neat (n := 32) hb (by decide) (by decide)
      have hcarry : op.carries ≠ true := by simpa using h
      refine ⟨_, rfl, op.overflow_sized (by decide) hx hy fun h => absurd h hcarry, fun m _ => ?_⟩
      rw [if_neg (by decide), overflow_eval ⟨hop, hlogic⟩ (by decide) hx hy fun h => absurd h hcarry, hxv, hyv]
      rfl

end

lemma Arm64Op.flag_spec (hop : op ≠ .copy) (wide f) (hf : f = .v → wide = true ∨ op.carries = false) (ha : a.Neat 64)
    (hb : b.Neat 64) (hd : d.Neat 64) : ∃ x, op.flag wide f a b d = .ok x ∧ x.Sized 64 ∧ ∀ m, (op.carries = true → d.eval m ≤ 1) →
    (f ≠ .n → x.eval m ≤ 1) ∧ (f = .n → x.eval m % 2 = (op.due wide .n (a.eval m) (b.eval m) (d.eval m)).toNat) ∧
    (op.Exact wide f (a.eval m) (b.eval m) (d.eval m) → x.eval m = (op.due wide f (a.eval m) (b.eval m) (d.eval m)).toNat) := by
  have hr : (op.result a b d).Neat 64 := op.result_neat ha hb fun _ => hd
  cases f with
  | n =>
    refine ⟨_, op.flag_sign hop wide, lshr_top_sized hr, fun m hc => ?_⟩
    obtain ⟨hlow, hword⟩ := op.sign_spec ha hb hd wide hc
    refine ⟨fun h => absurd rfl h, fun _ => hlow, fun hexact => hword ?_⟩
    obtain ⟨h, -⟩ := hexact.resolve_left (by decide)
    cases wide with
    | true => exact hr.eval_lt m
    | false =>
      obtain ⟨-, -, hnonneg, hlt⟩ := h.resolve_left (by decide)
      rw [result_eval (by decide) ha hb fun h => ⟨hd, hc h⟩]
      lift op.exact (a.eval m) (b.eval m) (d.eval m) to Nat using hnonneg with e
      exact (mod_le _ _).trans_lt (by exact_mod_cast hlt)
  | z =>
    refine ⟨_, op.flag_zero hop wide, wordOfCond_sized (by decide) _, fun m hc => ?_⟩
    rw [wordOfCond_eval (by decide), eval_eqNat hr.formed (Nat.two_pow_pos _), result_eval (by decide) ha hb fun h => ⟨hd, hc h⟩]
    refine ⟨fun _ => Bool.toNat_le _, fun h => absurd h (by decide), fun hexact => ?_⟩
    obtain ⟨h, -⟩ := hexact.resolve_left (by decide)
    rw [op.due_eq (ha.eval_lt m) (hb.eval_lt m) h (.inl rfl) 0]
    rfl
  | c =>
    obtain ⟨x, hx, hs, h⟩ := op.carry_spec hop wide ha hb hd
    refine ⟨x, hx, hs, fun m hc => ?_⟩
    obtain ⟨hle, heq⟩ := h m 0 hc
    refine ⟨fun _ => hle, fun h => absurd h (by decide), fun hexact => ?_⟩
    obtain ⟨h, hchosen⟩ := hexact.resolve_left (by decide)
    rw [op.due_eq (ha.eval_lt m) (hb.eval_lt m) h (.inr rfl) 0]
    exact heq fun h => hchosen ⟨rfl, h⟩
  | v =>
    obtain ⟨x, hx, hs, h⟩ := op.overflow_spec ha hb hd hop (hf rfl)
    refine ⟨x, hx, hs, fun m hc => ⟨fun _ => ?_, fun h => absurd h (by decide), fun _ => h m hc⟩⟩
    rw [h m hc]
    exact Bool.toNat_le _

lemma Arm64Op.flag_carry_half (hop : op.carries = true) : op.flag false .v a b d = .error (.of .badTerm) := by
  cases op with
  | adc | sbc => rfl
  | _ => exact absurd hop (by decide)

lemma Arm64Op.ne_copy_of_code {k} (h : ofCode? k = some (op, wide)) (hk : k ≠ 0) : op ≠ .copy := by
  rintro rfl
  rw [ofCode?, if_neg hk, Option.map_eq_some_iff] at h
  obtain ⟨op, hop, heq⟩ := h
  obtain rfl : op = .copy := (Prod.mk.inj heq).1
  exact absurd (List.mem_of_getElem? hop) (by decide)

lemma arm64Flag_eq {cx code k} (hcode : cx.pick code = .ok k) (hop : ofCode? k = some (op, wide)) (f a b d) :
    arm64Flag cx f code a b d = (op.flag wide f a b d).map (·, [eqNat code k]) := by
  simp only [arm64Flag, hcode, hop, ok_bind, pure_eq_ok]
  cases op.flag wide f a b d <;> rfl

end

/-- **Flags and conditions of the 64-bit machine.** For every operation on words or on halves and every condition, with terms for
the operands and a carry that is a bit: the overflow of an operation with a carry on halves is an error, and with it the word of
its flags. Every other flag is right where `Arm64Op.Exact` says so, and the lowest bit of the sign always. The word of the flags
holds them in its high half; the condition from the operands is the condition from this half, for the sign alone if its word is
a bit. From the word itself conditions see no flag. -/
theorem arm64Condition_eq_lowered {cx : HelperContext} {op : Arm64Op} {wide : Bool} {k v : Nat}
    (hop : Arm64Op.ofCode? k = some (op, wide)) (hk : k ≠ 0) (hv : v < 16) {code cond copy a b d : Bits}
    (hcode : cx.pick code = .ok k) (hcond : Names cx 64 cond v k) (hcopy : Names cx 64 copy v 0) (ha : a.Neat 64) (hb : b.Neat 64)
    (hd : d.Neat 64) (b' d' : Bits) :
    (∀ f, if f = .v ∧ wide = false ∧ op.carries = true then arm64Flag cx f code a b d = .error (.of .badTerm)
      else ∃ x cs, arm64Flag cx f code a b d = .ok (x, cs) ∧ ∀ m, (op.carries = true → d.eval m ≤ 1) →
        (f = .n → x.eval m % 2 = (op.due wide .n (a.eval m) (b.eval m) (d.eval m)).toNat) ∧
        (op.Exact wide f (a.eval m) (b.eval m) (d.eval m) → x.eval m = (op.due wide f (a.eval m) (b.eval m) (d.eval m)).toNat)) ∧
    if wide = false ∧ op.carries = true then armAll arm64Flag 64 cx code a b d = .error (.of .badTerm)
    else ∃ (x : ArmFlag → Bits) (word direct lowered copied : Bits), (∀ f, ∃ cs, arm64Flag cx f code a b d = .ok (x f, cs)) ∧
      (∃ cs, armAll arm64Flag 64 cx code a b d = .ok (word, cs)) ∧
      (∃ cs, armCondition arm64Flag 64 cx cond a b d = .ok (direct, cs)) ∧
      (∃ cs, armCondition arm64Flag 64 cx copy (word.lshr (.ofNat 64 32)) b' d' = .ok (lowered, cs)) ∧
      (∃ cs, armCondition arm64Flag 64 cx copy word b' d' = .ok (copied, cs)) ∧
      ∀ m, cond.eval m / 16 = v → copy.eval m / 16 = v → (op.carries = true → d.eval m ≤ 1) →
        word.eval m = armNumber (fun f => (x f).eval m % 2) * 2 ^ 32 ∧
        lowered.eval m = (armHolds v fun f => (x f).eval m % 2 == 1).toNat ∧
        ((x .n).eval m ≤ 1 ∨ v / 2 ≠ 2 → direct.eval m = lowered.eval m) ∧ copied.eval m = (armHolds v fun _ => false).toNat := by
  have hne := Arm64Op.ne_copy_of_code hop hk
  refine ⟨fun f => ?_, ?_⟩
  · split_ifs with h
    · obtain ⟨rfl, rfl, hc⟩ := h
      rw [arm64Flag_eq hcode hop, Arm64Op.flag_carry_half hc]
      rfl
    · have hflag : f = .v → wide = true ∨ op.carries = false := fun hf => by
        by_contra hno
        rw [not_or, Bool.not_eq_true, Bool.not_eq_false] at hno
        exact h ⟨hf, hno⟩
      obtain ⟨x, hx, -, hval⟩ := op.flag_spec hne wide f hflag ha hb hd
      exact ⟨x, _, by rw [arm64Flag_eq hcode hop, hx]; rfl, fun m hc => (hval m hc).2⟩
  · split_ifs with h
    · obtain ⟨rfl, hc⟩ := h
      have ok : ∀ f, f ≠ .v → ∃ x, arm64Flag cx f code a b d = .ok x := fun f hf => by
        obtain ⟨x, hx, -⟩ := op.flag_spec hne false f (fun h => absurd h hf) ha hb hd
        exact ⟨_, by rw [arm64Flag_eq hcode hop, hx]; rfl⟩
      obtain ⟨n, hn⟩ := ok .n (by decide)
      obtain ⟨z, hz⟩ := ok .z (by decide)
      obtain ⟨c, hc'⟩ := ok .c (by decide)
      have ho : arm64Flag cx .v code a b d = .error (.of .badTerm) := by
        rw [arm64Flag_eq hcode hop, Arm64Op.flag_carry_half hc]
        rfl
      simp only [armAll, hn, hz, hc', ho, bind, Except.bind]
    · have hflag : wide = true ∨ op.carries = false := by
        by_contra hno
        rw [not_or, Bool.not_eq_true, Bool.not_eq_false] at hno
        exact h hno
      choose x hx hs hval using fun f => op.flag_spec hne wide f (fun _ => hflag) ha hb hd
      have reads : ∀ {c : Bits}, cx.pick c = .ok k → Reads arm64Flag 64 cx c a b d x := fun hc f =>
        ⟨hs f, _, by rw [arm64Flag_eq hc hop, hx]; rfl⟩
      obtain ⟨word, cs, hword, hsize, hwval⟩ := (reads hcode).armAll_eval (by decide)
      obtain ⟨direct, ds, hdirect, hdval⟩ := (reads hcond.pick_op).armCondition_eval hcond (by decide) (.inr ⟨rfl, hv⟩)
      have hshown : ∀ (y : Bits) f, ∃ cs, arm64Flag cx f (copy.and (Bits.ofNat copy.width 0xf)) y b' d' =
          .ok ((y.lshr (Bits.ofNat y.width f.place)).and (Bits.ofNat 64 1), cs) := fun y f =>
        ⟨_, by rw [arm64Flag_eq hcopy.pick_op rfl]; rfl⟩
      have hlow : (word.lshr (Bits.ofNat 64 32)).Sized 64 := hsize.lshr (sized_ofNat 64 32)
      obtain ⟨lowered, es, hlowered, hlval⟩ := armCondition_copied hcopy (hshown _) hlow (by decide) (.inr ⟨rfl, hv⟩)
      obtain ⟨copied, fs, hcopied, hcval⟩ := armCondition_copied hcopy (hshown _) hsize (by decide) (.inr ⟨rfl, hv⟩)
      refine ⟨x, word, direct, lowered, copied, fun f => (reads hcode f).2, ⟨cs, hword⟩, ⟨ds, hdirect⟩, ⟨es, hlowered⟩,
        ⟨fs, hcopied⟩, fun m hm hm' hc => ?_⟩
      have hholds : lowered.eval m = (armHolds v fun f => (x f).eval m % 2 == 1).toNat := by
        refine hlval m hm' _ ?_
        simp only [toNat_mod]
        rw [hsize.eval_lshr (by decide), hwval m, Nat.shiftRight_eq_div_pow, Nat.mul_div_cancel _ (Nat.two_pow_pos _)]
        exact Nat.mod_eq_of_lt (by simp only [armNumber]; omega)
      refine ⟨hwval m, hholds, fun hsign => ?_, hcval m hm' (fun _ => false) ?_⟩
      · rw [hholds, hdval m hm ((hval .z m hc).1 (by decide)) ((hval .c m hc).1 (by decide)) ((hval .v m hc).1 (by decide))]
        split_ifs with h2
        · rw [toNat_of_le_one (hsign.resolve_right (not_not.2 h2))]
          exact armHolds_sign h2 fun f => (x f).eval m % 2 == 1
        · rfl
      · rw [hwval m]
        exact Nat.mul_mod_left _ _

/-- After the difference of 5 and 5 the condition "equal" holds by the operands, and not by the word of the flags. -/
theorem arm64_equal_lost :
    ∃ word direct copied, (∃ cs, armAll arm64Flag 64 numberContext (.lit 64 4) (.lit 64 5) (.lit 64 5) (.lit 64 0) = .ok (word, cs)) ∧
      (∃ cs, armCondition arm64Flag 64 numberContext (.lit 64 4) (.lit 64 5) (.lit 64 5) (.lit 64 0) = .ok (direct, cs)) ∧
      (∃ cs, armCondition arm64Flag 64 numberContext (.lit 64 0) word (.lit 64 0) (.lit 64 0) = .ok (copied, cs)) ∧
      ∀ m, direct.eval m = 1 ∧ copied.eval m = 0 := by
  have number : ∀ {v : Nat}, v < 2 ^ 64 → (Bits.lit 64 v).Neat 64 := neat_lit
  have value : ∀ {v : Nat} (m : Model), v < 2 ^ 64 → (Bits.lit 64 v).eval m = v := fun m h => eval_lit h m
  obtain ⟨hflags, hrest⟩ := @arm64Condition_eq_lowered numberContext .sub true 4 0 rfl (by decide) (by decide) (.lit 64 4) (.lit 64 4)
    (.lit 64 0) (.lit 64 5) (.lit 64 5) (.lit 64 0) rfl ⟨sized_lit (by decide), rfl, rfl⟩ ⟨sized_lit (by decide), rfl, rfl⟩
    (number (by decide)) (number (by decide)) (number (by decide)) (.lit 64 0) (.lit 64 0)
  rw [if_neg (by decide)] at hrest
  obtain ⟨x, word, direct, lowered, copied, hx, hword, hdirect, -, hcopied, h⟩ := hrest
  have hzero := hflags .z
  rw [if_neg (by decide)] at hzero
  obtain ⟨z, cs, hz, hzval⟩ := hzero
  obtain ⟨cs', hz'⟩ := hx .z
  obtain rfl : z = x .z := (Prod.mk.inj (Except.ok.inj (hz.symm.trans hz'))).1
  refine ⟨word, direct, copied, hword, hdirect, hcopied, fun m => ?_⟩
  obtain ⟨-, hlow, heq, hlost⟩ := h m (by rw [value m (by decide)]) (by rw [value m (by decide)]) (fun h => absurd h (by decide))
  have hset := (hzval m fun h => absurd h (by decide)).2 (.inr ⟨.inl rfl, fun h => absurd h.1 (by decide)⟩)
  rw [value m (by decide), value m (by decide)] at hset
  rw [heq (.inr (by decide)), hlow, hlost]
  simp only [armHolds, armSays, hset]
  decide

end SymExec.Flags
