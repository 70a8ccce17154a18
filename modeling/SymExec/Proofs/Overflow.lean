import SymExec.Proofs.Comparisons

/-!
# Words and exact results

A machine adds and subtracts words modulo a power of two, with a carry or a borrow that comes in.
-/

namespace SymExec.Word

open Nat Int

open Flags (two_pow_eq testBit_top toInt_eq)

/-- Whether an integer is the value of a word of `n` bits. -/
def FitsUnsigned (n : Nat) (e : Int) : Prop := 0 ≤ e ∧ e < (2 ^ n : Nat)

/-- Whether an integer is the value of a word of `n` bits in two's complement. -/
def FitsSigned (n : Nat) (e : Int) : Prop := -(2 ^ (n - 1) : Nat) ≤ e ∧ e < (2 ^ (n - 1) : Nat)

instance (n : Nat) (e : Int) : Decidable (FitsUnsigned n e) := inferInstanceAs (Decidable (_ ∧ _))

instance (n : Nat) (e : Int) : Decidable (FitsSigned n e) := inferInstanceAs (Decidable (_ ∧ _))

variable {n u v c : Nat}

lemma ofInt_natCast (n v : Nat) : ofInt n v = trunc n v := by rfl

lemma cast_ofInt (n e) : (ofInt n e) = e % (2 ^ n : Nat) :=
  toNat_of_nonneg (emod_nonneg _ (by exact_mod_cast (Nat.two_pow_pos n).ne'))

lemma ofInt_of_neg {e : Int} (h : e < 0) (h' : -(2 ^ n : Nat) ≤ e) : (ofInt n e : Int) = e + (2 ^ n : Nat) := by
  rw [cast_ofInt, ← add_emod_right, emod_eq_of_lt (by omega) (by omega)]

lemma ofInt_low {w : Nat} (h : n ≤ w) (e) : ofInt w e % 2 ^ n = ofInt n e := by
  have hdvd : ((2 ^ n : Nat) : Int) ∣ (2 ^ w : Nat) := natCast_dvd_natCast.2 (pow_dvd_pow 2 h)
  rw [← natCast_inj, natCast_emod, cast_ofInt, cast_ofInt, emod_emod_of_dvd e hdvd]

lemma fitsSigned_toInt (hn : 0 < n) (hu : u < 2 ^ n) : FitsSigned n (toInt n u) := by
  have hpow := two_pow_eq hn
  rw [toInt_eq hn hu, FitsSigned]
  split_ifs <;> omega

/-! ### Sums -/

lemma add_add_eq_ofInt (n u v c : Nat) : add n (add n u v) c = ofInt n (u + v + c) := by
  rw [← natCast_add, ← natCast_add, ofInt_natCast, add, add, trunc, trunc, trunc, mod_add_mod]

section
variable (hn : 0 < n) (hu : u < 2 ^ n) (hv : v < 2 ^ n) (hc : c ≤ 1)
include hu hv hc

lemma add_add_eq : add n (add n u v) c = if u + v + c < 2 ^ n then u + v + c else u + v + c - 2 ^ n := by
  rw [add_add_eq_ofInt, ← natCast_add, ← natCast_add, ofInt_natCast, trunc]
  split_ifs with h
  · exact mod_eq_of_lt h
  · rw [mod_eq_sub_mod (by omega), mod_eq_of_lt (by omega)]

/-- **The carry out of a sum.** The sum does not fit when it came out below an operand, or not above it if a carry came in. -/
theorem add_unsigned_iff : FitsUnsigned n (u + v + c) ↔ if c = 0 then u ≤ add n (add n u v) c else u < add n (add n u v) c := by
  rw [add_add_eq hu hv hc, FitsUnsigned]
  split_ifs <;> omega

include hn in
/-- **Signed overflow of a sum.** The operands have one sign and the result has the other. -/
theorem add_signed_iff : FitsSigned n (toInt n u + toInt n v + c) ↔
      ¬ (u.testBit (n - 1) = v.testBit (n - 1) ∧ u.testBit (n - 1) ≠ (add n (add n u v) c).testBit (n - 1)) := by
  have hr : add n (add n u v) c < 2 ^ n := trunc_lt _ _
  have hpow := two_pow_eq hn
  have heq := add_add_eq hu hv hc
  rw [testBit_top hn hu, testBit_top hn hv, testBit_top hn hr, toInt_eq hn hu, toInt_eq hn hv, FitsSigned]
  simp only [ne_eq, decide_eq_decide]
  split_ifs at * <;> omega

end

lemma testBit_xor_xor (a b c i) : ((a ^^^ b) ^^^ c).testBit i = true ↔ (a / 2 ^ i + b / 2 ^ i + c / 2 ^ i) % 2 = 1 := by
  rw [Nat.testBit_eq_decide_div_mod_eq, decide_eq_true_iff, ← Nat.shiftRight_eq_div_pow, Nat.shiftRight_xor_distrib,
    Nat.shiftRight_xor_distrib, Nat.xor_mod_two_eq, Nat.add_mod, Nat.xor_mod_two_eq, ← Nat.add_mod]
  simp only [Nat.shiftRight_eq_div_pow]

lemma add_half (hn : 8 ≤ n) (hu : u < 2 ^ n) (hv : v < 2 ^ n) (hc : c ≤ 1) :
    ((add n (add n u v) c ^^^ u) ^^^ v).testBit 4 = true ↔ ¬ FitsUnsigned 4 (u % 16 + v % 16 + c) := by
  have heq := add_add_eq hu hv hc
  obtain ⟨k, hk⟩ : 2 ^ 5 ∣ 2 ^ n := pow_dvd_pow 2 (by omega)
  rw [testBit_xor_xor, FitsUnsigned]
  split_ifs at heq <;> omega

/-! ### Differences -/

section
variable (hn : 0 < n) (hu : u < 2 ^ n) (hv : v < 2 ^ n) (hc : c ≤ 1)
include hn hu hv hc

lemma sub_sub_eq : sub n (sub n u v) c = if v + c ≤ u then u - v - c else u + 2 ^ n - v - c := by
  have hone : 1 < 2 ^ n := Nat.one_lt_two_pow (by omega)
  have hd : sub n u v < 2 ^ n := trunc_lt _ _
  rw [Flags.sub_eq hd (by omega), Flags.sub_eq hu hv]
  split_ifs <;> omega

lemma sub_sub_eq_ofInt : sub n (sub n u v) c = ofInt n (u - v - c) := by
  rw [sub_sub_eq hn hu hv hc]
  split_ifs with h
  · rw [show (u : Int) - v - c = ((u - v - c : Nat) : Int) by omega, ofInt_natCast, trunc_of_lt (by omega)]
  · have hwrap := ofInt_of_neg (n := n) (e := u - v - c) (by omega) (by omega)
    omega

/-- **Signed overflow of a difference.** The operands have different signs and the result has not that of the first. -/
theorem sub_signed_iff : FitsSigned n (toInt n u - toInt n v - c) ↔
      ¬ (u.testBit (n - 1) ≠ v.testBit (n - 1) ∧ u.testBit (n - 1) ≠ (sub n (sub n u v) c).testBit (n - 1)) := by
  have hr : sub n (sub n u v) c < 2 ^ n := trunc_lt _ _
  have hpow := two_pow_eq hn
  have heq := sub_sub_eq hn hu hv hc
  rw [testBit_top hn hu, testBit_top hn hv, testBit_top hn hr, toInt_eq hn hu, toInt_eq hn hv, FitsSigned]
  simp only [ne_eq, decide_eq_decide]
  split_ifs at * <;> omega

end

lemma sub_unsigned_iff (hu : u < 2 ^ n) (c : Nat) : FitsUnsigned n (u - v - c) ↔ v + c ≤ u := by
  rw [FitsUnsigned]
  omega

lemma sub_half (hn : 8 ≤ n) (hu : u < 2 ^ n) (hv : v < 2 ^ n) (hc : c ≤ 1) :
    ((sub n (sub n u v) c ^^^ u) ^^^ v).testBit 4 = true ↔ ¬ FitsUnsigned 4 (u % 16 - v % 16 - c) := by
  have heq := sub_sub_eq (by omega) hu hv hc
  obtain ⟨k, hk⟩ : 2 ^ 5 ∣ 2 ^ n := pow_dvd_pow 2 (by omega)
  rw [testBit_xor_xor, FitsUnsigned]
  split_ifs at heq <;> omega

end SymExec.Word
