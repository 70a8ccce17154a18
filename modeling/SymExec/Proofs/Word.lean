import SymExec.Term
import Mathlib.Data.Nat.Bitwise
import Mathlib.Data.Nat.Digits.Defs

/-!
# Words by their bits and bytes

Slices and concatenations are described here by the bits of their results, so that two ways to move the same bits are shown equal
bit by bit.
-/

namespace SymExec.Word

open Nat

/-! ### Bits -/

variable {w v b n : Nat} {hi lo : Nat}

lemma trunc_lt (w v) : trunc w v < 2 ^ w := Nat.mod_lt _ (Nat.two_pow_pos w)

lemma trunc_of_lt (h : v < 2 ^ w) : trunc w v = v := mod_eq_of_lt h

@[simp] lemma testBit_trunc (w v i) : (trunc w v).testBit i = (decide (i < w) && v.testBit i) := testBit_mod_two_pow v w i

@[simp] lemma testBit_slice (hi lo v i : Nat) : (slice hi lo v).testBit i = (decide (i < hi + 1 - lo) && v.testBit (lo + i)) := by
  simp [slice]

lemma slice_lt (hi lo v : Nat) : slice hi lo v < 2 ^ (hi + 1 - lo) := trunc_lt _ _

lemma testBit_concat (hb : b < 2 ^ w) (a i) : (a <<< w ||| b).testBit i = if i < w then b.testBit i else a.testBit (i - w) := by
  rw [← shiftLeft_add_eq_or_of_lt hb, shiftLeft_eq, mul_comm, testBit_two_pow_mul_add _ hb]

lemma slice_congr {h l h' l' u} (hw : h + 1 - l = h' + 1 - l')
    (hbit : ∀ i < h + 1 - l, u.testBit (l + i) = v.testBit (l' + i)) : slice h l u = slice h' l' v := by
  apply eq_of_testBit_eq
  intro i
  rw [testBit_slice, testBit_slice, ← hw]
  by_cases hi : i < h + 1 - l
  · rw [hbit i hi]
  · simp [hi]

lemma slice_slice {h l} (hh : hi < h + 1 - l) (v) : slice hi lo (slice h l v) = slice (hi + l) (lo + l) v :=
  slice_congr (by omega) fun i hi' => by rw [testBit_slice, decide_eq_true (by omega), Bool.true_and, add_left_comm, add_assoc]

lemma slice_concat_low (hb : b < 2 ^ w) (hh : hi < w) (a) : slice hi lo (a <<< w ||| b) = slice hi lo b :=
  slice_congr rfl fun i hi' => by rw [testBit_concat hb, if_pos (by omega)]

lemma slice_concat_high (hb : b < 2 ^ w) (hw : w ≤ lo) (hl : lo ≤ hi) (a) :
    slice hi lo (a <<< w ||| b) = slice (hi - w) (lo - w) a :=
  slice_congr (by omega) fun i _ => by rw [testBit_concat hb, if_neg (by omega), Nat.sub_add_comm hw]

lemma concat_lt {a} (ha : a < 2 ^ w) (hb : b < 2 ^ v) : a <<< v ||| b < 2 ^ (w + v) := add_comm v w ▸ append_lt hb ha

lemma reverseBytes_lt (n v) : reverseBytes n v < 2 ^ (8 * n) := by
  induction n generalizing v with
  | zero => simp [reverseBytes]
  | succ n ih =>
    rw [reverseBytes, shiftLeft_add_eq_or_of_lt (ih _), mul_succ, add_comm]
    exact concat_lt (mod_lt _ (by omega)) (ih _)

/-! ### Bytes -/

/-- Byte `i` of a word, counted from the least significant end. -/
def byte (v i : Nat) : Nat := v >>> (8 * i) % 256

lemma byte_eq_slice (v i) : byte v i = slice (8 * i + 7) (8 * i) v := by
  rw [slice, trunc, show 8 * i + 7 + 1 - 8 * i = 8 by omega]
  rfl

lemma byte_slice {i} (v k) (hlo : lo = 8 * k) (h : 8 * (i + 1) ≤ hi + 1 - lo) : byte (slice hi lo v) i = byte v (k + i) := by
  rw [byte_eq_slice, byte_eq_slice, slice_slice (by omega)]
  congr 1 <;> omega

lemma byte_concat {k} (hb : b < 2 ^ (8 * k)) (a i) :
    byte (a <<< (8 * k) ||| b) i = if i < k then byte b i else byte a (i - k) := by
  simp only [byte_eq_slice]
  split
  · exact slice_concat_low hb (by omega) a
  · rw [slice_concat_high hb (by omega) (by omega)]
    congr 1 <;> omega

lemma byte_succ (v i) : byte v (i + 1) = byte (v / 256) i := by
  rw [byte, byte, mul_succ, add_comm, shiftRight_add, shiftRight_eq_div_pow v 8]

lemma byte_reverseBytes {i} (v) (h : i < n) : byte (reverseBytes n v) i = byte v (n - 1 - i) := by
  induction n generalizing v with
  | zero => omega
  | succ n ih =>
    rw [reverseBytes, shiftLeft_add_eq_or_of_lt (reverseBytes_lt _ _), byte_concat (reverseBytes_lt _ _)]
    split
    · rename_i hi
      rw [ih _ hi, ← byte_succ]
      congr 1
      omega
    · obtain rfl : i = n := by omega
      simp [byte]

lemma ofDigits_byte (h : v < 2 ^ (8 * n)) : ofDigits 256 ((List.range n).map (byte v)) = v := by
  induction n generalizing v with
  | zero =>
    have : v = 0 := by simpa using h
    simp [this]
  | succ n ih =>
    have hv : v / 256 < 2 ^ (8 * n) := by
      rw [div_lt_iff_lt_mul (by omega), show (256 : Nat) = 2 ^ 8 by rfl, ← pow_add]
      simpa [mul_succ] using h
    rw [List.range_succ_eq_map, List.map_cons, List.map_map, ofDigits_cons]
    simp only [Function.comp_def, succ_eq_add_one, byte_succ, ih hv]
    exact mod_add_div v 256

lemma eq_of_byte_eq {u} (hu : u < 2 ^ (8 * n)) (hv : v < 2 ^ (8 * n)) (h : ∀ i < n, byte u i = byte v i) : u = v := by
  rw [← ofDigits_byte hu, ← ofDigits_byte hv, List.map_congr_left fun i hi => h i (List.mem_range.1 hi)]

end SymExec.Word
