import SymExec.Procedure.Format
import SymExec.Proofs.Arith
import SymExec.Proofs.Conditions

/-!
# Digits of numerals
-/

namespace SymExec.Exec

open Bits Cond

section
variable {c : Bits} (hc : c.Sized 8) (m : Model)
include hc

lemma eval_between {lo hi : Nat} (hle : lo ≤ hi) (hlt : hi < 256) :
    (mkAnd (uge c (.ofNat 8 lo)) (ule c (.ofNat 8 hi))).eval m = decide (lo ≤ c.eval m ∧ c.eval m ≤ hi) := by
  have hlit {n} (h : n ≤ hi) : (ofNat 8 n).eval m = n := (eval_ofNat 8 n m).trans (Word.trunc_of_lt (by omega))
  rw [eval_mkAnd, uge, ule, ule, eval_mkCmp _ (valid_ofNat ..) hc.valid, eval_mkCmp _ hc.valid (valid_ofNat ..), hlit hle, hlit le_rfl]
  exact (Bool.decide_and ..).symm

/-- **The digits of a base**, each with the number it stands for: a base below ten has one too many. -/
theorem digit_eval_iff {base : Nat} (hbase : 2 ≤ base ∧ base ≤ 36) (n : Nat) :
    (digit base c).1.eval m = true ∧ (digit base c).2.eval m = n ↔ (n < base ∨ n = base ∧ base < 10) ∧
      if n < 10 then c.eval m = 48 + n else c.eval m = 87 + n ∨ c.eval m = 55 + n := by
  have hv := hc.eval_lt m
  have low {k} := hc.sub (sized_ofNat 8 k)
  have high {k} := (low (k := k)).add (sized_ofNat 8 10)
  have hdigit := eval_between hc m (show 48 ≤ if base < 10 then 48 + base else 57 by split <;> omega) (by split <;> omega)
  rw [digit]
  split
  · simp only [hdigit, hc.eval_sub (sized_ofNat ..), eval_ofNat, Word.sub, Word.trunc, decide_eq_true_eq]
    split_ifs <;> omega
  · have hletter (a : Nat) (ha : a ≤ 97) := eval_between hc m (show a ≤ a + base - 11 by omega) (by omega)
    simp only [Cond.any, choose, List.foldr, eval_mkOr, hdigit, hletter 97 (by decide), hletter 65 (by decide),
      eval_mkIte low (high.ite high _), eval_mkIte high high, low.eval_add (sized_ofNat ..), hc.eval_sub (sized_ofNat ..),
      eval_ofNat, Word.sub, Word.add, Word.trunc, Cond.eval, Bool.or_false, Bool.or_eq_true, decide_eq_true_eq]
    split_ifs <;> omega

end

theorem digit_eval_iff_eight : (digit 8 (.lit 8 56)).1.eval (fun _ => 0) = true ∧ (digit 8 (.lit 8 56)).2.eval (fun _ => 0) = 8 :=
  (digit_eval_iff (sized_lit (by decide)) _ (by decide) 8).2 (by decide)

end SymExec.Exec
