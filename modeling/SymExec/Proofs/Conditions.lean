import SymExec.Proofs.Terms

/-!
# The meaning of built conditions

Conditions are built with constants folded, negations pushed inward and equations with a constant taken apart.
-/

namespace SymExec

open Nat Word Bits

/-! ### Formed terms -/

mutual

/-- Whether, down to the conditions inside it, the constants of a vector fit their widths and its operators their operands. -/
def Bits.Formed : Bits → Prop
  | .lit w v => v < 2 ^ w
  | .sym .. => True
  | .un op a => a.Formed ∧ op.Takes a.width
  | .bin op a b => a.Formed ∧ b.Formed ∧ (op = .concat ∨ a.width = b.width)
  | .ite c a b => c.Formed ∧ a.Formed ∧ b.Formed ∧ a.width = b.width
  | .ofFloat _ f => f.Formed

def Cond.Formed : Cond → Prop
  | .lit _ => True
  | .cmp _ a b => a.Formed ∧ b.Formed ∧ a.width = b.width
  | .fcmp _ a b => a.Formed ∧ b.Formed
  | .not a => a.Formed
  | .and a b => a.Formed ∧ b.Formed
  | .or a b => a.Formed ∧ b.Formed

def Flt.Formed : Flt → Prop
  | .lit .. => True
  | .ofBits _ _ a => a.Formed
  | .un _ a => a.Formed
  | .bin _ a b => a.Formed ∧ b.Formed
  | .ite c a b => c.Formed ∧ a.Formed ∧ b.Formed

end

lemma Bits.Formed.valid {a : Bits} (h : a.Formed) : a.Valid := by
  induction a using Bits.Valid.induct with
  | case1 => exact h
  | case2 => trivial
  | case3 op a ih => exact ⟨ih h.1, h.2⟩
  | case4 op a b iha ihb => exact ⟨iha h.1, ihb h.2.1, h.2.2⟩
  | case5 c a b iha ihb => exact ⟨iha h.2.1, ihb h.2.2.1, h.2.2.2⟩
  | case6 => trivial

namespace Cond

/-! ### Connectives and comparisons -/

variable {a : Bits} {w v : Nat}

lemma eval_mkNot {c : Cond} (h : c.Formed) (m) : c.mkNot.eval m = !c.eval m := by
  fun_cases mkNot c with
  | case1 b => rfl
  | case2 b => simp [eval]
  | case3 x y | case4 x y => simp [eval, CmpOp.apply, ← decide_not]
  | case5 x y | case6 x y => simp [eval, CmpOp.apply, ← decide_not, h.2.2]
  | case7 => rfl

lemma formed_mkNot {c : Cond} (h : c.Formed) : c.mkNot.Formed := by
  fun_cases mkNot c with
  | case1 b => trivial
  | case2 b => exact h
  | case3 x y | case4 x y | case5 x y | case6 x y => exact ⟨h.2.1, h.1, h.2.2.symm⟩
  | case7 => exact h

lemma eval_mkAnd (a b m) : (mkAnd a b).eval m = (a.eval m && b.eval m) := by
  fun_cases mkAnd a b <;> simp_all [eval]

lemma eval_mkOr (a b m) : (mkOr a b).eval m = (a.eval m || b.eval m) := by
  fun_cases mkOr a b <;> simp_all [eval]

lemma eval_all (cs m) : (all cs).eval m = true ↔ ∀ c ∈ cs, c.eval m = true := by
  induction cs with
  | nil => exact ⟨fun _ c hc => absurd hc List.not_mem_nil, fun _ => rfl⟩
  | cons c cs ih => rw [all, List.foldr_cons, eval_mkAnd, Bool.and_eq_true, List.forall_mem_cons, ← ih, all]

lemma eval_any (cs m) : (any cs).eval m = true ↔ ∃ c ∈ cs, c.eval m = true := by
  induction cs with
  | nil => exact ⟨nofun, fun ⟨c, hc, _⟩ => absurd hc List.not_mem_nil⟩
  | cons c cs ih =>
    have hcons : (∃ d ∈ c :: cs, d.eval m = true) ↔ c.eval m = true ∨ ∃ d ∈ cs, d.eval m = true := by simp
    rw [any, List.foldr_cons, eval_mkOr, Bool.or_eq_true, hcons, ← ih, any]

lemma eval_mkCmp (op) {b} (ha : a.Valid) (hb : b.Valid) (m) : (mkCmp op a b).eval m = op.apply a.width (a.eval m) (b.eval m) := by
  fun_cases mkCmp op a b with
  | case1 w v w' v' =>
    rw [eval_lit ha, eval_lit hb]
    rfl
  | case2 => rfl

/-! ### Equations with a constant -/

lemma ne_of_lowBitsDiffer (ha : a.Valid) (h : lowBitsDiffer a (.lit w v) = true) (m : Model) : a.eval m ≠ v := by
  unfold lowBitsDiffer at h
  split at h
  · rename_i x w' v' _ u hu
    cases hu
    intro hv
    obtain ⟨-, hlit, -⟩ := ha
    have hlow : (x.eval m <<< w' ||| v') % 2 ^ w' = v' := by
      rw [← shiftLeft_add_eq_or_of_lt hlit, shiftLeft_eq, mul_comm, mul_add_mod, mod_eq_of_lt hlit]
    have hval : x.eval m <<< w' ||| v' = v := by rw [← hv, Bits.eval, Bits.eval_lit hlit]; rfl
    rw [hval] at hlow
    exact absurd hlow.symm (by simpa [trunc] using h)
  · rename_i hu
    cases hu
  · rename_i hu
    cases hu
  · cases h

lemma eval_cmp_lit (hv : v < 2 ^ w) (a : Bits) (m) : (cmp .eq a (.lit w v)).eval m = (a.eval m == v) := by
  change (a.eval m == (Bits.lit w v).eval m) = _
  rw [eval_lit hv]

lemma reverse_beq {n u : Nat} (hu : u < 2 ^ (8 * n)) (hv : v < 2 ^ (8 * n)) : (u == reverseBytes n v) = (reverseBytes n u == v) := by
  rw [Bool.eq_iff_iff, beq_iff_eq, beq_iff_eq]
  constructor
  · rintro rfl
    exact reverseBytes_reverseBytes hv
  · rintro rfl
    exact (reverseBytes_reverseBytes hu).symm

section
variable (h : a.Formed)
include h

section
variable (hw : a.width = w) (hv : v < 2 ^ w) (m : Model)
include hw hv m

lemma eval_eqLit : (eqLit a w v).eval m = (a.eval m == v) := by
  fun_induction eqLit a w v with
  | case1 w w' v' =>
    rw [eval_lit h]
    exact Bool.beq_comm
  | case2 w n x htrunc ih =>
    have hlt : v < 2 ^ x.width := htrunc ▸ trunc_lt _ _
    exact ih h.1 rfl hlt
  | case3 w n x htrunc =>
    refine (beq_eq_false_iff_ne.2 fun hx => htrunc ?_).symm
    exact hx ▸ trunc_of_lt (eval_lt h.1.valid m)
  | case4 w x =>
    obtain ⟨hx, h8⟩ := h
    obtain rfl : x.width = w := hw
    have h8 : 8 * (x.width / 8) = x.width := Nat.mul_div_cancel' (Nat.dvd_of_mod_eq_zero h8)
    have hlt := reverseBytes_lt (x.width / 8) v
    rw [h8] at hlt
    refine (eval_cmp_lit hlt x m).trans (reverse_beq ?_ ?_)
    · rw [h8]
      exact eval_lt hx.valid m
    · rwa [h8]
  | case5 w c w1 p w2 q hpq =>
    obtain ⟨-, hp, hq, -⟩ := h
    rw [Bits.eval, Bits.eval_lit hp, Bits.eval_lit hq]
    cases c.eval m <;> simp [hpq]
  | case6 w c w1 p w2 q _ hpq =>
    obtain ⟨hc, hp, hq, -⟩ := h
    rw [eval_mkNot hc, Bits.eval, Bits.eval_lit hp, Bits.eval_lit hq]
    cases c.eval m <;> simp [hpq]
  | case7 w c w1 p w2 q => exact eval_cmp_lit hv _ m
  | case8 t w hlow =>
    rw [if_pos hlow]
    exact (beq_eq_false_iff_ne.2 (ne_of_lowBitsDiffer h.valid hlow m)).symm
  | case9 t w hlow =>
    rw [if_neg hlow]
    exact eval_cmp_lit hv _ m

lemma eval_eq_lit : (eq a (.lit w v)).eval m = (a.eval m == v) := by
  cases a with
  | lit w' v' =>
    refine (eval_eqLit (a := .lit w v) hv hw.symm h m).trans ?_
    rw [eval_lit hv, eval_lit h]
    exact Bool.beq_comm
  | _ => exact eval_eqLit h hw hv m

end

lemma eval_eqNat (hv : v < 2 ^ a.width) (m) : (eqNat a v).eval m = (a.eval m == v) := by
  rw [eqNat, ofNat, trunc_of_lt hv]
  exact eval_eq_lit h rfl hv m

lemma formed_eqLit (hw : a.width = w) (hv : v < 2 ^ w) : (eqLit a w v).Formed := by
  fun_induction eqLit a w v with
  | case1 w w' v' => trivial
  | case2 w n x htrunc ih => exact ih h.1 rfl (htrunc ▸ trunc_lt _ _)
  | case3 w n x htrunc => trivial
  | case4 w x =>
    obtain ⟨hx, h8⟩ := h
    obtain rfl : x.width = w := hw
    have hlt := reverseBytes_lt (x.width / 8) v
    rw [Nat.mul_div_cancel' (Nat.dvd_of_mod_eq_zero h8)] at hlt
    exact ⟨hx, hlt, rfl⟩
  | case5 w c w1 p w2 q hpq => exact h.1
  | case6 w c w1 p w2 q _ hpq => exact formed_mkNot h.1
  | case7 w c w1 p w2 q => exact ⟨h, hv, hw⟩
  | case8 t w hlow =>
    rw [if_pos hlow]
    trivial
  | case9 t w hlow =>
    rw [if_neg hlow]
    exact ⟨h, hv, hw⟩

lemma formed_eq_lit (hw : a.width = w) (hv : v < 2 ^ w) : (eq a (.lit w v)).Formed := by
  cases a with
  | lit w' v' => exact formed_eqLit hv hw.symm h
  | _ => exact formed_eqLit h hw hv

lemma formed_nonzero : (nonzero a).Formed := formed_mkNot (formed_eq_lit h rfl (Nat.two_pow_pos _))

lemma eval_nonzero (m : Model) : (nonzero a).eval m = true ↔ a.eval m ≠ 0 := by
  have hzero : (0 : Nat) < 2 ^ a.width := Nat.two_pow_pos _
  rw [nonzero, ne, eval_mkNot (formed_eq_lit h rfl hzero), eval_eq_lit h rfl hzero]
  simp

end

end Cond

lemma Bits.eval_ofCond (c m) : (ofCond c).eval m = if c.eval m then 1 else 0 := by
  have hone : (lit 1 1).Valid := show 1 < 2 ^ 1 by decide
  have hzero : (lit 1 0).Valid := valid_zero 1
  rw [ofCond, (mkIte_agrees hone hzero rfl).eval m, eval, eval_lit hone]
  cases c.eval m <;> rfl

end SymExec
