import SymExec.Proofs.Terms

/-!
# The meaning of built arithmetic

The constructors of `SymExec.Term.Build` for sums, products, bitwise operators and shifts fold constants and drop neutral operands.
-/

namespace SymExec

open Nat Word Bits

namespace Word

variable {w a : Nat}

lemma add_comm (w a b) : add w a b = add w b a := congrArg _ (Nat.add_comm a b)

lemma add_assoc (w a b c) : add w (add w a b) c = add w a (add w b c) := by
  simp only [add, trunc, Nat.mod_add_mod, Nat.add_mod_mod, Nat.add_assoc]

lemma add_zero (h : a < 2 ^ w) : add w a 0 = a := trunc_of_lt h

lemma sub_eq_add_neg (w a b) : sub w a b = add w a (neg w b) := by simp only [sub, add, neg, trunc, add_mod_mod]

lemma sub_self (h : a < 2 ^ w) : sub w a a = 0 := by
  rw [sub, trunc_of_lt h, Nat.add_sub_cancel' h.le]
  exact Nat.mod_self _

end Word

namespace Bits

variable {a b : Bits} {n : Nat} {k : Nat}

structure Sized (n : Nat) (a : Bits) : Prop where
  valid : a.Valid
  width : a.width = n

lemma sized_lit {w v} (h : v < 2 ^ w) : (lit w v).Sized w := ⟨h, rfl⟩

lemma sized_zero (w) : (lit w 0).Sized w := ⟨valid_zero w, rfl⟩

lemma sized_ofNat (w v) : (ofNat w v).Sized w := ⟨valid_ofNat w v, rfl⟩

lemma Agrees.sized {t u : Bits} (h : t.Agrees u) (hn : u.width = n) : t.Sized n := ⟨h.valid, h.width.trans hn⟩

lemma Sized.eval_lt (h : a.Sized n) (m) : a.eval m < 2 ^ n := h.width ▸ Bits.eval_lt h.valid m

lemma eval_ofNat (w v m) : (ofNat w v).eval m = trunc w v := eval_lit (trunc_lt w v) m

/-! ### Operators with neutral operands -/

section
variable {op : BinOp} (hop : ∀ v, op.width v v = v)
include hop

lemma agrees_bin {t : Bits} (ht : t.Valid) (hw : a.width = b.width)
    (htw : t.width = a.width) (h : ∀ m, t.eval m = op.apply a.width a.width (a.eval m) (b.eval m)) : t.Agrees (.bin op a b) := by
  refine ⟨ht, ?_, fun m => ?_⟩
  · change t.width = op.width a.width b.width
    rw [htw, ← hw, hop]
  · rw [h, eval, ← hw]

lemma bin_swap_agrees (hcomm : ∀ w x y, op.apply w w x y = op.apply w w y x) (ha : a.Valid) (hb : b.Valid) (hw : a.width = b.width) :
    (bin op b a).Agrees (.bin op a b) := by
  refine agrees_bin hop ⟨hb, ha, .inr hw.symm⟩ hw ?_ fun m => ?_
  · change op.width b.width a.width = a.width
    rw [hw, hop]
  · rw [eval, hw, hcomm]

lemma neutral_agrees {w v : Nat} (ha : a.Valid) (hw : a.width = w) (hv : v < 2 ^ w)
    (h : ∀ x < 2 ^ w, op.apply w w x v = x) : a.Agrees (.bin op a (.lit w v)) :=
  agrees_bin hop ha hw rfl fun m => by rw [eval_lit hv, hw, h _ (hw ▸ eval_lt ha m)]

lemma zero_agrees {w : Nat} (hab : a.width = b.width) (hw : a.width = w)
    (h : ∀ m, op.apply a.width a.width (a.eval m) (b.eval m) = 0) : (lit w 0).Agrees (.bin op a b) :=
  agrees_bin hop (valid_zero w) hab hw.symm fun m => by rw [h, eval_zero]

end

/-! ### Sums and products -/

lemma add_lits_agrees {x w v w' v'} (hx : (bin .add x (.lit w v)).Valid) (hv : v' < 2 ^ w')
    (hw : x.width = w') : (if Word.add w v v' = 0 then x else Bits.bin .add x (.lit w (Word.add w v v'))).Agrees
      (.bin .add (.bin .add x (.lit w v)) (.lit w' v')) := by
  obtain ⟨hx, hl, hxw⟩ := hx
  have hxw : x.width = w := hxw.resolve_left (by simp)
  obtain rfl : w = w' := hxw.symm.trans hw
  have hval : ∀ m, (bin .add (.bin .add x (.lit w v)) (.lit w v')).eval m = Word.add w (x.eval m) (Word.add w v v') := fun m => by
    change Word.add x.width (Word.add x.width (x.eval m) (Word.trunc w v)) (Word.trunc w v') = _
    rw [hxw, trunc_of_lt hl, trunc_of_lt hv, add_assoc]
  split_ifs with hs
  · refine ⟨hx, rfl, fun m => ?_⟩
    rw [hval, hs, Word.add_zero (hxw ▸ eval_lt hx m)]
  · have hlt : Word.add w v v' < 2 ^ w := Word.trunc_lt _ _
    refine ⟨⟨hx, hlt, .inr hxw⟩, rfl, fun m => ?_⟩
    rw [hval, eval, eval_lit hlt]
    change Word.add x.width _ _ = _
    rw [hxw]

section
variable (ha : a.Valid) (hb : b.Valid) (hw : a.width = b.width)
include ha hb hw

lemma add_agrees : (a.add b).Agrees (.bin .add a b) := by
  have swap : (bin .add b a).Agrees (.bin .add a b) := bin_swap_agrees (fun _ => rfl) add_comm ha hb hw
  fun_cases add a b with
  | case1 => exact mkBin_agrees .add ha hb (.inr hw)
  | case2 => exact (neutral_agrees (fun _ => rfl) hb hw.symm ha fun _ => Word.add_zero).trans swap
  | case3 => exact neutral_agrees (fun _ => rfl) ha hw hb fun _ => add_zero
  | case4 x w v w' v' _ s hs => simpa only [s, if_pos hs] using add_lits_agrees ha hb hw
  | case5 x w v w' v' _ s hs => simpa only [s, if_neg hs] using add_lits_agrees ha hb hw
  | case6 w' v' x w v _ s hs =>
    refine Agrees.trans ?_ swap
    simpa only [s, if_pos hs] using add_lits_agrees hb ha hw.symm
  | case7 w' v' x w v _ s hs =>
    refine Agrees.trans ?_ swap
    simpa only [s, if_neg hs] using add_lits_agrees hb ha hw.symm
  | case8 => exact swap
  | case9 => exact .refl ⟨ha, hb, .inr hw⟩

lemma sub_agrees : (a.sub b).Agrees (.bin .sub a b) := by
  fun_cases sub a b with
  | case1 w v =>
    have hn : (lit w (Word.neg w v)).Valid := trunc_lt _ _
    refine (add_agrees ha hn hw).trans (agrees_bin (fun _ => rfl) ⟨ha, hn, .inr hw⟩ hw rfl fun m => ?_)
    change Word.add a.width (a.eval m) (trunc w _) = Word.sub a.width (a.eval m) (trunc w v)
    rw [trunc_of_lt hn, trunc_of_lt hb, sub_eq_add_neg, hw]
    rfl
  | case2 =>
    rw [if_pos rfl]
    exact zero_agrees (fun _ => rfl) rfl rfl fun m => sub_self (eval_lt ha m)
  | case3 =>
    rw [if_neg ‹_›]
    exact mkBin_agrees .sub ha hb (.inr hw)

lemma mul_agrees : (a.mul b).Agrees (.bin .mul a b) := by
  fun_cases mul a b with
  | case1 => exact mkBin_agrees .mul ha hb (.inr hw)
  | case2 =>
    refine zero_agrees (fun _ => rfl) hw rfl fun m => ?_
    exact congrArg (trunc _) (zero_mul _)
  | case3 =>
    refine zero_agrees (fun _ => rfl) hw hw fun m => ?_
    exact zero_mod _
  | case4 _ w =>
    refine agrees_bin (fun _ => rfl) hb hw hw.symm fun m => ?_
    change _ = trunc w ((lit w 1).eval m * b.eval m)
    rw [eval_lit ha, one_mul]
    exact (trunc_of_lt ((show w = b.width from hw) ▸ eval_lt hb m)).symm
  | case5 _ w =>
    refine neutral_agrees (fun _ => rfl) ha hw hb fun x hx => ?_
    change trunc w (x * 1) = x
    rw [mul_one, trunc_of_lt hx]
  | case6 => exact .refl ⟨ha, hb, .inr hw⟩

/-! ### Bitwise operators -/

lemma and_agrees : (a.and b).Agrees (.bin .and a b) := by
  have swap : (Bits.bin .and b a).Agrees (.bin .and a b) := bin_swap_agrees (fun _ => rfl) (fun _ => Nat.and_comm) ha hb hw
  have zero : ∀ {x : Bits} {w : Nat}, x.width = w → (Bits.lit w 0).Agrees (.bin .and x (.lit w 0)) :=
    fun hxw => zero_agrees (fun _ => rfl) hxw hxw fun m => by exact Nat.and_zero _
  have ones : ∀ {x : Bits} {w : Nat}, x.Valid → x.width = w → (Bits.lit w (Word.ones w)).Valid →
      x.Agrees (.bin .and x (.lit w (Word.ones w))) :=
    fun hx hxw hl => neutral_agrees (fun _ => rfl) hx hxw hl fun _ => and_two_pow_sub_one_of_lt_two_pow
  fun_cases Bits.and a b with
  | case1 => exact mkBin_agrees .and ha hb (.inr hw)
  | case2 => exact (zero hw.symm).trans swap
  | case3 => exact (ones hb hw.symm ha).trans swap
  | case4 => exact swap
  | case5 => exact zero hw
  | case6 => exact ones ha hw hb
  | case7 => exact .refl ⟨ha, hb, .inr hw⟩
  | case8 =>
    rw [if_pos rfl]
    exact agrees_bin (fun _ => rfl) ha rfl rfl fun m => (Nat.and_self _).symm
  | case9 h =>
    rw [if_neg ‹_›]
    exact .refl ⟨ha, hb, .inr hw⟩

lemma or_agrees : (a.or b).Agrees (.bin .or a b) := by
  have swap : (Bits.bin .or b a).Agrees (.bin .or a b) := bin_swap_agrees (fun _ => rfl) (fun _ => Nat.or_comm) ha hb hw
  fun_cases Bits.or a b with
  | case1 => exact mkBin_agrees .or ha hb (.inr hw)
  | case2 =>
    refine Agrees.trans ?_ swap
    exact neutral_agrees (fun _ => rfl) hb hw.symm ha fun x _ => Nat.or_zero x
  | case3 => exact swap
  | case4 => exact neutral_agrees (fun _ => rfl) ha hw hb fun x _ => Nat.or_zero x
  | case5 => exact .refl ⟨ha, hb, .inr hw⟩
  | case6 =>
    rw [if_pos rfl]
    exact agrees_bin (fun _ => rfl) ha rfl rfl fun m => (Nat.or_self _).symm
  | case7 =>
    rw [if_neg ‹_›]
    exact .refl ⟨ha, hb, .inr hw⟩

lemma xor_agrees : (a.xor b).Agrees (.bin .xor a b) := by
  have swap : (Bits.bin .xor b a).Agrees (.bin .xor a b) := bin_swap_agrees (fun _ => rfl) (fun _ => Nat.xor_comm) ha hb hw
  fun_cases Bits.xor a b with
  | case1 => exact mkBin_agrees .xor ha hb (.inr hw)
  | case2 =>
    refine Agrees.trans ?_ swap
    exact neutral_agrees (fun _ => rfl) hb hw.symm ha fun x _ => Nat.xor_zero x
  | case3 => exact swap
  | case4 => exact neutral_agrees (fun _ => rfl) ha hw hb fun x _ => Nat.xor_zero x
  | case5 => exact .refl ⟨ha, hb, .inr hw⟩
  | case6 =>
    rw [if_pos rfl]
    exact zero_agrees (fun _ => rfl) rfl rfl fun m => Nat.xor_self _
  | case7 =>
    rw [if_neg ‹_›]
    exact .refl ⟨ha, hb, .inr hw⟩

end

/-! ### Complements -/

lemma not_agrees (ha : a.Valid) : a.not.Agrees (.un .not a) := by
  fun_cases Bits.not a with
  | case1 b =>
    obtain ⟨hb, -⟩ := ha
    refine ⟨hb, rfl, fun m => ?_⟩
    have hlt := eval_lt hb m
    change b.eval m = 2 ^ b.width - 1 - trunc b.width (2 ^ b.width - 1 - trunc b.width (b.eval m))
    rw [trunc_of_lt hlt, trunc_of_lt (by omega)]
    omega
  | case2 => exact mkUn_agrees ha trivial

lemma Sized.not (ha : a.Sized n) : a.not.Sized n := (not_agrees ha.valid).sized ha.width

lemma Sized.eval_not (ha : a.Sized n) (m : Model) : a.not.eval m = Word.not n (a.eval m) := by
  rw [(not_agrees ha.valid).eval m, ← ha.width]
  rfl

/-! ### Shifts -/

lemma lshr_agrees (ha : a.Valid) (hb : b.Valid) (hw : a.width = b.width) : (a.lshr b).Agrees (.bin .lshr a b) := by
  unfold lshr
  fun_cases shift .lshr a b with
  | case1 w =>
    refine agrees_bin (fun _ => rfl) ha hw rfl fun m => ?_
    change _ = Word.lshr a.width (a.eval m) 0
    by_cases h : 0 < a.width
    · rw [Word.lshr, if_pos h, shiftRight_zero]
    · rw [Word.lshr, if_neg h, eval_of_width_zero ha (by omega)]
  | case2 => exact mkBin_agrees .lshr ha hb (.inr hw)

lemma ashr_sized (ha : a.Sized n) (hb : b.Sized n) : (a.ashr b).Sized n := by
  have hw : a.width = b.width := ha.width.trans hb.width.symm
  fun_cases ashr a b with
  | case1 w v w' k =>
    refine ⟨?_, ha.width⟩
    split_ifs
    · exact BinOp.apply_lt .ashr ha.valid ((show w = w' from hw) ▸ hb.valid) (.inr rfl)
    · exact Nat.two_pow_pos w
  | case2 =>
    fun_cases shift .ashr a b with
    | case1 => exact ha
    | case2 => exact (mkBin_agrees .ashr ha.valid hb.valid (.inr hw)).sized ha.width

/-! ### Operands of one width -/

namespace Sized

variable {n : Nat} (ha : a.Sized n) (hb : b.Sized n)
include ha hb

lemma widths : a.width = b.width := ha.width.trans hb.width.symm

lemma agree {t u : Bits} (h : a.Valid → b.Valid → a.width = b.width → t.Agrees u) : t.Agrees u :=
  h ha.valid hb.valid (ha.widths hb)

lemma add : (a.add b).Sized n := (ha.agree hb add_agrees).sized ha.width

lemma sub : (a.sub b).Sized n := (ha.agree hb sub_agrees).sized ha.width

lemma mul : (a.mul b).Sized n := (ha.agree hb mul_agrees).sized ha.width

lemma and : (a.and b).Sized n := (ha.agree hb and_agrees).sized ha.width

lemma or : (a.or b).Sized n := (ha.agree hb or_agrees).sized ha.width

lemma xor : (a.xor b).Sized n := (ha.agree hb xor_agrees).sized ha.width

lemma lshr : (a.lshr b).Sized n := (ha.agree hb lshr_agrees).sized ha.width

lemma ite (c : Cond) : (mkIte c a b).Sized n := (ha.agree hb mkIte_agrees).sized ha.width

section
variable (m : Model)
include m

lemma eval_add : (a.add b).eval m = Word.add n (a.eval m) (b.eval m) := by
  rw [(ha.agree hb add_agrees).eval m, ← ha.width]
  rfl

lemma eval_sub : (a.sub b).eval m = Word.sub n (a.eval m) (b.eval m) := by
  rw [(ha.agree hb sub_agrees).eval m, ← ha.width]
  rfl

lemma eval_and : (a.and b).eval m = a.eval m &&& b.eval m := (ha.agree hb and_agrees).eval m

lemma eval_or : (a.or b).eval m = a.eval m ||| b.eval m := (ha.agree hb or_agrees).eval m

lemma eval_xor : (a.xor b).eval m = a.eval m ^^^ b.eval m := (ha.agree hb xor_agrees).eval m

end

end Sized

lemma eval_mkIte (ha : a.Sized n) (hb : b.Sized n) (c m) : (mkIte c a b).eval m = if c.eval m then a.eval m else b.eval m := by
  rw [(ha.agree hb (mkIte_agrees)).eval, eval]
  cases c.eval m <;> rfl

/-- **A choice among vectors** is one whose condition holds, and the last where none does. -/
theorem foldl_mkIte_spec {α : Type} {c : α → Cond} {p : α → Bits} {v} (is : List α) (hp : ∀ i ∈ is, (p i).Sized n)
    (hv : v.Sized n) : (is.foldl (fun v i => mkIte (c i) (p i) v) v).Sized n ∧ ∀ m,
      (∃ i ∈ is, (c i).eval m = true ∧ (is.foldl (fun v i => mkIte (c i) (p i) v) v).eval m = (p i).eval m) ∨
      (∀ i ∈ is, (c i).eval m = false) ∧ (is.foldl (fun v i => mkIte (c i) (p i) v) v).eval m = v.eval m := by
  induction is generalizing v with
  | nil => exact ⟨hv, fun m => .inr ⟨by simp, rfl⟩⟩
  | cons i is ih =>
    have hi := hp i (by simp)
    obtain ⟨hs, heval⟩ := ih (fun j hj => hp j (.tail _ hj)) (hi.ite hv (c i))
    refine ⟨hs, fun m => ?_⟩
    obtain ⟨j, hj, hjt, he⟩ | ⟨hnone, he⟩ := heval m
    · exact .inl ⟨j, .tail _ hj, hjt, he⟩
    · -- none of the later conditions holds, so the first decides
      rw [eval_mkIte hi hv] at he
      cases hc : (c i).eval m with
      | true => exact .inl ⟨i, by simp, hc, he.trans (if_pos hc)⟩
      | false => exact .inr ⟨List.forall_mem_cons.2 ⟨hc, hnone⟩, he.trans (if_neg (by simp [hc]))⟩

section
variable (ha : a.Sized n)
include ha

lemma Sized.eval_lshr {i} (hi : i < n) (m) : (a.lshr (.ofNat n i)).eval m = a.eval m >>> i := by
  rw [(lshr_agrees ha.valid (valid_ofNat n i) ha.width).eval m, Bits.eval, eval_ofNat, Word.trunc_of_lt (hi.trans Nat.lt_two_pow_self)]
  change Word.lshr a.width (a.eval m) i = _
  rw [Word.lshr, if_pos (ha.width ▸ hi)]

lemma Sized.slice {hi lo : Nat} (hl : lo ≤ hi) (hh : hi < n) : (a.slice hi lo).Sized (hi + 1 - lo) :=
  (slice_agrees hi lo ha.valid hl (ha.width ▸ hh)).sized rfl

lemma Sized.low (hk : 0 < k) (hkn : k ≤ n) :
    (a.slice (k - 1) 0).Sized k ∧ ∀ m, (a.slice (k - 1) 0).eval m = a.eval m % 2 ^ k := by
  have hs := slice_agrees (k - 1) 0 ha.valid (zero_le _) (by rw [ha.width]; omega)
  refine ⟨hs.sized (show k - 1 + 1 - 0 = k by omega), fun m => (hs.eval m).trans ?_⟩
  change trunc (k - 1 + 1 - 0) (a.eval m >>> 0) = _
  rw [show k - 1 + 1 - 0 = k by omega]
  rfl

lemma Sized.zext (k : Nat) : (a.zext k).Sized (n + k) := (zext_agrees ha.valid).sized (congrArg (· + k) ha.width)

lemma Sized.eval_zext (k m) : (a.zext k).eval m = a.eval m := (zext_agrees ha.valid).eval m

lemma Sized.concat (hb : b.Sized k) : (a.concat b).Sized (n + k) :=
  (concat_agrees ha.valid hb.valid).sized (congrArg₂ _ ha.width hb.width)

lemma Sized.eval_concat (hb : b.Sized k) (m : Model) : (a.concat b).eval m = a.eval m * 2 ^ k + b.eval m := by
  rw [(concat_agrees ha.valid hb.valid).eval m, eval]
  change a.eval m <<< b.width ||| b.eval m = _
  rw [hb.width, ← shiftLeft_add_eq_or_of_lt (hb.eval_lt m), shiftLeft_eq]

end

end Bits

end SymExec
