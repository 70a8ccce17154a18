import SymExec.Proofs.Word

/-!
# The meaning of built terms

A term is `Valid` if its constants fit their width and its operators fit their operands; this is what every term that is built from
valid parts is.
-/

namespace SymExec

open Nat Word Bits

/-! ### Valid terms -/

def UnOp.Takes : UnOp → Nat → Prop
  | .slice hi lo, w => lo ≤ hi ∧ hi < w
  | .reverse, w => w % 8 = 0
  | _, _ => True

/-- Whether the constants of a vector fit their widths and its operators their operands. -/
def Bits.Valid : Bits → Prop
  | .lit w v => v < 2 ^ w
  | .sym .. => True
  | .un op a => a.Valid ∧ op.Takes a.width
  | .bin op a b => a.Valid ∧ b.Valid ∧ (op = .concat ∨ a.width = b.width)
  | .ite _ a b => a.Valid ∧ b.Valid ∧ a.width = b.width
  | .ofFloat .. => True

lemma UnOp.apply_lt (op : UnOp) {w v} (hv : v < 2 ^ w) (h : op.Takes w) : op.apply w v < 2 ^ op.width w := by
  cases op with
  | not => simp only [UnOp.apply, UnOp.width, Word.not]; omega
  | neg => exact Word.trunc_lt _ _
  | reverse =>
    have e : 8 * (w / 8) = w := by simp only [UnOp.Takes] at h; omega
    simpa [UnOp.apply, UnOp.width, e] using Word.reverseBytes_lt (w / 8) v
  | slice hi lo => exact Word.slice_lt ..
  | zext n => exact Nat.lt_of_lt_of_le hv (Nat.pow_le_pow_right (by omega) (Nat.le_add_right w n))
  | sext n =>
    have hp : 2 ^ w ≤ 2 ^ (w + n) := Nat.pow_le_pow_right (by omega) (Nat.le_add_right w n)
    simp only [UnOp.apply, UnOp.width, Word.sext]
    split <;> omega

lemma Word.ofInt_lt (w i) : ofInt w i < 2 ^ w := by
  simp only [ofInt]
  omega

lemma BinOp.apply_lt (op : BinOp) {w v a b} (ha : a < 2 ^ w) (hb : b < 2 ^ v)
    (h : op = .concat ∨ w = v) : op.apply w v a b < 2 ^ op.width w v := by
  have hw := Nat.two_pow_pos w
  by_cases hc : op = .concat
  · subst hc
    exact concat_lt ha hb
  have hwv : w = v := h.resolve_left hc
  subst hwv
  have hshr : ∀ n, a >>> n < 2 ^ w := fun n => lt_of_le_of_lt (shiftRight_le a n) ha
  cases op <;> simp only [BinOp.apply, BinOp.width] at *
  case add | sub | mul => exact trunc_lt _ _
  case udiv =>
    simp only [Word.udiv, Word.ones]
    split
    · omega
    · exact lt_of_le_of_lt (div_le_self a b) ha
  case urem => exact lt_of_le_of_lt (mod_le a b) ha
  case sdiv =>
    simp only [Word.sdiv, Word.ones]
    split_ifs
    · exact trunc_lt _ _
    · omega
    · exact ofInt_lt _ _
  case srem =>
    simp only [Word.srem]
    split_ifs
    · exact ha
    · exact ofInt_lt _ _
  case and => exact and_lt_two_pow a hb
  case or => exact or_lt_two_pow ha hb
  case xor => exact xor_lt_two_pow ha hb
  case shl =>
    simp only [Word.shl]
    split_ifs
    · exact trunc_lt _ _
    · exact hw
  case lshr =>
    simp only [Word.lshr]
    split_ifs
    · exact hshr b
    · exact hw
  case ashr =>
    simp only [Word.ashr, Word.lshr, Word.ones]
    split_ifs
    · exact lt_of_le_of_lt (sub_le _ _) (by omega)
    · omega
    · exact hshr b
    · exact hw
  case rotl =>
    simp only [Word.rotl]
    split_ifs
    · exact hw
    · exact or_lt_two_pow (trunc_lt _ _) (hshr _)
  case rotr =>
    simp only [Word.rotr]
    split_ifs
    · exact hw
    · exact or_lt_two_pow (hshr _) (trunc_lt _ _)
  case concat => exact absurd trivial hc

lemma Ieee.encodeFormat_lt (e f neg mant exp) : Ieee.encodeFormat e f neg mant exp < 2 ^ (e + f + 1) := by
  have hm : (2 ^ e - 1) * 2 ^ f < 2 ^ (e + f) := by
    rw [pow_add]
    exact mul_lt_mul_of_pos_right (sub_lt (Nat.two_pow_pos e) (by omega)) (Nat.two_pow_pos f)
  simp only [Ieee.encodeFormat]
  split_ifs <;> omega

lemma Ieee.pattern_lt (s bits) : Ieee.pattern s bits < 2 ^ s.bits := by
  cases s with
  | double => exact bits.toNat_lt
  | single =>
    simp only [Ieee.pattern, Ieee.narrow, FloatSort.bits]
    split
    · have h63 : bits.toNat >>> 63 ≤ 1 := by
        have := bits.toNat_lt
        omega
      have hlow : (bits.toNat >>> 29) % 2 ^ 23 ||| 2 ^ 22 < 2 ^ 23 := or_lt_two_pow (mod_lt _ (by omega)) (by omega)
      omega
    · split <;> omega
    · exact Ieee.encodeFormat_lt 8 23 ..

namespace Bits

variable {a t u : Bits} {w v b n h l hi lo : Nat} {c : Cond} {op : BinOp} {t' u' : Bits} {h' l' : Nat}

lemma eval_lt (h : a.Valid) (m : Model) : a.eval m < 2 ^ a.width := by
  fun_induction Valid a with
  | case1 w v | case2 n w => exact trunc_lt _ _
  | case3 op a iha => exact UnOp.apply_lt op (iha h.1) h.2
  | case4 op a b iha ihb => exact BinOp.apply_lt op (iha h.1) (ihb h.2.1) h.2.2
  | case5 c a b iha ihb =>
    obtain ⟨ha, hb, hw⟩ := h
    rw [eval]
    cases c.eval m
    · rw [show (ite c a b).width = b.width from hw]
      exact ihb hb
    · exact iha ha
  | case6 how f =>
    cases how with
    | pattern => exact Ieee.pattern_lt _ _
    | integer mode signed w => exact ofInt_lt _ _

lemma eval_lit (h : v < 2 ^ w) (m : Model) : (lit w v).eval m = v := trunc_of_lt h

lemma valid_ofNat (w v) : (ofNat w v).Valid := trunc_lt w v

lemma valid_zero (w) : (lit w 0).Valid := Nat.two_pow_pos w

lemma eval_zero (w : Nat) (m) : (lit w 0).eval m = 0 := eval_lit (valid_zero w) m

/-! ### Agreement -/

/-- A valid vector that has the width and, in every model, the value of another. -/
structure Agrees (t u : Bits) : Prop where
  valid : t.Valid
  width : t.width = u.width
  eval : ∀ m, t.eval m = u.eval m

lemma Agrees.refl (h : t.Valid) : t.Agrees t := ⟨h, rfl, fun _ => rfl⟩

lemma Agrees.trans {v} (h : t.Agrees u) (h' : u.Agrees v) : t.Agrees v :=
  ⟨h.valid, h.width.trans h'.width, fun m => (h.eval m).trans (h'.eval m)⟩

lemma Agrees.bin (h : t.Agrees u) (h' : t'.Agrees u') (hw : op = .concat ∨ u.width = u'.width) :
    (bin op t t').Agrees (bin op u u') := by
  refine ⟨⟨h.valid, h'.valid, ?_⟩, congrArg₂ op.width h.width h'.width, fun m => ?_⟩
  · rwa [h.width, h'.width]
  · rw [Bits.eval, Bits.eval, h.width, h'.width, h.eval, h'.eval]

lemma Agrees.ite (h : t.Agrees u) (h' : t'.Agrees u') (hw : u.width = u'.width) : (ite c t t').Agrees (ite c u u') := by
  refine ⟨⟨h.valid, h'.valid, by rw [h.width, h'.width, hw]⟩, h.width, fun m => ?_⟩
  rw [Bits.eval, Bits.eval, h.eval, h'.eval]

lemma un_ite_agrees {op b} (h : (ite c a b).Valid) (ht : op.Takes a.width) :
    (ite c (.un op a) (.un op b)).Agrees (.un op (.ite c a b)) := by
  obtain ⟨ha, hb, hw⟩ := h
  refine ⟨⟨⟨ha, ht⟩, ⟨hb, hw ▸ ht⟩, congrArg op.width hw⟩, rfl, fun m => ?_⟩
  rw [eval, eval, eval, eval, eval]
  change _ = op.apply a.width _
  cases c.eval m
  · simp only [cond_false, hw]
  · rfl

/-! ### Folding -/

lemma mkUn_agrees {op} (ha : a.Valid) (ht : op.Takes a.width) : (mkUn op a).Agrees (.un op a) := by
  fun_cases mkUn op a with
  | case1 w v =>
    have hlt := UnOp.apply_lt op ha ht
    refine ⟨hlt, rfl, fun m => ?_⟩
    rw [eval_lit hlt, eval, eval_lit ha]
    rfl
  | case2 => exact .refl ⟨ha, ht⟩

/-- A folding operator on a choice between constants is the choice between its results. -/
lemma mkUn_ite_agrees (op : UnOp) {w' v'} (h : (ite c (.lit w v) (.lit w' v')).Valid) (ht : op.Takes w) :
    (ite c (.lit (op.width w) (op.apply w v)) (.lit (op.width w') (op.apply w' v'))).Agrees
      (.un op (.ite c (.lit w v) (.lit w' v'))) := by
  obtain ⟨ha, hb, hw⟩ := h
  have hw : w = w' := hw
  have hx := mkUn_agrees ha ht
  have hy := mkUn_agrees hb (hw ▸ ht)
  exact (hx.ite hy (congrArg op.width hw)).trans (un_ite_agrees ⟨ha, hb, hw⟩ ht)

lemma mkBin_agrees (op : BinOp) {b} (ha : a.Valid) (hb : b.Valid) (hw : op = .concat ∨ a.width = b.width) :
    (mkBin op a b).Agrees (.bin op a b) := by
  fun_cases mkBin op a b with
  | case1 w v w' v' =>
    have hlt := BinOp.apply_lt op ha hb hw
    refine ⟨hlt, rfl, fun m => ?_⟩
    rw [eval_lit hlt, eval, eval_lit ha, eval_lit hb]
    rfl
  | case2 => exact .refl ⟨ha, hb, hw⟩

lemma mkIte_agrees {b} (ha : a.Valid) (hb : b.Valid) (hw : a.width = b.width) : (mkIte c a b).Agrees (.ite c a b) := by
  fun_cases mkIte c a b with
  | case1 => exact ⟨ha, rfl, fun m => by simp [eval, Cond.eval]⟩
  | case2 => exact ⟨hb, hw.symm, fun m => by simp [eval, Cond.eval]⟩
  | case3 _ h =>
    subst h
    exact ⟨ha, rfl, fun m => by simp [eval]⟩
  | case4 => exact .refl ⟨ha, hb, hw⟩

lemma zext_agrees (ha : a.Valid) : (a.zext n).Agrees (.un (.zext n) a) := by
  fun_cases zext n a with
  | case1 _ h =>
    subst h
    exact ⟨ha, rfl, fun m => rfl⟩
  | case2 h k b => exact ⟨⟨ha.1, trivial⟩, (add_assoc ..).symm, fun m => rfl⟩
  | case3 h => exact mkUn_agrees ha trivial

/-! ### Concatenation -/

lemma concat_assoc (a b c v w : Nat) : (a <<< v ||| b) <<< w ||| c = a <<< (v + w) ||| (b <<< w ||| c) := by
  rw [shiftLeft_or_distrib, ← shiftLeft_add, Nat.or_assoc]

lemma concat_slice (e : l = h' + 1) (hl : l' ≤ h') (hh : l ≤ h) (v) :
    Word.slice h l v <<< (h' + 1 - l') ||| Word.slice h' l' v = Word.slice h l' v := by
  apply eq_of_testBit_eq
  intro i
  rw [testBit_concat (slice_lt ..)]
  simp only [testBit_slice]
  split_ifs with hi
  · simp [hi, show i < h + 1 - l' by omega]
  · have e2 : l + (i - (h' + 1 - l')) = l' + i := by omega
    congr 2
    exact propext (by omega)

lemma slice_full (hv : v < 2 ^ (w + 1)) : Word.slice w 0 v = v := Word.trunc_of_lt hv

lemma join_agrees {x} (hx : (un (.slice h l) x).Valid) (hy : (un (.slice h' l') x).Valid)
    (e : l = h' + 1) : (if l' = 0 ∧ h + 1 = x.width then x else .un (.slice h l') x).Agrees
      (.bin .concat (.un (.slice h l) x) (.un (.slice h' l') x)) := by
  obtain ⟨hv, hl, hh⟩ := hx
  obtain ⟨-, hl', hh'⟩ := hy
  have hval : ∀ m, (bin .concat (.un (.slice h l) x) (.un (.slice h' l') x)).eval m =
      Word.slice h l' (x.eval m) := fun m => concat_slice e hl' hl _
  have hwid : (bin .concat (.un (.slice h l) x) (.un (.slice h' l') x)).width = h + 1 - l' := by
    change h + 1 - l + (h' + 1 - l') = _
    omega
  split_ifs with hfull
  · obtain ⟨rfl, hfull⟩ := hfull
    refine ⟨hv, by omega, fun m => ?_⟩
    rw [hval, slice_full (hfull ▸ eval_lt hv m)]
  · exact ⟨⟨hv, by omega, hh⟩, hwid.symm, fun m => (hval m).symm⟩

lemma concat_reassoc {p q r} (hp : p.Valid) (hq : q.Valid) (hr : r.Valid) :
    (bin .concat p (.bin .concat q r)).Agrees (.bin .concat (.bin .concat p q) r) := by
  refine ⟨⟨hp, ⟨hq, hr, .inl rfl⟩, .inl rfl⟩, (add_assoc ..).symm, fun m => ?_⟩
  exact (concat_assoc ..).symm

lemma snoc_agrees {b} (ha : a.Valid) (hb : b.Valid) : (snoc a b).Agrees (.bin .concat a b) := by
  have plain : (bin .concat a b).Agrees (.bin .concat a b) := .refl ⟨ha, hb, .inl rfl⟩
  fun_cases snoc a b with
  | case1 w v w' v' => exact mkBin_agrees .concat ha hb (.inl rfl)
  | case2 p w v w' v' =>
    obtain ⟨hp, hq, -⟩ := ha
    have hj := mkBin_agrees .concat hq hb (.inl rfl)
    exact ((Agrees.refl hp).bin hj (.inl rfl)).trans (concat_reassoc hp hq hb)
  | case3 h l x h' l' y hm hfull =>
    obtain ⟨he, rfl⟩ := hm
    simpa [hfull] using join_agrees ha hb he
  | case4 h l x h' l' y hm hfull =>
    obtain ⟨he, rfl⟩ := hm
    simpa only [if_neg hfull] using join_agrees ha hb he
  | case5 => exact plain
  | case6 p h l x h' l' y hm =>
    obtain ⟨he, rfl⟩ := hm
    obtain ⟨hp, hq, -⟩ := ha
    exact ((Agrees.refl hp).bin (join_agrees hq hb he) (.inl rfl)).trans (concat_reassoc hp hq hb)
  | case7 | case8 => exact plain

lemma eval_of_width_zero (ha : a.Valid) (hw : a.width = 0) (m : Model) : a.eval m = 0 := by
  have h := eval_lt ha m
  rw [hw] at h
  omega

lemma concat_agrees {b} (ha : a.Valid) (hb : b.Valid) : (concat a b).Agrees (.bin .concat a b) := by
  fun_induction concat a b with
  | case1 b hw =>
    refine ⟨hb, ?_, fun m => ?_⟩
    · change b.width = a.width + b.width
      omega
    · change _ = a.eval m <<< b.width ||| b.eval m
      simp [eval_of_width_zero ha hw]
  | case2 hw b1 b2 ih =>
    obtain ⟨h1, h2, -⟩ := hb
    have hrest := ih h1
    have hsnoc := (snoc_agrees hrest.valid h2).trans (hrest.bin (.refl h2) (.inl rfl))
    refine hsnoc.trans ⟨⟨⟨ha, h1, .inl rfl⟩, h2, .inl rfl⟩, add_assoc .., fun m => ?_⟩
    exact concat_assoc ..
  | case3 b _ hw =>
    rw [if_pos hw]
    refine ⟨ha, ?_, fun m => ?_⟩
    · change a.width = a.width + b.width
      omega
    · change _ = a.eval m <<< b.width ||| b.eval m
      simp [eval_of_width_zero hb hw, hw]
  | case4 b _ hw =>
    rw [if_neg hw]
    exact snoc_agrees ha hb

/-! ### Reversal -/

lemma reverseBytes_reverseBytes (hv : v < 2 ^ (8 * n)) : reverseBytes n (reverseBytes n v) = v := by
  apply eq_of_byte_eq (reverseBytes_lt _ _) hv
  intro i hi
  rw [byte_reverseBytes _ hi, byte_reverseBytes _ (by omega)]
  congr 1
  omega

lemma reverseBytes_concat {j k a} (hb : b < 2 ^ (8 * k)) : reverseBytes (j + k) (a <<< (8 * k) ||| b) =
      reverseBytes k b <<< (8 * j) ||| reverseBytes j a := by
  apply eq_of_byte_eq (reverseBytes_lt _ _)
  · rw [mul_add, add_comm]
    exact concat_lt (reverseBytes_lt _ _) (reverseBytes_lt _ _)
  intro i hi
  rw [byte_reverseBytes _ hi, byte_concat hb, byte_concat (reverseBytes_lt _ _)]
  by_cases hij : i < j
  · rw [if_pos hij, if_neg (by omega), byte_reverseBytes _ hij]
    congr 1
    omega
  · rw [if_neg hij, if_pos (by omega), byte_reverseBytes _ (by omega)]
    congr 1
    omega

lemma reverse_agrees (ha : a.Valid) (hw : a.width % 8 = 0) : a.reverse.Agrees (.un .reverse a) := by
  fun_induction reverse a with
  | case1 a h8 =>
    refine ⟨ha, rfl, fun m => ?_⟩
    change _ = reverseBytes (a.width / 8) (a.eval m)
    have hlt := eval_lt ha m
    obtain h | h : a.width = 0 ∨ a.width = 8 := by omega
    · rw [h] at hlt ⊢
      simp [reverseBytes, lt_one_iff.1 hlt]
    · rw [h] at hlt ⊢
      have hmod : a.eval m % 256 = a.eval m := mod_eq_of_lt hlt
      simp [reverseBytes, hmod]
  | case2 b h8 =>
    have hb : b.width % 8 = 0 := ha.2
    refine ⟨ha.1, rfl, fun m => ?_⟩
    change _ = reverseBytes (b.width / 8) (reverseBytes (b.width / 8) (b.eval m))
    rw [reverseBytes_reverseBytes]
    rw [show 8 * (b.width / 8) = b.width by omega]
    exact eval_lt ha.1 m
  | case3 x y h h8 ihy ihx =>
    obtain ⟨hx, hy, -⟩ := ha
    have rx := ihx hx h.1
    have ry := ihy hy h.2
    refine (concat_agrees ry.valid rx.valid).trans ((ry.bin rx (.inl rfl)).trans ?_)
    have ex : 8 * (x.width / 8) = x.width := by omega
    have ey : 8 * (y.width / 8) = y.width := by omega
    refine ⟨⟨⟨hy, h.2⟩, ⟨hx, h.1⟩, .inl rfl⟩, add_comm .., fun m => ?_⟩
    have hr := reverseBytes_concat (j := x.width / 8) (k := y.width / 8) (a := x.eval m) (ey.symm ▸ eval_lt hy m)
    rw [ex, ey, show x.width / 8 + y.width / 8 = (x.width + y.width) / 8 by omega] at hr
    exact hr.symm
  | case4 x y h h8 => exact .refl ⟨ha, hw⟩
  | case5 c w v w' v' h8 => exact mkUn_ite_agrees .reverse ha hw
  | case6 a h8 => exact mkUn_agrees ha hw

/-! ### Slices -/

lemma slice_of_lt (hv : v < 2 ^ lo) : Word.slice hi lo v = 0 := by
  simp [Word.slice, Word.trunc, Nat.shiftRight_eq_div_pow, Nat.div_eq_of_lt hv]

lemma slice_above (hv : v < 2 ^ w) (hh : w ≤ hi) (hw : 0 < w) : Word.slice hi lo v = Word.slice (w - 1) lo v := by
  apply eq_of_testBit_eq
  intro i
  simp only [testBit_slice]
  by_cases hi' : lo + i < w
  · simp [show i < hi + 1 - lo by omega, show i < w - 1 + 1 - lo by omega]
  · rw [testBit_lt_two_pow (lt_of_lt_of_le hv (Nat.pow_le_pow_right (by omega) (by omega)))]
    simp

lemma slice_sext (hv : v < 2 ^ w) (hh : hi < w) : Word.slice hi lo (Word.sext w n v) = Word.slice hi lo v := by
  have e : Word.sext w n v = 2 ^ w * (if Word.isNeg w v then 2 ^ n - 1 else 0) + v := by
    simp only [Word.sext]
    split
    · rw [Nat.mul_sub, Nat.pow_add]
      omega
    · simp
  exact slice_congr rfl fun i hi' => by rw [e, testBit_two_pow_mul_add _ hv, if_pos (by omega)]

lemma slice_reverseBytes (v : Nat) (hlo : lo % 8 = 0) (hhi : (hi + 1) % 8 = 0) (hl : lo ≤ hi) (hh : hi < 8 * n) :
    Word.slice hi lo (Word.reverseBytes n v) = Word.reverseBytes ((hi + 1 - lo) / 8) (Word.slice (8 * n - 1 - lo) (8 * n - 1 - hi) v) := by
  have ew : 8 * ((hi + 1 - lo) / 8) = hi + 1 - lo := by omega
  apply eq_of_byte_eq
  · rw [ew]
    exact slice_lt ..
  · exact reverseBytes_lt _ _
  intro i hi'
  rw [byte_slice _ (lo / 8) (by omega) (by omega), byte_reverseBytes _ (by omega),
    byte_reverseBytes _ hi', byte_slice _ ((8 * n - 1 - hi) / 8) (by omega) (by omega)]
  congr 1
  omega

lemma slice_concat_both (hb : b < 2 ^ w) (hl : lo < w) (hh : w ≤ hi) (a) :
    Word.slice hi lo (a <<< w ||| b) = Word.slice (hi - w) 0 a <<< (w - lo) ||| Word.slice (w - 1) lo b := by
  rw [← concat_slice (show w = w - 1 + 1 by omega) (by omega) hh, Word.slice_concat_high hb le_rfl hh, Nat.sub_self,
    Word.slice_concat_low hb (by omega), Nat.sub_add_cancel (by omega)]

lemma slice_bitwise (hop : op = .and ∨ op = .or ∨ op = .xor) (hi lo u v a b : Nat) :
    Word.slice hi lo (op.apply u u a b) = op.apply v v (Word.slice hi lo a) (Word.slice hi lo b) := by
  apply eq_of_testBit_eq
  intro i
  obtain rfl | rfl | rfl := hop <;>
    simp only [BinOp.apply, testBit_slice, testBit_and, testBit_or, testBit_xor] <;>
    cases decide (i < hi + 1 - lo) <;> simp

lemma slice_bitwise_agrees {x y} (hop : op = .and ∨ op = .or ∨ op = .xor) (hb : (bin op x y).Valid)
    (hl : lo ≤ hi) (hh : hi < x.width) (hx : x.Valid → lo ≤ hi → hi < x.width → (x.slice hi lo).Agrees (.un (.slice hi lo) x))
    (hy : y.Valid → lo ≤ hi → hi < y.width → (y.slice hi lo).Agrees (.un (.slice hi lo) y)) :
    (mkBin op (x.slice hi lo) (y.slice hi lo)).Agrees (.un (.slice hi lo) (.bin op x y)) := by
  have hw : x.width = y.width := hb.2.2.resolve_left (by obtain rfl | rfl | rfl := hop <;> simp)
  have rx := hx hb.1 hl hh
  have ry := hy hb.2.1 hl (hw ▸ hh)
  refine ((mkBin_agrees op rx.valid ry.valid (.inr (rx.width.trans ry.width.symm))).trans (rx.bin ry (.inr rfl))).trans ?_
  refine ⟨⟨⟨hb.1, hl, hh⟩, ⟨hb.2.1, hl, hw ▸ hh⟩, .inr rfl⟩, by obtain rfl | rfl | rfl := hop <;> rfl, fun m => ?_⟩
  have e := slice_bitwise hop hi lo x.width (hi + 1 - lo) (x.eval m) (y.eval m)
  change op.apply (hi + 1 - lo) (hi + 1 - lo) _ _ = Word.slice hi lo (op.apply x.width y.width _ _)
  rw [← hw, e]
  rfl

lemma slice_agrees (hi lo : Nat) (ha : a.Valid) (hl : lo ≤ hi) (hh : hi < a.width) : (a.slice hi lo).Agrees (.un (.slice hi lo) a) := by
  fun_induction slice hi lo a with
  | case1 a hi lo hfull =>
    obtain ⟨rfl, hfull⟩ := hfull
    refine ⟨ha, ?_, fun m => ?_⟩
    · change a.width = hi + 1 - 0
      omega
    · exact (slice_full (hfull ▸ eval_lt ha m)).symm
  | case2 hi lo h l b =>
    obtain ⟨hb, hl', hh'⟩ := ha
    have hh : hi < h + 1 - l := hh
    refine ⟨⟨hb, by omega, by omega⟩, ?_, fun m => (slice_slice hh _).symm⟩
    change hi + l + 1 - (lo + l) = hi + 1 - lo
    omega
  | case3 hi lo n b hlt _ ih =>
    have r := ih ha.1 hl hlt
    exact ⟨r.valid, r.width, r.eval⟩
  | case4 hi lo n b _ hle _ =>
    refine ⟨Nat.two_pow_pos _, rfl, fun m => ?_⟩
    have hb := eval_lt ha.1 m
    rw [eval_zero]
    exact (slice_of_lt (Nat.lt_of_lt_of_le hb (Nat.pow_le_pow_right (by omega) hle))).symm
  | case5 hi lo n b _ _ hfull hnot => exact absurd ⟨hfull.2, hfull.1⟩ hnot
  | case6 hi lo n b hge hlt _ _ ih =>
    have r := ih ha.1 (by omega) (by omega)
    refine (zext_agrees r.valid).trans ⟨⟨r.valid, trivial⟩, ?_, fun m => ?_⟩
    · change (b.slice (b.width - 1) lo).width + (hi + 1 - b.width) = hi + 1 - lo
      rw [r.width]
      change b.width - 1 + 1 - lo + (hi + 1 - b.width) = hi + 1 - lo
      omega
    · change (b.slice (b.width - 1) lo).eval m = Word.slice hi lo (b.eval m)
      rw [r.eval, slice_above (eval_lt ha.1 m) (by omega) (by omega)]
      rfl
  | case7 hi lo n b hlt _ ih =>
    have r := ih ha.1 hl hlt
    exact ⟨r.valid, r.width, fun m => (r.eval m).trans (slice_sext (eval_lt ha.1 m) hlt).symm⟩
  | case8 hi lo n b => exact .refl ⟨ha, hl, hh⟩
  | case9 hi lo b hal _ ih =>
    obtain ⟨hb, hb8⟩ := ha
    have hb8 : b.width % 8 = 0 := hb8
    have hh : hi < b.width := hh
    have r := ih hb (by omega) (by omega)
    have hw : (b.slice (b.width - 1 - lo) (b.width - 1 - hi)).width = hi + 1 - lo := by
      rw [r.width]
      change b.width - 1 - lo + 1 - (b.width - 1 - hi) = hi + 1 - lo
      omega
    refine (reverse_agrees r.valid (by rw [hw]; omega)).trans ⟨⟨r.valid, ?_⟩, hw, fun m => ?_⟩
    · change (b.slice (b.width - 1 - lo) (b.width - 1 - hi)).width % 8 = 0
      omega
    · have e := slice_reverseBytes (n := b.width / 8) (b.eval m) hal.1 hal.2 hl (by omega)
      rw [show 8 * (b.width / 8) = b.width by omega] at e
      rw [eval, r.eval, hw]
      exact e.symm
  | case10 hi lo b => exact .refl ⟨ha, hl, hh⟩
  | case11 hi lo x y hlt _ ih =>
    have r := ih ha.2.1 hl hlt
    exact ⟨r.valid, r.width, fun m => (r.eval m).trans (slice_concat_low (eval_lt ha.2.1 m) hlt _).symm⟩
  | case12 hi lo x y _ hle _ ih =>
    have hh : hi < x.width + y.width := hh
    have r := ih ha.1 (by omega) (by omega)
    refine ⟨r.valid, r.width.trans ?_, fun m => (r.eval m).trans (slice_concat_high (eval_lt ha.2.1 m) hle hl _).symm⟩
    change hi - y.width + 1 - (lo - y.width) = hi + 1 - lo
    omega
  | case13 hi lo x y hge hlt _ ihx ihy =>
    have hh : hi < x.width + y.width := hh
    have rx := ihx ha.1 (by omega) (by omega)
    have ry := ihy ha.2.1 (by omega) (by omega)
    refine (concat_agrees rx.valid ry.valid).trans ⟨⟨rx.valid, ry.valid, .inl rfl⟩, ?_, fun m => ?_⟩
    · change (x.slice (hi - y.width) 0).width + (y.slice (y.width - 1) lo).width = hi + 1 - lo
      rw [rx.width, ry.width]
      change hi - y.width + 1 - 0 + (y.width - 1 + 1 - lo) = hi + 1 - lo
      omega
    · have e := slice_concat_both (eval_lt ha.2.1 m) (Nat.not_le.1 hlt) (not_lt.1 hge) (x.eval m)
      have hw : (y.slice (y.width - 1) lo).width = y.width - lo := by
        rw [ry.width]
        change y.width - 1 + 1 - lo = y.width - lo
        omega
      change (x.slice (hi - y.width) 0).eval m <<< _ ||| (y.slice (y.width - 1) lo).eval m = _
      rw [rx.eval, ry.eval, hw]
      exact e.symm
  | case14 hi lo x y _ ihx ihy => exact slice_bitwise_agrees (.inl rfl) ha hl hh ihx ihy
  | case15 hi lo x y _ ihx ihy => exact slice_bitwise_agrees (.inr (.inl rfl)) ha hl hh ihx ihy
  | case16 hi lo x y _ ihx ihy => exact slice_bitwise_agrees (.inr (.inr rfl)) ha hl hh ihx ihy
  | case17 hi lo c w v w' v' p q hpq _ =>
    have same : (lit (hi + 1 - lo) p).Agrees (.ite c (.lit (hi + 1 - lo) p) (.lit (hi + 1 - lo) q)) := by
      refine ⟨slice_lt .., rfl, fun m => ?_⟩
      rw [← hpq]
      simp [eval]
    exact same.trans (mkUn_ite_agrees (.slice hi lo) ha ⟨hl, hh⟩)
  | case18 hi lo c w v w' v' p q hpq _ => exact mkUn_ite_agrees (.slice hi lo) ha ⟨hl, hh⟩
  | case19 a hi lo => exact mkUn_agrees ha ⟨hl, hh⟩

end Bits

end SymExec
