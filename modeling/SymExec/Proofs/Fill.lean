import SymExec.Procedure.Text
import SymExec.Proofs.Pieces

/-!
# Filling a range of memory
-/

namespace SymExec

open Nat Word Bits Exec

/-- The map with one byte at all addresses of a range. -/
def Flat.fill (f : Flat) (c : Bits) (a e : Nat) : Flat := fun x => if a ≤ x ∧ x < e then some c.eval else f x

lemma Flat.fill_fill (f : Flat) (c) {a b e} (hb : a ≤ b) (he : b ≤ e) : (f.fill c a b).fill c b e = f.fill c a e := by
  funext x
  grind [fill]

namespace Exec

lemma byte_repeatBytes {b k} (hb : b < 2 ^ 8) (hk : 0 < k) :
    repeatBytes b k < 2 ^ (8 * k) ∧ ∀ i < k, byte (repeatBytes b k) i = b := by
  have one : ∀ {i}, i < 1 → byte b i = b := fun {i} hi => by
    obtain rfl : i = 0 := by omega
    exact mod_eq_of_lt hb
  fun_induction repeatBytes b k with
  | case1 k h =>
    obtain rfl : k = 1 := by omega
    exact ⟨hb, fun _ => one⟩
  | case2 k h r hodd ih =>
    obtain ⟨hlt, hbyte⟩ := ih (by omega)
    have hlow : r <<< 8 ||| b < 2 ^ (8 * (k / 2 + 1)) := concat_lt hlt hb
    rw [shiftLeft_add_eq_or_of_lt hb]
    refine ⟨by simpa [← mul_add, show k / 2 + (k / 2 + 1) = k by omega] using concat_lt hlt hlow, fun i hi => ?_⟩
    rw [byte_concat hlow, byte_concat (k := 1) hb]
    split_ifs with h1 h2
    exacts [one h2, hbyte _ (by omega), hbyte _ (by omega)]
  | case3 k h r heven ih =>
    obtain ⟨hlt, hbyte⟩ := ih (by omega)
    refine ⟨by simpa [← mul_add, show k / 2 + k / 2 = k by omega] using concat_lt hlt hlt, fun i hi => ?_⟩
    rw [byte_concat hlt]
    split <;> exact hbyte _ (by omega)

lemma filling_spec {c} (hc : c.Sized 8) {k} (hk : 0 < k) :
    (filling c k).Sized (8 * k) ∧ ∀ μ, ∀ j < k, byte ((filling c k).eval μ) j = c.eval μ := by
  unfold filling
  split
  · rename_i b
    obtain rfl := hc.width
    split
    · subst b
      exact ⟨sized_zero _, fun μ j _ => by simp [Bits.eval, byte, trunc]⟩
    obtain ⟨hlt, hbyte⟩ := byte_repeatBytes hc.valid hk
    exact ⟨sized_lit hlt, fun μ j hj => by rw [eval_lit hlt, hbyte j hj, eval_lit hc.valid]⟩
  · have h := concatList_spells (tiles_range' (a := 0) (f := fun μ _ => c.eval μ) (g := fun _ => c) k fun _ _ _ =>
      ⟨hc.valid, hc.width, fun μ j hj => by simpa [byte, show j = 0 by omega] using mod_eq_of_lt (hc.eval_lt μ)⟩)
    rw [List.map_const', List.length_range', zero_add] at h
    refine ⟨⟨h.valid, h.width⟩, fun μ j hj => ?_⟩
    simpa [show k - 1 - (k - 1 - j) = j by omega] using h.byte μ (k - 1 - j) (by omega)

lemma fillRange_does {S m} (hS : S.Ready m) {c} (hc : c.Sized 8) {d n}
    (hn : n < 2 ^ S.arch.bits) (hd : d + n ≤ 2 ^ S.arch.bits) (fuel : Nat) {i} (hi : i ≤ n) (hfuel : n - i ≤ 0x1000 * fuel) :
    Does .memory S (fillRange (.lit S.arch.bits d) c fuel i n) fun _ T => S.Has m ((S.contents m).flat.fill c (d + i) (d + n)) T := by
  have stop : ∀ {i} (f : Flat), ¬ i < n → f.fill c (d + i) (d + n) = f := fun _ _ => funext fun _ => if_neg (by omega)
  induction fuel generalizing S m i with
  | zero => exact .pure (stop (i := i) _ (by omega) ▸ ready_has hS)
  | succ fuel ih =>
    refine .ite (fun hlt => ?_) fun hge => .pure (stop _ hge ▸ ready_has hS)
    generalize hk : min (n - i) 0x1000 = k
    obtain ⟨hs, hbyte⟩ := filling_spec hc (show 0 < k by omega)
    have haddr : (Bits.lit S.arch.bits d).addInt i = .lit S.arch.bits (d + i) := by
      change Bits.lit _ (trunc _ (d + trunc S.arch.bits i)) = _
      rw [trunc_of_lt (show i < 2 ^ S.arch.bits by omega), trunc_of_lt (by omega)]
    have hcount : (filling c k).width / 8 = k := by rw [hs.width, Nat.mul_div_cancel_left k (by decide)]
    have hp : Put.Plain { addr := .bits (.lit S.arch.bits (d + i)), data := filling c k } m.category S.arch.bits := by
      refine ⟨rfl, by simp, rfl, hs.valid, by simp [hs.width], ?_, lt_of_eq_of_lt hcount (by omega)⟩
      cases m.category <;> exact le_rfl
    rw [haddr]
    refine (Put.run_does hS hp).bind ?_
    rintro _ T ⟨q, t, rfl, hready, hflat⟩
    have hlay : (q.unshared t).flat = (S.contents m).flat.fill c (d + i) (d + (i + k)) := by
      rw [hflat]
      funext x
      rw [Put.lay, Put.count, hcount, ← Nat.add_assoc]
      refine ite_congr rfl (fun hx => congrArg some (funext fun μ => hbyte μ _ ?_)) fun _ => rfl
      change d + i ≤ x ∧ x < d + i + k at hx
      have hup : x - (d + i) < k := by omega
      have hdown : d + i + k - 1 - x < k := by omega
      split
      exacts [hup, hdown]
    rw [← Flat.fill_fill (b := d + (i + k)) _ c (by omega) (by omega), ← hlay]
    exact ih hready hn hd (by omega) (by omega)

end Exec

/-- **A range is filled** with the lowest byte of a character, and all other bytes stay, where no breakpoint is set and no
protection enforced. A byte repeated is the number with that digit to the base 256. -/
theorem World.memset_fills {w : World} (hready : (w.scene .memory).Ready w.state.memory) (hquiet : w.Quiet) {char : Bits}
    (hvalid : char.Valid) (hwide : 8 ≤ char.width) {d n : Nat} (hn : n < 2 ^ w.state.arch.bits) (hd : d + n ≤ 2 ^ w.state.arch.bits) :
    (∃ w', memset (.lit w.state.arch.bits d) char (.lit w.state.arch.bits n) w = .ok () w' ∧ ∀ x, w'.flat .memory x =
      if d ≤ x ∧ x < d + n then some fun μ => char.eval μ % 256 else w.flat .memory x) ∧
    ∀ b < 256, ∀ k, 0 < k → repeatBytes b k = Nat.ofDigits 256 (.replicate k b) := by
  refine ⟨?_, fun b hb k hk => ?_⟩
  · obtain ⟨hc, hlow⟩ := Bits.Sized.low ⟨hvalid, rfl⟩ (k := 8) (by decide) hwide
    obtain ⟨_, w', hrun, -, hhas⟩ := fillRange_does hready hc hn hd (n / 0x1000 + 1) (Nat.zero_le n) (by omega) w hquiet rfl
    refine ⟨w', hrun, fun x => ?_⟩
    rw [flat_of_has hhas, flat_of_has (ready_has hready)]
    simp only [Flat.fill, hlow, Nat.add_zero]
  · obtain ⟨hlt, hbyte⟩ := byte_repeatBytes hb hk
    rw [← ofDigits_byte hlt, List.map_congr_left fun i hi => hbyte i (List.mem_range.1 hi), List.map_const', List.length_range]

theorem World.memset_fills_across_chunks :
    let w : World := { state := .blank .amd64 .symbolic {}, solver := .ideal }
    (w.scene .memory).Ready w.state.memory ∧ w.Quiet ∧
    ∃ w', memset (.lit 64 0x1ff0) (.sym "c" 32) (.lit 64 5000) w = .ok () w' ∧ ∀ x, w'.flat .memory x =
      if 0x1ff0 ≤ x ∧ x < 0x1ff0 + 5000 then some fun μ => (Bits.sym "c" 32).eval μ % 256 else w.flat .memory x := by
  intro w
  have hempty := empty_blank .amd64 .symbolic {}
  have hready : (w.scene .memory).Ready w.state.memory :=
    ⟨rfl, rfl, hempty.placed _, hempty.sound _, fun h => absurd h.2 (by decide), Solver.ideal_exact.folds, Nat.mul_mod_left 8 8⟩
  have hquiet : w.Quiet := fun i hi => absurd hi (by simp [w, State.blank])
  exact ⟨hready, hquiet, (@memset_fills _ hready hquiet (.sym "c" 32) trivial (by decide) _ _ (by decide) (by decide)).1⟩

theorem World.memset_guarded : ∃ f w', memset (.lit 64 0) (.lit 8 1) (.lit 64 1)
    { state := .blank .amd64 .symbolic (.ofList [.strictPageAccess]) } = .error f w' ∧ f.kind = .segfault :=
  ⟨_, _, rfl, rfl⟩

end SymExec
