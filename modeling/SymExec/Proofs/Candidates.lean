import Mathlib.Data.List.Sort
import SymExec.Proofs.Frame
import SymExec.Proofs.Pieces
import SymExec.Proofs.Segments

/-!
# Stores at one of several addresses

The address of a store that has symbols is turned into numbers, and the store is made at all of them: each segment of their ranges
gets a value that depends on which of them the address is.
-/

namespace SymExec

open List Unshared Bits EStateM Paged Chunk

variable {α : Type} {x : PagedM α}

/-! ### The choice of addresses -/

namespace Paged

structure Bytes (f : Flat) (checked : Bool) (s : Paged × Commons) : Prop where
  placed : s.1.Placed s.2
  sound : (s.1.unshared s.2).Sound
  flat : (s.1.unshared s.2).flat = f
  checked : s.1.checked = checked

variable {f : Flat} {b : Bool} {s : Paged × Commons}

lemma Aside.steady (hx : Aside x) (s) : Steady (Bytes f b) x s := by
  intro h
  obtain ⟨a, t, ht, hsame⟩ := hx s
  rw [leaves, ht]
  have hplaced := placed_of_pages h.placed hsame.pages hsame.table
  exact ⟨hplaced, hsame.unshared ▸ h.sound, hsame.unshared ▸ h.flat, hsame.checked.trans h.checked⟩

lemma at?_steady {a} : Steady (Bytes f b) (at? a) s := by
  intro h
  obtain ⟨hm, hp, hu⟩ := (at?_refines a).leaves h.placed rfl
  obtain ⟨v, hv, hr⟩ := at?_view (s.1.unshared s.2) a
  have hleft : leaves (Unshared.at? a) (s.1.unshared s.2) = v := by rw [leaves, hv]
  rw [hleft] at hu
  refine ⟨hp, hu ▸ hr.sound h.sound, ?_, hm.checked.trans h.checked⟩
  rw [← h.flat, ← flat_eq_of_view hr.view, ← hu]

lemma addressesOf_steady {v} : Steady (Bytes f b) (addressesOf v) s := by
  refine .seq .get <| .orElse fun _ => ?_
  refine ((nameCell_aside v).steady _).bind fun i _ _ => .seq .get ?_
  refine .bind (.filterM _ fun _ _ => at?_steady.done) fun _ _ _ => ?_
  refine .bind ?_ fun _ _ _ => .pure _
  refine Aside.steady (Aside.modify fun _ => ?_) _
  exact .intro rfl rfl rfl rfl rfl rfl rfl

end Paged

namespace World

/-- A world in which a memory of an id and an endness is ready and has the bytes of a map. -/
structure Kept (r : Region) (set : Settings) (m : Memory) (f : Flat) (w : World) : Prop where
  quiet : w.Quiet
  settings : w.state.settings = set
  memory : ∃ m', (w.scene r).Ready m' ∧ m'.id = m.id ∧ m'.endness = m.endness ∧ ((w.scene r).contents m').flat = f

variable {r : Region} {set : Settings} {m : Memory} {f : Flat} {w : World}

lemma Kept.of_scene {w'} (h : Kept r set m f w) (hq : w'.Quiet) (hs : w'.scene r = w.scene r) : Kept r set m f w' :=
  ⟨hq, (congrArg Scene.settings hs).trans h.settings, by rw [hs]; exact h.memory⟩

lemma kept_blind : Blind (Kept r set m f) where
  quiet _ h := h.quiet
  inspecting w i h hq := h.of_scene hq (by cases r <;> rfl)
  asking w ps ls es h := h.of_scene h.quiet (by cases r <;> rfl)

end World

namespace Exec

open World

variable {r : Region} {set : Settings} {m : Memory} {f : Flat} {w : World}

lemma onPages_kept (hx : ∀ b s, Steady (Bytes f b) x s) : Steady (Kept r set m f) (onPages r x) w := by
  intro h
  obtain ⟨m', hready, hid, he, hf⟩ := h.memory
  have hbytes := hx m'.paged.checked (m'.paged, w.commons) ⟨hready.placed, hready.sound, hf, rfl⟩
  rw [leaves_onPages hready.memory]
  generalize leaves x (m'.paged, w.commons) = s at hbytes
  obtain ⟨w', hw', hs, hi⟩ := scene_modifyMemory (r := r) (w := { w with commons := s.2 }) hready.memory
    fun m => { m with paged := s.1 }
  rw [leaves, hw']
  have hset : w'.state.settings = w.state.settings := congrArg Scene.settings hs
  refine ⟨fun i hq => h.quiet i (hi ▸ hq), hset.trans h.settings, { m' with paged := s.1 }, ?_, hid, he, ?_⟩
  · rw [hs]
    exact ⟨rfl, hready.fast, hbytes.placed, hbytes.sound, fun h => hready.free ⟨hbytes.checked ▸ h.1, h.2⟩, hready.folds, hready.whole⟩
  · rw [hs]
    exact hbytes.flat

lemma modifyMemory_kept {g}
    (hg : ∀ m, (g m).paged = m.paged ∧ (g m).id = m.id ∧ (g m).endness = m.endness ∧ (g m).fast = m.fast) :
    Steady (Kept r set m f) (modifyMemory r g) w := by
  intro h
  obtain ⟨m', hready, hid, he, hf⟩ := h.memory
  obtain ⟨w', hw', hs, hi⟩ := scene_modifyMemory hready.memory g
  obtain ⟨h1, h2, h3, h4⟩ := hg m'
  have hset : w'.state.settings = w.state.settings := congrArg Scene.settings hs
  rw [leaves, hw']
  refine ⟨fun i hq => h.quiet i (hi ▸ hq), hset.trans h.settings, g m', ?_, h2.trans hid, h3.trans he, ?_⟩
  · rw [hs]
    exact ⟨rfl, h4.trans hready.fast, h1 ▸ hready.placed, by rw [Scene.contents, h1]; exact hready.sound,
      fun h => hready.free ⟨h1 ▸ h.1, h.2⟩, hready.folds, hready.whole⟩
  · rw [hs, Scene.contents, h1]
    exact hf

lemma choose_kept {s addr} : Steady (Kept r set m f) (Strategy.choose r s addr) w := by
  have ask : ∀ n extra w, Steady (Kept r set m f) (values addr n extra) w := fun n extra w => values_steady kept_blind
  have most : ∀ w, Steady (Kept r set m f) (greatest addr) w := fun w => extreme_steady kept_blind true addr []
  have fewest : ∀ w, Steady (Kept r set m f) (least addr) w := fun w => extreme_steady kept_blind false addr []
  cases s with
  | any exact =>
    refine .ite (fun _ => (eval_steady kept_blind).done) fun _ => ?_
    exact (fewest _).seq <| (most _).done
  | controlledData limit fixed _ =>
    refine memoryAt_steady.seq ?_
    refine (Steady.mapM _ fun _ _ _ => onPages_kept fun _ _ => addressesOf_steady).bind fun _ _ _ => ?_
    dsimp only
    split
    · exact .throw _
    · exact (ask _ _ _).done
  | eval limit _ => exact (ask _ _ _).done
  | max _ => exact (most _).done
  | nonzero _ => exact (eval_steady kept_blind).done
  | nonzeroRange limit _ =>
    refine (fewest _).seq <| (most _).seq <| .when fun _ => ?_
    exact (ask _ _ _).done
  | noRepeats e seen _ | noRepeatsRange e lo g _ => exact (eval_steady kept_blind).done
  | range limit marked _ =>
    refine .seq .get <| .orElse fun _ => ?_
    refine (fewest _).seq <| (most _).seq <| .when fun _ => ?_
    exact (ask _ _ _).done
  | single _ =>
    refine (ask _ _ _).bind fun _ _ _ => ?_
    split <;> exact .pure _
  | solutions limit _ => exact (ask _ _ _).done

lemma concretizeWith_go_kept (addr write action i ss) :
    Steady (Kept r set m f) (concretizeWith.go r addr write action i ss) w := by
  induction ss generalizing i w with
  | nil => exact .throw _
  | cons s rest ih =>
    refine (inspect_steady kept_blind).seq <| attr_steady.seq ?_
    refine .ite (fun _ => ih _) fun _ => attributeBits_steady.bind fun e _ _ => ?_
    refine .bind (Steady.tryCatch choose_kept fun f t => .orElse fun _ => .throw _) fun p _ _ => ?_
    refine (modifyMemory_kept fun m => ?_).seq <| (inspect_steady kept_blind).bind fun _ _ _ => ?_
    · split <;> exact ⟨rfl, rfl, rfl, rfl⟩
    · refine attr_steady.bind fun _ _ _ => ?_
      split
      · exact .pure _
      · exact ih _

/-- **Choosing addresses** changes no byte. -/
theorem concretize_kept (q write) : Steady (Kept r set m f) (concretize r q write) w := by
  unfold concretize
  split
  · exact .pure _
  · exact .pure _
  · exact memoryAt_steady.seq <| concretizeWith_go_kept _ _ _ _ _

end Exec

/-! ### Parts of data -/

/-- The part of data that lies `k` bytes long from the `i`-th of its addresses on. -/
def Endness.part (e : Endness) (data : Bits) (i k : Nat) : Bits :=
  if decide (e = .little) then data.slice (8 * (i + k) - 1) (8 * i)
  else data.slice (data.width - 1 - 8 * i) (data.width - 8 * (i + k))

lemma Endness.part_spec (e : Endness) {data n i k b} (hd : data.Sized (8 * n)) (hk : 0 < k) (hik : i + k ≤ n)
    (hib : i ≤ b) : (e.part data i k).Sized (8 * k) ∧
      ∀ μ x, b ≤ x → x < b + k → e.byteAt ((e.part data i k).eval μ) b k x = e.byteAt (data.eval μ) (b - i) n x := by
  obtain ⟨j, hj, hjn, hpart⟩ : ∃ j, (j = if e = .little then i else n - (i + k)) ∧ j + k ≤ n ∧
      e.part data i k = data.slice (8 * (j + k) - 1) (8 * j) := by
    refine ⟨_, rfl, by split <;> omega, ?_⟩
    rw [part, hd.width]
    simp only [decide_eq_true_eq]
    split
    · rfl
    · congr 1 <;> omega
  have hs : (data.slice (8 * (j + k) - 1) (8 * j)).Sized (8 * (j + k) - 1 + 1 - 8 * j) := hd.slice (by omega) (by omega)
  rw [hpart]
  refine ⟨⟨hs.valid, hs.width.trans (by omega)⟩, fun μ x h1 h2 => ?_⟩
  rw [byteAt, byteAt, (slice_agrees (8 * (j + k) - 1) (8 * j) hd.valid (by omega) (by rw [hd.width]; omega)).eval]
  refine (Word.byte_slice _ j rfl (by split <;> omega)).trans ?_
  congr 1
  split_ifs at * <;> omega

/-! ### Pieces side by side -/

namespace Exec

variable {r : Region} {S T : Scene} {m : Memory} {f : Flat} {c : Cond} {x n : Nat} {size : Quantity} {μ : Model} {segments : List Segment}
  {ps : List Piece} {b data : Bits} {addrs : List Nat}

structure Piece.On (s : Segment) (p : Piece) : Prop where
  addr : p.addr = s.start
  size : p.size = s.size

lemma at?_outside_pieces (h : Forall₂ Piece.On segments ps) (e f) (μ : Model)
    (hx : ∀ s ∈ segments, ¬ (s.start ≤ x ∧ x < s.start + s.size)) : (ps.foldl (Piece.lay e) f).at? μ x = f.at? μ x := by
  induction h generalizing f with
  | nil => rfl
  | cons hsp hrest ih =>
    rename_i s p segments ps
    rw [foldl_cons, ih _ fun t ht => hx t (.tail _ ht), Piece.lay, Flat.at?_lay, hsp.addr, hsp.size, if_neg (hx s (by simp))]

lemma at?_inside_pieces {Q : Segment → Piece → Prop} (h : Forall₂ (fun s p => p.On s ∧ Q s p) segments ps)
    (hs : segments.Pairwise fun s t => s.start + s.size ≤ t.start) (e : Endness) (f) {s} (hmem : s ∈ segments)
    (h1 : s.start ≤ x) (h2 : x < s.start + s.size) :
    ∃ p, Q s p ∧ ∀ μ, (ps.foldl (Piece.lay e) f).at? μ x = some (e.byteAt (p.value.eval μ) s.start s.size x) := by
  induction h generalizing f with
  | nil => cases hmem
  | cons htq hrest ih =>
    rename_i t q segments ps
    obtain ⟨hnext, hs⟩ := pairwise_cons.1 hs
    obtain rfl | hmem := mem_cons.1 hmem
    · refine ⟨q, htq.2, fun μ => ?_⟩
      rw [foldl_cons, at?_outside_pieces (hrest.imp fun _ _ h => h.1) e _ μ, Piece.lay, Flat.at?_lay, htq.1.addr,
        htq.1.size, if_pos ⟨h1, h2⟩]
      intro u hu hxu
      have := hnext u hu
      omega
    · exact ih hs _ hmem

/-- The value of a segment: the part of the data that lies there for the address that holds, and else what was there. -/
def Segment.value (e : Endness) (addr : Quantity) (data : Bits) (c : Cond) (s : Segment) (old : Bits) : Bits :=
  s.options.foldl (fun v i => .mkIte (.mkAnd (addr.eqNat (s.start - i)) c) (e.part data i s.size) v) old

section
variable {addrs : List Nat} {n : Nat} {b data : Bits} {s : Segment} {a : Nat} {old : Bits}

lemma Segment.eval_option (hb : b.Formed) (hfit : ∀ a ∈ addrs, a < 2 ^ b.width) (c) (ha : a ∈ addrs) (hle : a ≤ s.start)
    (μ : Model) : (Cond.mkAnd ((Quantity.bits b).eqNat (s.start - (s.start - a))) c).eval μ = (b.eval μ == a && c.eval μ) := by
  rw [Nat.sub_sub_self hle, Cond.eval_mkAnd]
  exact congrArg (· && c.eval μ) (Cond.eval_eqNat hb (hfit a ha) μ)

section
variable (hs : s.Fits addrs n) (hd : data.Sized (8 * n))
include hs hd

lemma Segment.part_option (e : Endness) (ha : a ∈ addrs) (hle : a ≤ s.start)
    (hlt : s.start < a + n) : (e.part data (s.start - a) s.size).Sized (8 * s.size) ∧ ∀ μ x, s.start ≤ x → x < s.start + s.size →
      e.byteAt ((e.part data (s.start - a) s.size).eval μ) s.start s.size x = e.byteAt (data.eval μ) a n x := by
  have hin := hs.inside ha hlt
  have h := e.part_spec hd hs.pos (i := s.start - a) (b := s.start) (by omega) (by omega)
  rwa [Nat.sub_sub_self hle] at h

/-- The value of a segment is the part of the data that an address puts there, or what was there. -/
lemma Segment.value_spec (hold : old.Sized (8 * s.size)) (e : Endness)
    (addr c) : (s.value e addr data c old).Sized (8 * s.size) ∧ ∀ μ,
      (∃ i ∈ s.options, (Cond.mkAnd (addr.eqNat (s.start - i)) c).eval μ = true ∧
        (s.value e addr data c old).eval μ = (e.part data i s.size).eval μ) ∨
      (∀ i ∈ s.options, (Cond.mkAnd (addr.eqNat (s.start - i)) c).eval μ = false) ∧ (s.value e addr data c old).eval μ = old.eval μ := by
  refine foldl_mkIte_spec _ (fun i hi => ?_) hold
  obtain ⟨a, ha, hle, hlt, rfl⟩ := (hs.option i).1 hi
  exact (Segment.part_option hs hd e ha hle hlt).1

end

section
variable (hb : b.Formed) (hfit : ∀ a ∈ addrs, a < 2 ^ b.width) (hs : s.Fits addrs n) (hd : data.Sized (8 * n))
  (hold : old.Sized (8 * s.size)) (e : Endness)
include hb hfit hs hd hold e

lemma Segment.eval_value_of_miss (h : c.eval μ = false ∨ ∀ a ∈ addrs, b.eval μ = a → a ≤ s.start → a + n ≤ s.start) :
    (s.value e (.bits b) data c old).eval μ = old.eval μ := by
  obtain ⟨i, hi, hci, -⟩ | ⟨-, hv⟩ := (Segment.value_spec hs hd hold e (.bits b) c).2 μ
  · obtain ⟨a, ha, hle, hlt, rfl⟩ := (hs.option i).1 hi
    rw [Segment.eval_option hb hfit c ha hle, Bool.and_eq_true, beq_iff_eq] at hci
    obtain hc | h := h
    · exact absurd (hc.symm.trans hci.2) Bool.false_ne_true
    · exact absurd (h a ha hci.1 hle) (Nat.not_le.2 hlt)
  · exact hv

lemma Segment.byteAt_value_of_hit (hc : c.eval μ = true) (ha : a ∈ addrs) (heq : b.eval μ = a) (hle : a ≤ s.start)
    (hlt : s.start < a + n) (h1 : s.start ≤ x) (h2 : x < s.start + s.size) :
    e.byteAt ((s.value e (.bits b) data c old).eval μ) s.start s.size x = e.byteAt (data.eval μ) a n x := by
  rw [← (Segment.part_option hs hd e ha hle hlt).2 μ x h1 h2]
  obtain ⟨i, hi, hci, hv⟩ | ⟨hnone, -⟩ := (Segment.value_spec hs hd hold e (.bits b) c).2 μ
  · obtain ⟨a', ha', hle', -, rfl⟩ := (hs.option i).1 hi
    rw [Segment.eval_option hb hfit c ha' hle', Bool.and_eq_true, beq_iff_eq, heq] at hci
    rw [hv, hci.1]
  · have hfalse := hnone _ ((hs.option _).2 ⟨a, ha, hle, hlt, rfl⟩)
    rw [Segment.eval_option hb hfit c ha hle, hc, heq, beq_self_eq_true] at hfalse
    cases hfalse

end

end

/-! ### The store -/

/-- What a store at one of several addresses, under a condition, makes of a map: in a model in which the condition fails it
is as it was, in one in which it holds it is what the plain store at the address leaves. -/
structure Splits (e : Endness) (addrs : List Nat) (b : Bits) (c : Cond) (data : Bits) (n : Nat) (f g : Flat) : Prop where
  kept : ∀ μ, c.eval μ = false → ∀ x, g.at? μ x = f.at? μ x
  laid : ∀ μ, c.eval μ = true → ∀ a ∈ addrs, b.eval μ = a → ∀ x, g.at? μ x = (f.lay e data a n).at? μ x

lemma mapM_readFrom_has (h : S.Has m f T) (hf : ∀ s ∈ segments, ∀ x, s.start ≤ x → x < s.start + s.size → (f x).isSome) :
    Does r T (segments.mapM fun s => readFrom r s.start s.size) fun olds T' =>
      Forall₂ (fun s v => v.Spells f.byte s.start s.size) segments olds ∧ S.Has m f T' := by
  induction segments generalizing T with
  | nil => exact .pure ⟨.nil, h⟩
  | cons s segments ih =>
    rw [mapM_cons]
    refine (readFrom_has h (hf s (by simp))).bind fun v T' ⟨hv, hT'⟩ => ?_
    refine (ih hT' fun t ht => hf t (.tail _ ht)).bind fun vs T'' ⟨hvs, hT''⟩ => ?_
    exact .pure ⟨.cons hv hvs, hT''⟩

lemma pieces_on_segments (e : Endness) (addr data c) {olds}
    (h : Forall₂ (fun s v => v.Spells f.byte s.start s.size) segments olds) :
    Forall₂ (fun s p => p.On s ∧ ∃ v, v.Spells f.byte s.start s.size ∧
        p.value = s.value e addr data c (if decide (e = .little) then v.reverse else v)) segments
      ((segments.zip (olds.map fun v => if decide (e = .little) then v.reverse else v)).map fun (s, old) =>
        (⟨s.value e addr data c old, s.start, s.size⟩ : Piece)) := by
  induction h with
  | nil => exact .nil
  | cons hv _ ih => exact .cons ⟨⟨rfl, rfl⟩, _, hv, rfl⟩ ih

lemma splits_of_pieces {e : Endness} (hb : b.Formed) (hfit : ∀ a ∈ addrs, a < 2 ^ b.width) (hd : data.Sized (8 * n))
    (hf : ∀ a ∈ addrs, ∀ x, a ≤ x → x < a + n → (f x).isSome) (hcut : Cut addrs n segments)
    (hps : Forall₂ (fun s p => p.On s ∧ ∃ v, v.Spells f.byte s.start s.size ∧
      p.value = s.value e (.bits b) data c (if decide (e = .little) then v.reverse else v)) segments ps)
    : Splits e addrs b c data n f (ps.foldl (Piece.lay e) f) := by
  have outside : ∀ μ x, (∀ s ∈ segments, ¬ (s.start ≤ x ∧ x < s.start + s.size)) →
      (ps.foldl (Piece.lay e) f).at? μ x = f.at? μ x := fun μ x hx =>
    at?_outside_pieces (hps.imp fun _ _ h => h.1) e f μ hx
  -- what a segment shows at one of its addresses if no address that holds covers it
  have missed : ∀ μ, ∀ s ∈ segments, (c.eval μ = false ∨ ∀ a ∈ addrs, b.eval μ = a → a ≤ s.start → a + n ≤ s.start) →
      ∀ x, s.start ≤ x → x < s.start + s.size → (ps.foldl (Piece.lay e) f).at? μ x = f.at? μ x := by
    intro μ s hs h x h1 h2
    obtain ⟨p, ⟨v, hv, hp⟩, hat⟩ := at?_inside_pieces hps hcut.ordered e f hs h1 h2
    obtain ⟨hval, hwid, hbyte⟩ := hv.ordered e
    obtain ⟨a, ha, h3, h4⟩ := hcut.within hs
    rw [hat μ, hp, Segment.eval_value_of_miss hb hfit (hcut.fits s hs) hd ⟨hval, hwid⟩ e h, hbyte μ x h1 h2,
      Flat.at?_eq_byte (hf a ha x (by omega) (by omega))]
  refine ⟨fun μ hμ x => ?_, fun μ hμ a ha heq x => ?_⟩
  · by_cases hx : ∃ s ∈ segments, s.start ≤ x ∧ x < s.start + s.size
    · obtain ⟨s, hs, h1, h2⟩ := hx
      exact missed μ s hs (.inl hμ) x h1 h2
    · exact outside μ x fun s hs h => hx ⟨s, hs, h⟩
  · rw [Flat.at?_lay]
    by_cases hin : a ≤ x ∧ x < a + n
    · obtain ⟨s, hs, h1, h2⟩ := hcut.covers a ha x hin.1 hin.2
      have hwithin : a ≤ s.start ∧ s.start < a + n := by obtain h | h | h := (hcut.fits s hs).apart a ha <;> omega
      obtain ⟨p, ⟨v, hv, hp⟩, hat⟩ := at?_inside_pieces hps hcut.ordered e f hs h1 h2
      obtain ⟨hval, hwid, -⟩ := hv.ordered e
      rw [if_pos hin, hat μ, hp, Segment.byteAt_value_of_hit hb hfit (hcut.fits s hs) hd ⟨hval, hwid⟩ e hμ ha heq hwithin.1
        hwithin.2 h1 h2]
    · rw [if_neg hin]
      by_cases hx : ∃ s ∈ segments, s.start ≤ x ∧ x < s.start + s.size
      · obtain ⟨s, hs, h1, h2⟩ := hx
        refine missed μ s hs (.inr fun a' ha' heq' hle => ?_) x h1 h2
        obtain h | h | h := (hcut.fits s hs).apart a' ha' <;> omega
      · exact outside μ x fun s hs h => hx ⟨s, hs, h⟩

/-- The pieces of a store, laid over the bytes from which it began. -/
def Pieces (S : Scene) (m : Memory) (f : Flat) (e : Endness) (addrs : List Nat) (b data : Bits) (n : Nat) (cond : Option Cond)
    (ps : List Piece) (T : Scene) : Prop :=
  (∀ p ∈ ps, p.Whole) ∧ Splits e addrs b (cond.getD (.lit true)) data n f (ps.foldl (Piece.lay e) f) ∧ S.Has m f T

section
variable (h : S.Has m f T) (e : Endness)
include h e

lemma storeConcrete_does (b) {a} (hd : data.Sized (8 * n)) (hf : ∀ x, a ≤ x → x < a + n → (f x).isSome) (cond) :
    Does r T (storeConcrete r (decide (e = .little)) a n data cond) (Pieces S m f e [a] b data n cond) := by
  have hdata : (if 0 < n ∧ n < data.width / 8 then data.slice (8 * n - 1) 0 else data) = data := if_neg (by rw [hd.width]; omega)
  unfold storeConcrete
  rw [hdata]
  cases cond with
  | none =>
    refine .pure ⟨fun p hp => ?_, ⟨by simp [Cond.eval], fun μ _ a' ha' _ x => ?_⟩, h⟩
    · obtain rfl := mem_singleton.1 hp
      exact ⟨hd.valid, hd.width⟩
    · obtain rfl := mem_singleton.1 ha'
      rfl
  | some c =>
    refine (readFrom_has h hf).bind ?_
    rintro old T' ⟨hold, hT'⟩
    obtain ⟨hv, hvw, hbyte⟩ := hold.ordered e
    have hite := hd.ite ⟨hv, hvw⟩ c
    have hat : ∀ μ x, (f.lay e (.mkIte c data (if decide (e = .little) then old.reverse else old)) a n).at? μ x =
        if c.eval μ then (f.lay e data a n).at? μ x else f.at? μ x := fun μ x => by
      rw [Flat.at?_lay, Flat.at?_lay, eval_mkIte hd ⟨hv, hvw⟩]
      by_cases hx : a ≤ x ∧ x < a + n
      · rw [if_pos hx, if_pos hx]
        cases c.eval μ
        · exact (congrArg some (hbyte μ x hx.1 hx.2)).trans (Flat.at?_eq_byte (hf x hx.1 hx.2) μ).symm
        · rfl
      · rw [if_neg hx, if_neg hx, ite_self]
    refine .pure ⟨fun p hp => ?_, ⟨fun μ hμ x => ?_, fun μ hμ a' ha' _ x => ?_⟩, hT'⟩
    · obtain rfl := mem_singleton.1 hp
      exact ⟨hite.valid, hite.width⟩
    · exact (hat μ x).trans (if_neg (by rw [show c.eval μ = false from hμ]; simp))
    · obtain rfl := mem_singleton.1 ha'
      exact (hat μ x).trans (if_pos hμ)

variable (hb : b.Formed) (haddrs : addrs.Pairwise (· < ·)) (hfit : ∀ a ∈ addrs, a < 2 ^ b.width) (hn : 0 < n)
  (hsize : size.nat? = some n) (hd : data.Sized (8 * n)) (hf : ∀ a ∈ addrs, ∀ x, a ≤ x → x < a + n → (f x).isSome) (cond : Option Cond)
include hb haddrs hfit hn hd hf cond

/-- **The pieces of a store at one of several addresses.** -/
theorem storeSymbolicAddr_does :
    Does r T (storeSymbolicAddr r (decide (e = .little)) (.bits b) addrs n data cond) (Pieces S m f e addrs b data n cond) := by
  have hcut := storeSegments_cut hn haddrs
  have hthere : ∀ s ∈ storeSegments addrs n, ∀ x, s.start ≤ x → x < s.start + s.size → (f x).isSome := fun s hs x h1 h2 => by
    obtain ⟨a, ha, h3, h4⟩ := hcut.within hs
    exact hf a ha x (by omega) (by omega)
  refine (mapM_readFrom_has h hthere).bind fun olds T' ⟨holds, hT'⟩ => .pure ?_
  have hps := pieces_on_segments e (.bits b) data (cond.getD (.lit true)) holds
  have hlist : (if decide (e = .little) then olds.map .reverse else olds) =
      olds.map fun v => if decide (e = .little) then v.reverse else v := by
    cases decide (e = .little)
    · exact (map_id' olds).symm
    · rfl
  rw [hlist]
  refine ⟨fun p hp => ?_, splits_of_pieces hb hfit hd hf hcut hps, hT'⟩
  obtain ⟨⟨s, old⟩, hmem, rfl⟩ := mem_map.1 hp
  have hold : old.Sized (8 * s.size) := forall₂_zip (R := fun s o => o.Sized (8 * s.size))
    (forall₂_map_right_iff.2 (holds.imp fun s v hv => ⟨(hv.ordered e).1, (hv.ordered e).2.1⟩)) hmem
  have hval := (Segment.value_spec (hcut.fits s (of_mem_zip hmem).1) hd hold e (.bits b) (cond.getD (.lit true))).1
  exact ⟨hval.valid, hval.width⟩

include hsize in
lemma storePieces_does :
    Does r T (storePieces r (decide (e = .little)) (.bits b) addrs size data cond) (Pieces S m f e addrs b data n cond) := by
  have several := storeSymbolicAddr_does (r := r) h e hb haddrs hfit hn hd hf cond
  rcases addrs with _ | ⟨a, _ | ⟨a', addrs⟩⟩
  · obtain rfl | ⟨w, rfl⟩ := Quantity.eq_of_nat? hsize <;> exact several
  · have one := storeConcrete_does (r := r) h e b hd (hf a (by simp)) cond
    obtain rfl | ⟨w, rfl⟩ := Quantity.eq_of_nat? hsize <;> exact one
  · obtain rfl | ⟨w, rfl⟩ := Quantity.eq_of_nat? hsize <;> exact several

end

lemma tryCatch_some {x a w w₁} (hx : x w = .ok a w₁) (h : Fault → Exec (Option α)) :
    (tryCatch (some <$> x) h : Exec (Option α)) w = .ok (some a) w₁ := tryCatch_of_ok (map_of_ok hx) h

lemma storeRaw_run_candidates {w w₁} (hm : w.state.memory? r = some m) (hfast : m.fast = none)
    (hmulti : w.state.settings.has .avoidMultivaluedWrites = false) (hconc : concretize r (.bits b) true w = .ok addrs w₁)
    (hsize : size.nat? = some n) (hn : n ≤ data.width / 8) (cond endness) :
    storeRaw r (.bits b) data size cond endness w =
      storeAt r m.category (decide (endness.getD m.endness = .little)) (.bits b) (addrs.mergeSort (· ≤ ·)) size data cond w₁ := by
  rw [storeRaw, bind_of_ok (memoryAt_run hm), hfast, Quantity.symbolic_of_nat? hsize]
  change (has .avoidMultivaluedWrites >>= fun b' => if ((Quantity.bits b).symbolic && b') = true then _ else _) w = _
  rw [bind_of_ok (has_run _ w), hmulti, Bool.and_false]
  change (boundSize size (data.width / 8) >>= _) w = _
  rw [bind_of_ok (boundSize_run hsize hn w), bind_of_ok (tryCatch_some hconc _)]
  rcases addrs with _ | ⟨a, _ | ⟨a', addrs⟩⟩
  · rfl
  · rw [mergeSort_singleton]
  · rfl

/-! ### A choice that is known -/

lemma concretize_eval_run (write) {w} (hi : w.state.inspector = none) (hm : w.state.memory? r = some m) {k x rest}
    (hs : (if write then m.writeStrategies else m.readStrategies) = .eval k x :: rest) (hb : b.lit? = none) {vs}
    (hv : w.solver.values w.state.constraints b k = vs) (hne : vs ≠ []) :
    concretize r (.bits b) write w = .ok (vs.mergeSort (· ≤ ·)) (leaves (modifyMemory r fun m =>
        if write then { m with writeStrategies := m.writeStrategies.set 0 (.eval k x) }
        else { m with readStrategies := m.readStrategies.set 0 (.eval k x) })
        (leaves (keepValues b k vs w.state.constraints) w)) := by
  have hstart : concretize r (.bits b) write w = concretizeWith r b write w := by
    cases b with
    | lit => exact absurd hb (by simp [lit?])
    | _ => rfl
  have given : ∀ k v (w : World), w.state.inspector = none → attr k v w = .ok v w := fun k v w hi =>
    attr_run fun i h => absurd (hi.symm.trans h) (by simp)
  have hvals : values b k [] w = .ok _ (leaves (keepValues b k vs w.state.constraints) w) := values_run hb hv hne
  obtain ⟨ps, ls, hkeep⟩ := keepValues_run b k vs w.state.constraints w
  have hleft : leaves (keepValues b k vs w.state.constraints) w = w.asking ps ls w.state.extremes := by rw [leaves, hkeep]
  rw [hleft] at hvals ⊢
  obtain ⟨w₁, hw1, -, hinsp⟩ := scene_modifyMemory (r := r) (w := w.asking ps ls w.state.extremes)
    (m := m) (by cases r <;> exact hm) _
  have hi1 : w₁.state.inspector = none := hinsp.trans hi
  have hchoose : handling .unsat (Strategy.choose r (.eval k x) b) (return (none, .eval k x)) w =
      .ok (some (vs.mergeSort (· ≤ ·)), .eval k x) (w.asking ps ls w.state.extremes) := by
    have hrun : Strategy.choose r (.eval k x) b w =
        .ok (some (vs.mergeSort (· ≤ ·)), .eval k x) (w.asking ps ls w.state.extremes) := bind_of_ok hvals
    exact tryCatch_of_ok hrun _
  rw [leaves, hw1, hstart, concretizeWith, bind_of_ok (memoryAt_run hm)]
  rw [hs, concretizeWith.go, bind_of_ok (inspect_none hi), bind_of_ok (given _ _ w hi)]
  change (attributeBits "address_concretization_expr" b >>= _) w = _
  rw [bind_of_ok (attributeBits_run fun i h => absurd (hi.symm.trans h) (by simp)), bind_of_ok hchoose]
  dsimp only
  rw [bind_of_ok hw1, bind_of_ok (inspect_none hi1), bind_of_ok (given _ _ w₁ hi1)]
  exact congrArg (fun l => Result.ok l w₁) (filterMap_map.trans filterMap_some)

end Exec

namespace World

open Exec

variable {w w₁ : World} {r : Region} {m : Memory} {σ α : Type}

/-- **A store at one of several addresses** is the plain store at the one that holds: it succeeds, and in each model in which
the address is one of the numbers it was turned into and the condition, if there is one, holds, it leaves every byte as the
plain store at this number does. In each model in which the condition fails every byte is as it was. -/
theorem candidate_store_splits (hready : (w.scene r).Ready m) (hquiet : w.Quiet)
    (hmulti : w.state.settings.has .avoidMultivaluedWrites = false) {b : Bits} (hb : b.Formed) {addrs : List Nat}
    (hconc : concretize r (.bits b) true w = .ok addrs w₁) (hnodup : addrs.Nodup) (hfit : ∀ a ∈ addrs, a < 2 ^ b.width)
    {data : Bits} {n : Nat} (hd : data.Sized (8 * n)) (hn : 0 < n) {size : Quantity} (hsize : size.nat? = some n)
    (hthere : ∀ a ∈ addrs, ∀ x, a ≤ x → x < a + n → (w.flat r x).isSome) (cond : Option Cond) (endness : Option Endness) :
    ∃ res w', storeRaw r (.bits b) data size cond endness w = .ok res w' ∧
      (∀ μ, (cond.getD (.lit true)).eval μ = false → ∀ x, (w'.flat r).at? μ x = (w.flat r).at? μ x) ∧
      ∀ a ∈ addrs, ∃ res' w'', storeRaw r (.num a) data size none endness w = .ok res' w'' ∧
        ∀ μ, (cond.getD (.lit true)).eval μ = true → b.eval μ = a → ∀ x, (w'.flat r).at? μ x = (w''.flat r).at? μ x := by
  have hflat : w.flat r = ((w.scene r).contents m).flat := flat_of_has (ready_has hready)
  have hreach : n ≤ data.width / 8 := by
    rw [hd.width]
    omega
  -- the choice of the addresses left the memory as it was
  have hkept : Kept r w.state.settings m (w.flat r) w₁ :=
    (concretize_kept (.bits b) true).of_ok ⟨hquiet, rfl, m, hready, rfl, rfl, hflat.symm⟩ hconc
  obtain ⟨m₁, hready₁, hid, hend, hflat₁⟩ := hkept.memory
  -- the addresses in order
  have hmem : ∀ a, a ∈ addrs.mergeSort (· ≤ ·) ↔ a ∈ addrs := fun a => (List.mergeSort_perm addrs _).mem_iff
  have hsorted : (addrs.mergeSort (· ≤ ·)).Pairwise (· < ·) := by
    have hle : (addrs.mergeSort (· ≤ ·)).Pairwise fun a b => decide (a ≤ b) = true :=
      List.pairwise_mergeSort (fun a b c => by simpa using Nat.le_trans) (fun a b => by simpa using Nat.le_total a b) addrs
    have hne : (addrs.mergeSort (· ≤ ·)).Nodup := (List.mergeSort_perm addrs _).nodup_iff.2 hnodup
    exact (hle.and hne).imp fun ⟨h1, h2⟩ => Nat.lt_of_le_of_ne (by simpa using h1) h2
  have pieces := storePieces_does (r := r) (ready_has hready₁) (endness.getD m.endness) hb hsorted
    (fun a ha => hfit a ((hmem a).1 ha)) hn hsize hd (fun a ha => by rw [hflat₁]; exact hthere a ((hmem a).1 ha)) cond
  obtain ⟨res, w', hrun, -, ps, hsplits, hhas⟩ := (storeAt_has pieces : Does r _ (storeAt r m.category _ _ _ _ _ _) _) w₁ hkept.quiet rfl
  have hflat' := flat_of_has hhas
  rw [hflat₁] at hsplits hflat'
  refine ⟨res, w', ?_, fun μ hμ x => ?_, fun a ha => ?_⟩
  · rw [storeRaw_run_candidates hready.memory hready.fast hmulti hconc hsize hreach]
    exact hrun
  · rw [hflat']
    exact hsplits.kept μ hμ x
  · obtain ⟨res', w'', hrun', -, -, c, hc, p, k, hscene, -, hready'', hview⟩ :=
      storeRaw_does (r := r) hready (show (Quantity.num a).nat? = some a from rfl) hsize hd.valid
        (by rw [hd.width]; omega) hreach endness w hquiet rfl
    have hflat'' : w''.flat r = ((w.scene r).contents m).flat.lay (endness.getD m.endness) data a n :=
      flat_of_has ⟨p, k, hscene, hready'', Unshared.flat_of_over hc hview⟩
    refine ⟨res', w'', hrun', fun μ hμ heq x => ?_⟩
    rw [hflat', hflat'', ← hflat]
    exact hsplits.laid μ hμ a ((hmem a).2 ha) heq x

lemma ideal_values_two {cs b p q k} (hpq : p < q) (hk : 2 < k) (hp : Solver.CanBe cs b p) (hq : Solver.CanBe cs b q)
    (honly : ∀ v, Solver.CanBe cs b v → v = p ∨ v = q) : (Solver.ideal.values cs b k).mergeSort (· ≤ ·) = [p, q] := by
  have hnodup := Solver.ideal_exact.values_nodup cs b k
  have hsub : Solver.ideal.values cs b k ⊆ [p, q] := fun v hv => by simpa using honly v (Solver.ideal_exact.canBe_of_mem cs b k v hv)
  have hlen : (Solver.ideal.values cs b k).length < k := Nat.lt_of_le_of_lt (subperm_of_subset hnodup hsub).length_le hk
  have hperm : (Solver.ideal.values cs b k).Perm [p, q] := (perm_ext_iff_of_nodup hnodup (by simp; omega)).2 fun v =>
    ⟨fun hv => hsub hv, fun hv => by
      obtain rfl | rfl : v = p ∨ v = q := by simpa using hv
      · exact Solver.ideal_exact.mem_of_canBe cs b k v hlen hp
      · exact Solver.ideal_exact.mem_of_canBe cs b k v hlen hq⟩
  exact ((mergeSort_perm _ _).trans hperm).eq_of_pairwise (fun a b _ _ => Nat.le_antisymm)
    (pairwise_mergeSort' (· ≤ ·) _) (by simp; omega)

lemma whole_page {v} (hv : v < 2 ^ (8 * pageSize)) :
    let u := unshared { pages := Std.TreeMap.empty.insert 0 0 }
      { pages := #[{ base := 0, whole := some (.ofBits (.lit (8 * pageSize) v) 0) }] }
    u.Sound ∧ ∀ x, u.flat x = if x / pageSize = 0 then some fun _ => Word.byte v (pageSize - 1 - x) else none := by
  intro u
  have hpeek : ∀ n, u.peek n = if n = 0 then some { base := 0, whole := some (.ofBits (.lit (8 * pageSize) v) 0) } else none := fun n => by
    have hfresh : u.fresh? n false = none := by simp [u, Unshared.fresh?, Paged.fresh?, Paged.unshared, Paged.load]
    rw [peek, hfresh]
    by_cases hn : n = 0
    · subst hn
      simp [u, unshared, Commons.page]
    · simp [u, unshared, Std.TreeMap.getElem?_insert, hn, Ne.symm hn]
  have hview : ∀ x, u.view x = if x / pageSize = 0 then some (.ofBits (.lit (8 * pageSize) v) 0) else none := fun x => by
    rw [view, hpeek]
    split
    · simp [Page.at?]
    · rfl
  refine ⟨⟨fun n pg hpg => ?_, fun a c hc => ?_⟩, fun x => ?_⟩
  · rw [hpeek] at hpg
    split at hpg
    · rename_i hn
      cases hpg
      refine ⟨by rw [hn]; rfl, by simp, fun c hc => ?_⟩
      cases hc
      exact ⟨le_rfl, by simp [Page.stop, stop, ofBits, width]⟩
    · cases hpg
  · rw [hview] at hc
    split at hc
    · cases hc
      exact ofBits_sound (show (lit _ v).Valid from hv) (by simp [width, pageSize]) 0
    · cases hc
  · rw [Unshared.flat, hview]
    split
    · simp [Chunk.byte, Chunk.ofBits, stop, width, eval_lit hv]
    · rfl

/-- Two bytes stored, under a condition `y`, at 256 or 257 by the symbol `x`, over a page of zeros. -/
theorem candidate_store_splits_overlapping :
    let page : Page := { base := 0, whole := some (.ofBits (.lit (8 * pageSize) 0) 0) }
    let w : World :=
      { state := { State.blank .amd64 .symbolic {} with
          memory := { Memory.empty "mem" .big {} with
            paged := { pages := Std.TreeMap.empty.insert 0 0 }, writeStrategies := [.eval 3 true] } }
        commons := { pages := #[page] }, solver := .ideal }
    let b : Bits := .bin .concat (.lit 63 128) (.sym "x" 1)
    let c : Cond := .cmp .eq (.sym "y" 1) (.lit 1 1)
    ∃ w₁ res w', concretize .memory (.bits b) true w = .ok [256, 257] w₁ ∧
      storeRaw .memory (.bits b) (.lit 16 0xaabb) (.num 2) (some c) none w = .ok res w' ∧ ∀ μ : Model, (μ "y" = 1 → μ "x" = 0 →
          (List.range 3).map (fun i => (w'.flat .memory).at? μ (256 + i)) = [some 0xaa, some 0xbb, some 0]) ∧
        (μ "y" = 1 → μ "x" = 1 →
          (List.range 3).map (fun i => (w'.flat .memory).at? μ (256 + i)) = [some 0, some 0xaa, some 0xbb]) ∧
        (μ "y" = 0 → (List.range 3).map (fun i => (w'.flat .memory).at? μ (256 + i)) = [some 0, some 0, some 0]) := by
  intro page w b c
  have heval : ∀ μ : Model, b.eval μ = 256 + μ "x" % 2 := fun μ => by
    have hx : μ "x" % 2 < 2 ^ 1 := Nat.mod_lt _ (by decide)
    change 128 <<< 1 ||| μ "x" % 2 = _
    rw [← Nat.shiftLeft_add_eq_or_of_lt hx]
    rfl
  obtain ⟨hsound, hflat⟩ := whole_page (v := 0) (by simp)
  have hbyte : ∀ x, w.flat .memory x = if x / pageSize = 0 then some fun _ => 0 else none := fun x =>
    (hflat x).trans (by simp [Word.byte])
  have hready : (w.scene .memory).Ready w.state.memory :=
    ⟨rfl, rfl, Paged.placed_single rfl, hsound, fun h => absurd h.2 (by decide), Solver.ideal_exact.folds,
      Nat.mul_mod_left 8 8⟩
  have hquiet : w.Quiet := fun i hi => absurd hi (by simp [w, State.blank])
  have hvalues : (Solver.ideal.values [] b 3).mergeSort (· ≤ ·) = [256, 257] :=
    ideal_values_two (by decide) (by decide) ⟨fun _ => 0, fun _ h => absurd h (by simp), heval _⟩
      ⟨fun _ => 1, fun _ h => absurd h (by simp), heval _⟩ fun v hv => by
        obtain ⟨μ, -, hv⟩ := hv
        rw [← hv, heval]
        omega
  have hconc := concretize_eval_run true (r := .memory) (w := w) (m := w.state.memory) rfl rfl rfl (b := b) rfl rfl
    (fun h => absurd hvalues (by
      rw [show Solver.ideal.values [] b 3 = [] from h]
      simp))
  rw [show (w.solver.values w.state.constraints b 3).mergeSort (· ≤ ·) = [256, 257] from hvalues] at hconc
  have hthere : ∀ a ∈ [256, 257], ∀ x, a ≤ x → x < a + 2 → (w.flat .memory x).isSome := fun a ha x h1 h2 => by
    rw [hbyte, if_pos]
    · rfl
    · simp only [List.mem_cons, List.not_mem_nil, or_false] at ha
      rw [pageSize]
      omega
  have hd : (Bits.lit 16 0xaabb).Sized (8 * 2) := Bits.sized_lit (by decide)
  have hfit : ∀ a ∈ [256, 257], a < 2 ^ b.width := fun a ha => by
    have hw : b.width = 64 := rfl
    simp only [List.mem_cons, List.not_mem_nil, or_false] at ha
    rw [hw]
    omega
  obtain ⟨res, w', hrun, hkept, hlaid⟩ := candidate_store_splits hready hquiet (by decide) (b := b)
    ⟨show 128 < 2 ^ 63 by decide, trivial, .inl rfl⟩ hconc (by decide) hfit hd (by decide)
      (show (Quantity.num 2).nat? = some 2 from rfl) hthere
    (some c) none
  have hcond : ∀ μ : Model, c.eval μ = (μ "y" % 2 == 1) := fun μ => rfl
  have hplain : ∀ a ∈ [256, 257], ∀ μ : Model, μ "y" = 1 → b.eval μ = a → ∀ x, (w'.flat .memory).at? μ x =
      ((w.flat .memory).lay .big (.lit 16 0xaabb) a 2).at? μ x := fun a ha μ hy ha' x => by
    obtain ⟨res', w'', hrun', hsame⟩ := hlaid a ha
    obtain ⟨_, w₃, hrun₃, -, -, ch, hch, p, k, hscene, -, hready₃, hview₃⟩ := storeRaw_does (r := .memory) hready
      (show (Quantity.num a).nat? = some a from rfl) (show (Quantity.num 2).nat? = some 2 from rfl)
      hd.valid (by decide) (by decide) none w hquiet rfl
    obtain rfl : w₃ = w'' := (Result.ok.inj (hrun₃.symm.trans hrun')).2
    have hflat₃ := flat_of_has (r := .memory) ⟨p, k, hscene, hready₃, Unshared.flat_of_over hch hview₃⟩
    rw [hsame μ (by rw [Option.getD_some, hcond, hy]; rfl) ha' x, hflat₃]
    rfl
  have hzero : ∀ (μ : Model) x, (w.flat .memory).at? μ x = if x / pageSize = 0 then some 0 else none := fun μ x => by
    rw [Flat.at?, hbyte]
    split <;> rfl
  refine ⟨_, res, w', hconc, hrun, fun μ => ⟨fun hy hx => ?_, fun hy hx => ?_, fun hy => ?_⟩⟩
  · simp [List.range_succ, hplain 256 (by simp) μ hy (by rw [heval, hx]), Flat.at?_lay, hzero, pageSize, Endness.byteAt,
      Bits.eval, Word.byte, Word.trunc]
  · simp [List.range_succ, hplain 257 (by simp) μ hy (by rw [heval, hx]), Flat.at?_lay, hzero, pageSize, Endness.byteAt,
      Bits.eval, Word.byte, Word.trunc]
  · simp [List.range_succ, hkept μ (by rw [Option.getD_some, hcond, hy]; rfl), hzero, pageSize]

lemma eval_either_page (x) : 0 <<< 13 ||| ((x % 2) <<< 12 ||| 0) = 0 ∨ 0 <<< 13 ||| ((x % 2) <<< 12 ||| 0) = 4096 := by
  obtain hx | hx := Nat.mod_two_eq_zero_or_one x <;> rw [hx] <;> decide

/-- The kind of the fault that a run ends with. -/
def faultKind? {σ α : Type} (r : Result Fault σ α) : Option FaultKind :=
  match r with
  | .ok .. => none
  | .error f _ => some f.kind

lemma faultKind?_some {r : Result Fault σ α} {k} (h : faultKind? r = some k) : ∃ f s, r = .error f s ∧ f.kind = k := by
  cases r with
  | ok => cases h
  | error f s => exact ⟨f, s, rfl, Option.some.inj h⟩

lemma faultKind?_none {r : Result Fault σ α} (h : faultKind? r = none) : ∃ a s, r = .ok a s := by
  cases r with
  | ok a s => exact ⟨a, s, rfl⟩
  | error => cases h

/-- Where protections are enforced, a store that may go to a page that must not be written is a fault, also if the address
is in another page, at which the plain store succeeds. -/
theorem candidate_store_faults_guarded :
    let byte (n : Nat) (prot : Nat) : Page :=
      { base := n * pageSize, protection := .lit 3 prot, whole := some (.ofBits (.lit (8 * pageSize) 0) (n * pageSize)) }
    let b : Bits := .bin .concat (.lit 51 0) (.bin .concat (.sym "x" 1) (.lit 12 0))
    let solver : Solver :=
      { model? := fun _ => some fun _ => 0, values := fun _ _ _ => [0, 4096], least := fun _ _ => some 0
        greatest := fun _ _ => some 4096 }
    let w : World :=
      { state := { State.blank .amd64 .symbolic (.ofList [.strictPageAccess]) with
          memory := { Memory.empty "mem" .big {} with
            paged := { pages := (Std.TreeMap.empty.insert 0 0).insert 1 1, checked := true }
            writeStrategies := [.eval 3 true] } }
        commons := { pages := #[byte 0 1, byte 1 7] }, solver }
    (∀ μ, b.eval μ = 0 ∨ b.eval μ = 4096) ∧
    (∃ w₁, concretize .memory (.bits b) true w = .ok [0, 4096] w₁) ∧
    (∃ f w', storeRaw .memory (.bits b) (.lit 8 0x55) (.num 1) none none w = .error f w' ∧ f.kind = .segfault) ∧
    ∃ res w', storeRaw .memory (.num 4096) (.lit 8 0x55) (.num 1) none none w = .ok res w' := by
  intro byte b solver w
  have hsorted : [0, 4096].mergeSort (· ≤ ·) = [0, 4096] := List.mergeSort_of_pairwise (by decide)
  have hconc := concretize_eval_run true (r := .memory) (w := w) (m := w.state.memory) rfl rfl rfl (b := b) rfl rfl (by simp)
  rw [hsorted] at hconc
  have hfault : faultKind? (storeRaw .memory (.bits b) (.lit 8 0x55) (.num 1) none none w) = some .segfault := by
    rw [storeRaw_run_candidates (m := w.state.memory) rfl rfl (by decide) hconc rfl (by decide), hsorted]
    decide +kernel
  have hok : faultKind? (storeRaw .memory (.num 4096) (.lit 8 0x55) (.num 1) none none w) = none := by decide +kernel
  exact ⟨fun μ => eval_either_page (μ "x"), ⟨_, hconc⟩, faultKind?_some hfault, faultKind?_none hok⟩

end World

end SymExec
