import SymExec.Memory.Paged
import SymExec.Proofs.Terms

/-!
# Pages and the bytes they show

What a chunk shows at an address is one byte of its content.
-/

namespace SymExec

open List Nat Std.TreeMap Chunk

/-! ### Bytes -/

/-- A valid vector of `n` bytes which are, first byte most significant, the bytes `f` from an address on. -/
structure Bits.Spells (t : Bits) (f : Model → Nat → Nat) (a n : Nat) : Prop where
  valid : t.Valid
  width : t.width = 8 * n
  byte : ∀ m i, i < n → Word.byte (t.eval m) (n - 1 - i) = f m (a + i)

namespace Bits

variable {t : Bits} {f : Model → Nat → Nat} {a n : Nat} {ts : List Bits}

lemma Spells.congr {g} (h : t.Spells f a n) (e : ∀ m x, a ≤ x → x < a + n → f m x = g m x) : t.Spells g a n := by
  refine ⟨h.valid, h.width, fun m i hi => ?_⟩
  rw [h.byte m i hi, e m (a + i) (by omega) (by omega)]

lemma Spells.of_agrees {u} (h : u.Spells f a n) (e : t.Agrees u) : t.Spells f a n := by
  refine ⟨e.valid, e.width.trans h.width, fun m i hi => ?_⟩
  rw [e.eval, h.byte m i hi]

lemma Spells.concat {u k} (ht : t.Spells f a n) (hu : u.Spells f (a + n) k) : (t.concat u).Spells f a (n + k) := by
  suffices h : (bin .concat t u).Spells f a (n + k) from h.of_agrees (concat_agrees ht.valid hu.valid)
  refine ⟨⟨ht.valid, hu.valid, .inl rfl⟩, ?_, fun m i hi => ?_⟩
  · change t.width + u.width = _
    rw [ht.width, hu.width]
    omega
  · change Word.byte (t.eval m <<< u.width ||| u.eval m) _ = _
    have hlt := eval_lt hu.valid m
    rw [hu.width] at hlt ⊢
    rw [Word.byte_concat hlt]
    by_cases h : i < n
    · rw [if_neg (by omega), ← ht.byte m i h]
      congr 1
      omega
    · rw [if_pos (by omega), show a + i = a + n + (i - n) by omega, ← hu.byte m (i - n) (by omega)]
      congr 1
      omega

/-- Parts that spell adjacent ranges, from one address to another. -/
inductive Tiles (f : Model → Nat → Nat) (e : Nat) : Nat → List Bits → Prop
  | nil : Tiles f e e []
  | cons {a n : Nat} {t : Bits} {ts : List Bits} : t.Spells f a n → Tiles f e (a + n) ts → Tiles f e a (t :: ts)

lemma foldl_concat_spells {s e} (hs : s ≤ a) (ht : t.Spells f s (a - s)) (h : Tiles f e a ts) :
    (ts.foldl concat t).Spells f s (e - s) := by
  induction h generalizing t with
  | nil => exact ht
  | @cons a n u us hu _ ih =>
    refine ih (by omega) ?_
    have hu' : u.Spells f (s + (a - s)) n := by rwa [Nat.add_sub_cancel' hs]
    have hc := ht.concat hu'
    rwa [show a - s + n = a + n - s by omega] at hc

/-- **Adjacent parts** side by side spell the whole range. -/
theorem concatList_spells {e} (h : Tiles f e a ts) : (concatList ts).Spells f a (e - a) := by
  cases h with
  | nil =>
    rw [Nat.sub_self]
    exact ⟨Nat.two_pow_pos 0, rfl, fun m i hi => absurd hi (not_lt_zero i)⟩
  | @cons _ n t ts ht hts =>
    have ht' : t.Spells f a (a + n - a) := by rwa [Nat.add_sub_cancel_left]
    exact foldl_concat_spells (le_add_right a n) ht' hts

end Bits

/-! ### Chunks -/

namespace Chunk

def byte (c : Chunk) (m : Model) (a : Nat) : Nat := Word.byte (c.content.eval m) (c.stop - 1 - a)

structure Sound (c : Chunk) : Prop where
  valid : c.content.Valid
  width : c.content.width = 8 * c.length

lemma covers_iff {c : Chunk} {a} : c.covers a = true ↔ c.base ≤ a ∧ a < c.stop := by simp [covers]

lemma ofBits_sound {t} (h : t.Valid) (hw : t.width % 8 = 0) (a) : (ofBits t a).Sound := by
  refine ⟨h, ?_⟩
  change t.width = 8 * (t.width / 8)
  omega

/-- **A part of a chunk** spells the bytes that the chunk has there. -/
theorem bytesAt_spells {c : Chunk} (hc : c.Sound) {a n} (hn : 0 < n) (ha : c.base ≤ a) (he : a + n ≤ c.stop) :
    (c.bytesAt a n).Spells c.byte a n := by
  have hstop : c.stop = c.base + c.length := rfl
  by_cases h : a = c.base ∧ n = c.length
  · rw [bytesAt, if_pos h]
    refine ⟨hc.valid, by rw [hc.width, h.2], fun m i hi => ?_⟩
    congr 1
    omega
  · rw [bytesAt, if_neg h]
    have hr := Bits.slice_agrees (8 * (c.length - (a - c.base)) - 1) (8 * (c.length - (a - c.base)) - 8 * n) hc.valid
      (by omega) (by rw [hc.width]; omega)
    refine ⟨hr.valid, hr.width.trans ?_, fun m i hi => ?_⟩
    · change 8 * (c.length - (a - c.base)) - 1 + 1 - (8 * (c.length - (a - c.base)) - 8 * n) = 8 * n
      omega
    · rw [hr.eval]
      refine (Word.byte_slice _ (c.length - (a - c.base) - n) (by omega) (by omega)).trans ?_
      congr 1
      omega

end Chunk

/-! ### Runs -/

abbrev View := Nat → Option Chunk

/-- Chunks with their first addresses that cut a range into runs, each of which shows one chunk of a view. -/
inductive Runs (V : View) (e : Nat) : Nat → List (Nat × Chunk) → Prop
  | nil : Runs V e e []
  | cons {s t : Nat} {c : Chunk} {l : List (Nat × Chunk)} :
    s < t → (∀ x, s ≤ x → x < t → V x = some c) → Runs V e t l → Runs V e s ((s, c) :: l)

namespace Runs

variable {V W : View} {s t e : Nat} {c : Chunk} {l l' : List (Nat × Chunk)}

lemma append (h : Runs V t s l) (h' : Runs V e t l') : Runs V e s (l ++ l') := by
  induction h with
  | nil => exact h'
  | cons hlt hc _ ih => exact .cons hlt hc ih

lemma single (hlt : s < e) (hc : ∀ x, s ≤ x → x < e → V x = some c) : Runs V e s [(s, c)] := .cons hlt hc .nil

lemma of_concat {p} (h : Runs V e s (l ++ [p])) : Runs V p.1 s l ∧ p.1 < e ∧ ∀ x, p.1 ≤ x → x < e → V x = some p.2 := by
  induction l generalizing s with
  | nil =>
    cases h with
    | cons hlt hc hr =>
      cases hr
      exact ⟨.nil, hlt, hc⟩
  | cons q l ih =>
    cases h with
    | cons hlt hc hr =>
      obtain ⟨hl, hlast⟩ := ih hr
      exact ⟨.cons hlt hc hl, hlast⟩

end Runs

/-- Chunks from the end of a range back to its start: each shows at its address and, wherever anything shows, up to the one
before it in the list. -/
def View.Back (V : View) (start : Nat) : Nat → List (Nat × Chunk) → Prop
  | stop, [] => ∀ x, start ≤ x → x < stop → V x = none
  | stop, (a, c) :: rest =>
    start ≤ a ∧ a < stop ∧ V a = some c ∧ (∀ x, a ≤ x → x < stop → V x = none ∨ V x = some c) ∧ Back V start a rest

namespace View

variable {V W : View} {start mid stop : Nat} {items rest : List (Nat × Chunk)}

lemma Back.gap (h : V.Back start mid items) (hle : mid ≤ stop) (hV : ∀ x, mid ≤ x → x < stop → V x = none) : V.Back start stop items := by
  cases items with
  | nil =>
    intro x hx hx'
    by_cases hm : x < mid
    · exact h x hx hm
    · exact hV x (not_lt.1 hm) hx'
  | cons p rest =>
    obtain ⟨h1, h2, h3, h4, h5⟩ := h
    refine ⟨h1, h2.trans_le hle, h3, fun x hx hx' => ?_, h5⟩
    by_cases hm : x < mid
    · exact h4 x hx hm
    · exact .inl (hV x (not_lt.1 hm) hx')

lemma Back.append (h : V.Back mid stop items) (h' : V.Back start mid rest) (hs : start ≤ mid) (hle : mid ≤ stop) :
    V.Back start stop (items ++ rest) := by
  induction items generalizing stop with
  | nil => exact h'.gap hle h
  | cons p items ih =>
    obtain ⟨h1, h2, h3, h4, h5⟩ := h
    exact ⟨hs.trans h1, h2, h3, h4, ih h5 h1⟩

lemma Back.congr (h : V.Back start stop items) (hV : ∀ x, start ≤ x → x < stop → V x = W x) : W.Back start stop items := by
  induction items generalizing stop with
  | nil => exact fun x hx hx' => (hV x hx hx').symm.trans (h x hx hx')
  | cons p items ih =>
    obtain ⟨h1, h2, h3, h4, h5⟩ := h
    refine ⟨h1, h2, (hV _ h1 h2).symm.trans h3, fun x hx hx' => ?_, ih h5 fun x hx hx' => hV x hx (lt_trans hx' h2)⟩
    rw [← hV x (h1.trans hx) hx']
    exact h4 x hx hx'

/-- The step of a slice: a chunk that goes on takes in the next address, any other begins a run there. -/
lemma Back.step : V.Back start stop items → start ≤ stop → V.Back start (stop + 1) (match V stop, items with
    | some c, [] => [(stop, c)]
    | some c, (b, d) :: rest => if c = d then items else (stop, c) :: (b, d) :: rest
    | none, _ => items) := by
  intro h hs
  have here : ∀ x, stop ≤ x → x < stop + 1 → x = stop := fun x hx hx' => by omega
  cases hc : V stop with
  | none => exact h.gap (le_succ stop) fun x hx hx' => here x hx hx' ▸ hc
  | some c =>
    have next : V.Back start (stop + 1) ((stop, c) :: items) := ⟨hs, lt_succ_self stop, hc, fun x hx hx' => .inr (here x hx hx' ▸ hc), h⟩
    match items with
    | [] => exact next
    | (b, d) :: rest =>
      simp only
      split
      · rename_i hcd
        obtain ⟨h1, h2, h3, h4, h5⟩ := h
        refine ⟨h1, lt_succ_of_lt h2, h3, fun x hx hx' => ?_, h5⟩
        by_cases hm : x < stop
        · exact h4 x hx hm
        · rw [here x (not_lt.1 hm) hx', hc, hcd]
          exact .inr rfl
      · exact next

/-- Where something shows at every address, the chunks cut the range into runs. -/
lemma Back.runs (h : V.Back start stop items) (hle : start ≤ stop) (hV : ∀ x, start ≤ x → x < stop → (V x).isSome) :
    Runs V stop start items.reverse := by
  induction items generalizing stop with
  | nil =>
    obtain rfl | hlt := eq_or_lt_of_le hle
    · exact .nil
    · exact absurd (hV start le_rfl hlt) (by simp [h start le_rfl hlt])
  | cons p items ih =>
    obtain ⟨h1, h2, h3, h4, h5⟩ := h
    rw [reverse_cons]
    refine (ih h5 h1 fun x hx hx' => hV x hx (lt_trans hx' h2)).append (.single h2 fun x hx hx' => ?_)
    refine (h4 x hx hx').resolve_left fun hn => ?_
    exact absurd (hV x (h1.trans hx) hx') (by simp [hn])

end View

/-! ### What a page shows -/

namespace Page

/-- A page in its place: the cells lie in the page, each under a chunk that does not cover the whole page, and the chunk
under all others does. -/
structure Sound (p : Page) (n : Nat) : Prop where
  base : p.base = n * pageSize
  cell : ∀ a c, p.cells[a]? = some c → a / pageSize = n ∧ c.covers a = true ∧ ¬(c.base ≤ p.base ∧ p.stop ≤ c.stop)
  whole : ∀ c, p.whole = some c → c.base ≤ p.base ∧ p.stop ≤ c.stop

variable {n a : Nat} {p : Page} {c : Chunk}

lemma mem_page_iff : a / pageSize = n ↔ n * pageSize ≤ a ∧ a < n * pageSize + pageSize := by
  simp only [pageSize]
  omega

lemma Sound.covers (h : p.Sound n) (ha : a / pageSize = n) (hc : p.at? a = some c) : c.covers a = true := by
  rw [at?, Option.orElse_eq_some] at hc
  obtain hc | ⟨-, hc⟩ := hc
  · exact (h.cell a c hc).2.1
  · obtain ⟨h1, h2⟩ := h.whole c hc
    have hb := h.base
    have hm := mem_page_iff.1 ha
    rw [stop] at h2
    exact covers_iff.2 ⟨by omega, by omega⟩

lemma getElem?_foldl_insert (c : Chunk) (as : List Nat) (m : Std.TreeMap Nat Chunk) (a) :
    (as.foldl (fun m a => m.insert a c) m)[a]? = if a ∈ as then some c else m[a]? := by
  induction as generalizing m with
  | nil => rfl
  | cons b as ih =>
    rw [foldl_cons, ih, Std.TreeMap.getElem?_insert]
    by_cases h : a ∈ as
    · simp [h]
    · by_cases hb : b = a <;> simp [h, hb, Ne.symm]

lemma getElem?_foldl_insertIfNew (c) (as : List Nat) (m : Std.TreeMap Nat Chunk) (a) :
    (as.foldl (fun m a => m.insertIfNew a c) m)[a]? = m[a]?.or (if a ∈ as then some c else none) := by
  induction as generalizing m with
  | nil => simp
  | cons b as ih =>
    rw [foldl_cons, ih, getElem?_insertIfNew]
    by_cases hb : b = a
    · subst hb
      cases hm : m[b]? <;> simp [hm, mem_iff_isSome_getElem?]
    · simp [hb, Ne.symm hb]

lemma clip_eq_iff : ((p.clip c).1 = p.base ∧ (p.clip c).2 = p.stop) ↔ c.base ≤ p.base ∧ p.stop ≤ c.stop := by
  simp only [clip]
  omega

lemma mem_clip_iff (h : p.base = n * pageSize) :
    a ∈ range' (p.clip c).1 ((p.clip c).2 - (p.clip c).1) ↔ a / pageSize = n ∧ c.covers a = true := by
  rw [mem_range'_1, mem_page_iff, covers_iff, clip, stop, ← h]
  omega

lemma overwrite_base (p : Page) (c) : (p.overwrite c).base = p.base := by
  simp only [overwrite]
  split <;> rfl

lemma underwrite_base (p : Page) (c) : (p.underwrite c).base = p.base := by
  simp only [underwrite]
  split <;> rfl

lemma replace_base (p : Page) (old new) : (p.replace old new).base = p.base := by
  simp only [replace]
  split <;> rfl

lemma overwrite_sound (h : p.Sound n) (c : Chunk) : (p.overwrite c).Sound n := by
  simp only [overwrite]
  split <;> rename_i hfull
  · refine ⟨h.base, fun a d hd => ?_, fun d hd => ?_⟩ <;> cases hd
    exact clip_eq_iff.1 hfull
  · refine ⟨h.base, fun a d hd => ?_, h.whole⟩
    rw [getElem?_foldl_insert] at hd
    split at hd
    · rename_i ha
      obtain ⟨hn, hcov⟩ := (mem_clip_iff h.base).1 ha
      cases hd
      exact ⟨hn, hcov, fun hc => hfull (clip_eq_iff.2 hc)⟩
    · exact h.cell a d hd

/-- **A chunk laid over a page** shows at the addresses it covers; the others show what they did. -/
theorem at?_overwrite (h : p.Sound n) (ha : a / pageSize = n) (c : Chunk) :
    (p.overwrite c).at? a = if c.covers a then some c else p.at? a := by
  simp only [overwrite]
  split
  · rename_i hfull
    obtain ⟨h1, h2⟩ := clip_eq_iff.1 hfull
    have hm := mem_page_iff.1 ha
    have hb := h.base
    rw [stop] at h2
    rw [if_pos (covers_iff.2 ⟨by omega, by omega⟩)]
    simp [at?]
  · rw [at?, getElem?_foldl_insert]
    by_cases hc : c.covers a
    · rw [if_pos ((mem_clip_iff h.base).2 ⟨ha, hc⟩), if_pos hc]
      rfl
    · rw [if_neg (fun hm => hc ((mem_clip_iff h.base).1 hm).2), if_neg hc]
      rfl

lemma replace_sound (h : p.Sound n) {old new} (hb : new.base = old.base) (hl : new.length = old.length) :
    (p.replace old new).Sound n := by
  have hs : new.stop = old.stop := by rw [Chunk.stop, Chunk.stop, hb, hl]
  simp only [replace]
  split
  · rename_i hw
    refine ⟨h.base, h.cell, fun d hd => ?_⟩
    cases hd
    rw [hb, hs]
    exact h.whole old hw
  · refine ⟨h.base, fun a d hd => ?_, h.whole⟩
    rw [Std.TreeMap.getElem?_map, Option.map_eq_some_iff] at hd
    obtain ⟨e, he, rfl⟩ := hd
    split
    · rename_i heq
      rw [covers, hb, hs, ← heq]
      exact h.cell a e he
    · exact h.cell a e he

/-- **A replaced chunk** shows its replacement wherever it showed. -/
theorem at?_replace (h : p.Sound n) (old new a) :
    (p.replace old new).at? a = (p.at? a).map fun c => if c = old then new else c := by
  simp only [replace]
  split
  · rename_i hw
    -- the old chunk covers the page, so that it is in no cell
    have hc : ∀ c, p.cells[a]? = some c → c ≠ old := fun c hc heq => (h.cell a c hc).2.2 (heq ▸ h.whole old hw)
    rw [at?, at?, hw]
    cases hcell : p.cells[a]? with
    | none => simp
    | some c => simp [hc c hcell]
  · rename_i hw
    rw [at?, at?, Std.TreeMap.getElem?_map]
    cases hcell : p.cells[a]? with
    | some c => simp
    | none =>
      cases hwhole : p.whole with
      | none => rfl
      | some c =>
        have hne : c ≠ old := fun heq => hw (heq ▸ hwhole)
        simp [hne]

/-- **The chunks over a range** of a page, whether or not its bytes have one. -/
theorem slice_back (start stop) (hle : max start p.base ≤ min stop p.stop) :
    View.Back p.at? (max start p.base) (min stop p.stop) (p.slice start stop).reverse := by
  -- by induction on how far the range was walked
  suffices H : ∀ k, View.Back p.at? (max start p.base) (max start p.base + k)
      ((List.range' (max start p.base) k).foldl p.meet []) by
    have hH := H (min stop p.stop - max start p.base)
    rw [Nat.add_sub_cancel' hle] at hH
    rw [Page.slice, List.reverse_reverse]
    exact hH
  intro k
  induction k with
  | zero => exact fun x hx hx' => absurd hx' (Nat.not_lt.2 hx)
  | succ k ih =>
    rw [List.range'_1_concat, List.foldl_append, List.foldl_cons, List.foldl_nil, meet.eq_def]
    have hs := ih.step (Nat.le_add_right _ k)
    revert hs
    generalize List.foldl _ [] _ = items
    cases p.at? (max start p.base + k) <;> cases items <;> exact id

end Page

end SymExec
