import Mathlib.Data.List.Induction
import SymExec.Proofs.Frame
import SymExec.State.Files

/-!
# The program break

A call that raises the break maps the pages from the old one up to the new one, both rounded up (`setBrk_run`). So calls one
after another map each page once (`setBrks_run`).
-/

namespace SymExec

open List Nat

/-- The number of the first page that begins at an address or after it. -/
def pageUp (n : Nat) : Nat := (n + pageSize - 1) / pageSize

lemma pageUp_mono {b n : Nat} (h : b ≤ n) : pageUp b ≤ pageUp n := Nat.div_le_div_right (by omega)

/-- The bytes before two breaks lie in different pages exactly if the breaks are rounded up to different ones. -/
lemma pageUp_ne {b n : Nat} : ((b : Int) - 1).fdiv pageSize ≠ ((n : Int) - 1).fdiv pageSize ↔ pageUp b ≠ pageUp n := by
  simp only [pageUp, pageSize]
  rw [Int.fdiv_eq_ediv_of_nonneg _ (by decide), Int.fdiv_eq_ediv_of_nonneg _ (by decide)]
  omega

namespace Paged

variable {p q : Paged} {c d : Commons} {lo hi m n : Nat}

/-- Whether there is no page of a number, and none comes into being when it is looked for. -/
def Vacant (p : Paged) (n : Nat) : Prop := p.pages[n]? = none ∧ p.fresh? n false = none

/-- What is left when the pages of some numbers were mapped one after another, each once. -/
structure Maps (p : Paged) (c : Commons) (lo hi : Nat) (q : Paged) (d : Commons) : Prop where
  le : lo ≤ hi
  places : ∀ n, q.pages[n]? = if lo ≤ n ∧ n < hi then some (c.pages.size + (n - lo)) else p.pages[n]?
  size : d.pages.size = c.pages.size + (hi - lo)
  vacant : ∀ n, hi ≤ n → p.Vacant n → q.Vacant n

/-- A memory that has looked for the page of a number. -/
def sought (p : Paged) (n : Nat) : Paged := { p with initialized := p.initialized.insert n }

lemma Vacant.sought (h : p.Vacant n) (k : Nat) : (p.sought k).Vacant n := by
  refine ⟨h.1, ?_⟩
  have hf := h.2
  simp only [fresh?] at hf ⊢
  grind [Paged.sought]

lemma refuseMapped_run (h : p.Vacant n) : refuseMapped n (p, c) = .ok () (p.sought n, c) := by
  have hpage : page? n false false (p, c) = .ok none (p.sought n, c) := by
    simp only [page?, bind_get, h.1, h.2]
    rfl
  have hat : at? (n * pageSize) (p, c) = .ok none (p.sought n, c) := by
    rw [at?, Nat.mul_div_cancel n (by decide)]
    exact bind_of_ok hpage
  exact bind_of_ok (bind_of_ok hat : has (n * pageSize) (p, c) = .ok false (p.sought n, c))

namespace Maps

lemma refuse (h : Maps p c lo hi q d) (ns : List Nat) (hv : ∀ n ∈ ns, q.Vacant n) :
    ∃ q', ns.forM refuseMapped (q, d) = .ok () (q', d) ∧ Maps p c lo hi q' d := by
  induction ns generalizing q with
  | nil => exact ⟨q, rfl, h⟩
  | cons n ns ih =>
    have hn : Maps p c lo hi (q.sought n) d := { h with vacant := fun k hk hp => (h.vacant k hk hp).sought n }
    obtain ⟨q', hrun, hq⟩ := ih hn fun k hk => (hv k (by simp [hk])).sought n
    exact ⟨q', (bind_of_ok (refuseMapped_run (hv n (by simp)))).trans hrun, hq⟩

lemma put (h : Maps p c lo hi q d) (m : Nat) : ∃ q' d',
    ((range' hi m).forM fun n => do discard <| putPage n (mappedPage (← get).1.backing (.lit 3 7) false n) : PagedM Unit)
      (q, d) = .ok () (q', d') ∧ Maps p c lo (hi + m) q' d' := by
  induction m generalizing hi q d with
  | zero => exact ⟨q, d, rfl, h⟩
  | succ m ih =>
    obtain ⟨hle, hplaces, hsize, hvacant⟩ := h
    have hnext : Maps p c lo (hi + 1) { q with pages := q.pages.insert hi d.pages.size }
        { d with pages := d.pages.push (mappedPage q.backing (.lit 3 7) false hi) } := by
      refine ⟨by omega, fun n => ?_, by grind, fun n hn hp => ⟨?_, (hvacant n (by omega) hp).2⟩⟩
      · rw [Std.TreeMap.getElem?_insert, hplaces]
        grind
      · rw [Std.TreeMap.getElem?_insert, (hvacant n (by omega) hp).1]
        grind
    exact Nat.add_right_comm hi 1 m ▸ ih hnext

lemma map (h : Maps p c lo hi q d) (guarded : Bool) (hv : ∀ n, hi ≤ n → n < hi + m → q.Vacant n) : ∃ q' d',
    Paged.map guarded (hi * pageSize) (m * pageSize) (.lit 3 7) false (q, d) = .ok () (q', d') ∧ Maps p c lo (hi + m) q' d' := by
  have hm : (m * pageSize + pageSize - 1) / pageSize = m := by
    simp only [pageSize]
    omega
  rw [Paged.map, Nat.mul_div_cancel hi (by decide), hm]
  cases guarded with
  | false => exact h.put m
  | true =>
    obtain ⟨q', hrun, hq⟩ := h.refuse (range' hi m) fun n hn => hv n (by grind) (by grind)
    obtain ⟨r, e, hput, hr⟩ := hq.put m
    exact ⟨r, e, (bind_of_ok hrun).trans hput, hr⟩

end Maps

end Paged

namespace World

open Exec Paged

variable {w : World} {M : Memory} {c d : Commons} {p : Posix} {q : Paged} {j b lo : Nat}

/-- A world with another memory, table of pages and system. -/
def holding (w : World) (M : Memory) (c : Commons) (p : Posix) : World :=
  { w with commons := c, state := { w.state with memory := M, posix := some p } }

variable (ht : w.state.settings.has .trackMemoryMapping = true)

include ht

lemma mapRegion_run {mid hi : Nat} (h : Maps q d lo mid M.paged c) (hle : mid ≤ hi)
    (hv : ∀ n, mid ≤ n → n < hi → M.paged.Vacant n) : ∃ M' c',
      mapRegion (.num (mid * pageSize)) (hi * pageSize - mid * pageSize) (.lit 3 7) false (w.holding M c p) =
        .ok () (w.holding M' c' p) ∧ Maps q d lo hi M'.paged c' := by
  obtain ⟨m, rfl⟩ := Nat.exists_eq_add_of_le hle
  obtain ⟨q', c', hrun, h'⟩ := h.map (w.state.mode ≠ .fastpath) hv
  refine ⟨{ M with paged := q' }, c', ?_, h'⟩
  rw [Nat.add_mul, Nat.add_sub_cancel_left, mapRegion,
    bind_of_ok (x := Exec.has _) (s := w.holding M c p) (a := w.state.settings.has .trackMemoryMapping) rfl, ht]
  change onPages .memory (map (w.state.mode ≠ .fastpath) (mid * pageSize) (m * pageSize) (.lit 3 7) false) _ = _
  rw [onPages, bind_of_ok (x := memoryAt .memory) (s := w.holding M c p) (a := M) rfl, bind_get,
    show (w.holding M c p).commons = c from rfl, hrun]
  rfl

lemma setBrk_run (h : Maps q d lo (pageUp b) M.paged c) (hp : p.brk.toBits w.state.arch.bits = .lit j b) (n : Nat)
    (hv : ∀ k, lo ≤ k → k < pageUp (max b n) → q.Vacant k) : ∃ M' c',
      setBrk (.lit j n) (w.holding M c p) =
        .ok (.lit j (max b n)) (w.holding M' c' { p with brk := .bits (.lit j (max b n)) }) ∧
      Maps q d lo (pageUp (max b n)) M'.paged c' := by
  have hset q : modifyPosix ({ · with brk := q }) (w.holding M c p) = .ok () (w.holding M c { p with brk := q }) := rfl
  rw [setBrk, bind_of_ok (x := wordBits) (s := w.holding M c p) (a := w.state.arch.bits) rfl,
    bind_of_ok (x := posix) (a := p) rfl]
  simp only [hp]
  rw [bind_of_ok (hset _)]
  change ∃ M' c', (if b ≤ n then _ else _ : Exec Bits) _ = _ ∧ _
  obtain hlt | hle := Nat.lt_or_ge n b
  · rw [if_neg hlt.not_ge, Nat.max_eq_left hlt.le]
    exact ⟨M, c, rfl, h⟩
  rw [Nat.max_eq_right hle] at hv ⊢
  rw [if_pos hle]
  change ∃ M' c', (if ((b : Int) - 1).fdiv pageSize ≠ ((n : Int) - 1).fdiv pageSize then _ else _ : Exec Bits) _ = _ ∧ _
  by_cases heq : pageUp b = pageUp n
  · rw [if_neg fun e => pageUp_ne.1 e heq]
    exact ⟨M, c, rfl, heq ▸ h⟩
  · obtain ⟨M', c', hrun, h'⟩ := mapRegion_run (p := { p with brk := .bits (.lit j n) }) ht h (pageUp_mono hle) fun k hk hk' =>
      h.vacant k hk (hv k (h.le.trans hk) hk')
    rw [if_pos (pageUp_ne.2 heq)]
    exact ⟨M', c', bind_of_ok hrun, h'⟩

/-- **Each page once.** Calls with words of one width leave the break at the greatest of the old one and the words, and map the
pages from the old break up to it, where none of them is there before and mappings are tracked. -/
theorem setBrks_run (args : List Nat) (hp : p.brk.toBits w.state.arch.bits = .lit j b)
    (hv : ∀ k, pageUp b ≤ k → k < pageUp (args.foldl max b) → M.paged.Vacant k) : ∃ M' c' p',
      args.foldlM (fun _ a => setBrk (.lit j a)) (.lit j b) (w.holding M c p) =
        .ok (.lit j (args.foldl max b)) (w.holding M' c' p') ∧
      p'.brk.toBits w.state.arch.bits = .lit j (args.foldl max b) ∧
      Maps M.paged c (pageUp b) (pageUp (args.foldl max b)) M'.paged c' := by
  induction args using List.reverseRecOn with
  | nil => exact ⟨M, c, p, rfl, hp, le_rfl, by grind, by simp, fun _ _ h => h⟩
  | append_singleton args a ih =>
    rw [foldl_append] at hv ⊢
    obtain ⟨M₁, c₁, p₁, hrun, hp₁, h⟩ := ih fun k hk hk' => hv k hk (hk'.trans_le (pageUp_mono (Nat.le_max_left ..)))
    obtain ⟨M', c', hstep, h'⟩ := setBrk_run ht h hp₁ a hv
    rw [foldlM_append, bind_of_ok hrun]
    exact ⟨M', c', _, bind_of_ok hstep, rfl, h'⟩

omit ht in
/-- Three calls from a break within a page: to the same page, back, and two pages on. -/
theorem setBrks_run_two_pages : let w : World := { state := .blank .amd64 .symbolic (.ofList [.trackMemoryMapping]) }
    let M := w.state.memory
    ∃ M' c' p', [0x1800, 0x1000, 0x3001].foldlM (fun _ a => setBrk (.lit 64 a)) (.lit 64 0x1001)
      (w.holding M {} { brk := .num 0x1001 }) = .ok (.lit 64 0x3001) (w.holding M' c' p') ∧ Maps M.paged {} 2 4 M'.paged c' := by
  intro w M
  obtain ⟨M', c', p', hrun, -, h⟩ := setBrks_run (w := w) (M := M) (c := {}) (p := { brk := .num 0x1001 }) (j := 64) (b := 0x1001)
    (by decide) [0x1800, 0x1000, 0x3001] rfl fun k _ _ => ⟨by simp [w, M, State.blank, Memory.empty],
      by simp [w, M, fresh?, Paged.load, State.blank, Memory.empty]⟩
  exact ⟨M', c', p', hrun, h⟩

omit ht in
/-- Where mappings are not tracked, the break is raised and no page mapped. -/
theorem setBrk_untracked : let w : World := { state := .blank .amd64 .symbolic {} }
    ∃ w', setBrk (.lit 64 0x3000) (w.holding w.state.memory {} { brk := .num 0x1001 }) = .ok (.lit 64 0x3000) w' ∧
      w'.state.memory.paged.pages[2]? = none := ⟨_, rfl, rfl⟩

end World

end SymExec
