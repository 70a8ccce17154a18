import SymExec.Proofs.Changed
import SymExec.Proofs.Flat
import SymExec.Proofs.Orderly

/-!
# Memories over nothing

Copies of a memory that was loaded with nothing differ at the addresses that are found, whichever of the two is asked.
-/

namespace SymExec

open List

namespace Unshared

open Paged (leaves)

variable {o u v : Unshared}

lemma SameOrigin.kin (hu : SameOrigin o u) (hv : SameOrigin o v) (ho : o.backing.segments = []) : Kin u v where
  peek n h h' := by rw [hu.peek ho h, hv.peek ho h']
  left x h hx := absurd hx (by simp [hu.view ho h])
  right x h hx := absurd hx (by simp [hv.view ho h])

/-- **Every access** keeps the pages sound and the origin. -/
theorem runUnshared_offspring (ho : o.backing.segments = []) {x : Paged.Access} : Steady (Offspring o) x.runUnshared u := by
  cases x with
  | store strict tracking anew c => exact store_offspring strict tracking anew
  | map guarded addr length prot zero =>
    have put : ∀ ns v, Steady (Offspring o)
        (forM ns fun n => modify fun u => u.setPage n (Paged.mappedPage u.backing prot zero n)) v :=
      fun ns v => .forM ns fun n _ w h => h.setPage (Paged.mappedPage_sound ..)
    refine .ite (fun _ => .seq (.forM _ fun n _ w => ?_) (put _ _)) fun _ => put _ u
    refine .bind (Steady.bind (fun h => ?_) fun _ _ _ => .pure _) fun _ _ _ => .ite (fun _ => .throw _) fun _ => .pure _
    obtain ⟨v, hv, hr⟩ := at?_view w (n * pageSize)
    rw [leaves, hv]
    exact h.reads hr
  | unmap guarded addr length =>
    refine .read rfl (.ite (fun _ h => ?_) fun _ => .when fun _ => .throw _)
    let ns := range' (addr / pageSize) ((length + pageSize - 1) / pageSize)
    have hv : SameOrigin o { u with pages := fun k => if k ∈ ns then none else u.pages k } := ⟨h.origin.backing, h.origin.stack⟩
    refine ⟨hv, fun k pg hpg => ?_⟩
    by_cases hk : k ∈ ns
    · exact hv.unheld_sound ho (if_pos hk) hpg
    · change ((if k ∈ ns then none else u.pages k) <|> u.fresh? k false) = some pg at hpg
      rw [if_neg hk] at hpg
      exact h.tidy k pg hpg

end Unshared

namespace Paged

variable {p : Paged} {c : Commons}

/-- The byte at an address, if there is one. -/
def byte? (a : Nat) : PagedM (Option Bits) := return (← at? a).map (·.bytesAt a 1)

lemma answer_byte? (hp : p.Placed c) (a) : answer (byte? a) (p, c) = .ok (((p.unshared c).view a).map (·.bytesAt a 1)) := by
  obtain ⟨p', c', hx, -⟩ := at?_spec hp a
  rw [answer, byte?, bind_of_ok hx]
  rfl

lemma differs_iff {a x y} : differs a x y = true ↔ x.map (·.bytesAt a 1) ≠ y.map (·.bytesAt a 1) := by
  cases x <;> cases y <;> simp [differs]
  exact mt fun e => e ▸ rfl

lemma mem_keys_iff {x : Nat} : x ∈ p.keys c ↔ ∃ n i, p.pages[n]? = some i ∧ ∃ a ∈ (c.page i).keys, a + n * pageSize = x := by
  simp [keys, Std.TreeMap.foldl_eq_foldl_toList, Std.TreeMap.mem_toList_iff_getElem?_eq_some]

lemma answer_has {o : Unshared} (hp : p.Placed c) (ho : o.Offspring (p.unshared c)) (hb : o.backing.segments = []) (a) :
    answer (has a) (p, c) = .ok true ↔ ∃ i, p.pages[a / pageSize]? = some i ∧ a ∈ (c.page i).keys := by
  obtain ⟨p', c', hx, -⟩ := at?_spec hp a
  rw [answer, has, bind_of_ok hx]
  change Except.ok ((p.unshared c).view a).isSome = .ok true ↔ _
  cases hi : p.pages[a / pageSize]? with
  | none => simp [ho.origin.view hb (show (p.unshared c).pages (a / pageSize) = none by simp [unshared, hi])]
  | some i => simp [view_of_held hi, (ho.tidy _ _ (peek_of_held hi)).mem_keys_iff]

lemma listed_iff (ht : (p.unshared c).Tidy) (a) :
    p.listed c a = true ↔ a < pageSize ∧ ∃ i, p.pages[a / pageSize]? = some i ∧ a ∈ (c.page i).keys := by
  rw [listed]
  cases hi : p.pages[a / pageSize]? with
  | none => simp
  | some i =>
    have hs := ht _ _ (peek_of_held hi)
    have hlow : a - a / pageSize * pageSize = a % pageSize := (Nat.mod_eq_sub_div_mul).symm
    simp only [contains_iff_mem, hs.base, hlow, Option.some.injEq, exists_eq_left']
    constructor
    · intro hk
      have hpage := (hs.mem_keys_iff.1 hk).1
      rw [Nat.div_eq_of_lt (Nat.mod_lt a (by decide)), eq_comm, Nat.div_eq_zero_iff_lt (by decide)] at hpage
      exact ⟨hpage, Nat.mod_eq_of_lt hpage ▸ hk⟩
    · rintro ⟨h, hk⟩
      rwa [Nat.mod_eq_of_lt h]

end Paged

namespace Family

open Paged

variable {m p q : Paged} {c : Commons} {es : List Event}

lemma member_offspring (hm : m.Placed c) (ht : (m.unshared c).Tidy) (hb : m.backing.segments = [])
    (hp : p ∈ (run ⟨[m], c⟩ es).members) :
    p.Placed (run ⟨[m], c⟩ es).commons ∧ (m.unshared c).Offspring (p.unshared (run ⟨[m], c⟩ es).commons) := by
  obtain ⟨k, hk⟩ := mem_iff_getElem?.1 hp
  refine ⟨(run_spec (sound_singleton hm) es).1.placed k p hk, ?_⟩
  have hmem : p.unshared (run ⟨[m], c⟩ es).commons ∈ (run ⟨[m], c⟩ es).contents := mem_map.2 ⟨p, hp, rfl⟩
  rw [contents_run hm, mem_map] at hmem
  obtain ⟨xs, -, e⟩ := hmem
  rw [← e, play]
  exact foldlRecOn xs _ ⟨⟨rfl, rfl⟩, ht⟩ fun u hu x _ => Unshared.runUnshared_offspring hb hu

/-- **The bytes at which copies differ** are found exactly. -/
theorem changed_exact (hm : m.Placed c) (ht : (m.unshared c).Tidy) (hb : m.backing.segments = [])
    (hp : p ∈ (run ⟨[m], c⟩ es).members) (hq : q ∈ (run ⟨[m], c⟩ es).members) :
    let k := (run ⟨[m], c⟩ es).commons
    ∃ as bs s t, changed q (p, k) = .ok as s ∧ changed p (q, k) = .ok bs t ∧
      (∀ a, a ∈ as ↔ answer (byte? a) (p, k) ≠ answer (byte? a) (q, k)) ∧ ∀ a, a ∈ bs ↔ a ∈ as := by
  intro k
  obtain ⟨hpp, hpo⟩ := member_offspring hm ht hb hp
  obtain ⟨hqp, hqo⟩ := member_offspring hm ht hb hq
  have found : ∀ {p q : Paged} (hp : p.Placed k) (hq : q.Placed k), (m.unshared c).Offspring (p.unshared k) →
      (m.unshared c).Offspring (q.unshared k) →
      ∃ as s, changed q (p, k) = .ok as s ∧ ∀ a, a ∈ as ↔ answer (byte? a) (p, k) ≠ answer (byte? a) (q, k) := by
    intro p q hp hq hpo hqo
    obtain ⟨as, p', k', hrun, -, -, -, -, has⟩ := changed_spec hp hq hpo.tidy hqo.tidy (hpo.origin.kin hqo.origin hb)
    refine ⟨as, _, hrun, fun a => ?_⟩
    rw [has, differs_iff, answer_byte? hp, answer_byte? hq]
    simp
  obtain ⟨as, s, hrun, has⟩ := found hpp hqp hpo hqo
  obtain ⟨bs, t, hrun', hbs⟩ := found hqp hpp hqo hpo
  exact ⟨as, bs, s, t, hrun, hrun', has, fun a => by rw [has, hbs, ne_comm]⟩

/-- A byte that a copy stored over is found, whichever of the two memories is asked. -/
theorem changed_exact_stored_over :
    let put (i n v a : Nat) : Event := .act i (.store false false true ⟨.lit (8 * n) v, a, n⟩)
    let F := run ⟨[{}], {}⟩ [put 0 2 0x700 4100, .branch 0, put 1 1 7 4100, put 1 1 1 4101]
    ∃ p ∈ F.members, ∃ q ∈ F.members, ∃ as bs s t, changed q (p, F.commons) = .ok as s ∧ changed p (q, F.commons) = .ok bs t ∧
      4101 ∈ as ∧ 4101 ∈ bs := by
  intro put F
  have hempty : Paged.Empty {} := ⟨fun n => by simp, rfl⟩
  have hp := List.getElem_mem (l := F.members) (n := 0) (by decide +kernel)
  have hq := List.getElem_mem (l := F.members) (n := 1) (by decide +kernel)
  obtain ⟨as, bs, s, t, hrun, hrun', has, hbs⟩ := changed_exact (hempty.placed _) (hempty.sound _).page rfl hp hq
  have hin := (has 4101).2 (mt (congrArg fun r => r.toOption.join.bind Bits.lit?) (by decide +kernel))
  exact ⟨_, hp, _, hq, as, bs, s, t, hrun, hrun', hin, (hbs 4101).2 hin⟩

/-- **What a memory lists** of the addresses that it has: each with the base of its page counted twice. Of single addresses only
those of the first page are found. -/
theorem keys_doubled (hm : m.Placed c) (ht : (m.unshared c).Tidy) (hb : m.backing.segments = [])
    (hp : p ∈ (run ⟨[m], c⟩ es).members) :
    let k := (run ⟨[m], c⟩ es).commons
    (∀ x, x ∈ p.keys k ↔ ∃ a, answer (has a) (p, k) = .ok true ∧ x = a + a / pageSize * pageSize) ∧
      ∀ a, p.listed k a = true ↔ a < pageSize ∧ answer (has a) (p, k) = .ok true := by
  obtain ⟨hplaced, ho⟩ := member_offspring hm ht hb hp
  simp only [answer_has hplaced ho hb, listed_iff ho.tidy, mem_keys_iff, implies_true, and_true]
  refine fun x => ⟨?_, ?_⟩
  · rintro ⟨n, i, hi, a, ha, rfl⟩
    obtain ⟨rfl, -⟩ := (ho.tidy _ _ (peek_of_held hi)).mem_keys_iff.1 ha
    exact ⟨a, ⟨i, hi, ha⟩, rfl⟩
  · rintro ⟨a, ⟨i, hi, ha⟩, rfl⟩
    exact ⟨_, i, hi, a, ha, rfl⟩

/-- A byte of the second page is listed in the third, and not found where it is. -/
theorem keys_doubled_second_page :
    let F := run ⟨[{}], {}⟩ [.act 0 (.store false false true ⟨.lit 8 0x41, 4096, 1⟩)]
    ∃ p ∈ F.members, answer (has 4096) (p, F.commons) = .ok true ∧ 8192 ∈ p.keys F.commons ∧ p.listed F.commons 4096 = false := by
  intro F
  have hempty : Paged.Empty {} := ⟨fun n => by simp, rfl⟩
  have hp := List.getElem_mem (l := F.members) (n := 0) (by decide +kernel)
  obtain ⟨hk, hl⟩ := keys_doubled (hempty.placed _) (hempty.sound _).page rfl hp
  have hhas : answer (has 4096) (F.members[0], F.commons) = .ok true := rfl
  exact ⟨_, hp, hhas, (hk 8192).2 ⟨4096, hhas, rfl⟩, Bool.eq_false_iff.2 fun h => absurd ((hl 4096).1 h).1 (by decide)⟩

end Family

end SymExec
