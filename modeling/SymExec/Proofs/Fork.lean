import SymExec.Proofs.View

/-!
# Copies of a memory

Copies share their pages until they write them.
-/

namespace SymExec

open List Option Unshared

namespace Paged

/-! ### Frames -/

/-- Whether one memory holds no page that the other owns. -/
def Apart (p q : Paged) : Prop := ∀ i, p.Owns i → ∀ n : Nat, q.pages[n]? ≠ some i

section
variable {p p' q : Paged} {c c' : Commons}

lemma Placed.frame (hq : q.Placed c) (hs : c.pages.size ≤ c'.pages.size)
    (hpage : ∀ n i : Nat, q.pages[n]? = some i → c'.page i = c.page i) : q.Placed c' ∧ q.unshared c' = q.unshared c := by
  refine ⟨fun n i hi => ?_, ?_⟩
  · rw [hpage n i hi]
    exact ⟨Nat.lt_of_lt_of_le (hq n i hi).1 hs, (hq n i hi).2⟩
  · rw [unshared]
    congr 1
    funext n
    cases hn : q.pages[n]? with
    | none => rfl
    | some i => rw [map_some, map_some, hpage n i hn]

section
variable (hm : Moves p c p' c') (hq : q.Placed c)
include hm hq

/-- **Work on one memory** leaves the contents of every other one that holds no page of its own. -/
theorem Moves.frame (ha : Apart p q) : q.Placed c' ∧ q.unshared c' = q.unshared c :=
  hq.frame hm.grows fun n i hi => hm.keeps i (hq n i hi).1 fun ho => ha i ho n hi

lemma Moves.apart_left (ha : Apart p q) : Apart p' q := by
  intro i ho n hi
  obtain ho | hle := hm.owns i ho
  · exact ha i ho n hi
  · exact Nat.not_lt.2 hle (hq n i hi).1

lemma Moves.apart_right (ha : Apart q p) : Apart q p' := by
  intro i ho n hi
  obtain hi | hle := hm.holds n i hi
  · exact ha i ho n hi
  · obtain ⟨k, -, hk⟩ := ho
    exact Nat.not_lt.2 hle (hq k i hk).1

end

end

variable {α : Type} {y : UnsharedM α} {x : PagedM α}

lemma not_owns_branch (p : Paged) (i) : ¬ p.branch.1.Owns i ∧ ¬ p.branch.2.Owns i := by
  refine ⟨?_, ?_⟩ <;>
  · rintro ⟨n, hn, -⟩
    simp [branch] at hn

lemma placed_single {n pg} (h : pg.base = n * pageSize) :
    Placed { pages := Std.TreeMap.empty.insert n 0 } { pages := #[pg] } := by
  intro k i hi
  simp only [Std.TreeMap.getElem?_insert] at hi
  split at hi
  · rename_i hk
    cases hi
    obtain rfl := compare_eq_iff_eq.1 hk
    exact ⟨Nat.one_pos, h⟩
  · cases hi

/-! ### Families -/

inductive Access where
  | store (strict tracking anew : Bool) (c : Chunk)
  | map (guarded : Bool) (addr length : Nat) (prot : Bits) (zero : Bool)
  | unmap (guarded : Bool) (addr length : Nat)

def Access.run : Access → PagedM Unit
  | store strict tracking anew c => Paged.store strict tracking anew c
  | map guarded addr length prot zero => Paged.map guarded addr length prot zero
  | unmap guarded addr length => Paged.unmap guarded addr length

def Access.runUnshared : Access → UnsharedM Unit
  | store strict tracking anew c => Unshared.store strict tracking anew c
  | map guarded addr length prot zero => Unshared.map guarded addr length prot zero
  | unmap guarded addr length => Unshared.unmap guarded addr length

lemma Access.refines (x : Access) : Refines x.run x.runUnshared := by
  cases x with
  | store strict tracking anew c => exact store_refines strict tracking anew c
  | map guarded addr length prot zero => exact map_refines
  | unmap guarded addr length => exact unmap_refines

/-- What work leaves behind, also where it ends in a fault. -/
def leaves {σ α : Type} (x : EStateM Fault σ α) (s : σ) : σ :=
  match x s with
  | .ok _ t => t
  | .error _ t => t

lemma leaves_bind {σ β : Type} {x} {f : α → EStateM Fault σ β} {s t a} (h : x s = .ok a t) :
    leaves (x >>= f) s = leaves (f a) t := by
  rw [leaves, leaves, bind_of_ok h]

def answer {σ α : Type} (x : EStateM Fault σ α) (s : σ) : Except Fault α :=
  match x s with
  | .ok a _ => .ok a
  | .error f _ => .error f

lemma Refines.leaves (h : Refines x y) {p} {c : Commons} (hp : p.Placed c) {s} (hs : leaves x (p, c) = s) : Moves p c s.1 s.2 ∧
    s.1.Placed s.2 ∧ s.1.unshared s.2 = leaves y (p.unshared c) := by
  subst hs
  have h := h p c hp
  rw [Paged.leaves, Paged.leaves]
  generalize x (p, c) = r, y (p.unshared c) = u at h
  cases h with
  | ok hm hp' | error hm hp' => exact ⟨hm, hp', rfl⟩

lemma Refines.answer (h : Refines x y) {p} {c : Commons} (hp : p.Placed c) :
    Paged.answer x (p, c) = Paged.answer y (p.unshared c) := by
  have h := h p c hp
  rw [Paged.answer, Paged.answer]
  generalize x (p, c) = r, y (p.unshared c) = u at h
  cases h <;> rfl

/-- What a memory says of an address: whether its page is there, and the byte over it. -/
def report (a : Nat) : PagedM (Bool × Option Bits) := do
  match ← page? (a / pageSize) false false with
  | some i => return (true, ((← pageAt i).at? a).map (·.bytesAt a 1))
  | none => return (false, none)

lemma report_refines (a) : Refines (report a) (do
    match ← lookup (a / pageSize) false with
    | some pg => return (true, (pg.at? a).map (·.bytesAt a 1))
    | none => return (false, none)) :=
  .bind_page? (.pure _) fun _ p c hp _ _ => .ok (.refl p c) hp

/-- Accesses one after the other to a memory that is never copied. -/
def alone (s : Paged × Commons) (xs : List Access) : Paged × Commons := xs.foldl (fun s x => leaves x.run s) s

end Paged

open Paged

/-- Memories that were copied from one another, over one table of pages. -/
structure Family where
  members : List Paged
  commons : Commons

/-- Something that happens to a family: a member is copied or accessed. -/
inductive Family.Event where
  | branch (i : Nat)
  | act (i : Nat) (x : Access)

namespace Family

def step (F : Family) : Event → Family
  | .branch i =>
    match F.members[i]? with
    | none => F
    | some p => { F with members := F.members.set i p.branch.2 ++ [p.branch.1] }
  | .act i x =>
    match F.members[i]? with
    | none => F
    | some p =>
      let (p', c') := leaves x.run (p, F.commons)
      ⟨F.members.set i p', c'⟩

def run (F : Family) (es : List Event) : Family := es.foldl step F

/-- The accesses in the line of each member, as an event adds to them: a copy begins with those of the memory it was
taken from. -/
def record (lines : List (List Access)) : Event → List (List Access)
  | .branch i =>
    match lines[i]? with
    | none => lines
    | some xs => lines ++ [xs]
  | .act i x => lines.modify i (· ++ [x])

/-- The accesses in the line of each member of a family that began as one memory. -/
def lines (es : List Event) : List (List Access) := es.foldl record [[]]

def contents (F : Family) : List Unshared := F.members.map (·.unshared F.commons)

/-- The members have their pages in the table, and none holds a page that another owns. -/
structure Sound (F : Family) : Prop where
  placed : ∀ (k : Nat) (p : Paged), F.members[k]? = some p → p.Placed F.commons
  apart : ∀ (j k : Nat) (p q : Paged), j ≠ k → F.members[j]? = some p → F.members[k]? = some q → Apart p q

variable {F : Family} {i : Nat} {p p' m : Paged} {c : Commons} {k : Nat}

section
variable {q : Paged} {c' : Commons} (hi : F.members[i]? = some p)
include hi

lemma member_act (hk : (F.members.set i p')[k]? = some q) : (k = i ∧ q = p') ∨ (k ≠ i ∧ F.members[k]? = some q) := by
  have hlt : i < F.members.length := (List.getElem?_eq_some_iff.1 hi).1
  rw [getElem?_set] at hk
  split at hk
  · rename_i hik
    exact .inl ⟨hik.symm, (some.inj hk).symm⟩
  · rename_i hik
    exact .inr ⟨Ne.symm hik, hk⟩

/-- A member of the family after one was copied: it is a member of before, or one of the two that a copy leaves. -/
lemma member_branch (hk : (F.members.set i p.branch.2 ++ [p.branch.1])[k]? = some q) :
    (k ≠ i ∧ F.members[k]? = some q) ∨ (k = i ∧ q = p.branch.2) ∨ (k = F.members.length ∧ q = p.branch.1) := by
  rw [getElem?_append, length_set] at hk
  split at hk
  · exact (member_act hi hk).symm.imp_right .inl
  · have hz : k - F.members.length = 0 := by
      have h := (List.getElem?_eq_some_iff.1 hk).1
      simp only [length_singleton] at h
      omega
    rw [hz] at hk
    exact .inr (.inr ⟨by omega, (some.inj hk).symm⟩)

lemma sound_branch (h : F.Sound) : Sound { F with members := F.members.set i p.branch.2 ++ [p.branch.1] } := by
  refine ⟨fun k q hq => ?_, fun j k q r hjk hq hr => ?_⟩
  · obtain ⟨-, hq⟩ | ⟨-, rfl⟩ | ⟨-, rfl⟩ := member_branch hi hq
    · exact h.placed k q hq
    all_goals exact placed_of_pages (h.placed i p hi) rfl rfl
  · obtain ⟨hji, hq⟩ | ⟨-, rfl⟩ | ⟨-, rfl⟩ := member_branch hi hq
    · obtain ⟨-, hr⟩ | ⟨-, rfl⟩ | ⟨-, rfl⟩ := member_branch hi hr
      · exact h.apart j k q r hjk hq hr
      all_goals exact h.apart j i q p hji hq hi
    · exact fun a ho => absurd ho (not_owns_branch p a).2
    · exact fun a ho => absurd ho (not_owns_branch p a).1

lemma sound_act (h : F.Sound) (hm : Moves p F.commons p' c') (hp' : p'.Placed c') : Sound ⟨F.members.set i p', c'⟩ := by
  refine ⟨fun k q hq => ?_, fun j k q r hjk hq hr => ?_⟩
  · obtain ⟨-, rfl⟩ | ⟨hki, hq⟩ := member_act hi hq
    · exact hp'
    · exact (hm.frame (h.placed k q hq) (h.apart i k p q hki.symm hi hq)).1
  · obtain ⟨rfl, rfl⟩ | ⟨-, hq'⟩ := member_act hi hq
    · obtain ⟨rfl, -⟩ | ⟨hkj, hr⟩ := member_act hi hr
      · exact absurd rfl hjk
      · exact hm.apart_left (h.placed k r hr) (h.apart j k p r hjk hi hr)
    · obtain ⟨rfl, rfl⟩ | ⟨-, hr'⟩ := member_act hi hr
      · exact hm.apart_right (h.placed j q hq') (h.apart j k q p hjk hq' hi)
      · exact h.apart j k q r hjk hq' hr'

def replay (us : List Unshared) : Event → List Unshared
  | .branch i =>
    match us[i]? with
    | none => us
    | some u => us ++ [u]
  | .act i x => us.modify i (leaves x.runUnshared)

lemma contents_branch : contents { F with members := F.members.set i p.branch.2 ++ [p.branch.1] } =
      F.contents ++ [p.unshared F.commons] := by
  have hset : (F.members.set i p.branch.2).map (·.unshared F.commons) = F.members.map (·.unshared F.commons) := by
    rw [map_set]
    refine ext_getElem? fun k => ?_
    rw [getElem?_set]
    split
    · rename_i hik
      rw [← hik, getElem?_map, hi, length_map, if_pos (List.getElem?_eq_some_iff.1 hi).1]
      rfl
    · rfl
  rw [contents, map_append, hset]
  rfl

lemma contents_act (h : F.Sound) {f} (hm : Moves p F.commons p' c') (hf : p'.unshared c' = f (p.unshared F.commons)) :
    contents ⟨F.members.set i p', c'⟩ = F.contents.modify i f := by
  refine ext_getElem? fun k => ?_
  rw [contents, contents, getElem?_map, getElem?_modify, getElem?_map, getElem?_set]
  split
  · rename_i hik
    rw [← hik, hi, if_pos (List.getElem?_eq_some_iff.1 hi).1]
    simp [hf]
  · rename_i hik
    cases hk : F.members[k]? with
    | none => rfl
    | some q => simp [(hm.frame (h.placed k q hk) (h.apart i k p q hik hi hk)).2]

end

/-- **One event** keeps the family sound, and does to the contents of its members what it would do if they shared
nothing. -/
theorem step_spec (h : F.Sound) (e) : (F.step e).Sound ∧ (F.step e).contents = replay F.contents e := by
  cases e with
  | branch i =>
    cases hi : F.members[i]? with
    | none => simpa [step, hi, replay, contents] using h
    | some p =>
      simp only [step, hi]
      refine ⟨sound_branch hi h, (contents_branch hi).trans ?_⟩
      simp [replay, contents, hi]
  | act i x =>
    cases hi : F.members[i]? with
    | none =>
      simp only [step, hi, replay]
      refine ⟨h, (modify_eq_self ?_).symm⟩
      simpa [contents] using hi
    | some p =>
      obtain ⟨hm, hp', hu⟩ := x.refines.leaves (h.placed i p hi) rfl
      simp only [step, hi]
      exact ⟨sound_act hi h hm hp', contents_act hi h hm hu⟩

/-- **A run of events** keeps the family sound, and does to the contents what it would do if nothing was shared. -/
theorem run_spec (h : F.Sound) (es : List Event) : (F.run es).Sound ∧ (F.run es).contents = es.foldl replay F.contents := by
  induction es generalizing F with
  | nil => exact ⟨h, rfl⟩
  | cons e es ih =>
    obtain ⟨hs, hc⟩ := step_spec h e
    obtain ⟨hs', hc'⟩ := ih hs
    exact ⟨hs', hc'.trans (by rw [hc]; rfl)⟩

def play (u : Unshared) (xs : List Access) : Unshared := xs.foldl (fun u x => leaves x.runUnshared u) u

lemma replay_play (u) (ls : List (List Access)) (e) : replay (ls.map (play u)) e = (record ls e).map (play u) := by
  cases e with
  | branch i =>
    simp only [replay, record, getElem?_map]
    cases ls[i]? with
    | none => rfl
    | some xs => simp
  | act i x =>
    simp only [replay, record]
    refine ext_getElem? fun k => ?_
    rw [getElem?_modify, getElem?_map, getElem?_map, getElem?_modify]
    split <;> cases ls[k]? <;> simp [play]

lemma foldl_replay (u) (es : List Event) (ls : List (List Access)) :
    es.foldl replay (ls.map (play u)) = (es.foldl record ls).map (play u) := by
  induction es generalizing ls with
  | nil => rfl
  | cons e es ih => rw [foldl_cons, foldl_cons, replay_play, ih]

lemma alone_spec (hp : p.Placed c) (xs : List Access) : (alone (p, c) xs).1.Placed (alone (p, c) xs).2 ∧
      (alone (p, c) xs).1.unshared (alone (p, c) xs).2 = play (p.unshared c) xs := by
  induction xs generalizing p c with
  | nil => exact ⟨hp, rfl⟩
  | cons x xs ih =>
    obtain ⟨-, hp', hu⟩ := x.refines.leaves hp rfl
    obtain ⟨h, h'⟩ := ih hp'
    exact ⟨h, h'.trans (by rw [hu]; rfl)⟩

lemma member_singleton (h : [m][k]? = some p) : k = 0 ∧ p = m := by
  cases k with
  | zero => exact ⟨rfl, (some.inj h).symm⟩
  | succ k => cases h

lemma sound_singleton (hm : m.Placed c) : Sound ⟨[m], c⟩ := by
  refine ⟨fun k p h => ?_, fun j k p q hjk hp hq => ?_⟩
  · obtain ⟨-, rfl⟩ := member_singleton h
    exact hm
  · exact absurd ((member_singleton hp).1.trans (member_singleton hq).1.symm) hjk

/-- The contents of each member are made by its own line of accesses. -/
lemma contents_run (hm : m.Placed c) (es) : (run ⟨[m], c⟩ es).contents = (lines es).map (play (m.unshared c)) :=
  (run_spec (sound_singleton hm) es).2.trans (foldl_replay (m.unshared c) es [[]])

/-- What each member answers to a question about the contents alone is answered by its own line of accesses. -/
lemma answer_run (hm : m.Placed c) (es : List Event) (k : Nat) {α : Type} {x} {y : UnsharedM α} (hxy : Refines x y) :
    let F := run ⟨[m], c⟩ es
    (F.members[k]?).map (fun p => answer x (p, F.commons)) = ((lines es)[k]?).map fun xs => answer x (alone (m, c) xs) := by
  intro F
  have hs : F.Sound := (run_spec (sound_singleton hm) es).1
  have hk : F.contents[k]? = _ := congrArg (·[k]?) (contents_run hm es)
  simp only [contents, List.getElem?_map] at hk
  have halone : ∀ xs, answer x (alone (m, c) xs) = answer y (play (m.unshared c) xs) := fun xs => by
    obtain ⟨hp, hu⟩ := alone_spec hm xs
    rw [← hu]
    exact hxy.answer hp
  calc (F.members[k]?).map (fun p => answer x (p, F.commons))
      = ((F.members[k]?).map (·.unshared F.commons)).map (answer y) := by
        cases hp : F.members[k]? with
        | none => rfl
        | some p => simp only [Option.map_some, hxy.answer (hs.placed k p hp)]
    _ = (((lines es)[k]?).map (play (m.unshared c))).map (answer y) := by rw [hk]
    _ = ((lines es)[k]?).map fun xs => answer x (alone (m, c) xs) := by
        rw [Option.map_map]
        congr 1
        funext xs
        exact (halone xs).symm

/-- **Forked memories are isolated.** Whatever is stored, mapped and unmapped in a family of copies, also in copies of copies
and in any order, each member answers as a memory that was never copied and had the accesses of its own line only: whether
the page of an address is there and which byte it has, and what is read from any range. -/
theorem forks_isolated {m : Paged} {c : Commons} (hm : m.Placed c) (es : List Event) (k : Nat) :
    (∀ a, ((run ⟨[m], c⟩ es).members[k]?).map (fun p => answer (report a) (p, (run ⟨[m], c⟩ es).commons)) =
      ((lines es)[k]?).map fun xs => answer (report a) (alone (m, c) xs)) ∧ ∀ strict cut a n,
      ((run ⟨[m], c⟩ es).members[k]?).map (fun p => answer (chunks strict cut a n) (p, (run ⟨[m], c⟩ es).commons)) =
        ((lines es)[k]?).map fun xs => answer (chunks strict cut a n) (alone (m, c) xs) :=
  ⟨fun a => answer_run hm es k (report_refines a), fun strict cut a n => answer_run hm es k (chunks_refines strict cut a n)⟩

/-- A memory with one page, a copy of it that stores a byte, a copy of that copy, and the page unmapped in the first: the
last copy answers as the first memory would after the store alone. -/
theorem forks_isolated_copy_of_copy :
    let m : Paged := { pages := Std.TreeMap.empty.insert 1 0 }
    let c : Commons := { pages := #[{ base := pageSize }] }
    let x : Access := .store false false true ⟨.lit 8 7, pageSize, 1⟩
    let es : List Event := [.branch 0, .act 1 x, .branch 1, .act 0 (.unmap true pageSize pageSize)]
    m.Placed c ∧ (lines es)[2]? = some [x] ∧
    ∀ a, ((run ⟨[m], c⟩ es).members[2]?).map (fun p => answer (report a) (p, (run ⟨[m], c⟩ es).commons)) =
      some (answer (report a) (alone (m, c) [x])) := by
  intro m c x es
  have hm : m.Placed c := placed_single (Nat.one_mul _).symm
  exact ⟨hm, rfl, (forks_isolated hm es 2).1⟩

end Family

/-! ### Protections -/

namespace Paged

/-- The two memories that a copy leaves, in either order. -/
def Twins (m p q : Paged) : Prop := (p = m.branch.1 ∧ q = m.branch.2) ∨ (p = m.branch.2 ∧ q = m.branch.1)

section
variable {m p q : Paged} {c : Commons} {a i j : Nat} {n : Nat}

lemma Twins.pages (h : Twins m p q) : p.pages = m.pages ∧ q.pages = m.pages := by obtain ⟨rfl, rfl⟩ | ⟨rfl, rfl⟩ := h <;> exact ⟨rfl, rfl⟩

lemma Twins.apart (h : Twins m p q) : Apart p q ∧ Apart q p := by
  obtain ⟨rfl, rfl⟩ | ⟨rfl, rfl⟩ := h
  · exact ⟨fun i ho => absurd ho (not_owns_branch m i).1, fun i ho => absurd ho (not_owns_branch m i).2⟩
  · exact ⟨fun i ho => absurd ho (not_owns_branch m i).2, fun i ho => absurd ho (not_owns_branch m i).1⟩

lemma page?_held (hi : p.pages[n]? = some i) : page? n false false (p, c) = .ok (some i) (p, c) := by
  simp only [page?, bind_get, hi]
  rfl

lemma answer_protect (hi : p.pages[a / pageSize]? = some i) : answer (protect a none) (p, c) = .ok (c.page i).protection := by
  rw [answer, protect, bind_of_ok (page?_held hi)]
  rfl

lemma leaves_protect (b) (hi : p.pages[a / pageSize]? = some i) : leaves (protect a (some b)) (p, c) =
      (p, { c with pages := c.pages.modify i fun pg => { pg with protection := b } }) := by
  rw [leaves, protect, bind_of_ok (page?_held hi)]
  rfl

/-- A change of protection shows in another memory if both have the page at the same place, and only then. -/
lemma answer_protect_after (b : Bits) (hp : p.Placed c) (hi : p.pages[a / pageSize]? = some i)
    (hj : q.pages[a / pageSize]? = some j) : answer (protect a none) (q, (leaves (protect a (some b)) (p, c)).2) =
      .ok (if j = i then b else (c.page j).protection) := by
  rw [leaves_protect b hi, answer_protect hj, page_modify (hp _ i hi).1]
  split <;> rfl

/-! ### Pages that were written -/

lemma putChunk_owns (hp : p.Placed c) (anew n ch) :
    ∃ p' c', putChunk false anew n ch (p, c) = .ok () (p', c') ∧ p'.Placed c' ∧ p'.owned.contains n = true := by
  obtain ⟨v, hv, -⟩ := putChunk_run (p.unshared c) anew n ch
  obtain ⟨p', c', hx, -, -, hp'⟩ := putChunk_refines.run_ok hp hv
  refine ⟨p', c', hx, hp', ?_⟩
  obtain ⟨r, p1, c1, hr, -, -, -, -, hown⟩ := page?_spec hp n true true
  rw [putChunk, Bool.not_false, bind_of_ok hr] at hx
  cases r with
  | none => cases hx
  | some i =>
    obtain rfl : p1 = p' := congrArg Prod.fst (EStateM.Result.ok.inj hx).2
    exact (hown i rfl).2 rfl

lemma forM_putChunk_owns (anew : Bool) (ch) (ns : List Nat) (hp : p.Placed c) (hn : n ∈ ns) :
    (leaves (ns.forM fun n => putChunk false anew n ch) (p, c)).1.owned.contains n = true := by
  induction ns generalizing p c with
  | nil => cases hn
  | cons k ns ih =>
    obtain ⟨p', c', hx, hp', ho⟩ := putChunk_owns hp anew k ch
    have hl : leaves ((k :: ns).forM fun n => putChunk false anew n ch) (p, c) =
        leaves (ns.forM fun n => putChunk false anew n ch) (p', c') := leaves_bind hx
    rw [hl]
    by_cases hk : n = k
    · subst hk
      exact ((Refines.forM (fun n => putChunk_refines) ns).leaves hp' rfl).1.gains n ho
    · exact ih hp' ((mem_cons.1 hn).resolve_left hk)

/-- **A store makes the pages it touches its memory's own.** -/
theorem store_owns (hp : p.Placed c) (tracking anew : Bool) (ch) (hn : n ∈ pagesOf ch.base ch.stop) :
    let s := leaves (store false tracking anew ch) (p, c)
    ∃ j, s.1.pages[n]? = some j ∧ s.1.Owns j := by
  intro s
  obtain ⟨v, hv, -, -, -, hpages⟩ := store_run (p.unshared c) tracking anew ch
  obtain ⟨p', c', hrun, hu, -⟩ := (store_refines false tracking anew ch).run_ok hp hv
  obtain ⟨j, hj⟩ : ∃ j, s.1.pages[n]? = some j := by
    have hs := hpages n hn
    rw [← hu, unshared, map_eq_some_iff] at hs
    simp only [s, leaves, hrun]
    exact hs.imp fun _ h => h.1
  refine ⟨j, hj, n, ?_, hj⟩
  -- owned once the chunk was put on the page, and still after the symbols were recorded
  have hown := forM_putChunk_owns anew ch (pagesOf ch.base ch.stop) hp hn
  obtain ⟨w, hw, -⟩ := forM_putChunk_run ch anew (pagesOf ch.base ch.stop) nodup_range' (p.unshared c)
  obtain ⟨p1, c1, hx, -, -, hp1⟩ := (Refines.forM (fun n => putChunk_refines) _).run_ok hp hw
  rw [leaves, hx] at hown
  have hrest : Refines (if tracking then (range' ch.base ch.length).forM fun a => noteByte a ch.content else pure ())
      (if tracking then (range' ch.base ch.length).forM fun a => Unshared.noteByte a ch.content else pure ()) :=
    .ite (.forM (fun a => noteByte_refines a ch.content) _) (.pure ())
  simp only [s, store]
  rw [leaves_bind hx]
  exact (hrest.leaves hp1 rfl).1.gains n hown

/-- **A change of protection goes to the page that both memories share.** After a copy was taken of a memory that has the
page of an address, the protection that either of the two sets is the one that the other answers. Once one of them has
stored to the page this ends: from then on neither shows what the other sets. -/
theorem protection_leaks_until_written (hm : m.Placed c) (ha : m.pages.contains (a / pageSize) = true) (h : Twins m p q)
    (b : Bits) : answer (protect a none) (q, (leaves (protect a (some b)) (p, c)).2) = .ok b ∧
    ∀ tracking anew ch, a / pageSize ∈ pagesOf ch.base ch.stop →
      answer (protect a none) (q, (leaves (protect a (some b)) (leaves (store false tracking anew ch) (p, c))).2) =
        answer (protect a none) (q, c) ∧ answer (protect a none) ((leaves (store false tracking anew ch) (p, c)).1,
          (leaves (protect a (some b)) (q, (leaves (store false tracking anew ch) (p, c)).2)).2) =
        answer (protect a none) (leaves (store false tracking anew ch) (p, c)) := by
  obtain ⟨i, hi⟩ : ∃ i, m.pages[a / pageSize]? = some i := by
    rwa [Std.TreeMap.contains_eq_isSome_getElem?, Option.isSome_iff_exists] at ha
  have hip : p.pages[a / pageSize]? = some i := h.pages.1 ▸ hi
  have hiq : q.pages[a / pageSize]? = some i := h.pages.2 ▸ hi
  have hp : p.Placed c := placed_of_pages hm h.pages.1 rfl
  have hq : q.Placed c := placed_of_pages hm h.pages.2 rfl
  refine ⟨?_, fun tracking anew ch hin => ?_⟩
  · rw [answer_protect_after b hp hip hiq, if_pos rfl]
  · obtain ⟨hmoves, hp', -⟩ := (store_refines false tracking anew ch).leaves hp rfl
    obtain ⟨j, hj, hown⟩ := store_owns hp tracking anew ch hin
    -- the page that was written is at a place that the other memory does not hold
    have hne : i ≠ j := fun e => hmoves.apart_left hq h.apart.1 j hown (a / pageSize) (e ▸ hiq)
    obtain ⟨hq', hcontents⟩ := hmoves.frame hq h.apart.1
    generalize leaves (store false tracking anew ch) (p, c) = s at *
    obtain ⟨p', c'⟩ := s
    have hsame : c'.page i = c.page i := by
      have e := congrArg (·.pages (a / pageSize)) hcontents
      simpa [unshared, hiq] using e
    refine ⟨?_, ?_⟩
    · rw [answer_protect_after b hp' hj hiq, if_neg hne, hsame, answer_protect hiq]
    · rw [answer_protect_after b hq' hiq hj, if_neg (Ne.symm hne), answer_protect hj]

end

/-- A page that may be read, written and executed, and a copy that takes away all but reading: the memory it was taken from
answered 7 and now answers 1. -/
theorem protection_leaks_from_copy :
    let m : Paged := { pages := Std.TreeMap.empty.insert 1 0 }
    let c : Commons := { pages := #[{ base := pageSize }] }
    m.Placed c ∧ m.pages.contains (pageSize / pageSize) = true ∧ Twins m m.branch.1 m.branch.2 ∧
    answer (protect pageSize none) (m.branch.2, c) = .ok (.lit 3 7) ∧
    answer (protect pageSize none) (m.branch.2, (leaves (protect pageSize (some (.lit 3 1))) (m.branch.1, c)).2) =
      .ok (.lit 3 1) := by
  intro m c
  have hm : m.Placed c := placed_single (Nat.one_mul _).symm
  have ha : m.pages.contains (pageSize / pageSize) = true := by simp [m, pageSize]
  have ht : Twins m m.branch.1 m.branch.2 := .inl ⟨rfl, rfl⟩
  have hi : m.branch.2.pages[pageSize / pageSize]? = some 0 := by simp [m, branch, pageSize]
  exact ⟨hm, ha, ht, answer_protect hi, (protection_leaks_until_written hm ha ht (.lit 3 1)).1⟩

end Paged

end SymExec
