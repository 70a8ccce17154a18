import SymExec.Proofs.Page

/-!
# Memory without sharing

Memories hold their pages by places in a table that they all share.
-/

namespace SymExec

open Option EStateM List Paged Array

section
variable {σ α β : Type} {x : EStateM Fault σ α} {f : α → EStateM Fault σ β} {s t : σ}

lemma bind_of_ok {a} (h : x s = .ok a t) : (x >>= f) s = f a t := by
  change EStateM.bind x f s = _
  rw [EStateM.bind, h]

lemma map_of_ok {a} {g : α → β} (h : x s = .ok a t) : (g <$> x) s = .ok (g a) t := by
  change EStateM.map g x s = _
  rw [EStateM.map, h]

lemma tryCatch_of_ok {a} (h : x s = .ok a t) (c) : (tryCatch x c) s = .ok a t := by
  change EStateM.tryCatch x c s = _
  rw [EStateM.tryCatch, h]

lemma bind_get (f : σ → EStateM Fault σ α) (s) : (get >>= f) s = f s s := rfl

lemma bind_of_error {e} (h : x s = .error e t) : (x >>= f) s = .error e t := by
  change EStateM.bind x f s = _
  rw [EStateM.bind, h]

end

/-- Whether a table has the pages of another in their places, and perhaps more. -/
structure Commons.Extends (c c' : Commons) : Prop where
  grows : c.pages.size ≤ c'.pages.size
  keeps : ∀ i < c.pages.size, c'.page i = c.page i

lemma Commons.Extends.refl (c : Commons) : c.Extends c := ⟨le_rfl, fun _ _ => rfl⟩

structure Unshared where
  pages : Nat → Option Page
  initialized : Std.TreeSet Nat
  backing : Backing
  stack : Nat × Nat

abbrev UnsharedM := EStateM Fault Unshared

namespace Unshared

/-- The page that comes into being when a number without one is looked for. -/
def fresh? (u : Unshared) (n : Nat) (create : Bool) : Option Page :=
  Paged.fresh? { initialized := u.initialized, backing := u.backing, stack := u.stack } n create

def setPage (u : Unshared) (n : Nat) (pg : Page) : Unshared := { u with pages := fun k => if k = n then some pg else u.pages k }

lemma setPage_self {u : Unshared} {n pg} (h : u.pages n = some pg) : u.setPage n pg = u := by
  have e : (fun k => if k = n then some pg else u.pages k) = u.pages := by
    funext k
    grind
  rw [setPage, e]

def seek (u : Unshared) (n : Nat) : Unshared := { u with initialized := u.initialized.insert n }

def lookup (n : Nat) (create : Bool) : UnsharedM (Option Page) := fun u =>
  match u.pages n with
  | some pg => .ok (some pg) u
  | none =>
    match u.fresh? n create with
    | some pg => .ok (some pg) ((u.seek n).setPage n pg)
    | none => .ok none (u.seek n)

def at? (a : Nat) : UnsharedM (Option Chunk) := do
  match ← lookup (a / pageSize) false with
  | some pg => return pg.at? a
  | none => return none

def has (a : Nat) : UnsharedM Bool := return (← at? a).isSome

def chunks (strict cut : Bool) (addr n : Nat) : List Nat → UnsharedM (List (Nat × Chunk))
  | [] => return []
  | k :: ks => do
    match ← lookup k false with
    | none =>
      if strict then
        if cut then return [] else throw (.segfault addr "read-miss")
      chunks strict cut addr n ks
    | some pg =>
      if strict && !pg.grants protRead then
        if cut then return [] else throw (.segfault addr "non-readable")
      return pg.slice addr (addr + n) ++ (← chunks strict cut addr n ks)

/-- Looks for the page of an address whose symbols are recorded. -/
def noteByte (a : Nat) (content : Bits) : UnsharedM Unit := do
  if content.symbols.isEmpty then return
  discard <| at? a

def putChunk (strict anew : Bool) (n : Nat) (c : Chunk) : UnsharedM Unit := do
  match ← lookup n (!strict) with
  | none => throw (.segfault c.base "write-miss")
  | some pg =>
    if strict && !pg.grants protWrite then throw (.segfault c.base "non-writable")
    modify (·.setPage n (if anew then pg.overwrite c else pg.underwrite c))

def store (strict tracking anew : Bool) (c : Chunk) : UnsharedM Unit := do
  (pagesOf c.base c.stop).forM fun n => putChunk strict anew n c
  if tracking then (List.range' c.base c.length).forM fun a => noteByte a c.content

def replaceOn (old new : Chunk) (n : Nat) : UnsharedM Unit := do
  match ← lookup n false with
  | some pg => modify (·.setPage n (pg.replace old new))
  | none => throw (.of .badKey)

def replaceChunk (tracking : Bool) (old : Chunk) (content : Bits) : UnsharedM Chunk := do
  if old.content.width ≠ content.width then
    throw (.because .memory "memory objects can only be replaced by the same length content")
  let new := .ofBits content old.base
  (pagesOf old.base old.stop).forM (replaceOn old new)
  if tracking then (List.range' old.base old.length).forM fun a => noteByte a content
  return new

/-- A fault if the first byte of a page is there already. -/
def refuseMapped (n : Nat) : UnsharedM Unit := do
  if ← has (n * pageSize) then
    throw (.because .memory "map_page received address and length combination which contained mapped page")

def map (guarded : Bool) (addr length : Nat) (prot : Bits) (zero : Bool) : UnsharedM Unit := do
  let ns := List.range' (addr / pageSize) ((length + pageSize - 1) / pageSize)
  if guarded then ns.forM refuseMapped
  ns.forM fun n => modify fun u => u.setPage n (mappedPage u.backing prot zero n)

def unmap (guarded : Bool) (addr length : Nat) : UnsharedM Unit := do
  let ns := List.range' (addr / pageSize) ((length + pageSize - 1) / pageSize)
  let u ← get
  if ns.all fun n => (u.pages n).isSome then set { u with pages := fun k => if k ∈ ns then none else u.pages k }
  else if !guarded then throw (.of .badKey)

end Unshared

/-! ### Places -/

namespace Paged

def unshared (p : Paged) (c : Commons) : Unshared where
  pages n := (p.pages[n]?).map c.page
  initialized := p.initialized
  backing := p.backing
  stack := p.stack

/-- Each place of a memory is in the table, and holds a page that begins where its number says. -/
def Placed (p : Paged) (c : Commons) : Prop :=
  ∀ n i : Nat, p.pages[n]? = some i → i < c.pages.size ∧ (c.page i).base = n * pageSize

def Owns (p : Paged) (i : Nat) : Prop := ∃ n, p.owned.contains n = true ∧ p.pages[n]? = some i

/-- What work on a memory may do to the table of all pages and to its own places: new places are put at the end, of the others only
those that the memory owns change, and it comes to hold or own none but new ones. -/
structure Moves (p : Paged) (c : Commons) (p' : Paged) (c' : Commons) : Prop where
  grows : c.pages.size ≤ c'.pages.size
  keeps : ∀ i < c.pages.size, ¬ p.Owns i → c'.page i = c.page i
  holds : ∀ n i : Nat, p'.pages[n]? = some i → p.pages[n]? = some i ∨ c.pages.size ≤ i
  owns : ∀ i, p'.Owns i → p.Owns i ∨ c.pages.size ≤ i
  gains : ∀ n, p.owned.contains n = true → p'.owned.contains n = true
  checked : p'.checked = p.checked

variable {p p' : Paged} {c c' : Commons} {n i : Nat} {pg : Page} {u : Unshared} {f : Page → Page} {b : Backing} {guarded : Bool}

lemma Moves.refl (p : Paged) (c : Commons) : Moves p c p c :=
  ⟨le_rfl, fun _ _ _ => rfl, fun _ _ h => .inl h, fun _ h => .inl h, fun _ h => h, rfl⟩

lemma Moves.trans {p'' : Paged} {c'' : Commons} (h : Moves p c p' c') (h' : Moves p' c' p'' c'') : Moves p c p'' c'' := by
  refine ⟨h.grows.trans h'.grows, fun i hi ho => ?_, fun n i hi => ?_, fun i hi => ?_,
    fun n hn => h'.gains n (h.gains n hn), h'.checked.trans h.checked⟩
  · have ho' : ¬ p'.Owns i := fun hn => (h.owns i hn).elim ho fun hle => absurd hi (Nat.not_lt.2 hle)
    rw [h'.keeps i (hi.trans_le h.grows) ho', h.keeps i hi ho]
  · obtain hi | hi := h'.holds n i hi
    · exact h.holds n i hi
    · exact .inr (h.grows.trans hi)
  · obtain hi | hi := h'.owns i hi
    · exact h.owns i hi
    · exact .inr (h.grows.trans hi)

lemma Placed.inj (h : p.Placed c) {k} (hn : p.pages[n]? = some i) (hk : p.pages[k]? = some i) : n = k := by
  have e := (h n i hn).2.symm.trans (h k i hk).2
  simp only [pageSize] at e
  omega

lemma placed_of_pages (h : p.Placed c) (hp : p'.pages = p.pages) (hc : c'.pages = c.pages) : p'.Placed c' := by
  intro n i hi
  rw [Commons.page, hc]
  exact h n i (hp ▸ hi)

lemma moves_of_pages (hp : p'.pages = p.pages) (ho : p'.owned = p.owned) (hch : p'.checked = p.checked)
    (hc : c'.pages = c.pages) : Moves p c p' c' := by
  refine ⟨Nat.le_of_eq (by rw [hc]), fun i _ _ => by rw [Commons.page, Commons.page, hc],
    fun n i h => .inl (hp ▸ h), fun i h => .inl ?_, fun n h => ho ▸ h, hch⟩
  rwa [Owns, hp, ho] at h

/-! ### Refinement -/

/-- The results of work on a paged memory and of work on its contents: the same value or fault, and contents in the end
that are those of the memory in the end. -/
inductive Mirrors {α : Type} (p : Paged) (c : Commons) : Result Fault (Paged × Commons) α → Result Fault Unshared α → Prop
  | ok {a : α} {p' : Paged} {c' : Commons} : Moves p c p' c' → p'.Placed c' → Mirrors p c (.ok a (p', c')) (.ok a (p'.unshared c'))
  | error {f : Fault} {p' : Paged} {c' : Commons} : Moves p c p' c' → p'.Placed c' →
    Mirrors p c (.error f (p', c')) (.error f (p'.unshared c'))

/-- Work on a paged memory that does to its contents what other work does to an unshared memory. -/
def Refines {α : Type} (x : PagedM α) (y : UnsharedM α) : Prop := ∀ p c, p.Placed c → Mirrors p c (x (p, c)) (y (p.unshared c))

section
variable {α β : Type} {p : Paged} {c : Commons} {s : Paged × Commons} {q : Prop} {x x' : PagedM α} {y y' : UnsharedM α} {f : α → PagedM β}

lemma Mirrors.after {r} {s : Result Fault Unshared α} (hm : Moves p c p' c') (h : Mirrors p' c' r s) : Mirrors p c r s := by
  cases h with
  | ok h hp => exact .ok (hm.trans h) hp
  | error h hp => exact .error (hm.trans h) hp

lemma Mirrors.ite [Decidable q] (h : Mirrors p c (x s) (y u))
    (h' : Mirrors p c (x' s) (y' u)) : Mirrors p c ((if q then x else x') s) ((if q then y else y') u) := by
  split
  · exact h
  · exact h'

lemma Refines.run_ok (h : Refines x y) (hp : p.Placed c) {a} (hy : y (p.unshared c) = .ok a u) :
    ∃ p' c', x (p, c) = .ok a (p', c') ∧ p'.unshared c' = u ∧ Moves p c p' c' ∧ p'.Placed c' := by
  have h := h p c hp
  rw [hy] at h
  generalize x (p, c) = r at h
  cases h with
  | ok hm hp' => exact ⟨_, _, rfl, rfl, hm, hp'⟩

lemma Refines.pure (a : α) : Refines (pure a) (pure a) := fun p c hp => .ok (.refl p c) hp

lemma Refines.throw (f : Fault) : Refines (throw f : PagedM α) (throw f) := fun p c hp => .error (.refl p c) hp

lemma Refines.bind {g} (hx : Refines x y) (hf : ∀ a, Refines (f a) (g a)) : Refines (x >>= f) (y >>= g) := by
  intro p c hp
  have h := hx p c hp
  change Mirrors p c (EStateM.bind x f (p, c)) (EStateM.bind y g (p.unshared c))
  rw [EStateM.bind, EStateM.bind]
  generalize x (p, c) = r, y (p.unshared c) = s at h
  cases h with
  | ok hm hp' => exact (hf _ _ _ hp').after hm
  | error hm hp' => exact .error hm hp'

lemma Refines.forM {f g} (h : ∀ a, Refines (f a) (g a)) (l : List α) : Refines (l.forM f) (l.forM g) := by
  induction l with
  | nil => exact .pure ()
  | cons a l ih => exact (h a).bind fun _ => ih

lemma Refines.ite [Decidable q] (h : Refines x y) (h' : Refines x' y') : Refines (if q then x else x') (if q then y else y') :=
  fun p c hp => .ite (h p c hp) (h' p c hp)

/-- Whether all that concerns pages is the same before and after. -/
structure SamePages (s t : Paged × Commons) : Prop where
  intro ::
  pages : t.1.pages = s.1.pages
  owned : t.1.owned = s.1.owned
  initialized : t.1.initialized = s.1.initialized
  backing : t.1.backing = s.1.backing
  stack : t.1.stack = s.1.stack
  checked : t.1.checked = s.1.checked
  table : t.2.pages = s.2.pages

def Aside (x : PagedM α) : Prop := ∀ s, ∃ a t, x s = .ok a t ∧ SamePages s t

lemma Aside.pure (a : α) : Aside (pure a) := fun s => ⟨a, s, rfl, .intro rfl rfl rfl rfl rfl rfl rfl⟩

lemma Aside.get : Aside get := fun s => ⟨s, s, rfl, .intro rfl rfl rfl rfl rfl rfl rfl⟩

lemma Aside.modify {f} (h : ∀ s, SamePages s (f s)) : Aside (modify f) := fun s => ⟨(), f s, rfl, h s⟩

lemma Aside.bind (hx : Aside x) (hf : ∀ a, Aside (f a)) : Aside (x >>= f) := by
  intro s
  obtain ⟨a, t, ht, h⟩ := hx s
  obtain ⟨b, u, hu, h'⟩ := hf a t
  refine ⟨b, u, ?_, h'.pages.trans h.pages, h'.owned.trans h.owned, h'.initialized.trans h.initialized,
    h'.backing.trans h.backing, h'.stack.trans h.stack, h'.checked.trans h.checked, h'.table.trans h.table⟩
  rw [bind_of_ok ht, hu]

lemma Aside.ite [Decidable q] {y} (hx : Aside x) (hy : Aside y) : Aside (if q then x else y) := by
  split
  · exact hx
  · exact hy

lemma Aside.forM {f} (h : ∀ a, Aside (f a)) (l : List α) : Aside (l.forM f) := by
  induction l with
  | nil => exact .pure ()
  | cons a l ih => exact (h a).bind fun _ => ih

lemma SamePages.unshared {t : Paged × Commons} (h : SamePages s t) : t.1.unshared t.2 = s.1.unshared s.2 := by
  have hpage : t.2.page = s.2.page := by
    funext i
    rw [Commons.page, Commons.page, h.table]
  rw [Paged.unshared, Paged.unshared, h.pages, hpage, h.initialized, h.backing, h.stack]

lemma Aside.refines {x} (h : Aside x) : Refines x (Pure.pure ()) := by
  intro p c hp
  obtain ⟨a, ⟨p', c'⟩, hx, hsame⟩ := h (p, c)
  rw [hx]
  have hu : p'.unshared c' = p.unshared c := hsame.unshared
  rw [← hu]
  exact .ok (moves_of_pages hsame.pages hsame.owned hsame.checked hsame.table) (placed_of_pages hp hsame.pages hsame.table)

end

/-! ### Pages put and changed -/

lemma page_push_of_lt (h : i < c.pages.size) (pg) : ({ c with pages := c.pages.push pg } : Commons).page i = c.page i := by
  simp only [Commons.page, getD_eq_getD_getElem?, getElem?_push, Nat.ne_of_lt h, if_false]

lemma extends_push (c : Commons) (pg) : c.Extends { c with pages := c.pages.push pg } :=
  ⟨by simp, fun _ hi => page_push_of_lt hi pg⟩

lemma page_push_size (c : Commons) (pg) : ({ c with pages := c.pages.push pg } : Commons).page c.pages.size = pg := by
  simp [Commons.page, getD_eq_getD_getElem?]

lemma put_spec (hp : p.Placed c) (hb : pg.base = n * pageSize) (owned : Std.TreeSet Nat)
    (ho : ∀ k, owned.contains k = true → k = n ∨ p.owned.contains k = true)
    (ho' : ∀ k, p.owned.contains k = true → owned.contains k = true) :
    let p' := { p with pages := p.pages.insert n c.pages.size, owned }
    let c' := { c with pages := c.pages.push pg }
    Moves p c p' c' ∧ p'.Placed c' ∧ p'.unshared c' = (p.unshared c).setPage n pg := by
  have hget : ∀ k, (p.pages.insert n c.pages.size)[k]? = if k = n then some c.pages.size else p.pages[k]? := by
    intro k
    rw [Std.TreeMap.getElem?_insert]
    by_cases h : k = n
    · simp [h]
    · simp [h, Ne.symm h]
  refine ⟨⟨?_, fun i hi _ => page_push_of_lt hi pg, fun k i hi => ?_, fun i hi => ?_, ho', rfl⟩, fun k i hi => ?_, ?_⟩
  · simp
  · rw [hget] at hi
    split at hi
    · exact .inr (Nat.le_of_eq (some.inj hi))
    · exact .inl hi
  · obtain ⟨k, hk, hi⟩ := hi
    rw [hget] at hi
    split at hi
    · exact .inr (Nat.le_of_eq (some.inj hi))
    · rename_i hne
      exact .inl ⟨k, (ho k hk).resolve_left hne, hi⟩
  · rw [hget] at hi
    split at hi
    · rename_i hk
      cases hi
      rw [page_push_size, hk]
      exact ⟨by simp, hb⟩
    · obtain ⟨hlt, hbase⟩ := hp k i hi
      rw [page_push_of_lt hlt]
      exact ⟨by simp only [size_push]; omega, hbase⟩
  · rw [unshared]
    congr 1
    funext k
    change ((p.pages.insert n c.pages.size)[k]?).map _ = if k = n then some pg else (p.pages[k]?).map c.page
    rw [hget]
    split
    · rw [map_some, page_push_size]
    · cases hk : p.pages[k]? with
      | none => rfl
      | some i => rw [map_some, map_some, page_push_of_lt (hp k i hk).1]

lemma page_modify {k} (h : i < c.pages.size) (f : Page → Page) :
    ({ c with pages := c.pages.modify i f } : Commons).page k = if k = i then f (c.page k) else c.page k := by
  simp only [Commons.page, Array.getD_eq_getD_getElem?, Array.getElem?_modify]
  by_cases hk : k = i
  · subst hk
    simp [h]
  · simp [hk, Ne.symm hk]

lemma edit_spec (hp : p.Placed c) (hi : p.pages[n]? = some i) (ho : p.owned.contains n = true)
    (hf : ∀ pg, (f pg).base = pg.base) :
    Moves p c p { c with pages := c.pages.modify i f } ∧ p.Placed { c with pages := c.pages.modify i f } ∧
    p.unshared { c with pages := c.pages.modify i f } = (p.unshared c).setPage n (f (c.page i)) := by
  have hlt := (hp n i hi).1
  refine ⟨⟨?_, fun k _ hk => ?_, fun _ _ h => .inl h, fun _ h => .inl h, fun _ h => h, rfl⟩, fun k j hj => ?_, ?_⟩
  · simp
  · rw [page_modify hlt, if_neg]
    rintro rfl
    exact hk ⟨n, ho, hi⟩
  · obtain ⟨hlt', hbase⟩ := hp k j hj
    refine ⟨by simpa using hlt', ?_⟩
    rw [page_modify hlt]
    split
    · rw [hf, hbase]
    · exact hbase
  · rw [unshared]
    congr 1
    funext k
    change (p.pages[k]?).map _ = if k = n then some (f (c.page i)) else (p.pages[k]?).map c.page
    by_cases hk : k = n
    · subst hk
      rw [if_pos rfl, hi, map_some, page_modify hlt, if_pos rfl]
    · rw [if_neg hk]
      cases hj : p.pages[k]? with
      | none => rfl
      | some j =>
        have hne : j ≠ i := fun e => hk (hp.inj (e ▸ hj) hi)
        rw [map_some, map_some, page_modify hlt, if_neg hne]

/-! ### Pages looked for -/

/-- What holds of an empty page of the backing and stays so as bytes are laid over it holds of the page that is loaded. -/
lemma load_induction {P : Page → Prop} (empty : ∀ prot, P { base := n * pageSize, protection := .lit 3 prot })
    (lay : ∀ pg bytes start, P pg → P (pg.overwrite (.ofBits (.ofBytes bytes) start))) (h : load b n = some pg) : P pg := by
  suffices H : ∀ (segments : List (Nat × ByteArray)) found, (∀ pg, found = some pg → P pg) →
      ∀ pg, segments.foldl (loadSegment b n) found = some pg → P pg from
    H b.segments none (by simp) pg h
  intro segments
  induction segments with
  | nil => exact fun found hf pg h => hf pg h
  | cons seg segments ih =>
    intro found hf
    refine ih _ fun pg hpg => ?_
    simp only [loadSegment] at hpg
    split at hpg
    · exact hf pg hpg
    · cases hpg
      apply lay
      cases found with
      | none => exact empty _
      | some pg => exact hf pg rfl

lemma load_base (h : load b n = some pg) : pg.base = n * pageSize :=
  load_induction (fun _ => rfl) (fun pg _ _ hb => (Page.overwrite_base pg _).trans hb) h

lemma fresh?_base {create : Bool} (h : p.fresh? n create = some pg) : pg.base = n * pageSize := by
  rw [fresh?, orElse_eq_some] at h
  obtain h | ⟨-, h⟩ := h
  · split at h
    · cases h
    · exact load_base h
  · split at h
    · cases h
      rfl
    · cases h

/-- **Looking for a page** does to the contents what it does to an unshared memory, and gives the place of the page that is found.
-/
theorem page?_spec (hp : p.Placed c) (n : Nat) (write create) : ∃ r p' c', page? n write create (p, c) = .ok r (p', c') ∧
    Moves p c p' c' ∧ p'.Placed c' ∧ Unshared.lookup n create (p.unshared c) = .ok (r.map c'.page) (p'.unshared c') ∧
    c.Extends c' ∧ ∀ i, r = some i → p'.pages[n]? = some i ∧ (write = true → p'.owned.contains n = true) := by
  have hown : ∀ k, (p.owned.insert n).contains k = true → k = n ∨ p.owned.contains k = true := by
    intro k hk
    rw [Std.TreeSet.contains_insert, Bool.or_eq_true] at hk
    exact hk.imp (fun h => (compare_eq_iff_eq.1 (beq_iff_eq.1 h)).symm) id
  have hown' : ∀ k, p.owned.contains k = true → (p.owned.insert n).contains k = true := fun k hk => by
    rw [Std.TreeSet.contains_insert, hk, Bool.or_true]
  cases hn : p.pages[n]? with
  | some i =>
    have hlook : Unshared.lookup n create (p.unshared c) = .ok (some (c.page i)) (p.unshared c) := by simp [Unshared.lookup, unshared, hn]
    by_cases hw : (write && !p.owned.contains n) = true
    · -- a page that others may hold is copied first
      obtain ⟨hm, hp', hu⟩ := put_spec hp (hp n i hn).2 _ hown hown'
      refine ⟨some c.pages.size, _, _, ?_, hm, hp', ?_, extends_push c _, ?_⟩
      · simp only [page?, bind_get, hn, hw]
        rfl
      · rw [hlook, hu, Option.map_some, page_push_size, Unshared.setPage_self]
        simp [unshared, hn]
      · rintro j hj
        cases hj
        simp
    · refine ⟨some i, p, c, ?_, .refl p c, hp, hlook, .refl c, fun j hj => ⟨hj ▸ hn, fun hwr => ?_⟩⟩
      · simp only [page?, bind_get, hn, hw]
        rfl
      · simpa [hwr] using hw
  | none =>
    -- the page is looked for in the backing from now on
    let q := { p with initialized := p.initialized.insert n }
    have hq : q.Placed c := placed_of_pages hp rfl rfl
    have hmq : Moves p c q c := moves_of_pages rfl rfl rfl rfl
    have hnone : (p.unshared c).pages n = none := by simp [unshared, hn]
    cases hf : p.fresh? n create with
    | none =>
      refine ⟨none, q, c, ?_, hmq, hq, ?_, .refl c, by simp⟩
      · simp only [page?, bind_get, hn, hf]
        rfl
      · rw [Unshared.lookup, hnone]
        simp only [show (p.unshared c).fresh? n create = none from hf]
        rfl
    | some pg =>
      obtain ⟨hm, hp', hu⟩ := put_spec hq (fresh?_base hf) _ hown hown'
      refine ⟨some c.pages.size, _, _, ?_, hmq.trans hm, hp', ?_, extends_push c _, ?_⟩
      · simp only [page?, bind_get, hn, hf]
        rfl
      · rw [Unshared.lookup, hnone, hu, Option.map_some, page_push_size]
        simp only [show (p.unshared c).fresh? n create = some pg from hf]
        rfl
      · rintro j hj
        cases hj
        simp

section
variable {α : Type}

lemma Refines.bind_page? {write create} {x : Option Nat → PagedM α} {y} (none : Refines (x none) (y none))
    (some : ∀ i p c, p.Placed c → p.pages[n]? = some i → (write = true → p.owned.contains n = true) →
      Mirrors p c (x (some i) (p, c)) (y (some (c.page i)) (p.unshared c))) :
    Refines (page? n write create >>= x) (Unshared.lookup n create >>= y) := by
  intro p c hp
  obtain ⟨r, p', c', hx, hm, hp', hy, -, hr⟩ := page?_spec hp n write create
  rw [bind_of_ok hx, bind_of_ok hy]
  cases r with
  | none => exact (none p' c' hp').after hm
  | some i => exact (some i p' c' hp' (hr i rfl).1 (hr i rfl).2).after hm

end

/-! ### The operations -/

variable (a : Nat)

lemma at?_refines : Refines (at? a) (Unshared.at? a) := .bind_page? (.pure none) fun _ p c hp _ _ => .ok (.refl p c) hp

lemma has_refines : Refines (has a) (Unshared.has a) := (at?_refines a).bind fun _ => .pure _

variable (strict cut : Bool)

lemma chunks_go_refines {addr ks} : Refines (chunks.go strict cut addr n ks) (Unshared.chunks strict cut addr n ks) := by
  induction ks with
  | nil => exact .pure []
  | cons k ks ih =>
    refine .bind_page? ?_ fun i p c hp _ _ => ?_
    · exact .ite (.ite (.pure []) (.bind (.throw _) fun _ => ih)) ih
    · have rest : Refines (do return (c.page i).slice addr (addr + n) ++ (← chunks.go strict cut addr n ks))
          (do return (c.page i).slice addr (addr + n) ++ (← Unshared.chunks strict cut addr n ks)) :=
        ih.bind fun _ => .pure _
      exact Refines.ite (.ite (.pure []) (.bind (.throw _) fun _ => rest)) rest p c hp

lemma chunks_refines (addr n : Nat) :
    Refines (chunks strict cut addr n) (Unshared.chunks strict cut addr n (pagesOf addr (addr + n))) :=
  chunks_go_refines strict cut

lemma nameCell_aside (v : String) : Aside (nameCell v) := by
  refine .bind .get fun s => ?_
  simp only
  split
  · exact .pure _
  · exact .bind (.modify fun _ => .intro rfl rfl rfl rfl rfl rfl rfl) fun _ => .pure _

lemma editName_aside (v : String) (f) : Aside (editName v f) :=
  .bind (nameCell_aside v) fun _ => .modify fun _ => .intro rfl rfl rfl rfl rfl rfl rfl

lemma forget_aside (vs : List String) : Aside (noteByte.forget a vs) := by
  induction vs with
  | nil => exact .pure ()
  | cons v vs ih =>
    refine .bind .get fun s => .ite (.pure ()) (.bind (editName_aside v _) fun _ => .bind .get fun s => ?_)
    simp only
    split
    · exact .ite (.bind (.modify fun _ => .intro rfl rfl rfl rfl rfl rfl rfl) fun _ => ih) ih
    · exact ih

lemma noteByte_refines (content : Bits) : Refines (noteByte a content) (Unshared.noteByte a content) := by
  have note : Aside (content.symbols.forM fun v => editName v (·.insert a)) := .forM (fun v => editName_aside v _) _
  refine .ite (.pure ()) ((at?_refines a).bind fun r => ?_)
  cases r with
  | none => exact note.refines
  | some ch => exact (forget_aside a ch.content.symbols |>.bind fun _ => note).refines

lemma editPage_mirrors (hp : p.Placed c) (hi : p.pages[n]? = some i) (ho : p.owned.contains n = true)
    (hf : ∀ pg, (f pg).base = pg.base) :
    Mirrors p c (editPage i f (p, c)) ((modify (·.setPage n (f (c.page i))) : UnsharedM Unit) (p.unshared c)) := by
  obtain ⟨hm, hp', hu⟩ := edit_spec hp hi ho hf
  change Mirrors p c (.ok () (p, _)) (.ok () ((p.unshared c).setPage n (f (c.page i))))
  rw [← hu]
  exact .ok hm hp'

lemma putChunk_refines {strict anew ch} : Refines (putChunk strict anew n ch) (Unshared.putChunk strict anew n ch) := by
  refine .bind_page? (.throw _) fun i p c hp hi ho => ?_
  have edit := editPage_mirrors hp hi (ho rfl) (f := fun pg => if anew then pg.overwrite ch else pg.underwrite ch)
    fun pg => by split <;> [exact pg.overwrite_base ch; exact pg.underwrite_base ch]
  exact .ite (.error (.refl p c) hp) edit

lemma store_refines (strict tracking anew ch) :
    Refines (store strict tracking anew ch) (Unshared.store strict tracking anew ch) :=
  (Refines.forM (fun _ => putChunk_refines) _).bind fun _ =>
    .ite (.forM (fun a => noteByte_refines a ch.content) _) (.pure ())

lemma replaceOn_refines (old new n) : Refines (replaceOn old new n) (Unshared.replaceOn old new n) :=
  .bind_page? (.throw _) fun _ _ _ hp hi ho => editPage_mirrors hp hi (ho rfl) fun pg => pg.replace_base old new

lemma replaceChunk_refines {tracking old content} :
    Refines (replaceChunk tracking old content) (Unshared.replaceChunk tracking old content) := by
  have rest := (Refines.forM (replaceOn_refines old (.ofBits content old.base)) (pagesOf old.base old.stop)).bind fun _ =>
    Refines.ite (q := tracking = true) ((Refines.forM (fun a => noteByte_refines a content)
      (range' old.base old.length)).bind fun _ => .pure (Chunk.ofBits content old.base)) (.pure (.ofBits content old.base))
  exact .ite ((Refines.throw _).bind fun _ => rest) rest

lemma refuseMapped_refines (n) : Refines (refuseMapped n) (Unshared.refuseMapped n) :=
  (has_refines (n * pageSize)).bind fun _ => .ite (.throw _) (.pure ())

lemma emptyPage_sound (b n prot) : (emptyPage b n prot).Sound n := ⟨rfl, by simp [emptyPage], by simp [emptyPage]⟩

lemma mappedPage_sound (b prot zero n) : (mappedPage b prot zero n).Sound n := by
  simp only [mappedPage]
  split
  · exact Page.overwrite_sound (emptyPage_sound ..) _
  · exact emptyPage_sound ..

lemma map_refines {addr length prot zero} :
    Refines (map guarded addr length prot zero) (Unshared.map guarded addr length prot zero) := by
  have put := Refines.forM (f := fun n => do discard <| putPage n (mappedPage (← get).1.backing prot zero n))
    (g := fun n => modify fun u => u.setPage n (mappedPage u.backing prot zero n)) (fun n p c hp => by
      obtain ⟨hm, hp', hu⟩ := put_spec hp (mappedPage_sound ..).base p.owned (fun k hk => .inr hk) fun _ hk => hk
      change Mirrors p c (.ok () (_, _)) (.ok () ((p.unshared c).setPage n (mappedPage p.backing prot zero n)))
      rw [← hu]
      exact .ok hm hp') (range' (addr / pageSize) ((length + pageSize - 1) / pageSize))
  exact .ite ((Refines.forM refuseMapped_refines _).bind fun _ => put) put

lemma getElem?_foldl_erase (ns : List Nat) (pages : Std.TreeMap Nat Nat) (k) :
    (ns.foldl (·.erase ·) pages)[k]? = if k ∈ ns then none else pages[k]? := by
  induction ns generalizing pages with
  | nil => rfl
  | cons n ns ih =>
    rw [foldl_cons, ih, Std.TreeMap.getElem?_erase]
    by_cases hk : k ∈ ns
    · simp [hk]
    · by_cases hn : n = k
      · simp [hn]
      · simp [hk, hn, Ne.symm hn]

lemma unmap_refines {addr length} : Refines (unmap guarded addr length) (Unshared.unmap guarded addr length) := by
  intro p c hp
  generalize hns : List.range' (addr / pageSize) ((length + pageSize - 1) / pageSize) = ns
  have hall : (ns.all fun n => ((p.unshared c).pages n).isSome) = ns.all (p.pages.contains ·) := by simp [unshared]
  rw [unmap, Unshared.unmap, hns]
  change Mirrors p c ((if _ then _ else _ : PagedM Unit) (p, c))
    ((if (ns.all fun n => ((p.unshared c).pages n).isSome) then _ else _ : UnsharedM Unit) (p.unshared c))
  rw [hall]
  refine .ite ?_ (.ite (.error (.refl p c) hp) (.ok (.refl p c) hp))
  -- the pages that are left have their places
  let q := { p with pages := ns.foldl (·.erase ·) p.pages }
  have hq : ∀ k i, q.pages[k]? = some i → p.pages[k]? = some i := fun k i hi => by
    rw [getElem?_foldl_erase] at hi
    split at hi
    · cases hi
    · exact hi
  have hu : q.unshared c = { p.unshared c with pages := fun k => if k ∈ ns then none else (p.unshared c).pages k } := by
    rw [unshared]
    congr 1
    funext k
    rw [getElem?_foldl_erase]
    split <;> rfl
  rw [← hu]
  refine .ok ⟨le_rfl, fun _ _ _ => rfl, fun k i hi => .inl (hq k i hi), fun i hi => ?_, fun _ h => h, rfl⟩
    fun k i hi => hp k i (hq k i hi)
  obtain ⟨k, hk, hi⟩ := hi
  exact .inl ⟨k, hk, hq k i hi⟩

end Paged

end SymExec
