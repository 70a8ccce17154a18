import SymExec.Proofs.Fork

/-!
# Where copies of a memory differ

The bytes at which two copies differ are looked for on the pages that one of them holds and the other does not, and on those that
both hold at different places.
-/

namespace SymExec

open List Std.TreeMap Unshared

variable {p : Paged}

namespace Commons.Extends

variable {c c' c'' : Commons}

lemma trans (h : c.Extends c') (h' : c'.Extends c'') : c.Extends c'' := by
  refine ⟨h.grows.trans h'.grows, fun i hi => ?_⟩
  rw [h'.keeps i (hi.trans_le h.grows), h.keeps i hi]

lemma frame (h : c.Extends c') (hp : p.Placed c) : p.Placed c' ∧ p.unshared c' = p.unshared c :=
  hp.frame h.grows fun n i hi => h.keeps i (hp n i hi).1

lemma moves (h : c.Extends c') (p) : Paged.Moves p c p c' :=
  ⟨h.grows, fun i hi _ => h.keeps i hi, fun _ _ hi => .inl hi, fun _ ho => .inl ho, fun _ hn => hn, rfl⟩

end Commons.Extends

namespace Paged

/-! ### Reading two memories at once -/

/-- **Reading an address** gives what the memory shows there, and adds to the table at most. -/
theorem at?_spec {c} (hp : p.Placed c) (a) : ∃ p' c', at? a (p, c) = .ok ((p.unshared c).view a) (p', c') ∧ Moves p c p' c' ∧
    p'.Placed c' ∧ (p.unshared c).Reads (p'.unshared c') ∧ c.Extends c' := by
  obtain ⟨u, hu, hr⟩ := at?_view (p.unshared c) a
  obtain ⟨p', c', hx, rfl, hm, hp'⟩ := (at?_refines a).run_ok hp hu
  refine ⟨p', c', hx, hm, hp', hr, ?_⟩
  obtain ⟨r, p1, c1, hpage, -, -, -, he, -⟩ := page?_spec hp (a / pageSize) false false
  rw [at?, bind_of_ok hpage] at hx
  cases r with
  | none | some i =>
    obtain ⟨-, e⟩ := EStateM.Result.ok.inj hx
    obtain ⟨-, rfl⟩ := Prod.mk.inj e
    exact he

/-- Of the addresses of a list those at which the two memories differ are kept. -/
lemma changedAmong_spec (as : List Nat) {mine other c} (hm : mine.Placed c) (ho : other.Placed c) :
    ∃ mine' c', changedAmong other as (mine, c) =
        .ok (as.filter fun a => differs a ((mine.unshared c).view a) ((other.unshared c).view a)) (mine', c') ∧
      Moves mine c mine' c' ∧ mine'.Placed c' ∧ (mine.unshared c).Reads (mine'.unshared c') ∧ c.Extends c' := by
  induction as generalizing mine other c with
  | nil => exact ⟨mine, c, rfl, .refl mine c, hm, .refl _, .refl c⟩
  | cons a as ih =>
    obtain ⟨mine1, c1, hx, hmoves, hm1, hr, he⟩ := at?_spec hm a
    obtain ⟨ho1, hou⟩ := he.frame ho
    obtain ⟨other2, c2, hy, -, ho2, hr', he'⟩ := at?_spec ho1 a
    obtain ⟨hm2, hmu⟩ := he'.frame hm1
    obtain ⟨mine', c', hrest, hmoves', hm', hr'', he''⟩ := ih hm2 ho2
    refine ⟨mine', c', ?_, (hmoves.trans (he'.moves mine1)).trans hmoves', hm', hr.trans (hmu ▸ hr''), (he.trans he').trans he''⟩
    rw [hou] at hy hr'
    have hfilter : (as.filter fun a => differs a ((mine1.unshared c2).view a) ((other2.unshared c2).view a)) =
        as.filter fun a => differs a ((mine.unshared c).view a) ((other.unshared c).view a) := by
      congr 1
      funext x
      rw [hmu, hr.view, hr'.view]
    rw [hfilter] at hrest
    rw [changedAmong, bind_of_ok hx, bind_get]
    dsimp only [EStateM.run]
    rw [hy]
    dsimp only
    rw [bind_of_ok (show (set (mine1, c2) : PagedM _) (mine1, c1) = .ok ⟨⟩ (mine1, c2) from rfl), bind_of_ok hrest, filter_cons]
    rfl

/-! ### The addresses that are looked at -/

lemma differs_self (a x) : differs a x x = false := by cases x <;> simp [differs]

lemma isSome_of_differs {a x y} (h : differs a x y = true) : x.isSome ∨ y.isSome := by
  cases x with
  | some _ => exact .inl rfl
  | none =>
    cases y with
    | some _ => exact .inr rfl
    | none => simp [differs] at h

end Paged

lemma Page.Sound.mem_keys_iff {pg : Page} {n a : Nat} (h : pg.Sound n) : a ∈ pg.keys ↔ a / pageSize = n ∧ (pg.at? a).isSome := by
  rw [keys, at?]
  split <;> rename_i hw
  · rw [mem_range'_1, h.base, ← mem_page_iff]
    simp [hw]
  · rw [Std.TreeMap.mem_keys, mem_iff_isSome_getElem?, Option.not_isSome_iff_eq_none.1 hw]
    refine ⟨fun ha => ⟨?_, by simpa using ha⟩, fun ha => by simpa using ha.2⟩
    obtain ⟨c, hc⟩ := Option.isSome_iff_exists.1 ha
    exact (h.cell a c hc).1

/-- Memories that came from one: a page that neither holds comes into being alike, and what one of them shows on a page that
it does not hold is there in the other. -/
structure Unshared.Kin (u v : Unshared) : Prop where
  peek : ∀ n, u.pages n = none → v.pages n = none → u.peek n = v.peek n
  left : ∀ x, u.pages (x / pageSize) = none → (u.view x).isSome → (v.view x).isSome
  right : ∀ x, v.pages (x / pageSize) = none → (v.view x).isSome → (u.view x).isSome

lemma Unshared.Reads.kin {u u' v} (hr : Reads u u') (h : Kin u v) : Kin u' v := by
  have hnone : ∀ n, u'.pages n = none → u.pages n = none := fun n hn => by
    cases hu : u.pages n with
    | none => rfl
    | some pg => exact absurd (hn.symm.trans (hr.held n pg hu)) (by simp)
  refine ⟨fun n hu hv => ?_, fun x hu hx => ?_, fun x hv hx => ?_⟩
  · rw [hr.peek, h.peek n (hnone n hu) hv]
  · exact h.left x (hnone _ hu) (hr.view x ▸ hx)
  · rw [hr.view]
    exact h.right x hv hx

namespace Paged

section
variable {p mine other : Paged} {c : Commons} {x i : Nat}

lemma peek_of_held (h : p.pages[x]? = some i) : (p.unshared c).peek x = some (c.page i) := by simp [peek, unshared, h]

lemma view_of_held (h : p.pages[x / pageSize]? = some i) : (p.unshared c).view x = (c.page i).at? x := by
  rw [view, peek_of_held h]
  rfl

lemma mem_keys_of_held (hs : (p.unshared c).Tidy) (h : p.pages[x / pageSize]? = some i)
    (hx : ((p.unshared c).view x).isSome) : x ∈ (c.page i).keys :=
  (hs _ _ (peek_of_held h)).mem_keys_iff.2 ⟨rfl, view_of_held h ▸ hx⟩

lemma mem_candidates (hm : (mine.unshared c).Tidy) (ho : (other.unshared c).Tidy) (hk : (mine.unshared c).Kin (other.unshared c))
    (hd : differs x ((mine.unshared c).view x) ((other.unshared c).view x) = true) : x ∈ candidates mine other c := by
  have hne : (mine.unshared c).view x ≠ (other.unshared c).view x := fun e => by
    rw [e, differs_self] at hd
    cases hd
  have hsome := isSome_of_differs hd
  have hkey : ∀ (q : Paged) (j : Nat), q.pages[x / pageSize]? = some j → x / pageSize ∈ q.pages.keys := fun q j hj => by
    rw [Std.TreeMap.mem_keys, Std.TreeMap.mem_iff_isSome_getElem?, hj]
    rfl
  have hnone : ∀ q : Paged, q.pages[x / pageSize]? = none → (q.unshared c).pages (x / pageSize) = none := fun q hq => by simp [unshared, hq]
  rw [candidates, mem_flatMap]
  refine ⟨x / pageSize, ?_, ?_⟩
  · rw [mem_eraseDups, mem_append]
    cases hi : mine.pages[x / pageSize]? with
    | some i => exact .inl (hkey mine i hi)
    | none =>
      cases hj : other.pages[x / pageSize]? with
      | some j => exact .inr (hkey other j hj)
      | none =>
        -- neither holds the page, which then comes into being alike
        refine absurd ?_ hne
        rw [view, view, hk.peek _ (hnone mine hi) (hnone other hj)]
  · cases hi : mine.pages[x / pageSize]? with
    | some i =>
      cases hj : other.pages[x / pageSize]? with
      | some j =>
        rw [view_of_held hi, view_of_held hj] at hne
        have hij : i ≠ j := fun e => hne (by rw [e])
        simp only [hij, if_false, List.mem_filter, mem_eraseDups, mem_append, decide_eq_true_eq]
        exact ⟨hsome.imp (mem_keys_of_held hm hi) (mem_keys_of_held ho hj), hne⟩
      | none => exact mem_keys_of_held hm hi (hsome.elim id (hk.right x (hnone other hj)))
    | none =>
      cases hj : other.pages[x / pageSize]? with
      | some j => exact mem_keys_of_held ho hj (hsome.elim (hk.left x (hnone mine hi)) id)
      | none =>
        refine absurd ?_ hne
        rw [view, view, hk.peek _ (hnone mine hi) (hnone other hj)]

/-- **The addresses that are found** are those at which the two memories differ. -/
theorem changed_spec (hm : mine.Placed c) (ho : other.Placed c) (hms : (mine.unshared c).Tidy) (hos : (other.unshared c).Tidy)
    (hk : (mine.unshared c).Kin (other.unshared c)) : ∃ as mine' c', changed other (mine, c) = .ok as (mine', c') ∧
    Moves mine c mine' c' ∧ mine'.Placed c' ∧ (mine.unshared c).Reads (mine'.unshared c') ∧ c.Extends c' ∧ ∀ x, x ∈ as ↔
    differs x ((mine.unshared c).view x) ((other.unshared c).view x) = true := by
  obtain ⟨mine', c', hrun, hmoves, hm', hr, he⟩ := changedAmong_spec ((candidates mine other c).mergeSort (· ≤ ·)) hm ho
  refine ⟨_, mine', c', hrun, hmoves, hm', hr, he, fun x => ?_⟩
  rw [mem_filter, mem_mergeSort]
  exact ⟨fun h => h.2, fun h => ⟨mem_candidates hms hos hk h, h⟩⟩

end

end Paged

/-! ### Memories that are only stored to -/

namespace Unshared

/-- A memory as stores of whole bytes leave it: its chunks are sound and no longer than an address can count, and wherever
one of them shows there is something over all of its range. -/
structure Regular (bits : Nat) (u : Unshared) : Prop where
  sound : u.Sound
  unbroken : ∀ a c, u.view a = some c → ∀ x, c.covers x = true → (u.view x).isSome
  fits : ∀ a c, u.view a = some c → c.length < 2 ^ bits

/-- What stores leave of the memory that they began with: pages that are not held are those of then, and no byte is gone. -/
structure Descends (o u : Unshared) : Prop where
  peek : ∀ n, u.pages n = none → u.peek n = o.peek n
  shown : ∀ x, (o.view x).isSome → (u.view x).isSome

variable {u : Unshared}

lemma Descends.refl (u : Unshared) : Descends u u := ⟨fun _ _ => rfl, fun _ h => h⟩

lemma Descends.trans {v w} (h : Descends u v) (h' : Descends v w) (hheld : ∀ n, w.pages n = none → v.pages n = none) :
    Descends u w :=
  ⟨fun n hn => (h'.peek n hn).trans (h.peek n (hheld n hn)), fun x hx => h'.shown x (h.shown x hx)⟩

lemma Descends.kin {o v} (hu : Descends o u) (hv : Descends o v) : Kin u v := by
  have hview : ∀ {w}, Descends o w → ∀ x, w.pages (x / pageSize) = none → w.view x = o.view x := fun hw x hn => by
    rw [view, view, hw.peek _ hn]
  refine ⟨fun n hun hvn => ?_, fun x hn hx => ?_, fun x hn hx => ?_⟩
  · rw [hu.peek n hun, hv.peek n hvn]
  · exact hv.shown x (hview hu x hn ▸ hx)
  · exact hu.shown x (hview hv x hn ▸ hx)

/-- **A store of whole bytes** keeps a memory regular. -/
theorem store_regular {bits} (hu : u.Regular bits) (tracking) {c} (hc : 0 < c.length → c.Sound)
    (hfits : c.length < 2 ^ bits) : ∃ v, store false tracking true c u = .ok () v ∧ v.Regular bits ∧ Descends u v ∧
      (∀ n, v.pages n = none → u.pages n = none) ∧ ∀ a, v.view a = if c.covers a then some c else u.view a := by
  obtain ⟨v, hv, -, hsound, held, hview⟩ := store_view hu.sound tracking hc
  obtain ⟨v', hv', -, hpeek, -, htouched⟩ := store_run u tracking true c
  obtain ⟨-, rfl⟩ := EStateM.Result.ok.inj (hv'.symm.trans hv)
  have shown : ∀ x, (u.view x).isSome → (v'.view x).isSome := fun x hx => by
    rw [hview]
    split
    · rfl
    · exact hx
  refine ⟨v', hv, ⟨hsound, fun a d hd x hx => ?_, fun a d hd => ?_⟩, ⟨fun n hn => ?_, shown⟩, fun n hn => ?_, hview⟩
  · rw [hview] at hd
    split at hd
    · cases hd
      rw [hview, if_pos hx]
      rfl
    · exact shown x (hu.unbroken a d hd x hx)
  · rw [hview] at hd
    split at hd
    · cases hd
      exact hfits
    · exact hu.fits a d hd
  · refine hpeek n fun hin => ?_
    rw [htouched n hin] at hn
    cases hn
  · cases hun : u.pages n with
    | none => rfl
    | some pg =>
      have h := held n pg hun
      rw [hn] at h
      cases h

end Unshared

/-- A store of whole bytes, no more of them than an address can count, on which no protection is enforced. -/
def Paged.Access.Plain (bits : Nat) : Access → Prop
  | store strict _ anew c => strict = false ∧ anew = true ∧ (0 < c.length → c.Sound) ∧ c.length < 2 ^ bits
  | _ => False

namespace Family

open Paged

def lay (V : View) : Access → View
  | .store _ _ _ c => c.over V
  | _ => V

variable {bits : Nat} {es : List Event} {m : Paged} {c : Commons}

lemma play_regular {u} (hu : u.Regular bits) (xs : List Access) (hxs : ∀ x ∈ xs, x.Plain bits) : (play u xs).Regular bits ∧
    u.Descends (play u xs) ∧ (∀ n, (play u xs).pages n = none → u.pages n = none) ∧ (play u xs).view = xs.foldl lay u.view := by
  induction xs generalizing u with
  | nil => exact ⟨hu, .refl u, fun _ h => h, rfl⟩
  | cons x xs ih =>
    have hx := hxs x (by simp)
    match x, hx with
    | .store _ tracking _ c, ⟨rfl, rfl, hc, hfits⟩ =>
      obtain ⟨v, hv, hregular, hdescends, hheld, hview⟩ := store_regular hu tracking hc hfits
      obtain ⟨h, h', h'', hall⟩ := ih hregular fun y hy => hxs y (.tail _ hy)
      have hleaves : leaves (Unshared.store false tracking true c) u = v := by rw [leaves, hv]
      have hplay : play u (.store false tracking true c :: xs) = play v xs := by exact congrArg (fun v => play v xs) hleaves
      rw [hplay]
      refine ⟨h, hdescends.trans h' h'', fun n hn => hheld n (h'' n hn), hall.trans ?_⟩
      rw [funext hview]
      rfl

def Event.Plain (bits : Nat) : Event → Prop
  | branch _ => True
  | act _ x => x.Plain bits

lemma plain_record {ls} (hls : ∀ xs ∈ ls, ∀ x ∈ xs, x.Plain bits) {e} (he : e.Plain bits) :
    ∀ xs ∈ record ls e, ∀ x ∈ xs, x.Plain bits := by
  cases e with
  | branch i =>
    intro xs hxs
    rw [record] at hxs
    split at hxs
    · exact hls xs hxs
    · rename_i ys hys
      obtain hxs | hxs := mem_append.1 hxs
      · exact hls xs hxs
      · rw [mem_singleton.1 hxs]
        exact hls ys (mem_of_getElem? hys)
  | act i x =>
    intro xs hxs y hy
    obtain ⟨k, hk⟩ := mem_iff_getElem?.1 hxs
    rw [record, getElem?_modify] at hk
    obtain ⟨ys, hys, rfl⟩ := Option.map_eq_some_iff.1 hk
    have hmem := hls ys (mem_of_getElem? hys)
    split at hy
    · obtain hy | hy := mem_append.1 hy
      · exact hmem y hy
      · rw [mem_singleton.1 hy]
        exact he
    · exact hmem y hy

lemma plain_lines (hes : ∀ e ∈ es, e.Plain bits) : ∀ xs ∈ lines es, ∀ x ∈ xs, x.Plain bits := by
  suffices H : ∀ ls : List (List Access), (∀ xs ∈ ls, ∀ x ∈ xs, x.Plain bits) → ∀ xs ∈ es.foldl record ls, ∀ x ∈ xs, x.Plain bits from
    H [[]] fun xs hxs x hx => by
      rw [mem_singleton.1 hxs] at hx
      cases hx
  induction es with
  | nil => exact fun ls hls => hls
  | cons e es ih =>
    intro ls hls
    exact ih (fun e' he' => hes e' (.tail _ he')) _ (plain_record hls (hes e (by simp)))

section
variable (hm : m.Placed c) (hu : (m.unshared c).Regular bits) (hes : ∀ e ∈ es, e.Plain bits)
include hm hu hes

lemma member_regular (hp : p ∈ (run ⟨[m], c⟩ es).members) : (p.unshared (run ⟨[m], c⟩ es).commons).Regular bits ∧
    (m.unshared c).Descends (p.unshared (run ⟨[m], c⟩ es).commons) := by
  have hmem : p.unshared (run ⟨[m], c⟩ es).commons ∈ (run ⟨[m], c⟩ es).contents := mem_map.2 ⟨p, hp, rfl⟩
  rw [contents_run hm, mem_map] at hmem
  obtain ⟨xs, hxs, e⟩ := hmem
  obtain ⟨h, h', -⟩ := play_regular hu xs (plain_lines hes xs hxs)
  rw [← e]
  exact ⟨h, h'⟩

/-- What the copies show: the chunks of the stores in their lines, the last on top. -/
lemma views_run : (run ⟨[m], c⟩ es).contents.map (·.view) = (lines es).map fun xs => xs.foldl lay (m.unshared c).view := by
  rw [contents_run hm, map_map]
  exact map_congr_left fun xs hxs => (play_regular hu xs (plain_lines hes xs hxs)).2.2.2

/-- Memories that were copied from a regular one and then stored to, in any order: different members of a family to which
nothing happened but copies and stores of whole bytes. -/
def Forked (bits : Nat) (ps : List Paged) (c : Commons) : Prop :=
  ∃ (origin : Paged) (c₀ : Commons) (es : List Event) (ks : List Nat), origin.Placed c₀ ∧
    (origin.unshared c₀).Regular bits ∧ (∀ e ∈ es, e.Plain bits) ∧ ks.Nodup ∧
    ps.map some = ks.map ((run ⟨[origin], c₀⟩ es).members[·]?) ∧ c = (run ⟨[origin], c₀⟩ es).commons

lemma forked_members : Forked bits (run ⟨[m], c⟩ es).members (run ⟨[m], c⟩ es).commons := by
  refine ⟨m, c, es, range (run ⟨[m], c⟩ es).members.length, hm, hu, hes, nodup_range, ?_, rfl⟩
  refine ext_getElem (by simp) fun i h1 h2 => ?_
  simp

end

/-- **Memories that were copied from one** are regular, of one kin, and hold no page that another owns. -/
theorem Forked.spec {qs} (h : Forked bits (p :: qs) c) : p.Placed c ∧ (p.unshared c).Regular bits ∧
      ∀ q ∈ qs, q.Placed c ∧ (q.unshared c).Regular bits ∧ Apart p q ∧ (p.unshared c).Kin (q.unshared c) := by
  obtain ⟨origin, c₀, es, ks, hplaced, hregular, hes, hnodup, hps, rfl⟩ := h
  have hsound := (run_spec (sound_singleton hplaced) es).1
  have member : ∀ (k : Nat) (q : Paged), (run ⟨[origin], c₀⟩ es).members[k]? = some q → q.Placed (run ⟨[origin], c₀⟩ es).commons ∧
      (q.unshared (run ⟨[origin], c₀⟩ es).commons).Regular bits ∧
      (origin.unshared c₀).Descends (q.unshared (run ⟨[origin], c₀⟩ es).commons) := fun k q hk =>
    ⟨hsound.placed k q hk, member_regular hplaced hregular hes (mem_of_getElem? hk)⟩
  cases ks with
  | nil => cases hps
  | cons k ks =>
    obtain ⟨hk, hks⟩ := cons.inj hps
    obtain ⟨hp, hr, hd⟩ := member k p hk.symm
    refine ⟨hp, hr, fun q hq => ?_⟩
    have hmem : some q ∈ ks.map ((run ⟨[origin], c₀⟩ es).members[·]?) := hks ▸ mem_map_of_mem hq
    obtain ⟨j, hj, hjq⟩ := mem_map.1 hmem
    obtain ⟨hq', hr', hd'⟩ := member j q hjq
    have hne : k ≠ j := fun e => (nodup_cons.1 hnodup).1 (e ▸ hj)
    exact ⟨hq', hr', hsound.apart k j p q hne hk.symm hjq, hd.kin hd'⟩

end Family

end SymExec
