import Mathlib.Data.List.Sort
import SymExec.Proofs.Sides

/-!
# Merging memories
-/

namespace SymExec

open List Chunk

namespace Exec

section
variable {r : Region} {S : Scene} {m : Memory} {others : List Memory} {conds : List Cond}

/-- **The addresses at which other memories differ** from that of the scene, one list for each of them. -/
theorem mapM_changed_does (hS : S.Ready m)
    (hothers : ∀ o ∈ others, o.paged.Placed S.commons ∧ (o.paged.unshared S.commons).Sound ∧
      (S.contents m).Kin (o.paged.unshared S.commons)) :
    Does r S (others.mapM fun o => onPages r (Paged.changed o.paged)) fun as T => (∀ x, x ∈ as.flatten ↔
        ∃ o ∈ others, Paged.differs x ((S.contents m).view x) ((o.paged.unshared S.commons).view x) = true) ∧
      ∃ p k, T = S.withPages m p k ∧ T.Ready { m with paged := p } ∧ Paged.Moves m.paged S.commons p k ∧
        S.commons.Extends k ∧ (S.contents m).Reads (p.unshared k) := by
  induction others generalizing S m with
  | nil =>
    refine .pure ⟨fun x => by simp, m.paged, S.commons, ?_, hS, .refl _ _, .refl _, .refl _⟩
    rw [Scene.withPages, ← hS.memory]
  | cons o others ih =>
    obtain ⟨hplaced, hsound, hkin⟩ := hothers o (by simp)
    obtain ⟨found, p, k, hrun, hm, hp, hreads, hext, hfound⟩ := Paged.changed_spec hS.placed hplaced hS.sound.page hsound.page hkin
    have hready := hS.withPages hm hp (hreads.sound hS.sound)
    -- what the others have is not touched, so that the rest is looked for as from the beginning
    have hothers' : ∀ o' ∈ others, o'.paged.Placed k ∧ o'.paged.unshared k = o'.paged.unshared S.commons := fun o' ho' =>
      hext.frame (hothers o' (.tail _ ho')).1
    have hrest := ih hready fun o' ho' => by
      obtain ⟨hp', hu'⟩ := hothers' o' ho'
      obtain ⟨-, hsound', hkin'⟩ := hothers o' (.tail _ ho')
      rw [Scene.withPages, hu']
      exact ⟨hp', hsound', hreads.kin hkin'⟩
    rw [mapM_cons]
    refine (onPages_of_run hS.memory hrun).bind ?_
    rintro _ _ ⟨rfl, rfl⟩
    refine hrest.bind ?_
    rintro as _ ⟨has, q, k', rfl, hready', hm', hext', hreads'⟩
    refine .pure ⟨fun x => ?_, q, k', rfl, hready', hm.trans hm', hext.trans hext', hreads.trans hreads'⟩
    rw [flatten_cons, mem_append, hfound, has]
    simp only [mem_cons, exists_eq_or_imp]
    refine or_congr Iff.rfl (exists_congr fun o' => and_congr_right fun ho' => ?_)
    change Paged.differs x ((p.unshared k).view x) ((o'.paged.unshared k).view x) = true ↔ _
    rw [(hothers' o' ho').2, hreads.view]
    rfl

lemma mapM_ok {α β : Type} {f : α → Except Fault β} {g} (l : List α) (h : ∀ a ∈ l, f a = .ok (g a)) :
    l.mapM f = .ok (l.map g) := by
  induction l with
  | nil => rfl
  | cons a l ih =>
    rw [mapM_cons, h a (by simp), ih fun a' ha' => h a' (.tail _ ha')]
    rfl

lemma mergeStrategies_same {first : List Strategy} {rest} (h : ∀ l ∈ rest, l = first) :
    mergeStrategies (first :: rest) = .ok first := by
  have hlength : ¬ (rest.any fun l => l.length != first.length) = true := by
    rw [any_eq_true]
    rintro ⟨l, hl, hne⟩
    rw [h l hl] at hne
    simp at hne
  have hsame : ∀ p ∈ first.zipIdx, ∀ t ∈ rest.filterMap (·[p.2]?), t = p.1 := fun p hp t ht => by
    obtain ⟨l, hl, hlt⟩ := mem_filterMap.1 ht
    rw [h l hl] at hlt
    exact Option.some.inj (hlt.symm.trans (mem_zipIdx_iff_getElem?.1 hp))
  rw [mergeStrategies, if_neg hlength]
  refine (mapM_ok first.zipIdx fun p hp => ?_).trans (congrArg _ (zipIdx_map_fst 0 first))
  have hlabel : ¬ ((rest.filterMap (·[p.2]?)).any fun t => t.label != p.1.label) = true := by
    rw [any_eq_true]
    rintro ⟨t, ht, hne⟩
    rw [hsame p hp t ht] at hne
    simp at hne
  have hnone : (rest.filterMap (·[p.2]?)).filter (· != p.1) = [] := filter_eq_nil_iff.2 fun t ht => by simp [hsame p hp t ht]
  simp only
  rw [if_neg hlabel, hnone]
  rfl

/-- A memory that can be merged into that of a scene: both came from one by stores, and they choose addresses alike. -/
structure Kindred (S : Scene) (m o : Memory) : Prop where
  placed : o.paged.Placed S.commons
  apart : Paged.Apart m.paged o.paged
  regular : (o.paged.unshared S.commons).Regular S.arch.bits
  kin : (S.contents m).Kin (o.paged.unshared S.commons)
  reads : o.readStrategies = m.readStrategies
  writes : o.writeStrategies = m.writeStrategies

def sidesOf (S : Scene) (m : Memory) (others : List Memory) (conds : List Cond) : Sides :=
  ⟨S.contents m, conds.headD (.lit true), (others.map (·.paged)).zip (conds.drop 1), S.commons⟩

lemma views_sidesOf (h : conds.length = others.length + 1) :
    (sidesOf S m others conds).views = others.map fun o => (o.paged.unshared S.commons).view := by
  have hfst : ((others.map (·.paged)).zip (conds.drop 1)).map (·.1) = others.map (·.paged) := map_fst_zip (by simp [h])
  change ((others.map (·.paged)).zip (conds.drop 1)).map ((fun p => (p.unshared S.commons).view) ∘ (·.1)) = _
  rw [← map_map, hfst, map_map]
  rfl

lemma exists_of_mem_sidesOf {s} (h : s ∈ (sidesOf S m others conds).others) : ∃ o ∈ others, o.paged = s.1 :=
  mem_map.1 (of_mem_zip h).1

/-- **Merging memories** succeeds, and what each place took is chosen among what was found there. -/
theorem mergeMemory_does (hS : S.Ready m) (hown : (S.contents m).Regular S.arch.bits)
    (hothers : ∀ o ∈ others, Kindred S m o) (hconds : conds.length = others.length + 1) :
    Does r S (mergeMemory r others conds) fun n T => ∃ places, places.Pairwise (· ≤ ·) ∧
      View.Differences (S.contents m).view (sidesOf S m others conds).views places ∧
      n = (View.walk (sidesOf S m others conds).all none places).length ∧ ∃ p k stop, T = S.withPages m p k ∧
        T.Ready { m with paged := p } ∧
        (sidesOf S m others conds).Patched (View.walk (sidesOf S m others conds).all none places) stop (p.unshared k).view := by
  refine (mapM_changed_does hS fun o ho => ⟨(hothers o ho).placed, (hothers o ho).regular.sound, (hothers o ho).kin⟩).bind ?_
  rintro found _ ⟨hfound, p, k, rfl, hready, hm, hext, hreads⟩
  refine (memoryAt_gives hready.memory).bind ?_
  rw [mergeStrategies_same (by simpa using fun o ho => (hothers o ho).reads)]
  refine (Gives.pure m.readStrategies).bind ?_
  rw [mergeStrategies_same (by simpa using fun o ho => (hothers o ho).writes)]
  refine (Gives.pure m.writeStrategies).bind ?_
  have keeps : Keeps r (S.withPages m p k) (modifyMemory r fun o => { o with
      readStrategies := m.readStrategies, writeStrategies := m.writeStrategies }) := by
    rintro w hw hs
    obtain ⟨w', hw', hscene, hinsp⟩ := scene_modifyMemory (congrArg Scene.memory hs) fun o => { o with
      readStrategies := m.readStrategies, writeStrategies := m.writeStrategies }
    refine ⟨(), w', hw', fun i hi => hw i (hinsp ▸ hi), hscene.trans ?_⟩
    rw [hs]
    rfl
  refine keeps.bind fun _ => ?_
  have hdiff : View.Differences (S.contents m).view (sidesOf S m others conds).views
      (found.flatten.eraseDups.mergeSort (· ≤ ·)) := fun x => by
    rw [mem_mergeSort, mem_eraseDups, hfound, views_sidesOf hconds]
    simp only [mem_map, exists_exists_and_eq_and]
  have hsorted := pairwise_mergeSort' (· ≤ ·) found.flatten.eraseDups
  revert hdiff hsorted
  generalize found.flatten.eraseDups.mergeSort (· ≤ ·) = places
  intro hdiff hsorted
  have hstands : (sidesOf S m others conds).Stands (S.withPages m p k) { m with paged := p } := by
    refine ⟨hready, fun s hs => ?_, fun s hs => ?_, fun s hs => ?_⟩
    all_goals
      obtain ⟨o, ho, e⟩ := exists_of_mem_sidesOf hs
      rw [← e]
    · exact (hext.frame (hothers o ho).placed).1
    · exact hm.apart_left (hothers o ho).placed (hothers o ho).apart
    · exact (hext.frame (hothers o ho).placed).2
  have hregular : (sidesOf S m others conds).Regular S.arch.bits := by
    refine ⟨hown, fun s hs => ?_⟩
    obtain ⟨o, ho, e⟩ := exists_of_mem_sidesOf hs
    rw [← e]
    exact (hothers o ho).regular
  have hthere : ∀ b ∈ places, ∃ s ∈ (sidesOf S m others conds).found b, s.1.isSome := fun b hb => by
    obtain ⟨V, hV, hd⟩ := (hdiff b).1 hb
    obtain ⟨s, hs, rfl⟩ := mem_map.1 hV
    obtain h | h := Paged.isSome_of_differs hd
    · exact ⟨_, Sides.mem_found_iff.2 (.inl ⟨rfl, rfl⟩), h⟩
    · exact ⟨_, Sides.mem_found_iff.2 (.inr ⟨s, hs, rfl, rfl⟩), h⟩
  have hbegin : (sidesOf S m others conds).Patched [] ((none).getD 0) (p.unshared k).view := hreads.view
  refine (Sides.mergePlaces_does hstands rfl hregular places hsorted hthere none hbegin (fun b _ => rfl) (by simp) 0).mono ?_
  rintro n _ ⟨rfl, q, k', stop, rfl, hstands', hpatched⟩
  rw [Nat.zero_add]
  exact ⟨places, hsorted, hdiff, rfl, q, k', stop, rfl, hstands'.ready, hpatched⟩

end

end Exec

/-! ### The bytes of a merged memory -/

lemma Paged.Empty.regular {p : Paged} (h : p.Empty) (c bits) : (p.unshared c).Regular bits :=
  ⟨h.sound c, fun a d hd => absurd (h.view c a ▸ hd) (by simp), fun a d hd => absurd (h.view c a ▸ hd) (by simp)⟩

lemma Family.forked_of_empty {bits : Nat} {m} (hm : m.Empty) {es} (hes : ∀ e ∈ es, e.Plain bits) :
    Forked bits (run ⟨[m], {}⟩ es).members (run ⟨[m], {}⟩ es).commons ∧
      (run ⟨[m], {}⟩ es).contents.map (·.view) = (lines es).map fun xs => xs.foldl lay fun _ => none := by
  refine ⟨forked_members (hm.placed {}) (hm.regular {} bits) hes, ?_⟩
  rw [views_run (hm.placed {}) (hm.regular {} bits) hes, funext (hm.view {})]

def Chunk.lit (n v a : Nat) : Chunk := ⟨.lit (8 * n) v, a, n⟩

lemma Chunk.sound_lit {n v} (h : v < 2 ^ (8 * n)) (a) : (lit n v a).Sound := ⟨h, rfl⟩

lemma Chunk.byte_lit {n v} (h : v < 2 ^ (8 * n)) (a) (μ : Model) (x) : (lit n v a).byte μ x = Word.byte v (a + n - 1 - x) :=
  congrArg (Word.byte · _) (Bits.eval_lit h μ)

def Family.put (i n v a : Nat) : Event := .act i (.store false false true (.lit n v a))

lemma Family.plain_put {n v bits} (h : v < 2 ^ (8 * n)) (hn : n < 2 ^ bits) (i a) : (put i n v a).Plain bits :=
  ⟨rfl, rfl, fun _ => sound_lit h a, hn⟩

namespace World

open Exec

variable {w : World} {r : Region} {m : Memory} {others : List Memory} {conds : List Cond} {S : Scene}

lemma one_meant (h : conds.length = others.length + 1) {j q} (hq : (m.paged :: others.map (·.paged))[j]? = some q) {μ}
    (hμ : ∀ (i : Nat) (e : Cond), conds[i]? = some e → (e.eval μ = true ↔ i = j)) (b) :
    (∃ s ∈ (sidesOf S m others conds).found b, s.2.eval μ = true) ∧ ∀ s ∈ (sidesOf S m others conds).found b, s.2.eval μ = true →
    s.1 = (q.unshared S.commons).view b := by
  obtain _ | ⟨d, conds⟩ := conds
  · cases h
  have hlt : j < (d :: conds).length := by
    have hj := (List.getElem?_eq_some_iff.1 hq).1
    simp only [length_cons, length_map] at hj
    omega
  have hd := getElem?_eq_getElem hlt
  have hzip := mem_of_getElem? ((getElem?_zip_eq_some (z := (q, _))).2 ⟨hq, hd⟩)
  have hfound : (sidesOf S m others (d :: conds)).found b = ((m.paged :: others.map (·.paged)).zip (d :: conds)).map
      fun s => ((s.1.unshared S.commons).view b, s.2) := rfl
  rw [hfound]
  refine ⟨⟨_, mem_map_of_mem hzip, (hμ j _ hd).2 rfl⟩, fun s hs hst => ?_⟩
  obtain ⟨z, hz, rfl⟩ := mem_map.1 hs
  obtain ⟨i, hi⟩ := mem_iff_getElem?.1 hz
  obtain ⟨h1, h2⟩ := getElem?_zip_eq_some.1 hi
  obtain rfl := (hμ i z.2 h2).1 hst
  rw [Option.some.inj (h1.symm.trans hq)]

def paging (p : Paged) : Memory := { (State.blank .amd64 .symbolic {}).memory with paged := p }

noncomputable def blankOver (p : Paged) (c : Commons) : World :=
  { state := { State.blank .amd64 .symbolic {} with memory := paging p }, commons := c, solver := .ideal }

lemma quiet_blankOver (p c) : (blankOver p c).Quiet := fun i hi => absurd hi (by simp [blankOver, State.blank])

lemma free_blankOver (p c) : ¬ ((blankOver p c).scene .memory).Enforced (paging p) := fun h =>
  absurd (show ({} : Settings).has .strictPageAccess = true from h.2) (by decide)

/-- **Merging memories that came from one.** Memories were copied from one and then stored to in any way. The others are merged
into the first, each with a condition. This succeeds, and in a model in which the condition of one of them holds and no other
does, each address whose byte that memory has can be loaded. What is loaded is the byte of the chunk in which the address
lands: the one that shows at the place from which the address was merged. So it is the byte of that memory just where this chunk has
the same byte there; and it is everywhere, for all memories, if the chunks that show at the places that are merged show
over all of their range, that is, if none of them was stored over in part. No breakpoint must be set and no protection
enforced. -/
theorem merged_byte_is_landing (hm : w.state.memory? r = some m) (hfast : m.fast = none)
    (hbits : w.state.arch.bits % 8 = 0) (hsolver : w.solver.Folds) (hquiet : w.Quiet) (hfree : ¬ (w.scene r).Enforced m)
    (hforked : Family.Forked w.state.arch.bits (m.paged :: others.map (·.paged)) w.commons)
    (hstrategies : ∀ o ∈ others, o.readStrategies = m.readStrategies ∧ o.writeStrategies = m.writeStrategies)
    (hconds : conds.length = others.length + 1) :
    let own := (m.paged.unshared w.commons).view
    let views := others.map fun o => (o.paged.unshared w.commons).view
    ∃ places w', places.Pairwise (· ≤ ·) ∧ View.Differences own views places ∧
      mergeMemory r others conds w = .ok (View.walk (own :: views) none places).length w' ∧
      ∀ (j : Nat) q, (m.paged :: others.map (·.paged))[j]? = some q →
        ∀ μ, (∀ (i : Nat) (e : Cond), conds[i]? = some e → (e.eval μ = true ↔ i = j)) →
        ∀ x f, (q.unshared w.commons).flat x = some f →
          ∃ c v w'', View.landing own views places (q.unshared w.commons).view x = some c ∧
            load r (.num x) { size := some (.num 1) } w' = .ok v w'' ∧ v.width = 8 ∧ v.eval μ = c.byte μ x ∧
            (View.Intact (own :: views) (View.walk (own :: views) none places) → v.eval μ = f μ) := by
  intro own views
  obtain ⟨hplaced, hregular, hothers⟩ := hforked.spec
  have hready : (w.scene r).Ready m := ⟨hm, hfast, hplaced, hregular.sound, hfree, hsolver, hbits⟩
  have hkindred : ∀ o ∈ others, Kindred (w.scene r) m o := fun o ho => by
    obtain ⟨hp, hr, ha, hk⟩ := hothers o.paged (List.mem_map_of_mem ho)
    exact ⟨hp, ha, hr, hk, (hstrategies o ho).1, (hstrategies o ho).2⟩
  obtain ⟨n, w', hrun, hquiet', places, hsorted, hdiff, rfl, p, k, stop, hscene, hready', hpatched⟩ :=
    mergeMemory_does (r := r) hready hregular hkindred hconds w hquiet rfl
  have hviews : (sidesOf (w.scene r) m others conds).views = views := views_sidesOf hconds
  have hall : (sidesOf (w.scene r) m others conds).all = own :: views := congrArg (own :: ·) hviews
  rw [hviews] at hdiff
  rw [hall] at hrun
  have hsound : ∀ V ∈ own :: views, V.Sound := fun V hV => by
    obtain rfl | hV := List.mem_cons.1 hV
    · exact hregular.sound.sound_view
    · obtain ⟨o, ho, rfl⟩ := List.mem_map.1 hV
      exact (hothers o.paged (List.mem_map_of_mem ho)).2.1.sound.sound_view
  refine ⟨places, w', hsorted, hdiff, hrun, fun j q hq μ hμ x f hf => ?_⟩
  obtain ⟨d, hd, rfl⟩ := Option.map_eq_some_iff.1 hf
  have hV : (q.unshared w.commons).view ∈ own :: views := by
    have h := List.mem_map_of_mem (f := fun p : Paged => (p.unshared w.commons).view) (List.mem_of_getElem? hq)
    rwa [List.map_cons, List.map_map] at h
  obtain ⟨c, hc⟩ := Option.isSome_iff_exists.1 (View.isSome_landing (x := x) hsound hdiff hregular.unbroken hV (by rw [hd]; rfl))
  obtain ⟨e, he, hbyte⟩ := hpatched.landing (hviews ▸ hc) (one_meant hconds hq hμ)
  rw [hscene] at hready'
  have haddr : (Quantity.num x).nat? = some x := rfl
  obtain ⟨v, w'', hv, -, ⟨-, hwidth, hval⟩, -⟩ := load_does (r := r) hready' haddr { size := some (.num 1) } rfl (by decide)
    rfl (fun y h1 h2 => by
      obtain rfl : y = x := by omega
      exact Option.isSome_iff_exists.2 ⟨e, he⟩) w' hquiet' hscene
  have hloaded : v.eval μ = c.byte μ x := by
    rw [hval, ← hbyte]
    change Endness.number _ [((p.unshared k).view x |>.map (·.byte μ x)).getD 0] = _
    rw [Endness.number_singleton, he]
    rfl
  exact ⟨c, v, w'', hc, hv, hwidth, hloaded, fun hi =>
    hloaded.trans (View.byte_landing_of_intact hsound hdiff hi hV hd hc μ)⟩

open Family (put plain_put)

/-- Two memories that came from an empty one have four bytes at the same place, and in the second of them one byte was stored
over since. The second has `0x33` there, and what is loaded is the `0x22` below it. Of three memories in which nothing was
stored over, two have four bytes at the same place and the third has the last two of them, and what is loaded is right. -/
theorem merged_byte_under_overwritten :
    let is (k : Nat) : Cond := .cmp .eq (.sym "x" 8) (.lit 8 k)
    let F := Family.run ⟨[{}], {}⟩ [.branch 0, put 0 4 0x11111111 256, put 1 4 0x22222222 256, put 1 1 0x33 257]
    let G := Family.run ⟨[{}], {}⟩
      [.branch 0, .branch 0, put 0 4 0x11111111 256, put 1 4 0x22222222 256, put 2 2 0x4444 258]
    (∃ p q : Paged, F.members = [p, q] ∧ Family.Forked 64 [p, q] F.commons ∧
      (∃ f, (q.unshared F.commons).flat 257 = some f ∧ ∀ μ, f μ = 0x33) ∧
      ∃ n w' v w'', mergeMemory .memory [paging q] [is 0, is 1] (blankOver p F.commons) = .ok n w' ∧
        load .memory (.num 257) { size := some (.num 1) } w' = .ok v w'' ∧ v.width = 8 ∧ v.eval (fun _ => 1) = 0x22) ∧
    ∃ p q s : Paged, G.members = [p, q, s] ∧ Family.Forked 64 [p, q, s] G.commons ∧
      ∃ n w' v w'', mergeMemory .memory [paging q, paging s] [is 0, is 1, is 2] (blankOver p G.commons) = .ok n w' ∧
        load .memory (.num 259) { size := some (.num 1) } w' = .ok v w'' ∧ v.width = 8 ∧ v.eval (fun _ => 2) = 0x44 := by
  intro is F G
  have hempty : Paged.Empty {} := ⟨fun n => by simp, rfl⟩
  constructor
  · have hF : ∀ e ∈ [.branch 0, put 0 4 0x11111111 256, put 1 4 0x22222222 256, put 1 1 0x33 257], e.Plain 64 := by
      simp only [List.forall_mem_cons, List.not_mem_nil, false_implies, implies_true, and_true]
      exact ⟨trivial, plain_put (by decide) (by decide) _ _, plain_put (by decide) (by decide) _ _,
        plain_put (by decide) (by decide) _ _⟩
    obtain ⟨hforked, hviews⟩ := Family.forked_of_empty hempty hF
    change Family.Forked 64 F.members F.commons at hforked
    change F.contents.map (·.view) = [(Chunk.lit 4 0x11111111 256).over fun _ => none,
      (Chunk.lit 1 0x33 257).over ((Chunk.lit 4 0x22222222 256).over fun _ => none)] at hviews
    rw [Family.contents, List.map_map] at hviews
    obtain ⟨p, ps, hps, hp, hviews⟩ := List.map_eq_cons_iff.1 hviews
    obtain ⟨q, qs, rfl, hq, hviews⟩ := List.map_eq_cons_iff.1 hviews
    obtain rfl := List.map_eq_nil_iff.1 hviews
    change (p.unshared F.commons).view = _ at hp
    change (q.unshared F.commons).view = _ at hq
    rw [hps] at hforked
    obtain ⟨places, w', hsorted, hdiff, hrun, hbyte⟩ := @merged_byte_is_landing (blankOver p F.commons) .memory (paging p)
      [paging q] [is 0, is 1] rfl rfl (Nat.mul_mod_left 8 8) Solver.ideal_exact.folds (quiet_blankOver p F.commons)
      (free_blankOver p F.commons) hforked (by simp [paging]) rfl
    change View.Differences (p.unshared F.commons).view [(q.unshared F.commons).view] places at hdiff
    rw [hp, hq] at hdiff
    -- the first difference is at the beginning, and takes the byte that was stored over along
    have hfirst : 256 ∈ places := (hdiff 256).2 ⟨_, List.mem_singleton_self _, by
      by_contra h
      have hbytes := View.byte_eq_of_not_differs (Chunk.sound_lit (by decide) 256) (Chunk.sound_lit (by decide) 256)
        rfl rfl h fun _ => 0
      exact absurd hbytes (by decide)⟩
    have hleast : ∀ b ∈ places, 256 ≤ b := fun b hb => by
      obtain ⟨V, hV, hd⟩ := (hdiff b).1 hb
      obtain rfl := List.mem_singleton.1 hV
      by_contra hlt
      have hout : ∀ n v a, 256 ≤ a → ¬ (Chunk.lit n v a).covers b = true := fun n v a ha hcov =>
        hlt (Nat.le_trans ha (Chunk.covers_iff.1 hcov).1)
      rw [Chunk.over, Chunk.over, Chunk.over, if_neg (hout _ _ _ (by decide)), if_neg (hout _ _ _ (by decide)),
        if_neg (hout _ _ _ (by decide))] at hd
      exact absurd hd (by simp [Paged.differs])
    have htakes : View.takes ((Chunk.lit 4 0x11111111 256).over fun _ => none)
        [(Chunk.lit 1 0x33 257).over ((Chunk.lit 4 0x22222222 256).over fun _ => none)] 256 257 = true := by
      rw [View.takes, if_pos (by decide)]
      exact decide_eq_true rfl
    have hflat : (q.unshared F.commons).flat 257 = some fun μ => (Chunk.lit 1 0x33 257).byte μ 257 := by
      rw [Unshared.flat, hq]
      rfl
    obtain ⟨c, v, w'', hc, hv, hwidth, hval, -⟩ := hbyte 1 q rfl (fun _ => 1) (fun i e he => by
      rcases i with _ | _ | i
      iterate 2 exact Option.some.inj he ▸ by decide
      exact absurd he (by simp)) 257 _ hflat
    change View.landing (p.unshared F.commons).view [(q.unshared F.commons).view] places
      (q.unshared F.commons).view 257 = some c at hc
    rw [hp, hq, View.landing, View.source_of_least hsorted hfirst hleast htakes] at hc
    obtain rfl : Chunk.lit 4 0x22222222 256 = c := Option.some.inj hc
    have hown : ∀ μ, (Chunk.lit 1 0x33 257).byte μ 257 = 0x33 := fun μ => Chunk.byte_lit (by decide) 257 μ 257
    exact ⟨p, q, hps, hforked, ⟨_, hflat, hown⟩, _, w', v, w'', hrun, hv, hwidth, hval.trans (by decide)⟩
  · have hG : ∀ e ∈ [.branch 0, .branch 0, put 0 4 0x11111111 256, put 1 4 0x22222222 256, put 2 2 0x4444 258],
        e.Plain 64 := by
      simp only [List.forall_mem_cons, List.not_mem_nil, false_implies, implies_true, and_true]
      exact ⟨trivial, trivial, plain_put (by decide) (by decide) _ _, plain_put (by decide) (by decide) _ _,
        plain_put (by decide) (by decide) _ _⟩
    obtain ⟨hforked, hviews⟩ := Family.forked_of_empty hempty hG
    change Family.Forked 64 G.members G.commons at hforked
    change G.contents.map (·.view) = [(Chunk.lit 4 0x11111111 256).over fun _ => none,
      (Chunk.lit 4 0x22222222 256).over fun _ => none, (Chunk.lit 2 0x4444 258).over fun _ => none] at hviews
    rw [Family.contents, List.map_map] at hviews
    obtain ⟨p, ps, hps, hp, hviews⟩ := List.map_eq_cons_iff.1 hviews
    obtain ⟨q, qs, rfl, hq, hviews⟩ := List.map_eq_cons_iff.1 hviews
    obtain ⟨s, ss, rfl, hs, hviews⟩ := List.map_eq_cons_iff.1 hviews
    obtain rfl := List.map_eq_nil_iff.1 hviews
    change (p.unshared G.commons).view = _ at hp
    change (q.unshared G.commons).view = _ at hq
    change (s.unshared G.commons).view = _ at hs
    rw [hps] at hforked
    obtain ⟨places, w', -, -, hrun, hbyte⟩ := @merged_byte_is_landing (blankOver p G.commons) .memory (paging p)
      [paging q, paging s] [is 0, is 1, is 2] rfl rfl (Nat.mul_mod_left 8 8) Solver.ideal_exact.folds
      (quiet_blankOver p G.commons) (free_blankOver p G.commons) hforked (by simp [paging]) rfl
    have hflat : (s.unshared G.commons).flat 259 = some fun μ => (Chunk.lit 2 0x4444 258).byte μ 259 := by
      rw [Unshared.flat, hs]
      rfl
    obtain ⟨c, v, w'', -, hv, hwidth, -, hval⟩ := hbyte 2 s rfl (fun _ => 2) (fun i e he => by
      rcases i with _ | _ | _ | i
      iterate 3 exact Option.some.inj he ▸ by decide
      exact absurd he (by simp)) 259 _ hflat
    have hintact : View.Intact [(p.unshared G.commons).view, (q.unshared G.commons).view, (s.unshared G.commons).view]
        (View.walk [(p.unshared G.commons).view, (q.unshared G.commons).view, (s.unshared G.commons).view] none places) := by
      rw [hp, hq, hs]
      exact View.intact_of_single [Chunk.lit 4 0x11111111 256, Chunk.lit 4 0x22222222 256, Chunk.lit 2 0x4444 258] _
    exact ⟨p, q, s, hps, hforked, _, w', v, w'', hrun, hv, hwidth, (hval hintact).trans (Chunk.byte_lit (by decide) 258 _ 259)⟩

end World

end SymExec
