import Mathlib.Data.List.Perm.Basic
import SymExec.Manager

/-!
# Conservation of states

A step takes up the states of a stash one by one.
-/

namespace SymExec

open List Option EStateM

/-! ### Stashes -/

namespace Stashes

variable {α : Type}

lemma lookup_cons (n ys) (rest : List (String × List α)) (name) :
    ((n, ys) :: rest).lookup name = if name = n then some ys else rest.lookup name := by
  rw [List.lookup_cons]
  split_ifs with h
  · rw [h, beq_self_eq_true]
  · rw [beq_eq_false_iff_ne.2 h]

lemma lookup_replaceIn (name other xs) (lists : List (String × List α)) :
    (replaceIn name xs lists).lookup other = if other = name then some xs else lists.lookup other := by
  induction lists with
  | nil => exact lookup_cons name xs [] other
  | cons l rest ih =>
    rw [replaceIn]
    split_ifs with hn <;> simp only [lookup_cons, ih] <;> grind

section
variable (s : Stashes α)
include s

lemma get_set (name other xs) : (s.set name xs).get other = if other = name then xs else s.get other := by
  rw [get, set, lookup_replaceIn]
  split_ifs <;> rfl

lemma get_append (name other xs) : (s.append name xs).get other = s.get other ++ if name = other then xs else [] := by
  rw [append, get_set]
  by_cases h : other = name
  · rw [if_pos h, if_pos h.symm, h]
  · rw [if_neg h, if_neg (Ne.symm h), append_nil]

variable (name : String)

lemma all_set (xs) : (s.get name ++ (s.set name xs).all).Perm (s.all ++ xs) := by
  obtain ⟨lists⟩ := s
  induction lists with
  | nil => simp [get, set, all, replaceIn]
  | cons l rest ih =>
    obtain ⟨n, ys⟩ := l
    simp only [get, set, all, replaceIn, lookup_cons, flatMap_cons] at ih ⊢
    by_cases hn : name = n
    · subst hn
      simp only [if_true, getD_some, flatMap_cons]
      exact (perm_append_comm.append_left ys).trans (by rw [append_assoc])
    · rw [if_neg hn, if_neg (Ne.symm hn), append_assoc]
      exact (perm_append_comm_assoc ..).trans (ih.append_left ys)

lemma all_append (xs) : (s.append name xs).all.Perm (s.all ++ xs) := by
  have h := s.all_set name (s.get name ++ xs)
  refine (perm_append_left_iff (s.get name)).1 (h.trans ?_)
  exact perm_append_comm_assoc ..

lemma all_clear : (s.get name ++ (s.clear name).all).Perm s.all := by
  have h := s.all_set name []
  rwa [append_nil] at h

end

end Stashes

/-! ### Storing -/

namespace Manager

def arriving (parts : List (String × List Member)) (stash : String) : List Member :=
  parts.flatMap fun part => if part.1 = stash then part.2 else []

def retained (g : Manager) (parts : List (String × List Member)) : List Member :=
  parts.flatMap fun part => if g.dropped.contains part.1 then [] else part.2

structure SameElse (g g' : Manager) : Prop where
  errored : g'.errored = g.errored
  dropped : g'.dropped = g.dropped

variable (g : Manager)

lemma store_sameElse (stash : String) (xs) : g.SameElse (g.store stash xs) := by
  unfold store
  split_ifs <;> exact ⟨rfl, rfl⟩

lemma get_store (into stash xs) : (g.store into xs).stashes.get stash =
      g.stashes.get stash ++ if g.dropped.contains stash then [] else if into = stash then xs else [] := by
  by_cases hi : into = stash
  · unfold store
    split_ifs <;> simp_all [Stashes.get_append]
  · unfold store
    split_ifs <;> simp [Stashes.get_append, hi]

lemma all_store (into xs) : (g.store into xs).stashes.all.Perm (g.stashes.all ++ if g.dropped.contains into then [] else xs) := by
  unfold store
  split_ifs with h
  · rw [append_nil]
  · exact g.stashes.all_append into xs

lemma foldl_store (parts : List (String × List Member)) (g : Manager) :
    let g' := parts.foldl (fun g part => g.store part.1 part.2) g
    g.SameElse g' ∧ g'.stashes.all.Perm (g.stashes.all ++ g.retained parts) ∧ ∀ stash, g'.stashes.get stash =
      g.stashes.get stash ++ if g.dropped.contains stash then [] else arriving parts stash := by
  induction parts generalizing g with
  | nil => exact ⟨⟨rfl, rfl⟩, by simp [retained], fun stash => by simp [arriving]⟩
  | cons part parts ih =>
    have hsame := g.store_sameElse part.1 part.2
    obtain ⟨hsame', hall, hget⟩ := ih (g.store part.1 part.2)
    refine ⟨⟨hsame'.errored.trans hsame.errored, hsame'.dropped.trans hsame.dropped⟩, ?_, fun stash => ?_⟩
    · refine hall.trans (((g.all_store part.1 part.2).append_right _).trans ?_)
      rw [append_assoc, retained, retained, hsame.dropped, flatMap_cons]
    · rw [foldl_cons, hget, get_store, hsame.dropped, arriving, arriving, flatMap_cons]
      split_ifs <;> simp

lemma clear_sameElse (stash : String) : g.SameElse (g.clear stash) := by
  unfold clear
  split_ifs <;> exact ⟨rfl, rfl⟩

lemma all_clear {g : Manager} {stash ms} (hfetch : g.fetch? stash = some ms)
    (hall : stash = allStashes → g.stashes.has stash = false) : (ms ++ (g.clear stash).stashes.all).Perm g.stashes.all := by
  by_cases hname : stash = allStashes
  · have hempty : (g.clear stash).stashes.all = [] := by
      rw [clear, if_pos hname]
      exact flatMap_eq_nil_iff.2 (by simp)
    rw [fetch?, hall hname, if_pos hname] at hfetch
    rw [hempty, append_nil, ← some.inj hfetch]
  · rw [fetch?] at hfetch
    split_ifs at hfetch
    rw [clear, if_neg hname, ← some.inj hfetch]
    exact g.stashes.all_clear stash

lemma get_clear (stash other) :
    (g.clear stash).stashes.get other = if other = stash ∨ stash = allStashes then [] else g.stashes.get other := by
  by_cases hname : stash = allStashes
  · rw [clear, if_pos hname, if_pos (.inr hname)]
    -- every list is empty
    change ((g.stashes.lists.map fun l => (l.1, ([] : List Member))).lookup other).getD [] = []
    induction g.stashes.lists with
    | nil => rfl
    | cons l rest ih =>
      rw [map_cons, Stashes.lookup_cons]
      split_ifs
      · rfl
      · exact ih
  · rw [clear, if_neg hname]
    exact (g.stashes.get_set stash other []).trans (by simp [hname])

/-- A division of a stash in two conserves all states: the source holds those that stay, and those that are sent are put behind what
the target held. -/
theorem divide_conserves {g : Manager} {source target : String} {ms keep sent : List Member} (hfetch : g.fetch? source = some ms)
    (hall : source = allStashes → g.stashes.has source = false) (hkept : source ∉ g.dropped ∧ target ∉ g.dropped)
    (hms : (keep ++ sent).Perm ms) : let g' := g.divide source target keep sent
    g'.stashes.all.Perm g.stashes.all ∧ ∀ s, g'.stashes.get s =
      (if s = source ∨ source = allStashes then [] else g.stashes.get s) ++
        ((if source = s then keep else []) ++ if target = s then sent else []) := by
  obtain ⟨-, hperm, hget⟩ := foldl_store [(source, keep), (target, sent)] (g.clear source)
  have hdropped := (g.clear_sameElse source).dropped
  refine ⟨hperm.trans ?_, fun s => (hget s).trans ?_⟩
  · have hretained : (g.clear source).retained [(source, keep), (target, sent)] = keep ++ sent := by
      simp [retained, hdropped, hkept]
    rw [hretained]
    exact perm_append_comm.trans ((hms.append_right _).trans (all_clear hfetch hall))
  · rw [get_clear, hdropped]
    split_ifs <;> simp_all [arriving]

theorem divide_conserves_second :
    let m i : Member := ⟨i, .blank .amd64 .symbolic (.ofList [])⟩
    let g : Manager := { stashes := ⟨[("active", [m 0, m 1])]⟩ }
    (g.divide "active" "found" [m 0] [m 1]).stashes.get "found" = [m 1] := by
  intro m g
  exact (@divide_conserves g "active" "found" _ [m 0] [m 1] rfl (by decide) (by decide) (.refl _)).2 "found"

end Manager

/-! ### What becomes of a state -/

inductive Upshot where
  | moved (into : String) (x : Member)
  | kept (x : Member)
  | pruned (x : Member)
  | failed (x : Member) (fault : Fault) (also : Option String)
  | replaced (x : Member) (flat unsat unconstrained : List Member)

def Upshot.arrivals (stash : String) : Upshot → List (String × List Member)
  | moved into x => [(into, [x])]
  | kept x => [(stash, [x])]
  | pruned x => [("pruned", [x])]
  | failed x _ also => also.toList.map (·, [x])
  | replaced x flat unsat unconstrained =>
    if flat ++ unsat ++ unconstrained = [] then [("deadended", [x])]
    else [(stash, flat), ("unsat", unsat), ("unconstrained", unconstrained)]

def Upshot.record : Upshot → List (Member × Fault)
  | failed x fault _ => [(x, fault)]
  | _ => []

namespace Exploring

attribute [local simp] bind EStateM.bind pure EStateM.pure

/-- The filter leaves a state to be stepped, and the selector answers. -/
def Asked (p : Policy) (stash : String) (m : Member) (e : Exploration) (chosen : Bool) (y : Member) (e' : Exploration) : Prop :=
  ∃ into x e₁, p.filter m e = .ok (into, x) e₁ ∧ (∀ s ∈ into, s = stash) ∧ p.selector x e₁ = .ok (chosen, y) e'

/-- What becomes of a state, by the answers of the filter, the selector and the engine. -/
inductive Becomes (p : Policy) (next : Exec Successors) (stash : String) (m : Member) (e : Exploration) : Upshot → Prop where
  | moved {into : String} {x : Member} {e₁ : Exploration} (hfilter : p.filter m e = .ok (some into, x) e₁) (hne : into ≠ stash) :
      Becomes p next stash m e (.moved (Fate.named stash into) x)
  | kept {y : Member} {e' : Exploration} (hasked : Asked p stash m e false y e') : Becomes p next stash m e (.kept y)
  | pruned {y : Member} {e' : Exploration} {fault : Fault} {w : World} (hasked : Asked p stash m e true y e')
      (hnext : next { e'.world with state := y.state } = .error fault w) (hunsat : fault.kind.within .unsat = true) :
      Becomes p next stash m e (.pruned { y with state := w.state })
  | failed {y : Member} {e' : Exploration} {fault : Fault} {w : World} (hasked : Asked p stash m e true y e')
      (hnext : next { e'.world with state := y.state } = .error fault w) (hunsat : fault.kind.within .unsat = false)
      (also : Option String) : Becomes p next stash m e (.failed { y with state := w.state } fault also)
  | replaced {y : Member} {e' : Exploration} {o : Successors} {w : World} {flat unsat unconstrained : List Member}
      (hasked : Asked p stash m e true y e') (hnext : next { e'.world with state := y.state } = .ok o w)
      (hflat : flat.map Member.state = o.states o.flat) (hunsat : unsat.map Member.state = o.states o.unsat)
      (hun : unconstrained.map Member.state = o.states o.unconstrained) :
      Becomes p next stash m e (.replaced { y with state := w.state } flat unsat unconstrained)

/-- What becomes of states that are taken up one after the other. -/
inductive Taken (p : Policy) (next : Exec Successors) (stash : String) : List Member → Exploration → List Upshot → Exploration → Prop where
  | nil (e : Exploration) : Taken p next stash [] e [] e
  | cons {m : Member} {ms : List Member} {e e₁ e₂ : Exploration} {fate : Fate Member} {o : Upshot} {os : List Upshot}
      (hsettle : settle p stash m e = .ok fate e₁) (hbecomes : Becomes p next stash m e o) (hrest : Taken p next stash ms e₁ os e₂) :
      Taken p next stash (m :: ms) e (o :: os) e₂

/-- What the step of one state leaves of the manager as it was. -/
structure Records (g : Manager) (records : List (Member × Fault)) (g' : Manager) : Prop where
  stashes : g'.stashes = g.stashes
  dropped : g'.dropped = g.dropped
  tolerated : g'.tolerated = g.tolerated
  errored : g'.errored = g.errored ++ records

lemma Records.refl (g : Manager) : Records g [] g := ⟨rfl, rfl, rfl, (append_nil _).symm⟩

lemma Records.trans {g g' g'' : Manager} {rs rs'} (h : Records g rs g') (h' : Records g' rs' g'') : Records g (rs ++ rs') g'' :=
  ⟨h'.stashes.trans h.stashes, h'.dropped.trans h.dropped, h'.tolerated.trans h.tolerated, by rw [h'.errored, h.errored, append_assoc]⟩

lemma mapM_enroll (ss : List State) (e) :
    ∃ ms e', ss.mapM enroll e = .ok ms e' ∧ ms.map Member.state = ss ∧ e'.manager = e.manager := by
  induction ss generalizing e with
  | nil => exact ⟨[], e, rfl, rfl, rfl⟩
  | cons s ss ih =>
    obtain ⟨ms, e', hrun, hstates, hsame⟩ := ih { e with world := { e.world with serial := e.world.serial + 1 } }
    refine ⟨⟨e.world.serial, s⟩ :: ms, e', ?_, by rw [map_cons, hstates], hsame⟩
    have hs : enroll s e = .ok ⟨e.world.serial, s⟩ { e with world := { e.world with serial := e.world.serial + 1 } } := rfl
    simp [mapM_cons, hs, hrun]

/-- A filter and a selector that answer, and leave the manager as it is. -/
structure Policy.Answers (p : Policy) : Prop where
  filter : ∀ m e, ∃ r e', p.filter m e = .ok r e' ∧ e'.manager = e.manager
  selector : ∀ m e, ∃ r e', p.selector m e = .ok r e' ∧ e'.manager = e.manager

section
variable {p : Policy} {next : Exec Successors} {stash : String} {m : Member} {e : Exploration} {w : World} {f : Fault}

lemma advanceBy_ok {o} (hnext : next { e.world with state := m.state } = .ok o w) :
    ∃ flat unsat unconstrained e', advanceBy next m e = .ok ({ m with state := w.state },
        [(none, flat), (some "unsat", unsat), (some "unconstrained", unconstrained)]) e' ∧
      flat.map Member.state = o.states o.flat ∧ unsat.map Member.state = o.states o.unsat ∧
      unconstrained.map Member.state = o.states o.unconstrained ∧ e'.manager = e.manager := by
  obtain ⟨flat, e₁, h1, hflat, hm1⟩ := mapM_enroll (o.states o.flat) { e with world := { w with state := e.world.state } }
  obtain ⟨unsat, e₂, h2, hunsat, hm2⟩ := mapM_enroll (o.states o.unsat) e₁
  obtain ⟨unconstrained, e3, h3, hun, hm3⟩ := mapM_enroll (o.states o.unconstrained) e₂
  refine ⟨flat, unsat, unconstrained, e3, ?_, hflat, hunsat, hun, hm3.trans (hm2.trans hm1)⟩
  simp [advanceBy, hnext, h1, h2, h3]

lemma advanceBy_unsat (hnext : next { e.world with state := m.state } = .error f w)
    (hunsat : f.kind.within .unsat = true) : ∃ e', advanceBy next m e =
      .ok ({ m with state := w.state }, [(some "pruned", [{ m with state := w.state }])]) e' ∧ Records e.manager [] e'.manager := by
  simp only [advanceBy, hnext, hunsat, if_true]
  exact ⟨_, rfl, rfl, rfl, rfl, (append_nil _).symm⟩

lemma advanceBy_failed (hnext : next { e.world with state := m.state } = .error f w)
    (hunsat : f.kind.within .unsat = false) (htolerated : e.manager.tolerated.any (f.kind.within ·) = true) :
    ∃ e', advanceBy next m e = .ok ({ m with state := w.state }, []) e' ∧
      Records e.manager [({ m with state := w.state }, f)] e'.manager := by
  simp only [advanceBy, hnext, hunsat, htolerated, Bool.false_eq_true, if_true, if_false]
  exact ⟨_, rfl, rfl, rfl, rfl, rfl⟩

lemma parts_stepped (stash x flat unsat unconstrained) :
    (Fate.stepped x [(none, flat), (some "unsat", unsat), (some "unconstrained", unconstrained)]).parts stash =
      (Upshot.replaced x flat unsat unconstrained).arrivals stash := by
  refine ite_congr (by simp) (fun _ => rfl) fun _ => ?_
  simp only [map_cons, map_nil, getD_none, getD_some, Fate.named, ite_self]
  rfl

section
variable (hp : p.Answers) (hadvance : p.advance = advanceBy next) (htolerated : ∀ w f w', next w = .error f w' →
  f.kind.within .unsat = true ∨ e.manager.tolerated.any (f.kind.within ·) = true)
include hp hadvance htolerated

lemma settle_becomes : ∃ fate o e', settle p stash m e = .ok fate e' ∧ Becomes p next stash m e o ∧
    fate.parts stash = o.arrivals stash ∧ Records e.manager o.record e'.manager := by
  obtain ⟨⟨into, x⟩, e₁, hfilter, hm1⟩ := hp.filter m e
  by_cases hinto : ∀ s ∈ into, s = stash
  · have hnone : into.filter (· != stash) = none := by
      cases into with
      | none => rfl
      | some s => simpa using hinto s rfl
    obtain ⟨⟨chosen, y⟩, e₂, hselect, hm2⟩ := hp.selector x e₁
    have hasked : Asked p stash m e chosen y e₂ := ⟨into, x, e₁, hfilter, hinto, hselect⟩
    cases chosen with
    | false =>
      refine ⟨.kept y, .kept y, e₂, ?_, .kept hasked, rfl, ?_⟩
      · simp [settle, hfilter, hnone, hselect]
      · rw [hm2, hm1]
        exact .refl _
    | true =>
      have hrun : ∀ {own fates e3}, advanceBy next y e₂ = .ok (own, fates) e3 →
          settle p stash m e = .ok (.stepped own fates) e3 := fun h => by
        simp [settle, hfilter, hnone, hselect, hadvance, h]
      cases hnext : next { e₂.world with state := y.state } with
      | ok o w =>
        obtain ⟨flat, unsat, unconstrained, e3, hadv, hflat, hunsat, hun, hm3⟩ := advanceBy_ok hnext
        refine ⟨_, _, e3, hrun hadv, .replaced hasked hnext hflat hunsat hun, ?_, ?_⟩
        · exact parts_stepped ..
        · rw [hm3, hm2, hm1]
          exact .refl _
      | error f w =>
        have hm : e₂.manager = e.manager := hm2.trans hm1
        by_cases hunsat : f.kind.within .unsat = true
        · obtain ⟨e3, hadv, hrec⟩ := advanceBy_unsat hnext hunsat
          exact ⟨_, _, e3, hrun hadv, .pruned hasked hnext hunsat, rfl, hm ▸ hrec⟩
        · rw [Bool.not_eq_true] at hunsat
          have htol := (htolerated _ _ _ hnext).resolve_left (by rw [hunsat]; decide)
          obtain ⟨e3, hadv, hrec⟩ := advanceBy_failed hnext hunsat (hm ▸ htol)
          exact ⟨_, _, e3, hrun hadv, .failed hasked hnext hunsat (some "deadended"), rfl, hm ▸ hrec⟩
  · obtain ⟨s, rfl, hne⟩ : ∃ s, into = some s ∧ s ≠ stash := by
      cases into with
      | none => exact absurd (fun _ h => nomatch h) hinto
      | some s => exact ⟨s, rfl, fun h => hinto fun t ht => (some.inj ht).symm.trans h⟩
    have hsome : (some s).filter (· != stash) = some s := by simp [hne]
    refine ⟨.sent s x, _, e₁, ?_, .moved hfilter hne, rfl, ?_⟩
    · simp [settle, hfilter, hsome]
    · rw [hm1]
      exact .refl _

lemma mapM_settle (stash : String) (ms) : ∃ fates os e', ms.mapM (settle p stash) e = .ok fates e' ∧
    Taken p next stash ms e os e' ∧ fates.flatMap (Fate.parts stash) = os.flatMap (Upshot.arrivals stash) ∧
    Records e.manager (os.flatMap Upshot.record) e'.manager := by
  induction ms generalizing e with
  | nil => exact ⟨[], [], e, rfl, .nil e, rfl, .refl _⟩
  | cons m ms ih =>
    obtain ⟨fate, o, e₁, hsettle, hbecomes, hparts, hrec⟩ := settle_becomes hp hadvance htolerated
    obtain ⟨fates, os, e₂, hrun, htaken, hparts', hrec'⟩ := ih (by rwa [hrec.tolerated])
    refine ⟨fate :: fates, o :: os, e₂, ?_, .cons hsettle hbecomes htaken, ?_, hrec.trans hrec'⟩
    · simp [mapM_cons, hsettle, hrun]
    · rw [flatMap_cons, flatMap_cons, hparts, hparts']

end

end

/-- **Conservation of states.** A step of a stash, or of all of them where none has that name, takes up its states one after the
other, and for each one the filter, the selector and the engine decide what becomes of it. Together with the states that arrive at
stashes which are kept, those of all stashes before the step are those that were taken up and those of all stashes after it. Each
stash holds what it held, if it was not stepped, and what arrives at it, if it is kept; a state is recorded for each fault. -/
theorem stepAll_conserves {p : Policy} {next : Exec Successors} (hp : p.Answers) (hadvance : p.advance = advanceBy next)
    {stash : String} {e : Exploration} {ms : List Member} (hfetch : e.manager.fetch? stash = some ms)
    (hall : stash = Manager.allStashes → e.manager.stashes.has stash = false) (htolerated : ∀ w f w', next w = .error f w' →
      f.kind.within .unsat = true ∨ e.manager.tolerated.any (f.kind.within ·) = true) :
    ∃ os e₁ e', Taken p next stash ms e os e₁ ∧ stepAll p stash e = .ok () e' ∧
      (e.manager.stashes.all ++ e.manager.retained (os.flatMap (Upshot.arrivals stash))).Perm (ms ++ e'.manager.stashes.all) ∧
      (∀ s, e'.manager.stashes.get s = (if s = stash ∨ stash = Manager.allStashes then [] else e.manager.stashes.get s) ++
        if e.manager.dropped.contains s then [] else Manager.arriving (os.flatMap (Upshot.arrivals stash)) s) ∧
      e'.manager.errored = e.manager.errored ++ os.flatMap Upshot.record := by
  obtain ⟨fates, os, e₁, hrun, htaken, hparts, hrec⟩ := mapM_settle hp hadvance htolerated stash ms
  have hstep : stepAll p stash e = .ok () { e₁ with manager := e₁.manager.place stash fates } := by
    have hm : manager e = .ok e.manager e := rfl
    simp only [stepAll, fetch, bind, EStateM.bind, pure, EStateM.pure, hm, hfetch, hrun]
    rfl
  have hclear := e₁.manager.clear_sameElse stash
  obtain ⟨hsame, hallperm, hget⟩ := Manager.foldl_store (os.flatMap (Upshot.arrivals stash)) (e₁.manager.clear stash)
  have hplace : e₁.manager.place stash fates = (os.flatMap (Upshot.arrivals stash)).foldl (fun g part => g.store part.1 part.2)
      (e₁.manager.clear stash) := by
    rw [Manager.place, hparts]
  rw [← hplace] at hsame hallperm hget
  refine ⟨os, e₁, _, htaken, hstep, ?_, fun s => ?_, ?_⟩
  · have hfetch₁ : e₁.manager.fetch? stash = some ms := by
      rwa [Manager.fetch?, hrec.stashes]
    have htake := Manager.all_clear hfetch₁ (by rwa [hrec.stashes])
    have hretained : (e₁.manager.clear stash).retained (os.flatMap (Upshot.arrivals stash)) =
        e.manager.retained (os.flatMap (Upshot.arrivals stash)) := by
      rw [Manager.retained, Manager.retained, hclear.dropped, hrec.dropped]
    rw [hrec.stashes] at htake
    rw [hretained] at hallperm
    refine (htake.symm.append_right _).trans ?_
    rw [List.append_assoc]
    exact hallperm.symm.append_left ms
  · rw [hget s, Manager.get_clear, hrec.stashes, hclear.dropped, hrec.dropped]
  · rw [hsame.errored, hclear.errored, hrec.errored]

/-- Of two states, one is moved by the filter, and the other has one successor that can be reached and one that cannot. -/
theorem stepAll_conserves_two :
    let s := State.blank .amd64 .symbolic (.ofList [])
    let next : Exec Successors := fun w => .ok { addr := 0, pool := #[w.state], flat := [0], unsat := [0] } w
    let p : Policy := { filter := fun m => return (if m.id = 1 then some "found" else none, m), advance := advanceBy next }
    let g : Manager := {}
    let e : Exploration := { world := { state := s }, manager := { g with stashes := g.stashes.set "active" [⟨0, s⟩, ⟨1, s⟩] } }
    e.manager.fetch? "active" = some [⟨0, s⟩, ⟨1, s⟩] ∧
    ∃ x e', stepAll p "active" e = .ok () e' ∧ x.state = s ∧ e'.manager.stashes.get "active" = [x] ∧
      e'.manager.stashes.get "found" = [⟨1, s⟩] ∧ e'.manager.stashes.get "unsat" = [] ∧ e'.manager.errored = [] := by
  intro s next p g e
  have hp : p.Answers := ⟨fun m e => ⟨_, e, rfl, rfl⟩, fun m e => ⟨_, e, rfl, rfl⟩⟩
  have hadvance : p.advance = advanceBy next := rfl
  have hfetch : e.manager.fetch? "active" = some [⟨0, s⟩, ⟨1, s⟩] := rfl
  have hnext : ∀ {w f w'}, next w ≠ .error f w' := nofun
  obtain ⟨os, e₁, e', htaken, hstep, -, hget, herrored⟩ :=
    stepAll_conserves hp hadvance hfetch (fun h => absurd h (by decide)) (fun w f w' h => absurd h hnext)
  cases htaken with | cons hsettle hfirst hrest =>
  cases hrest with | cons hsettle' hsecond hnil =>
  cases hnil
  -- the first state has successors, and the second one is moved
  cases hfirst with
  | moved hfilter => cases hfilter
  | kept hasked => obtain ⟨_, _, _, _, _, ⟨⟩⟩ := hasked
  | pruned _ hrun | failed _ hrun => exact absurd hrun hnext
  | @replaced y _ o w flat _ _ hasked hrun hflat =>
  cases hsecond with
  | kept hasked => obtain ⟨_, _, _, _, _, ⟨⟩⟩ := hasked
  | pruned _ hrun | failed _ hrun => exact absurd hrun hnext
  | replaced hasked =>
    obtain ⟨_, _, _, ⟨⟩, hinto, _⟩ := hasked
    exact absurd (hinto "found" rfl) (by decide)
  | moved hfilter hne =>
  cases hfilter
  cases hrun
  obtain ⟨_, _, _, ⟨⟩, _, ⟨⟩⟩ := hasked
  obtain ⟨x, rfl, hx⟩ := List.map_eq_singleton_iff.1 hflat
  refine ⟨hfetch, x, e', hstep, hx, ?_, ?_, ?_, herrored⟩
  · rw [hget]
    simp [e, g, Manager.arriving, Upshot.arrivals, Fate.named]
  · rw [hget]
    simp [e, g, Manager.arriving, Upshot.arrivals, Fate.named]
    exact fun _ => rfl
  · rw [hget]
    rfl

/-- A successor that cannot be reached is in no stash. A state that turns out not to be reachable is pruned and not recorded. A state that
cannot be stepped is recorded, and is at an end as well. -/
theorem states_dropped_or_doubled :
    let s := State.blank .amd64 .symbolic (.ofList [])
    let g : Manager := {}
    let e : Exploration := { world := { state := s }, manager := { g with stashes := g.stashes.set "active" [⟨0, s⟩] } }
    let p (next : Exec Successors) : Policy := { advance := advanceBy next }
    (∃ e', stepAll (p fun w => .ok { addr := 0, pool := #[w.state], unsat := [0] } w) "active" e = .ok () e' ∧
      e'.manager.stashes.all = [] ∧ e'.manager.errored = []) ∧
    (∃ e', stepAll (p fun w => .error (.of .unsat) w) "active" e = .ok () e' ∧
      e'.manager.stashes.get "pruned" = [⟨0, s⟩] ∧ e'.manager.errored = []) ∧
    ∃ e', stepAll (p fun w => .error (.of .execution) w) "active" e = .ok () e' ∧
      e'.manager.stashes.get "deadended" = [⟨0, s⟩] ∧ e'.manager.errored = [(⟨0, s⟩, .of .execution)] := by
  intro s g e p
  exact ⟨⟨_, rfl, rfl, rfl⟩, ⟨_, rfl, rfl, rfl⟩, ⟨_, rfl, rfl, rfl⟩⟩

end Exploring

end SymExec
