import SymExec.Proofs.Conditions
import SymExec.State.Basic

/-!
# Histories

Two histories are walked at once to find their closest common ancestor. A merged history should require what one of the histories
required since it. It puts its own events and its own past aside before it looks for constraints, so with an ancestor its own path
counts as one without any.
-/

namespace SymExec.History

open List

/-- Whether a model meets all that one of some histories recorded since an epoch. -/
def OneHolds (hs : List History) (since : Option Nat) (μ : Model) : Prop :=
  ∃ g ∈ hs, ∀ c ∈ g.constraintsSince since, c.eval μ = true

lemma constraintsSince_eq (h : History) {since : Option Nat} (hne : some h.current.id ≠ since) : h.constraintsSince since =
    constraintsOf h.current ++ (h.past.takeWhile fun e => some e.id != since).flatMap constraintsOf := by
  rw [constraintsSince, lineage, takeWhile_cons, if_pos (bne_iff_ne.2 hne), flatMap_cons]

lemma takeWhile_ancestor (a : Epoch) (older) : ((a :: older).takeWhile fun e => some e.id != some a.id) = [] := by
  rw [takeWhile_cons, if_neg (by simp)]

variable (h : History) (others : List History) (conds : List Cond) (place : Place) (ancestor : Option Nat) (past : List Epoch)

lemma constraintsOf_merge : constraintsOf (h.merge others conds ancestor past place).current =
      [Cond.any ((h.bare past :: others).map fun g => Cond.all (g.constraintsSince ancestor))] := by
  have hnone : ((h :: others).map fun g => Event.merged g.current.events.reverse).reverse.filterMap Event.constraint? = [] := by
    refine filterMap_eq_nil_iff.2 fun e he => ?_
    obtain ⟨g, -, rfl⟩ := mem_map.1 (mem_reverse.1 he)
    rfl
  rw [constraintsOf, merge, filterMap_cons, hnone]
  rfl

/-- What is recorded: that one of the paths was taken, where the own one begins with the new past. -/
lemma eval_merge : ∃ c, constraintsOf (h.merge others conds ancestor past place).current = [c] ∧ ∀ μ, c.eval μ = true ↔
    OneHolds (h.bare past :: others) ancestor μ := by
  refine ⟨_, constraintsOf_merge h others conds place ancestor past, fun μ => ?_⟩
  rw [Cond.eval_any]
  constructor
  · rintro ⟨c, hc, hμ⟩
    obtain ⟨g, hg, rfl⟩ := mem_map.1 hc
    exact ⟨g, hg, (Cond.eval_all _ μ).1 hμ⟩
  · rintro ⟨g, hg, hμ⟩
    exact ⟨_, mem_map.2 ⟨g, hg, rfl⟩, (Cond.eval_all _ μ).2 hμ⟩

/-- **What a merged history requires.** Histories are merged into one that is new. With an ancestor from which they all come, one
constraint is recorded and found again since the ancestor, and it holds in every model, whatever the histories required.
Without one, the constraint says that a model meets all that one of the histories recorded. -/
theorem merge_requires : (∀ a older, h.current.id ≠ a.id → ∃ c,
      (h.merge others conds (some a.id) (a :: older) place).constraintsSince (some a.id) = [c] ∧ ∀ μ, c.eval μ = true) ∧
    ∀ self : History, ∃ c, constraintsOf (h.merge others conds none self.lineage place).current = [c] ∧
      ∀ μ, c.eval μ = true ↔ OneHolds (self :: others) none μ := by
  constructor
  · intro a older hid
    have hne : some h.current.id ≠ some a.id := fun he => hid (Option.some.inj he)
    obtain ⟨c, hc, hμ⟩ := eval_merge h others conds place (some a.id) (a :: older)
    refine ⟨c, ?_, fun μ => (hμ μ).2 ⟨_, List.mem_cons_self, fun d hd => ?_⟩⟩
    · rw [constraintsSince_eq (h.merge others conds (some a.id) (a :: older) place) hne, hc]
      exact congrArg (c :: List.flatMap constraintsOf ·) (takeWhile_ancestor a older)
    · -- the own events are gone, and the ancestor comes right after them
      rw [constraintsSince_eq (h.bare (a :: older)) hne] at hd
      rw [show (h.bare (a :: older)).past = a :: older from rfl, takeWhile_ancestor] at hd
      exact absurd hd List.not_mem_nil
  · intro self
    obtain ⟨c, hc, hμ⟩ := eval_merge h others conds place none self.lineage
    have hown : (h.bare self.lineage).constraintsSince none = self.constraintsSince none :=
      constraintsSince_eq (h.bare self.lineage) nofun
    refine ⟨c, hc, fun μ => (hμ μ).trans ?_⟩
    simp only [OneHolds, List.mem_cons, exists_eq_or_imp, hown]

/-- Two paths from one epoch, on which a symbol was 1 and 9. Their merged history allows 0. -/
theorem merge_requires_nothing :
    let is (k : Nat) : Cond := .cmp .eq (.sym "x" 8) (.lit 8 k)
    let on (id k : Nat) : History :=
      { current := { id, events := [.action
          { kind := .constraint, type := "constraint", place := {}, constraint := some { value := .cond (is k) } }] }
        past := [{}] }
    let merged := (on 1 1).merge [on 2 9] [] (some 0) [{}] {}
    (on 1 1).constraintsSince (some 0) = [is 1] ∧ (on 2 9).constraintsSince (some 0) = [is 9] ∧
      ∃ c, merged.constraintsSince (some 0) = [c] ∧ c.eval (fun _ => 0) = true ∧
        ¬ OneHolds [on 1 1, on 2 9] (some 0) fun _ => 0 := by
  intro is on merged
  obtain ⟨c, hc, hμ⟩ := (merge_requires (on 1 1) [on 2 9] [] {}).1 {} [] (by decide)
  refine ⟨rfl, rfl, c, hc, hμ _, ?_⟩
  rintro ⟨g, hg, hall⟩
  obtain rfl | hg := List.mem_cons.1 hg
  · exact absurd (hall (is 1) List.mem_cons_self) (by decide)
  · obtain rfl := List.mem_singleton.1 hg
    exact absurd (hall (is 9) List.mem_cons_self) (by decide)

/-! ### Common ancestors -/

section
variable {seen : List Nat} {p q v w : List Epoch} {e f x y : Epoch} {parent : Nat → Option Nat}

/-- No epoch stands twice in two lists, and none was seen. -/
abbrev Fresh (seen : List Nat) (v w : List Epoch) : Prop := (v.map (·.id) ++ w.map (·.id) ++ seen).Nodup

lemma Fresh.symm (h : Fresh seen v w) : Fresh seen w v := (perm_append_comm.append_right seen).nodup h

lemma Fresh.step (h : Fresh seen (x :: p) (y :: q)) (v w : List Epoch) :
    meet seen (x :: v) (y :: w) = meet (y.id :: x.id :: seen) v w ∧ Fresh (y.id :: x.id :: seen) p q :=
  ⟨by grind [meet], by grind⟩

lemma meet_apart (h : Fresh seen v w) : meet seen v w = none := by fun_induction meet seen v w <;> grind

/-- One side comes to an epoch that the other has passed. -/
lemma meet_late (he : e.id ∈ seen) (h : Fresh seen v q) :
    meet seen v (q ++ e :: w) = some e.id ∧ meet seen (q ++ e :: w) v = some e.id := by
  induction q generalizing seen v with
  | nil => cases v <;> grind [meet]
  | cons y q ih =>
    cases v with
    | nil =>
      have := @ih (y.id :: seen) []
      grind [meet]
    | cons x v =>
      rw [cons_append, (h.step _ _).1, (h.symm.step _ _).1]
      exact ⟨(ih (by grind) (h.step [] []).2).1, (ih (by grind) (h.symm.step [] []).2.symm).2⟩

lemma meet_split (hf : f.id = e.id) (hv : Fresh seen (p ++ e :: v) q) (hw : Fresh seen p (q ++ f :: w)) :
    meet seen (p ++ e :: v) (q ++ f :: w) = some e.id := by
  induction p generalizing seen q with
  | nil =>
    cases q with
    | nil => grind [meet]
    | cons y q => rw [nil_append, cons_append, (hv.step _ _).1, (meet_late (by grind) (hv.step [] []).2).1, hf]
  | cons x p ih =>
    cases q with
    | nil => rw [nil_append, cons_append, (hw.step _ _).1, (meet_late (by grind) (hw.step [] []).2.symm).2]
    | cons y q => rw [cons_append, cons_append, (hv.step _ _).1, ih (hv.step [] []).2 (hw.step [] []).2]

/-- Each epoch comes from the next one, by links that all histories share, and the last from none. -/
def Follows (parent : Nat → Option Nat) : List Epoch → Prop
  | [] => True
  | e :: v => parent e.id = v.head?.map (·.id) ∧ Follows parent v

namespace Follows

lemma older (h : Follows parent (p ++ v)) : Follows parent v := by
  induction p with
  | nil => exact h
  | cons _ _ ih => exact ih h.2

lemma same (h : Follows parent (e :: v)) (h' : Follows parent (f :: w)) (he : e.id = f.id) : v.map (·.id) = w.map (·.id) := by
  induction v generalizing e f w with
  | nil => cases w <;> grind [Follows]
  | cons a v ih =>
    cases w with
    | nil => grind [Follows]
    | cons b w =>
      have hab : a.id = b.id := by grind [Follows]
      rw [map_cons, map_cons, hab, ih h.2 h'.2 hab]

lemma nodup (h : Follows parent v) : (v.map (·.id)).Nodup := by
  induction v with
  | nil => exact nodup_nil
  | cons e v ih =>
    refine nodup_cons.2 ⟨fun he => ?_, ih h.2⟩
    obtain ⟨f, hf, hid⟩ := mem_map.1 he
    obtain ⟨p, w, rfl⟩ := append_of_mem hf
    have := congrArg length (h.same h.2.older hid.symm)
    grind

end Follows

/-- **The closest common ancestor** of two histories of a forest is the first epoch on the way from one of them to its root that lies
on the way from the other. It is the same for both orders, and there is none where the roots differ. -/
theorem commonAncestor_deepest {h g : History} (hh : Follows parent h.lineage) (hg : Follows parent g.lineage) :
    let way (h : History) := h.lineage.map (·.id)
    h.commonAncestor g = (way h).find? (way g).contains ∧ g.commonAncestor h = h.commonAncestor g ∧
      ((way h).getLast? ≠ (way g).getLast? → h.commonAncestor g = none) := by
  simp only [commonAncestor, find?_map]
  generalize h.lineage = a, g.lineage = b at *
  have ha := hh.nodup
  have hb := hg.nodup
  cases hc : a.find? ((b.map (·.id)).contains ∘ (·.id)) with
  | none =>
    have hab : Fresh [] a b := by grind
    rw [meet_apart hab, meet_apart hab.symm]
    exact ⟨rfl, rfl, fun _ => rfl⟩
  | some e =>
    obtain ⟨he, p, v, rfl, hp⟩ := find?_eq_some_iff_append.1 hc
    obtain ⟨f, hf, hid⟩ := mem_map.1 (contains_iff_mem.1 he)
    obtain ⟨q, w, rfl⟩ := append_of_mem hf
    have hvw := hh.older.same hg.older hid.symm
    have hv : Fresh [] (p ++ e :: v) q := by grind
    have hw : Fresh [] p (q ++ f :: w) := by grind
    rw [meet_split hid hv hw, meet_split hid.symm hw.symm hv.symm, hid]
    exact ⟨rfl, rfl, fun h => absurd (by simp [hid, hvw, getLast?_cons]) h⟩

/-- Two histories that part after epoch 1, one of them after a step of its own. -/
theorem commonAncestor_parted :
    let on (id : Nat) (past : List Nat) : History := { current := { id }, past := past.map fun id => { id } }
    (on 4 [2, 1, 0]).commonAncestor (on 3 [1, 0]) = some 1 := by
  intro on
  let parent (n : Nat) : Option Nat := [none, some 0, some 1, some 1, some 2].getD n none
  have hh : Follows parent (on 4 [2, 1, 0]).lineage := ⟨rfl, rfl, rfl, rfl, trivial⟩
  have hg : Follows parent (on 3 [1, 0]).lineage := ⟨rfl, rfl, rfl, trivial⟩
  exact (commonAncestor_deepest hh hg).1.trans rfl

end

end SymExec.History
