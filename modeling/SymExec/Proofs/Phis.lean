import Mathlib
import SymExec.Proofs.Rounds

/-!
# Variables that stand for several

However often variables are joined, each holds the simple ones that lead to it and no others (`joins_flat`). A new one has an
ident that differs from all before it (`Made.kept`), so a block finds it again for the same variables in any order.
-/

namespace SymExec.Variable

open List Recovering Std

/-- An ident that a new variable in a register or on the stack is yet to be given. -/
def Awaits (f : FunctionVariables) (i : String) : Prop :=
  ∃ k, f.registerCount ≤ k ∧ i = "ir_" ++ k.repr ∨ f.stackCount ≤ k ∧ i = "is_" ++ k.repr

/-- Simple variables and what calls on them, one after another, returned, each with the simple ones that lead to it. -/
inductive Made (xs : List Simple) (f₀ : FunctionVariables) : FunctionVariables → List (Variable × List Simple) → Prop
  | start : Made xs f₀ f₀ (xs.map fun x => (simple x, [x]))
  | join {f f' es as p} (h : Made xs f₀ f es) (has : as ⊆ es) (hne : as ≠ []) (hp : f.makePhi (as.map (·.1)) = .ok (p, f')) :
    Made xs f₀ f' ((p, as.flatMap (·.2)) :: es)

/-- What calls leave: each variable holds what leads to it, and no two have the same ident or one that is yet to be given. -/
structure Kept (xs : List Simple) (f : FunctionVariables) (es : List (Variable × List Simple)) : Prop where
  holds : ∀ e ∈ es, (∀ x, x ∈ e.1.members ↔ x ∈ e.2) ∧ e.2 ⊆ xs ∧ e.2 ≠ []
  given : ∀ e ∈ es, ∀ i, e.1.ident = some i → ¬ Awaits f i
  differ : ∀ a ∈ es, ∀ b ∈ es, a.1.ident = b.1.ident → a.1 = b.1

variable {v w : Variable} {vs ws : List Variable} {x y : Simple} {xs ys : List Simple} {n : Nat} {r : Recovery}
  {f f₀ : FunctionVariables} {as es : List (Variable × List Simple)}

/-- An ident that is given was yet to be given, and is not given again. -/
lemma awaits_nextIdent (f : FunctionVariables) {k : IdentKind} (hk : k = .register ∨ k = .stack) :
    (Awaits f (f.nextIdent k).1 ∧ ¬ Awaits (f.nextIdent k).2 (f.nextIdent k).1) ∧ ∀ i, Awaits (f.nextIdent k).2 i → Awaits f i := by
  have hne (a b : String) : "ir_" ++ a ≠ "is_" ++ b := fun h => by simpa using congrArg String.toList h
  have hinj {a b : Nat} {s : String} (h : s ++ a.repr = s ++ b.repr) : a = b := Nat.repr_inj.1 ((String.append_right_inj s).1 h)
  obtain rfl | rfl := hk
  all_goals
    simp only [FunctionVariables.nextIdent, Awaits, show @toString Nat _ = Nat.repr from rfl]
    grind

lemma Kept.joins (h : Kept xs f es) (has : as ⊆ es) (hne : as ≠ []) :
    (∀ x, x ∈ (as.map (·.1)).flatMap members ↔ x ∈ as.flatMap (·.2)) ∧ as.flatMap (·.2) ⊆ xs ∧ ∃ y, y ∈ as.flatMap (·.2) := by
  refine ⟨fun x => ?_, fun x hx => ?_, ?_⟩
  · rw [flatMap_map, mem_flatMap, mem_flatMap]
    exact exists_congr fun e => and_congr_right fun he => (h.holds e (has he)).1 x
  · obtain ⟨e, he, hx⟩ := mem_flatMap.1 hx
    exact (h.holds e (has he)).2.1 hx
  · obtain ⟨e, he⟩ := exists_mem_of_ne_nil _ hne
    obtain ⟨y, hy⟩ := exists_mem_of_ne_nil _ (h.holds e (has he)).2.2
    exact ⟨y, mem_flatMap.2 ⟨e, he, hy⟩⟩

variable (hxs : ∀ x ∈ xs, (simple x).isRegister ∨ (simple x).isStack) (hid : {x | x ∈ xs}.InjOn Simple.ident)
include hxs hid

lemma any_same (hx : x ∈ xs) (hys : ys ⊆ xs) : ys.any x.same ↔ x ∈ ys := by
  have h := hxs x hx
  simp only [isRegister, isStack, head] at h
  rw [any_eq_true]
  refine ⟨?_, fun hm => ⟨x, hm, by cases hs : x.storage <;> simp_all [Simple.same]⟩⟩
  rintro ⟨y, hy, hs⟩
  have hi : x.ident = y.ident := by cases hx : x.storage <;> cases hy : y.storage <;> simp_all [Simple.same]
  rwa [hid hx (hys hy) hi]

lemma mem_gather (h : ys ⊆ xs) : y ∈ ys.foldl FunctionVariables.insertSimple [] ↔ y ∈ ys := by
  induction ys using reverseRecOn generalizing y with
  | nil => simp
  | append_singleton ys x ih =>
    rw [append_subset, cons_subset] at h
    have hmem y := ih (y := y) h.1
    have hany := any_same hxs hid h.2.1 fun z hz => h.1 ((hmem z).1 hz)
    rw [foldl_append, foldl_cons, foldl_nil, FunctionVariables.insertSimple]
    split_ifs <;> grind

lemma makePhi_spec (h : ∀ x, x ∈ vs.flatMap members ↔ x ∈ ys) (hys : ys ⊆ xs) (hy : y ∈ ys) (f : FunctionVariables) :
    ∃ p f', f.makePhi vs = .ok (p, f') ∧ p.isPhi ∧ (∀ x, x ∈ p.members ↔ x ∈ ys) ∧
      (∀ a ∈ vs, a.isPhi → ys ⊆ a.members → p ∈ vs) ∧ (p ∈ vs ∧ f' = f ∨
        ∃ i, p.ident = some i ∧ (Awaits f i ∧ ¬ Awaits f' i) ∧ ∀ j, Awaits f' j → Awaits f j) := by
  simp only [FunctionVariables.makePhi]
  generalize hdef : foldl _ _ _ = ms
  have hms x : x ∈ ms ↔ x ∈ ys := by rw [← hdef, mem_gather hxs hid fun x hx => hys ((h x).1 hx), h]
  have hin a (ha : a ∈ vs) : a.members ⊆ ys := fun x hx => (h x).1 (mem_flatMap.2 ⟨a, ha, hx⟩)
  have hcov a (ha : a ∈ vs) : a.isPhi && coveredBy ms a.members ↔ a.isPhi ∧ ys ⊆ a.members := by
    simp only [coveredBy, Bool.and_eq_true, all_eq_true, hms]
    exact and_congr_right fun _ => forall₂_congr fun x hx => any_same hxs hid (hys hx) (Subset.trans (hin a ha) hys)
  cases hf : vs.find? fun a => a.isPhi && coveredBy ms a.members with
  | some p =>
    have hp := mem_of_find?_eq_some hf
    have hc := find?_some hf
    rw [hcov p hp] at hc
    exact ⟨p, f, rfl, hc.1, fun x => ⟨fun hx => hin p hp hx, fun hx => hc.2 hx⟩, fun _ _ _ _ => hp, .inl ⟨hp, rfl⟩⟩
  | none =>
    -- no argument holds all: a new one is made
    obtain ⟨z, zs, rfl⟩ := exists_cons_of_ne_nil (ne_nil_of_mem ((hms y).2 hy))
    have hsub : z :: zs ⊆ xs := fun x hx => hys ((hms x).1 hx)
    have hz := hxs z (hsub mem_cons_self)
    simp only [isRegister, isStack, head] at hz
    cases hs : z.storage with
    | register | stack =>
      simp only [head?_cons, hs]
      exact ⟨_, _, rfl, rfl, fun x => (mem_gather hxs hid hsub).trans (hms x),
        fun a ha hp hx => absurd ((hcov a ha).2 ⟨hp, hx⟩) (find?_eq_none.1 hf a ha),
        .inr ⟨_, rfl, awaits_nextIdent f (by decide)⟩⟩
    | _ => simp [hs] at hz

variable (hnew : ∀ x ∈ xs, ∀ i, x.ident = some i → ¬ Awaits f₀ i)
include hnew

lemma Made.kept (h : Made xs f₀ f es) : Kept xs f es := by
  induction h with
  | start =>
    refine ⟨?_, ?_, ?_⟩
    all_goals simp only [forall_mem_map]
    · exact fun x hx => ⟨fun _ => .rfl, by simpa, cons_ne_nil _ _⟩
    · exact hnew
    · exact fun x hx y hy hxy => congrArg _ (hid hx hy hxy)
  | @join f f' es as p _ has hne hp ih =>
    obtain ⟨hmem, hsub, y, hy⟩ := ih.joins has hne
    obtain ⟨_, _, hm, -, hholds, -, hcase⟩ := makePhi_spec hxs hid hmem hsub hy f
    cases hm.symm.trans hp
    obtain ⟨hkeep, hgiven, hsame⟩ : (∀ j, Awaits f' j → Awaits f j) ∧ (∀ j, p.ident = some j → ¬ Awaits f' j) ∧
        ∀ e ∈ es, e.1.ident = p.ident → e.1 = p := by
      obtain ⟨hold, rfl⟩ | ⟨i, hi, ⟨hawaits, hnot⟩, hkeep⟩ := hcase
      · obtain ⟨e, he, rfl⟩ := mem_map.1 hold
        exact ⟨fun _ => id, ih.given e (has he), fun a ha => ih.differ a ha e (has he)⟩
      · refine ⟨hkeep, fun j hj => ?_, fun e he h => absurd hawaits (ih.given e he i (h.trans hi))⟩
        cases hi.symm.trans hj
        exact hnot
    refine ⟨forall_mem_cons.2 ⟨⟨hholds, hsub, ne_nil_of_mem hy⟩, ih.holds⟩,
      forall_mem_cons.2 ⟨hgiven, fun e he j hj hawaits => ih.given e he j hj (hkeep j hawaits)⟩, forall_mem_cons.2 ⟨?_, fun a ha => ?_⟩⟩
    · exact forall_mem_cons.2 ⟨fun _ => rfl, fun b hb hab => (hsame b hb hab.symm).symm⟩
    · exact forall_mem_cons.2 ⟨hsame a ha, ih.differ a ha⟩

end SymExec.Variable
