import Mathlib.Data.Bool.Basic
import SymExec.CTypes.Basic

/-!
# Equality of types

The laws of equality.
-/

namespace SymExec.CType

variable {s : Structs} {a : Option Arch} {n : Nat} {t u v : CType} {eq : CType → CType → Except Fault Bool} {x y : Except Fault Bool}

lemma and_ok {b} : (do if ← x then y else return false) = .ok b ↔ x = .ok true ∧ y = .ok b ∨ x = .ok false ∧ b = false := by
  obtain _ | (_ | _) := x <;> simp [bind, Except.bind, pure, Except.pure, eq_comm]

lemma allEqual_self (h : ∀ t, eq t t ≠ .ok false) (xs : List CType) : allEqual eq (xs.zip xs) ≠ .ok false := by
  induction xs with
  | nil => nofun
  | cons x xs ih => simp_all [allEqual, and_ok]

lemma allEqual_swap (h : ∀ t u, eq t u = eq u t) (xs ys : List CType) : allEqual eq (xs.zip ys) = allEqual eq (ys.zip xs) := by
  induction xs generalizing ys with
  | nil => cases ys <;> rfl
  | cons x xs ih => cases ys with
    | nil => rfl
    | cons y ys => simp only [List.zip_cons_cons, allEqual, h x y, ih]

lemma allEqual_trans (h : ∀ t u v, eq t u = .ok true → eq u v = .ok true → eq t v = .ok true) {xs ys zs : List CType}
    (hl : xs.length = ys.length) (hx : allEqual eq (xs.zip ys) = .ok true) (hy : allEqual eq (ys.zip zs) = .ok true) :
    allEqual eq (xs.zip zs) = .ok true := by
  induction xs generalizing ys zs with
  | nil => rfl
  | cons x xs ih =>
    cases ys <;> cases zs <;> first | cases hl | rfl | skip
    simp only [List.zip_cons_cons, allEqual, and_ok, Bool.true_eq_false, and_false, or_false] at *
    exact ⟨h _ _ _ hx.1 hy.1, ih (Nat.succ.inj hl) hx.2 hy.2⟩

lemma equalIn_self (n : Nat) (t) : equalIn s a n t t ≠ .ok false := by
  induction n generalizing t with
  | zero => nofun
  | succ n ih =>
    have hall := allEqual_self ih
    cases t <;> cases a <;> simp_all [equalIn, and_ok, raise] <;> nofun

lemma equalIn_symm (n : Nat) (t u) : equalIn s a n t u = equalIn s a n u t := by
  induction n generalizing t u with
  | zero => rfl
  | succ n ih =>
    have hall := allEqual_swap ih
    cases t <;> cases u <;> first | rfl | simp only [equalIn, hall, ih] <;> grind

lemma equalIn_func {xs ys b c} : equalIn s a (n + 1) (.func xs t b) (.func ys u c) = .ok true ↔
    (b = c ∧ xs.length = ys.length) ∧ allEqual (equalIn s a n) (xs.zip ys) = .ok true ∧ equalIn s a n t u = .ok true := by
  rw [equalIn]
  by_cases h : b = c ∧ xs.length = ys.length
  · simp [h, and_ok]
  · rw [if_pos (by grind)]
    exact ⟨nofun, fun h' => absurd h'.1 h⟩

lemma equalIn_trans (h : equalIn s a n t u = .ok true) (h' : equalIn s a n u v = .ok true) : equalIn s a n t v = .ok true := by
  induction n generalizing t u v with
  | zero => cases h
  | succ n ih =>
    have hall := @allEqual_trans (equalIn s a n) fun _ _ _ => ih
    cases t <;> cases u <;> first | (cases h; done) | skip
    all_goals cases v <;> first | (cases h'; done) | rfl | skip
    case func.func.func =>
      rw [equalIn_func] at *
      exact ⟨by grind, hall h.1.2 h.2.1 h'.2.1, ih h.2.2 h'.2.2⟩
    case struct.struct.struct i j k =>
      have hl (h : (s.fieldsOf i).map (·.1) = (s.fieldsOf j).map (·.1)) := congrArg List.length h
      simp only [equalIn, pure, Except.pure] at *
      grind
    all_goals grind [equalIn]

lemma hash_of_equalIn (h : equalIn s a n t u = .ok true) : hashParts a t = hashParts a u := by
  induction n generalizing t u with
  | zero => cases h
  | succ n ih =>
    cases t <;> cases u <;> first | (cases h; done) | rfl | skip
    case pointer.pointer =>
      cases a
      · rfl
      · simp only [hashParts, kind, ih h]
    case func.func =>
      obtain ⟨⟨rfl, -⟩, -, hr⟩ := equalIn_func.1 h
      cases ‹Bool› <;> simp only [hashParts, ih hr]
    all_goals cases a <;> first | rfl | grind [equalIn]

/-- **Equality** is reflexive as far as it is decided, symmetric and transitive, and equal types have equal hashes, or none. All
arrays are equal, and all unions. -/
theorem equal_laws (s : Structs) (a : Option Arch) :
    (∀ t, equal s a t t ≠ .ok false) ∧ (∀ t u, equal s a t u = equal s a u t) ∧
    (∀ t u v, equal s a t u = .ok true → equal s a u v = .ok true → equal s a t v = .ok true) ∧
    (∀ t u, equal s a t u = .ok true → hashParts a t = hashParts a u) ∧
    (∀ e k f l, equal s a (.array e k) (.array f l) = .ok true) ∧ ∀ ms ns, equal s a (.union ms) (.union ns) = .ok true :=
  ⟨equalIn_self _, equalIn_symm _, fun _ _ _ => equalIn_trans, fun _ _ => hash_of_equalIn, fun _ _ _ _ => rfl, fun _ _ => rfl⟩

end SymExec.CType
