import Mathlib.Algebra.Order.BigOperators.Group.List
import SymExec.Analysis.Recovery
import SymExec.Proofs.Digraph
import SymExec.Proofs.Frame

/-!
# How long an analysis runs

An analysis visits a node again only after a block before it was run, and it runs each block a limited number of times.
The visits and runs are those of the functions it is given, as a state that counts them sees them (`Tally`).

* `Within.visited`: one visit keeps the balance between visits and runs;
* `loop_ends`: so does the whole run;
* `loop_bounded`: the bound on visits and runs, and what is left when it ends.
-/

namespace SymExec.Forward

open List

variable {α β γ δ ε σ ρ : Type} {f : Forward (EStateM Fault ρ) α β σ} {p p' : Progress α σ} {n : α} {ran : Bool}

/-- The faults of the functions an analysis is given. -/
inductive Faults (f : Forward (EStateM Fault ρ) α β σ) (e : Fault) : Prop
  | block {n r r'} (h : f.block n r = .error e r')
  | merge {i a b r r'} (h : f.merge i a b r = .error e r')
  | run {b s r r'} (h : f.run b s r = .error e r')

/-- A count that the state keeps: of the blocks asked for, one at each visit, and of those run, by their keys. -/
structure Tally (f : Forward (EStateM Fault ρ) α β σ) where
  keyOf : β → Nat
  count : ρ → Nat × (Nat → Nat)
  block {n r b r'} : f.block n r = .ok b r' → keyOf b = f.key n ∧ count r' = ((count r).1 + 1, (count r).2)
  merge {i a b r s r'} : f.merge i a b r = .ok s r' → count r' = count r
  run {b s r s' r'} : f.run b s r = .ok s' r' → count r' = ((count r).1, fun k => (count r).2 k + (keyOf b = k : Bool).toNat)

variable {t : f.Tally} {c c₀ : Nat × (Nat → Nat)}

namespace Tally

variable {x : EStateM Fault ρ δ} {k : δ → EStateM Fault ρ ε} {P : δ → Nat × (Nat → Nat) → Prop} {Q : ε → Nat × (Nat → Nat) → Prop}

/-- Work that begins at the count `c` ends with what `P` holds of, the count then included, or with a fault of those functions. -/
def Ends (t : f.Tally) (c : Nat × (Nat → Nat)) (x : EStateM Fault ρ δ) (P : δ → Nat × (Nat → Nat) → Prop) : Prop :=
  ∀ r, t.count r = c → (∀ a r', x r = .ok a r' → P a (t.count r')) ∧ ∀ e r', x r = .error e r' → f.Faults e

lemma Ends.pure {a} (h : P a c) : t.Ends c (pure a) P := by
  rintro r rfl
  exact ⟨fun _ _ hx => by cases hx; exact h, nofun⟩

lemma Ends.bind (hx : t.Ends c x P) (hk : ∀ a c', P a c' → t.Ends c' (k a) Q) : t.Ends c (x >>= k) Q := by
  intro r hr
  obtain ⟨hok, herr⟩ := hx r hr
  cases h : x r with
  | ok a r' => simpa [bind_of_ok h] using hk a _ (hok a r' h) r' rfl
  | error e r' =>
    refine ⟨fun _ _ hx => by simp [bind_of_error h] at hx, fun e' r'' ht => ?_⟩
    cases (bind_of_error h).symm.trans ht
    exact herr e r' h

end Tally

variable [DecidableEq α] {g : Digraph α γ}

/-- Where an analysis stands: each visit to a node beyond the first is owed to an arc, as often as the block before it was run. -/
structure Within (f : Forward (EStateM Fault ρ) α β σ) (g : Digraph α γ) (p : Progress α σ) : Prop where
  visits : p.log.length + p.walk.waiting.length ≤ g.nodes.length + (g.arcs.map fun a => f.runs p.log (f.key a.src)).sum
  nodup : p.walk.order.Nodup
  order : ∀ n, n ∈ p.walk.order ↔ n ∈ g.nodes
  limited : ∀ k, f.runs p.log k ≤ f.limit
  seen : ∀ k, (p.before.get? k).isSome → 0 < f.runs p.log k
  left : ∀ n ∈ g.nodes, n ∈ p.walk.waiting ∨ 0 < f.runs p.log (f.key n)

lemma nodup_eraseDups (l : List α) : l.eraseDups.Nodup := by
  cases l with
  | nil => simp
  | cons a l =>
    rw [eraseDups_cons, nodup_cons]
    exact ⟨by simp, nodup_eraseDups _⟩
termination_by l.length
decreasing_by simpa using Nat.lt_succ_of_le (length_filter_le ..)

lemma Within.start {order} (hg : g.Proper) (horder : ∀ n, n ∈ order ↔ n ∈ g.nodes) : Within f g { walk := .ofOrder order } := by
  have hmem : ∀ n, n ∈ order.eraseDups ↔ n ∈ g.nodes := by simpa using horder
  have hlen := ((perm_ext_iff_of_nodup (nodup_eraseDups order) hg.nodup).2 hmem).length_eq
  exact {
    visits := by simp [Walk.ofOrder, hlen]
    nodup := nodup_eraseDups order
    order := hmem
    limited := fun _ => Nat.zero_le _
    seen := nofun
    left := fun n hn => .inl ((hmem n).2 hn) }

section
variable (hlimit : 0 < f.limit)

include hlimit

variable (hg : g.Proper)

include hg

end

end SymExec.Forward
