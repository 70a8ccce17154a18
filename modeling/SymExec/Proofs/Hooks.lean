import Mathlib.Data.List.Basic
import SymExec.Plugin.Hub

/-!
# Which hook handles a call
-/

namespace SymExec.HookedMethod

open List

variable {η χ ρ : Type} (hook : η → χ → Reaction χ ρ) (base : χ → Reaction χ ρ) (fuel : Nat) (x : χ) (m : HookedMethod η χ)

/-- All hooks, in the order in which they were installed. -/
def hooks : List η := m.pending ++ m.pulled.reverse

/-- What calls leave as it is: the hooks, and the record of the calls before. -/
def Same (m m' : HookedMethod η χ) : Prop := m'.hooks = m.hooks ∧ m.taken <+: m'.taken

lemma pull_spec : (m.pull x).1 = m.hooks.reverse[m.pulled.length]? ∧ (m.pull x).2.hooks = m.hooks ∧
    (m.pull x).2.pulled.length = min (m.pulled.length + 1) m.hooks.length ∧ (m.pull x).2.taken = m.taken ++ [((m.pull x).1, x)] := by
  obtain h | ⟨hs, h, hm⟩ := m.pending.eq_nil_or_concat'
  · simp [pull, hooks, h]
  · simp [pull, hooks, hm]

lemma invoke_succ : ∃ body, (invoke hook base (fuel + 1) x m).2 =
    (react (invoke hook base fuel) body (m.pull x).2).2.restore := ⟨_, rfl⟩

lemma react_same {call} (hcall : ∀ x m, Same m (call x m).2) (body : Reaction χ ρ) : Same m (react call body m).2 := by
  induction body generalizing m with
  | done r => exact ⟨rfl, prefix_rfl⟩
  | call x next ih =>
    have hrest := ih (call x m).1 (call x m).2
    exact ⟨hrest.1.trans (hcall x m).1, (hcall x m).2.trans hrest.2⟩

lemma invoke_same : Same m (invoke hook base fuel x m).2 := by
  induction fuel generalizing x m with
  | zero => exact ⟨rfl, prefix_rfl⟩
  | succ fuel ih =>
    obtain ⟨body, h⟩ := invoke_succ hook base fuel x m
    obtain ⟨-, hhooks, -, htaken⟩ := m.pull_spec x
    obtain ⟨hh, ht⟩ := react_same (m.pull x).2 ih body
    rw [h]
    exact ⟨by simpa [hooks, restore] using hh.trans hhooks, (htaken ▸ prefix_append ..).trans ht⟩

/-- **Which hook handles a call.** With `k` hooks pulled, it is the one with `k` hooks installed after it, or the method itself if there
is none, and what handles the call starts with that hook pulled. However the call goes, all hooks are back in place when it ends: the
next one, also if it is made in the body of a hook, is handled by the hook installed last. -/
theorem invoke_dispatch (m : HookedMethod η χ) : let m' := (invoke hook base (fuel + 1) x m).2
    m.taken ++ [(m.hooks.reverse[m.pulled.length]?, x)] <+: m'.taken ∧
    (m.pull x).2.pulled.length = min (m.pulled.length + 1) m.hooks.length ∧ m'.pending = m.hooks ∧ m'.pulled = [] := by
  obtain ⟨body, h⟩ := invoke_succ hook base fuel x m
  obtain ⟨hfirst, hhooks, hdepth, htaken⟩ := m.pull_spec x
  obtain ⟨hh, ht⟩ := react_same (m.pull x).2 (invoke_same hook base fuel) body
  rw [htaken, hfirst] at ht
  rw [h]
  exact ⟨ht, hdepth, hh.trans hhooks, rfl⟩

/-! ### What bodies see -/

section
variable (call : χ → HookedMethod η χ → Try ρ × HookedMethod η χ) (seen : χ → HookedMethod η χ → List (HookedMethod η χ))

/-- The method as it is when bodies are entered or left in the calls that a body makes, if `seen` lists this for each call. -/
def watch : Reaction χ ρ → HookedMethod η χ → List (HookedMethod η χ)
  | .done _, _ => []
  | .call x next, m => seen x m ++ watch (next (call x m).1) (call x m).2

lemma watch_hooks (hcall : ∀ x m, Same m (call x m).2) (hseen : ∀ x m, ∀ s ∈ seen x m, s.hooks = m.hooks) (b : Reaction χ ρ) :
    ∀ s ∈ watch call seen b m, s.hooks = m.hooks := by
  induction b generalizing m with
  | done r => exact fun _ hs => absurd hs not_mem_nil
  | call x next ih =>
    intro s hs
    obtain hs | hs := mem_append.1 hs
    · exact hseen x m s hs
    · exact (ih _ _ s hs).trans (hcall x m).1

end

def body (x : χ) : Option η → Reaction χ ρ
  | some h => hook h x
  | none => base x

/-- The method as it is whenever a hook, or the method itself, is entered or left in a call or in a call inside of it. -/
def passed : Nat → χ → HookedMethod η χ → List (HookedMethod η χ)
  | 0, _, _ => []
  | fuel + 1, x, m =>
    let (h?, m) := m.pull x
    let b := body hook base x h?
    m :: watch (invoke hook base fuel) (passed fuel) b m ++ [(react (invoke hook base fuel) b m).2]

lemma passed_hooks : ∀ s ∈ passed hook base fuel x m, s.hooks = m.hooks := by
  induction fuel generalizing x m with
  | zero => exact fun _ hs => absurd hs not_mem_nil
  | succ fuel ih =>
    intro s hs
    have hpull := (m.pull_spec x).2.1
    have hsame := invoke_same hook base fuel
    simp only [passed, cons_append, mem_cons, mem_append, not_mem_nil, or_false] at hs
    obtain rfl | hs | rfl := hs
    · exact hpull
    · exact (watch_hooks _ _ _ hsame ih _ s hs).trans hpull
    · exact (react_same _ hsame _).1.trans hpull

/-- **No hook is lost.** Whenever a hook or the method itself is entered or left, in a call or in the calls made inside of it, the
pending hooks and then the pulled ones, last first, are the hooks in the order of their installation. When the call ends, with a
result or a fault, they are all pending. -/
theorem invoke_keeps_hooks (m : HookedMethod η χ) : (passed hook base (fuel + 1) x m).Forall (·.hooks = m.hooks) ∧
    (invoke hook base (fuel + 1) x m).2.pending = m.hooks ∧ (invoke hook base (fuel + 1) x m).2.pulled = [] := by
  have hpassed := passed_hooks hook base (fuel + 1) x m
  have hend := (invoke_same hook base (fuel + 1) x m).1
  exact ⟨forall_iff_forall_mem.2 hpassed, (append_nil _).symm.trans hend, rfl⟩

end SymExec.HookedMethod
