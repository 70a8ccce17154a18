import SymExec.Manager
import SymExec.Proofs.Unshared

/-!
# Call stacks and callbacks
-/

namespace SymExec

open List Exec Exploring

/-- What frames are compared by. -/
def Frame.key (f : Frame) : Option Nat × Option Nat × Option Int := (f.func, f.sp, f.ret)

lemma sameStack_iff (a b) : sameStack a b = true ↔ a.map (·.key) = b.map (·.key) := by
  induction a generalizing b with
  | nil => cases b <;> simp [sameStack]
  | cons f a ih => cases b <;> simp [sameStack, ih, Frame.key, and_assoc]

variable (none? : Outcome) (i : Nat)

def callback (f : Option Nat) : Outcome :=
  f.elim none? fun f => .call (.num f) [] "do_callbacks" [("callbacks", .ofNat i)]

lemma nextCallback_run (s w) : ∃ w', (Prod.fst <$> onState s (nextCallback none? i)) w =
    .ok (callback none? i (w.callbacks.getD i []).head?) w' ∧ w'.callbacks.getD i [] = (w.callbacks.getD i []).tail ∧
    w'.state = w.state := by
  simp only [Functor.map, EStateM.map, onState, nextCallback, bind_get]
  cases h : w.callbacks.getD i [] with
  | nil => exact ⟨w, rfl, h, rfl⟩
  | cons f rest =>
    have hi : i < w.callbacks.size := by
      by_contra hi
      simp [hi] at h
    exact ⟨_, rfl, by simp [hi], rfl⟩

/-- **Frames and their callbacks.** Copies of a frame have one table of callbacks: the next one goes to the copy that asks next.
Stacks are the same exactly if functions, stack pointers and return addresses are. A pop undoes a push, save that a stack pointer
of zero becomes the greatest address. -/
theorem World.callbacks_shared (w : World) (states : List State) :
    (∃ w', states.mapM (fun s => Prod.fst <$> onState s (nextCallback none? i)) w =
      .ok ((range states.length).map fun k => callback none? i (w.callbacks.getD i [])[k]?) w' ∧ w'.state = w.state) ∧
    (∀ a b, sameStack a b = true ↔ a.map (·.key) = b.map (·.key)) ∧
    ∀ f g rest, ∃ w', (do pushFrame f; popFrame) { w with state := { w.state with callstack := g :: rest } } = .ok () w' ∧
      w'.state.callstack = (if g.sp = some 0 then { g with sp := some (2 ^ w.state.arch.bits - 1) } else g) :: rest := by
  refine ⟨?_, sameStack_iff, fun f g rest => ⟨_, rfl, rfl⟩⟩
  induction states generalizing w with
  | nil => exact ⟨w, rfl, rfl⟩
  | cons s states ih =>
    obtain ⟨u, hrun, hrest, hu⟩ := nextCallback_run none? i s w
    obtain ⟨w', hw', hs⟩ := ih u
    refine ⟨w', ?_, hs.trans hu⟩
    rw [hrest] at hw'
    rw [mapM_cons, bind_of_ok hrun, bind_of_ok hw', length_cons, range_succ_eq_map, map_cons, map_map, head?_eq_getElem?]
    simp only [getElem?_tail]
    rfl

end SymExec
