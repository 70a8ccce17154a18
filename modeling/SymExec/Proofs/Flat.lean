import SymExec.State.Fork
import SymExec.Proofs.Access

/-!
# Memory as a flat map of bytes

A memory keeps chunks in pages, shared ones and some that cover a page, and cuts and reverses them when they are read.
-/

namespace SymExec

open Option

/-- What is known of the byte at each address: its value in every model, if something is there. -/
abbrev Flat := Nat → Option (Model → Nat)

def Flat.read (f : Flat) (e : Endness) (a n : Nat) (μ : Model) : Nat :=
  e.number ((List.range n).map fun i => ((f (a + i)).map (· μ)).getD 0)

/-- The map with `n` bytes of a term laid over it from an address on. -/
def Flat.lay (f : Flat) (e : Endness) (v : Bits) (a n : Nat) : Flat := fun x =>
  if a ≤ x ∧ x < a + n then some fun μ => e.byteAt (v.eval μ) a n x else f x

def Unshared.flat (u : Unshared) : Flat := fun a => (u.view a).map fun c μ => c.byte μ a

def World.flat (w : World) (r : Region) : Flat :=
  match w.state.memory? r with
  | some m => (m.paged.unshared w.commons).flat
  | none => fun _ => none

/-- A memory that has no page and was loaded with nothing. -/
structure Paged.Empty (p : Paged) : Prop where
  pages : ∀ n : Nat, p.pages[n]? = none
  backing : p.backing.segments = []

namespace Unshared

lemma flat_eq_of_view {u v : Unshared} (h : ∀ a, v.view a = u.view a) : v.flat = u.flat := funext fun a => by rw [flat, flat, h]

lemma flat_of_over {u v : Unshared} {c : Chunk} {e t a n} (hc : c.Holds e t a n)
    (h : ∀ x, v.view x = c.over u.view x) : v.flat = u.flat.lay e t a n := by
  funext x
  have hcov : c.covers x = true ↔ a ≤ x ∧ x < a + n := by rw [Chunk.covers_iff, Chunk.stop, hc.base, hc.length]
  rw [flat, h, Flat.lay, Chunk.over]
  by_cases hx : a ≤ x ∧ x < a + n
  · rw [if_pos (hcov.2 hx), if_pos hx]
    exact congrArg some (funext fun μ => hc.byte μ x hx.1 hx.2)
  · rw [if_neg (mt hcov.1 hx), if_neg hx]
    rfl

lemma isSome_flat (u : Unshared) (a) : (u.flat a).isSome = (u.view a).isSome := isSome_map

lemma byte_eq_flat (u : Unshared) (μ : Model) (a) : u.byte μ a = ((u.flat a).map (· μ)).getD 0 := by
  rw [byte, flat]
  cases u.view a <;> rfl

end Unshared

namespace Paged

variable {p : Paged}

section
variable (h : p.Empty) (c : Commons)
include h c

lemma Empty.placed : p.Placed c := fun n i hi => absurd (h.pages n ▸ hi) (by simp)

lemma Empty.unheld (n) : (p.unshared c).pages n = none := by simp [unshared, h.pages]

lemma Empty.view (a : Nat) : (p.unshared c).view a = none := Unshared.SameOrigin.view ⟨rfl, rfl⟩ h.backing (h.unheld c _)

lemma Empty.sound : (p.unshared c).Sound :=
  ⟨fun n _ => Unshared.SameOrigin.unheld_sound ⟨rfl, rfl⟩ h.backing (h.unheld c n), fun a _ hc => absurd (h.view c a ▸ hc) (by simp)⟩

end

end Paged

/-! ### Stores -/

structure Put where
  addr : Quantity
  data : Bits
  options : StoreOptions := {}

namespace Put

def first (p : Put) : Nat := p.addr.nat?.getD 0

def count (p : Put) : Nat :=
  match p.options.size with
  | none => p.data.width / 8
  | some q => q.nat?.getD 0

def run (r : Region) (p : Put) : Exec Unit := discard <| Exec.store r p.addr p.data p.options

/-- A store of whole bytes at a plain address, with a plain size that the data reaches and without a condition. -/
structure Plain (p : Put) (cat : Category) (bits : Nat) : Prop where
  addr : p.addr.nat?.isSome
  size : ∀ q, p.options.size = some q → q.nat?.isSome
  condition : p.options.condition = none
  valid : p.data.Valid
  whole : p.data.width % 8 = 0
  reaches : p.count ≤ (Exec.storeData cat bits p.options.size p.data).width / 8
  fits : p.count < 2 ^ bits

def lay (e : Endness) (f : Flat) (p : Put) : Flat := fun x =>
  if p.first ≤ x ∧ x < p.first + p.count then some fun μ => (p.options.endness.getD e).byteAt (p.data.eval μ) p.first p.count x
  else f x

variable {p : Put} {cat : Category} {bits : Nat}

lemma Plain.nat?_addr (h : p.Plain cat bits) : p.addr.nat? = some p.first := by
  obtain ⟨a, ha⟩ := isSome_iff_exists.1 h.addr
  rw [first, ha]
  rfl

lemma Plain.nat?_size (h : p.Plain cat bits) :
    (Exec.storeSize bits p.options.size (Exec.storeData cat bits p.options.size p.data)).nat? = some p.count := by
  have fitted : ∀ n, p.count = n → (Quantity.bits (Bits.ofNat bits n)).nat? = some p.count := by
    rintro n rfl
    exact congrArg some (Word.trunc_of_lt h.fits)
  cases hq : p.options.size with
  | none =>
    have hdata : Exec.storeData cat bits none p.data = p.data := by cases cat <;> rfl
    rw [hdata]
    exact fitted _ (by rw [count, hq])
  | some q =>
    cases q with
    | num n =>
      refine fitted n ?_
      rw [count, hq]
      rfl
    | bits b =>
      obtain ⟨n, hn⟩ := isSome_iff_exists.1 (h.size _ hq)
      rw [count, hq]
      change (Quantity.bits b).nat? = some ((Quantity.bits b).nat?.getD 0)
      rw [hn]
      rfl

end Put

section
variable {r : Region} {S : Scene} {m : Memory}

open Exec

/-- The scene after work on the pages of a memory, which then has the bytes of a map. -/
def Scene.Has (S : Scene) (m : Memory) (f : Flat) (T : Scene) : Prop :=
  ∃ p k, T = S.withPages m p k ∧ T.Ready { m with paged := p } ∧ (p.unshared k).flat = f

/-- **A store** lays its bytes over the map. -/
theorem Put.run_does (hS : S.Ready m) {p : Put} (hp : p.Plain m.category S.arch.bits) :
    Does r S (p.run r) fun _ T => S.Has m (p.lay m.endness (S.contents m).flat) T := by
  refine (store_does hS hp.nat?_addr hp.valid hp.whole hp.condition hp.nat?_size hp.reaches).bind ?_
  rintro _ T ⟨c, hc, q, k, rfl, -, hready, hview⟩
  exact .pure ⟨q, k, rfl, hready, Unshared.flat_of_over hc hview⟩

/-- **Any stores** lay their bytes over the map in turn. -/
theorem Put.forM_run_does (hS : S.Ready m) (puts : List Put) (hputs : ∀ p ∈ puts, p.Plain m.category S.arch.bits) :
    Does r S (puts.forM (Put.run r)) fun _ T => S.Has m (puts.foldl (Put.lay m.endness) (S.contents m).flat) T := by
  induction puts generalizing S m with
  | nil => exact .pure ⟨m.paged, S.commons, by rw [Scene.withPages, ← hS.memory], hS, rfl⟩
  | cons p puts ih =>
    refine (Put.run_does hS (hputs p (by simp))).bind ?_
    rintro _ T ⟨q, k, rfl, hready, hflat⟩
    have rest := ih hready fun p' hp' => hputs p' (.tail _ hp')
    rw [List.foldl_cons, ← hflat]
    exact rest

/-! ### Loads -/

structure Get where
  addr : Quantity
  options : LoadOptions := {}

namespace Get

def first (g : Get) : Nat := g.addr.nat?.getD 0

def count (g : Get) (word : Nat) : Nat := (g.options.size.getD (.num word)).nat?.getD 0

def run (r : Region) (g : Get) : Exec Bits := Exec.load r g.addr g.options

structure Plain (g : Get) (word : Nat) : Prop where
  addr : g.addr.nat?.isSome
  size : (g.options.size.getD (.num word)).nat?.isSome
  condition : g.options.condition = none
  within : g.count word ≤ Exec.maximumConcreteSize

end Get

/-- **A load** of bytes that are there gives their number. -/
theorem Get.run_does (hS : S.Ready m) {g : Get} (hg : g.Plain S.arch.bytes)
    (h : ∀ x, g.first ≤ x → x < g.first + g.count S.arch.bytes → ((S.contents m).flat x).isSome) :
    Does r S (g.run r) fun v T => v.width = 8 * g.count S.arch.bytes ∧
      (∀ μ, v.eval μ = (S.contents m).flat.read (g.options.endness.getD m.endness) g.first (g.count S.arch.bytes) μ) ∧
      S.Has m (S.contents m).flat T := by
  obtain ⟨a, ha⟩ := isSome_iff_exists.1 hg.addr
  obtain ⟨n, hn⟩ := isSome_iff_exists.1 hg.size
  have hfirst : g.first = a := by rw [first, ha]; rfl
  have hcount : g.count S.arch.bytes = n := by rw [count, hn]; rfl
  have hwithin := hg.within
  rw [hfirst, hcount] at h
  rw [hcount] at hwithin
  rw [hfirst, hcount]
  refine (load_does hS ha g.options hn hwithin hg.condition fun x h1 h2 => ?_).mono ?_
  · rw [← Unshared.isSome_flat]
    exact h x h1 h2
  · rintro v T ⟨⟨-, hwidth, hval⟩, p, k, rfl, -, hready, hview⟩
    refine ⟨hwidth, fun μ => ?_, p, k, rfl, hready, Unshared.flat_eq_of_view hview⟩
    rw [hval]
    exact congrArg _ (List.map_congr_left fun i _ => Unshared.byte_eq_flat ..)

end

namespace World

open Exec

variable {w : World} {r : Region} {m : Memory}

lemma flat_of_has {S : Scene} {f} (h : S.Has m f (w.scene r)) : w.flat r = f := by
  obtain ⟨p, k, hscene, -, hflat⟩ := h
  have hmem : w.state.memory? r = some { m with paged := p } := congrArg Scene.memory hscene
  have hcommons : w.commons = k := congrArg Scene.commons hscene
  rw [flat, hmem, ← hflat, hcommons]

/-- **Memory is a flat map of bytes** for accesses at plain addresses. Any stores to an empty memory succeed, and the memory
then has at each address the byte that was stored there last, and nothing where none was stored. Any load of a range all of
whose bytes are there then succeeds, gives the number of those bytes in the order of its endness, and changes no byte. No
breakpoint must be set and no protection enforced, and the load must keep to the limit of its size. -/
theorem stores_refine_flat_map (hm : w.state.memory? r = some m) (hfast : m.fast = none) (hempty : m.paged.Empty)
    (hbits : w.state.arch.bits % 8 = 0) (hsolver : w.solver.Folds) (hquiet : w.Quiet)
    (hfree : ¬ (w.scene r).Enforced m) {puts : List Put} (hputs : ∀ p ∈ puts, p.Plain m.category w.state.arch.bits) :
    ∃ w', puts.forM (Put.run r) w = .ok () w' ∧ w'.flat r = puts.foldl (Put.lay m.endness) (fun _ => none) ∧
      ∀ g : Get, g.Plain w.state.arch.bytes →
        (∀ x, g.first ≤ x → x < g.first + g.count w.state.arch.bytes → (w'.flat r x).isSome) →
        ∃ v w'', g.run r w' = .ok v w'' ∧ v.width = 8 * g.count w.state.arch.bytes ∧ (∀ μ, v.eval μ =
            (w'.flat r).read (g.options.endness.getD m.endness) g.first (g.count w.state.arch.bytes) μ) ∧
          w''.flat r = w'.flat r := by
  have hready : (w.scene r).Ready m :=
    ⟨hm, hfast, hempty.placed _, hempty.sound _, hfree, hsolver, hbits⟩
  have hnone : ((w.scene r).contents m).flat = fun _ => none := funext fun a => by
    rw [Unshared.flat, Scene.contents, hempty.view]
    rfl
  obtain ⟨_, w', hrun, hquiet', hhas⟩ := Put.forM_run_does (r := r) hready puts hputs w hquiet rfl
  have hflat := flat_of_has hhas
  obtain ⟨p, k, hscene, hready', hflat'⟩ := hhas
  refine ⟨w', hrun, by rw [hflat, hnone], fun g hg hthere => ?_⟩
  rw [hscene] at hready'
  rw [hflat, ← hflat'] at hthere ⊢
  obtain ⟨v, w'', hv, -, hwidth, hval, hhas'⟩ := Get.run_does (r := r) hready' hg hthere w' hquiet' hscene
  exact ⟨v, w'', hv, hwidth, hval, flat_of_has hhas'⟩

lemma empty_blank (arch mode settings) : (State.blank arch mode settings).memory.paged.Empty :=
  ⟨fun n => by simp [State.blank, Memory.empty], rfl⟩

/-- A symbol stored across the end of a page, two of its bytes overwritten on both sides of it, and a load of those and one
byte on each side. -/
theorem stores_refine_flat_map_across_pages :
    let w : World := { state := .blank .amd64 .symbolic (Mode.settings .symbolic), solver := .ideal }
    let x : Bits := .sym "x" 64
    let puts : List Put := [{ addr := .num 4092, data := x, options := { endness := some .little } },
      { addr := .num 4095, data := .lit 16 0xabcd }]
    w.state.memory.paged.Empty ∧ w.solver.Folds ∧ w.Quiet ∧ ¬ (w.scene .memory).Enforced w.state.memory ∧
    (∀ p ∈ puts, p.Plain .memory 64) ∧
    ∃ w' v w'', puts.forM (Put.run .memory) w = .ok () w' ∧
      Get.run .memory { addr := .num 4094, options := { size := some (.num 4) } } w' = .ok v w'' ∧ v.width = 32 ∧
      ∀ μ, v.eval μ = Endness.big.number [Word.byte (x.eval μ) 2, 0xab, 0xcd, Word.byte (x.eval μ) 5] := by
  intro w x puts
  have hempty : w.state.memory.paged.Empty := empty_blank _ _ _
  have hsolver : w.solver.Folds := Solver.ideal_exact.folds
  have hquiet : w.Quiet := fun i hi => absurd hi (by simp [w, State.blank])
  have hfree : ¬ (w.scene .memory).Enforced w.state.memory := fun h => absurd h.2 (by decide)
  have hputs : ∀ p ∈ puts, p.Plain .memory 64 := by
    intro p hp
    simp only [puts, List.mem_cons, List.not_mem_nil, or_false] at hp
    obtain rfl | rfl := hp
    · exact ⟨rfl, fun q hq => absurd hq (by simp), rfl, trivial, Nat.mul_mod_left 8 8, Nat.le_refl _, by decide⟩
    · exact ⟨rfl, fun q hq => absurd hq (by simp), rfl, show 0xabcd < 2 ^ 16 by decide, Nat.mul_mod_left 2 8,
        Nat.le_refl _, by decide⟩
  obtain ⟨w', hrun, hflat, hload⟩ := stores_refine_flat_map (r := .memory) (m := w.state.memory) rfl rfl hempty
    (Nat.mul_mod_left 8 8) hsolver hquiet hfree hputs
  have hlaid : ∀ a, w'.flat .memory a =
      if 4095 ≤ a ∧ a < 4095 + 2 then some fun μ => Word.byte ((Bits.lit 16 0xabcd).eval μ) (4095 + 2 - 1 - a)
      else if 4092 ≤ a ∧ a < 4092 + 8 then some fun μ => Word.byte (x.eval μ) (a - 4092) else none := by
    intro a
    rw [hflat]
    simp [puts, Put.lay, Put.first, Put.count, Quantity.nat?, Bits.width, Endness.byteAt, w, State.blank, Memory.empty, x]
  obtain ⟨v, w'', hv, hwidth, hval, -⟩ := hload { addr := .num 4094, options := { size := some (.num 4) } }
    ⟨rfl, rfl, rfl, by decide⟩ fun a ha ha' => by
      change 4094 ≤ a at ha
      change a < 4098 at ha'
      rw [hlaid]
      split
      · rfl
      · rw [if_pos (by omega)]
        rfl
  refine ⟨hempty, hsolver, hquiet, hfree, hputs, w', v, w'', hrun, hv, hwidth, fun μ => (hval μ).trans ?_⟩
  change Endness.big.number ((List.range 4).map fun i => ((w'.flat .memory (4094 + i)).map (· μ)).getD 0) = _
  simp [hlaid, List.range_succ, Bits.eval, Word.trunc, Word.byte]

/-- Three accesses that no flat map explains. A range of more bytes than the limit is stored but not loaded. Where protections
are enforced a store to an empty memory is a fault. A breakpoint may change what a store stores. -/
theorem not_flat_past_limit_or_guarded : (∃ w', Put.run .memory { addr := .num 0, data := .lit 134217736 0 }
          { state := .blank .amd64 .symbolic {}, solver := .ideal } = .ok () w' ∧
        (∀ x < 16777217, (w'.flat .memory x).isSome) ∧
        ∃ f w'', Get.run .memory { addr := .num 0, options := { size := some (.num 16777217) } } w' = .error f w'' ∧
          f.kind = .memoryLimit) ∧
    (∃ f w', Put.run .memory { addr := .num 0, data := .lit 8 1 }
        { state := .blank .amd64 .symbolic (.ofList [.strictPageAccess]) } = .error f w' ∧ f.kind = .segfault) ∧
    let b : Breakpoint :=
      { id := 0, name := "", event := "mem_write", moment := .before, attributes := [],
        assigns := some ("mem_write_expr", .bits (.lit 8 0)) }
    let accesses : Exec Bits := do
      Put.run .memory { addr := .num 0, data := .lit 8 1 }
      Get.run .memory { addr := .num 0, options := { size := some (.num 1) } }
    (match accesses { state := { State.blank .amd64 .symbolic {} with inspector := some { breakpoints := [b] } } } with
      | .ok v _ => v.lit?
      | .error .. => none) = some 0 := by
  refine ⟨?_, ?_, ?_⟩
  · have hempty := empty_blank .amd64 .symbolic {}
    have hready : (World.scene { state := .blank .amd64 .symbolic {}, solver := .ideal } .memory).Ready
        (State.blank .amd64 .symbolic {}).memory :=
      ⟨rfl, rfl, hempty.placed _, hempty.sound _, fun h => absurd h.2 (by decide), Solver.ideal_exact.folds,
        Nat.mul_mod_left 8 8⟩
    have hcount : Put.count { addr := .num 0, data := .lit 134217736 0 } = 16777217 := by simp [Put.count, Bits.width]
    have hplain : Put.Plain { addr := .num 0, data := .lit 134217736 0 } .memory 64 :=
      ⟨rfl, fun q hq => absurd hq (by simp), rfl, Bits.valid_zero _, Nat.mul_mod_left 16777217 8, Nat.le_refl _,
        hcount ▸ by decide⟩
    obtain ⟨_, w', hrun, hquiet, hhas⟩ := Put.run_does (r := .memory) hready hplain _
      (fun i hi => absurd hi (by simp [State.blank])) rfl
    have hflat := flat_of_has hhas
    obtain ⟨p, k, hscene, -⟩ := hhas
    obtain ⟨w'', hload⟩ := load_over_limit (r := .memory) hquiet (congrArg Scene.memory hscene) rfl (.num 0)
      { size := some (.num 16777217) } rfl (by decide)
    refine ⟨w', hrun, fun x hx => ?_, _, w'', hload, rfl⟩
    rw [hflat, Put.lay, hcount]
    rw [if_pos ⟨Nat.zero_le x, by simpa [Put.first, Quantity.nat?] using hx⟩]
    rfl
  · exact ⟨_, _, rfl, rfl⟩
  · decide +kernel

end World

end SymExec
