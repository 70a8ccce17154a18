import Mathlib.Logic.Function.Basic
import SymExec.Ir.Block

/-!
# Slices keep their targets

What is live before a statement relates the run of a slice and that of the whole block.
-/

namespace SymExec.Ir

open List

/-! ### Running plain statements -/

/-- What constants, operations and helpers mean, and how values lie in registers. Expressions of other kinds all have the same
value. -/
structure Meaning (V : Type) where
  other : V
  const : Const → V
  apply : String → List V → V
  call : String → Ty → List V → V
  read : Ty → List UInt8 → V
  bytes : Ty → V → List UInt8
  length_bytes (t : Ty) (v : V) : (bytes t v).length = t.bits / 8

structure Machine (V : Type) where
  regs : Nat → UInt8
  temps : Nat → V

def Machine.store {V : Type} (s : Machine V) (off : Nat) (bs : List UInt8) : Machine V :=
  { s with regs := fun x => if off ≤ x then (bs[x - off]?).getD (s.regs x) else s.regs x }

variable {V : Type} (M : Meaning V) (types : Array Ty) {m n : Nat}

namespace Expr

def atom (s : Machine V) : Expr → V
  | .const c => M.const c
  | .temp n => s.temps n
  | _ => M.other

def value (s : Machine V) : Expr → V
  | .get off t => M.read t ((range (t.bits / 8)).map fun i => s.regs (off + i))
  | .op name args => M.apply name (args.map (atom M s))
  | .helper name t args => M.call name t (args.map (atom M s))
  | e => e.atom M s

def IsAtom : Expr → Prop
  | .const _ | .temp _ => True
  | _ => False

/-- Temporaries, registers, constants, and operations and helpers on temporaries and constants. -/
def Plain : Expr → Prop
  | .const _ | .temp _ | .get .. => True
  | .op _ args => (args.length = 1 ∨ args.length = 2) ∧ ∀ a ∈ args, a.IsAtom
  | .helper _ _ args => ∀ a ∈ args, a.IsAtom
  | _ => False

def accesses : Expr → List (Nat × Nat)
  | .get off t => [(off, t.bits / 8)]
  | _ => []

end Expr

def Stmt.run (s : Machine V) : Stmt → Machine V
  | .write n e => { s with temps := Function.update s.temps n (e.value M s) }
  | .put off e =>
    match e.ty types with
    | .ok t => s.store off (M.bytes t (e.value M s))
    | .error _ => s
  | _ => s

/-- Statements that write a temporary or a register, and marks. -/
def Stmt.Plain : Stmt → Prop
  | .write _ e => e.Plain
  | .put _ e => e.Plain ∧ ∃ t, e.ty types = .ok t
  | .mark .. | .noop => True
  | _ => False

def Stmt.accesses : Stmt → List (Nat × Nat)
  | .write _ e => e.accesses
  | .put off e => (match e.ty types with | .ok t => [(off, t.bits / 8)] | .error _ => []) ++ e.accesses
  | _ => []

def runAll (s : Machine V) (stmts : List Stmt) : Machine V := stmts.foldl (Stmt.run M types) s

/-- Registers that are the same or do not overlap. -/
def Apart (as : List (Nat × Nat)) : Prop := ∀ a ∈ as, 0 < a.2 ∧ ∀ b ∈ as, a = b ∨ a.1 + a.2 ≤ b.1 ∨ b.1 + b.2 ≤ a.1

def SameReg (s s' : Machine V) (a : Nat × Nat) : Prop := ∀ i < a.2, s.regs (a.1 + i) = s'.regs (a.1 + i)

/-- Two machines that agree on what is live, of some registers. -/
structure SliceTargets.Agree (as : List (Nat × Nat)) (t : SliceTargets) (s s' : Machine V) : Prop where
  temps : ∀ n ∈ t.temps, s.temps n = s'.temps n
  regs : ∀ a ∈ as, a.1 ∈ t.regs → SameReg s s' a

/-! ### What is needed -/

namespace SliceTargets

variable {M types} {t t' : SliceTargets} {known : Table Nat Nat} {args : List Expr} {e : Expr} {as : List (Nat × Nat)}
  {s s' : Machine V}

@[simp] lemma mem_addTemp : m ∈ (t.addTemp n).temps ↔ m = n ∨ m ∈ t.temps := by
  rw [addTemp]
  split <;> simp_all

@[simp] lemma mem_addReg : m ∈ (t.addReg n).regs ↔ m = n ∨ m ∈ t.regs := by
  rw [addReg]
  split <;> simp_all

lemma foldl_needArg : (∀ m, m ∈ (args.foldl needArg t).temps ↔ m ∈ t.temps ∨ .temp m ∈ args) ∧ (args.foldl needArg t).regs = t.regs := by
  induction args generalizing t with
  | nil => simp
  | cons a args ih =>
    obtain ⟨htemps, hregs⟩ := ih
    rw [foldl_cons, hregs]
    refine ⟨fun m => (htemps m).trans ?_, ?_⟩
    · cases a <;> simp [needArg]
      grind
    · cases a <;> rfl

lemma need_op (name : String) (h : args.length = 1 ∨ args.length = 2) : t.need known (.op name args) = args.foldl needArg t := by
  match args, h with
  | [a], _ => rfl
  | [a, b], _ => rfl

lemma need_grows (t : SliceTargets) (known) (he : e.Plain) :
    (∀ m ∈ t.temps, m ∈ (t.need known e).temps) ∧ ∀ r ∈ t.regs, r ∈ (t.need known e).regs := by
  have hargs (args : List Expr) : (∀ m ∈ t.temps, m ∈ (args.foldl needArg t).temps) ∧ ∀ r ∈ t.regs, r ∈ (args.foldl needArg t).regs :=
    ⟨fun m h => (foldl_needArg.1 m).2 (.inl h), fun r h => by rwa [foldl_needArg.2]⟩
  cases e with
  | const c => exact ⟨fun _ h => h, fun _ h => h⟩
  | temp n => exact ⟨fun m h => mem_addTemp.2 (.inr h), fun _ h => h⟩
  | get off ty => exact ⟨fun _ h => h, fun r h => mem_addReg.2 (.inr h)⟩
  | op name args =>
    rw [need_op name he.1]
    exact hargs args
  | helper name ty args => exact hargs args
  | _ => exact he.elim

lemma map_atom (h : ∀ m, .temp m ∈ args → s.temps m = s'.temps m) : args.map (Expr.atom M s) = args.map (Expr.atom M s') := by
  refine map_congr_left fun a ha => ?_
  cases a with
  | temp n => exact h n ha
  | _ => rfl

/-- A plain expression has the same value in machines that agree on what it needs. -/
lemma Agree.value (he : e.Plain) (h : (t.need known e).Agree as s s') (has : ∀ a ∈ e.accesses, a ∈ as) : e.value M s = e.value M s' := by
  cases e with
  | const c => rfl
  | temp n => exact h.temps n (mem_addTemp.2 (.inl rfl))
  | get off ty =>
    have hsame := h.regs _ (has _ (mem_singleton.2 rfl)) (mem_addReg.2 (.inl rfl))
    exact congrArg (M.read ty) (map_congr_left fun i hi => hsame i (mem_range.1 hi))
  | op name args =>
    rw [need_op name he.1] at h
    exact congrArg (M.apply name) (map_atom fun m hm => h.temps m ((foldl_needArg.1 m).2 (.inr hm)))
  | helper name ty args => exact congrArg (M.call name ty) (map_atom fun m hm => h.temps m ((foldl_needArg.1 m).2 (.inr hm)))
  | _ => exact he.elim

lemma Agree.of_empty (h : t.isEmpty = true) : t.Agree as s s' := by
  rw [isEmpty, Bool.and_eq_true, Bool.and_eq_true, List.isEmpty_iff, List.isEmpty_iff] at h
  exact ⟨fun n hn => absurd (h.1.1 ▸ hn) not_mem_nil, fun a _ ha => absurd (h.1.2 ▸ ha) not_mem_nil⟩

end SliceTargets

/-! ### One statement -/

namespace Machine

variable {s s' : Machine V} {off : Nat} {bs : List UInt8} {a : Nat × Nat}

lemma store_outside (h : a.1 + a.2 ≤ off ∨ off + bs.length ≤ a.1) : SameReg (s.store off bs) s a := by
  intro i hi
  rw [store]
  dsimp only
  split
  · rw [getElem?_eq_none (by omega)]
    rfl
  · rfl

lemma store_inside (h : a = (off, bs.length)) : SameReg (s.store off bs) (s'.store off bs) a := by
  subst h
  intro i hi
  rw [store, store]
  simp [show i < bs.length from hi]

end Machine

namespace Stmt

variable {M types} {t t' : SliceTargets} {known : Table Nat Nat} {st : Stmt} {as : List (Nat × Nat)} {s s' : Machine V}

/-- A statement leaves the registers that do not overlap with the one it writes. -/
lemma run_other (has : ∀ a ∈ st.accesses types, a ∈ as) (hapart : Apart as) {a : Nat × Nat} (ha : a ∈ as)
    (hne : ∀ off e, st = .put off e → a.1 ≠ off) : SameReg (st.run M types s) s a := by
  cases st with
  | put off e =>
    rw [run]
    split
    · rename_i t ht
      have hput : (off, t.bits / 8) ∈ as := has _ (by simp [accesses, ht])
      obtain rfl | hlt := (hapart a ha).2 _ hput
      · exact absurd rfl (hne off e rfl)
      · exact Machine.store_outside (by rwa [M.length_bytes])
    · exact fun _ _ => rfl
  | _ => exact fun _ _ => rfl

/-- A statement leaves the temporaries that it does not write. -/
lemma temps_run (hne : ∀ e, st ≠ .write n e) : (st.run M types s).temps n = s.temps n := by
  cases st with
  | write m e => exact Function.update_of_ne (fun hnm => hne e (by rw [hnm])) _ _
  | put off e =>
    rw [run]
    split <;> rfl
  | _ => rfl

section
variable (has : ∀ a ∈ st.accesses types, a ∈ as) (hapart : Apart as)
include has hapart

/-- A statement that is left out changes nothing that is live. -/
lemma agree_skip (hb : t.before? known st = none) (h : t.Agree as s s') : t.Agree as s (st.run M types s') := by
  refine ⟨fun n hn => (h.temps n hn).trans (temps_run fun e he => ?_).symm, fun a ha hat i hi =>
    (h.regs a ha hat i hi).trans (run_other has hapart ha (fun off e he hoff => ?_) i hi).symm⟩
  · simp [SliceTargets.before?, he, hn] at hb
  · simp [SliceTargets.before?, he, ← hoff, hat] at hb

/-- A statement of the slice gives what is live after it the same from machines that agree on what is live before it. -/
lemma agree_run (hst : st.Plain types)
    (hb : t.before? known st = some t') (h : t'.Agree as s s') : t.Agree as (st.run M types s) (st.run M types s') := by
  cases st with
  | write m e =>
    simp only [SliceTargets.before?, Option.ite_none_right_eq_some, Option.some.injEq] at hb
    obtain ⟨-, rfl⟩ := hb
    obtain ⟨htemps, hregs⟩ := SliceTargets.need_grows { t with temps := t.temps.erase m } known hst
    refine ⟨fun n hn => ?_, fun a ha hat => h.regs a ha (hregs _ hat)⟩
    by_cases hnm : n = m
    · simp [hnm, run, h.value hst has]
    · have hwrite : ∀ e', write m e ≠ write n e' := fun e' he => hnm (Stmt.write.inj he).1.symm
      rw [temps_run hwrite, temps_run hwrite]
      exact h.temps n (htemps n ((mem_erase_of_ne hnm).2 hn))
  | put off e =>
    simp only [SliceTargets.before?, Option.ite_none_right_eq_some, Option.some.injEq] at hb
    obtain ⟨-, rfl⟩ := hb
    obtain ⟨hplain, ty, hty⟩ := hst
    obtain ⟨htemps, hregs⟩ := SliceTargets.need_grows { t with regs := t.regs.erase off } known hplain
    refine ⟨fun n hn => ?_, fun a ha hat i hi => ?_⟩
    · have hwrite : ∀ e', put off e ≠ write n e' := nofun
      rw [temps_run hwrite, temps_run hwrite]
      exact h.temps n (htemps n hn)
    by_cases hoff : a.1 = off
    · -- the register is written as a whole, since it overlaps with the one that is
      have hput : (off, ty.bits / 8) ∈ as := has _ (by simp [accesses, hty])
      have heq : a = (off, (M.bytes ty (e.value M s)).length) := by
        obtain heq | hlt := (hapart a ha).2 _ hput
        · rw [heq, M.length_bytes]
        · have := (hapart _ hput).1
          omega
      have hv := h.value (M := M) hplain fun a ha => has a (mem_append_right _ ha)
      rw [run, run, hty, ← hv]
      exact Machine.store_inside heq i hi
    · have hother : ∀ s, SameReg ((put off e).run M types s) s a := fun s =>
        run_other has hapart ha fun off' e' he => (Stmt.put.inj he).1 ▸ hoff
      rw [hother s i hi, hother s' i hi]
      exact h.regs a ha (hregs _ ((mem_erase_of_ne hoff).2 hat)) i hi
  | mark | noop => cases hb
  | _ => exact hst.elim

end

end Stmt

/-! ### Blocks -/

section
variable {M types} {stmts : List Stmt} {known : Table Nat Nat} {as : List (Nat × Nat)}

lemma agree_sliceBack (hapart : Apart as) (l : List (Nat × Stmt)) (hl : ∀ p ∈ l, stmts[p.1]? = some p.2 ∧
    p.2.Plain types ∧ ∀ a ∈ p.2.accesses types, a ∈ as) (t : SliceTargets) (s s')
    (h : (sliceBack known l t).2.Agree as s s') :
    t.Agree as (runAll M types s ((sliceBack known l t).1.reverse.filterMap (stmts[·]?)))
      (runAll M types s' (l.reverse.map (·.2))) := by
  induction l generalizing t with
  | nil => exact h
  | cons p rest ih =>
    obtain ⟨i, st⟩ := p
    obtain ⟨⟨hi, hst, has⟩, hrest⟩ := forall_mem_cons.1 hl
    have hlast : ∀ s, runAll M types s (((i, st) :: rest).reverse.map (·.2)) =
        st.run M types (runAll M types s (rest.reverse.map (·.2))) := fun s => by simp [runAll]
    rw [hlast]
    cases hb : t.before? known st with
    | some t' =>
      have hstep {is : List Nat} (hlive : t'.Agree as (runAll M types s (is.reverse.filterMap (stmts[·]?)))
          (runAll M types s' (rest.reverse.map (·.2)))) :
          t.Agree as (runAll M types s ((i :: is).reverse.filterMap (stmts[·]?)))
            (st.run M types (runAll M types s' (rest.reverse.map (·.2)))) := by
        have hfirst : runAll M types s ((i :: is).reverse.filterMap (stmts[·]?)) =
            st.run M types (runAll M types s (is.reverse.filterMap (stmts[·]?))) := by simp [runAll, hi]
        rw [hfirst]
        exact Stmt.agree_run has hapart hst hb hlive
      by_cases hempty : t'.isEmpty = true
      · simp only [sliceBack, hb, hempty, if_true] at h ⊢
        exact hstep (.of_empty hempty)
      · simp only [sliceBack, hb, hempty] at h ⊢
        exact hstep (ih hrest t' h)
    | none =>
      refine Stmt.agree_skip has hapart hb ?_
      by_cases hempty : t.isEmpty = true
      · exact .of_empty hempty
      · simp only [sliceBack, hb, hempty] at h ⊢
        exact ih hrest t h

end

/-- **Slices keep their targets.** A block writes temporaries and registers by plain expressions, and the registers that it reads
and writes, and those that are asked for, are the same or do not overlap. Then a slice is found for any targets that are not
none at all. From machines that agree on the registers that it needs, its statements alone give every target the value that the
whole block gives it, whatever the operations are. -/
theorem slice_preserves (arch : Arch) (stmts : List Stmt) (hstmts : ∀ st ∈ stmts, st.Plain types) (temps : List Nat)
    (regs : List (Nat × Nat)) (hne : temps ≠ [] ∨ regs ≠ []) (hapart : Apart (stmts.flatMap (Stmt.accesses types) ++ regs)) :
    ∃ picked need, slice arch stmts { temps, regs := regs.map (·.1) } = .ok (picked, need) ∧
      ∀ s s' : Machine V, s.temps = s'.temps →
        (∀ a ∈ stmts.flatMap (Stmt.accesses types) ++ regs, a.1 ∈ need.regs → SameReg s s' a) →
        (∀ n ∈ temps, (runAll M types s (picked.reverse.filterMap (stmts[·]?))).temps n = (runAll M types s' stmts).temps n) ∧
        ∀ a ∈ regs, SameReg (runAll M types s (picked.reverse.filterMap (stmts[·]?))) (runAll M types s' stmts) a := by
  have hfull : ¬ ({ temps, regs := regs.map (·.1) } : SliceTargets).isEmpty = true := by
    simpa [SliceTargets.isEmpty, imp_iff_not_or] using hne
  refine ⟨_, _, if_neg hfull, fun s s' htemps hregs => ?_⟩
  have hl : ∀ p ∈ (stmts.mapIdx fun i st => (i, st)).reverse, stmts[p.1]? = some p.2 ∧ p.2.Plain types ∧
      ∀ a ∈ p.2.accesses types, a ∈ stmts.flatMap (Stmt.accesses types) ++ regs := by
    intro p hp
    obtain ⟨i, hi, rfl⟩ := List.mem_mapIdx.1 (List.mem_reverse.1 hp)
    have hmem : stmts[i] ∈ stmts := List.getElem_mem hi
    exact ⟨List.getElem?_eq_getElem hi, hstmts _ hmem, fun a ha =>
      List.mem_append_left _ (List.mem_flatMap.2 ⟨_, hmem, ha⟩)⟩
  have hall : (stmts.mapIdx fun i st => (i, st)).reverse.reverse.map (·.2) = stmts :=
    List.ext_getElem (by simp) (by simp)
  have h := agree_sliceBack (M := M) hapart _ hl { temps, regs := regs.map (·.1) } s s'
    ⟨fun n _ => congrFun htemps n, hregs⟩
  rw [hall] at h
  exact ⟨h.temps, fun a ha => h.regs a (List.mem_append_right _ ha) (List.mem_map_of_mem ha)⟩

def Meaning.sums : Meaning Nat where
  other := 0
  const c := c.nat?.getD 0
  apply _ vs := vs.foldl (· + ·) 0
  call _ _ vs := vs.foldl (· + ·) 0
  read _ bs := bs.foldr (fun b n => b.toNat + 256 * n) 0
  bytes t v := (range (t.bits / 8)).map fun i => UInt8.ofNat (v >>> (8 * i))
  length_bytes t v := by rw [length_map, length_range]

/-- A register is increased and another one copied to itself. The slice for the first leaves out the copy. -/
theorem slice_preserves_increase :
    let one : Expr := .op "Iop_Add64" [.temp 0, .const (.num (.int 64) 1)]
    let stmts : List Stmt := [.write 0 (.get 16 (.int 64)), .write 1 (.get 24 (.int 64)), .write 2 one,
      .put 24 (.temp 1), .put 16 (.temp 2)]
    let types : Array Ty := #[.int 64, .int 64, .int 64]
    slice .amd64 stmts { regs := [16] } = .ok ([4, 2, 0], { regs := [16] }) ∧
      ∀ s s' : Machine Nat, s.temps = s'.temps → SameReg s s' (16, 8) →
        SameReg (runAll .sums types s [.write 0 (.get 16 (.int 64)), .write 2 one, .put 16 (.temp 2)]) (runAll .sums types s' stmts)
          (16, 8) := by
  intro one stmts types
  have hslice : slice .amd64 stmts { regs := [16] } = .ok ([4, 2, 0], { regs := [16] }) := rfl
  refine ⟨hslice, fun s s' htemps hsame => ?_⟩
  obtain ⟨picked, need, hpicked, h⟩ := slice_preserves .sums types .amd64 stmts
    (by simp [stmts, one, types, Stmt.Plain, Expr.Plain, Expr.IsAtom, Expr.ty]) [] [(16, 8)] (.inr nofun)
    (by unfold Apart; decide)
  obtain ⟨rfl, rfl⟩ := Prod.mk.inj (Except.ok.inj (hpicked.symm.trans hslice))
  refine (h s s' htemps fun a ha hneed => ?_).2 (16, 8) (List.mem_singleton.2 rfl)
  have hsize : ∀ a ∈ stmts.flatMap (Stmt.accesses types) ++ [(16, 8)], a.1 ∈ [16] → a = (16, 8) := by decide
  exact hsize a ha hneed ▸ hsame

end SymExec.Ir
