import SymExec.Proofs.Operand

/-!
# Statements

A statement that does not leave the block changes memory, registers and temporaries.
-/

namespace SymExec

open Paged (leaves)
open Exec

lemma Quantity.isSome_addNat {q : Quantity} (h : q.nat?.isSome) (n) : (q.addNat n).nat?.isSome := by
  obtain ⟨a, ha⟩ := Option.isSome_iff_exists.1 h
  obtain rfl | ⟨w, rfl⟩ := Quantity.eq_of_nat? ha <;> rfl

def Operand.Literal (o : Operand) : Prop := (bitsOf o).lit?.isSome

lemma Operand.Literal.nat? {o : Operand} (h : o.Literal) : (Quantity.bits (bitsOf o)).nat?.isSome := h

/-- The helpers with effects that access memory at their first argument. -/
def Ir.addressing : List String :=
  ["amd64g_dirtyhelper_SxDT", "x86g_dirtyhelper_SxDT", "x86g_dirtyhelper_LGDT_LIDT", "x86g_dirtyhelper_loadF80le",
    "x86g_dirtyhelper_storeF80le"]

/-- An expression that reads at numbers only, and what holds after its value was found. -/
def Ir.Expr.Within (e : Expr) (w : World) (Q : Operand → World → Prop) : Prop := e.Concrete w ∧ After (operand e) w Q

def Ir.Stmt.Concrete : Stmt → World → Prop
  | .put _ e, w | .write _ e, w | .exit e _ _, w => e.Concrete w
  | .putI bank index bias e, w => e.Within w fun _ w => index.Within w fun ix w =>
      After (bankPlace bank (bitsOf ix) bias) w fun p _ => p.1.lit?.isSome
  | .store _ a e, w => a.Within w fun addr w => addr.Literal ∧ e.Concrete w
  | .swap endness a (some oldHi) oldLo (some expectedHi) expectedLo dataHi dataLo, w =>
      a.Within w fun addr w => addr.Literal ∧ expectedLo.Within w fun lo w => expectedHi.Within w fun _ w =>
        After (do
          let old ← load .memory (bitsOf addr) { size := some (.num (lo.value.width * 2 / 8)), endness := some endness }
          setTemp oldLo (.bits (old.slice (lo.value.width - 1) 0))
          setTemp oldHi (.bits (old.slice (2 * lo.value.width - 1) lo.value.width))) w fun _ w =>
          dataLo.Within w fun _ w => ∀ e, dataHi = some e → e.Concrete w
  | .swap endness a _ oldLo _ expectedLo _ dataLo, w =>
      a.Within w fun addr w => addr.Literal ∧ expectedLo.Within w fun lo w =>
        After (do
          let old ← load .memory (bitsOf addr) { size := some (.num (lo.value.width / 8)), endness := some endness }
          setTemp oldLo (.bits old)) w fun _ w => dataLo.Concrete w
  | .linked _ _ a data, w => a.Within w fun addr w => addr.Literal ∧ ∀ e, data = some e → e.Concrete w
  | .dirty _ name args, w => Expr.AllConcrete args w ∧ After (operands args) w fun os _ =>
      name ∈ addressing → ∀ o, os.head? = some o → o.Literal
  | .loadIf _ _ _ a alt guard, w => a.Within w fun addr w => addr.Literal ∧ alt.Within w fun _ w => guard.Concrete w
  | .storeIf _ a e guard, w => a.Within w fun addr w => addr.Literal ∧ e.Within w fun _ w => guard.Concrete w
  | _, _ => True

namespace Exec

/-- A statement that accesses numbers only keeps a property of the world. -/
def Runs (P : World → Prop) (w : World) (s : Ir.Stmt) : Prop := s.Concrete w → Steady P (runStatement s) w

variable {P : World → Prop} {w : World} {name : String} {dataLo : Ir.Expr} {quiet : Bool} {v : Bits}

lemma operand_within (hP : World.Frame P) {e Q} (h : e.Within w Q) {β : Type}
    {f : Operand → Exec β} (hf : ∀ o t, Q o t → Steady P (f o) t) : Steady P (operand e >>= f) w :=
  .bind (operand_steady hP e w h.1) fun o t ho => hf o t (h.2 o t ho)

/-! ### Temporaries -/

section
variable (hP : World.Frame P) {n : Nat} {v : Scalar} {regs tmps : List Nat}
include hP

lemma writeTemp_steady : Steady P (writeTemp n v regs tmps) w := by
  refine (inspect_steady hP).seq <| attr_steady.bind fun x _ _ => ?_
  refine attr_steady.bind fun y t _ => ?_
  split
  on_goal 2 => refine (Steady.throw _).bind fun _ t _ => ?_
  all_goals
    refine .read rfl fun h => ?_
    refine Steady.ite (by simp [hP.assigned t h]) (fun _ => ?_) h
    refine Steady.bind (fun h => hP.temps t _ h) fun _ _ _ => Steady.seq .get <| .ite (fun _ => Steady.seq .get ?_) fun _ => ?_
    all_goals exact (inspect_steady hP).done

lemma setTemp_steady : Steady P (setTemp n v regs tmps) w := (writeTemp_steady hP).seq <| .forM _ fun _ _ _ => note_steady hP

end

/-! ### Registers by name -/

/-- A register with a place of its own: neither one of the floating point stack nor the word of flags. -/
def Fixed (name : String) : Prop := stackedRegister? name = none ∧ name ∉ ["flags", "eflags", "rflags"]

instance (name : String) : Decidable (Fixed name) := inferInstanceAs (Decidable (_ ∧ _))

lemma registerPlace_fixed (h : Fixed name) (write w) : registerPlace name write w = (do
      let (o, n) ← registerRange name
      return (.num o, n) : Exec (Quantity × Nat)) w := by
  have hname : name ≠ "flags" := fun he => h.2 (by simp [he])
  have hflags : ["flags", "eflags", "rflags"].contains name = false := by simpa using h.2
  simp only [registerPlace, h.1, hflags, hname, decide_false, Bool.and_false, Bool.or_self, Bool.false_eq_true, if_false, ite_self]
  rfl

lemma registerRange_steady : Steady P (registerRange name) w := by
  refine .bind .get fun _ _ _ => ?_
  split
  · exact .pure _
  · exact .throw _

/-- Work on the place of a register keeps what it keeps at the places that the architecture gives it. -/
lemma registerPlace_bind (h : Fixed name) {write} {α : Type} {f : Quantity × Nat → Exec α}
    (hf : ∀ o n, w.state.arch.register? name = some (o, n) → Steady P (f (.num o, n)) w) :
    Steady P (registerPlace name write >>= f) w := by
  have harch : arch w = .ok w.state.arch w := rfl
  have hplace := registerPlace_fixed h write w
  cases hr : w.state.arch.register? name with
  | none =>
    have hrun : registerRange name w = .error (.of .badKey) w := by
      rw [registerRange, bind_of_ok harch, hr]
      rfl
    rw [bind_of_error hrun] at hplace
    unfold Steady leaves
    rw [bind_of_error hplace]
    exact id
  | some r =>
    have hrun : registerRange name w = .ok r w := by
      rw [registerRange, bind_of_ok harch, hr]
      rfl
    rw [bind_of_ok hrun] at hplace
    unfold Steady leaves
    rw [bind_of_ok hplace]
    exact hf r.1 r.2 hr

lemma reg_steady (hP : World.Central P) (h : Fixed name)
    (hread : ∀ o n, w.state.arch.register? name = some (o, n) → World.Readable P .registers n) : Steady P (reg name quiet) w :=
  registerPlace_bind h fun o n hr => load_steady hP .registers (hread o n hr) (show (Quantity.num o).nat? = some o from rfl) _ rfl rfl rfl

lemma setReg_steady (hP : World.Central P) (h : Fixed name)
    (hwrite : ∀ o n, w.state.arch.register? name = some (o, n) → ∀ t data k, P t →
      (storeSize t.state.arch.bits (some (.num n)) data).nat? = some k → World.Writable P .registers o k)
    : Steady P (setReg name v quiet) w :=
  registerPlace_bind h fun o n hr =>
    (store_steady hP .registers (show (Quantity.num o).nat? = some o from rfl) (fun q hq => ⟨n, (Option.some.inj hq).symm⟩)
      (by simp) (hwrite o n hr)).done

section
variable (hP : World.Frame P) {name : String} {e a : Ir.Expr} {size : Nat} {data : Tracked} {place : Quantity} {endness : Endness}
  {dataHi : Option Ir.Expr}
include hP

lemma reg_framed (h : Fixed name) : Steady P (reg name quiet) w := reg_steady hP h fun _ n _ => hP.toLoose.readable .registers n

lemma setReg_framed (h : Fixed name) : Steady P (setReg name v quiet) w :=
  setReg_steady hP h fun o _ _ _ _ k _ _ => hP.toLoose.writable .registers o k

lemma setRegIf_framed (h : Fixed name) {cond} : Steady P (setRegIf name v size cond) w :=
  registerPlace_bind h fun _ _ _ => (hP.toLoose.store .registers rfl v _ fun _ hq => ⟨size, (Option.some.inj hq).symm⟩).done

lemma identify_framed {rows wide} : Steady P (identify rows wide) w := by
  have hfixed : ∀ name ∈ idNames wide, Fixed name := by cases wide <;> decide +kernel
  have hfirst : Fixed ((idNames wide).getD 0 "") := by cases wide <;> decide +kernel
  have hthird : Fixed ((idNames wide).getD 2 "") := by cases wide <;> decide +kernel
  refine .bind ((reg_framed hP hfirst).done) fun a t _ => ?_
  refine .bind ((reg_framed hP hthird).done) fun c t _ => ?_
  refine .forM _ fun r _ t => .forM _ fun p hp t => ?_
  exact setRegIf_framed hP (hfixed _ (List.of_mem_zip hp).1)

lemma runDirty_framed {args : List Quantity} (h : name ∈ Ir.addressing → ∀ a, args.head? = some a → a.nat?.isSome) :
    Steady P (runDirty name args) w := by
  have counted : ∀ n {act : Exec (Option Bits)}, Steady P act w →
      Steady P (if args.length = n then do return some (← act) else throw (.of .badType) : Exec (Option (Option Bits))) w :=
    fun _ _ ha => .ite (fun _ => ha.done) fun _ => .throw _
  have stored : ∀ addr, addr.nat?.isSome → ∀ v t, Steady P (do
      let _ ← store .memory addr v
      return some none : Exec (Option (Option Bits))) t := fun _ ha v _ =>
    (hP.toLoose.store .memory ha _ _ (by simp)).done
  unfold runDirty
  split
  iterate 2 exact counted _ (.pure _)
  iterate 2 exact counted _ ((freshSymbol_steady hP).done)
  iterate 8 exact counted _ ((identify_framed hP).done)
  iterate 2 exact counted _ ((unconstrained_steady hP).done)
  iterate 2 exact counted _ (.pure _)
  · -- the tables' registers are stored
    split
    · rename_i addr _
      exact (unconstrained_steady hP).bind fun _ t _ => stored addr (h (by decide) addr rfl) _ t
    · exact .throw _
  · split
    · rename_i addr op
      refine .bind (by cases op; exacts [.throw _, .pure _]) fun _ _ _ => ?_
      have haddr := h (by decide) addr rfl
      split
      · exact (unconstrained_steady hP).bind fun _ t _ => stored addr haddr _ t
      · exact (reg_framed hP (by decide +kernel)).bind fun _ t _ => stored addr haddr _ t
      · exact .pure _
    · exact .throw _
  · split
    · rename_i addr op
      have haddr := h (by decide) addr rfl
      refine .bind (by cases op; exacts [.throw _, .pure _]) fun _ _ _ => ?_
      split
      · exact .pure _
      · refine (hP.toLoose.load .memory haddr _ rfl rfl rfl).seq ?_
        refine (hP.toLoose.load .memory (Quantity.isSome_addNat haddr 2) _ rfl rfl rfl).seq ?_
        exact .when fun _ => (setReg_framed hP (by decide +kernel)).done
    · exact .throw _
  · have reset : ∀ n v, Fixed n → ∀ t, Steady P (do setReg n (.ofNat (8 * (← registerRange n).2) v) : Exec Unit) t := by
      intro n v hn t
      refine .bind registerRange_steady fun _ _ _ => setReg_framed hP hn
    refine counted _ ((reset _ _ (by decide +kernel) w).bind fun _ t _ => (reset _ _ (by decide +kernel) t).bind fun _ t _ => ?_)
    refine (reset _ _ (by decide +kernel) t).bind fun _ t _ => (reset _ _ (by decide +kernel) t).bind fun _ t _ => ?_
    exact .pure _
  · split
    · rename_i v
      have set : ∀ n t, Steady P (do
          modifyState fun s => { s with protectedMode := n % 2 = 1 }
          return some none : Exec (Option (Option Bits))) t := fun n t =>
        (modifyState_steady hP rfl rfl).done
      cases v with
      | num n => exact set n w
      | bits b => exact (evalOne_steady hP).bind fun n t _ => set n t
    · exact .throw _
  · split
    · rename_i addr
      exact (hP.toLoose.load .memory (h (by decide) addr rfl) _ rfl rfl rfl).done
    · exact .throw _
  · split
    · rename_i addr v
      cases v with
      | num n => exact .throw _
      | bits b => exact (hP.toLoose.store .memory (h (by decide) addr rfl) _ _ (by simp)).done
    · exact .throw _
  · exact .pure _

/-! ### The kinds of statements -/

lemma storeBy_framed {r} (hr : r.Main) {addr} (ha : addr.nat?.isSome) {data : Bits} {o}
    (hsize : o.size = none) {a} : Steady P (storeBy r addr data o a) w := by
  have hnone : ∀ q, ({ o with recorded := a.isSome } : StoreOptions).size = some q → ∃ n, q = .num n := fun q hq => by
    rw [show ({ o with recorded := a.isSome } : StoreOptions).size = none from hsize] at hq
    cases hq
  exact .bind (hP.toLoose.store hr ha data _ hnone) fun _ _ _ => .pure _

omit hP in
lemma writeAction_steady {addr condition} : Steady P (writeAction addr data size condition) w := .seq .get <| tracked_steady.done

lemma putAction_framed : Steady P (putAction place data size) w := (offsetOf_steady hP).seq <| .seq .get <| .pure _

omit hP in
lemma recorded_steady {s record} (h : ∀ t, Steady P record t) : Steady P (recorded s record) w :=
  .seq .get <| .ite (fun _ => (h _).done) fun _ => .pure _

lemma put_framed (hp : place.nat?.isSome) {d v actions} : Steady P (do
      let own ← recorded .trackRegisterActions do putAction place (← tracked d v) d.value.width
      let own ← if ← has .doPuts then storeBy .registers place (bitsOf d) {} own else pure own
      return actions ++ own.toList : Exec (List Action)) w := by
  refine (recorded_steady fun _ => tracked_steady.seq (putAction_framed hP)).seq ?_
  exact .seq .get <| .when fun _ => (storeBy_framed hP .registers hp rfl).done

lemma runStatement_put {offset} (h : e.Concrete w) : Steady P (runStatement (.put offset e)) w :=
  .bind (operand_steady hP e w h) fun _ _ _ => put_framed hP rfl

lemma runStatement_putI {bank index bias} : Runs P w (.putI bank index bias e) := by
  intro h
  refine operand_within hP h fun d t h => operand_within hP h fun ix t h => ?_
  refine .bind bankPlace_steady fun p t' hp => ?_
  have hplace : (Quantity.bits p.1).nat?.isSome := h p t' hp
  exact put_framed hP hplace

lemma runStatement_write {n} (h : e.Concrete w) : Steady P (runStatement (.write n e)) w := by
  refine .bind (operand_steady hP e w h) fun d _ _ => sources_steady.seq ?_
  exact sources_steady.seq <| (writeTemp_steady hP).done

lemma runStatement_store : Runs P w (.store endness a e) := by
  intro h
  refine operand_within hP h fun addr t ⟨haddr, he⟩ => .bind (operand_steady hP e t he) fun d t _ => ?_
  refine (recorded_steady fun _ => tracked_steady.seq writeAction_steady).seq ?_
  exact .seq .get <| .when fun _ => (storeBy_framed hP .memory haddr.nat? rfl).done

omit hP in
lemma both_steady {x y v} : Steady P (do
    return {
      value := v, regs := ((← sourceRegs x) ++ (← sourceRegs y)).eraseDups
      tmps := ((← sourceTmps x) ++ (← sourceTmps y)).eraseDups } : Exec Tracked) w :=
  sources_steady.seq <| sources_steady.bind fun _ _ _ => sources_steady.seq <| sources_steady.done

lemma runStatement_swap_two {oldHi oldLo expectedHi expectedLo} :
    Runs P w (.swap endness a (some oldHi) oldLo (some expectedHi) expectedLo dataHi dataLo) := by
  intro h
  refine operand_within hP h fun addr t ⟨haddr, h⟩ => operand_within hP h fun lo t h => operand_within hP h fun hi t h => ?_
  refine .bind (hP.toLoose.load .memory haddr.nat? _ rfl rfl rfl) fun old t1 h1 => ?_
  refine .bind (setTemp_steady hP) fun _ t2 h2 => .bind (setTemp_steady hP) fun _ t3 h3 => ?_
  have h := h () t3 (by rw [bind_of_ok h1, bind_of_ok h2]; exact h3)
  refine operand_within hP h fun dlo t h => ?_
  obtain _ | e := dataHi
  on_goal 1 => refine (Steady.throw _).seq ?_
  on_goal 2 => refine .bind (operand_steady hP e t (h e rfl)) fun dhi t _ => ?_
  all_goals
    refine both_steady.seq <| both_steady.seq <| writeAction_steady.seq ?_
    exact (storeBy_framed hP .memory haddr.nat? rfl).done

lemma runStatement_swap {oldHi oldLo} {expectedHi : Option Ir.Expr}
    {expectedLo} : Runs P w (.swap endness a oldHi oldLo expectedHi expectedLo dataHi dataLo) := by
  intro h
  cases oldHi <;> cases expectedHi
  case some.some => exact runStatement_swap_two hP h
  all_goals
    refine operand_within hP h fun addr t ⟨haddr, h⟩ => operand_within hP h fun lo t h => ?_
    refine .bind (hP.toLoose.load .memory haddr.nat? _ rfl rfl rfl) fun old t1 h1 => ?_
    refine .bind (setTemp_steady hP) fun _ t2 h2 => ?_
    have h := h () t2 (by rw [bind_of_ok h1]; exact h2)
    refine .bind (operand_steady hP dataLo t2 h) fun d t _ => ?_
    refine tracked_steady.seq <| tracked_steady.seq <| writeAction_steady.seq ?_
    exact (storeBy_framed hP .memory haddr.nat? rfl).done

lemma runStatement_linked {result data} : Runs P w (.linked endness result a data) := by
  intro h
  refine operand_within hP h fun addr t ⟨haddr, h⟩ => ?_
  cases data with
  | none =>
    refine .bind .get fun _ t _ => ?_
    split
    on_goal 2 => refine (Steady.throw _).seq ?_
    all_goals
      refine (hP.toLoose.load .memory haddr.nat? _ rfl rfl rfl).seq <| sources_steady.seq ?_
      exact sources_steady.seq <| (setTemp_steady hP).done
  | some e =>
    refine .bind (operand_steady hP e t (h e rfl)) fun d t _ => ?_
    refine (recorded_steady fun _ => tracked_steady.seq writeAction_steady).seq ?_
    refine (storeBy_framed hP .memory haddr.nat? rfl).seq <| sources_steady.seq <| sources_steady.seq ?_
    refine sources_steady.seq <| sources_steady.seq ?_
    exact (setTemp_steady hP).done

lemma runStatement_dirty {tmp args} : Runs P w (.dirty tmp name args) := by
  intro h
  refine .bind (operands_steady hP args w h.1) fun os t hos => ?_
  refine .bind (.mapM _ fun _ _ _ => sources_steady) fun _ _ _ => ?_
  refine .bind (.mapM _ fun _ _ _ => sources_steady) fun _ _ _ => ?_
  refine .bind (runDirty_framed hP fun hname a ha => ?_) fun r t _ => ?_
  · obtain ⟨o, ho, rfl⟩ : ∃ o, os.head? = some o ∧ .bits (bitsOf o) = a := by
      rw [List.head?_map] at ha
      exact Option.map_eq_some_iff.1 ha
    exact h.2 os t hos hname o ho
  · cases r with
    | none => exact .throw _
    | some r =>
      cases tmp with
      | none => exact .pure _
      | some n =>
        cases r with
        | none => exact .pure _
        | some v => exact (setTemp_steady hP).done

lemma runStatement_loadIf {conversion dst alt guard} : Runs P w (.loadIf endness conversion dst a alt guard) := by
  intro h
  refine operand_within hP h fun addr t ⟨haddr, h⟩ => operand_within hP h fun other t h => ?_
  refine .bind (operand_steady hP guard t h) fun g t _ => ?_
  split
  · exact .throw _
  · refine (hP.toLoose.load .memory haddr.nat? _ rfl rfl rfl).seq ?_
    refine .bind (.mapM _ fun _ _ _ => sources_steady) fun _ _ _ => ?_
    refine .bind (.mapM _ fun _ _ _ => sources_steady) fun _ _ _ => (setTemp_steady hP).seq ?_
    refine .seq .get <| .when fun _ => ?_
    refine .seq .get <| tracked_steady.seq ?_
    exact tracked_steady.seq <| tracked_steady.done

lemma runStatement_storeIf {guard} : Runs P w (.storeIf endness a e guard) := by
  intro h
  refine operand_within hP h fun addr t ⟨haddr, h⟩ => operand_within hP h fun d t h => ?_
  refine .bind (operand_steady hP guard t h) fun g t _ => ?_
  refine (recorded_steady fun _ => tracked_steady.seq <| tracked_steady.seq writeAction_steady).seq ?_
  exact (storeBy_framed hP .memory haddr.nat? rfl).done

lemma runStatement_steady (s) (h : s.Concrete w) : Steady P (runStatement s) w := by
  cases s with
  | mark => exact (modifyEpoch_steady hP).done
  | noop | hint | fence | exit => exact .pure _
  | put => exact runStatement_put hP h
  | putI => exact runStatement_putI hP h
  | write => exact runStatement_write hP h
  | store => exact runStatement_store hP h
  | swap => exact runStatement_swap hP h
  | linked => exact runStatement_linked hP h
  | dirty => exact runStatement_dirty hP h
  | loadIf => exact runStatement_loadIf hP h
  | storeIf => exact runStatement_storeIf hP h

end

end Exec

end SymExec
