import SymExec.Engine.Statement
import SymExec.Proofs.Path

/-!
# Operands

The value of an expression may be read from memory and from banks of registers at addresses that are values themselves.
-/

namespace SymExec

open Paged (leaves)

open Exec

/-- The call of a helper function reads a descriptor at a number only, and rests on conditions that the state has. -/
structure Flags.Settled (name : String) (args : List Bits) (w : World) : Prop where
  descriptor : After helperContext w fun cx _ => ∀ p k, Flags.callHelper cx name args = some (.segment (.ok (.descriptor p k))) →
    p.lit?.isSome
  conditions : After (Exec.callHelper name args) w fun r w' => ∀ v cs, r = some (v, cs) →
    ∀ μ : Model, μ.Meets w'.state.constraints → μ.Meets cs

namespace Ir

mutual

/-- The places that the value of an expression is read from are numbers. -/
def Expr.Concrete : Expr → World → Prop
  | .getI b index bias, w => index.Concrete w ∧ After (operand index) w fun o w =>
      After (bankPlace b o.value.toBits bias) w fun p _ => p.1.lit?.isSome
  | .load _ _ addr, w => addr.Concrete w ∧ After (operand addr) w fun o _ => o.value.toBits.lit?.isSome
  | .op _ args, w => Expr.AllConcrete args w
  | .ite c a b, w => c.Concrete w ∧ After (operand c) w fun _ w => b.Concrete w ∧ After (operand b) w fun _ w => a.Concrete w
  | .helper name _ args, w => Expr.AllConcrete args w ∧ After (operands args) w fun os w =>
      Flags.Settled name (os.map (·.value.toBits)) w
  | _, _ => True

def Expr.AllConcrete : List Expr → World → Prop
  | [], _ => True
  | e :: es, w => e.Concrete w ∧ After (operand e) w fun _ w => Expr.AllConcrete es w

end

end Ir

namespace Exec

variable {P : World → Prop} {w : World} {α : Type} {args : List Ir.Expr} {w' : World} {x : Except Fault α} {c : Ir.Const}

lemma ofExcept_steady : Steady P (ofExcept x) w := by
  cases x with
  | ok a => exact .pure a
  | error f => exact .throw f

lemma ofExcept_ok {a : α} (h : (ofExcept x : Exec α) w = .ok a w') : x = .ok a ∧ w' = w := by
  cases x with
  | ok b =>
    cases h
    exact ⟨rfl, rfl⟩
  | error f => cases h

lemma inspect_nil (hw : w.Quiet) (event : String) (moment) : inspect event moment [] w = .ok () w := by
  cases hi : w.state.inspector with
  | none => exact inspect_none hi
  | some i => exact inspect_some hi rfl hw

lemma sources_steady {read taken o} : Steady P (sources read taken o) w := .seq .get <| .orElse fun _ => .when fun _ => .check

lemma tracked_steady {o v} : Steady P (tracked o v) w := sources_steady.seq <| sources_steady.done

lemma constant_steady : Steady P (constant c) w := by
  cases c with
  | num t v => exact .pure _
  | flt s b => exact .seq .get <| .check

lemma ofType_steady {t b} : Steady P (ofType t b) w := by
  refine .when fun _ => ?_
  split
  · exact .pure _
  · exact .throw _

lemma bankPlace_steady {b index bias} : Steady P (bankPlace b index bias) w := ofExcept_steady.done

lemma ok_of_tryCatch {x h a} (hh : ∀ f t, ∀ b t', h f t = .ok b t' → ∃ f', b = .error f')
    (hrun : (tryCatch (.ok <$> x) h : Exec (Except Fault α)) w = .ok (.ok a) w') : x w = .ok a w' := by
  change EStateM.tryCatch (EStateM.map .ok x) h w = _ at hrun
  rw [EStateM.tryCatch, EStateM.map] at hrun
  cases hx : x w with
  | ok b t =>
    rw [hx] at hrun
    obtain ⟨hb, rfl⟩ := EStateM.Result.ok.inj hrun
    rw [Except.ok.inj hb]
  | error f t =>
    rw [hx] at hrun
    obtain ⟨f', hf⟩ := hh f t _ w' hrun
    cases hf

section
variable (hP : World.Frame P) {name : String}
include hP

lemma finishValue_steady {v : Scalar} {bits : Nat} : Steady P (finishValue v bits) w := by
  cases v with
  | flt f => exact .check
  | bits b =>
    refine .seq .get <| .ite (fun _ => simplify_steady.seq ?_) fun _ => ?_
    all_goals
      refine .read rfl fun h => ?_
      refine Steady.ite (by simp [hP.symbolic _ h]) (fun _ => ?_) h
      exact .check

lemma callHelper_steady {name args} (h : Flags.Settled name args w) : Steady P (callHelper name args) w := by
  refine .bind .get fun cx t hcx => ?_
  have hd := h.descriptor cx t hcx
  split
  · exact .pure _
  · exact ofExcept_steady.done
  · rename_i s hs
    cases s with
    | error f => exact id
    | ok s =>
      cases s with
      | done v => exact id
      | descriptor p k =>
        have found : Steady P (do
            let d ← load .memory p { size := some (.num 8), endness := some .little }
            return some (k d, []) : Exec (Option (Bits × List Cond))) t :=
          (hP.toLoose.load .memory (show (Quantity.bits p).nat?.isSome from hd p k hs) _ rfl rfl rfl).done
        exact found

lemma applyOp_steady {args : List Scalar} : Steady P (applyOp name args) w := by
  refine ofExcept_steady.seq <| .seq .get <| .ite (fun _ => (Steady.throw _).bind fun _ _ _ => ?_) fun _ => ?_
  all_goals
    split
    · exact .pure _
    · refine .seq .get <| .ite (fun _ => ?_) fun _ => .throw _
      exact (unconstrained_steady hP).done

lemma readAction_steady {place bits v} : Steady P (readAction place bits v) w :=
  .seq .get <| .orElse fun _ => (offsetOf_steady hP).seq <| .seq .get <| .pure _

lemma temp_steady {n : Nat} : Steady P (temp n) w := by
  refine (inspect_steady hP).seq <| .bind .get fun _ _ _ => ?_
  split
  · exact .throw _
  · exact (inspect_steady hP).done

lemma typed_steady {e : Ir.Expr} {rest : Ty → Exec Operand} (hrest : ∀ t, Steady P (rest t) w) : Steady P (do
      let s ← state
      let t ← ofExcept (e.ty s.scratch.types)
      inspect "expr" .before []
      rest t) w := by
  refine .read rfl fun h => ?_
  refine Steady.bind ofExcept_steady (fun t w' ht => ?_) h
  obtain rfl := (ofExcept_ok ht).2
  refine .bind (inspect_steady hP) fun _ w1 hw1 => ?_
  rw [inspect_nil (hP.central.quiet _ h)] at hw1
  cases hw1
  exact hrest t

lemma found_steady {r : Operand} : Steady P (do
    inspect "expr" .after [("expr", .ofScalar r.value)]
    return r : Exec Operand) w :=
  (inspect_steady hP).done

/-! ### The kinds of expressions -/

lemma operand_const : Steady P (operand (.const c)) w := by
  refine typed_steady hP fun ty => ?_
  exact constant_steady.seq <| (finishValue_steady hP).seq <| found_steady hP

lemma operand_temp {n : Nat} : Steady P (operand (.temp n)) w := by
  refine typed_steady hP fun ty => ?_
  refine .seq .get <| .seq .get <| .ite (fun _ => ?_) fun _ => (temp_steady hP).seq ?_
  all_goals
    refine (finishValue_steady hP).seq <| .seq .get <| .ite (fun _ => ?_) fun _ => found_steady hP
    exact .seq .get <| found_steady hP

lemma operand_get {offset : Nat} {t : Ty} : Steady P (operand (.get offset t)) w := by
  refine typed_steady hP fun ty => ?_
  refine ofExcept_steady.bind fun n _ _ => (hP.toLoose.load .registers rfl _ rfl rfl rfl).seq ?_
  refine ofType_steady.seq <| (finishValue_steady hP).seq ?_
  exact (readAction_steady hP).seq <| found_steady hP

lemma operand_getI {b : Ir.Bank} {index : Ir.Expr} {bias} (hindex : Steady P (operand index) w)
    (h : After (operand index) w fun o w => After (bankPlace b o.value.toBits bias) w fun p _ => p.1.lit?.isSome) :
    Steady P (operand (.getI b index bias)) w := by
  refine typed_steady hP fun ty => ?_
  refine .bind hindex fun ix t hix => .bind bankPlace_steady fun p t' hp => ?_
  have hplace : (Quantity.bits p.1).nat?.isSome := h ix t hix p t' hp
  refine .bind (hP.toLoose.load .registers hplace _ rfl rfl rfl) fun _ _ _ => ?_
  refine ofType_steady.seq <| (finishValue_steady hP).seq ?_
  exact (readAction_steady hP).seq <| found_steady hP

lemma operand_ite {c a b : Ir.Expr} (hc : Steady P (operand c) w)
    (hb : After (operand c) w fun _ w => Steady P (operand b) w ∧ After (operand b) w fun _ w => Steady P (operand a) w) :
    Steady P (operand (.ite c a b)) w := by
  refine typed_steady hP fun ty => ?_
  refine .bind hc fun oc t hoc => .bind (hb oc t hoc).1 fun ob t' hob => ?_
  refine .bind ((hb oc t hoc).2 ob t' hob) fun _ _ _ => ?_
  exact (finishValue_steady hP).seq <| found_steady hP

lemma operand_load {endness : Endness} {ty : Ty} {addr} (haddr : Steady P (operand addr) w)
    (h : After (operand addr) w fun o _ => o.value.toBits.lit?.isSome) : Steady P (operand (.load endness ty addr)) w := by
  refine typed_steady hP fun _ => ?_
  refine ofExcept_steady.bind fun n w' hn => ?_
  obtain rfl := (ofExcept_ok hn).2
  refine .bind haddr fun a t ha => ?_
  have hplace : (Quantity.bits a.value.toBits).nat?.isSome := h a t ha
  refine .seq .get <| .ite (fun _ => (hP.toLoose.load .memory hplace _ rfl rfl rfl).seq ?_) fun _ =>
    .seq .get <| (unconstrained_steady hP).seq ?_
  all_goals
    refine ofType_steady.seq <| (finishValue_steady hP).seq ?_
    refine .seq .get <| .ite (fun _ => ?_) fun _ => found_steady hP
    exact .seq .get <| tracked_steady.seq <| found_steady hP

lemma operand_op (hargs : Steady P (operands args) w) : Steady P (operand (.op name args)) w := by
  refine typed_steady hP fun ty => ?_
  refine .bind hargs fun os t _ => ?_
  refine .bind (.tryCatch (.map _ (applyOp_steady hP)) fun f t => ?_) fun res t _ => ?_
  · exact .seq .get <| .orElse fun _ => .throw _
  cases res with
  | ok v =>
    refine .seq .get <| .ite (fun _ => .seq .get ?_) fun _ => ?_
    all_goals exact (finishValue_steady hP).seq <| found_steady hP
  | error f =>
    refine (note_steady hP).seq <| .seq .get <| .ite (fun _ => ?_) fun _ => (unconstrained_steady hP).seq ?_
    all_goals exact ofType_steady.seq <| (finishValue_steady hP).seq <| found_steady hP

lemma operand_helper {ret : Ty} (hargs : Steady P (operands args) w)
    (h : After (operands args) w fun os w => Flags.Settled name (os.map (·.value.toBits)) w) :
    Steady P (operand (.helper name ret args)) w := by
  refine typed_steady hP fun ty => ?_
  refine .bind hargs fun os t hos => ?_
  have hsettled := h os t hos
  have finished : ∀ {v actions t}, Steady P (do
      let r : Operand := { value := ← finishValue (.bits v) ty.bits, actions }
      inspect "expr" .after [("expr", .ofScalar r.value)]
      return r : Exec Operand) t := (finishValue_steady hP).seq <| found_steady hP
  refine .read rfl ?_
  refine .ite (fun _ => (unconstrained_steady hP).seq <| finished) fun _ => ?_
  refine .bind (.tryCatch (.map _ (callHelper_steady hP hsettled)) fun f t => ?_) fun res t' hres => ?_
  · exact .seq .get <| .orElse fun _ => .throw _
  cases res with
  | error f =>
    refine (note_steady hP).seq ?_
    exact (unconstrained_steady hP).seq <| finished
  | ok res =>
    have hcall := ok_of_tryCatch (fun f t b t' hb => by
      obtain ⟨_, _, -, hb⟩ := ok_of_bind hb
      split at hb
      · exact ⟨f, (EStateM.Result.ok.inj hb).1.symm⟩
      · exact nomatch hb) hres
    cases res with
    | some r => refine .bind (hP.adds t' r.2 false (hsettled.conditions _ t' hcall r.1 r.2 rfl)) fun _ _ _ => finished
    | none =>
      refine .seq .get <| .ite (fun _ => (Steady.throw _).seq ?_) fun _ => ?_
      all_goals
        refine .seq .get <| .ite (fun _ => (note_steady hP).seq finished) fun _ => ?_
        exact (unconstrained_steady hP).seq <| (note_steady hP).seq finished

end

mutual

/-- **The value of an expression** at numbers is found along the path. -/
theorem operand_steady (hP : World.Frame P) : ∀ (e) (w), e.Concrete w → Steady P (operand e) w
  | .const c, _, _ => operand_const hP
  | .temp n, _, _ => operand_temp hP
  | .get offset t, _, _ => operand_get hP
  | .getI b index bias, w, h => operand_getI hP (operand_steady hP index w h.1) h.2
  | .load endness t addr, w, h => operand_load hP (operand_steady hP addr w h.1) h.2
  | .op name args, w, h => operand_op hP (operands_steady hP args w h)
  | .ite c a b, w, h => by
    refine operand_ite hP (operand_steady hP c w h.1) fun oc t hoc => ?_
    obtain ⟨hb, ha⟩ := h.2 oc t hoc
    exact ⟨operand_steady hP b t hb, fun ob t' hob => operand_steady hP a t' (ha ob t' hob)⟩
  | .helper name t args, w, h => operand_helper hP (operands_steady hP args w h.1) h.2
  | .vectorPlace, _, _ => typed_steady hP fun ty => found_steady hP
  | .guestPlace, _, _ => .seq .get <| (inspect_steady hP).seq <| found_steady hP

lemma operands_steady (hP : World.Frame P) : ∀ (es) (w), Ir.Expr.AllConcrete es w → Steady P (operands es) w
  | [], _, _ => .pure _
  | e :: es, w, h => by
    refine .bind (operand_steady hP e w h.1) fun o t ho => ?_
    exact (operands_steady hP es t (h.2 o t ho)).done

end

end Exec

end SymExec
