import SymExec.Console.Session

/-!
# Steps that run blocks

Blocks are read from requests, run, and their successors become named states.
-/

namespace SymExec.Console

open Exec

/-! ### Reading -/

def readTy (d : Data) : Try Ty := orRaise (d.str?.bind Ty.ofName?) .badValue

def readEnd (d : Data) : Endness := if d.str? = some "LE" then .little else .big

variable (a : Arch)

def readRegister (d : Data) : Try Nat :=
  match d with
  | .str n => do return (← orRaise (a.register? n) .badKey).1
  | d => orRaise d.nat? .badValue

def readConst (ty v : Data) : Try Ir.Const :=
  let wrap (bits : Nat) := .num (.int bits) (Word.ofInt bits (v.int?.getD 0))
  match ty.str?, v with
  | some "F32", .str h => .ok (.flt .single (Ieee.ofPattern .single (Value.ofHex h)))
  | some "F64", .str h => .ok (.flt .double (Ieee.ofPattern .double (Value.ofHex h)))
  | some "F32i", _ => .ok (wrap 32)
  | some "F64i", _ => .ok (wrap 64)
  | some n, _ =>
    match Ty.ofName? n with
    | some (.int b) => .ok (wrap b)
    | some t => .ok (.num t (Word.ofInt t.bits (v.int?.getD 0)))
    | none => raise .badValue
  | none, _ => raise .badValue

def readExpr : Nat → Data → Try Ir.Expr
  | 0, _ => raise .badValue
  | fuel + 1, d => do
    let sub := readExpr fuel
    match d.toList with
    | [.str "c", ty, v] => return .const (← readConst ty v)
    | [.str "t", n] => return .temp (n.nat?.getD 0)
    | [.str "get", r, ty] => return .get (← readRegister a r) (← readTy ty)
    | [.str "geti", base, ty, n, ix, bias] =>
      return .getI ⟨← readRegister a base, ← readTy ty, n.nat?.getD 0⟩ (← sub ix) (bias.int?.getD 0)
    | [.str "load", e, ty, addr] => return .load (readEnd e) (← readTy ty) (← sub addr)
    | .str "op" :: name :: args => return .op (name.str?.getD "") (← args.mapM sub)
    | [.str "ite", c, x, y] => return .ite (← sub c) (← sub x) (← sub y)
    | .str "ccall" :: name :: ty :: args => return .helper (name.str?.getD "") (← readTy ty) (← args.mapM sub)
    | [.str "vecret"] => return .vectorPlace
    | [.str "gsptr"] => return .guestPlace
    | _ => raise .badValue

def readStmt (d : Data) : Try Ir.Stmt := do
  let e := readExpr a 100
  let opt (d : Data) : Try (Option Ir.Expr) := if d.isNull then .ok none else some <$> e d
  match d.toList with
  | .str "imark" :: addr :: len :: rest => return .mark (addr.nat?.getD 0) (len.nat?.getD 0) ((rest.headD .null).nat?.getD 0)
  | [.str "noop"] => return .noop
  | [.str "abihint", base, len, next] => return .hint (← e base) (len.nat?.getD 0) (← e next)
  | [.str "put", r, x] => return .put (← readRegister a r) (← e x)
  | [.str "puti", base, ty, n, ix, bias, x] =>
    return .putI ⟨← readRegister a base, ← readTy ty, n.nat?.getD 0⟩ (← e ix) (bias.int?.getD 0) (← e x)
  | [.str "wr", n, x] => return .write (n.nat?.getD 0) (← e x)
  | [.str "st", en, addr, x] => return .store (readEnd en) (← e addr) (← e x)
  | [.str "cas", en, addr, oldHi, oldLo, expHi, expLo, dataHi, dataLo] =>
    return .swap (readEnd en) (← e addr) oldHi.nat? (oldLo.nat?.getD 0) (← opt expHi) (← e expLo) (← opt dataHi) (← e dataLo)
  | [.str "llsc", en, result, addr, x] => return .linked (readEnd en) (result.nat?.getD 0) (← e addr) (← opt x)
  | [.str "mbe"] => return .fence
  | .str "dirty" :: tmp :: name :: args => return .dirty tmp.nat? (name.str?.getD "") (← args.mapM e)
  | [.str "exit", guard, target, jk] =>
    match ← e target with
    | .const c => return .exit (← e guard) c ("Ijk_" ++ jk.str?.getD "")
    | _ => raise .badValue
  | [.str "loadg", en, cvt, dst, addr, alt, guard] =>
    return .loadIf (readEnd en) (cvt.str?.getD "") (dst.nat?.getD 0) (← e addr) (← e alt) (← e guard)
  | [.str "storeg", en, addr, x, guard] => return .storeIf (readEnd en) (← e addr) (← e x) (← e guard)
  | _ => raise .badValue

def readBlock (d : Data) : Try Ir.Block := do
  let stmts ← (d.get "stmts").toList.mapM (readStmt a)
  let types ← (d.get "tys").toList.mapM readTy
  let next ← readExpr a 100 (d.get "next")
  let lengths := stmts.map fun s => match s with | .mark _ n _ => n | _ => 0
  return {
    addr := (d.get "addr").nat?.getD 0, stmts, types := types.toArray, next
    jumpkind := "Ijk_" ++ ((d.get "jk").str?.getD "Boring")
    size := ((d.get "size").nat?).getD (lengths.foldl (· + ·) 0) }

/-! ### Showing -/

variable (w : World) (s : State)

def viewerOf : Value.Viewer := Step.view { w with state := s }

def showAction (a : Action) : Data :=
  let part (k : String) (t : Option Tracked) : List (String × Data) :=
    match t with
    | some t => if t.value.isNull then [] else [(k, t.value.display .plain)]
    | none => []
  let str (k : String) (s : Option String) := (s.map fun s => (k, .str s)).toList
  .obj ([
      ("kind", .str a.kind.label), ("type", .str a.type), ("bbl", .ofNat? a.place.block),
      ("stmt", .opt .int a.place.stmt), ("ins", .ofNat? a.place.instruction),
      ("tmps", .list (a.tmps.map fun (n : Nat) => .int n)), ("regs", .list (a.regs.map fun (n : Nat) => .int n))]
    ++ str "action" a.action
    ++ (a.tmp.map fun n => ("tmp", .int n)).toList
    ++ (a.offset.map fun n => ("offset", .int n)).toList
    ++ part "addr" a.addr ++ part "size" a.size ++ part "data" a.data ++ part "condition" a.condition
    ++ part "fallback" a.fallback ++ str "op" a.op
    ++ (a.exprs.map fun es => ("exprs", .list (es.map fun t => t.value.display .plain))).toList
    ++ part "target" a.target ++ str "exit_type" a.exitType ++ part "constraint" a.constraint)

def actionsOf : List Action := s.history.lineage.reverse.flatMap fun e => e.events.reverse.filterMap Event.action?

def ipOf : Option Bits :=
  match quietIp.run { w with state := s } with
  | .ok b _ => some b
  | .error .. => none

def exitKey : Nat × Nat × Nat :=
  let exit := match s.scratch.exitStmt with
    | some (.atStmt i) => i
    | _ => 1 <<< 32
  match ipOf w s with
  | some (.lit _ v) => (exit, 0, v)
  | _ => (exit, 1, 0)

def keyLe (a b : Nat × Nat × Nat) : Bool := a.1 < b.1 || (a.1 == b.1 && (a.2.1 < b.2.1 || (a.2.1 == b.2.1 && a.2.2 ≤ b.2.2)))

def showExit : Data :=
  match s.scratch.exitStmt with
  | some (.atStmt i) => .int i
  | some .atEnd => .str "default"
  | none => .null

variable (o : Successors)

def nameSuccessors (more : List (String × Data)) (keepUnsat : Bool := false) : Step Reply := do
  let w := (← get).world
  let flat := ((o.states o.flat).map fun s => (exitKey w s, s)).mergeSort fun a b => keyLe a.1 b.1
  flat.zipIdx.forM fun ((_, s), i) => Step.putState s!"s{i}" s
  (o.states o.unconstrained).zipIdx.forM fun (s, i) => Step.putState s!"u{i}" s
  if keepUnsat then (o.states o.unsat).zipIdx.forM fun (s, i) => Step.putState s!"x{i}" s
  let show1 (s : State) : Data :=
    let guard := (s.history.current.jumpGuard.map fun c => Value.displayCond .plain c).getD .null
    .obj [
      ("ip", match ipOf w s with | some b => Value.displayBits .plain b | none => .null),
      ("jk", .opt .str s.history.current.jumpkind), ("guard", guard), ("stmt", showExit s),
      ("depth", .int s.callstack.length)]
  tell (.obj ([
    ("flat", .list (flat.map fun (_, s) => show1 s)), ("unsat", .int o.unsat.length),
    ("unconstrained", .int o.unconstrained.length), ("all", .int o.all.length)] ++ more))

def lastParts (kw : Data) : Step (List (String × Data)) := do
  let w := (← get).world
  let some s := (o.states o.all).getLast? | return []
  let view := viewerOf w s
  let tmps :=
    if (kw.get "tmps").truthy then
      [("tmps", Data.obj (s.scratch.temps.toList.map fun (n, v) => (toString n, (Value.ofScalar v).display view)))]
    else []
  let actions := if (kw.get "actions").truthy then [("actions", .list ((actionsOf s).map showAction))] else []
  return tmps ++ actions

def keywords (raw : List Data) : Data :=
  match raw.getLast? with
  | some (.obj [("kw", kw)]) => kw
  | _ => .obj []

def readBlockOptions (kw : Data) (block : Option Ir.Block) : BlockOptions where
  block
  skip := (kw.get "skip_stmts").nat?.getD 0
  last := match kw.get? "last_stmt" with
    | some d => d.int?
    | none => some 99999999
  whitelist := match kw.get "whitelist" with
    | .list xs => some (xs.filterMap Data.nat?)
    | _ => none
  limits := { bytes := (kw.get "size").nat?, instructions := (kw.get "num_inst").nat? }

def execStep (raw : List Data) : Step Reply := do
  let kw := keywords raw
  let b ← readBlock (← arch) (raw.headD .null)
  let o ← step (Stepping.runBlock (readBlockOptions kw (some b))) "SimEngineVEX" (kw.get "inline").truthy (some b.addr)
  nameSuccessors o (← lastParts o kw)

def dirtyStep (a : Args) : Step Reply := do
  let name ← (a.arg 0).text
  let args ← (a.pos.drop 1).mapM fun v => ofExcept v.quantity
  let r ← orRaise (← runDirty name args) .badAttribute
  give (.opt .bits r)

end SymExec.Console
