import SymExec.Console.Session

/-!
# Steps on calling conventions

Steps that choose a calling convention and pass arguments by it.
-/

namespace SymExec.Console

open Exec

def readPlain : Value → Try ArgLoc
  | .list [.str r, .int n] => .ok (.reg r n.toNat)
  | .list [.int o, .int n] => .ok (.stack o n.toNat)
  | _ => raise .badType

def readLoc : Value → Try ArgLoc
  | v@(.list [.str _, .int _]) | v@(.list [.int _, .int _]) => readPlain v
  | .list vs => do return .combo (← vs.mapM readPlain)
  | _ => raise .badType

def readPrototype (text : String) : Try (List CType × CType × Structs) := do
  let (defns, _, t) ← TypeNames.initial.parseFile text true
  match defns with
  | (_, .func args ret _) :: _ => return (args, ret, t.structs)
  | _ => raise .badType

def readConv (v : Value) : Step CallConv := do
  match v with
  | .str n => orRaise (CallConv.ofName? n) .badAttribute
  | _ => return .ofArch (← arch)

def showLoc (l : ArgLoc) : Data := .list [.str l.text, .int l.size]

def readSizes (v : Value) : Try (Option (List Nat)) := v.optional (·.items.mapM Value.natural)

def signature : Step Signature := do
  match (← get).signature with
  | some g => return g
  | none => return .make (.ofArch (← arch)) (← arch)

def baseOf (b : Fields) (k : String := "stack_base") : Try (Option Quantity) := (arg b k).optional Value.quantity

def readQuery : Value → Try Exec.ArgQuery
  | .null => .ok .told
  | .int n => .ok (.count n.toNat)
  | .list vs => .ok (.kinds (vs.map Value.truth))
  | _ => raise .badType

def conventionCall (method : String) (a : Args) : Step Value := do
  let g ← signature
  match method with
  | "arg" =>
    let b ← a.bind 1 "index stack_base"
    getArg g (← (arg b "index").integer) (← baseOf b)
  | "get_args" =>
    let b ← a.bind 0 "is_fp sizes stack_base"
    let q ← readQuery (arg b "is_fp")
    return .list (← getArgs g q (← readSizes (arg b "sizes")) (← baseOf b))
  | "get_return_val" =>
    let b ← a.bind 0 "is_fp size stack_base"
    let float := (arg b "is_fp").given?.map Value.truth
    getReturn g float (← baseOf b)
  | "set_return_val" =>
    let b ← a.bind 1 "val is_fp size stack_base"
    let float := (arg b "is_fp").given?.map Value.truth
    setReturn g (arg b "val") float (← baseOf b)
    return .null
  | "teardown_callsite" =>
    let b ← a.bind 0 "return_val arg_types force_callee_cleanup"
    let ret := (arg b "return_val").given?
    let kinds := (arg b "arg_types").given?.map (·.items.map Value.truth)
    teardownCall g ret kinds (arg b "force_callee_cleanup").truth
  | _ => raise .badAttribute

def conventionStep (name : String) (a : Args) : Step Reply := do
  let arch ← arch
  let a0 := a.arg 0
  let a1 := a.arg 1
  let a2 := a.arg 2
  match name with
  | "cc" =>
    let conv ← readConv a0
    let args ← a1.optional (·.items.mapM readLoc)
    let ret ← a2.optional readLoc
    let g ← match arg a.kw "func" with
      | .str text =>
        let (ts, r, structs) ← readPrototype text
        pure (Signature.make conv arch args ret (some (ts, r)) structs)
      | _ => pure (Signature.make conv arch args ret)
    modify ({ · with signature := some g })
    give (.str conv.name)
  | "cc_kinds" =>
    let conv ← readConv a0
    let g ← (Signature.ofKinds conv arch (a1.items.map Value.truth) (arg a.kw "ret_fp").truth
      (← readSizes (arg a.kw "sizes")))
    modify ({ · with signature := some g })
    tell (.obj [
      ("args", .list ((g.args.getD []).map showLoc)),
      ("ret", .opt showLoc g.ret)])
  | "cc_locs" =>
    let g ← signature
    let ls ← g.argLocs (a0.items.map Value.truth) (← readSizes a1)
    let fp ← ls.mapM fun l => ofExcept (g.conv.holdsFloat arch l)
    tell (.obj [
      ("locs", .list (ls.map showLoc)),
      ("space", .int (g.conv.stackSpace arch ls)),
      ("fp", .list (fp.map (.opt .bool)))])
  | "cc_match" =>
    let conv ← readConv a0
    let ls ← a1.items.mapM fun l => ofExcept (readLoc l)
    give (.bool (← conv.recognises arch ls (← a2.integer)))
  | "cc_setup" =>
    let g ← signature
    setupCall g a0 a1.items (← baseOf a.kw)
      (← baseOf a.kw "alloc_base")
      ((arg a.kw "grow_like_stack").truthOr true)
    give (.bits (← sp))
  | "cc_call" => give (← conventionCall (← a0.text) { a with pos := a.pos.drop 1 })
  | _ => do
    let c ← orRaise (CallConv.ofSystem? arch (← a0.text)) .badKey
    give (.dict [("cc", .str c.name), ("num", .bits (← reg (c.callNumber.getD "")))])

/-! ### Steps on procedures -/

def makeProcedure (library name : String) (kw : Fields) : Try Procedure := do
  let p ← orRaise (Procedure.ofName? library name) .badKey
  let flag (k : String) (usual : Bool) := (arg kw k).truthOr usual
  let named := "symbolic_return returns is_syscall is_stub num_args display_name library_name is_function".splitOn " "
  return { p with
    options := kw.filter fun (k, _) => !named.contains k
    symbolicReturn := flag "symbolic_return" p.symbolicReturn
    returns := flag "returns" p.returns
    isSyscall := flag "is_syscall" p.isSyscall
    isStub := flag "is_stub" p.isStub
    isFunction := flag "is_function" p.isFunction
    numArgs := (arg kw "num_args").nat?.getD p.numArgs
    display := (arg kw "display_name").str?.getD p.display
    libraryName := (arg kw "library_name").str? }

def procedureStep (a : Args) : Step Reply := do
  match a.pos with
  | library :: name :: args =>
    let p ← makeProcedure (← library.text) (← name.text) a.kw
    let bits ← wordBits
    let args := args.map fun
      | .int i => .bits (.ofInt bits i)
      | v => v
    give (← runInline p args)
  | _ => throw Args.badCall

def streamStep (a : Args) : Step Reply := do
  match a.pos with
  | [addr, fd] =>
    let l ← streamLayout
    let place := (← addr.quantity).addNat l.fd
    poke place (.ofNat 32 (← fd.natural)) { endness := (← arch).endness }
    return Value.dict [("fd", .ofNat l.fd), ("size", .ofNat l.size)]
  | _ => throw Args.badCall

end SymExec.Console
