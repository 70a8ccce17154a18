import SymExec.Console.Blocks
import SymExec.Console.CallSteps
import SymExec.Console.StateSteps

/-!
# The steps of a session

A step by its name.
-/

namespace SymExec.Console

open Exec

/-! ### Breakpoints -/

def eventNames : List String :=
  ("mem_read mem_write address_concretization reg_read reg_write tmp_read tmp_write expr statement instruction irsb " ++
    "constraints exit fork symbolic_variable call return simprocedure syscall state_step cfg_handle_job " ++
    "vfg_handle_successor vfg_widen_state engine_process").splitOn " "

def attributeNames : List String :=
  ("mem_read_address mem_read_expr mem_read_length mem_write_address mem_write_expr mem_write_length reg_read_offset " ++
    "reg_read_expr reg_read_length reg_write_offset reg_write_expr reg_write_length tmp_read_num tmp_read_expr " ++
    "tmp_write_num tmp_write_expr expr statement instruction address added_constraints function_address exit_target " ++
    "exit_guard exit_jumpkind backtrace symbolic_name symbolic_size symbolic_expr address_concretization_strategy " ++
    "address_concretization_action address_concretization_memory address_concretization_expr " ++
    "address_concretization_result address_concretization_add_constraints syscall_name simprocedure_name " ++
    "simprocedure_addr simprocedure sim_engine sim_successors").splitOn " "

variable (a : Args)

def breakpointStep : Exec Unit := do
  let text (i : Nat) : Exec String := ofExcept (a.arg i).text
  let name ← text 0
  let event ← text 1
  let moment := match a.arg 2 with
    | .str "after" => When.after
    | .str "both" => .both
    | _ => .before
  let conditions := a.kw.filter (·.1 != "set")
  let known (k : String) := attributeNames.any fun n => k == n || k == n ++ "_unique"
  if conditions.any fun (k, _) => !known k then raise .badValue
  let i ← inspector
  if !eventNames.contains event then raise .badValue
  let assigns := match a.kw.lookup "set" with
    | some (.list [.str k, v]) => some (k, v)
    | _ => none
  let bp : Breakpoint := {
    id := ← serial, name, event, moment, conditions, assigns
    attributes := (a.arg 3).items.filterMap (·.str?) }
  modifyState fun s => { s with inspector := some { i with breakpoints := i.breakpoints ++ [bp] } }

def traceStep (view : Value.Viewer) : Exec Data := do
  let rows := (← get).trace.reverse
  modify ({ · with trace := [] })
  return .list (rows.map fun (n, vs) => .list (.str n :: vs.map (·.display view)))

/-! ### Registers -/

variable (name : String)

def quietName : String × Bool := if name.startsWith "_" then ((name.drop 1).toString, true) else (name, false)

def namedPlace (write : Bool) : Exec (Quantity × Nat) :=
  tryCatch (registerPlace name write) fun f => if f.kind = .badKey then raise .badAttribute else throw f

def regRead : Exec Value := do
  let (name, quiet) := quietName name
  let (place, size) ← namedPlace name false
  return .bits (← load .registers place { size, inspected := !quiet, actions := !quiet })

def regWrite (v : Value) : Exec Unit := do
  let (name, quiet) := quietName name
  let (place, size) ← namedPlace name true
  let _ ← store .registers place (← datum (← arch).bits (some size) v) { size, inspected := !quiet, actions := !quiet }

/-! ### Paths -/

def scratchStep (a : Args) : Exec Value := do
  let s := (← state).scratch
  match name with
  | "tmp_expr" => return .ofScalar (← temp (← (a.arg 0).natural))
  | "bbl_addr" => return .ofNat? s.block
  | "ins_addr" => return .ofNat? s.instruction
  | "stmt_idx" => return .opt .int s.stmt
  | "jumpkind" => return .opt .str s.jumpkind
  | _ => raise .badAttribute

def historyStep : Exec Value := do
  let h := (← state).history
  match name with
  | "depth" => return .ofNat h.current.depth
  | "block_count" => return .ofNat h.blockCount
  | "jumpkind" => return .opt .str h.current.jumpkind
  | _ => raise .badAttribute

def pathStep (path : String) (a : Args) : Exec Reply := do
  let bits ← wordBits
  let a0 := a.arg 0
  match path.splitOn "." with
  | ["satisfiable"] => give (.bool (← satisfiable (← Value.conds (arg a.kw "extra_constraints").items)))
  | ["add_constraints"] =>
    addConstraints (← Value.conds a.pos) (arg a.kw "action").truth
    give .null
  | ["stack_push"] =>
    stackPush (← datum bits none a0)
    give .null
  | ["stack_pop"] => give (.bits (← stackPop))
  | ["stack_read"] =>
    let b ← a.bind 2 "offset length bp"
    return (.bits (← stackRead (← datum bits none (arg b "offset")) (← (arg b "length").quantity) (arg b "bp").truth) : Value)
  | ["make_concrete_int"] =>
    match a0 with
    | .int _ => return a0
    | v => give (.ofNat (← makeConcrete (← v.quantity)))
  | ["simplify"] =>
    match a0 with
    | .bits b => give (.bits (← simplify b))
    | .cond c => give (.cond (← simplifyCond c))
    | .null =>
      let s ← state
      give (.list ((s.constraints.reverse ++ s.learned).eraseDups.map .cond))
    | v => return v
  | ["downsize"] =>
    if (← state).inspector.isSome then downsizeInspector
    give .null
  | ["addr"] => give (.ofNat (← addr))
  | ["ip"] => give (.bits (← ip))
  | ["mode"] => give (.str (← state).mode.name)
  | ["callstack"] => callstackReply
  | ["callstack", n] => callstackStep n a
  | ["memory", n] => give (← memoryStep .memory n a)
  | ["registers", n] => give (← memoryStep .registers n a)
  | ["regs", n] => give (← regRead n)
  | ["solver", n] | ["se", n] => give (← solverStep n a)
  | ["posix", n] => give (← posixStep n a)
  | ["libc", n] => give (← libcStep n)
  | ["cgc", n] => give (← cgcStep n a)
  | ["scratch", n] => give (← scratchStep n a)
  | ["history", n] => give (← historyStep n)
  | _ => raise .badAttribute

def attrStep (path : String) (v : Value) : Exec Unit := do
  match path.splitOn "." with
  | ["callstack", "func_addr"] | ["callstack", "current_function_address"] =>
    let n ← v.optional Value.natural
    modifyTopFrame ({ · with func := n })
  | ["callstack", "stack_ptr"] =>
    let n ← v.optional Value.natural
    modifyTopFrame ({ · with sp := n })
  | ["callstack", "ret_addr"] =>
    let n ← v.optional Value.integer
    modifyTopFrame ({ · with ret := n })
  | ["callstack", "call_site_addr"] =>
    let n ← v.optional Value.natural
    modifyTopFrame ({ · with callSite := n })
  | ["regs", n] => regWrite n v
  | ["libc", n] =>
    let k ← v.natural
    match libcFields.lookup n with
    | some (_, put) => modifyLibc (put k)
    | none => if n = "simple_strtok" then modifyLibc ({ · with simpleStrtok := v.truth })
  | ["posix", "brk"] =>
    let q ← v.quantity
    modifyPosix ({ · with brk := q })
  | _ => raise .badAttribute

/-! ### Steps -/

def solutionsStep : Exec Value := do
  let n := ((a.arg 1).nat?).getD 64
  let many := .dict [("atleast", .ofNat n)]
  let all (b : Bits) (f : Nat → Value) : Exec Value := do
    let vs ← values b n
    return if vs.length ≥ n then many else .list ((vs.mergeSort (· ≤ ·)).map f)
  match a.arg 0 with
  | .bits b => all b .ofNat
  | .cond c => all (.ofCond c) fun v => .bool (v == 1)
  | .int i => return if n ≤ 1 then many else .list [.int i]
  | _ => raise .badAttribute

def mergeStep : Step Reply := do
  let named (v : Value) : Step State := do
    orRaise (← Step.state? (← v.text)) .badKey
  let others ← (a.arg 0).items.mapM named
  let given ← match a.kw.lookup "merge_conditions" with
    | some (.list cs) => some <$> cs.mapM fun c => do return Cond.all (← Value.conds c.items)
    | _ => pure none
  let ancestor ← match a.kw.lookup "common_ancestor" with
    | some v => some <$> named v
    | none => pure none
  let (merged, conds) ← merge others given ancestor
  Step.putState (← get).current merged
  return Value.dict [("flag", .ofNat conds.length), ("changed", .bool true)]

def stateStep (raw : List Data) : Step Reply := do
  if name = "exec" then return ← execStep raw
  let results := (← get).results
  if raw.any (Data.missingRef results.size) then raise .badIndex
  let a ← Args.read (fun i => results.getD i .null) raw
  let a0 := a.arg 0
  let a1 := a.arg 1
  match name with
  | "fork" =>
    Step.putState (← a0.text) (← fork)
    give .null
  | "use" => give (.bool (← Step.use (← a0.text)))
  | "reg" =>
    let r ← a0.text
    if a.pos.length > 1 then
      regWrite r a1
      give .null
    else give (← regRead r)
  | "attr" =>
    attrStep (← a0.text) a1
    give .null
  | "option" => do
    let o ← orRaise (Setting.ofName? (← a0.text)) .badAttribute
    modifyState fun s => { s with settings := if a1.truth then s.settings.insert o else s.settings.erase o }
    give .null
  | "has_option" => do
    let o ← orRaise (Setting.ofName? (← a0.text)) .badAttribute
    give (.bool (← has o))
  | "val" => return a0
  | "find" =>
    let (x, cs, is) ← findStep .memory a
    addConstraints cs
    give (.tuple [x, is])
  | "contains" => give (.bool (← containsStep (← regionOf a1) a0))
  | "mem" => give (← viewStep ((← a0.quantity).toBits (← wordBits)) a1.items a.pos[2]?)
  | "changed" => do
    let other ← orRaise (← Step.state? (← a0.text)) .badKey
    let r ← regionOf a1
    let theirs := match r with
      | .registers => other.registers.paged
      | _ => other.memory.paged
    give (.list (((← onPages r (Paged.changed theirs)).mergeSort (· ≤ ·)).map .ofNat))
  | "dump" => give (.str (← dumpStep (← regionOf (a.arg 2)) (← a0.natural) (← a1.natural)))
  | "solutions" => give (← solutionsStep a)
  | "ev" => give (← solverStep (← a0.text) { a with pos := a.pos.drop 1 })
  | "constrain" =>
    addConstraints (← Value.conds a.pos)
    give (.bool (← satisfiable))
  | "file" =>
    fileStep a
    give .null
  | "push_frame" =>
    pushFrame (← readFrame a)
    give .null
  | "callstack" => callstackReply
  | "fds" => tell (← fdsStep (← Step.viewer))
  | "breakpoint" =>
    breakpointStep a
    give .null
  | "unbreak" =>
    let n ← a0.text
    let i ← inspector
    let some bp := i.breakpoints.find? (·.name == n) | raise .badKey
    modifyState fun s => { s with inspector := some { i with breakpoints := i.breakpoints.filter (·.id != bp.id) } }
    give .null
  | "trace" => tell (← traceStep (← Step.viewer))
  | "cc" | "cc_kinds" | "cc_locs" | "cc_match" | "cc_setup" | "cc_call" | "syscall_num" => conventionStep name a
  | "dirty" => dirtyStep a
  | "merge" => mergeStep a
  | "proc" => procedureStep a
  | "stream" => streamStep a
  | path => pathStep path a

def runSteps (step : String → List Data → Step Reply) (s : Session) : List Data → List Data
  | [] => []
  | d :: ds =>
    let name := d.name 0
    let out : Try Reply × Session := match step name (d.toList.drop 1) s with
      | .ok r s => (.ok r, s)
      | .error f s => (.error f, s)
    let (r, s) := out
    let (v, shown) : Value × Data := match r with
      | .error f => (.null, Value.showFault f)
      | .ok { value := v, shown := some d } => (v, d)
      | .ok { value := v, shown := none } =>
        match Step.viewer s with
        | .ok view _ => (v, v.display view)
        | .error f _ => (v, Value.showFault f)
    shown :: runSteps step { s with results := s.results.push v } ds

variable (d : Data)

def readSettings : List Setting := d.toList.filterMap fun n => n.str?.bind Setting.ofName?

def initialState : State :=
  let arch := ((d.get "arch").str?.bind Arch.ofName?).getD .amd64
  let mode := ((d.get "mode").str?.bind Mode.ofName?).getD .symbolic
  let settings := (mode.settings.insertAll (readSettings (d.get "add"))).eraseAll (readSettings (d.get "remove"))
  .blank arch mode settings

def states : Data := .list (runSteps stateStep { world := { state := initialState d } } (d.get "steps").toList)

/-! ### Helper functions -/

def helperStep (args : List Bits) : Exec Value := do
  let some (v, cs) ← callHelper name args | raise .badAttribute
  return .list [.bits v, .list (cs.map .cond)]

def helperCalls : Data :=
  let init : Exec Unit := (d.get "mem").toList.forM fun m => do
    let v ← Value.ofData (fun _ => .null) (m.item 1)
    poke (.num ((m.item 0).nat?.getD 0)) (← datum (← arch).bits none v)
  let one (c : Data) : Data :=
    let act : Step Reply := do
      let a ← Args.read (fun _ => .null) (c.toList.drop 1)
      let bits ← wordBits
      let args ← a.pos.mapM fun v => ofExcept (datum bits none v)
      give (← helperStep (c.name 0) args)
    let s0 : Session := { world := { state := initialState d } }
    match (do Step.exec init; act : Step Reply) s0 with
    | .error f _ => Value.showFault f
    | .ok r s =>
      match Step.viewer s with
      | .ok view _ => r.value.display view
      | .error f _ => Value.showFault f
  .list ((d.get "cases").toList.map one)

end SymExec.Console
