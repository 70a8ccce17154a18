import SymExec.Console.ManagerSteps

/-!
# Steps on programs

A session over a program: its states, its hooks, and what is run of it.
-/

namespace SymExec.Console

open Exec

/-! ### Reading -/

def hexByte (a b : Char) : UInt8 := (Value.ofHex (String.ofList [a, b])).toUInt8

def readBytes : List Char → ByteArray → ByteArray
  | a :: b :: rest, out => readBytes rest (out.push (hexByte a b))
  | _, out => out

variable (d : Data)

def readMemory : ByteArray :=
  match d with
  | .str s => readBytes s.toList .empty
  | d => ⟨.replicate (d.nat?.getD 0) 0⟩

def readProgram : Try Program := do
  let arch := ((d.get "arch").str?.bind Arch.ofName?).getD .amd64
  let base := (d.get "base").nat?.getD 0
  let blocks ← (d.get "blocks").toList.mapM (readBlock arch)
  return .ofBytes arch base (readMemory (d.get "mem")) (((d.get "entry").nat?).getD base) blocks

def Step.modifyProgram (f : Program → Program) : Step Unit :=
  modify fun s => { s with world := { s.world with program := s.world.program.map f } }

/-! ### States -/

def readStart (kw : Fields) : Try StartOptions := do
  checkNames kw "addr initial_prefix stack_size mode options add_options remove_options os_name"
  return {
    addr := ← (arg kw "addr").optional Value.quantity
    named := (arg kw "initial_prefix").str?
    stackSize := (arg kw "stack_size").nat?.getD (1024 * 1024 * 8)
    mode := ((arg kw "mode").str?.bind Mode.ofName?).getD .symbolic
    settings := (arg kw "options").given?.map fun v => .insertAll {} (settingsNamed v)
    adding := settingsNamed (arg kw "add_options")
    removing := settingsNamed (arg kw "remove_options") }

def readSignature (p : Program) (func : Value) : Try Signature := do
  let conv := .ofArch p.arch
  match func with
  | .str text =>
    let (ts, r, structs) ← readPrototype text
    return .make conv p.arch none none (some (ts, r)) structs
  | _ => return .make conv p.arch

variable (a : Args)

def makeStep : Step Reply := do
  let p ← Step.program
  let kind ← (a.arg 0).text
  let rest := a.pos.drop 1
  let s ← match kind with
    | "call_state" =>
      let special := "ret_addr toc stack_base alloc_base grow_like_stack base_state func".splitOn " "
      let (own, kw) := a.kw.partition fun (k, _) => special.contains k
      match rest with
      | [] => raise .badType
      | addr :: args =>
        let base ← match arg own "base_state" with
          | .str n => Step.state? n
          | _ => pure none
        let c : Exec.CallOptions := {
          signature := some (← readSignature p (arg own "func"))
          base, toc := (arg own "toc").given?, ret := (arg own "ret_addr").given?
          stackBase := ← baseOf own
          allocBase := ← baseOf own "alloc_base"
          downward := (arg own "grow_like_stack").truthOr true }
        Step.exec (callState p (← addr.quantity) args (← readStart kw) c)
    | _ =>
      if !rest.isEmpty then raise .badType
      Step.exec (startState p (← readStart a.kw))
  Step.putState (← get).current s
  modify fun t => { t with bench := { t.bench with links := t.bench.links.filter (·.1 != t.current) } }
  give (.ofNat (← Step.exec addr))

def wholeHistory : Step Reply := do
  let h := (← Step.exec state).history
  let epochs := h.lineage.reverse
  let opt (f : Epoch → Option Data) := .list (epochs.filterMap f)
  let events := epochs.flatMap fun e => e.events.reverse
  if events.any (·.type?.isNone) then raise .badAttribute
  tell (.obj [
    ("bbls", .list (epochs.flatMap fun e => e.blocks.map fun (n : Nat) => .int n)),
    ("blocks", .int h.blockCount), ("depth", .int h.current.depth),
    ("descriptions", opt fun e => e.description.map .str),
    ("events", .list (events.filterMap fun e => e.type?.map .str)),
    ("guards", opt fun e => e.jumpGuard.map (Value.displayCond .plain)),
    ("jks", opt fun e => e.jumpkind.map .str)])

/-! ### Running -/

def successorsStep (raw : List Data) (a : Args) : Step Reply := do
  let kw := keywords raw
  let options : StepOptions := {
    toBlockOptions := readBlockOptions kw none
    inPlace := (kw.get "inline").truthy
    forceAddr := (kw.get "force_addr").nat? }
  let run := successors options
  let o ←
    match arg a.kw "addr", arg a.kw "jumpkind" with
    | .null, .null => Step.exec run
    | addr, jumpkind => do
      let copy ← fork
      let (o, _) ← Step.exec <| onState copy do
        match addr with
        | .null => pure ()
        | v => setRegAt (← arch).ipOffset ((← v.quantity).toBits (← arch).bits)
        match jumpkind with
        | .str j => modifyEpoch ({ · with jumpkind := some j })
        | _ => pure ()
        run
      pure o
  let sort := .opt .str o.sort
  nameSuccessors o ((← lastParts o kw) ++ [("sort", sort)]) true

def callStep : Step Reply := do
  let p ← Step.program
  match a.pos with
  | [] => raise .badType
  | addr :: args =>
    let sig ← readSignature p (arg a.kw "func")
    let (v, s) ← Step.exec (call p (← addr.quantity) args sig)
    Step.putState "result" s
    let w := (← get).world
    return { value := v, shown := some (v.display (viewerOf w s)) }

/-! ### Hooks -/

def hookedName (addr : Nat) : Step Value := do
  match (← Step.program).hooks[addr]? with
  | some q => return .str q.display
  | none => return .null

def standInStep (rehook : Bool) : Step Reply := do
  match a.pos with
  | addr :: library :: name :: rest =>
    let addr ← addr.natural
    let kw := a.kw.filter fun (k, _) => k != "replace"
    let q ← makeProcedure (← library.text) (← name.text) kw
    let replace := match if rehook then rest.headD .null else arg a.kw "replace" with
      | .bool b => b
      | .null => rehook
      | _ => true
    Step.modifyProgram fun p => p.hookNew addr q replace
    give (← hookedName addr)
  | _ => raise .badType

def userHookStep : Step Reply := do
  match a.pos with
  | [addr, length, register, value] => do
    let q ← orRaise (Procedure.ofName? "stubs" "UserHook" [("register", register), ("value", value), ("length", length)]) .badKey
    let addr ← addr.natural
    Step.modifyProgram fun p => p.hookNew addr q false
    give .null
  | _ => raise .badType

def blockStep : Step Reply := do
  let p ← Step.program
  let b ← a.bind 1 "addr size max_size num_inst opt_level"
  let addr ← (arg b "addr").natural
  let size := (arg b "max_size").nat? <|> (arg b "size").nat?
  let blk ← p.blockAt addr { bytes := size, instructions := (arg b "num_inst").nat? }
  let size := size.getD blk.size
  tell (.obj [
    ("addr", .int addr), ("size", .int size), ("instructions", .list (blk.instructions.map fun (n : Nat) => .int n)),
    ("jumpkind", .str blk.jumpkind), ("stmts", .int blk.stmts.length),
    ("repr", .str ("<Block for " ++ hexText addr ++ ", " ++ toString size ++ " bytes>"))])

/-! ### Steps -/

def programStep (name : String) (raw : List Data) : Step Reply := do
  let args := do
    let results := (← get).results
    if raw.any (Data.missingRef results.size) then raise .badIndex
    ofExcept (Args.read (fun i => results.getD i .null) raw)
  match name with
  | "make" => makeStep (← args)
  | "succ" => successorsStep raw (← args)
  | "history" => wholeHistory
  | "hook" => standInStep (← args) false
  | "rehook" => standInStep (← args) true
  | "user_hook" => userHookStep (← args)
  | "unhook" =>
    let addr ← ((← args).pos.headD .null).natural
    Step.modifyProgram fun p => p.unhook addr
    give (.bool ((← Step.program).isHooked addr))
  | "is_hooked" =>
    let addr ← ((← args).pos.headD .null).natural
    give (.list [.bool ((← Step.program).isHooked addr), ← hookedName addr])
  | "block" => blockStep (← args)
  | "call" => callStep (← args)
  | "simgr" => managerStep (← args)
  | "pick" => pickStep (← args)
  | "tech" => techniqueStep (← args)
  | "untech" => untechniqueStep (← args)
  | "g" => benchStep Exploring.veritest raw (← args)
  | _ =>
    match flowStep? name args with
    | some act => act
    | none => stateStep name raw

def programs : Data :=
  match readProgram d with
  | .error f => Value.showFault f
  | .ok p =>
    let state := .blank p.arch .symbolic Mode.symbolic.settings p.backing
    .list (runSteps programStep { world := { state, program := some p } } (d.get "steps").toList)

end SymExec.Console
