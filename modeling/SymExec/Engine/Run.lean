import SymExec.Engine.Statement
import SymExec.Procedure.Table

/-!
# Running blocks and procedures

A block is run statement by statement.
-/

namespace SymExec

structure LiftLimits where
  (bytes instructions : Option Nat := none)

def maxBlockBytes : Nat := 400

def maxBlockInstructions : Nat := 99

namespace Ir.Block

def fromMark (addr : Nat) : List Stmt → Option (List Stmt)
  | [] => none
  | s :: ss => if s.mark? = some addr then some (s :: ss) else fromMark addr ss

/-- The statements up to the first instruction that a test refuses, the address of that instruction if there is one, and the bytes
of the instructions before it. -/
def takeFitting (fits : Nat → Nat → Bool) : Nat → Nat → List Stmt → List Stmt × Option Nat × Nat
  | bytes, _, [] => ([], none, bytes)
  | bytes, count, s :: ss =>
    match s with
    | .mark a len d =>
      if fits (bytes + len) (count + 1) then
        let (rest, cut, n) := takeFitting fits (bytes + len) (count + 1) ss
        (s :: rest, cut, n)
      else ([], some (a + d), bytes)
    | _ =>
      let (rest, cut, n) := takeFitting fits bytes count ss
      (s :: rest, cut, n)

def startingAt (b : Block) (word : Nat) (addr bytes : Nat) (instructions : Option Nat) : Option Block := do
  let stmts ← fromMark addr b.stmts
  let (taken, cut, size) := takeFitting (fun n k => n ≤ bytes && instructions.all (k ≤ ·)) 0 0 stmts
  match cut with
  | some c => return { b with addr, stmts := taken, size, next := .const (.num (.int word) c), jumpkind := "Ijk_Boring" }
  | none => return { b with addr, stmts := taken, size := if addr = b.addr then b.size else size }

def undecoded (word addr : Nat) : Block where
  addr
  stmts := []
  types := #[]
  next := .const (.num (.int word) addr)
  jumpkind := "Ijk_NoDecode"
  size := 0

end Ir.Block

namespace Program

variable (p : Program)

def codeAt (addr bytes : Nat) (instructions : Option Nat) : Ir.Block :=
  (p.blocks.findSome? fun b => b.startingAt p.arch.bits addr bytes instructions).getD (.undecoded p.arch.bits addr)

def stopPoint (b : Ir.Block) : Option Nat := (b.instructions.drop 1).find? p.isHooked

def codeUpToHook (addr bytes : Nat) (instructions : Option Nat) : Ir.Block :=
  let b := p.codeAt addr bytes instructions
  match p.stopPoint b with
  | some stop => p.codeAt addr (stop - addr) instructions
  | none => b

end Program

def Backing.segmentAt? (b : Backing) (addr : Nat) := b.segments.find? fun (base, bytes) => base ≤ addr && addr < base + bytes.size

def Backing.bytesFrom (b : Backing) (addr : Nat) : Nat :=
  ((b.segmentAt? addr).map fun (base, bytes) => base + bytes.size - addr).getD 0

namespace Program

def externSize : Nat := 0x8000

def bytesFrom (p : Program) (addr : Nat) : Nat :=
  if p.externBase ≤ addr && addr < p.externBase + externSize then p.externBase + externSize - addr
  else p.backing.bytesFrom addr

def blockAt (p : Program) (addr : Nat) (limits : LiftLimits := {}) : Try Ir.Block :=
  let n := min (min (limits.bytes.getD maxBlockBytes) maxBlockBytes) (p.bytesFrom addr)
  if n = 0 then .error (.because .engine ("No bytes in memory for block starting at " ++ hexText addr ++ "."))
  else .ok (p.codeUpToHook addr n (limits.instructions.map (min maxBlockInstructions)))

end Program

def Exec.bytesInMemory (addr : Nat) : Nat → Nat → Exec Nat
  | 0, n => return n
  | fuel + 1, n => do
    if ← onPages .memory (Paged.has (addr + n)) then bytesInMemory addr fuel (n + 1) else return n

def Exec.codeBytes (addr most : Nat) : Exec Nat := do
  let writable : Bool ← tryCatch (do
    let p ← permissions (.num addr)
    return (p.lit?.map fun v => v / 2 % 2 == 1).getD true) fun _ => return true
  let backing := (← state).memory.paged.backing
  let fixed := if writable then 0 else backing.bytesFrom addr
  if fixed ≠ 0 then return min most fixed
  if (← onPages .memory (Paged.has addr)) && (← onPages .memory (Paged.has (addr + most - 1))) then return most
  bytesInMemory addr most 0

def Exec.lift (addr : Nat) (limits : LiftLimits) : Exec Ir.Block := do
  let most := min (limits.bytes.getD maxBlockBytes) maxBlockBytes
  let n ← codeBytes addr most
  if n = 0 then refuse .engine ("No bytes in memory for block starting at " ++ hexText addr ++ ".")
  match (← get).program with
  | none => return .undecoded (← arch).bits addr
  | some p => return p.codeUpToHook addr n (limits.instructions.map (min maxBlockInstructions))

structure BlockOptions where
  block : Option Ir.Block := none
  skip : Nat := 0
  /-- Statements after this one are passed over; without it the end of the block is not reached. -/
  last : Option Int := some 99999999
  whitelist : Option (List Nat) := none
  limits : LiftLimits := {}

inductive BlockEnd where
  | reached
  | stopped
  | changed
deriving DecidableEq

namespace Stepping

open Exec

/-- The target of an exit whose guard was found, and a copy of the state that is to leave by it. -/
def ready (target : Ir.Const) (g : Operand) : Stepping (Scalar × State) := do
  let t ← constant target
  let own : List Action ←
    if ← has .trackJmpActions then
      pure [← exitAction { value := .ofScalar t } "conditional" (some (← tracked g (.cond (.nonzero (bitsOf g)))))]
    else pure []
  (g.actions ++ own).forM fun a => exec (act a)
  return (t, ← fork)

/-- The copy leaves, and the state goes on under the opposite condition. -/
def divide (jumpkind : String) (stmt : Nat) (g : Operand) (t : Scalar) (copy : State) : Stepping Unit := do
  let ins := (← state).scratch.instruction
  let _ ← onState copy (addSuccessor (.bits t.toBits) (.nonzero (bitsOf g)) jumpkind (some (.atStmt stmt)) ins)
  addConstraints [(Cond.nonzero (bitsOf g)).mkNot]
  modifyScratch fun s => { s with guard := Cond.mkAnd s.guard (Cond.nonzero (bitsOf g)).mkNot }

def runExit (guard : Ir.Expr) (target : Ir.Const) (jumpkind : String) (stmt : Nat) : Stepping Unit := do
  let g ← exec (operand guard)
  let (t, copy) ← ready target g
  divide jumpkind stmt g t copy

def startInstruction (addr len delta : Nat) : Stepping Bool := do
  let ins := addr + delta
  modifyScratch ({ · with instruction := some ins })
  let dirtied := (← state).scratch.dirtied
  if dirtied.any fun (a, n) => a < addr + len && addr < a + n then return true
  inspect "instruction" .after []
  modifyScratch fun s => { s with instructionCount := s.instructionCount + 1 }
  inspect "instruction" .before [("instruction", .ofNat ins)]
  return false

variable (i : Nat)

def announce : Stepping Unit := do
  modifyScratch ({ · with stmt := some i })
  inspect "statement" .before [("statement", .ofNat i)]

variable (s : Ir.Stmt)

def perform : Stepping Bool := do
  match s with
  | .mark addr len delta =>
    if ← startInstruction addr len delta then return true
    let _ ← runStatement s
  | .exit guard target jumpkind => runExit guard target jumpkind i
  | s => do
    let actions ← runStatement s
    actions.forM fun a => exec (act a)
  inspect "statement" .after []
  return false

def runStmt : Stepping Bool := do
  announce i
  perform i s

/-- Goes on after a helper with effects that is not known, if the settings allow it. -/
def passDirty (f : Fault) : Stepping Unit := do
  if !(← has .bypassUnsupportedIrdirty) then throw f
  match s with
  | .dirty tmp name _ =>
    match tmp with
    | some t =>
      let bits := ((← state).scratch.types[t]?.map Ty.bits).getD 0
      setTemp t (.bits (← unconstrained ("unsupported_dirty_" ++ name) bits))
    | none => pure ()
  | _ => pure ()
  note "resilience"

/-- Runs statements, of which those that `taken` refuses are passed over. -/
def runStmts (taken : Nat → Bool) : Nat → List Ir.Stmt → Stepping BlockEnd
  | _, [] => return .reached
  | i, s :: ss => do
    if !taken i then runStmts taken (i + 1) ss
    else
      let r : Option Bool ← tryCatch (some <$> runStmt i s) fun f => do
        if f.kind.within .unsupportedDirty then
          passDirty s f
          return some false
        else if f.kind.within .solver || f.kind.within .memoryAddress then return none
        else throw f
      match r with
      | none => return .stopped
      | some true => return .changed
      | some false => runStmts taken (i + 1) ss

def fastSkip (ss : List Ir.Stmt) : Nat :=
  let marks := (ss.zipIdx.filter fun (s, _) => s.mark?.isSome).map (·.2)
  (marks.reverse[3]?).getD 0

/-- What follows a call if calls are passed over or their return is made up at once. -/
def afterCall (callless : Bool) (trueGuard : Bool) (next : Nat) (instruction : Option Nat) : Stepping Unit := do
  match (← out).pool[i]? with
  | none => return
  | some st =>
    let jumpkind := st.history.current.jumpkind.getD ""
    if callless && jumpkind = "Ijk_Call" then
      let (_, st) ← onState st <| exec do
        let a ← arch
        setRegAt a.retOffset (← unconstrained "fake_ret_value" a.bits)
        let target := .ofNat a.bits next
        modifyScratch ({ · with target := some (.bits target) })
        modifyEpoch ({ · with jumpkind := some "Ijk_Ret" })
        setRegAt a.ipOffset target
      modifyOut fun o => { o with pool := o.pool.setIfInBounds i st }
    else if st.settings.has .doRetEmulation && (jumpkind = "Ijk_Call" || jumpkind.startsWith "Ijk_Sys") then
      let (copy, st) ← onState st (exec fork)
      modifyOut fun o => { o with pool := o.pool.setIfInBounds i st }
      let _ ← onState copy do
        let a ← arch
        if a.callPushesRet && !jumpkind.startsWith "Ijk_Sys" then setRegAt a.spOffset ((← sp).addInt a.bytes)
        addSuccessor (.bits (.ofNat a.bits next)) (.lit trueGuard) "Ijk_FakeRet" (some .atEnd) instruction

variable (b : Ir.Block)

def close : Stepping Unit := do
  modifyScratch ({ · with stmt := some b.stmts.length })
  modifyOut ({ · with instructions := b.instructions })

def settle (next : Operand) : Stepping Unit := do
  next.actions.forM fun a => exec (act a)
  if ← has .trackJmpActions then act (← exitAction (← tracked next (.ofScalar next.value)) "default")

def leaveBlock : Stepping Unit := do
  let next ← exec (operand b.next)
  settle next
  let s ← exec state
  addSuccessor (.bits (bitsOf next)) s.scratch.guard b.jumpkind (some .atEnd) s.scratch.instruction

variable (o : BlockOptions)

/-- What follows the end of a block: calls, and the state itself if only some statements were asked for and none left. -/
def finishBlock (ended : BlockEnd) : Stepping BlockEnd := do
  let callless ← has .callless
  let trueGuard ← has .trueRetEmulationGuard
  let s := (← state).scratch
  let from' := (← out).addr
  (← out).all.forM fun i => afterCall i callless trueGuard (from' + b.size) s.instruction
  if !(o.whitelist.getD []).isEmpty && (← out).isEmpty then
    let i ← keepCurrent
    listFlat i
  return ended

def runFound : Stepping BlockEnd := do
  modifyOut ({ · with block := some b })
  let skip := if ← has .superFastpath then max o.skip (fastSkip b.stmts) else o.skip
  modifyScratch ({ · with block := some b.addr })
  let taken (i : Nat) := skip ≤ i && o.last.all ((i : Int) ≤ ·) && o.whitelist.all (·.contains i)
  let ended ← runStmts taken 0 b.stmts
  if ended = .changed then return .changed
  close b
  if ended = .reached && o.last.any (fun l => decide ((b.stmts.length : Int) ≤ l)) then
    tryCatch (leaveBlock b) fun f =>
      if f.kind = .badKey then do
        let i ← keepCurrent
        listUnsat i
      else throw f
  finishBlock b o ended

def checkExecutable (addr : Nat) : Exec Unit := do
  if ← has .strictPageAccess then
    let p ← handling .memory (permissions (.num addr)) (throw (.segfault addr "exec-miss"))
    match p.lit? with
    | some v => if v / 4 % 2 = 0 && (← has .enableNx) then throw (.segfault addr "non-executable")
    | none => return

def runCode : Nat → Nat → BlockOptions → Stepping Unit
  | 0, _, _ => raise .recursion
  | fuel + 1, addr, o => do
    let b ← match o.block with
      | some b => pure b
      | none => exec (lift addr o.limits)
    if b.size = 0 then
      if b.jumpkind = "Ijk_NoDecode" then
        match (← get).world.program with
        | none => raise .badAttribute
        | some p =>
          if !p.isHooked b.addr then
            let h := hexText addr
            throw (.because .noDecode ("IR decoding error at " ++ h ++
              ". You can hook this instruction with a python replacement using project.hook(" ++ h ++
              ", your_function, length=length_of_instruction)."))
      throw (.because .block "Empty IRSB passed to SimIRSB.")
    checkExecutable addr
    modifyScratch ({ · with types := b.types })
    match ← runFound b o with
    | .changed =>
      let s := (← state).scratch
      let new := s.instruction.getD addr
      modifyScratch ({ · with dirtied := [] })
      runCode fuel new { o with
        block := none
        limits := {
          bytes := o.limits.bytes.map (· - (new - addr))
          instructions := o.limits.instructions.map (· - s.instructionCount) } }
    | _ => inspect "irsb" .after [("address", .ofNat addr)]

def runBlock : Stepping Unit := do
  modifyOut ({ · with sort := some "IRSB", description := "IRSB" })
  modifyEpoch ({ · with blockCount := 1 })
  modifyScratch ({ · with guard := .lit true, procedure := none })
  let addr := (← out).addr
  inspect "irsb" .before [("address", .ofNat addr)]
  runCode 100 addr o
  modifyOut ({ · with processed := true })

end Stepping

namespace Exec

/-- Makes a step of the current state by work that adds its successors. -/
def step (work : Stepping Unit) (engine : String) (inPlace : Bool := false) (forceAddr : Option Nat := none) : Exec Successors := do
  let at_ ← match forceAddr with
    | some a => pure a
    | none => do eval (← quietIp)
  let shared := inPlace || !(← has .cowStates)
  let handles ← has .exceptionHandling
  let start ← if shared then state else fork
  let id ← serial
  let start := { start with history := start.history.child id }
  let start := { start with history := { start.history with current := { start.history.current with blocks := [at_] } } }
  let whole : Stepping Unit := do
    inspect "engine_process" .before [
      ("sim_engine", .str ("<" ++ engine ++ ">")), ("sim_successors", .str (← Stepping.out).text), ("address", .ofNat at_)]
    work
    inspect "engine_process" .after [("sim_successors", .str (← Stepping.out).text), ("address", .ofNat at_)]
    Stepping.exec downsizeInspector
  fun w =>
    match whole { world := { w with state := start }, out := { addr := at_ } } with
    | .error f c =>
      let own := if shared then c.world.state else w.state
      let f := if f.kind.within .exception && handles && w.program.isNone then .of .badAttribute else f
      .error f { c.world with state := own }
    | .ok _ c =>
      let own := if shared then c.world.state else w.state
      let text := c.out.text
      let told := c.out.all ++ c.out.flat
      let pool := c.out.pool.mapIdx fun i s =>
        if told.contains i then
          { s with history := { s.history with current := { s.history.current with description := some text } } }
        else s
      .ok { c.out with pool } { c.world with state := own }

end Exec

/-! ## Running procedures

A procedure is run for its result alone, or as a step that leads to successors. -/

namespace Procedure

def ofKind (k : ProcedureKind) (options : Fields := []) : Procedure where
  library := k.library
  name := k.name
  display := k.display
  numArgs := k.numArgs
  options := options
  returns := !k.noReturn
  isSyscall := k.isSyscall
  isFunction := k.name != "KiUserExceptionDispatcher"
  systemKind := k.isSyscall
  noReturn := k.noReturn
  addsExits := k.addsExits

def ofName? (library name : String) (options : Fields := []) : Option Procedure :=
  (ProcedureKind.find? library name).map (ofKind · options)

variable (p : Procedure)

def kind? : Option ProcedureKind := ProcedureKind.find? p.library p.name

def body? : Option Body :=
  p.kind?.bind fun k =>
    match p.part with
    | none => some k.run
    | some part => k.parts.lookup part

def takesOptions : Bool :=
  match p.kind?.bind (·.options) with
  | none => true
  | some known => p.options.all fun (k, _) => known.contains k || p.name == "UserHook"

end Procedure

structure Finished where
  invocation : Invocation
  byState : Bool
  outcome : Outcome

namespace Exec

variable (p : Procedure)

def prepare (sig : Signature) (given : Option (List Value)) : Exec Invocation := do
  if p.part.isSome then
    match (← topFrame).suspended with
    | none => refuse .procedure "Tried to return to a SimProcedure in an inapplicable stack frame!"
    | some s =>
      let a ← arch
      setRegAt a.spOffset s.sp
      let _ ← load .registers a.retOffset { size := a.bytes, endness := a.endness }
      return { procedure := p, signature := sig, args := s.args, kept := s.locals }
  else
    match given with
    | none =>
      let args ← (List.range p.numArgs).mapM fun (i : Nat) => getArg sig i
      return { procedure := p, signature := sig, args }
    | some vs => return { procedure := p, signature := sig, given := some vs, args := vs.take p.numArgs }

def invoke (given : Option (List Value)) : Exec Finished := do
  let sig ← match p.signature with
    | some s => pure s
    | none => usualSignature
  let laid ←
    if p.isSyscall then do
      modifyEpoch ({ · with syscallCount := 1 })
      match (← posix).queuedReturns with
      | [] => pure .null
      | v :: rest =>
        modifyPosix ({ · with queuedReturns := rest })
        pure v
    else pure .null
  match laid with
  | .null =>
    let c ← prepare p sig given
    if !p.takesOptions then raise .badType
    match p.body? with
    | none => raise .badAttribute
    | some body => return { invocation := c, byState := given.isNone || p.part.isSome, outcome := ← body c }
  | v => return { invocation := { procedure := p, signature := sig }, byState := true, outcome := .done v }

def result (v : Value) : Exec Value := do
  if v.isNull then return v
  let v ← match v with
    | .bits b => do pure (.bits (← asResult b))
    | v => pure v
  if !p.symbolicReturn then return v
  match v with
  | .bits b =>
    let new ← unconstrained ("symbolic_return_" ++ p.display) b.width
    addConstraints [Cond.eq new b]
    return .bits new
  | _ => raise .badType

variable (f : Finished)

/-- Clears the frame of a procedure whose arguments were read from the state, and gives the return address. -/
def leaveProcedure (v : Value) : Exec (Option Value) := do
  if !f.byState then return none
  let sig := f.invocation.signature
  let kinds := if sig.args.isNone then some (.replicate f.invocation.procedure.numArgs false) else none
  return some (← teardownCall sig (if v.isNull then none else some v) kinds)

def jumpAction (target : Value) : Exec Unit := do
  if ← has .trackJmpActions then act (← exitAction { value := target } "conditional")

def continuation (part : String) : Exec Nat := do
  let prog ← theProgram
  match prog.continuations.lookup (p.family, part) with
  | some a => return a
  | none =>
    let (a, prog) := prog.allocate
    let prog := prog.hook a { p with part := some part }
    modify fun w => { w with program := some { prog with continuations := ((p.family, part), a) :: prog.continuations } }
    return a

def noteEnd : Exec Unit := do
  dropRefs
  note "terminate"

def concludeInline : Outcome → Exec Value
  | .done v => do
    let p := f.invocation.procedure
    if p.returns && p.isFunction then
      let v ← result p v
      let _ ← leaveProcedure f v
      return v
    return .null
  | .ret v => do
    let v ← result f.invocation.procedure v
    let _ ← leaveProcedure f v
    return v
  | .exit _ => do
    noteEnd
    raise .badAttribute
  | .jump target => do
    jumpAction target.toValue
    raise .badAttribute
  | .leave .. => raise .badAttribute
  | .call _ _ part _ => do
    let _ ← fork
    let _ ← continuation f.invocation.procedure part
    raise .badAttribute
  | .both a b => do
    let _ ← concludeInline a
    concludeInline b

def runInline (args : List Value) : Exec Value := do
  let f ← invoke p (some args)
  concludeInline f f.outcome

end Exec

namespace Stepping

open Exec

variable (f : Finished) (retTo : Option Quantity)

def returnTo (v : Value) : Stepping Unit := do
  let v ← result f.invocation.procedure v
  let back ← leaveProcedure f v
  let target? := retTo <|> back.bind Quantity.ofValue?
  match target? with
  | none => refuse .procedure "No source for return address in ret() call!"
  | some target =>
    jumpAction target.toValue
    addSuccessor target (.lit true) "Ijk_Ret"

def callOut (target : Quantity) (args : List Value) (part : String) (kept : Fields) : Stepping Unit := do
  let c := f.invocation
  let call ← fork
  let ret ← continuation c.procedure part
  let entry : Suspended := { sp := ← sp, args := c.given.getD c.args, locals := kept }
  let enter : Exec Unit := do
    setupCall c.signature (.ofNat ret) args
    modifyTopFrame ({ · with suspended := some entry })
  let _ ← onState call do
    enter
    let a ← arch
    let bits := target.toBits a.bits
    let target ←
      if (← libc).ppc64Abi = some "ppc64_1" then exec do
        setReg "r2" (← extractBits (.int .long true) (bits.addInt 8))
        pure (.bits (← extractBits (.int .long true) bits))
      else exec do
        if a.name = "MIPS32" || a.name = "MIPS64" then setReg "t9" bits
        pure target
    jumpAction target.toValue
    addSuccessor target (.lit true) "Ijk_Call"
  if ← has .doRetEmulation then
    let back ← fork
    let _ ← onState back do
      enter
      let guard ← has .trueRetEmulationGuard
      addSuccessor (.num ret) (.lit guard) "Ijk_FakeRet"

def conclude : Outcome → Stepping Unit
  | .done v => do
    let p := f.invocation.procedure
    if p.returns && p.isFunction then returnTo f retTo v
  | .ret v => returnTo f retTo v
  | .exit _ => do
    noteEnd
    addSuccessor (.bits (← ip)) (.lit true) "Ijk_Exit"
  | .jump target => do
    jumpAction target.toValue
    addSuccessor target (.lit true) "Ijk_Boring"
  | .leave target jumpkind => addSuccessor target (.lit true) jumpkind
  | .call target args part kept => callOut f target args part kept
  | .both a b => do
    conclude a
    conclude b

def runProcedure (p : Procedure) (retTo : Option Quantity := none) : Stepping Unit := do
  modifyOut fun o => { o with sort := some "SimProcedure", procedure := some { procedure := p } }
  modifyScratch ({ · with procedure := some p.text })
  modifyEpoch ({ · with blockCount := 1 })
  let addr := (← out).addr
  let attrs := [("simprocedure_name", .str p.display), ("simprocedure_addr", .ofNat addr), ("simprocedure", .str p.text)]
  inspect "simprocedure" .before attrs
  if p.isSyscall then inspect "syscall" .before [("syscall_name", .str p.display)]
  let clean := !(← has .autoRefs)
  if clean then modifyState fun s => { s with settings := (s.settings.insert .astDeps).insert .autoRefs }
  let f ← invoke p none
  conclude f retTo f.outcome
  if clean then dropRefs
  if p.isSyscall then inspect "syscall" .after [("syscall_name", .str p.display)]
  inspect "simprocedure" .after attrs
  modifyOut fun o => { o with
    description := "SimProcedure " ++ p.display ++ (if p.isSyscall then " (syscall)" else "") ++ (if p.isStub then " (stub)" else "")
    processed := true }

end Stepping

/-! ### Steps of a program -/

structure StepOptions extends BlockOptions where
  inPlace : Bool := false
  forceAddr : Option Nat := none

namespace Exec

def isFailure (jumpkind : String) : Bool := jumpkind = "Ijk_EmFail" || jumpkind = "Ijk_MapFail" || jumpkind.startsWith "Ijk_Sig"

def stepProcedure (p : Procedure) (inPlace : Bool := false) (forceAddr : Option Nat := none) : Exec Successors :=
  step (Stepping.runProcedure p) "SimEngineProcedure" inPlace forceAddr

def unsupportedSystemCallText : String :=
  "Trying to perform a syscall on an emulated system which is not currently cofigured to " ++
  "support syscalls. To resolve this, make sure that your SimOS is a subclass of SimUserspace, " ++
  "or set the BYPASS_UNSUPPORTED_SYSCALL state option."

def systemCallStub : Exec Procedure := do
  if !(← has .bypassUnsupportedSyscall) then refuse .unsupportedSystemCall unsupportedSystemCallText
  let a ← arch
  let conv := CallConv.ofSystem? a ((← state).osName.getD "") <|> CallConv.ofSystem? a "default"
  match Procedure.ofName? "stubs" "syscall" with
  | none => raise .badKey
  | some p => return { p with signature := conv.map fun c => .make c a }

/-- The procedure that stands in at the address of the current state. -/
def procedureHere? : Exec (Option Procedure) := do
  match (← get).program with
  | none => return none
  | some p =>
    if (← state).history.current.jumpkind = some "Ijk_NoHook" then return none
    match ← quietIp with
    | .lit _ a => return p.hooks[a]?
    | _ => return none

def successors (o : StepOptions := {}) : Exec Successors := do
  let jumpkind := (← state).history.current.jumpkind.getD ""
  if isFailure jumpkind then refuse .exit ("Cannot execute following jumpkind " ++ jumpkind)
  else if jumpkind = "Ijk_Exit" then
    match Procedure.ofName? "stubs" "PathTerminator" with
    | some p => stepProcedure p false (some (← addr))
    | none => raise .badKey
  else if jumpkind.startsWith "Ijk_Sys" then
    let p ← systemCallStub
    stepProcedure p false (some (← eval (← quietIp)))
  else
    match ← procedureHere? with
    | some p => stepProcedure p o.inPlace o.forceAddr
    | none => step (Stepping.runBlock o.toBlockOptions) "SimEngineVEX" o.inPlace o.forceAddr

end Exec

/-! ## Where programs start

A program is laid out in memory, with room above it for procedures that have no place of their own. -/

def Arch.startValues (a : Arch) : List (String × Nat) :=
  if a.name = "AMD64" then [("d", 1)]
  else if a.name = "X86" then [("d", 1), ("fpround", 0), ("sseround", 0), ("gdt", 0), ("ldt", 0)]
  else if a.isArm then [("itstate", 0)]
  else []

def Arch.namedRegisters (a : Arch) : List String :=
  let numbered (s : String) (first last : Nat) := ((List.range (last + 1)).drop first).map fun i => s!"{s}{i}"
  if a.name = "AMD64" then ["rax", "rcx", "rdx", "rbx", "rsp", "rbp", "rsi", "rdi"] ++ numbered "r" 8 15 ++ ["rip"]
  else if a.name = "X86" then ["eax", "ecx", "edx", "ebx", "esp", "ebp", "esi", "edi", "eip"]
  else if a.isArm then numbered "r" 0 12 ++ ["sp", "lr", "pc"]
  else if a.name = "AARCH64" then numbered "x" 0 30 ++ ["sp", "pc"]
  else []

namespace Program

def partSpacing : Nat := 0x100000

def nextPart (addr : Nat) : Nat := (addr + partSpacing - 1) / partSpacing * partSpacing

def ofBytes (arch : Arch) (base : Nat) (bytes : ByteArray) (entry : Nat) (blocks : List Ir.Block) : Program :=
  let externBase := nextPart (base + bytes.size)
  let p : Program := {
    arch, base, size := bytes.size, entry, blocks
    backing := { segments := [(base, bytes)], protections := [(base, base + bytes.size, 7)] }
    externBase, externNext := externBase, kernelBase := nextPart (externBase + 1), deadend := externBase }
  let (addr, p) := p.allocate
  match Procedure.ofName? "stubs" "CallReturn" with
  | some q => p.hook addr q
  | none => p

def hookNew (p : Program) (addr : Nat) (q : Procedure) (replace : Bool) : Program :=
  { p with families := p.families + 1 }.hook addr { q with family := p.families + 1 } replace

end Program

structure StartOptions where
  addr : Option Quantity := none
  named : Option String := none
  stackSize : Nat := 1024 * 1024 * 8
  mode : Mode := .symbolic
  settings : Option Settings := none
  (adding removing : List Setting := [])

namespace Exec

variable (p : Program)

def startState (o : StartOptions) : Exec State := do
  let settings := ((o.settings.getD o.mode.settings).insertAll o.adding).eraseAll o.removing
  let s := State.blank p.arch o.mode settings p.backing
  let id ← serial
  let s := { s with
    history := { s.history with current := { s.history.current with id } }
    memory := { s.memory with paged := { s.memory.paged with stack := (p.arch.initialSp - o.stackSize, p.arch.initialSp) } } }
  let ((), s) ← onState s do
    let a := p.arch
    if settings.has .initializeZeroRegisters then
      let last := a.registers.fold (fun m _ (off, n) => max m (off + n)) 0
      (List.range ((last + a.bytes - 1) / a.bytes)).forM fun i => do
        let _ ← store .registers (.num (i * a.bytes)) (.lit a.bits 0)
    setRegAt a.spOffset (.lit a.bits a.initialSp)
    match o.named with
    | some name => a.namedRegisters.forM fun r => do
        setReg r (← eternalSymbol ("reg " ++ r) (name ++ "_" ++ r) a.bits)
    | none => pure ()
    setRegAt a.spOffset (.lit a.bits a.initialSp)
    a.startValues.forM fun (r, v) => setReg r (.lit (8 * (((a.register? r).map (·.2)).getD a.bytes)) v)
    let start := o.addr.getD (.num p.entry)
    setRegAt a.ipOffset (start.toBits a.bits)
    let place := match start with | .num n => some n | .bits b => b.lit?
    modifyScratch ({ · with instruction := place, block := place, stmt := some 0 })
    modifyEpoch ({ · with jumpkind := some "Ijk_Boring" })
  return s

structure CallOptions where
  signature : Option Signature := none
  base : Option State := none
  (toc ret : Option Value := none)
  (stackBase allocBase : Option Quantity := none)
  downward : Bool := true

def callState (addr : Quantity) (args : List Value) (o : StartOptions) (c : CallOptions) : Exec State := do
  let s ← match c.base with
    | none => startState p { o with addr := some addr }
    | some b => do
      let (copy, _) ← onState b fork
      let ((), copy) ← onState copy (setRegAt p.arch.ipOffset (addr.toBits p.arch.bits))
      pure copy
  let ((), s) ← onState s do
    let sig := c.signature.getD (.make (.ofArch p.arch) p.arch)
    setupCall sig (c.ret.getD (.ofNat p.deadend)) args c.stackBase c.allocBase c.downward
    c.toc.forM fun t => do if p.arch.name = "PPC64" then setReg "r2" (← t.vector)
  return s

end Exec

end SymExec
