import SymExec.CallConv.Pass
import SymExec.State.Files

/-!
# Successors

The states that one step leads to.
-/

namespace SymExec

open Cond

structure ProcedureRun where
  procedure : Procedure

structure Successors where
  addr : Nat
  sort : Option String := none
  description : String := "SimSuccessors"
  processed : Bool := false
  pool : Array State := #[]
  all : List Nat := []
  /-- Those that can be reached, with targets as they were computed. -/
  (plain flat unsat unconstrained : List Nat := [])
  block : Option Ir.Block := none
  instructions : List Nat := []
  procedure : Option ProcedureRun := none

namespace Successors

variable (s : Successors)

def states (is : List Nat) : List State := is.filterMap (s.pool[·]?)

def isEmpty (s : Successors) : Bool := s.all.isEmpty && s.flat.isEmpty && s.unsat.isEmpty && s.unconstrained.isEmpty

def text : String :=
  let count (is : List Nat) (what : String) := if is.isEmpty then [] else [s!"{is.length} {what}"]
  let parts := count s.flat "sat" ++ count s.unsat "unsat" ++ count s.unconstrained "unconstrained"
  let result := if !s.processed then "failure" else if parts.isEmpty then "empty" else " ".intercalate parts
  "<" ++ s.description ++ " from " ++ hexText s.addr ++ ": " ++ result ++ ">"

end Successors

structure Course where
  world : World
  out : Successors

abbrev Stepping := EStateM Fault Course

namespace Stepping

def exec (act : Exec α) : Stepping α := fun c =>
  match act c.world with
  | .ok a w => .ok a { c with world := w }
  | .error f w => .error f { c with world := w }

instance : MonadLift Exec Stepping := ⟨exec⟩

def out : Stepping Successors := return (← get).out

@[inline] def modifyOut (f : Successors → Successors) : Stepping Unit := modify fun c => { c with out := f c.out }

def keep (s : State) : Stepping Nat := modifyGet fun c =>
  (c.out.pool.size, { c with out := { c.out with pool := c.out.pool.push s } })

def keepCurrent : Stepping Nat := do keep (← Exec.state)

def update (i : Nat) : Stepping Unit := do
  let s ← Exec.state
  modifyOut fun o => { o with pool := o.pool.setIfInBounds i s }

/-- Runs work on another state, gives back that state, and goes on with the current one. -/
def onState (s : State) (act : Stepping α) : Stepping (α × State) := fun c =>
  let own := c.world.state
  match act { c with world := { c.world with state := s } } with
  | .ok a c => .ok (a, c.world.state) { c with world := { c.world with state := own } }
  | .error f c => .error f { c with world := { c.world with state := own } }

end Stepping

namespace Exec

/-! ### Calls and returns -/

def leaveFrame : Exec Unit := do
  inspect "return" .before [("function_address", .ofNat? (← topFrame).func)]
  popFrame
  inspect "return" .after []

def leaveFrames : Nat → Exec Unit
  | 0 => return
  | n + 1 => do
    let s ← quietSp
    let top := (← topFrame).sp.getD 0
    if (ugt s (.ofNat s.width top)).isTrue then
      leaveFrame
      leaveFrames n

def returnAddress : Exec Int := do
  let a ← arch
  if a.callPushesRet then
    let v ← load .memory (.bits (← quietSp)) { size := some (.num (a.longBits / 8)), endness := a.endness }
    let n ← eval v
    return if n ≥ 2 ^ (a.longBits - 1) then (n : Int) - 2 ^ a.longBits else n
  else return (← eval (← regAt (a.lrOffset.getD 0) true) : Nat)

/-- The first part of a call: it is told of, and may be sent elsewhere. -/
def announceCall (a : Arch) : Exec Unit := do
  let ip ← quietIp
  inspect "call" .before [("function_address", .bits ip)]
  match ← attr "function_address" .null with
  | .bits b => if !(eq b (← quietIp)).isTrue then setRegAt a.ipOffset b true
  | .int i => if !(eq (.ofInt a.bits i) (← quietIp)).isTrue then setRegAt a.ipOffset (.ofInt a.bits i) true
  | _ => pure ()

def enterCall : Exec Unit := do
  let ret ← returnAddress
  let func ← handling .solverValue (some <$> addr) (return none)
  let sp ← eval (← quietSp)
  match (← state).history.current.blocks.getLast? with
  | none => raise .badIndex
  | some site =>
    pushFrame { callSite := some site, func, sp := some sp, ret := some ret }
    inspect "call" .after []

def followCalls : Exec Unit := do
  let a ← arch
  if (← state).history.current.jumpkind = some "Ijk_Call" then
    announceCall a
    enterCall
  else
    leaveFrames ((← state).callstack.length + 1)
    if !a.callPushesRet then
      let top ← topFrame
      let ip ← quietIp
      let sp ← quietSp
      let meets (b : Bits) (v : Option Int) : Bool :=
        match v with
        | some i => (eq b (.ofInt b.width i)).isTrue
        | none => false
      if meets ip top.ret && meets sp (top.sp.map Int.ofNat) then leaveFrame

/-! ### System calls -/

/-- The number of the system call at hand and its values, if these are to be told apart. -/
def systemCallNumbers : Exec (Bits × Option (List Nat)) := do
  let a ← arch
  let os := (← state).osName.getD "default"
  match CallConv.ofSystem? a os <|> CallConv.ofSystem? a "default" with
  | none => raise .badKey
  | some c =>
    let n ← reg (c.callNumber.getD "")
    if n.symbolic && (← has .noSymbolicSyscallResolution) then return (n, none)
    let most := 255
    let _ ← posix
    let vs ← values n (most + 1)
    return (n, some (if vs.length > most then vs.take 1 else vs))

def enterSystemCall : Exec Unit := do
  if (← get).program.isNone then raise .badAttribute

def dropRefs : Exec Unit := modifyState fun s => { s with settings := (s.settings.erase .astDeps).erase .autoRefs }

end Exec

namespace Stepping

open Exec

variable (i : Nat)

def listFlat : Stepping Unit := modifyOut fun o => { o with flat := o.flat ++ [i] }

def listPlain : Stepping Unit := modifyOut fun o => { o with plain := o.plain ++ [i] }

def listUnsat : Stepping Unit := modifyOut fun o => { o with unsat := o.unsat ++ [i] }

def listUnconstrained : Stepping Unit := modifyOut fun o => { o with unconstrained := o.unconstrained ++ [i] }

/-- A copy of the current state, changed by work, as one of the flat successors. -/
def splitFlat (act : Exec Unit) : Stepping Unit := do
  let copy ← Exec.fork
  let (_, s) ← onState copy (exec act)
  listFlat (← keep s)

/-- The targets that can be jumped to, at most one more than those that are told apart. -/
def jumpTargets (target : Bits) : Exec (List Nat) := do
  if ← has .keepIpSymbolic then
    let w ← get
    let vs := w.solver.values w.state.ipConstraints target 257
    if vs.length > 256 then
      let vs ← values target 257
      match vs with
      | [v] => addConstraints [eqNat target v]
      | _ => pure ()
      return vs
    else return vs.mergeSort (· ≤ ·)
  else values target 257

def categorize : Stepping Unit := do
  modifyOut fun o => { o with all := o.all ++ [i] }
  let st ← Exec.state
  let guard := st.scratch.guard
  let target := st.scratch.target.getD (.num 0)
  let isSystem := (st.history.current.jumpkind.getD "").startsWith "Ijk_Sys"
  if (← has .approximateGuards) && guard.isFalse then listUnsat i
  else if (← has .approximateSatisfiability) && !(← solverSatisfiable) then listUnsat i
  else if guard.isFalse then listUnsat i
  else if !(← has .lazySolves) && !(← satisfiable) then listUnsat i
  else if (← has .noSymbolicJumpResolution) && target.symbolic then listUnconstrained i
  else if !target.symbolic && !isSystem then
    listPlain i
    listFlat i
  else if isSystem then
    listPlain i
    setReg "ip_at_syscall" (← ip)
    let (n, vs) ← systemCallNumbers
    match vs with
    | some vs =>
      vs.forM fun v => splitFlat do
        addConstraints [eqNat n v]
        downsizeInspector
        enterSystemCall
    | none =>
      enterSystemCall
      listFlat i
  else
    let targetBits := target.toBits st.arch.bits
    let vs ← tryCatch (some <$> exec (jumpTargets targetBits)) fun f => if f.kind.within .solverMode then return none else throw f
    match vs with
    | none => listUnsat i
    | some vs =>
      if vs.length > 256 then listUnconstrained i
      else
        vs.forM fun v => splitFlat do
          if ← has .keepIpSymbolic then setRegAt st.arch.ipOffset targetBits
          else
            addConstraints [eqNat targetBits v] true
            setRegAt st.arch.ipOffset (Bits.ofNat st.arch.bits v)
          downsizeInspector
        listPlain i

def attributeCond (k : String) (c : Cond) : Exec Cond := do
  match ← attr k (.cond c) with
  | .cond c => return c
  | .bool b => return .lit b
  | _ => raise .badAttribute

variable (target : Quantity)

def aim : Stepping Unit := do
  if ← has .simplifyExitTarget then
    match target with
    | .bits b =>
      let b ← simplify b
      modifyScratch ({ · with target := some (.bits b) })
    | _ => pure ()

variable (guard : Cond) (jumpkind : String) (exit : Option ExitPoint) (instruction : Option Nat)

def mark : Stepping Unit := do
  let source := (← out).addr
  modifyEpoch ({ · with jumpkind := some jumpkind, jumpTarget := some target, jumpGuard := some guard })
  modifyScratch fun s => { s with
    target := some target, guard, source := some source, exitStmt := exit, exitInstruction := instruction }
  if ← has .simplifyExitGuard then
    let g ← simplifyCond guard
    modifyScratch ({ · with guard := g })
  aim target

def exitAttrs : Fields := [("exit_target", target.toValue), ("exit_guard", .cond guard), ("exit_jumpkind", .str jumpkind)]

def attributeKind : Exec String := do
  match ← attr "exit_jumpkind" (.str jumpkind) with
  | .str s => return s
  | _ => raise .badAttribute

/-- The first part of adding a successor: the exit is told of, its guard becomes a condition, and the jump is made. -/
def arrive
    (addGuard : Bool := true) : Stepping Unit := do
  inspect "exit" .before (exitAttrs target guard jumpkind)
  let target' ← attributeQ "exit_target" target
  let guard' ← attributeCond "exit_guard" guard
  let jumpkind' ← exec (attributeKind jumpkind)
  mark target' guard' jumpkind' exit instruction
  if addGuard then addConstraints [(← Exec.state).scratch.guard]
  let a ← arch
  setRegAt a.ipOffset (((← Exec.state).scratch.target.getD target').toBits a.bits)

def enlist (attrs : Fields) : Stepping Unit := do
  let i ← keepCurrent
  categorize i
  inspect "exit" .after attrs
  downsizeInspector
  update i

def depart : Stepping Unit := do
  followCalls
  if !(← out).plain.isEmpty then inspect "fork" .after []
  dropRefs
  enlist (exitAttrs target guard jumpkind)

def addSuccessor (exit : Option ExitPoint := none)
    (instruction : Option Nat := none) (addGuard : Bool := true) : Stepping Unit := do
  arrive target guard jumpkind exit instruction addGuard
  depart target guard jumpkind

end Stepping

end SymExec
