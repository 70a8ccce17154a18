import SymExec.State.Access
import SymExec.Flags.Arm

/-!
# Registers and stack

Access to registers by name, and the stack of the program.
-/

namespace SymExec.Exec

def helperContext : Exec HelperContext := do
  let w ← get
  return {
    wordBits := w.state.arch.bits
    protectedMode := w.state.protectedMode
    simplified := w.state.settings.has .useSimplifiedCcalls
    pick := fun b =>
      match (eval b).run w with
      | .ok v _ => .ok v
      | .error f _ => .error f }

variable (name : String)

/-- A register that is no fixed range: one of the floating point stack, or one of its tags. -/
def stackedRegister? : Option (Nat × String × Nat) :=
  (List.range 8).findSome? fun i =>
    if name = s!"st{i}" then some (i, "fpu_regs", 8)
    else if name = s!"tag{i}" then some (i, "fpu_tags", 1)
    else none

def flagsWord (reg : String → Exec Bits) : Exec Bits := do
  let a ← arch
  let f := if a.name = "X86" then "x86g_calculate_eflags_all"
    else if a.name = "AMD64" then "amd64g_calculate_rflags_all"
    else if a.name = "AARCH64" then "arm64g_calculate_data_nzcv"
    else "armg_calculate_flags_nzcv"
  let args ← ["cc_op", "cc_dep1", "cc_dep2", "cc_ndep"].mapM reg
  match Flags.callHelper (← helperContext) f args with
  | some (.value r) => return (← ofExcept r).1
  | _ => raise .badType

def registerRange : Exec (Nat × Nat) := do
  match (← arch).register? name with
  | some r => return r
  | none => raise .badKey

def loadFixed : Exec Bits := do
  let (o, n) ← registerRange name
  load .registers o { size := n }

def registerPlace (write : Bool) : Exec (Quantity × Nat) := do
  let a ← arch
  if a.isPc then
    match stackedRegister? name with
    | some (i, bank, size) =>
      let top ← loadFixed "ftop"
      let n := (top.addInt i).and (.ofNat top.width 7)
      let n := if size = 8 then n.shl (.ofNat top.width 3) else n
      return (.bits (n.addInt (((a.register? bank).map (·.1)).getD 0)), size)
    | none => pure ()
  if (a.isPc && ["flags", "eflags", "rflags"].contains name) || ((a.isArm || a.name = "AARCH64") && name = "flags") then
    let (dep, n) ← registerRange "cc_dep1"
    if !write then
      let f ← flagsWord loadFixed
      let _ ← store .registers dep f { size := n }
    let (op, k) ← registerRange "cc_op"
    let _ ← store .registers op (.lit (8 * k) 0) { size := k }
    return (.num dep, a.bytes)
  let (o, n) ← registerRange name
  return (.num o, n)

def reg (quiet : Bool := false) : Exec Bits := do
  let (place, size) ← registerPlace name false
  load .registers place { size, inspected := !quiet, actions := !quiet }

def setReg (v : Bits) (quiet : Bool := false) : Exec Unit := do
  let (place, size) ← registerPlace name true
  let _ ← store .registers place v { size, inspected := !quiet, actions := !quiet }

def regAt (offset : Nat) (quiet : Bool := false) : Exec Bits := do
  load .registers offset { size := some (.num (← arch).bytes), inspected := !quiet, actions := !quiet }

def setRegAt (offset : Nat) (v : Bits) (quiet : Bool := false) : Exec Unit := do
  let _ ← store .registers offset v { size := some (.num (← arch).bytes), inspected := !quiet, actions := !quiet }

def ip : Exec Bits := do regAt (← arch).ipOffset
def quietIp : Exec Bits := do regAt (← arch).ipOffset true
def sp : Exec Bits := do regAt (← arch).spOffset
def quietSp : Exec Bits := do regAt (← arch).spOffset true

def addr : Exec Nat := do evalOne (← quietIp)

/-! ### Stack -/

def stackPush (v : Bits) : Exec Unit := do
  let a ← arch
  let p := (← sp).addInt a.stackChange
  setRegAt a.spOffset p
  poke p v { endness := a.endness }

def stackPop : Exec Bits := do
  let a ← arch
  let p ← sp
  setRegAt a.spOffset (p.addInt (-a.stackChange))
  load .memory p { size := a.bytes, endness := a.endness }

/-- Reads from the stack at an offset from the stack pointer or, with `fromBase`, the base pointer. -/
def stackRead (offset : Bits) (length : Quantity) (fromBase : Bool := false) : Exec Bits := do
  let a ← arch
  let p ← if fromBase then reg "bp" else sp
  load .memory (p.add offset) { size := some length, endness := a.endness }

/-- The number that a quantity is made to be: one with symbols is fixed at some value. -/
def makeConcrete (q : Quantity) : Exec Nat := do
  match q with
  | .num n => return n
  | .bits (.lit _ v) => return v
  | .bits b =>
    let v ← eval b
    addConstraints [Cond.eqNat b v]
    return v

/-! ### Temporaries -/

def temp (n : Nat) : Exec Scalar := do
  inspect "tmp_read" .before [("tmp_read_num", .ofNat n)]
  match (← state).scratch.temps[n]? with
  | none => throw (.because .solverValue
      s!"VEX temp variable {n} does not exist. This is usually the result of an incorrect slicing.")
  | some v =>
    inspect "tmp_read" .after [("tmp_read_expr", .ofScalar v)]
    return v

def writeTemp (n : Nat) (v : Scalar) (regs tmps : List Nat) : Exec (List Action) := do
  inspect "tmp_write" .before [("tmp_write_num", .ofNat n), ("tmp_write_expr", .ofScalar v)]
  let n := ((← attr "tmp_write_num" (.ofNat n)).nat?).getD n
  let v ← match (← attr "tmp_write_expr" (.ofScalar v)).scalar? with
    | some v => pure v
    | none => raise .badAttribute
  if ← has .symbolicTemps then
    match (← state).scratch.temps[n]?, v with
    | some (.bits a), .bits b => addConstraints [Cond.eq a b]
    | some (.flt a), .flt b => addConstraints [Cond.eq (a.toBits .pattern) (b.toBits .pattern)]
    | _, _ => raise .badKey
  else modifyScratch fun s => { s with temps := s.temps.insert n v }
  let actions : List Action ←
    if ← has .trackTmpActions then
      pure [{ kind := .data, type := "tmp", place := (← state).place, action := some "write", tmp := some n
              data := some { value := .ofScalar v, regs, tmps }
              size := some { value := .ofNat v.width } }]
    else pure []
  inspect "tmp_write" .after []
  return actions

/-- Sets a temporary; where actions are kept, that it was set is noted as an event only. -/
def setTemp (n : Nat) (v : Scalar) (regs tmps : List Nat := []) : Exec Unit := do
  (← writeTemp n v regs tmps).forM fun _ => note "<SimActionData>"

end SymExec.Exec
