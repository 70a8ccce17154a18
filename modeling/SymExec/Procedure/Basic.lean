import SymExec.CallConv.Pass
import SymExec.State.Files

/-!
# Procedures

A procedure stands in for a function of a program.
-/

namespace SymExec

inductive Outcome where
  | done (v : Value)
  | ret (v : Value)
  | exit (code : Value)
  | jump (target : Quantity)
  | leave (target : Quantity) (jumpkind : String)
  | call (target : Quantity) (args : List Value) (part : String) (kept : Fields)
  | both (a b : Outcome)

structure Invocation where
  procedure : Procedure
  signature : Signature
  given : Option (List Value) := none
  args : List Value := []
  kept : Fields := []

abbrev Body := Invocation → Exec Outcome

def Value.vector (v : Value) : Exec Bits :=
  match v with
  | .bits b => return b
  | .flt f => return f.toBits .pattern
  | .int i => do return .ofInt (← Exec.arch).bits i
  | _ => raise .badAttribute

namespace Invocation

variable (c : Invocation)

def arg (i : Nat) : Exec Bits := do
  match c.given with
  | none => (← Exec.getArg c.signature i).vector
  | some vs =>
    match vs[i]? with
    | some v => v.vector
    | none => refuse .procedureArgument s!"Argument {i} does not exist."

def keptBits (k : String) : Exec Bits := ((c.kept.lookup k).getD .null).vector

end Invocation

namespace Body

def wrongCount : Fault := .of .badType

def Fn : Nat → Type
  | 0 => Exec Value
  | n + 1 => Bits → Fn n

def Fn.apply : {n : Nat} → Fn n → List Bits → Exec Value
  | 0, f, _ => f
  | _ + 1, f, b :: bs => apply (f b) bs
  | _ + 1, _, [] => throw wrongCount

def run (n : Nat) (f : Fn n) : Body := fun c => do
  if c.args.length ≠ n then throw wrongCount
  return .done (← f.apply (← c.args.mapM Value.vector))

def nothing : Body := run 0 (return .null : Exec Value)

end Body

structure ProcedureKind where
  (library name : String)
  display : String := name
  numArgs : Nat := 0
  options : Option (List String) := some []
  (noReturn addsExits isSyscall : Bool := false)
  run : Body
  parts : List (String × Body) := []

namespace Exec

def usualSignature : Exec Signature := do
  let a ← arch
  return .make (.ofArch a) a

def asResult (v : Bits) : Exec Bits := do if ← has .simplifyRets then simplify v else return v

def asSystemCall (work : Exec Value) : Exec Value := do
  modifyEpoch ({ · with syscallCount := 1 })
  match (← posix).queuedReturns with
  | [] => work
  | .null :: rest =>
    modifyPosix ({ · with queuedReturns := rest })
    work
  | v :: rest =>
    modifyPosix ({ · with queuedReturns := rest })
    let _ ← teardownCall (← usualSignature) (some v)
    return v

def namedReg (name : String) : Exec Bits := tryCatch (reg name) fun f => if f.kind = .badKey then raise .badAttribute else throw f

def setNamedReg (name : String) (v : Bits) : Exec Unit :=
  tryCatch (setReg name v) fun f => if f.kind = .badKey then raise .badAttribute else throw f

def word (i : Int) : Exec Bits := do return .ofInt (← arch).bits i

def choose (cases : List (Cond × Bits)) (other : Bits) : Bits := cases.foldr (fun (c, v) rest => .mkIte c v rest) other

def quotient (a b : Bits) : Exec Bits := do
  match a, b with
  | .lit .., .lit _ 0 => raise .divisionByZeroTerm
  | _, _ => return a.udiv b

end Exec

end SymExec
