/-!
# Faults

What can go wrong, as a closed list of causes.
-/

namespace SymExec

inductive FaultKind where
  -- misuse of a value
  | general | badType | badValue | badAttribute | badKey | badIndex | badAssertion | notImplemented | overflow
  | badImport | stopIteration | recursion | badName | badDivision | badGraph
  -- terms
  | badTerm | badTermType | divisionByZeroTerm | unknownOperation
  -- C declarations
  | declaration
  -- programs and analyses
  | program | exit | path | manager | surveyor | analysis | blade
  | slicing | callable | systemCall
  | controlFlow | dataDependence | technique | explorer | noPlugin | unsupportedSystemCall
  -- execution
  | execution | state | merge | memory | memoryLimit | memoryAddress | fastMemory | event | file | posix
  | unsupported | solver | solverMode | solverOption | solverValue | unsat | operation | unsupportedOperation
  | expression | unsupportedExpression | helperCall | unsupportedHelperCall | statement | unsupportedStatement
  | unsupportedDirty | engine | block | procedure | procedureArgument | noDecode | blockSlice | action
  | emptyCallStack | exception | segfault | zeroDivision
deriving DecidableEq, Repr

namespace FaultKind

def parents : FaultKind → List FaultKind
  | exit | path | manager | surveyor | analysis | blade | slicing
  | systemCall | controlFlow | technique | noPlugin => [program]
  | callable => [surveyor]
  | dataDependence => [analysis]
  | explorer => [technique]
  | unsupportedSystemCall => [systemCall, procedure, unsupported]
  | state | unsupported | solver | operation | expression | statement | engine | blockSlice | action
  | emptyCallStack | exception => [execution]
  | merge | memory | event | posix => [state]
  | memoryLimit | memoryAddress | fastMemory | file => [memory]
  | solverMode | solverOption | solverValue => [solver]
  | unsat => [solverValue]
  | unsupportedOperation => [operation, unsupported]
  | unsupportedExpression => [expression, unsupported]
  | helperCall => [expression]
  | unsupportedHelperCall => [helperCall, unsupported]
  | unsupportedStatement => [statement, unsupported]
  | unsupportedDirty => [unsupportedStatement, unsupported]
  | block | procedure => [engine]
  | procedureArgument => [procedure]
  | noDecode => [block]
  | segfault => [exception, memory]
  | zeroDivision => [exception, operation]
  | divisionByZeroTerm => [badTerm]
  | _ => [general]

def withinSteps : Nat → FaultKind → FaultKind → Bool
  | 0, k, j => k == j
  | n + 1, k, j => k == j || k.parents.any fun p => withinSteps n p j

def within (k j : FaultKind) : Bool := withinSteps 5 k j

def label : FaultKind → String
  | general => "Exception"
  | badType => "TypeError"
  | badValue => "ValueError"
  | badAttribute => "AttributeError"
  | badKey => "KeyError"
  | badIndex => "IndexError"
  | badAssertion => "AssertionError"
  | notImplemented => "NotImplementedError"
  | overflow => "OverflowError"
  | badImport => "ModuleNotFoundError"
  | stopIteration => "StopIteration"
  | recursion => "RecursionError"
  | badName => "UnboundLocalError"
  | badDivision => "ZeroDivisionError"
  | badGraph => "NetworkXError"
  | badTerm => "ClaripyOperationError"
  | badTermType => "ClaripyTypeError"
  | divisionByZeroTerm => "ClaripyZeroDivisionError"
  | unknownOperation => "PyvexOpMatchException"
  | declaration => "ParseError"
  | program => "AngrError"
  | manager => "SimulationManagerError"
  | slicing => "AngrBackwardSlicingError"
  | systemCall => "AngrSyscallError"
  | controlFlow => "AngrCFGError"
  | dataDependence => "AngrDDGError"
  | technique => "AngrExplorationTechniqueError"
  | unsupportedSystemCall => "AngrUnsupportedSyscallError"
  | execution => "SimError"
  | solverValue => "SimValueError"
  | unsupportedOperation => "UnsupportedIROpError"
  | unsupportedExpression => "UnsupportedIRExprError"
  | helperCall => "SimCCallError"
  | unsupportedHelperCall => "UnsupportedCCallError"
  | unsupportedStatement => "UnsupportedIRStmtError"
  | unsupportedDirty => "UnsupportedDirtyError"
  | block => "SimIRSBError"
  | noDecode => "SimIRSBNoDecodeError"
  | blockSlice => "SimSlicerError"
  | exception => "SimException"
  | segfault => "SimSegfaultException"
  | zeroDivision => "SimZeroDivisionException"
  | k => (if k.within program then "Angr" else "Sim") ++ (((reprStr k).splitOn ".").getLastD "").capitalize ++ "Error"

def reportsText (k : FaultKind) : Bool := k.within program || k.within execution

end FaultKind

structure Fault where
  kind : FaultKind
  text : Option String := none

namespace Fault

def shownText (f : Fault) : Option String := if f.kind.reportsText then f.text.filter fun s => !s.any (· == '<') else none

variable (k : FaultKind)

def of : Fault := ⟨k, none⟩
def because (s : String) : Fault := ⟨k, some s⟩

def segfault (addr : Nat) (why : String) : Fault :=
  because .segfault ("0x" ++ String.ofList (Nat.toDigits 16 addr) ++ " (" ++ why ++ ")")

end Fault

abbrev Try := Except Fault

section
variable {m : Type → Type} [MonadExcept Fault m] {α : Type} (k : FaultKind)

def raise : m α := throw (.of k)

def refuse (why : String) : m α := throw (.because k why)

def orRaise [Monad m] (x : Option α) (k : FaultKind) : m α :=
  match x with
  | some a => return a
  | none => raise k

end

end SymExec
