/-!
# Settings

The switches of a state.
-/

namespace SymExec

inductive Setting where
  | breakSirsbStart | breakSirsbEnd | breakSirstmtStart | breakSirstmtEnd | doPuts | doGets | doStores | doLoads
  | trackConstraints | instructionScopeConstraints | blockScopeConstraints | simplifyExprs | simplifyMemoryReads
  | simplifyMemoryWrites | simplifyRegisterReads | simplifyRegisterWrites | simplifyRets | simplifyExitState
  | simplifyExitTarget | simplifyExitGuard | simplifyConstraints | doOps | doCcalls | useSimplifiedCcalls
  | doRetEmulation | trueRetEmulationGuard | concretize | noSymbolicJumpResolution | noSymbolicSyscallResolution
  | symbolic | symbolicInitialValues | abstractMemory | avoidMultivaluedReads | avoidMultivaluedWrites
  | concretizeSymbolicWriteSizes | concretizeSymbolicFileReadSizes | symbolicWriteAddresses
  | conservativeWriteStrategy | conservativeReadStrategy | astDeps | symbolicTemps | trackMemoryActions
  | trackRegisterActions | trackTmpActions | trackJmpActions | trackConstraintActions | trackOpActions
  | trackActionHistory | trackMemoryMapping | constraintTrackingInSolver | autoRefs | actionDeps
  | reverseMemoryNameMap | reverseMemoryHashMap | memorySymbolicBytesMap | cowStates | callless | compositeSolver
  | abstractSolver | lazySolves | downsizeSolver | initializeZeroRegisters | superFastpath | fastMemory
  | fastRegisters | underConstrainedSymexec | unicorn | unicornZeropageGuard | unicornSymRegsSupport
  | unicornTrackBblAddrs | unicornTrackStackPointers | unicornThresholdConcretization
  | unicornAggressiveConcretization | unicornHandleTransmitSyscall | supportFloatingPoint | regionMapping
  | bypassUnsupportedIrop | bypassErroredIrop | bypassUnsupportedIrexpr | bypassUnsupportedIrstmt
  | bypassUnsupportedIrdirty | bypassUnsupportedIrccall | bypassErroredIrccall | bypassUnsupportedSyscall
  | unsupportedBypassZeroDefault | uninitializedAccessAwareness | bestEffortMemoryStoring | approximateGuards
  | approximateSatisfiability | approximateMemorySizes | approximateMemoryIndices | validateApproximations
  | replacementSolver | cachelessSolver | optimizeIr | specialMemoryFill | keepIpSymbolic
  | keepMemoryReadsDiscrete | strictPageAccess | enableNx | exceptionHandling | useSystemTimes
  | trackSolverVariables | efficientStateMerging | zeroFillUnconstrainedMemory | extendedIropSupport
  | cgcNoSymbolicReceiveLength | bypassVeritestingExceptions | cgcEnforceFd | cgcNonBlockingFds
deriving DecidableEq, Repr

namespace Setting

def name (s : Setting) : String :=
  if s = .downsizeSolver then "DOWNSIZE_Z3"
  else String.ofList ((((reprStr s).splitOn ".").getLastD "").toList.flatMap fun c => if c.isUpper then ['_', c] else [c.toUpper])

def names : List String := (List.range (cgcNonBlockingFds.ctorIdx + 1)).map (name ∘ .ofNat)

def ofName? (s : String) : Option Setting :=
  if s = "CGC_ZERO_FILL_UNCONSTRAINED_MEMORY" then some .zeroFillUnconstrainedMemory
  else (names.idxOf? s).map .ofNat

end Setting

structure Settings where
  mask : Nat := 0

namespace Settings

variable (s : Settings) (o : Setting)

def has : Bool := s.mask.testBit o.ctorIdx
def insert : Settings := ⟨s.mask ||| (1 <<< o.ctorIdx)⟩
def erase : Settings := if s.has o then ⟨s.mask ^^^ (1 <<< o.ctorIdx)⟩ else s
variable (os : List Setting)

def ofList : Settings := os.foldl insert {}
def insertAll : Settings := os.foldl insert s
def eraseAll : Settings := os.foldl erase s

def resilience : List Setting := [
  .bypassUnsupportedIrop, .bypassUnsupportedIrexpr, .bypassUnsupportedIrstmt, .bypassUnsupportedIrdirty,
  .bypassUnsupportedIrccall, .bypassErroredIrccall, .bypassUnsupportedSyscall, .bypassErroredIrop,
  .bypassVeritestingExceptions]

def approximation : List Setting := [.approximateSatisfiability, .approximateMemorySizes, .approximateMemoryIndices]

def symbolic : List Setting := [.doCcalls, .symbolic, .trackConstraints, .symbolicInitialValues, .compositeSolver]

def simplification : List Setting := [.simplifyMemoryWrites, .simplifyRegisterWrites]

def unicorn : List Setting := [
  .unicorn, .unicornSymRegsSupport, .initializeZeroRegisters, .unicornHandleTransmitSyscall, .unicornTrackBblAddrs,
  .unicornTrackStackPointers]

def basic : List Setting := [
  .doGets, .doPuts, .doLoads, .doOps, .cowStates, .doStores, .optimizeIr, .trackMemoryMapping,
  .supportFloatingPoint, .extendedIropSupport]

def common : List Setting := basic ++ simplification

end Settings

inductive Mode where
  | symbolic | symbolicApproximating | static | fastpath | tracing
deriving DecidableEq

namespace Mode

def name : Mode → String
  | .symbolic => "symbolic"
  | .symbolicApproximating => "symbolic_approximating"
  | .static => "static"
  | .fastpath => "fastpath"
  | .tracing => "tracing"

def ofName? (s : String) : Option Mode := [symbolic, symbolicApproximating, static, fastpath, tracing].find? fun m => m.name == s

def settings : Mode → Settings
  | .symbolic => .ofList (Settings.common ++ Settings.symbolic ++ [.trackConstraintActions])
  | .symbolicApproximating =>
    .ofList (Settings.common ++ Settings.symbolic ++ Settings.approximation ++ [.trackConstraintActions])
  | .static => .ofList (Settings.basic ++ [
      .regionMapping, .bestEffortMemoryStoring, .symbolicInitialValues, .doCcalls, .doRetEmulation,
      .trueRetEmulationGuard, .blockScopeConstraints, .trackConstraints, .abstractMemory, .abstractSolver,
      .useSimplifiedCcalls, .reverseMemoryNameMap])
  | .fastpath => .ofList (Settings.basic ++ [.trackConstraints, .symbolicInitialValues, .compositeSolver] ++ Settings.resilience ++ [
      .trackOpActions, .bestEffortMemoryStoring, .avoidMultivaluedReads, .avoidMultivaluedWrites, .doRetEmulation,
      .noSymbolicJumpResolution, .noSymbolicSyscallResolution, .fastRegisters])
  | .tracing => .ofList (Settings.common ++ Settings.symbolic ++ Settings.resilience ++ Settings.unicorn.dropLast ++ [
      .strictPageAccess, .exceptionHandling, .zeroFillUnconstrainedMemory, .useSystemTimes])

end Mode

end SymExec
