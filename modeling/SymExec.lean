import SymExec.Console.Answer
import SymExec.Proofs.Difference
import SymExec.Proofs.Merge
import SymExec.Proofs.Candidates
import SymExec.Proofs.Partition
import SymExec.Proofs.ArmWide
import SymExec.Proofs.Splitting
import SymExec.Proofs.Conservation
import SymExec.Proofs.SegmentMap
import SymExec.Proofs.Ranges
import SymExec.Proofs.History
import SymExec.Proofs.Cleaving
import SymExec.Proofs.Slice
import SymExec.Proofs.Pending
import SymExec.Proofs.PcSteps
import SymExec.Proofs.Division
import SymExec.Proofs.Equality
import SymExec.Proofs.Fill
import SymExec.Proofs.Digits
import SymExec.Proofs.Visiting
import SymExec.Proofs.Phis
import SymExec.Proofs.Hooks
import SymExec.Proofs.Presets
import SymExec.Proofs.Goals
import SymExec.Proofs.Callstack
import SymExec.Proofs.Break
