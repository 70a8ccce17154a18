import SymExec.Procedure.Kernel

/-!
# Calls of the challenge system

The seven calls of a small system: end, send, receive, wait, take memory, give it back, and random bytes.
-/

namespace SymExec.Exec

open Cond

/-- Takes room from the range with the highest address among those given back that are long enough. -/
def takeSinkhole (length : Nat) : Exec (Option Nat) := do
  let c ← cgc
  match (c.sinkholes.mergeSort fun a b => b.1 ≤ a.1).find? fun s => length ≤ s.2 with
  | none => return none
  | some (a, n) =>
    let rest := n - length
    let holes := c.sinkholes.filter (· != (a, n))
    let holes := if rest = 0 || holes.contains (a, rest) then holes else (a, rest) :: holes
    modifyCgc ({ · with sinkholes := holes })
    return some (a + rest)

def addSinkhole (addr length : Nat) : Exec Unit :=
  modifyCgc fun c =>
    { c with sinkholes := if c.sinkholes.contains (addr, length) then c.sinkholes else (addr, length) :: c.sinkholes }

def neverAddress (a : Bits) : Exec Bool := return !(← canHold (.nonzero a))

def badAddress : Nat := 2

def badArgument : Nat := 3

def answerOf (cases : List (Bool × Nat)) : Exec Bits := do
  word (((cases.find? (·.1)).map (·.2)).getD 0)

def wholePages (n : Nat) : Nat := (n + pageSize - 1) / pageSize * pageSize

def allocatePages (length exec addr : Bits) : Exec Value := do
  let bits ← wordBits
  let n ← greatest length
  let c ← cgc
  let refused ← neverAddress addr
  let r ← answerOf [(n == 0, badArgument), (n > c.maxAllocation, badArgument), (refused, badAddress)]
  let size := wholePages n
  let base := c.allocationBase.toBits bits
  modifyCgc ({ · with allocationBase := .bits base })
  let hole ← takeSinkhole size
  let chosen := match hole with
    | some a => .ofNat bits a
    | none => base.addInt (-size)
  let ok := .eqNat r 0
  poke addr chosen { condition := some (.mkAnd ok (.nonzero addr)), endness := some .little }
  if hole.isNone then modifyCgc ({ · with allocationBase := .bits (base.sub (.mkIte ok (.ofNat bits size) (.lit bits 0))) })
  let prot := (Bits.lit 3 3).or (Bits.mkIte (nonzero exec) (.lit 3 4) (.lit 3 0))
  if (← greatest r) = 0 then mapRegion chosen size prot
  return .bits r

def deallocatePages (addr length : Bits) : Exec Value := do
  let bits ← wordBits
  let misaligned := .nonzero (addr.urem (.ofNat bits pageSize))
  let refused ← neverAddress addr
  let endRefused ← neverAddress (addr.add length)
  let code (n : Nat) := .lit bits n
  let r := choose [(misaligned, code badArgument), (.eqNat length 0, code badArgument),
    (.lit refused, code badArgument), (.lit endRefused, code badArgument)] (code 0)
  let a ← greatest addr
  let n ← greatest length
  if (← greatest r) ≠ 0 then return .bits r
  let pages := (← memoryAt .memory).paged.pages
  let mapped := ((List.range (wholePages n / pageSize)).takeWhile fun i => pages.contains (a / pageSize + i)).length
  if mapped = 0 then return .bits r
  addSinkhole a (mapped * pageSize)
  unmapRegion (.num a) (mapped * pageSize)
  return .bits r

def readyBits (kind : String) (run : Nat) (count : Bits) : Exec (List Bits) := do
  let bits ← wordBits
  (List.range 32).mapM fun fd => do
    let bit ← if ← has .cgcNonBlockingFds then pure (.lit 1 1) else unconstrained s!"fdwait_{kind}_{run}_{fd}" 1
    return .mkIte (.ult (.ofNat bits fd) count) bit (.lit 1 0)

def waitReady (count reads writes timeout ready : Bits) : Exec Value := do
  let a ← arch
  let run ← serial
  let sum (total : Bits) (bs : List Bits) := bs.foldl (fun t b => t.add (b.zext (a.bits - 1))) total
  let rs ← readyBits "read" run count
  poke reads (.concatList rs) { condition := nonzero reads }
  let ws ← readyBits "write" run count
  let total := sum (sum (.lit a.bits 0) rs) ws
  poke writes (.concatList ws) { condition := nonzero writes }
  poke ready total { endness := some .little, condition := nonzero ready }
  let part (p : Bits) : Exec Bits := load .memory p {
    size := some (.num 4), endness := a.endness, condition := nonzero timeout, fallback := some (.lit 32 0) }
  let seconds ← part timeout
  let micros ← part (timeout.addInt 4)
  let passed := (seconds.mul (.ofNat seconds.width 1000000)).add micros
  let passed := Bits.mkIte (eqNat total 0) passed (.lit passed.width 0)
  modifyCgc fun c => { c with time := c.time.add passed }
  return .bits (.lit a.bits 0)

def randomBytes (buffer count written : Bits) (fixed : Option UInt8) : Exec Value := do
  let bits ← wordBits
  if (← state).mode = .fastpath && fixed.isNone then
    if !count.symbolic && !buffer.symbolic && !written.symbolic then
      let given := (nonzero written).isTrue
      if (given && (← neverAddress written)) || (← neverAddress buffer) then return .ofNat badAddress
      let n ← evalOne count
      let data ← unconstrained s!"random_{← serial}" (8 * n)
      poke buffer data { size := some count }
      if given then poke written count { endness := some .little }
    return .bits (.lit bits 0)
  let refused ← neverAddress buffer
  let given := .nonzero written
  let refusedCount ← neverAddress written
  let r := choose [(.lit refused, .lit bits badAddress), (.mkAnd given (.lit refusedCount), .lit bits badAddress)]
    (.lit bits 0)
  if ← satisfiable [nonzero count] then
    let data ← match fixed with
      | some b => do pure (.ofBytes (.replicate (← greatest count) b))
      | none => do
        let n ← greatest (count.mul (.ofNat count.width 8))
        unconstrained s!"random_{← serial}" n
    poke buffer data { size := some count }
  poke written count { endness := some .little, condition := given }
  return .bits r

def userEnd : Nat := 0xc0000000

def rangeGranted (buffer count : Bits) (right : Nat) : Exec Bool := do
  let stop := buffer.add count
  if (← greatest stop) > userEnd then return false
  if (← least stop) < (← least buffer) then return false
  handling .memory (do return (← eval (← permissions (.num (← eval buffer)))).testBit right) (return false)

def resizeLastWrite (size : Bits) : Exec Bool := do
  let es := (← state).history.current.events
  let isWrite : Event → Bool
    | .action a => a.kind = .data && a.action = some "write" && a.type = "mem"
    | _ => false
  let (newer, rest) := es.span fun e => !isWrite e
  match rest with
  | .action a :: older =>
    let a := { a with size := a.size.map ({ · with value := .bits size }) }
    modifyEpoch ({ · with events := newer ++ .action a :: older })
    return true
  | _ => return false

def receiveBytes (fd : Quantity) (buffer count received : Bits) : Exec Value := do
  let bits ← wordBits
  let fd ← if ← has .cgcEnforceFd then pure (.num 0) else pure fd
  if (← state).mode = .fastpath then
    let size ←
      if !count.symbolic then do
        let data ← unconstrained s!"receive_data_{← serial}" (8 * (← evalOne count))
        poke buffer data
        pure count
      else unconstrained "receive_length" bits
    poke received size { endness := some .little }
    return .bits (.lit bits 0)
  if ← has .cgcNoSymbolicReceiveLength then
    if !(← rangeGranted buffer count 1) then return .ofNat badAddress
    let n := (← readFd fd buffer count).toBits bits
    poke received n { condition := nonzero received, endness := some .little }
    return .bits (.lit bits 0)
  let size ←
    if ← has .abstractMemory then pure count
    else do
      let n ← unconstrained "receive_length" bits
      addConstraints [ule n count] true
      pure n
  if ← canHold (.nonzero count) then
    let n ← readFd fd buffer size
    if ← resizeLastWrite size then
      let _ ← load .memory buffer { size := some n }
  poke received size { condition := nonzero received, endness := some .little }
  return .bits (.mkIte (.eqNat size 0) (.ofNat bits 0xffffffff) (.lit bits 0))

def transmitBytes (fd : Quantity) (buffer count sent : Bits) : Exec Value := do
  let bits ← wordBits
  let fd ← if ← has .cgcEnforceFd then pure (.num 1) else pure fd
  if (← state).mode = .fastpath then
    poke sent count { endness := some .little }
    return .bits (.lit bits 0)
  if ← has .abstractMemory then
    let data ← load .memory buffer { size := some count }
    writeFd fd data count
    poke sent count { endness := some .little }
    return .bits (.lit bits 0)
  if ← canHold (.nonzero count) then
    if !(← rangeGranted buffer count 0) then return .ofNat badAddress
    let data ← load .memory buffer { size := some count }
    writeFd fd data count
  poke sent count { endness := some .little, condition := nonzero sent }
  return .bits (.lit bits 0)

def transmitToOutput (fd buffer count sent : Bits) : Exec Value := do
  let one := (← values fd 2).length < 2
  let input ← if one then pure (decide ((← eval fd) = 0)) else pure false
  let out ← word 1
  transmitBytes (if input then out else fd) buffer count sent

end SymExec.Exec
