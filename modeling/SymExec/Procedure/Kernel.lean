import SymExec.Procedure.Stream

/-!
# System calls

What the kernel does for a process.
-/

namespace SymExec.Exec

/-! ### What is kept under a name -/

def globals : Exec Fields := return (← state).globals.getD []

def setGlobal (k : String) (v : Value) : Exec Unit :=
  modifyState fun s =>
    let g := s.globals.getD []
    { s with globals := some (if g.any (·.1 == k) then g.map fun e => if e.1 == k then (k, v) else e else g ++ [(k, v)]) }

def archPrctl (code addr : Bits) : Exec Value := do
  if code.symbolic then refuse .solverValue "Code value passed to arch_prctl must be concrete."
  match ← eval code with
  | 0x1001 =>
    setNamedReg "gs" addr
    return .int 0
  | 0x1002 =>
    setNamedReg "fs" addr
    return .int 0
  | 0x1003 =>
    let v ← namedReg "fs"
    poke addr v
    return .int 0
  | 0x1004 =>
    let v ← namedReg "gs"
    poke addr v
    return .int 0
  | _ => return .int 22

/-! ### Files -/

variable (buffer : Bits)

def storeStatus (s : FileStatus) (endness : Option Endness) : Exec Unit := do
  let put (offset : Nat) (v : Bits) : Exec Unit := do
    poke (buffer.addInt offset) v { endness }
  for offset in [0x00, 0x08, 0x10] do put offset (.lit 64 0)
  put 0x18 s.mode
  for offset in [0x1c, 0x20, 0x24] do put offset (.lit 32 0)
  put 0x28 (.lit 64 0)
  put 0x30 s.size
  for offset in [0x38, 0x40, 0x48, 0x50, 0x58, 0x60, 0x68, 0x70, 0x78, 0x80, 0x88] do put offset (.lit 64 0)

def fstat (fd buffer : Bits) : Exec Value := do
  storeStatus buffer (← fileStatus fd) (some .little)
  return .bits (.lit 64 0)

def statPath : Exec Value := do
  storeStatus buffer (← fileStatus (.num 0)) none
  return .bits (.lit 64 0)

def lseek (fd offset whence : Bits) : Exec Value := do
  if whence.symbolic then refuse .posix "Symbolic whence is not supported in lseek syscall."
  let w ← eval whence
  if offset.symbolic then refuse .posix "Symbolic seek is not supported in lseek syscall."
  let n ← eval offset
  if (← seekFd fd (.ofNat (← arch).bits n) w) = -1 then return .bits (← word (-1))
  return (← file (← fileOf fd)).pos.toValue

def unlink (path : Bits) : Exec Value := do
  let n ← strlen path
  let e ← load .memory path { size := n.most, endness := some .big }
  let _ ← bytesText e
  return .bits (← word 0)

/-! ### Memory -/

def takeMapping (size : Nat) : Exec Nat := do
  let addr := (← libc).mmapBase
  modifyLibc ({ · with mmapBase := (addr + size + pageSize - 1) / pageSize * pageSize })
  return addr

def mappingAttempts : Nat := 65536

/-- Maps pages at an address, and elsewhere if they are taken and another place will do. -/
def mapAnywhere (size : Nat) (prot : Bits) (zero fixed : Bool) : Nat → Nat → Exec Value
  | 0, _ => raise .memory
  | fuel + 1, addr => do
    let ok ← handling .memory (do mapRegion (.num addr) size prot zero; return true) (return false)
    if ok then return .ofNat addr
    if fixed then return .bits (← word (-1))
    mapAnywhere size prot zero fixed fuel (← takeMapping size)

def mmap (addr length prot flags : Bits) : Exec Value := do
  let size ← requestedSize length
  let addr ← match ← values addr 2 with
    | [a] => pure a
    | _ => refuse .posix "Cannot handle symbolic addr argument for mmap."
  let addr ← if addr = 0 then takeMapping size else pure addr
  let flags ← match ← values flags 2 with
    | [f] => pure f
    | _ => refuse .posix "Cannot handle symbolic flags argument for mmap."
  if flags.testBit 0 == flags.testBit 1 then return .bits (← word (-1))
  mapAnywhere size (prot.slice 2 0) (flags.testBit 5) (flags.testBit 4) mappingAttempts addr

def onlyValue (b : Bits) (otherwise : Fault) : Exec Nat := handling .solverValue (evalOne b) (throw otherwise)

def pagesFrom (addr n : Nat) : List Nat := (List.range n).map fun i => addr + i * pageSize

def mprotect (addr length prot : Bits) : Exec Value := do
  let addr ← onlyValue addr (.because .solverValue "mprotect can't handle symbolic addr")
  let length ← onlyValue length (.because .solverValue "mprotect can't handle symbolic length")
  let prot ← onlyValue prot (.because .solverValue "mprotect can't handle symbolic prot")
  if addr % pageSize ≠ 0 then return .int (-1)
  let pages := pagesFrom addr ((length + pageSize - 1) / pageSize)
  let mapped ← handling .memory (do
    for p in pages do let _ ← permissions (.num p)
    return true) (return false)
  if !mapped then return .int (-1)
  for p in pages do let _ ← permissions (.num p) (some (.ofNat 3 prot))
  return .int 0

/-! ### Process -/

def futex (op : Bits) : Exec Value := do
  if (← eval op).testBit 0 then return .int 0
  return .bits (← unconstrained "futex" (← arch).bits)

def getrlimit (resource limit : Bits) : Exec Value := do
  if (← eval resource) = 3 then
    poke limit (.lit 64 8388608) { size := some (.num 8) }
    let most ← unconstrained "rlim_max" 64
    poke (limit.addInt 8) most
    return .int 0
  return .bits (← unconstrained "rlimit" (← arch).bits)

def sigprocmask (how set old size : Bits) : Exec Value := do
  let bits ← wordBits
  let mask ← sigmask (some size)
  poke old mask { condition := Cond.nonzero old }
  let new ← load .memory set { size := some size }
  changeSigmask how new size (.nonzero set)
  let known := [0, 1, 2].map fun h => .mkNot (.eqNat how h)
  return .bits (.mkIte (.all known) (.lit bits 22) (.lit bits 0))

def time : Exec Value := do
  let now ← freshSymbol "sys_time" (← arch).bits
  match (← globals).lookup "sys_last_time" with
  | some (.bits last) => addConstraints [Cond.uge now last]
  | _ => pure ()
  setGlobal "sys_last_time" (.bits now)
  return .bits now

def uname : Exec Value := do
  let machine := if (← arch).bits = 64 then "x86_64" else "x86"
  let names := ["Linux", "localhost", "4.0.0", "#1 SMP Mon Jan 01 00:00:00 GMT 1970", machine]
  for (name, i) in names.zipIdx do
    let bytes := bytesOf name ++ .replicate (65 - name.length) 0
    poke (buffer.addInt (65 * i)) (.ofBytes bytes)
  return .int 0

/-! ### Processes and the network -/

def freshCond (name : String) : Exec Cond := do return .nonzero (← freshSymbol name 1 false false)

def forkProcess : Exec Value := do
  let bits ← wordBits
  return .bits (.mkIte (← freshCond "fork_parent") (.lit bits 1338) (.lit bits 0))

def gethostbyname : Exec Value := do
  let place ← mallocNat 32
  for field in ["h_name", "h_aliases", "h_addrtype", "h_length", "h_addr_list"] do
    let v ← freshSymbol field 64
    poke place v { endness := some .little }
  return .ofNat place

def getpass (prompt : Bits) : Exec Value := do
  let _ ← puts prompt
  let buffer ← mallocNat 1024
  let _ ← readFd (← word 0) (← word buffer) (← word 1024)
  return .ofNat buffer

def toNetworkOrder (v : Bits) : Exec Bits := return if (← arch).endness = .little then v.reverse else v

def openAt (path flags : Bits) : Exec Value := do
  let n ← strlen path
  let e ← load .memory path { size := n.most, endness := some .big }
  return .ofNat (← openFile (.text (← bytesText e)) (.bits flags))

def addSocket (fd : Nat) : Exec Unit := do
  let i ← orRaise ((← posix).file? fd) .badKey
  modifyPosix fun p => { p with sockets := p.sockets.filter (·.1 != fd) ++ [(fd, i)] }

def acceptSocket (listening peer : Bits) : Exec Value := do
  let fd ← openFile (.term listening) (.bits peer)
  addSocket fd
  return .ofNat fd

def openSocket (type : Bits) : Exec Value := do
  let _ ← eval type
  let fd ← openFile (.text "socket_socket") (.str "rw")
  addSocket fd
  return .ofNat fd

def readdir : Exec Value := do
  let a ← arch
  if a.name ≠ "AMD64" then return .int 0
  let length ← freshSymbol "d_reclen" 16
  let type ← freshSymbol "d_type" 8
  let name ← freshSymbol "d_name" (255 * 8)
  let more ← freshCond "readdir_cond"
  let entry ← mallocNat (19 + 256)
  let put (offset : Nat) (v : Bits) (e : Endness) : Exec Unit := do
    poke (.num (entry + offset)) v { endness := e }
  put 0 (.lit 64 0) .little
  put 8 (.lit 64 0) .little
  put 16 length .little
  put 18 type .little
  put 19 name .big
  put (19 + 255) (.lit 8 0) .big
  return .bits (.mkIte more (.ofNat a.bits entry) (.lit a.bits 0))

end SymExec.Exec
