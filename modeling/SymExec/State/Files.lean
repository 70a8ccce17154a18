import SymExec.State.Fork

/-!
# Files

Files, descriptors and paths of the current state, and the few other things that a system keeps for a process.
-/

namespace SymExec

namespace Posix

variable (p : Posix)

def file? (fd : Nat) : Option Nat := p.fds.lookup fd

def addFile (f : File) : Nat × Posix := (p.nextFile, { p with table := p.table.insert p.nextFile f, nextFile := p.nextFile + 1 })

def bindFd (fd i : Nat) : Posix := { p with fds := p.fds.filter (·.1 != fd) ++ [(fd, i)] }

def bindPath (path : FileName) (i : Nat) : Posix := { p with paths := p.paths.filter (·.1 != path) ++ [(path, i)] }

def freeFd : Option Nat := (List.range 8192).find? fun fd => (p.file? fd).isNone

def openPath (new : File) (path : FileName) (preferred : Option Nat) : Option (Nat × Posix) :=
  let fd := match preferred with
    | some fd => if (p.file? fd).isNone then some fd else p.freeFd
    | none => p.freeFd
  fd.map fun fd =>
    match p.paths.lookup path with
    | some i => (fd, (p.bindFd fd i).bindPath path i)
    | none =>
      let (i, p) := p.addFile new
      (fd, (p.bindFd fd i).bindPath path i)

end Posix

namespace Exec

variable (name : FileName)

def newFile (mode : Value) : Exec File := do
  let s ← state
  let n ← serial
  return {
    name
    mode
    pos := .bits (.lit s.arch.bits 0)
    content := .empty s!"file_{name.label}_{n}" .big s.settings }

def posix : Exec Posix := do
  match (← state).posix with
  | some p => return p
  | none =>
    let p ← [("/dev/stdin", 0), ("/dev/stdout", 1), ("/dev/stderr", 1)].foldlM (fun p (name, mode) => do
      let f ← newFile (.text name) (.int mode)
      return ((p.openPath f (.text name) none).map (·.2)).getD p) {}
    modifyState ({ · with posix := some p })
    return p

def modifyPosix (f : Posix → Posix) : Exec Unit := do
  let _ ← posix
  modifyState fun s => { s with posix := s.posix.map f }

variable (i : Nat)

def modifyFile (f : File → File) : Exec Unit :=
  modifyState fun s => { s with posix := s.posix.map fun p => { p with table := p.table.modify i f } }

def openFile (mode : Value) (preferred : Option Nat := none) : Exec Nat := do
  let p ← posix
  let f ← newFile name mode
  match p.openPath f name preferred with
  | none => refuse .posix "exhausted file descriptors"
  | some (fd, p) =>
    modifyState ({ · with posix := some p })
    return fd

variable (fd : Quantity)

/-- The number of the file of a descriptor; one that is not open is opened under a name of its own. -/
def fileOf : Exec Nat := do
  let fd ← makeConcrete fd
  match (← posix).file? fd with
  | some i => return i
  | none =>
    let _ ← openFile (.text s!"tmp_{fd}") (.int 2) (some fd)
    match (← posix).file? fd with
    | some i => return i
    | none => raise .badKey

def file : Exec File := do
  match (← posix).table[i]? with
  | some f => return f
  | none => raise .badKey

def lesser (a b : Quantity) : Exec Nat := do return min (← evalQ a) (← evalQ b)

def remaining (bits : Nat) (size pos : Quantity) : Quantity :=
  match size, pos with
  | .num a, .num b => .num (a - b)
  | _, _ => .bits ((size.toBits bits).sub (pos.toBits bits))

def readPacket (f : File) (packets : List Nat) (dst length : Quantity) : Exec Quantity := do
  match packets with
  | [] => return .num 0
  | k :: rest =>
    modifyFile i ({ · with packets := some rest })
    let lengths ← match length with | .num n => pure [n] | .bits b => values b 2
    match lengths with
    | [n] =>
      let m := min k n
      let _ ← copyContents (.file i) .memory dst f.pos (.num m)
      if n < k then modifyFile i ({ · with packets := some ((k - n) :: rest) })
      modifyFile i fun f => { f with pos := f.pos.addNat m }
      return .num m
    | _ => raise .badValue

def readFile (dst length : Quantity) : Exec Quantity := do
  let f ← file i
  match f.packets with
  | some ps => readPacket i f ps dst length
  | none =>
    let bits ← wordBits
    let most := (f.size.map fun s => remaining bits s f.pos).getD length
    let real ←
      if (← has .concretizeSymbolicFileReadSizes) && (length.symbolic || most.symbolic) then do
        let n ← greatestQ length
        addConstraints [length.eqNat n]
        pure (.num (min n (← greatestQ most)))
      else pure length
    let real ← match f.size with
      | none => pure real
      | some size => do
        let fits := .ule ((f.pos.add real).toBits bits) (size.toBits bits)
        let open' := real.symbolic || most.symbolic
        if open' && (← solverSatisfiable [fits]) then do
          addConstraints [fits]
          pure real
        else if !real.symbolic || !most.symbolic then pure (.num (← lesser most real))
        else pure real
    let _ ← copyContents (.file i) .memory dst f.pos real
    modifyFile i fun f => { f with pos := f.pos.add real }
    return real

def readBytes (length : Quantity) : Exec Bits := do
  let f ← file i
  let bits ← wordBits
  let n := match f.size with
    | none => length
    | some size =>
      let rest := (remaining bits size f.pos).toBits bits
      let l := length.toBits bits
      .bits (.mkIte (.ult rest l) rest l)
  let data ← load (.file i) f.pos { size := some n }
  modifyFile i fun f => { f with pos := f.pos.add n }
  return data

def writeFile (data : Bits) (length : Quantity) : Exec Unit := do
  let f ← file i
  let _ ← store (.file i) f.pos data
  modifyFile i fun f => { f with pos := f.pos.add length }

def seekFile (pos : Quantity) : Exec Unit := do
  let bits ← wordBits
  modifyFile i ({ · with pos := .bits (pos.toBits bits) })

/-- Moves the position of a descriptor, relative to the start, to the position or to the end. -/
def seekFd (offset : Bits) (whence : Nat) : Exec Int := do
  if fd.symbolic then refuse .posix "Symbolic file descriptor is not supported in seek()"
  let n ← evalQ fd
  if n ≤ 2 then return -1
  let i ← fileOf (.num n)
  let f ← file i
  match whence with
  | 0 =>
    seekFile i offset
    return 0
  | 1 =>
    seekFile i (f.pos.add offset)
    return 0
  | 2 =>
    match f.size with
    | none => return -1
    | some s =>
      seekFile i (s.add offset)
      return 0
  | _ => return -1

def closeFd : Exec Bits := do
  if fd.symbolic then refuse .posix "Symbolic fd ?"
  let n ← evalQ fd
  let i ← fileOf (.num n)
  modifyFile i ({ · with closed := true })
  let f ← file i
  modifyPosix fun p => { p with fds := p.fds.filter (·.1 != n) }
  modifyPosix fun p => p.bindPath f.name i
  return .lit (← arch).bits 0

def fileBytes : Exec Bits := do
  let f ← file i
  match f.content.paged.keys (← get).commons with
  | [] => return .lit 0 0
  | k :: ks =>
    let lo := ks.foldl min k
    let hi := ks.foldl max k
    let bytes ← (List.range' lo (hi + 1 - lo)).mapM fun a => load (.file i) (.num a) { size := some (.num 1) }
    return .concatList bytes

def bytesText (e : Bits) : Exec String := do
  if e.width = 0 then return ""
  return textOf (Word.toBytes (e.width / 8) (← eval e))

def dumpFile : Exec String := do bytesText (← fileBytes i)

/-- Sets the end of the data segment, and maps the pages that it comes to cover. -/
def setBrk (new : Bits) : Exec Bits := do
  let bits ← wordBits
  let old := (← posix).brk.toBits bits
  modifyPosix ({ · with brk := .bits old })
  if new.symbolic then modifyPosix ({ · with brk := .bits (.mkIte (.ult new old) old new) })
  else
    let lo ← eval old
    let hi ← eval new
    if lo ≤ hi then
      modifyPosix ({ · with brk := .bits new })
      if ((lo : Int) - 1).fdiv pageSize ≠ ((hi : Int) - 1).fdiv pageSize then
        let up (n : Nat) := (n + pageSize - 1) / pageSize * pageSize
        mapRegion (.num (up lo)) (up hi - up lo) (.lit 3 7)
  return (← posix).brk.toBits bits

structure FileStatus where
  (mode size : Bits)

def fileStatus : Exec FileStatus := do
  let mode ←
    if fd.symbolic then freshSymbol "st_mode" 32
    else do
      let p ← posix
      match (p.file? (← evalQ fd)).bind (p.table[·]?) with
      | some f =>
        match f.name with
        | .text s => if s.startsWith "/dev/" then pure (.lit 32 0) else freshSymbol "st_mode" 32
        | .term _ => raise .badAttribute
      | none => raise .badKey
  return { mode, size := ← freshSymbol "st_size" 64 }

def sigmask (size : Option Quantity) : Exec Bits := do
  match (← posix).sigmask with
  | some b => return b
  | none =>
    let bits ← match size with
      | some q => do
        let n ← evalQ q
        addConstraints [q.eqNat n]
        pure (8 * n)
      | none => pure 1024
    let b ← eternalSymbol "initial_sigmask" "initial_sigmask" bits
    modifyPosix ({ · with sigmask := some b })
    return b

/-- Changes the set of blocked signals as `how` says, where a new set is given. -/
def changeSigmask (how new : Bits) (size : Quantity) (given : Cond) : Exec Unit := do
  let old ← sigmask (some size)
  if old.width ≠ new.width then raise .badTerm
  let set := .mkIte given (.mkIte (.eqNat how 0) (old.or new)
    (.mkIte (.eqNat how 1) (old.and new.not) (.mkIte (.eqNat how 2) new old))) old
  modifyPosix ({ · with sigmask := some set })

end Exec

end SymExec
