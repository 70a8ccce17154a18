import SymExec.Procedure.Format

/-!
# Streams

The functions on streams.
-/

namespace SymExec

open Bits Cond

structure StreamLayout where
  (size fd : Nat)

def Arch.streamLayout? (a : Arch) : Option StreamLayout :=
  match a.name with
  | "MIPS32" | "X86" => some ⟨148, 0x38⟩
  | "AMD64" => some ⟨216, 0x70⟩
  | "ARMEL" | "ARMHF" => some ⟨84, 0x0e⟩
  | "AARCH64" => some ⟨152, 0x14⟩
  | _ => none

namespace Exec

def streamLayout : Exec StreamLayout := do
  let a ← arch
  match a.streamLayout? with
  | some l => return l
  | none => refuse .procedure ("missing _IO_FILE offsets for arch: " ++ a.name)

variable (stream : Bits)

def streamPlace : Exec Bits := do return stream.addInt (← streamLayout).fd

def streamFd : Exec Bits := do extractBits (.int .int true) (← streamPlace stream)

def streamFdInt : Exec Int := do extractInt (.int .int true) (← streamPlace stream)

def fileno : Exec Nat := do eval (← loadOrdered (← streamPlace stream) 32)

def newStream (fd : Nat) : Exec Nat := do
  let l ← streamLayout
  let ptr ← mallocNat l.size
  poke (.num (ptr + l.fd)) (.ofNat 32 fd) { endness := (← arch).endness }
  return ptr

def modeFlags (mode : String) : Try Int := do
  let c ← orRaise mode.toList.getLast? .badIndex
  let mode := if c = 'b' then String.ofList mode.toList.dropLast else mode
  match mode with
  | "r" => return 0
  | "r+" => return 2
  | "w" => return 1 + 256
  | "w+" => return 2 + 256
  | "a" => return 1 + 256 + 4096
  | "a+" => return 2 + 256 + 4096
  | m => refuse .procedure ("unsupported file open mode " ++ m)

def fopen (path mode : Bits) : Exec Value := do
  let p ← strlen path
  let m ← strlen mode
  let pb ← load .memory path { size := p.most, endness := some .big }
  let mb ← load .memory mode { size := m.most, endness := some .big }
  let path ← bytesText pb
  let mode ← bytesText mb
  let fd ← openFile (.text path) (.int (← ofExcept (modeFlags mode)))
  return .ofNat (← newStream fd)

def fdopen (fd mode : Bits) : Exec Value := do
  let _ ← textAt mode
  let n ← eval fd
  if ((← posix).file? n).isNone then return .int 0
  return .ofNat (← newStream n)

def closeIfOpen (fd : Bits) : Exec Value := do
  let n ← eval fd
  let p ← posix
  let some f := (p.file? n).bind (p.table[·]?) | return .bits (← word (-1))
  if f.closed then return .bits (← word (-1))
  let _ ← closeFd (.num n)
  return .bits (← word 0)

def fclose : Exec Value := do
  let fd ← streamFd stream
  asSystemCall (closeIfOpen fd)

def feof : Exec Value := do
  let fd ← streamFdInt stream
  let p ← posix
  let bits ← wordBits
  let some f := (if fd < 0 then none else p.file? fd.toNat).bind (p.table[·]?) | return .int (-1)
  match f.size with
  | none => return .int 0
  | some s => return .int (if (ult (f.pos.toBits bits) (s.toBits bits)).isTrue then 0 else 1)

def bytesLeft (f : File) (unbounded : Nat) : Exec Nat := do
  match f.size with
  | none => return unbounded
  | some s => greatestQ (remaining (← arch).bits s f.pos)

def readByte (i : Nat) : Exec Bits := do
  let bits ← wordBits
  if (← bytesLeft (← file i) 1) = 0 then return .ofInt bits (-1)
  let b ← readBytes i (.num 1)
  return b.zext (bits - b.width)

def fgetc : Exec Bits := do
  let fd ← fileno stream
  readByte (← fileOf (.num fd))

def getchar : Exec Bits := do asResult (← readByte (← fileOf (.num 0)))

def fgets (dst size stream : Bits) : Exec Bits := do
  let bits ← wordBits
  let l ← libc
  let fd ← streamFd stream
  let i ← fileOf fd
  let f ← file i
  let pos := f.pos.toBits bits
  let limit ← bytesLeft f l.maxStrLen
  let found? ← if limit = 0 then pure none
    else do pure (some (← find (.file i) pos (.lit 8 0x0a) limit (some l.bufSymbolicBytes)))
  let place := (found?.map (·.addr)).getD (.lit bits 0)
  let conds := (found?.map (·.conditions)).getD []
  let some? ← solverSatisfiable [ugt place (.lit bits 0)]
  let errored ←
    if some? then pure false
    else do
      let first ← load (.file i) (.num 0) { size := some (.num 1) }
      pure (!(← canBe first 0x0a))
  let room := mkIte (eqNat size 0) (.lit size.width 0) (size.addInt (-1))
  let room := match f.size with
    | none => room
    | some _ => mkIte (ult (ofNat room.width limit) room) (ofNat room.width limit) room
  let distance :=
    if errored then room
    else
      let upto := mkIte (eqNat place 0) place ((place.sub pos).addInt 1)
      mkIte (ult room upto) room upto
  let got := (← readFile i dst distance).toBits bits
  addConstraints [any (eq got room :: conds)]
  poke (dst.add distance) (.lit 8 0)
  let now := (← file i).pos.toBits bits
  let inner := mkIte (mkAnd (eqNat now 0) (eqNat got 0)) (.lit dst.width 0) dst
  return mkIte (eqNat size 0) (.lit dst.width 0) inner

variable (fd : Quantity)

def writeFd (data : Bits) (length : Quantity) : Exec Unit := do writeFile (← fileOf fd) data length

def readFd (dst : Bits) (length : Quantity) : Exec Quantity := do readFile (← fileOf fd) dst length

def fputc (c stream : Bits) : Exec Bits := do
  writeFd (← streamFd stream) (c.slice 7 0) (.num 1)
  return c.and (.ofNat c.width 0xff)

def fputs (s stream : Bits) : Exec Value := do
  let fd ← streamFd stream
  let n ← strlen s
  let b ← load .memory s { size := n.most, endness := some .big }
  let text ← bytesText b
  writeFd fd (.ofBytes (bytesOf text)) (.num n.most)
  return .int 1

def fread (dst size count stream : Bits) : Exec Bits := do
  let bits ← wordBits
  let fd ← streamFd stream
  let got ← readFd fd dst (.bits (size.mul count))
  let n ← quotient (got.toBits bits) size
  return .mkIte (.mkOr (.eqNat size 0) (.eqNat count 0)) (.lit n.width 0) n

def fwrite (src size count stream : Bits) : Exec Bits := do
  let n := size.mul count
  let data ← load .memory src { size := some (.bits n), endness := some .big }
  writeFd (← streamFd stream) data (.bits n)
  return n

def fseek (stream offset whence : Bits) : Exec Value := do
  let ws ← values whence 2
  if whence.symbolic && ws.length > 1 then refuse .procedure "multi-valued \"whence\" is not supported in fseek."
  let w := ws.headD 0
  if w > 2 then return .int 22
  return .int (← seekFd (← streamFd stream) offset w)

def rewind : Exec Value := do
  let _ ← fseek stream (← word 0) (← word 0)
  return .null

def ftell : Exec Value := do
  return (← file (← fileOf (← streamFd stream))).pos.toValue

def ungetc (c stream : Bits) : Exec Bits := do
  let bits ← wordBits
  let fd ← streamFdInt stream
  let p ← posix
  let i ← orRaise (if fd < 0 then none else p.file? fd.toNat) .badKey
  modifyFile i fun f => { f with pos := .bits ((f.pos.toBits bits).addInt (-1)) }
  return c.and (.ofNat c.width 0xff)

/-! ### Printing -/

def printed (out : Option Bits) : Exec Bits := do
  orRaise out .badAttribute

def printTo (out : Option Bits) : Exec Value := do
  let _ ← posix
  let b ← printed out
  writeFd fd b (.num (b.width / 8))
  return .ofNat (b.width / 8)

def printAt (dst : Bits) (out : Option Bits) : Exec Value := do
  let b ← printed out
  poke dst b
  poke (dst.addInt (b.width / 8 : Nat)) (.lit 8 0)
  return .bits (← word (b.width / 8 : Nat))

def write (fd src length : Bits) : Exec Value := do
  let data ← load .memory src { size := some (.bits length) }
  writeFd fd data (.bits length)
  return .bits length

def puts (s : Bits) : Exec Value := do
  let n := (← strlen s).length
  let one ← word 1
  let _ ← asSystemCall (write one s n)
  writeFd (.num 1) (.lit 8 0x0a) (.num 1)
  return .bits (← unconstrained "puts" (← arch).bits)

def perror (s : Bits) : Exec Value := do
  let n := (← strlen s).length
  let two ← word 2
  let _ ← asSystemCall (write two s n)
  return .null

def putchar (c : Bits) : Exec Bits := do
  writeFd (.num 1) (c.slice 7 0) (.num 1)
  return (c.slice 7 0).zext ((← arch).bits - 8)

end Exec

end SymExec
