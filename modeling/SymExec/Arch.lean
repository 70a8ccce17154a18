import Std.Data.HashMap
import Std.Data.TreeMap

/-!
# Architectures

What the executor has to know of a processor: word size, byte order and the layout of its registers.
-/

namespace SymExec

inductive Endness where
  | little | big
deriving DecidableEq, Inhabited

def Endness.name : Endness → String
  | .little => "Iend_LE"
  | .big => "Iend_BE"

structure Arch where
  name : String
  bits : Nat
  endness : Endness
  registers : Std.HashMap String (Nat × Nat)
  (ipOffset spOffset bpOffset retOffset : Nat)
  lrOffset : Option Nat
  callPushesRet : Bool := false
  stackChange : Int := -(bits / 8 : Nat)
  instructionAlignment : Nat := 4
  longBits : Nat := bits
  (initialSp syscallNumOffset : Nat)

namespace Arch

variable (a : Arch)

def bytes : Nat := a.bits / 8

def register? (name : String) : Option (Nat × Nat) := a.registers[name]?

def isArm : Bool := a.name.startsWith "ARM"

def isPc : Bool := a.name == "X86" || a.name == "AMD64"

def delaySlot : Bool := a.name.startsWith "MIPS"

/-- Names with their places and sizes. -/
abbrev Layout := List (String × Nat × Nat)

/-- Registers one after the other; the names of one are joined by strokes. -/
def bank (start stride size : Nat) (names : String) : Layout :=
  ((names.splitOn " ").mapIdx fun i ns => (ns.splitOn "/").map fun n => (n, start + stride * i, size)).flatten

def numbered (stem : String) (count start stride size : Nat) : Layout :=
  (List.range count).map fun i => (s!"{stem}{i}", start + stride * i, size)

def pcParts (a c d b : Nat) : Layout :=
  [("a", a), ("c", c), ("d", d), ("b", b)].flatMap fun (n, o) => [(n ++ "x", o, 2), (n ++ "l", o, 1), (n ++ "h", o + 1, 1)]

def amd64Registers : Layout :=
  bank 16 8 8 ("rax rcx rdx rbx rsp/sp rbp/bp rsi rdi r8 r9 r10 r11 r12 r13 r14 r15 cc_op cc_dep1 cc_dep2 cc_ndep d/dflag " ++
    "rip/ip/pc ac/acflag id/idflag fs/fs_const sseround") ++ bank 16 8 4 "eax ecx edx ebx esp ebp esi edi" ++
  pcParts 16 24 32 40 ++ [("spl", 48, 1), ("bpl", 56, 1), ("si", 64, 2), ("sil", 64, 1), ("di", 72, 2), ("dil", 72, 1)] ++
  ((List.range 8).flatMap fun i =>
    [(s!"r{i + 8}d", 80 + 8 * i, 4), (s!"r{i + 8}w", 80 + 8 * i, 2), (s!"r{i + 8}b", 80 + 8 * i, 1)]) ++
  numbered "ymm" 17 224 32 32 ++ numbered "xmm" 17 224 32 16 ++ numbered "cr" 16 768 8 8 ++
  numbered "mm" 8 904 8 8 ++
  [("ftop", 896, 4), ("fpreg", 904, 64), ("fpu_regs", 904, 64), ("fptag", 968, 8), ("fpu_tags", 968, 8),
   ("fpround", 976, 8), ("fc3210", 984, 8), ("emnote", 992, 4)] ++
  bank 1000 8 8 "cmstart cmlen nraddr sc_class gs/gs_const ip_at_syscall"

def x86Registers : Layout :=
  bank 8 4 4 "eax ecx edx ebx esp/sp ebp/bp esi edi cc_op cc_dep1 cc_dep2 cc_ndep d/dflag id/idflag ac/acflag eip/ip/pc" ++
  pcParts 8 12 16 20 ++ [("si", 32, 2), ("di", 36, 2)] ++
  numbered "mm" 8 72 8 8 ++ numbered "xmm" 8 160 16 16 ++
  [("fpreg", 72, 64), ("fpu_regs", 72, 64), ("fptag", 136, 8), ("fpu_tags", 136, 8)] ++ bank 144 4 4 "fpround fc3210 ftop sseround" ++
  bank 288 2 2 "cs ds es fs gs ss" ++ bank 304 8 8 "ldt gdt" ++ bank 320 4 4 "emnote cmstart cmlen nraddr sc_class ip_at_syscall"

def armRegisters : Layout :=
  numbered "r" 13 8 4 4 ++ bank 60 4 4 ("r13/sp/bp r14/lr r15/r15t/pc/ip cc_op cc_dep1 cc_dep2 cc_ndep qflag32 geflag0 geflag1 " ++
    "geflag2 geflag3 emnote cmstart cmlen nraddr ip_at_syscall") ++
  numbered "d" 32 128 8 8 ++ numbered "s" 32 128 4 4 ++ bank 384 4 4 "fpscr tpidruro tpidrurw itstate"

def aarch64Registers : Layout :=
  numbered "x" 29 16 8 8 ++ bank 248 8 8 "x29/fp x30/lr xsp/sp/bp pc/ip cc_op cc_dep1 cc_dep2 cc_ndep tpidr_el0" ++
  numbered "w" 31 16 8 4 ++ numbered "q" 32 320 16 16 ++ numbered "v" 32 320 16 16 ++ numbered "d" 32 320 16 8 ++
  numbered "s" 32 320 16 4 ++ numbered "h" 32 320 16 2 ++ numbered "b" 32 320 16 1 ++
  [("qcflag", 832, 16), ("emnote", 848, 4)] ++ bank 856 8 8 "cmstart cmlen nraddr ip_at_syscall" ++ [("fpcr", 888, 4)]

def mipsNames : String :=
  "zero/r0 at/r1 v0/r2 v1/r3 a0/r4 a1/r5 a2/r6 a3/r7 t0/r8 t1/r9 t2/r10 t3/r11 t4/r12 t5/r13 t6/r14 t7/r15 s0/r16 s1/r17 s2/r18 " ++
  "s3/r19 s4/r20 s5/r21 s6/r22 s7/r23 t8/r24 t9/r25 k0/r26 k1/r27 gp/r28 sp/r29 s8/r30/fp/bp ra/r31/lr pc/ip hi lo"

def mips32Registers : Layout :=
  bank 8 4 4 mipsNames ++ numbered "f" 32 152 8 8 ++
  bank 408 4 4 "fir fccr fexr fenr fcsr cp0_status ulr emnote cmstart cmlen nraddr cond dspcontrol" ++
  numbered "ac" 4 464 8 8 ++ [("ip_at_syscall", 496, 4)]

def mips64Registers : Layout :=
  bank 16 8 8 mipsNames ++ numbered "f" 32 296 8 8 ++ bank 552 4 4 "fir fccr fexr fenr fcsr cp0_status" ++
  bank 576 8 8 "ulr emnote cmstart cmlen nraddr cond ip_at_syscall"

/-- The registers that both kinds of PowerPC have: words from 16 on, and others from two places on. -/
def ppcShared (word vectors flags : Nat) : Layout :=
  numbered "r" 32 16 word word ++ [("sp", 16 + word, word), ("bp", 16 + 31 * word, word)] ++
  numbered "vsr" 64 vectors 16 16 ++ numbered "v" 32 (vectors + 512) 16 16 ++ numbered "fpr" 32 vectors 16 8 ++
  bank (flags - 3 * word) word word "pc/ip/cia lr ctr" ++
  bank flags 1 1 ("xer_so xer_ov xer_ca xer_bc cr0_321 cr0_0/cr0 cr1_321 cr1_0/cr1 cr2_321 cr2_0/cr2 cr3_321 cr3_0/cr3 cr4_321 " ++
    "cr4_0/cr4 cr5_321 cr5_0/cr5 cr6_321 cr6_0/cr6 cr7_321 cr7_0/cr7 fpround dfpround c_fpcc")

def ppc32Registers : Layout :=
  ppcShared 4 144 1180 ++ bank 1204 4 4 "vrsave vscr emnote cmstart cmlen nraddr nraddr_gpr2 redir_sp" ++
  bank 1364 4 4 "ip_at_syscall sprg3_ro"

def ppc64Registers : Layout :=
  ppcShared 8 272 1320 ++ bank 1344 4 4 "vrsave vscr emnote" ++ bank 1360 8 8 "cmstart cmlen nraddr nraddr_gpr2 redir_sp" ++
  bank 1664 8 8 "ip_at_syscall sprg3_ro"

def amd64 : Arch where
  name := "AMD64"
  bits := 64
  endness := .little
  registers := .ofList amd64Registers
  ipOffset := 184
  spOffset := 48
  bpOffset := 56
  retOffset := 16
  lrOffset := none
  callPushesRet := true
  instructionAlignment := 1
  initialSp := 0x7ffffffffff0000
  syscallNumOffset := 16

def x86 : Arch where
  name := "X86"
  bits := 32
  endness := .little
  registers := .ofList x86Registers
  ipOffset := 68
  spOffset := 24
  bpOffset := 28
  retOffset := 8
  lrOffset := none
  callPushesRet := true
  instructionAlignment := 1
  initialSp := 0x7fff0000
  syscallNumOffset := 8

def armel : Arch where
  name := "ARMEL"
  bits := 32
  endness := .little
  registers := .ofList armRegisters
  ipOffset := 68
  spOffset := 60
  bpOffset := 60
  retOffset := 8
  lrOffset := some 64
  initialSp := 0x7fff0000
  syscallNumOffset := 36

def armhf : Arch := { armel with name := "ARMHF" }

def aarch64 : Arch where
  name := "AARCH64"
  bits := 64
  endness := .little
  registers := .ofList aarch64Registers
  ipOffset := 272
  spOffset := 264
  bpOffset := 264
  retOffset := 16
  lrOffset := some 256
  initialSp := 0x7ffffffffff0000
  syscallNumOffset := 80

def mips32 : Arch where
  name := "MIPS32"
  bits := 32
  endness := .big
  registers := .ofList mips32Registers
  ipOffset := 136
  spOffset := 124
  bpOffset := 128
  retOffset := 16
  lrOffset := some 132
  initialSp := 0x7fff0000
  syscallNumOffset := 16

def mipsel : Arch := { mips32 with endness := .little }

def mips64 : Arch where
  name := "MIPS64"
  bits := 64
  endness := .big
  registers := .ofList mips64Registers
  ipOffset := 272
  spOffset := 248
  bpOffset := 256
  retOffset := 32
  lrOffset := some 264
  initialSp := 0xffffffffff000000
  syscallNumOffset := 32

def ppc32 : Arch where
  name := "PPC32"
  bits := 32
  endness := .big
  registers := .ofList ppc32Registers
  ipOffset := 1168
  spOffset := 20
  bpOffset := 140
  retOffset := 28
  lrOffset := some 1172
  initialSp := 0x7fff0000
  syscallNumOffset := 16

def ppc64 : Arch where
  name := "PPC64"
  bits := 64
  endness := .big
  registers := .ofList ppc64Registers
  ipOffset := 1296
  spOffset := 24
  bpOffset := 264
  retOffset := 40
  lrOffset := some 1304
  initialSp := 0xffffffffff000000
  syscallNumOffset := 16

def ofName? : String → Option Arch
  | "AMD64" => some amd64
  | "X86" => some x86
  | "ARMEL" => some armel
  | "ARMHF" => some armhf
  | "AARCH64" => some aarch64
  | "MIPS32" => some mips32
  | "MIPSEL" => some mipsel
  | "MIPS64" => some mips64
  | "PPC32" => some ppc32
  | "PPC64" => some ppc64
  | _ => none

end Arch

end SymExec
