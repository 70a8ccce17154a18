import SymExec.CTypes.Basic

/-!
# Calling conventions

Where the arguments, the return value and the return address of a call lie.
-/

namespace SymExec

inductive ArgLoc where
  | reg (name : String) (size : Nat)
  | stack (offset : Int) (size : Nat)
  /-- The top of the stack of floating point registers, which holds 8 bytes whatever is put there. -/
  | floatTop (name : String)
  | combo (locs : List ArgLoc)

def signedHex (i : Int) : String := (if i < 0 then "-" else "") ++ "0x" ++ String.ofList (Nat.toDigits 16 i.natAbs)

namespace ArgLoc

mutual

def size : ArgLoc → Nat
  | .reg _ n | .stack _ n => n
  | .floatTop _ => 8
  | .combo ls => sizes ls

def sizes : List ArgLoc → Nat
  | [] => 0
  | l :: ls => l.size + sizes ls

end

mutual

def text : ArgLoc → String
  | .reg n _ | .floatTop n => "<" ++ n ++ ">"
  | .stack o _ => "[" ++ signedHex o ++ "]"
  | .combo ls => "SimComboArg([" ++ ", ".intercalate (texts ls) ++ "])"

def texts : List ArgLoc → List String
  | [] => []
  | l :: ls => l.text :: texts ls

end

mutual

def same : ArgLoc → ArgLoc → Bool
  | .reg n _, .reg m _ | .reg n _, .floatTop m | .floatTop n, .reg m _ => n == m
  | .stack o _, .stack p _ => o == p
  | .combo ls, .combo ms => sameAll ls ms
  | _, _ => false

def sameAll : List ArgLoc → List ArgLoc → Bool
  | l :: ls, m :: ms => l.same m && sameAll ls ms
  | _, _ => true

end

end ArgLoc

inductive Recognition where
  /-- All places are places of arguments, and the stack changes by the size of the return address. -/
  | byPlaces
  /-- The same whatever the stack does; the place of the return address is passed over. -/
  | byPlacesLoosely
  | never
  | always
deriving DecidableEq

structure CallConv where
  name : String
  (arches argRegs floatRegs : Option (List String) := none)
  (shadow retBytes : Nat := 0)
  (retAddr retVal floatRetVal : Option ArgLoc := none)
  calleeCleanup : Bool := false
  alignment : Nat := 1
  recognition : Recognition := .byPlaces
  callNumber : Option String := none

namespace CallConv

def arm : List String := ["ARMEL", "ARMHF"]

variable (n : String)

def r4 : Option ArgLoc := some (.reg n 4)
def r8 : Option ArgLoc := some (.reg n 8)

def cdecl : CallConv where
  name := "SimCCCdecl"
  arches := some ["X86"]
  argRegs := some []
  floatRegs := some []
  retBytes := 4
  retVal := r4 "eax"
  floatRetVal := some (.floatTop "st0")
  retAddr := some (.stack 0 4)

def stdcall : CallConv := { cdecl with name := "SimCCStdcall", calleeCleanup := true }

def amd64 (args : List String) (floats : Nat) : CallConv where
  name := n
  arches := some ["AMD64"]
  argRegs := some args
  floatRegs := some ((List.range floats).map fun i => s!"xmm{i}")
  retBytes := 8
  retVal := r8 "rax"
  floatRetVal := some (.reg "xmm0" 32)
  retAddr := some (.stack 0 8)

def microsoft64 : CallConv := { amd64 "SimCCMicrosoftAMD64" ["rcx", "rdx", "r8", "r9"] 4 with shadow := 32 }

def systemV64 : CallConv :=
  { amd64 "SimCCSystemVAMD64" ["rdi", "rsi", "rdx", "rcx", "r8", "r9"] 8 with alignment := 16, recognition := .byPlacesLoosely }

def systemCall (name : String) (arches : List String) (word : Nat) (args : List String) (ret number : String)
    (floats : Option (List String) := some []) : CallConv where
  name
  arches := some arches
  argRegs := some args
  floatRegs := floats
  retVal := some (.reg ret word)
  retAddr := some (.reg "ip_at_syscall" word)
  recognition := .never
  callNumber := some number

def linked (name : String) (arches : List String) (word : Nat) (args : List String) (ret : String) (shadow : Nat := 0) : CallConv where
  name
  arches := some arches
  argRegs := some args
  floatRegs := some []
  shadow
  retAddr := some (.reg "lr" word)
  retVal := some (.reg ret word)

def armArgs : List String := ["r0", "r1", "r2", "r3"]
def arm64Args : List String := ["x0", "x1", "x2", "x3", "x4", "x5", "x6", "x7"]
def mipsArgs : List String := ["a0", "a1", "a2", "a3"]
def powerArgs : List String := ["r3", "r4", "r5", "r6", "r7", "r8", "r9", "r10"]

def unknown : CallConv := { name := "SimCCUnknown", recognition := .always }

def every : List CallConv := [
  cdecl, stdcall, microsoft64,
  systemCall "SimCCX86LinuxSyscall" ["X86"] 4 ["ebx", "ecx", "edx", "esi", "edi", "ebp"] "eax" "eax",
  systemCall "SimCCX86WindowsSyscall" ["X86"] 4 [] "eax" "eax",
  systemV64,
  systemCall "SimCCAMD64LinuxSyscall" ["AMD64"] 8 ["rdi", "rsi", "rdx", "r10", "r8", "r9"] "rax" "rax" none,
  systemCall "SimCCAMD64WindowsSyscall" ["AMD64"] 8 [] "rax" "rax",
  linked "SimCCARM" arm 4 armArgs "r0",
  systemCall "SimCCARMLinuxSyscall" arm 4 armArgs "r0" "r7",
  linked "SimCCAArch64" ["AARCH64"] 8 arm64Args "x0",
  systemCall "SimCCAArch64LinuxSyscall" ["AARCH64"] 8 arm64Args "x0" "x8",
  linked "SimCCO32" ["MIPS32"] 4 mipsArgs "v0" 16,
  systemCall "SimCCO32LinuxSyscall" ["MIPS32"] 4 mipsArgs "v0" "v0",
  linked "SimCCO64" ["MIPS64"] 8 mipsArgs "v0" 32,
  systemCall "SimCCO64LinuxSyscall" ["MIPS64"] 8 mipsArgs "v0" "v0",
  linked "SimCCPowerPC" ["PPC32"] 4 powerArgs "r3" 8,
  systemCall "SimCCPowerPCLinuxSyscall" ["PPC32"] 4 powerArgs "r3" "r0",
  linked "SimCCPowerPC64" ["PPC64"] 8 powerArgs "r3" 0x70,
  systemCall "SimCCPowerPC64LinuxSyscall" ["PPC64"] 8 [] "r3" "r0",
  unknown,
  { name := "SimCC" }]

def ofName? : Option CallConv := every.find? (·.name == n)

variable (a : Arch)

def ofArch : CallConv :=
  let name := match a.name with
    | "X86" => "SimCCCdecl"
    | "ARMEL" | "ARMHF" => "SimCCARM"
    | "MIPS32" => "SimCCO32"
    | "MIPS64" => "SimCCO64"
    | "PPC32" => "SimCCPowerPC"
    | "PPC64" => "SimCCPowerPC64"
    | "AARCH64" => "SimCCAArch64"
    | _ => "SimCCSystemVAMD64"
  (ofName? name).getD systemV64

def ofSystem? (os : String) : Option CallConv :=
  match a.name, os with
  | "X86", "Windows" => ofName? "SimCCX86WindowsSyscall"
  | "X86", "CGC" => ofName? "SimCCX86LinuxSyscall"
  | "AMD64", "Windows" => ofName? "SimCCAMD64WindowsSyscall"
  | n, "default" | n, "Linux" =>
    every.find? fun c => c.callNumber.isSome && (c.arches.getD []).contains n && c.name.endsWith "LinuxSyscall"
  | _, _ => none

variable (c : CallConv)

def intLocs (a : Arch) : Try (List ArgLoc) := do
  let rs ← orRaise c.argRegs .notImplemented
  return rs.map (.reg · a.bytes)

def floatLoc (r : String) : Try ArgLoc := do
  let (_, n) ← orRaise (a.register? r) .badKey
  return .reg r n

def stackLoc (a : Arch) (i : Nat) : ArgLoc := .stack (c.shadow + c.retBytes + i * a.bytes : Nat) a.bytes

def amongFloats (l : ArgLoc) : List String → Try Bool
  | [] => .ok false
  | r :: rs => do if l.same (← floatLoc a r) then return true else amongFloats l rs

def holdsFloat (a : Arch) (l : ArgLoc) : Try (Option Bool) := do
  if (← c.intLocs a).any l.same then return some false
  let rs ← orRaise c.floatRegs .notImplemented
  if ← amongFloats a l rs then return some true
  match c.floatRetVal with
  | some f => return if l.same f then some true else none
  | none => return none

def stackSpace (a : Arch) (ls : List ArgLoc) : Int :=
  ls.foldl (fun out l => match l with | .stack o _ => max out (o + a.bytes) | _ => out) (c.retBytes : Int) + c.shadow

def recognises (a : Arch) (ls : List ArgLoc) (delta : Int) : Try Bool := do
  match c.recognition with
  | .never => return false
  | .always => return true
  | r =>
    if !(c.arches.all (·.contains a.name)) then return false
    if r = .byPlaces && delta != c.retBytes then return false
    let floats ← match c.floatRegs with
      | none => raise .notImplemented
      | some rs => rs.mapM (floatLoc a)
    let known := floats ++ (← c.intLocs a) ++ (List.range ls.length).map (c.stackLoc a)
    let passed : ArgLoc → Bool
      | .stack 0 _ => r = .byPlacesLoosely
      | _ => false
    return ls.all fun l => known.any l.same || passed l

end CallConv

structure Signature where
  conv : CallConv
  arch : Arch
  args : Option (List ArgLoc) := none
  ret : Option ArgLoc := none
  func : Option (List CType × CType) := none
  structs : Structs := #[]

namespace Signature

variable (conv : CallConv) (arch : Arch)

def make (args : Option (List ArgLoc) := none) (ret : Option ArgLoc := none)
    (func : Option (List CType × CType) := none) (structs : Structs := #[]) : Signature where
  conv
  arch
  args :=
    if conv.recognition = .byPlacesLoosely then args.map (·.filter fun l => match l with | .stack 0 _ => false | _ => true)
    else args
  ret
  func
  structs

structure Places where
  told : Option (List ArgLoc)
  ints : Try (List ArgLoc)
  floats : Option (List String)
  onStack : Nat := 0

variable (s : Signature)

def places : Places where
  told := s.args
  ints := s.conv.intLocs s.arch
  floats := s.conv.floatRegs

def nextPlace (float : Bool) (p : Places) : Try (ArgLoc × Places) := do
  match p.told with
  | some [] => raise .badType
  | some (l :: ls) =>
    let holds ← s.conv.holdsFloat s.arch l
    if holds == some !float then raise .badType
    return (l, { p with told := some ls })
  | none =>
    let onStack := (s.conv.stackLoc s.arch p.onStack, { p with onStack := p.onStack + 1 })
    if float then
      match p.floats with
      | none => raise .notImplemented
      | some [] => return onStack
      | some (r :: rs) => return (← CallConv.floatLoc s.arch r, { p with floats := some rs })
    else
      match ← p.ints with
      | [] => return onStack
      | l :: ls => return (l, { p with ints := .ok ls })

def fillPlaces (size : Nat) : Nat → Nat → List ArgLoc → Places → Try (List ArgLoc × Places)
  | 0, _, ls, p => return (ls, p)
  | n + 1, have_, ls, p => do
    if size ≤ have_ then return (ls, p)
    let (l, p) ← s.nextPlace true p
    fillPlaces size n (have_ + l.size) (ls ++ [l]) p

def place (float : Bool) (size : Option Nat) (p : Places) : Try (ArgLoc × Places) := do
  let (l, p) ← s.nextPlace float p
  let some n := size | return (l, p)
  if n ≤ l.size then return (l, p)
  match float, l with
  | true, .stack .. =>
    let (ls, p) ← s.fillPlaces n n l.size [l] p
    return (.combo ls, p)
  | _, _ => raise .badValue

def placeAll : List (Bool × Option Nat) → Places → Try (List ArgLoc × Places)
  | [], p => .ok ([], p)
  | (f, n) :: rest, p => do
    let (l, p) ← s.place f n p
    let (ls, p) ← placeAll rest p
    return (l :: ls, p)

variable (floats : List Bool)

def argLocs (sizes : Option (List Nat) := none) : Try (List ArgLoc) := do
  let sizes := sizes.getD (floats.map fun _ => s.arch.bytes)
  return (← s.placeAll (floats.zip (sizes.map some)) s.places).1

def plainLocs : Try (List ArgLoc) := do
  return (← s.placeAll (floats.map (·, none)) s.places).1

def ofKinds (retFloat : Bool) (sizes : Option (List Nat)) :
    Try Signature := do
  let basic := make conv arch
  let args ← basic.argLocs floats sizes
  return { basic with args := some args, ret := if retFloat then conv.floatRetVal else conv.retVal }

end Signature

end SymExec
