import SymExec.Engine.Run
import SymExec.Library.Numbers
import SymExec.Library.Prototypes

/-!
# Libraries

A library gives procedures by name and knows prototypes, conventions and which functions do not return.
-/

namespace SymExec

open Table (put putAll)

structure Prototype where
  type : CType
  structs : Structs := #[]

namespace Prototype

def text (p : Prototype) : String := p.type.text p.structs none

def parts? (p : Prototype) : Option (List CType × CType) :=
  match p.type with
  | .func args ret _ => some (args, ret)
  | _ => none

def ofArity (n : Nat) : Prototype := { type := .func (.replicate n (.int .long true)) (.int .long true) false }

end Prototype

structure Stocked where
  procedure : Procedure
  conv : Option CallConv := none
  prototype : Option Prototype := none
  /-- What stands for the number of a system call, and the kind of machine that knows it. -/
  abi : Option String := none

structure Library where
  procedures : List (String × Stocked) := []
  nonReturning : List String := []
  prototypes : List (String × Prototype) := []
  convs : List (String × CallConv) := []
  names : List String := []
  system : Bool := false
  tables : List (String × Nat) := []
  abiConvs : List (String × CallConv) := []

namespace Library

variable (l : Library)

def name : String := l.names.headD "??????"

variable (name : String)

def add (s : Stocked) : Library := { l with procedures := put name { s with procedure.display := name } l.procedures }

def addKind (k : ProcedureKind) : Library := l.add name { procedure := .ofKind k }

def addFamily (family : String) : Library :=
  (ProcedureKind.all.filter (·.library == family)).foldl (fun l k => l.addKind k.name k) l

def addAlias (others : List String) : Try Library := do
  let s ← orRaise (l.procedures.lookup name) .badKey
  return others.foldl (fun l other => l.add other s) l

def setNonReturning (names : List String) : Library :=
  { l with nonReturning := l.nonReturning ++ names.filter fun n => !l.nonReturning.contains n }

def setPrototype (p : Prototype) : Library := { l with prototypes := put name p l.prototypes }

variable (arch : Arch)

def setConv (c : CallConv) : Library := { l with convs := put arch.name c l.convs }

def update (l other : Library) : Library :=
  { l with
    procedures := putAll l.procedures other.procedures
    nonReturning := (l.setNonReturning other.nonReturning).nonReturning
    prototypes := putAll l.prototypes other.prototypes
    convs := putAll l.convs other.convs }

def describe (s : Stocked) : Try Stocked := do
  let conv := s.conv <|> l.convs.lookup arch.name
  let shown := s.procedure.display
  let p := { s.procedure with
    returns := s.procedure.returns && !l.nonReturning.contains shown
    libraryName := some l.name }
  let some proto := l.prototypes.lookup shown | return { s with procedure := p, conv }
  let some (args, _) := proto.parts? | raise .badAttribute
  return { s with
    procedure := { p with numArgs := args.length }
    conv := some (conv.getD (.ofArch arch))
    prototype := some proto }

def stub (name : String) : Try Stocked := do
  let kind := if l.system then "syscall" else "ReturnUnconstrained"
  let p ← orRaise (Procedure.ofName? "stubs" kind) .badKey
  l.describe arch { procedure := { p with display := name, isStub := true } }

def find (name : String) : Try Stocked :=
  match l.procedures.lookup name with
  | some s => l.describe arch s
  | none => l.stub arch name

def implements : Bool := l.procedures.any (·.1 = name)

def hasPrototype : Bool := l.prototypes.any (·.1 = name)

def mentions : Bool := l.implements name || l.nonReturning.contains name || l.hasPrototype name

end Library

abbrev NumberTable := List (Int × String)

structure Shelf where
  libraries : Array Library := #[]
  places : List (String × Nat) := []
  tables : Array NumberTable := #[]

inductive CallKey where
  | number (n : Int)
  | named (s : String)

namespace Shelf

variable (s : Shelf)

def place? (name : String) : Option Nat := s.places.lookup name

variable (i : Nat)

def library : Library := s.libraries.getD i {}

def set (l : Library) : Shelf := { s with libraries := s.libraries.setIfInBounds i l }

def insert (name : String) (l : Library) : Shelf :=
  { s with libraries := s.libraries.push l, places := put name s.libraries.size s.places }

def addNames (names : List String) : Shelf :=
  let l := s.library i
  { s.set i { l with names := l.names ++ names } with places := names.foldl (fun t n => put n i t) s.places }

variable (abi : String)

def tableOf : Nat × Shelf :=
  let l := s.library i
  match l.tables.lookup abi with
  | some t => (t, s)
  | none =>
    let t := s.tables.size
    (t, { s.set i { l with tables := put abi t l.tables } with tables := s.tables.push [] })

def addNumbers (entries : List (Int × String)) : Shelf :=
  let (t, s) := s.tableOf i abi
  let put (table : NumberTable) (e : Int × String) := e :: table.filter (·.1 ≠ e.1)
  { s with tables := s.tables.modify t fun table => entries.foldl put table }

def numberRange : Int × Int :=
  match ((s.library i).tables.lookup abi).bind fun t => s.tables[t]? with
  | some ((n, _) :: rest) => (rest.foldl (fun m e => min m e.1) n, rest.foldl (fun m e => max m e.1) n)
  | _ => (0, 0)

/-- The name of a system call and the first of some kinds of machines that knows it. -/
def resolve (s : Shelf) (i : Nat) (key : CallKey) : List String → (String × Option String) × Shelf
  | [] =>
    match key with
    | .named n => ((n, none), s)
    | .number n => (("sys_" ++ toString n, none), s)
  | abi :: rest =>
    match key with
    | .named n => ((n, none), s)
    | .number n =>
      let (t, s) := s.tableOf i abi
      match (s.tables.getD t []).lookup n with
      | some name => ((name, some abi), s)
      | none => s.resolve i key rest

def findCall (arch : Arch) (key : CallKey) (abis : List String) (stub : Bool) : Try Stocked × Shelf :=
  let ((name, abi), s) := s.resolve i key abis
  let l := s.library i
  let found := do
    let p ← if stub then l.stub arch name else l.find arch name
    let p := { p with abi }
    match abi.bind fun a => l.abiConvs.lookup a with
    | none => return p
    | some c => return { p with conv := some c }
  (found, s)

def copy (name : String) : Shelf := s.insert name (s.library i)

def update (s : Shelf) (i j : Nat) : Try Shelf × Shelf :=
  let l := s.library i
  let other := s.library j
  let plain := l.update other
  if !l.system then (.ok (s.set i plain), s)
  else if !other.system then (raise .badAttribute, s.set i plain)
  else
    let full := { plain with
      tables := putAll plain.tables other.tables
      abiConvs := putAll plain.abiConvs other.abiConvs }
    (.ok (s.set i full), s)

end Shelf

/-! ### Libraries that are there from the start -/

namespace Library

def ofFamilies (families : List String) (system : Bool) : Library := families.foldl addFamily { system }

variable (l : Library)

def withAlias (name : String) (others : List String) : Library := (l.addAlias name others).toOption.getD l

def withKinds (kinds : List (String × String × String)) : Library :=
  kinds.foldl (fun l (name, family, kind) =>
    match ProcedureKind.find? family kind with
    | some k => l.addKind name k
    | none => l) l

def withConvs (convs : List (String × String)) : Library :=
  convs.foldl (fun l (arch, conv) =>
    match CallConv.ofName? conv with
    | some c => { l with convs := put arch c l.convs }
    | none => l) l

def withArities (functions : List (String × Nat)) : Library :=
  { l with prototypes := l.prototypes ++ functions.map fun (n, arity) => (n, Prototype.ofArity arity) }

def standardC : Library :=
  ((((ofFamilies ["libc", "posix", "glibc"] false).withAlias "abort" ["__assert_fail", "__stack_chk_fail"]).withAlias
    "memcpy" ["memmove", "bcopy"]).withAlias "getc" ["_IO_getc"]).withAlias "putc" ["_IO_putc"]
    |>.setNonReturning ["exit_group", "exit", "abort", "pthread_exit", "__assert_fail", "longjmp", "siglongjmp",
      "__longjmp_chk", "__siglongjmp_chk"]

def loader : Library := ofFamilies ["linux_loader"] false

def visualC : Library :=
  ((ofFamilies ["libc", "msvcr"] false).setNonReturning ["_exit", "abort", "exit", "_invoke_watson"]
    |>.withAlias "_initterm" ["_initterm_e"]).withConvs [("AMD64", "SimCCMicrosoftAMD64")]

def nativeWindows : Library :=
  ((ofFamilies ["ntdll"] false).withConvs [("X86", "SimCCStdcall")]).withKinds
    [("RtlEncodePointer", "win32", "EncodePointer"), ("RtlDecodePointer", "win32", "EncodePointer"),
      ("RtlAllocateHeap", "win32", "HeapAlloc")]

def windowsUser : Library :=
  let l := (ofFamilies ["win_user32"] false).withConvs [("X86", "SimCCStdcall")]
  match ProcedureKind.find? "libc" "sprintf" with
  | some k => l.add "wsprintfA" { procedure := .ofKind k, conv := CallConv.ofName? "SimCCCdecl" }
  | none => l

def windowsKernel : Library :=
  ((((ofFamilies ["win32"] false).withConvs [("X86", "SimCCStdcall"), ("AMD64", "SimCCMicrosoftAMD64")]).withAlias
    "EncodePointer" ["DecodePointer"]).withAlias "GlobalAlloc" ["LocalAlloc"]
    |>.withKinds [("lstrcatA", "libc", "strcat"), ("lstrcmpA", "libc", "strcmp"), ("lstrcpyA", "libc", "strcpy"),
      ("lstrcpynA", "libc", "strncpy"), ("lstrlenA", "libc", "strlen")]).withArities WindowsFunctions.kernel

def windowsSecurity : Library :=
  ((ofFamilies ["advapi32"] false).withConvs [("X86", "SimCCStdcall"), ("AMD64", "SimCCMicrosoftAMD64")]).withArities
    WindowsFunctions.security

def challenge : Library := ofFamilies ["cgc"] true

def challengeTracer : Library := ofFamilies ["tracer"] true

def linuxKernel : Library := (ofFamilies ["linux_kernel"] true).withAlias "exit" ["exit_group"]

end Library

def Shelf.initial : Shelf :=
  let put (s : Shelf) (l : Library) (names : List String) : Shelf :=
    let i := s.libraries.size
    { s with libraries := s.libraries.push l }.addNames i names
  let s := put {} .standardC ["libc.so.6", "libc.so.0", "libc.so"]
  let s := put s .loader ["ld.so", "ld-linux.so", "ld.so.2", "ld-linux.so.2", "ld-linux-x86_64.so.2"]
  let s := put s .visualC ["msvcrt.dll", "msvcr71.dll", "msvcr100.dll", "msvcr110.dll", "msvcrt20.dll", "msvcrt40.dll", "msvcr120.dll"]
  let s := put s .nativeWindows ["ntdll.dll"]
  let s := put s .windowsUser ["user32.dll"]
  let s := put s .windowsKernel ["kernel32.dll"]
  let s := put s .windowsSecurity ["advapi32.dll"]
  let s := put s .challengeTracer ["cgcabi_tracer"]
  let c := s.libraries.size
  let s := (put s .challenge ["cgcabi"]).addNumbers c "cgcabi"
    [(1, "_terminate"), (2, "transmit"), (3, "receive"), (4, "fdwait"), (5, "allocate"), (6, "deallocate"), (7, "random")]
  let k := s.libraries.size
  SystemCalls.byMachine.foldl (fun s (abi, table) => s.addNumbers k abi (table.map fun (n, name) => ((n : Int), name)))
    (put s .linuxKernel ["linux"])

end SymExec
