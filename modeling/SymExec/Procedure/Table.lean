import SymExec.Procedure.Challenge
import SymExec.Procedure.Startup

/-!
# The procedures by library

Every procedure by the library it belongs to and its name.
-/

namespace SymExec

open Exec

namespace ProcedureKind

def bits (act : Exec Bits) : Exec Value := return .bits (← act)

def nat (act : Exec Nat) : Exec Value := return .ofNat (← act)

def constant (i : Int) : Exec Value := return .int i

def zero : Exec Value := return .bits (← word 0)

variable (name : String)

def unknown : Exec Value := do return .bits (← unconstrained name (← arch).bits)

def moveCase (lo hi : Nat) (by' : Int) (c : Bits) : Exec Value :=
  return .bits (.mkIte (.mkAnd (.uge c (.ofNat c.width lo)) (.ule c (.ofNat c.width hi))) (c.addInt by') c)

def formatted (c : Invocation) (format : Nat) : Exec (Option Bits) := do
  let ps ← readFormat (← c.arg format)
  printFormat ps (format + 1) c.arg

def printfBody (format : Nat) : Body := fun c => do
  if !c.args.isEmpty then throw Body.wrongCount
  return .done (← printTo (.num 1) (← formatted c format))

def fprintfBody : Body := fun c => do
  match c.args with
  | [stream] =>
    let out ← printed (← formatted c 1)
    let fd ← streamFd (← stream.vector)
    return .done (← printTo fd (some out))
  | _ => throw Body.wrongCount

def sprintfBody (format : Nat) : Body := fun c => do
  match c.args with
  | dst :: rest =>
    if rest.length + 1 ≠ format then throw Body.wrongCount
    let out ← formatted c format
    return .done (← printAt (← dst.vector) out)
  | _ => throw Body.wrongCount

def scanfBody : Body := fun c => do
  if c.args.length ≠ 1 then throw Body.wrongCount
  let ps ← readFormat (← c.arg 0)
  let i ← fileOf (.num 0)
  let start := (← file i).pos.toBits (← arch).bits
  let (stop, items) ← scanFormat ps (.file i) start 1 c.arg
  let _ ← readBytes (← fileOf (.num 0)) (stop.sub start)
  return .done (.bits items)

def sscanfBody : Body := fun c => do
  if c.args.length ≠ 2 then throw Body.wrongCount
  let ps ← readFormat (← c.arg 1)
  let (_, items) ← scanFormat ps .memory (← c.arg 0) 2 c.arg
  return .done (.bits items)

def exitBody : Body := fun c => do
  match c.args with
  | [code] => return .exit code
  | _ => throw Body.wrongCount

def temporaryName (place : Bits) : Exec Value := do
  if (← eval place) ≠ 0 then return .bits place
  let addr ← mallocNat 20
  poke addr (.ofBytes (bytesOf "/tmp/tmp00000000" ++ [0]))
  return .ofNat addr

def noRun : Body := fun _ => refuse .procedure (name ++ " does not implement a run() method")

def kind (numArgs : Nat) (run : Body) : ProcedureKind where
  library := ""
  name := name
  numArgs := numArgs
  run := run

def fn (numArgs : Nat) (f : Body.Fn numArgs) : ProcedureKind := kind name numArgs (.run numArgs f)

def ofLibrary (library : String) (kinds : List ProcedureKind) : List ProcedureKind := kinds.map ({ · with library })

def final (k : ProcedureKind) : ProcedureKind := { k with noReturn := true }

def abstract : ProcedureKind := { kind name 0 (noRun name) with options := none }

def systemCalls (library : String) (kinds : List ProcedureKind) : List ProcedureKind :=
  ofLibrary library (kinds.map ({ · with isSyscall := true }))

def cLibrary : List ProcedureKind := ofLibrary "libc" [
  final (kind "abort" 0 (fun _ => return .exit (.int 1))),
  fn "atoi" 1 fun s => bits (atoi s),
  fn "calloc" 2 fun k n => nat (calloc k n),
  final (kind "exit" 1 exitBody),
  fn "fclose" 1 fclose,
  fn "feof" 1 feof,
  fn "fflush" 1 fun _ => zero,
  fn "fgetc" 1 fun s => bits (fgetc s),
  { fn "getc" 1 fun s => bits (fgetc s) with display := "fgetc" },
  fn "fgets" 3 fun d n s => bits (fgets d n s),
  fn "fopen" 2 fopen,
  kind "fprintf" 1 fprintfBody,
  fn "fputc" 2 fun c s => bits (fputc c s),
  { fn "putc" 2 fun c s => bits (fputc c s) with display := "fputc" },
  fn "fputs" 2 fputs,
  fn "fread" 4 fun d n k s => bits (fread d n k s),
  fn "free" 1 fun _ => unknown "free",
  fn "fseek" 3 fseek,
  fn "ftell" 1 ftell,
  fn "fwrite" 4 fun d n k s => bits (fwrite d n k s),
  fn "getchar" 0 (bits getchar),
  fn "malloc" 1 fun n => nat (malloc n),
  fn "memcmp" 3 fun a b n => bits (memcmp a b n),
  fn "memcpy" 3 fun d s n => do memcpy d s n; return .bits d,
  fn "memset" 3 fun d c n => do memset d c n; return .bits d,
  fn "perror" 1 perror,
  kind "printf" 0 (printfBody 0),
  kind "__printf_chk" 0 (printfBody 1),
  fn "putchar" 1 fun c => bits (putchar c),
  fn "puts" 1 puts,
  fn "rand" 0 do return .bits ((← freshSymbol "rand" 31).zext ((← arch).bits - 31)),
  fn "realloc" 2 fun p n => nat (realloc p n),
  fn "rewind" 1 rewind,
  kind "scanf" 1 scanfBody,
  fn "setvbuf" 4 fun _ _ _ _ => constant 0,
  kind "snprintf" 2 (sprintfBody 2),
  kind "sprintf" 1 (sprintfBody 1),
  kind "srand" 1 (fun c => if c.args.length = 1 then return .ret .null else throw Body.wrongCount),
  kind "sscanf" 2 sscanfBody,
  fn "strcat" 2 fun d s => bits (strcat d s),
  fn "strchr" 2 strchr,
  fn "strcmp" 2 fun a b => bits (strcmp a b),
  fn "strcpy" 2 fun d s => bits (strcpy d s),
  fn "strlen" 1 fun s => do return .bits (← strlen s).length,
  fn "strncmp" 3 fun a b n => bits (strncmp a b n),
  fn "strncpy" 3 fun d s n => bits (strncpy d s n),
  fn "strstr" 2 strstr,
  fn "strtol" 3 fun s e b => bits (strtol s e b),
  fn "system" 1 fun _ => do return .bits ((← unconstrained "system_returncode" 8).zext ((← arch).bits - 8)),
  fn "tmpnam" 1 temporaryName,
  fn "tolower" 1 (moveCase 65 90 32),
  fn "toupper" 1 (moveCase 97 122 (-32)),
  fn "ungetc" 2 fun c s => bits (ungetc c s),
  fn "vsnprintf" 4 fun s n _ _ => do
    poke s (.lit 8 0)
    return .bits (n.addInt (-1)),
  abstract "FormatParser"]

def touchArg : Body := fun c => do
  let _ ← c.arg 0
  return .done .null

def receive (fd dst length : Bits) : Exec Value := do
  return (← readFd fd dst (.num (← eval length))).toValue

def posixLibrary : List ProcedureKind := ofLibrary "posix" [
  kind "accept" 1 (fun c => do
    match c.args with
    | [fd] => return .done (← acceptSocket (← fd.vector) (← c.arg 1))
    | _ => throw Body.wrongCount),
  fn "bind" 1 fun _ => unknown "bind",
  fn "close" 1 fun fd => do let _ ← closeFd fd; zero,
  fn "closedir" 1 fun fd => do let _ ← closeFd fd; zero,
  fn "fdopen" 2 fdopen,
  fn "fileno" 1 fun s => nat (fileno s),
  fn "fork" 0 forkProcess,
  fn "gethostbyname" 1 fun _ => gethostbyname,
  fn "getpass" 1 getpass,
  fn "htons" 1 fun v => bits (toNetworkOrder v),
  fn "inet_ntoa" 1 fun _ => unknown "inet_ntoa_ret",
  fn "listen" 2 fun _ _ => unknown "listen",
  fn "mmap" 6 fun a n p f _ _ => asSystemCall (mmap a n p f),
  fn "open" 2 openAt,
  fn "opendir" 1 fun p => do openAt p (← word 0x10000),
  kind "pthread_cond_signal" 0 touchArg,
  kind "pthread_mutex_lock" 0 touchArg,
  kind "pthread_mutex_unlock" 0 touchArg,
  { kind "pthread_create" 4 (fun c => do
      match c.args with
      | [_, _, start, arg] => return .both (.call (.bits (← start.vector)) [arg] "terminate_thread" []) (.ret (.bits (← word 0)))
      | _ => throw Body.wrongCount) with
    addsExits := true
    parts := [("terminate_thread", exitZero)] },
  fn "read" 3 fun fd d n => do return (← readFd fd d n).toValue,
  fn "readdir" 1 fun _ => readdir,
  fn "recv" 3 receive,
  fn "recvfrom" 4 fun fd d n _ => receive fd d n,
  fn "send" 3 write,
  fn "sleep" 1 fun _ => zero,
  fn "socket" 1 openSocket,
  fn "strcasecmp" 2 fun a b => bits (strcmp a b),
  fn "strdup" 1 fun s => nat (strdup s),
  fn "strtok_r" 3 strtok,
  fn "unlink" 1 fun p => asSystemCall (unlink p),
  fn "usleep" 1 fun _ => constant 0,
  fn "write" 3 write]

def gate : Body := fun _ => do
  let a ← arch
  let target ←
    if a.callPushesRet then stackPop
    else match a.lrOffset with
      | some o => load .registers o { size := a.bytes }
      | none => raise .badType
  return .leave (.bits target) "Ijk_Sys"

def kernelLibrary : List ProcedureKind := ofLibrary "linux_kernel" [
  kind "_kernel_user_helper_get_tls" 0 (fun _ => raise .badAttribute),
  final (kind "_vsyscall" 0 gate)] ++ systemCalls "linux_kernel" [
  fn "arch_prctl" 2 archPrctl,
  fn "brk" 1 fun b => bits (setBrk b),
  fn "close" 1 closeIfOpen,
  final (kind "exit" 1 exitBody),
  fn "fstat" 2 fstat,
  fn "futex" 6 fun _ op _ _ _ _ => futex op,
  fn "getpid" 0 do return .ofNat (← posix).pid,
  fn "getrlimit" 2 getrlimit,
  fn "gettid" 0 do return .ofNat (← posix).pid,
  fn "lseek" 3 lseek,
  fn "mmap" 6 fun a n p f _ _ => mmap a n p f,
  fn "old_mmap" 1 fun p => do
    let part (i : Nat) : Exec Bits := loadOrdered (p.addInt (4 * i)) 4
    mmap (← part 0) (← part 1) (← part 2) (← part 3),
  fn "mprotect" 3 mprotect,
  fn "munmap" 2 fun _ _ => zero,
  fn "open" 2 fun p f => nat (openFile (.term p) (.bits f)),
  fn "read" 3 fun fd d n => do
    let _ ← readFd fd d n
    return .bits n,
  fn "set_tid_address" 1 fun _ => constant 0,
  fn "sigaction" 2 fun _ _ => zero,
  fn "sigprocmask" 4 sigprocmask,
  fn "stat" 2 fun _ b => statPath b,
  fn "tgkill" 2 fun _ _ => zero,
  fn "time" 1 fun _ => time,
  fn "uname" 1 uname,
  fn "unlink" 1 unlink,
  fn "write" 3 write]

def challengeLibrary : List ProcedureKind := systemCalls "cgc" [
  final (fn "_terminate" 1 fun _ => return .null),
  fn "allocate" 3 allocatePages,
  fn "deallocate" 2 deallocatePages,
  fn "fdwait" 5 waitReady,
  fn "random" 3 fun b n w => randomBytes b n w none,
  fn "receive" 4 fun fd b n r => receiveBytes fd b n r,
  fn "transmit" 4 fun fd b n r => transmitBytes fd b n r] ++ systemCalls "tracer" [
  fn "random" 3 fun b n w => randomBytes b n w (some 0x41),
  fn "receive" 4 fun fd b n r => do
    let _ ← values fd 2
    receiveBytes fd b n r,
  { fn "orig_receive" 4 fun fd b n r => receiveBytes fd b n r with display := "receive" },
  fn "transmit" 4 transmitToOutput,
  { fn "orig_transmit" 4 fun fd b n r => transmitBytes fd b n r with display := "transmit" }]

def mainKind : ProcedureKind :=
  { kind name 5 libcStart with
    noReturn := true, addsExits := true, parts := [("after_init", libcAfterInit), ("after_main", exitZero)] }

def tablePtr (part : Libc → Option Nat) : Exec Value := return .ofNat? (part (← libc))

def startupLibrary : List ProcedureKind := ofLibrary "uclibc" [mainKind "__uClibc_main"] ++ ofLibrary "glibc" [
  fn "__ctype_b_loc" 0 (tablePtr (·.ctypeTable)),
  fn "__ctype_tolower_loc" 0 (tablePtr (·.toLowerTable)),
  fn "__ctype_toupper_loc" 0 (tablePtr (·.toUpperTable)),
  fn "__errno_location" 0 errnoLocation,
  { kind "__libc_init" 4 libcInit with
    noReturn := true, addsExits := true, parts := [("after_slingshot", exitZero)] },
  mainKind "__libc_start_main",
  fn "_dl_vdso_vsym" 2 fun _ _ => constant 0,
  kind "__isoc99_scanf" 1 scanfBody,
  kind "scanf" 1 scanfBody,
  kind "__isoc99_sscanf" 2 sscanfBody,
  kind "sscanf" 2 sscanfBody] ++ ofLibrary "linux_loader" [
  fn "__tls_get_addr" 1 threadLocal,
  fn "___tls_get_addr" 0 threadLocalFast,
  { kind "_dl_initial_error_catch_tsd" 0 (fun c => do
      if !c.args.isEmpty then throw Body.wrongCount
      return .done ((c.procedure.options.lookup "static_addr").getD (.int 0))) with options := some ["static_addr"] },
  fn "_dl_rtld_lock_recursive" 1 fun _ => return .null,
  kind "_dl_rtld_unlock_recursive" 0 .nothing,
  final (kind "LinuxLoader" 0 (fun _ => do return .jump (.num (← theProgram).entry))),
  { kind "IFuncResolver" 0 (fun _ => raise .badAttribute) with
    noReturn := true, options := some ["funcaddr", "gotaddr", "funcname"] }] ++ ofLibrary "msvcr" [
  fn "__getmainargs" 5 fun c v e _ _ => mainArguments c v e,
  { kind "_initterm" 2 callTable with parts := [("do_callbacks", callTableNext)] },
  fn "__p__fmode" 0 (raise .badAttribute),
  fn "__p__commode" 0 (raise .badAttribute),
  fn "_get_fmode" 1 fun p => if (Cond.eqNat p 0).isTrue then return .int 22 else raise .badAttribute,
  fn "_set_fmode" 1 fun v =>
    if (Cond.mkOr (Cond.eqNat v 0x4000) (Cond.eqNat v 0x8000)).isTrue then raise .badAttribute
    else return .int 22]

def needsProgram : Exec Value := raise .badAttribute

def symbolResult (n : Nat) : Exec Value := do return .bits (← freshSymbol name n)

def windowsLibrary : List ProcedureKind := ofLibrary "win32" [
  fn "EncodePointer" 1 fun p => return .bits p,
  final (kind "ExitProcess" 1 exitBody),
  fn "GetCommandLineA" 0 needsProgram,
  fn "GetCommandLineW" 0 needsProgram,
  fn "GetCurrentProcessId" 0 (constant 0x1337BEE2),
  fn "GetCurrentThreadId" 0 (constant 0xbad76ead),
  fn "GetModuleHandleA" 1 (moduleBase false),
  fn "GetModuleHandleW" 1 (moduleBase true),
  kind "InterlockedExchange" 2 (fun c => Body.run 2 (exchange c.procedure.display) c),
  fn "IsProcessorFeaturePresent" 1 fun _ => constant 0,
  fn "VirtualAlloc" 4 virtualAlloc,
  fn "VirtualProtect" 4 virtualProtect,
  fn "InitializeCriticalSectionAndSpinCount" 2 fun _ _ => constant 1,
  fn "InitializeCriticalSectionEx" 3 fun _ _ _ => constant 1,
  fn "LoadLibraryA" 1 fun p => do
    let _ ← extract #[] (.string none) p true
    needsProgram,
  fn "LoadLibraryExW" 3 fun p _ _ => do
    let _ ← extract #[] (.wstring none) p true
    needsProgram,
  fn "GetProcAddress" 2 fun h _ => do
    if h.symbolic then raise .solverValue
    needsProgram,
  fn "GetProcessHeap" 0 (constant 1),
  fn "HeapCreate" 3 fun _ _ _ => constant 1,
  fn "HeapAlloc" 3 fun _ _ n => nat (malloc n),
  fn "GlobalAlloc" 2 fun _ n => nat (malloc n),
  fn "IsBadReadPtr" 2 fun p _ => lacksRight 0 p,
  fn "IsBadWritePtr" 2 fun p _ => lacksRight 1 p,
  fn "IsBadCodePtr" 2 fun p _ => lacksRight 2 p,
  fn "TlsAlloc" 0 (slotAlloc "win32_tls"),
  fn "TlsSetValue" 2 (slotSet "win32_tls"),
  fn "TlsGetValue" 1 (slotGet "win32_tls"),
  fn "TlsFree" 1 (slotFree "win32_tls"),
  fn "FlsAlloc" 1 fiberSlotAlloc,
  fn "FlsSetValue" 2 (slotSet "win32_fls"),
  fn "FlsGetValue" 1 (slotGet "win32_fls"),
  fn "FlsFree" 1 (slotFree "win32_fls"),
  fn "CreateMutexA" 3 fun _ _ _ => constant 1,
  fn "CreateMutexEx" 3 fun _ _ _ => constant 1,
  fn "GetSystemTimeAsFileTime" 1 systemTime,
  fn "GetLocalTime" 1 localTime,
  fn "QueryPerformanceCounter" 1 performanceCounter,
  fn "GetTickCount" 0 (symbolResult "GetTickCount_result" 32),
  fn "GetTickCount64" 0 (symbolResult "GetTickCount64_result" 64),
  fn "GetTempPathA" 2 fun n b => putPath "C:\\Temp\\" b n "Can't handle symbolic nBufferLength in GetTempPath",
  fn "GetWindowsDirectoryA" 2 fun b n =>
    putPath "C:\\Windows" b n "Can't handle symbolic uSize in GetWindowsDirectory"] ++ ofLibrary "win_user32" [
  fn "CharNextA" 1 charNext,
  fn "CharPrevA" 2 charPrev,
  fn "GetKeyboardType" 1 keyboardType,
  fn "MessageBoxA" 4 fun _ t c _ => messageBox false t c,
  fn "MessageBoxW" 4 fun _ t c _ => messageBox true t c,
  fn "MessageBoxExA" 5 fun _ t c _ _ => messageBox false t c,
  fn "MessageBoxExW" 5 fun _ t c _ _ => messageBox true t c,
  fn "MessageBoxIndirectA" 1 (messageBoxIndirect false),
  fn "MessageBoxIndirectW" 1 (messageBoxIndirect true)] ++ [
  { library := "ntdll", name := "KiUserExceptionDispatcher", numArgs := 2, run := fun _ => do
      if (← arch).name ≠ "X86" then refuse .unsupported "KiUserDispatchException is only implemented for X86"
      raise .badAttribute }]

def redirect : Body := fun c => do
  if (c.procedure.option "redirect_to").isNull then refuse .general "Please specify where you wanna jump to."
  raise .badAttribute

def userHook : Body := fun c => do
  match c.procedure.option "register", c.procedure.option "value", c.procedure.option "length" with
  | .str r, v, .int n =>
    setNamedReg r (← v.vector)
    let here ← addr
    return .leave (.num (here + n.toNat)) "Ijk_NoHook"
  | _, _, _ => raise .badType

def caller : Body := fun c => do
  let target ← orRaise (Quantity.ofValue? (c.procedure.option "target_addr")) .badType
  return .call target [] "after_call" []

def stubLibrary : List ProcedureKind := ofLibrary "stubs" [
  final (kind "CallReturn" 0 .nothing),
  { kind "NoReturnUnconstrained" 0 (fun _ => do return .exit (← unknown "unconstrained_exit_code")) with
    noReturn := true, options := none },
  kind "Nop" 0 .nothing,
  final (kind "PathTerminator" 0 .nothing),
  { kind "Redirect" 0 redirect with noReturn := true, options := some ["redirect_to"] },
  fn "ReturnChar" 0 do
    let c ← unconstrained "char_ret" (← arch).bits
    addConstraints [Cond.mkAnd (.ule c (.ofNat c.width 126)) (.uge c (.ofNat c.width 9))]
    return .bits c,
  { kind "ReturnUnconstrained" 0 (fun c => do
      match c.procedure.option "return_val" with
      | .null => return .done (← unknown ("unconstrained_ret_" ++ c.procedure.display))
      | v => return .done v) with options := none },
  final (kind "UnresolvableTarget" 0 .nothing),
  { kind "UserHook" 0 userHook with noReturn := true, options := some ["user_func", "length"] },
  fn "b64_decode" 3 fun s d n => do
      let r ← strncpy d s n
      poke (d.addInt 16) (.lit 8 0)
      return .bits r,
  { kind "Caller" 0 caller with
    options := some ["target_addr", "target_cc"], parts := [("after_call", .nothing)] },
  fn "crazy_scanf" 5 fun s _ one two three => do
      let copy (d s : Bits) (n : Nat) : Exec Unit := do
        memcpy d s (← word n)
        poke (d.addInt (n - 1)) (.lit 8 0)
      copy one s 5
      copy two (s.addInt 6) 8192
      copy three (s.addInt (6 + 8193)) 12
      raise .badTerm,
  { kind "syscall" 0 (fun c => do return .done (← unknown ("syscall_stub_" ++ c.procedure.display))) with
    isSyscall := true, options := some ["resolves"] },
  abstract "FormatParser",
  abstract "SimProcedure"] ++ [
  { library := "testing", name := "manyargs", noReturn := true, run := .nothing },
  { library := "testing", name := "retreg", options := some ["reg"], run := fun c => do
      match Quantity.ofValue? (c.procedure.option "reg"), c.procedure.option "reg" with
      | some q, _ => return .done (.bits (← load .registers q))
      | none, .str r => return .done (.bits (← reg r))
      | none, _ => raise .badType }]

def all : List ProcedureKind :=
  cLibrary ++ posixLibrary ++ kernelLibrary ++ challengeLibrary ++ startupLibrary ++ windowsLibrary ++ stubLibrary

def find? (library name : String) : Option ProcedureKind := all.find? fun k => k.library == library && k.name == name

end ProcedureKind

end SymExec
