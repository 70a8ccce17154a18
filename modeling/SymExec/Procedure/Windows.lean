import SymExec.Procedure.Kernel

/-!
# Windows functions

Functions of the system libraries of Windows.
-/

namespace SymExec.Exec

open Cond

/-! ### Virtual memory -/

def rightsOf (prot : Nat) : Try Nat :=
  let bits := [(4, 4), (5, 5), (6, 7), (7, 7), (0, 0), (1, 1), (2, 3), (3, 3)]
  match bits.find? fun (b, _) => prot.testBit b with
  | some (_, r) => return r
  | none => refuse .solverValue ("Unknown windows memory protection constant: " ++ hexText prot)

def protectionOf (rights : Nat) : Try Nat :=
  match rights with
  | 0 => return 0x01
  | 1 => return 0x02
  | 3 => return 0x04
  | 4 => return 0x10
  | 5 => return 0x20
  | 7 => return 0x40
  | _ => refuse .solverValue "Invalid memory protection for windows process"

def certain (b : Bits) (message : String) : Exec Nat := do
  match ← values b 2 with
  | [v] => return v
  | _ => refuse .solverValue message

def boundedSize (size : Bits) : Exec Nat := do
  let n ← greatest size
  if size.symbolic then return min n (← libc).maxVariableSize else return n

def mapFree (size rights : Nat) : Nat → Exec Nat
  | 0 => raise .memory
  | fuel + 1 => do
    let addr ← takeMapping size
    let ok ← handling .memory (do mapRegion (.num addr) size (.lit 3 rights) true; return true) (return false)
    if ok then return addr else mapFree size rights fuel

def virtualAlloc (addr size type prot : Bits) : Exec Value := do
  let a ← certain addr "VirtualAlloc can't handle symbolic lpAddress"
  let a := a / pageSize * pageSize
  let n ← boundedSize size
  let flags ← certain type "VirtualAlloc can't handle symbolic flAllocationType"
  let prot ← certain prot "VirtualAlloc can't handle symbolic flProtect"
  let rights ← ofExcept (rightsOf prot)
  if flags.testBit 19 || flags.testBit 24 then return .ofNat a
  let mapped ←
    if a = 0 then some <$> mapFree n rights mappingAttempts
    else if flags.testBit 13 then handling .memory (do mapRegion (.num a) n (.lit 3 rights) true; return some a) (return none)
    else pure (some a)
  let some a := mapped | return .int 0
  if flags.testBit 12 then handling .memory (do let _ ← permissions (.num a); return .ofNat a) (return .int 0)
  else return .ofNat a

def virtualProtect (addr size new old : Bits) : Exec Value := do
  let a ← certain addr "VirtualProtect can't handle symbolic lpAddress"
  let n ← boundedSize size
  let prot ← certain new "VirtualProtect can't handle symbolic flNewProtect"
  let writable ← handling .memory (do
    let p ← permissions old
    return (eqNat (p.and (.ofNat p.width 2)) 0).isFalse) (return false)
  if !writable then return .int 0
  let start := a / pageSize * pageSize
  let pages := pagesFrom start ((a + n + pageSize - 1) / pageSize - start / pageSize)
  let first? ← handling .memory (do
    let rights ← pages.mapM fun p => permissions (.num p)
    match rights with
    | [] => return some none
    | r :: _ => return some (some (← eval r))) (return none)
  let some first := first? | return .int 0
  let rights ← ofExcept (rightsOf prot)
  for p in pages do let _ ← permissions (.num p) (some (.lit 3 rights))
  let some r := first | raise .badType
  let v ← ofExcept (protectionOf r)
  poke old (.ofNat 32 v) { endness := (← arch).endness }
  return .int 1

def lacksRight (right : Nat) (ptr : Bits) : Exec Value := do
  let bits ← wordBits
  handling .memory (do return .bits (((← permissions ptr).slice right right).not.zext (bits - 1))) (return .int 1)

/-! ### Local storage -/

variable (key : String)

def slots : Exec Fields := do
  match (← globals).lookup key with
  | some (.dict d) => return d
  | _ => return []

def slotAlloc : Exec Value := do
  let d ← slots key
  let i := d.length + 1
  setGlobal key (.dict (d ++ [(toString i, .bits (← word 0))]))
  return .ofNat i

variable (index : Bits)

def slotIndex (names : String) : Exec String := do
  return toString (← certain index ("Can't handle symbolic index in " ++ names))

def slotSet (index value : Bits) : Exec Value := do
  let i ← slotIndex index "TlsSetValue/FlsSetValue"
  let d ← slots key
  if (d.lookup i).isNone then return .int 0
  setGlobal key (.dict (d.map fun e => if e.1 == i then (i, .bits value) else e))
  return .int 1

def slotGet : Exec Value := do
  let i ← slotIndex index "TlsGetValue/FlsGetValue"
  return ((← slots key).lookup i).getD (.int 0)

def slotFree : Exec Value := do slotSet key index (← word 0)

def fiberSlotAlloc (callback : Bits) : Exec Value := do
  if !(eqNat callback 0).isTrue then refuse .solverValue "Can't handle callback function in FlsAlloc"
  slotAlloc "win32_fls"

/-! ### Time -/

def storeOrdered (addr value : Bits) : Exec Unit := do
  poke addr value { endness := (← arch).endness }

def dateFields : List (String × Option Nat × Nat) := [
  ("cur_year", some 1601, 30827), ("cur_month", some 1, 12), ("cur_dayofweek", none, 6), ("cur_day", some 1, 31),
  ("cur_hour", none, 23), ("cur_minute", none, 59), ("cur_second", none, 59), ("cur_millisecond", none, 999)]

variable (out : Bits)

def localTime : Exec Value := do
  let fields ← dateFields.mapM fun (name, lo, hi) => do return (← freshSymbol name 16, lo, hi)
  for (f, lo, hi) in fields do
    lo.forM fun lo => addConstraints [uge f (.lit 16 lo)]
    addConstraints [ule f (.lit 16 hi)]
  for ((f, _, _), i) in fields.zipIdx do storeOrdered (out.addInt (2 * i)) f
  return .null

def systemTime : Exec Value := do
  storeOrdered out (← freshSymbol "SystemTimeAsFileTime" 64)
  return .null

def performanceCounter : Exec Value := do
  storeOrdered out (← freshSymbol "QueryPerformanceCounter_result" 64)
  return .int 1

/-! ### Texts and windows -/

def putPath (path : String) (buffer size : Bits) (what : String) : Exec Value := do
  let n ← onlyValue size (.because .procedure what)
  if n ≤ 1 then raise .badTerm
  let bytes := (bytesOf path).take (n - 1)
  poke buffer (.ofBytes (bytes ++ [0]))
  return .ofNat path.length

def exchange (name : String) (target value : Bits) : Exec Value := do
  if target.symbolic then return .bits (← unconstrained ("unconstrained_ret_" ++ name) (← arch).bits)
  let old ← loadOrdered target 4
  poke target value
  return .bits old

def charNext (ptr : Bits) : Exec Value := do
  let c ← loadOrdered ptr 1
  return .bits (.mkIte (.eqNat c 0) ptr (ptr.addInt 1))

def charPrev (start ptr : Bits) : Exec Value := return .bits (.mkIte (.eq start ptr) start (ptr.addInt (-1)))

def keyboardType (what : Bits) : Exec Value :=
  return .int (if (eqNat what 0).isTrue then 4 else if (eqNat what 2).isTrue then 12 else 0)

variable (wide : Bool)

def messageBox (text caption : Bits) : Exec Value := do
  let type := if wide then .wstring none else .string none
  let _ ← extract #[] type text true
  if !(eqNat caption 0).isTrue then
    let _ ← extract #[] type caption true
  let _ ← freshSymbol "messagebox_button" 32
  raise .badType

def messageBoxIndirect (params : Bits) : Exec Value := do
  if (← arch).bits ≠ 32 then refuse .procedure "MessageBoxIndirectA is only implemented for 32 bit windows"
  let _ ← loadOrdered (params.addInt 0x4) 4
  let text ← loadOrdered (params.addInt 0xc) 4
  let caption ← loadOrdered (params.addInt 0x10) 4
  let _ ← loadOrdered (params.addInt 0x14) 4
  let _ ← loadOrdered (params.addInt 0x24) 4
  messageBox wide text caption

def theProgram : Exec Program := do
  orRaise (← get).program .badAttribute

def moduleBase (name : Bits) : Exec Value := do
  if (eqNat name 0).isTrue then return .ofNat (← theProgram).base
  let _ ← extract #[] (if wide then .wstring none else .string none) name true
  let _ ← theProgram
  return .int 0

end SymExec.Exec
