import SymExec.Procedure.Windows

/-!
# Startup code

What a C library does before and after the main function, and the tables of character classes it keeps.
-/

namespace SymExec

/-! ### Character classes -/

def ctypeEntry (c : Int) : UInt8 × UInt8 :=
  if c < 0 || c > 127 then (0, 0)
  else
    match c.toNat with
    | 9 => (0x03, 0x20)
    | 10 | 11 | 12 | 13 => (0x02, 0x20)
    | 32 => (0x01, 0x60)
    | 127 => (0x02, 0x00)
    | n =>
      let ch := Char.ofNat n
      if n < 32 then (0x02, 0x00)
      else if ch.isDigit then (0x08, 0xd8)
      else if ch.isUpper then (0x08, if n ≤ 'F'.toNat then 0xd5 else 0xc5)
      else if ch.isLower then (0x08, if n ≤ 'f'.toNat then 0xd6 else 0xc6)
      else (0x04, 0xc0)

/-- The entry of a case table: characters below zero wrap around, and the last of them stands for the end of a file. -/
def caseEntry (map : Char → Char) (c : Int) : Nat :=
  if c = -1 then 0xffffffff
  else if c < 0 then (256 + c).toNat
  else (map (Char.ofNat c.toNat)).toNat

def tableChars : List Int := (List.range 384).map fun (i : Nat) => (i : Int) - 128

namespace Exec

def putTable (entries : List Bits) (size : Nat) : Exec Nat := do
  let a ← arch
  let table ← mallocNat (entries.length * size)
  let ptr ← mallocNat (a.bits / 8)
  let quiet : StoreOptions := { endness := a.endness, inspected := false, actions := false }
  for (e, i) in entries.zipIdx do
    poke (.num (table + i * size)) e quiet
  poke ptr (.ofNat a.bits (table + 128 * size)) quiet
  return ptr

def putCtypeTables : Exec Unit := do
  let classes ← putTable (tableChars.map fun c => .ofBytes [(ctypeEntry c).1, (ctypeEntry c).2]) 2
  modifyLibc ({ · with ctypeTable := some classes })
  let lower ← putTable (tableChars.map fun c => .lit 32 (caseEntry Char.toLower c)) 4
  modifyLibc ({ · with toLowerTable := some lower })
  let upper ← putTable (tableChars.map fun c => .lit 32 (caseEntry Char.toUpper c)) 4
  modifyLibc ({ · with toUpperTable := some upper })

def errnoLocation : Exec Value := do
  match (← libc).errnoLocation with
  | some a => return .ofNat a
  | none =>
    let a ← mallocNat ((← arch).bits / 8)
    modifyLibc ({ · with errnoLocation := some a })
    poke a (← word 0)
    return .ofNat a

/-! ### Before and after the main function -/

/-- What the startup code was given: main, argument count and vector, and what runs before and after main. -/
def startupArgs (args : List Bits) : Exec (List Bits) := do
  match args, (← arch).name with
  | [main, argc, _, _, _], "PPC32" =>
    let r8 ← reg "r8"
    let field (i : Int) : Exec Bits := extractBits (.int .int true) (r8.addInt i)
    return [← field 4, main, argc, ← field 8, ← field 12]
  | [_, argc, argv, _, _], "PPC64" =>
    let r8 ← reg "r8"
    let field (i : Int) : Exec Bits := extractBits (.int .long true) (r8.addInt i)
    return [← field 8, argc, argv, ← field 16, ← field 24]
  | args, _ => return args

def mainArgs (argc argv : Bits) : Exec (List Value) := do
  let bytes := (← arch).bits / 8
  let envp := argv.add ((argc.addInt 1).mul (.ofNat argc.width bytes))
  return [.bits argc, .bits argv, .bits envp]

def libcStart : Body := fun c => do
  match c.args with
  | [a0, a1, a2, a3, a4] =>
    putCtypeTables
    let args ← startupArgs [← a0.vector, ← a1.vector, ← a2.vector, ← a3.vector, ← a4.vector]
    match args with
    | [main, argc, argv, init, fini] =>
      return .call (.bits init) (← mainArgs argc argv) "after_init"
        [("main", .bits main), ("argc", .bits argc), ("argv", .bits argv), ("init", .bits init), ("fini", .bits fini)]
    | _ => throw Body.wrongCount
  | _ => throw Body.wrongCount

def libcAfterInit : Body := fun c => do
  if (← arch).name = "AMD64" then
    let sp ← reg "rsp"
    setReg "rsp" ((sp.and (.lit 64 0xfffffffffffffff0)).addInt (-8))
  let argc ← c.keptBits "argc"
  let argv ← c.keptBits "argv"
  return .call (.bits (← c.keptBits "main")) (← mainArgs argc argv) "after_main" c.kept

def exitZero : Body := fun _ => return .exit (.int 0)

def libcInit : Body := fun c => do
  match c.args with
  | [raw, _, entry, _] =>
    let bytes := (← arch).bits / 8
    let raw ← raw.vector
    let entry ← entry.vector
    let argc ← loadOrdered raw bytes
    let n ← eval argc
    let argv ← loadOrdered (raw.addInt bytes) bytes
    let envp ← loadOrdered (raw.addInt ((n + 2) * bytes : Nat)) bytes
    return .call (.bits entry) [.bits argc, .bits argv, .bits envp] "after_slingshot"
      [("main", .bits entry), ("argc", .bits argc), ("argv", .bits argv), ("envp", .bits envp)]
  | _ => throw Body.wrongCount

/-! ### Callbacks -/

/-- Takes the next callback off a table. All copies of the frame that calls them take from the same one. -/
def nextCallback (none? : Outcome) (i : Nat) : Exec Outcome := do
  match (← get).callbacks.getD i [] with
  | [] => return none?
  | f :: rest =>
    modify fun w => { w with callbacks := w.callbacks.set! i rest }
    return .call (.num f) [] "do_callbacks" [("callbacks", .ofNat i)]

def callTable : Body := fun c => do
  match c.args with
  | [first, last] =>
    let first ← first.vector
    let last ← last.vector
    if first.symbolic || last.symbolic then return .done (.int 0)
    let a ← arch
    let size := (last.sub first).addInt (a.bits / 8 : Nat)
    let table ← load .memory first { size := some size, endness := a.endness }
    let found ← ((table.chop a.bits).reverse).mapM fun e => eval e
    let i := (← get).callbacks.size
    modify fun w => { w with callbacks := w.callbacks.push (found.filter (· != 0)) }
    nextCallback (.done .null) i
  | _ => throw Body.wrongCount

def callTableNext : Body := fun c => nextCallback (.done (.int 0)) (((c.kept.lookup "callbacks").bind (·.nat?)).getD 0)

def mainArguments (argc argv env : Bits) : Exec Value := do
  if argc.symbolic || argv.symbolic || env.symbolic then return .int (-1)
  let p ← posix
  for (place, v) in [(argc, p.argc), (argv, p.argv), (env, p.environ)] do
    match v with
    | .bits b => poke place b { size := some (.num (b.width / 8)), endness := (← arch).endness }
    | _ => raise .badAttribute
  return .int 0

/-! ### Thread-local storage -/

def threadLocal (ptr : Bits) : Exec Value := do
  let bytes := (← arch).bits / 8
  let m ← loadOrdered ptr bytes
  let _ ← loadOrdered (ptr.addInt bytes) bytes
  if m.symbolic then refuse .solverValue "__tls_get_addr called with symbolic module ID"
  let _ ← eval m
  raise .badAttribute

def threadLocalFast : Exec Value := do
  if (← arch).name ≠ "X86" then refuse .unsupported "___tls_get_addr only implemented for x86. Talk to @rhelmot."
  threadLocal (← reg "eax")

end Exec

end SymExec
