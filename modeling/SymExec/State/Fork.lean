import SymExec.State.Registers

/-!
# New states, copies and call stacks

How a state comes into being, how it is copied, and its call stack.
-/

namespace SymExec

namespace Memory

variable (s : Settings)

def defaultReadStrategies : List Strategy :=
  (if s.has .approximateMemoryIndices then [.range 1024 false false] else []) ++ [.range 1024 false true] ++
  (if s.has .conservativeReadStrategy then [] else [.any true])

def defaultWriteStrategies : List Strategy :=
  let wide := s.has .symbolicWriteAddresses
  (if s.has .approximateMemoryIndices then [if wide then .range 128 false false else .single false] else []) ++
  [.range 128 (!wide) true] ++ (if s.has .conservativeWriteStrategy then [] else [.max true])

def empty (id : String) (endness : Endness) (s : Settings) (backing : Backing := {}) : Memory where
  id := id
  endness := endness
  paged := { backing, checked := id == "mem" }
  readStrategies := defaultReadStrategies s
  writeStrategies := defaultWriteStrategies s

end Memory

def State.blank (arch : Arch) (mode : Mode) (settings : Settings) (backing : Backing := {}) : State where
  arch := arch
  mode := mode
  settings := settings
  memory := .empty "mem" .big settings backing
  registers :=
    if settings.has .fastRegisters then { Memory.empty "reg" arch.endness settings with fast := some { width := arch.bytes } }
    else .empty "reg" arch.endness settings
  callstack := [{ sp := some (2 ^ arch.bits - 1) }]

/-- A copy and the state it was taken from, with memories that no longer own their pages. -/
def State.copy (s : State) : State × State :=
  let (m, m') := s.memory.branch
  let (r, r') := s.registers.branch
  let tables := s.posix.map fun p => (
    { p with
      table := p.table.map fun _ f => { f with content := f.content.branch.1 }
      sockets := p.fds.filter fun (fd, _) => p.sockets.any (·.1 == fd) },
    { p with table := p.table.map fun _ f => { f with content := f.content.branch.2 } })
  ({ s with memory := m, registers := r, posix := tables.map (·.1), scratch := s.scratch.copy, feasible := true },
   { s with memory := m', registers := r', posix := tables.map (·.2) })

namespace Exec

def fork : Exec State := do
  let (c, own) := (← state).copy
  modifyState fun _ => own
  let id ← serial
  return { c with history := { c.history with current := { c.history.current with id } } }

/-! ### Call stack -/

def setCallstack (fs : List Frame) : Exec Unit := do
  let top := 2 ^ (← arch).bits - 1
  modifyState fun s => { s with callstack :=
    match fs with
    | f :: rest => (if f.sp = some 0 then { f with sp := some top } else f) :: rest
    | [] => [] }

def stackAction (a : StackAction) : Exec Unit := modifyEpoch fun e => { e with stackActions := e.stackActions ++ [a] }

def pushFrame (f : Frame) : Exec Unit := do
  let fs := (← state).callstack
  setCallstack (f :: fs)
  stackAction { push := true, depth := fs.length + 1 }

def popFrame : Exec Unit := do
  match (← state).callstack with
  | f :: g :: rest =>
    setCallstack (g :: rest)
    stackAction { push := false, depth := rest.length + 1, ret := f.ret }
  | _ => throw (.because .emptyCallStack "Cannot pop a frame from an empty call stack.")

/-- Returns from a call: pops the frame that returns to a target and all above it; without a target the top one. -/
def returnFrom (target : Option Int) : Exec Unit := do
  match target with
  | none => popFrame
  | some t =>
    match (← state).callstack.findIdx? (fun f => f.ret == some t) with
    | some i => (List.range (i + 1)).forM fun _ => popFrame
    | none => return

def topFrame : Exec Frame := return (← state).callstack.headD {}

def modifyTopFrame (f : Frame → Frame) : Exec Unit :=
  modifyState fun s => { s with callstack := match s.callstack with | g :: rest => f g :: rest | [] => [] }

/-! ### Parts that come into being on demand -/

def libc : Exec Libc := do
  match (← state).libc with
  | some l => return l
  | none =>
    let l : Libc := {}
    modifyState ({ · with libc := some l })
    handling .memory (do let _ ← permissions (.num 0xc0000000); return)
      (mapRegion (.num 0xc0000000) (4096 * 64) (.lit 3 3))
    return l

def modifyLibc (f : Libc → Libc) : Exec Unit := do
  let _ ← libc
  modifyState fun s => { s with libc := s.libc.map f }

def cgc : Exec Cgc := do
  match (← state).cgc with
  | some c => return c
  | none =>
    modifyState fun s => { s with cgc := some {} }
    return {}

def modifyCgc (f : Cgc → Cgc) : Exec Unit := do
  let _ ← cgc
  modifyState fun s => { s with cgc := s.cgc.map f }

def inspector : Exec Inspector := do
  match (← state).inspector with
  | some i => return i
  | none =>
    modifyState fun s => { s with inspector := some {} }
    return {}

/-! ### Typed views of memory -/

def loadOrdered (addr : Bits) (bytes : Nat) : Exec Bits := do
  load .memory addr { size := bytes, endness := (← arch).endness }

def loadText (unit : Nat) : Nat → Bits → Exec (List Bits)
  | 0, _ => return []
  | fuel + 1, addr => do
    let b ← load .memory addr { size := unit }
    if (Cond.eqNat b 0).isTrue then return []
    return b :: (← loadText unit fuel (addr.addInt unit))

def textLimit : Nat := 65536

/-- A number of a type that was loaded; if it is asked for, as a plain number. -/
def viewNumber (b : Bits) (signed concrete : Bool) : Exec Value := do
  if !concrete then return .bits b
  let n ← eval b
  return .int (if signed then Word.toInt b.width n else n)

variable (s : Structs)

def extractAt (concrete : Bool) : Nat → CType → Bits → Exec Value
  | 0, _, _ => raise .recursion
  | fuel + 1, t, addr => do
    let a ← arch
    match t with
    | .num .. | .int .. | .length _ | .pointer _ =>
      let b ← loadOrdered addr (← ofExcept (t.bytes s a))
      let signed := match t with | .pointer _ => false | t => t.signed?.getD false
      viewNumber b signed concrete
    | .char =>
      let b ← loadOrdered addr 1
      if concrete then return .str (textOf [(← eval b).toUInt8]) else return .bits b
    | .float | .double =>
      let sort := match t with | .float => FloatSort.single | _ => .double
      let f := Flt.mkOfBits .pattern sort (← loadOrdered addr (sort.bits / 8))
      match f with
      | .lit _ v => if concrete then return .real v else return .flt f
      | f => return .flt f
    | .array e n =>
      let size ← ofExcept (e.bytes s a)
      return .list (← (List.range n.toNat).mapM fun i => extractAt concrete fuel e (addr.addInt (i * size : Nat)))
    | .string none =>
      let out := Bits.concatList (← loadText 1 textLimit addr)
      if concrete then return .str (textOf (Word.toBytes (out.width / 8) (← eval out))) else return .bits out
    | .string (some n) =>
      let out ← load .memory addr { size := n }
      if concrete then return .str (textOf (Word.toBytes n (← eval out))) else return .bits out
    | .wstring n =>
      let units ← match n with
        | none => loadText 2 textLimit addr
        | some n => do pure ((← load .memory addr { size := some (.num (2 * n)) }).chop 16)
      if concrete then
        let chars ← units.mapM fun u => eval (if a.endness = .little then u.reverse else u)
        return .str (String.ofList (chars.map Char.ofNat))
      return .bits (Bits.concatList units)
    | .struct i =>
      let offsets ← ofExcept (CType.offsets s (some a) i)
      return .dict (← (s.fieldsOf i).mapM fun (f, u) => do
        return (f, ← extractAt concrete fuel u (addr.addInt ((offsets.lookup f).getD 0))))
    | .void | .func .. | .union _ => raise .badAttribute

variable (t : CType)

def extract (addr : Bits) (concrete : Bool := false) : Exec Value := extractAt s concrete CType.depth t addr

def extractBits (addr : Bits) : Exec Bits := do
  match ← extract #[] t addr with
  | .bits b => return b
  | _ => raise .badType

def extractInt (addr : Bits) : Exec Int := do
  match ← extract #[] t addr true with
  | .int i => return i
  | _ => raise .badType

end Exec

end SymExec
