import SymExec.State.Fork

/-!
# Passing arguments

Values are laid out as bytes in the order of memory, put at the places that a signature gives to them, and read back from there.
-/

namespace SymExec

open Bits

namespace Exec

/-! ### Places -/

def regPlace (name : String) (full size : Nat) : Exec Nat := do
  let a ← arch
  let (off, _) ← orRaise (a.register? name) .badKey
  return if size < full && a.endness = .big then off + (full - size) else off

def stackPlace (offset : Int) (base : Option Quantity) : Exec Quantity := do
  match base with
  | some (.num n) => return .num (n + offset).toNat
  | some (.bits b) => return .bits (b.addInt offset)
  | none => return .bits ((← sp).addInt offset)

mutual

def getLoc (l : ArgLoc) (endness : Option Endness := none) (base : Option Quantity := none) (size : Option Nat := none) : Exec Value := do
  let e := some (endness.getD (← arch).endness)
  match l with
  | .reg n full =>
    let size := size.getD full
    let off ← regPlace n full size
    return .bits (← load .registers off { size, endness := e })
  | .stack o full =>
    let addr ← stackPlace o base
    let size : Nat := match size with | some (n + 1) => n + 1 | _ => full
    return .bits (← load .memory addr { size, endness := e })
  | .floatTop n =>
    let v ← reg n
    if endness.isSome then raise .badAttribute
    if size = some 4 then return .flt (.mkUn (.cast .single) (.mkOfBits .pattern .double v))
    return .bits v
  | .combo ls => do
    let vs ← getLocs ls e base size
    return .bits (.concatList vs)

def getLocs (ls : List ArgLoc) (endness : Option Endness) (base : Option Quantity) (size : Option Nat) : Exec (List Bits) := do
  match ls with
  | [] => return []
  | l :: ls =>
    let v ← getLoc l endness base size
    let vs ← getLocs ls endness base size
    match v with
    | .bits b => return b :: vs
    | _ => raise .badType

end

mutual

def setLoc (l : ArgLoc) (v : Bits) (endness : Option Endness := none) (base : Option Quantity := none) : Exec Unit := do
  if l.size * 8 < v.width then raise .badType
  let e := some (endness.getD (← arch).endness)
  match l with
  | .reg n full =>
    let size := min full (v.width / 8)
    let off ← regPlace n full size
    let _ ← store .registers off v { size, endness := e }
  | .stack o _ =>
    let addr ← stackPlace o base
    poke addr v { size := some (.num (v.width / 8)), endness := e }
  | .floatTop n =>
    if endness.isSome then raise .badAttribute
    setReg n v
  | .combo ls => let _ ← setLocs ls v e base

def setLocs (ls : List ArgLoc) (v : Bits) (endness : Option Endness) (base : Option Quantity) : Exec Nat := do
  match ls with
  | [] => return 0
  | l :: ls =>
    let done ← setLocs ls v endness base
    if v.width < done * 8 + l.size * 8 then raise .badTerm
    setLoc l (.slice (done * 8 + l.size * 8 - 1) (done * 8) v) endness base
    return done + l.size

end

/-! ### Layout -/

structure Arena where
  ptr : Quantity
  downward : Bool := true

def inOrder (b : Bits) : Exec Bits := do
  if (← arch).endness = .big then return b
  if b.width % 8 != 0 then raise .badTerm
  return b.reverse

def allocate (a : Arena) (b : Bits) : Exec (Bits × Arena) := do
  let n := b.width / 8
  let below (q : Quantity) := match q with
    | .num k => .num (k - n)
    | .bits x => .bits (x.addInt (-n))
  let place := if a.downward then below a.ptr else a.ptr
  poke place b { endness := some .big }
  match place with
  | .num _ => raise .badAttribute
  | .bits p => return (← inOrder p, { a with ptr := if a.downward then place else place.addNat n })

def allocateIn (a : Option Arena) (b : Bits) : Exec (Bits × Option Arena) := do
  let a ← orRaise a .badType
  let (p, a) ← allocate a b
  return (p, some a)

def kindNumber : Value → Nat
  | .null => 0
  | .bool _ => 1
  | .int _ => 2
  | .str _ => 3
  | .real _ => 4
  | .bits _ => 5
  | .cond _ => 6
  | .flt _ => 7
  | .list _ => 8
  | .tuple _ => 9
  | .set _ => 10
  | .dict _ => 11
  | .pointer _ => 12

def sameKinds : List Value → Bool
  | [] => true
  | v :: vs => vs.all fun w => kindNumber v == kindNumber w

def layInt (s : Structs) (i : Int) (t : Option CType) : Exec Bits := do
  let a ← arch
  let number (bits : UInt64) (sort : FloatSort) : Exec Bits := inOrder (ofNat sort.bits (Ieee.pattern sort bits))
  match t with
  | none => inOrder (ofInt a.bits i)
  | some .float => number (Ieee.ofInt i) .single
  | some .double => number (Ieee.ofInt i) .double
  | some t => do
    let w ← orRaise (← ofExcept (t.size s (some a))) .badType
    inOrder (ofInt w.toNat i)

def layText (text : String) (length : Nat) : Bits := .ofBytes (bytesOf text ++ .replicate (length - text.length) 0)

mutual

def lay (s : Structs) (v : Value) (t : Option CType) (arena : Option Arena) : Exec (Bits × Option Arena) := do
  match v with
  | .pointer v =>
    let inner ← match t with
      | none => pure none
      | some (.pointer u) => pure (some u)
      | some _ => raise .badType
    let (b, arena) ← lay s v inner arena
    allocateIn arena b
  | .str text =>
    let text := text.push (Char.ofNat 0)
    match t with
    | none => return (layText text text.length, arena)
    | some (.pointer .char) => allocateIn arena (layText text text.length)
    | some (.array .char n) =>
      if (text.length : Int) > n then raise .badType
      return (layText text n.toNat, arena)
    | some (.string n) =>
      match n with
      | none => allocateIn arena (layText text text.length)
      | some n =>
        if text.length > n then raise .badType
        allocateIn arena (layText text n)
    | some _ => raise .badType
  | .list vs =>
    match t with
    | none =>
      if !sameKinds vs then raise .badType
      let (bs, arena) ← layList s vs none arena
      return (concatList bs, arena)
    | some (.pointer u) =>
      let (bs, arena) ← layList s vs (some u) arena
      allocateIn arena (concatList bs)
    | some (.array u n) =>
      if (vs.length : Int) != n then raise .badType
      let (bs, arena) ← layList s vs (some u) arena
      return (concatList bs, arena)
    | some _ => raise .badType
  | .tuple vs =>
    match t with
    | none =>
      let (bs, arena) ← layList s vs none arena
      return (concatList bs, arena)
    | some (.struct i) =>
      let fs := s.fieldsOf i
      if vs.length != fs.length then raise .badType
      let (bs, arena) ← layFields s vs (fs.map (·.2)) arena
      return (concatList bs, arena)
    | some _ => raise .badType
  | .int i => return (← layInt s i t, arena)
  | .bool b => return (← layInt s b.toNat t, arena)
  | .real r =>
    let sort ← match t with
      | none => pure (if (← arch).bits = 64 then FloatSort.double else .single)
      | some .float => pure .single
      | some .double => pure .double
      | some _ => raise .badType
    return (← inOrder (ofNat sort.bits (Ieee.pattern sort r)), arena)
  | .flt f => return (← inOrder (Flt.toBits .pattern f), arena)
  | .bits b => return (← if b.width = (← arch).bits then inOrder b else pure b, arena)
  | .cond _ => raise .badAttribute
  | _ => raise .badType

def layList (s : Structs) (vs : List Value) (t : Option CType) (arena : Option Arena) : Exec (List Bits × Option Arena) := do
  match vs with
  | [] => return ([], arena)
  | v :: vs =>
    let (b, arena) ← lay s v t arena
    let (bs, arena) ← layList s vs t arena
    return (b :: bs, arena)

def layFields (s : Structs) (vs : List Value) (ts : List CType) (arena : Option Arena) : Exec (List Bits × Option Arena) := do
  match vs, ts with
  | v :: vs, t :: ts =>
    let (b, arena) ← lay s v (some t) arena
    let (bs, arena) ← layFields s vs ts arena
    return (b :: bs, arena)
  | _, _ => return ([], arena)

end

/-- A value is stored as one of a type: numbers in the order of the machine, texts as they are. -/
def storeAs (s : Structs) : CType → Bits → Value → Exec Unit
  | .array e _, addr, v => do
    let vs ← match v with
      | .list vs | .tuple vs => pure vs
      | .str x => pure (x.toList.map fun c => .str c.toString)
      | _ => raise .badType
    let size ← ofExcept (e.bytes s (← arch))
    vs.zipIdx.forM fun (v, i) => storeAs s e (addr.addInt (i * size : Nat)) v
  | t, addr, v => do
    if t.signed?.isNone then raise .badAttribute
    let a ← arch
    let b ← match v with
      | .bits b => pure b
      | .str x => return ← poke addr (.ofBytes (bytesOf x)) { endness := some .big }
      | .int _ | .bool _ | .real _ | .flt _ => inOrder (← lay s v (some t) none).1
      | _ => raise .badType
    if b.width ≠ 8 * (← ofExcept (t.bytes s a)) then raise .badValue
    poke addr b { endness := a.endness }

def isFloatValue : Value → Bool
  | .real _ | .flt _ => true
  | .bits (.ofFloat ..) | .bits (.un .reverse (.ofFloat ..)) => true
  | _ => false

variable (g : Signature)

def layArgs : List Value → List (Option CType) → Arena → Exec (List Bits × Arena)
  | v :: vs, t :: ts, a => do
    let (b, a') ← lay g.structs v t (some a)
    let (bs, a) ← layArgs vs ts (a'.getD a)
    return (b :: bs, a)
  | _, _, a => return ([], a)

def placeArgs : List (Value × Bits × Option CType) → Signature.Places → Arena → Exec (List (ArgLoc × Bits) × Arena)
  | [], _, a => return ([], a)
  | (v, b, t) :: rest, p, a => do
    let m ← arch
    let floatType := match t with | some .float | some .double => true | _ => false
    if isFloatValue v || floatType then
      let (l, p) ← ofExcept (g.place true (some (b.width / 8)) p)
      let (ls, a) ← placeArgs rest p a
      return ((l, b) :: ls, a)
    else
      let isBlock := match v with | .str _ | .list _ | .tuple _ => g.func.isNone | _ => false
      let (b, a) ←
        if b.width > m.bits || isBlock then allocate a b
        else if b.width < m.bits then do
          let zeros := .lit (m.bits - b.width) 0
          pure (if m.endness = .little then b.concat zeros else zeros.concat b, a)
        else pure (b, a)
      let (l, p) ← ofExcept (g.place false (some (b.width / 8)) p)
      let (ls, a) ← placeArgs rest p a
      return ((l, b) :: ls, a)

/-- Lowers the stack pointer until it is aligned, as far as that is certain. -/
def alignStack : Nat → Exec Unit
  | 0 => return
  | n + 1 => do
    let at_ := ((← sp).addInt g.conv.retBytes)
    let tracked ← has .astDeps
    match (urem at_ (ofNat at_.width g.conv.alignment)).lit?, tracked with
    | some (_ + 1), false =>
      setRegAt (← arch).spOffset ((← sp).addInt (-1))
      alignStack n
    | _, _ => return

def setupCall (ret : Value) (args : List Value) (stackBase allocBase : Option Quantity := none)
    (downward : Bool := true) : Exec Unit := do
  let ptr ← match allocBase with
    | some q => pure q
    | none => do pure (.bits (← sp))
  let types := match g.func with
    | some (ts, _) => ts.map some
    | none => args.map fun _ => none
  let (vals, arena) ← layArgs g args types { ptr, downward }
  let (placed, arena) ← placeArgs g (args.zip (vals.zip types)) g.places arena
  let spOffset := (← arch).spOffset
  if allocBase.isNone then setRegAt spOffset (arena.ptr.toBits (← arch).bits)
  if stackBase.isNone then
    setRegAt spOffset ((← sp).addInt (-(g.conv.stackSpace g.arch (placed.map (·.1)))))
    alignStack g g.conv.alignment
  placed.forM fun (l, b) => do
    if b.width > l.size * 8 then raise .badValue
    setLoc l b (some .big) stackBase
  let some l := g.conv.retAddr | raise .badAttribute
  match ret with
  | .int i => setLoc l (.ofInt (l.size * 8) i) none stackBase
  | .bool b => setLoc l (.ofNat (l.size * 8) b.toNat) none stackBase
  | .bits b => setLoc l b none stackBase
  | _ => raise .badAttribute

/-! ### Reading -/

def getArg (index : Int) (stackBase : Option Quantity := none) : Exec Value := do
  match g.args with
  | none => do
    let l ← orRaise ((← ofExcept (g.plainLocs (.replicate (index + 1).toNat false))).getLast?) .badIndex
    getLoc l none stackBase
  | some ls =>
    let i := if index < 0 then index + ls.length else index
    match (if i < 0 then none else ls[i.toNat]?) with
    | some l => getLoc l none stackBase
    | none => raise .badIndex

inductive ArgQuery where
  | told
  | count (n : Nat)
  | kinds (floats : List Bool)

def getArgs (q : ArgQuery) (sizes : Option (List Nat) := none) (stackBase : Option Quantity := none) :
    Exec (List Value) := do
  let sizes ← match sizes, g.func with
    | some s, _ => pure (some s)
    | none, some (ts, _) => some <$> ts.mapM fun t => do return ((← ofExcept (t.size g.structs (some g.arch))).getD 0).toNat
    | none, none => pure none
  let locs ← match q with
    | .told =>
      match g.args, g.func with
      | some ls, _ => pure ls
      | none, some (ts, _) => ofExcept (g.argLocs (ts.map fun _ => false))
      | none, none => raise .badValue
    | .count n =>
      if g.args.any fun ls => ls.length != n then raise .badValue
      ofExcept (g.argLocs (.replicate n false) sizes)
    | .kinds fs => ofExcept (g.argLocs fs sizes)
  locs.mapM fun l => getLoc l none stackBase

def retLoc (float : Option Bool) (guess : Bool) : Exec ArgLoc := do
  let isFloat := match float, g.func with
    | some f, _ => f
    | none, some (_, .float) | none, some (_, .double) => true
    | none, some _ => false
    | none, none => guess
  orRaise (g.ret <|> (if isFloat then g.conv.floatRetVal else g.conv.retVal)) .notImplemented

def asFloat (v : Value) : Exec Value := do
  match v with
  | .bits b => do
    let s ← orRaise (FloatSort.ofBits? b.width) .badTerm
    return .flt (.mkOfBits .pattern s b)
  | v => return v

def getReturn (float : Option Bool := none) (stackBase : Option Quantity := none) : Exec Value := do
  let l ← retLoc g float false
  let size ← match g.func with
    | none => pure none
    | some (_, t) => do
      let n ← orRaise (← ofExcept (t.size g.structs (some g.arch))) .badType
      pure (some (n / 8).toNat)
  let v ← getLoc l none stackBase size
  let floatType := match g.func with | some (_, .float) | some (_, .double) => true | _ => false
  if (← ofExcept (g.conv.holdsFloat g.arch l)) = some true || isFloatValue v || floatType then asFloat v else return v

def setReturn (v : Value) (float : Option Bool := none) (stackBase : Option Quantity := none) : Exec Unit := do
  let (b, _) ← handling .badAttribute (lay g.structs v (g.func.map (·.2)) none) (raise .badValue)
  let l ← retLoc g float (isFloatValue v)
  setLoc l b (some .big) stackBase

/-- Ends a call: the return value is set, the stack is cleared as the convention says, and the return address is given. -/
def teardownCall (ret : Option Value := none) (kinds : Option (List Bool) := none) (cleanup : Bool := false) :
    Exec Value := do
  match ret with
  | some v => setReturn g v
  | none => pure ()
  let addr ← match g.conv.retAddr with
    | some l => getLoc l
    | none => raise .badAttribute
  let space : Int ←
    if cleanup || g.conv.calleeCleanup then
      match kinds, g.args with
      | some ks, _ => do pure (g.conv.stackSpace g.arch (← ofExcept (g.plainLocs ks)))
      | none, some ls => pure (g.conv.stackSpace g.arch ls)
      | none, none => pure (g.conv.retBytes : Int)
    else pure (g.conv.retBytes : Int)
  let spOffset := (← arch).spOffset
  setRegAt spOffset ((← sp).addInt space)
  return addr

end Exec

end SymExec
