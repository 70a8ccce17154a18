import SymExec.Arch
import SymExec.Op.Eval
import SymExec.Table

/-!
# Blocks

Straight-line code in an intermediate form: statements that write temporaries, registers and memory, exits that may leave it, and an
expression for what comes next.
-/

namespace SymExec

inductive Ty where
  | int (bits : Nat)
  | float (bits : Nat)
  | decimal (bits : Nat)
  | vector (bits : Nat)

namespace Ty

def bits : Ty → Nat
  | .int n | .float n | .decimal n | .vector n => n

def isFloat : Ty → Bool
  | .float _ => true
  | _ => false

def bytes (t : Ty) : Try Nat := if t.bits % 8 = 0 then .ok (t.bits / 8) else raise .general

def ofName? (s : String) : Option Ty :=
  let size := ((s.drop 1).toString).toNat?
  match s.toList.head? with
  | some 'I' => size.map .int
  | some 'F' => size.map .float
  | some 'D' => size.map .decimal
  | some 'V' => size.map .vector
  | _ => none

end Ty

namespace Ir

inductive Const where
  | num (ty : Ty) (v : Nat)
  | flt (s : FloatSort) (bits : UInt64)

def Const.ty : Const → Ty
  | .num t _ => t
  | .flt s _ => .float s.bits

def Const.nat? : Const → Option Nat
  | .num _ v => some v
  | .flt .. => none

structure Bank where
  base : Nat
  elem : Ty
  count : Nat

inductive Expr where
  | const (c : Const)
  | temp (n : Nat)
  | get (offset : Nat) (ty : Ty)
  | getI (bank : Bank) (index : Expr) (bias : Int)
  | load (e : Endness) (ty : Ty) (addr : Expr)
  | op (name : String) (args : List Expr)
  | ite (cond iftrue iffalse : Expr)
  | helper (name : String) (ty : Ty) (args : List Expr)
  | vectorPlace
  | guestPlace

inductive Stmt where
  | mark (addr len delta : Nat)
  | noop
  | hint (base : Expr) (len : Nat) (next : Expr)
  | put (offset : Nat) (e : Expr)
  | putI (bank : Bank) (index : Expr) (bias : Int) (e : Expr)
  | write (tmp : Nat) (e : Expr)
  | store (e : Endness) (addr data : Expr)
  | swap (e : Endness) (addr : Expr) (oldHi : Option Nat) (oldLo : Nat) (expectedHi : Option Expr) (expectedLo : Expr)
      (dataHi : Option Expr) (dataLo : Expr)
  | linked (e : Endness) (result : Nat) (addr : Expr) (data : Option Expr)
  | fence
  | dirty (tmp : Option Nat) (name : String) (args : List Expr)
  | exit (guard : Expr) (target : Const) (jumpkind : String)
  | loadIf (e : Endness) (conversion : String) (dst : Nat) (addr alt guard : Expr)
  | storeIf (e : Endness) (addr data guard : Expr)

structure Block where
  addr : Nat
  stmts : List Stmt
  types : Array Ty
  next : Expr
  jumpkind : String
  size : Nat

def Stmt.mark? : Stmt → Option Nat
  | .mark a _ d => some (a + d)
  | _ => none

def Block.instructions (b : Block) : List Nat := b.stmts.filterMap Stmt.mark?

def Block.directNext (b : Block) : Bool :=
  match b.next with
  | .const _ => true
  | _ => false

def conversionBits (name : String) : Option (Nat × Nat × Bool) :=
  match name with
  | "Ident32" => some (32, 32, false)
  | "Ident64" => some (64, 64, false)
  | "IdentV128" => some (128, 128, false)
  | "8Uto32" => some (8, 32, false)
  | "8Sto32" => some (8, 32, true)
  | "16Uto32" => some (16, 32, false)
  | "16Sto32" => some (16, 32, true)
  | _ => none

end Ir

/-! ### Finding operations -/

/-- The operation of a name: one in the table, or one whose name can be read and has a width by its scheme. -/
def Op.find (name : String) : Try Op :=
  match Op.ofName? name with
  | some op => .ok op
  | none =>
    let unsupported := .because .unsupportedOperation s!"Unsupported operation: {name}"
    match OpAttrs.ofName? name with
    | none => .error unsupported
    | some a =>
      if Op.known.contains name then .error unsupported
      else
        match Op.schemeBits name with
        | none => raise .unknownOperation
        | some w =>
          match Op.ofAttrs? name a w with
          | some op => .ok op
          | none => .error unsupported

def Op.resultBits? (name : String) : Option Nat :=
  if Op.known.contains name then ((Op.explicitAttrs name).or (OpAttrs.ofName? name)).map (Op.tableBits name)
  else Op.schemeBits name

namespace Ir

def Expr.ty (types : Array Ty) : Expr → Try Ty
  | .const c => .ok c.ty
  | .temp n =>
    match types[n]? with
    | some t => .ok t
    | none => raise .badIndex
  | .get _ t => .ok t
  | .getI b _ _ => .ok b.elem
  | .load _ t _ => .ok t
  | .op name _ =>
    match Op.resultBits? name with
    | some w =>
      let float := match Op.ofName? name with
        | some o => o.float && (FloatSort.ofBits? w).isSome && (o.attrs.conversion.isNone || o.attrs.toType = some "F")
        | none => (name.endsWith "F64" || name.endsWith "F32") && (FloatSort.ofBits? w).isSome
      .ok (if float then .float w else .int w)
    | none => raise .unknownOperation
  | .ite _ a _ => a.ty types
  | .helper _ t _ => .ok t
  | .vectorPlace => .ok (.int 32)
  | .guestPlace => .ok (.int 64)

/-! ### Parts of blocks -/

mutual

def Expr.parts : Expr → List Expr
  | .const c => [.const c]
  | .temp n => [.temp n]
  | .get o t => [.get o t]
  | .getI b i d => .getI b i d :: parts i
  | .load e t a => .load e t a :: parts a
  | .op n as => .op n as :: partsOfList as
  | .ite c a b => .ite c a b :: parts c ++ parts a ++ parts b
  | .helper n t as => .helper n t as :: partsOfList as
  | .vectorPlace => [.vectorPlace]
  | .guestPlace => [.guestPlace]

def Expr.partsOfList : List Expr → List Expr
  | [] => []
  | e :: es => parts e ++ partsOfList es

end

def Stmt.exprs : Stmt → List Expr
  | .mark .. | .noop | .fence => []
  | .hint b _ n => [b, n]
  | .put _ e | .write _ e => [e]
  | .putI _ i _ e => [i, e]
  | .store _ a d => [a, d]
  | .swap _ a _ _ eh el dh dl => a :: eh.toList ++ [el] ++ dh.toList ++ [dl]
  | .linked _ _ a d => a :: d.toList
  | .dirty _ _ as => as
  | .exit g _ _ => [g]
  | .loadIf _ _ _ a alt g => [a, alt, g]
  | .storeIf _ a d g => [a, d, g]

def Stmt.parts (s : Stmt) : List Expr := s.exprs.flatMap Expr.parts

def Block.constants (ipOffset : Nat) (b : Block) : List Const :=
  (b.stmts.filter fun s => match s with | .put o _ => o ≠ ipOffset | _ => true).flatMap fun s =>
    s.parts.filterMap fun e => match e with | .const c => some c | _ => none

def Block.operations (b : Block) : List String :=
  (b.stmts.flatMap Stmt.parts ++ b.next.parts).filterMap fun e => match e with | .op n _ => some n | _ => none

end Ir

/-! ## Slices of blocks

The statements of a block on which some temporaries, registers and places on the stack depend, found by going through the block from
its end. -/

namespace Ir

structure SliceTargets where
  (temps regs stack : List Nat := [])

namespace SliceTargets

def isEmpty (t : SliceTargets) : Bool := t.temps.isEmpty && t.regs.isEmpty && t.stack.isEmpty

variable (t : SliceTargets)

def addTemp (n : Nat) : SliceTargets := { t with temps := if n ∈ t.temps then t.temps else n :: t.temps }

def addReg (n : Nat) : SliceTargets := { t with regs := if n ∈ t.regs then t.regs else n :: t.regs }

def addStack (n : Nat) : SliceTargets := { t with stack := if n ∈ t.stack then t.stack else n :: t.stack }

end SliceTargets

/-! ### Known temporaries -/

variable (arch : Arch)

/-- The value of an expression, if temporaries have known values and the stack pointer and the frame pointer are where
they start. -/
def Expr.known? (temps : Table Nat Nat) : Expr → Option Nat
  | .const c => c.nat?
  | .temp n => temps.get? n
  | .get off _ =>
    if off = arch.spOffset then some arch.initialSp
    else if off = arch.bpOffset then some (arch.initialSp + 0x2000)
    else none
  | .op name [a, b] =>
    let width := if name = "Iop_Add64" then 64 else if name = "Iop_Add32" then 32 else 0
    match known? temps a, known? temps b with
    | some x, some y => if width = 0 then none else some ((x + y) % 2 ^ width)
    | _, _ => none
  | _ => none

def knownTemps (stmts : List Stmt) : Table Nat Nat :=
  stmts.foldl (fun t s =>
    match s with
    | .write n e =>
      match e.known? arch t with
      | some v => t.set n v
      | none => t
    | _ => t) {}

/-! ### Going backward -/

def SliceTargets.needArg (t : SliceTargets) : Expr → SliceTargets
  | .temp n => t.addTemp n
  | _ => t

variable (known : Table Nat Nat)

def SliceTargets.need (t : SliceTargets) : Expr → SliceTargets
  | .temp n => t.addTemp n
  | .get off _ => t.addReg off
  | .load _ _ (.temp n) =>
    let t := t.addTemp n
    match known.get? n with
    | some a => t.addStack a
    | none => t
  | .op _ [a] => t.needArg a
  | .op _ [a, b] => (t.needArg a).needArg b
  | .helper _ _ args => args.foldl needArg t
  | _ => t

def SliceTargets.before? (t : SliceTargets) : Stmt → Option SliceTargets
  | .write n e => if n ∈ t.temps then some ({ t with temps := t.temps.erase n }.need known e) else none
  | .put off e => if off ∈ t.regs then some ({ t with regs := t.regs.erase off }.need known e) else none
  | .store _ (.temp n) data =>
    match known.get? n with
    | some a => if a ∈ t.stack then some (({ t with stack := t.stack.erase a }.addTemp n).need known data) else none
    | none => none
  | _ => none

/-- The slice of statements with their places, last first: the places of those that count, last first, and what is needed
before all of them. -/
def sliceBack : List (Nat × Stmt) → SliceTargets → List Nat × SliceTargets
  | [], t => ([], t)
  | (i, s) :: rest, t =>
    match t.before? known s with
    | some t =>
      if t.isEmpty then ([i], t)
      else
        let (is, t) := sliceBack rest t
        (i :: is, t)
    | none => if t.isEmpty then ([], t) else sliceBack rest t

def sliceTargetsText : String :=
  "You must specify at least one of the following: \"target temps, target registers, and/or target stack offsets."

def slice (stmts : List Stmt) (t : SliceTargets) : Try (List Nat × SliceTargets) :=
  if t.isEmpty then .error (.because .blockSlice sliceTargetsText)
  else .ok (sliceBack (knownTemps arch stmts) (stmts.mapIdx fun i s => (i, s)).reverse t)

end Ir

end SymExec
