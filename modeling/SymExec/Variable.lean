import SymExec.Value

/-!
# Variables

Variables of a program: registers, places on the stack, places in memory, constants and temporaries, and variables that stand for
one of several.
-/

namespace SymExec

def hexInt (i : Int) : String := if i < 0 then "-" ++ hexText i.natAbs else hexText i.natAbs

/-- The residue that stands for a number when keys are compared by their digests. -/
def digestInt (i : Int) : Int :=
  let r := Int.tmod i (2 ^ 61 - 1)
  if r = -1 then -2 else r

inductive Scope where
  | named (s : String)
  | function (addr : Int)
deriving DecidableEq

def Scope.text : Scope → String
  | named s => s
  | function a => toString a

def Scope.hex : Scope → String
  | named s => s
  | function a => hexInt a

inductive Storage where
  | register (offset : Int)
  | memory (addr : Int)
  | located (part : String) (addr : Int)
  | stack (offset : Int) (base : String) (baseAddr : Option Int)
  | constant (value : Option Int)
  | temporary (n : Int)
deriving DecidableEq

structure Simple where
  storage : Storage
  size : Option Int := none
  (ident name : Option String := none)
  scope : Scope := .named ""
deriving DecidableEq

namespace Simple

variable (offset : Int)

/-- Offsets of the stack above sixteen megabytes are negative numbers of as many bits. -/
def stackOffset : Int := if offset > 0x1000000 then offset - 2 ^ (offset.toNat.log2 + 1) else offset

def onStack (size : Option Int) (base : String) (baseAddr : Option Int) : Simple :=
  { storage := .stack (stackOffset offset) base baseAddr, size }

def ofRegister (size : Option Int) : Simple := { storage := .register offset, size }

variable (v : Simple)

def place? : Option Int :=
  match v.storage with
  | .memory a | .located _ a => some a
  | .stack o _ b => some (o + b.getD 0)
  | _ => none

/-- Whether a table takes two variables for one: they are equal, with the same digest. -/
def same (a b : Simple) : Bool :=
  match a.storage, b.storage with
  | .register o, .register p => a.ident = b.ident && a.name = b.name && o = p && a.size = b.size && a.scope = b.scope
  | .memory x, .memory y => a.ident = b.ident && x = y && a.name = b.name && a.size = b.size
  | .located p x, .located q y => a.ident = b.ident && p = q && x = y && a.name = b.name && a.size = b.size
  | .stack o s x, .stack p t y => a.ident = b.ident && a.name = b.name && s = t && o = p && a.size = b.size &&
    digestInt (o + x.getD 0) = digestInt (p + y.getD 0)
  | .constant (some x), .constant (some y) => a.ident = b.ident && x = y && a.scope = b.scope
  | .temporary m, .temporary n => m = n
  | _, _ => false

def sizeText : String := (v.size.map toString).getD "None"

def identText : String :=
  match v.ident with
  | some "" | none => ""
  | some i => "[" ++ i ++ "]"

def text (v : Simple) : String :=
  match v.storage with
  | .register o => "<" ++ v.scope.hex ++ v.identText ++ "|Reg " ++ toString o ++ ", " ++ v.sizeText ++ "B>"
  | .memory a => "<" ++ v.scope.text ++ "|Mem " ++ hexInt a ++ " " ++ v.sizeText ++ ">"
  | .located p a => "<" ++ v.scope.text ++ "|Mem <" ++ p ++ "> " ++ hexInt a ++ " " ++ v.sizeText ++ ">"
  | .stack o base _ =>
    let title := match v.name with
      | some n => n ++ "(stack)"
      | none => "Stack"
    let offset := if o < 0 then hexInt o else if o > 0 then "+" ++ hexInt o else ""
    "<" ++ v.scope.hex ++ v.identText ++ "|" ++ title ++ " " ++ base ++ offset ++ ", " ++ v.sizeText ++ " B>"
  | .constant x => "<" ++ v.scope.text ++ "|const " ++ (x.map toString).getD "None" ++ ">"
  | .temporary n => "<tmp " ++ toString n ++ ">"

def nameText : String := v.name.getD "None"

/-! ### Digests -/

def digestOf : Option Int → String
  | none => "-"
  | some i => toString (digestInt i)

def digestText : Option String → String
  | none => "-"
  | some "" => "0"
  | some s => "'" ++ s ++ "'"

def digestScope : Scope → String
  | .named s => digestText (some s)
  | .function a => digestOf (some a)

/-- What a table sees of a variable: two with the same digest are looked for at the same place. -/
def digest : String :=
  let row (xs : List String) := "(" ++ ", ".intercalate xs ++ ")"
  match v.storage with
  | .register o => row ["'reg'", digestScope v.scope, digestOf (some o), digestOf v.size, digestText v.ident]
  | .memory a => row [digestOf (some a), digestOf v.size, digestText v.ident]
  | .located p a => row [row [digestText (some p), digestOf (some a)], digestOf v.size, digestText v.ident]
  | .stack o _ b => row [digestOf (some (o + b.getD 0)), digestOf v.size, digestText v.ident]
  | .constant x => row ["'const'", digestOf x, digestText v.ident, digestScope v.scope, digestText v.ident]
  | .temporary n => "'tmp_" ++ toString n ++ "'"

end Simple

inductive Variable where
  | simple (v : Simple)
  | phi (v : Simple) (members : List Simple)
deriving DecidableEq

namespace Variable

def head : Variable → Simple
  | simple v | phi v _ => v

def isPhi : Variable → Bool
  | simple _ => false
  | phi _ _ => true

def size (v : Variable) : Option Int := v.head.size
def ident (v : Variable) : Option String := v.head.ident
def name (v : Variable) : Option String := v.head.name
def scope (v : Variable) : Scope := v.head.scope

def members : Variable → List Simple
  | simple v => [v]
  | phi _ vs => vs

variable (v : Variable)

def isRegister : Bool := v.head.storage matches .register _
def isStack : Bool := v.head.storage matches .stack ..

def inMemory : Bool := v.head.storage matches .memory _ | .located .. | .stack ..

def coveredBy (xs ys : List Simple) : Bool := xs.all fun x => ys.any x.same

def same : Variable → Variable → Bool
  | simple a, simple b => a.same b
  | phi a xs, phi b ys =>
    let common := a.ident = b.ident && coveredBy xs ys && coveredBy ys xs && a.name = b.name && a.scope = b.scope
      && a.size = b.size
    match a.storage, b.storage with
    | .register _, .register _ => common
    | .stack .., .stack .. => common && a.place? = b.place?
    | .memory _, .memory _ => common && a.place? = b.place?
    | .located .., .located .. => common && a.place? = b.place?
    | _, _ => false
  | _, _ => false

def digest : Variable → String
  | simple v => v.digest
  | phi v vs =>
    "(" ++ ", ".intercalate [Simple.digestText v.name, Simple.digestScope v.scope, Simple.digestOf v.size,
      Simple.digestText v.ident, ", ".intercalate ((vs.map Simple.digest).mergeSort (· ≤ ·))] ++ ")"

def phiOf? (ident : Option String) (scope : Scope) (vs : List Simple) : Option Variable :=
  vs.head?.map fun v =>
    let storage := match v.storage with
      | .stack .. => (Simple.onStack (v.place?.getD 0) v.size "sp" none).storage
      | s => s
    let members := vs.foldl (fun acc x => if acc.any x.same then acc else acc ++ [x]) []
    .phi { storage, size := v.size, ident, scope } members

end Variable

def insertVariable (vs : List Variable) (v : Variable) : List Variable := if vs.any v.same then vs else vs ++ [v]

/-! ### Locations in code -/

structure CodeLocation where
  (block stmt : Option Int)
  procedure : Option String := none
  instruction : Option Int := none
  info : List (String × String) := []
deriving DecidableEq, Inhabited

namespace CodeLocation

variable (l : CodeLocation)

def text : String :=
  match l.block with
  | none => "<" ++ l.procedure.getD "None" ++ ">"
  | some b =>
    let mark (sep : String) : String := match l.instruction with
      | none | some 0 => ""
      | some i => hexInt i ++ sep
    let body := match l.stmt with
      | none => mark " " ++ hexInt b ++ "(-)"
      | some s => mark " id=" ++ hexInt b ++ "[" ++ toString s ++ "]"
    let facts := if l.info.isEmpty then ""
      else " with " ++ ", ".intercalate (l.info.map fun (k, v) => k ++ "=" ++ v)
    "<" ++ body ++ facts ++ ">"

def short : String :=
  match l.instruction with
  | some i => hexInt i
  | none => l.text

def same (a b : CodeLocation) : Bool := a.block = b.block && a.stmt = b.stmt && a.procedure = b.procedure

def digest : String := ", ".intercalate [Simple.digestOf l.block, Simple.digestOf l.stmt, Simple.digestText l.procedure]

end CodeLocation

/-! ### Sets of variables -/

structure VariableSet where
  registers : List Simple := []
  offsets : List Int := []
  memory : List Simple := []
  addrs : List Int := []

namespace VariableSet

def put {α : Type} [DecidableEq α] (xs : List α) (x : α) : List α := if x ∈ xs then xs else xs ++ [x]

def putSimple (xs : List Simple) (x : Simple) : List Simple := if xs.any x.same then xs else xs ++ [x]

def cells (addr : Int) (v : Simple) : List Int := (List.range (v.size.getD 0).toNat).map fun (i : Nat) => addr + (i : Int)

variable (s : VariableSet)

def add (v : Simple) : Try VariableSet :=
  match v.storage with
  | .register o => .ok (if o ∈ s.offsets then s else { s with registers := putSimple s.registers v, offsets := put s.offsets o })
  | .located _ a => .ok { s with memory := putSimple s.memory v, addrs := (cells a v).foldl put s.addrs }
  | .memory _ => raise .badAttribute
  | _ => raise .general

def discard (v : Simple) : Try VariableSet :=
  match v.storage with
  | .register o =>
    if o ∉ s.offsets then .ok s
    else if s.registers.any v.same then
      .ok { s with registers := s.registers.filter (!v.same ·), offsets := s.offsets.filter (· ≠ o) }
    else raise .badKey
  | .located .. | .memory _ | .stack .. => .ok s
  | _ => raise .general

def contains (s : VariableSet) (v : Simple) : Try Bool :=
  match v.storage with
  | .register o => .ok (s.offsets.contains o)
  | .located .. => .ok false
  | .memory a => .ok (s.addrs.contains a)
  | _ => raise .badImport

variable (s t : VariableSet)

def complement : VariableSet where
  registers := s.registers.filter fun v => !t.registers.any v.same
  offsets := s.offsets.filter fun o => !t.offsets.contains o
  memory := s.memory.filter fun v => !t.memory.any v.same
  addrs := s.addrs.filter fun a => !t.addrs.contains a

def union : VariableSet where
  registers := t.registers.foldl putSimple s.registers
  offsets := t.offsets.foldl put s.offsets
  memory := t.memory.foldl putSimple s.memory
  addrs := t.addrs.foldl put s.addrs

def toList : List Simple := s.registers ++ s.memory

end VariableSet

/-! ## Regions and variables of functions

For each function, and for the program as a whole: which variables there are, where each is accessed, and which cover the registers
and the stack. -/

structure PlacedVariable where
  start : Int
  what : Variable
deriving DecidableEq

def PlacedVariable.same (a b : PlacedVariable) : Bool := a.start = b.start && a.what.same b.what

def PlacedVariable.size (p : PlacedVariable) : Int := p.what.size.getD 1

structure RegionPiece where
  (start size : Int)
  placed : List PlacedVariable
deriving DecidableEq, Inhabited

namespace RegionPiece

variable (p : RegionPiece)

def stop : Int := p.start + p.size

variable (offset : Int)

def includes : Bool := p.start ≤ offset && offset < p.stop

def vars : List Variable := p.placed.foldl (fun vs x => insertVariable vs x.what) []

variable (x : PlacedVariable)

def add : RegionPiece := if p.placed.any x.same then p else { p with placed := p.placed ++ [x] }

def set : RegionPiece := { p with placed := [x] }

def before : RegionPiece := { p with size := offset - p.start }

def after : RegionPiece := { p with start := offset, size := p.stop - offset }

def same (p q : RegionPiece) : Bool :=
  p.start = q.start && p.size = q.size && p.placed.all (fun x => q.placed.any x.same)
    && q.placed.all fun x => p.placed.any x.same

end RegionPiece

structure VariableRegion where
  /-- The numbers of the pieces by the offsets under which they are filed, in the order of the offsets. -/
  index : List (Int × Nat) := []
  pieces : Array RegionPiece := #[]

namespace VariableRegion

variable (r : VariableRegion)

def piece (n : Nat) : RegionPiece := r.pieces.getD n default

def entries : List (Int × RegionPiece) := r.index.map fun (k, n) => (k, r.piece n)

variable (offset : Int)

def floor? : Option (Int × Nat) := (r.index.takeWhile (·.1 ≤ offset)).getLast?

def base? : Option Int := (r.floor? offset).bind fun (k, n) => if (r.piece n).includes offset then some k else none

def contains : Bool := (r.base? offset).isSome

def variablesAt : List Variable :=
  match r.floor? offset with
  | some (_, n) => if (r.piece n).includes offset then (r.piece n).vars else []
  | none => []

def length (r : VariableRegion) : Nat := r.index.length

def same (a b : VariableRegion) : Bool :=
  a.index.map (·.1) = b.index.map (·.1) && (a.entries.zip b.entries).all fun (x, y) => x.2.same y.2

def fileAt (index : List (Int × Nat)) (offset : Int) (n : Nat) : List (Int × Nat) :=
  match index with
  | [] => [(offset, n)]
  | (k, m) :: rest =>
    if k < offset then (k, m) :: fileAt rest offset n
    else if k = offset then (offset, n) :: rest
    else (offset, n) :: (k, m) :: rest

def push (r : VariableRegion) (updates : List (Int × Nat)) (p : RegionPiece) : VariableRegion × List (Int × Nat) :=
  ({ r with pieces := r.pieces.push p }, fileAt updates p.start r.pieces.size)

/-- How a variable is put over a piece: in place of what is there, beside it, or as one of several with it. -/
inductive Covering (m : Type → Type) where
  | replace
  | beside
  | merged (make : Variable → List Variable → m Variable)

variable {m : Type → Type} [Monad m] [MonadExceptOf Fault m] (c : Covering m)

def cover (p : RegionPiece) (x : PlacedVariable) : m RegionPiece :=
  match c with
  | .replace => pure (p.set x)
  | .beside => pure (p.add x)
  | .merged make => do
    if (insertVariable p.vars x.what).length = 1 then return p.add x
    return p.set { x with what := ← make x.what p.vars }

/-- The state of putting a variable into a region: the region, what is to be filed anew, and how far the variable is put. -/
structure Placing where
  region : VariableRegion
  updates : List (Int × Nat)
  reached : Int

def placeOver (x : PlacedVariable) (s : Placing) (n : Nat) : m Placing := do
  let p := s.region.piece n
  let stop := x.start + x.size
  if p.start < x.start then
    let b ← cover c (p.after x.start) x
    let (r, u) := s.region.push s.updates (p.before x.start)
    let (r, u) := r.push u b
    return ⟨r, u, b.stop⟩
  else if p.start > s.reached then
    let (r, u) := s.region.push s.updates ⟨s.reached, p.start - s.reached, [x]⟩
    return ⟨r, u, p.start⟩
  else if p.stop > stop then
    if !p.includes stop then raise .badAssertion
    let a ← cover c (p.before stop) x
    let (r, u) := s.region.push s.updates a
    let (r, u) := r.push u (p.after stop)
    return ⟨r, u, p.stop⟩
  else
    let q ← cover c p x
    return { s with
      region := { s.region with pieces := s.region.pieces.setIfInBounds n q }
      updates := fileAt s.updates x.start n }

def store (r : VariableRegion) (x : PlacedVariable) : m VariableRegion := do
  let stop := x.start + x.size
  let inside := r.index.filter fun (k, _) => x.start ≤ k && k < stop
  let first := match r.floor? x.start with
    | some (k, n) => if k < x.start && (r.piece n).includes x.start then [(k, n)] else []
    | none => []
  let (fresh, updates) := r.push [] ⟨x.start, x.size, [x]⟩
  let s ← (first ++ inside).foldlM (fun s e => placeOver c x s e.2) ⟨fresh, updates, x.start⟩
  return { s.region with index := s.updates.foldl (fun index (k, n) => fileAt index k n) s.region.index }

def add (start : Int) (v : Variable) : Try VariableRegion := r.store .beside ⟨start, v⟩

def set (start : Int) (v : Variable) : Try VariableRegion := r.store .replace ⟨start, v⟩

def merge (r other : VariableRegion) : m VariableRegion :=
  (other.entries.flatMap fun (_, p) => p.placed).foldlM (fun r x => r.store c x) r

def copy : VariableRegion where
  index := r.index.zipIdx.map fun ((k, _), i) => (k, i)
  pieces := (r.entries.map (·.2)).toArray

def mapVariables (f : Variable → Variable) (r : VariableRegion) : VariableRegion :=
  { r with pieces := r.pieces.map fun p => { p with placed := p.placed.map fun x => { x with what := f x.what } } }

end VariableRegion

inductive AccessKind where
  | read | write | reference
deriving DecidableEq

def AccessKind.text : AccessKind → String
  | read => "read"
  | write => "write"
  | reference => "reference"

structure VariableAccess where
  what : Variable
  kind : AccessKind
  location : CodeLocation

abbrev VariableUse := Variable × Option Int

def insertUse (us : List VariableUse) (u : VariableUse) : List VariableUse :=
  if us.any fun w => w.1.same u.1 && w.2 = u.2 then us else us ++ [u]

inductive IdentKind where
  | register | stack | argument | other
deriving DecidableEq

structure FunctionVariables where
  function : Option Int := none
  vars : List Variable := []
  (stack registers : VariableRegion := {})
  accesses : List (Variable × List VariableAccess) := []
  (byInstruction byBlock : List (Option Int × List VariableUse) := [])
  byStatement : List ((Option Int × Option Int) × List VariableUse) := []
  (registerCount stackCount argumentCount otherCount : Nat := 0)

namespace FunctionVariables

variable (f : FunctionVariables)

def scope : Scope :=
  match f.function with
  | some a => .function a
  | none => .named ""

def nextIdent : IdentKind → String × FunctionVariables
  | .register => ("ir_" ++ toString f.registerCount, { f with registerCount := f.registerCount + 1 })
  | .stack => ("is_" ++ toString f.stackCount, { f with stackCount := f.stackCount + 1 })
  | .argument => ("iarg_" ++ toString f.argumentCount, { f with argumentCount := f.argumentCount + 1 })
  | .other => ("im_" ++ toString f.otherCount, { f with otherCount := f.otherCount + 1 })

def place (onStack replace : Bool) (start : Int) (v : Variable) : Try FunctionVariables := do
  let put (r : VariableRegion) : Try VariableRegion := if replace then r.set start v else r.add start v
  if onStack then return { f with stack := ← put f.stack } else return { f with registers := ← put f.registers }

def alter {κ α : Type} (same : κ → Bool) (key : κ) (g : List α → List α) (table : List (κ × List α)) : List (κ × List α) :=
  if table.any fun e => same e.1 then table.map fun e => if same e.1 then (e.1, g e.2) else e
  else table ++ [(key, g [])]

def access (kind : AccessKind) (v : Variable) (offset : Option Int) (l : CodeLocation)
    (overwrite : Bool) : FunctionVariables :=
  let use (us : List VariableUse) := if overwrite then [(v, offset)] else insertUse us (v, offset)
  let stmt := (l.block, l.stmt)
  { f with
    vars := insertVariable f.vars v
    accesses := alter v.same v (fun xs => if overwrite then [⟨v, kind, l⟩] else xs ++ [⟨v, kind, l⟩]) f.accesses
    byInstruction := alter (· = l.instruction) l.instruction use f.byInstruction
    byBlock := alter (· = l.block) l.block use f.byBlock
    byStatement := alter (· = stmt) stmt use f.byStatement }

def insertSimple (vs : List Simple) (v : Simple) : List Simple := if vs.any v.same then vs else vs ++ [v]

/-- A variable that stands for one of some: one of them if it stands for all the others already, else a new one of all the
simple variables for which they stand. -/
def makePhi (vs : List Variable) : Try (Variable × FunctionVariables) := do
  let members := (vs.flatMap Variable.members).foldl insertSimple []
  match vs.find? fun v => v.isPhi && Variable.coveredBy members v.members with
  | some v => return (v, f)
  | none =>
    let some first := members.head? | raise .stopIteration
    let (ident, f) ← match first.storage with
      | .register _ => pure (f.nextIdent .register)
      | .stack .. => pure (f.nextIdent .stack)
      | .memory _ | .located .. => raise .badValue
      | _ => raise .badType
    let some v := Variable.phiOf? (some ident) f.scope members | raise .stopIteration
    return (v, f)

inductive UseKind where
  | memory | register | other
deriving DecidableEq

def ofSort (s : UseKind) (us : List VariableUse) : List VariableUse :=
  us.filter fun (v, _) => match s with
    | .memory => v.inMemory
    | .register => v.isRegister
    | .other => false

def atInstruction (addr : Option Int) (s : UseKind) : Option (List VariableUse) := (f.byInstruction.lookup addr).map (ofSort s)

def atStatement (block stmt : Option Int) (s : UseKind) : List VariableUse :=
  ofSort s ((f.byStatement.lookup (block, stmt)).getD [])

def accessesTo (v : Variable) (sameName : Bool) : List VariableAccess :=
  (f.accesses.filter fun (w, _) => if sameName then w.name = v.name else w.same v).flatMap (·.2)

def inputs : List Variable := (f.accesses.filter fun (_, xs) => xs.any (·.kind = .read) && !xs.any (·.kind = .write)).map (·.1)

def mapVariables (g : Variable → Variable) (f : FunctionVariables) : FunctionVariables :=
  let use (us : List VariableUse) := us.map fun (v, o) => (g v, o)
  { f with
    vars := f.vars.map g
    stack := f.stack.mapVariables g
    registers := f.registers.mapVariables g
    accesses := f.accesses.map fun (v, xs) => (g v, xs.map fun x => { x with what := g x.what })
    byInstruction := f.byInstruction.map fun (k, us) => (k, use us)
    byBlock := f.byBlock.map fun (k, us) => (k, use us)
    byStatement := f.byStatement.map fun (k, us) => (k, use us) }

end FunctionVariables

/-- The name that a variable without one is given: on the stack by its offset, arguments apart, else the one by which it is
known. -/
def givenName (v : Simple) : Try (Option String) :=
  match v.name, v.storage with
  | some n, _ => .ok (some n)
  | none, .stack o _ _ => do
    let i ← orRaise v.ident .badAttribute
    let hex (x : Int) := if x < 0 then "-" ++ hexDigits x.natAbs else hexDigits x.natAbs
    .ok (some (if i.startsWith "iarg" then "arg_" ++ hex o else "s_" ++ hex (-o)))
  | none, .register _ => .ok v.ident
  | none, _ => .ok none

def Variable.renaming (v : Variable) (name : Option String) : Variable → Variable
  | .simple s => .simple (if (Variable.simple s).same v then { s with name } else s)
  | .phi s ms =>
    if (Variable.phi s ms).same v then .phi { s with name } ms
    else .phi s (ms.map fun m => if (Variable.simple m).same v then { m with name } else m)

structure ProgramVariables where
  shared : FunctionVariables := {}
  functions : List (Int × FunctionVariables) := []

namespace ProgramVariables

def function (p : ProgramVariables) (addr : Int) : FunctionVariables := (p.functions.lookup addr).getD { function := some addr }

variable (p : ProgramVariables)

def setFunction (addr : Int) (f : FunctionVariables) : ProgramVariables :=
  { p with functions :=
      if p.functions.any (·.1 = addr) then p.functions.map fun e => if e.1 = addr then (addr, f) else e
      else p.functions ++ [(addr, f)] }

def accessesTo (p : ProgramVariables) (v : Variable) (sameName : Bool) : List VariableAccess :=
  match v.scope with
  | .named "global" => p.shared.accessesTo v sameName
  | .named _ => []
  | .function a => ((p.functions.lookup a).map fun f => f.accessesTo v sameName).getD []

def all : List Variable := p.shared.vars ++ p.functions.flatMap fun (_, f) => f.vars

def mapVariables (g : Variable → Variable) (p : ProgramVariables) : ProgramVariables where
  shared := p.shared.mapVariables g
  functions := p.functions.map fun (a, f) => (a, f.mapVariables g)

def giveNames : Try ProgramVariables :=
  p.all.foldlM (fun p v => do
    let name ← givenName v.head
    return if name = v.name then p else p.mapVariables (v.renaming name)) p

end ProgramVariables

end SymExec
