import SymExec.Engine.Run
import SymExec.Knowledge

/-!
# Forward analyses and recovery of variables

Finds the variables of a function: what it keeps in registers and on the stack.
-/

namespace SymExec

structure Walk (α : Type) where
  (order waiting : List α)

namespace Walk

variable {α : Type} [DecidableEq α]

def ofOrder (order : List α) : Walk α := ⟨order.eraseDups, order.eraseDups⟩

def next? (w : Walk α) : Option (α × Walk α) :=
  match w.waiting with
  | [] => none
  | n :: rest => some (n, { w with waiting := rest })

def await (w : Walk α) (ns : List α) : Try (Walk α) :=
  if ns.all (w.order.contains ·) then .ok { w with waiting := w.order.filter fun n => w.waiting.contains n || ns.contains n }
  else raise .badKey

end Walk

/-- A forward analysis that runs the block of each node a limited number of times. -/
structure Forward (m : Type → Type) (α β σ : Type) where
  key : α → Nat
  limit : Nat
  initial : σ
  same : σ → σ → Bool
  copy : σ → σ
  block : α → m β
  merge : Nat → σ → σ → m σ
  run : β → σ → m σ

namespace Forward

structure Progress (α σ : Type) where
  walk : Walk α
  states : Table α σ := {}
  before : Table Nat σ := {}
  /-- The visits so far, latest first, each with whether the block was run. -/
  log : List (α × Bool) := []

variable {m : Type → Type} [Monad m] [MonadExceptOf Fault m] {α β γ σ : Type} [DecidableEq α]
  (f : Forward m α β σ) (g : Digraph α γ)

def pass (s : σ) (states : Table α σ) (ns : List α) : m (Table α σ) :=
  ns.foldlM (fun t n => do
    match t.get? n with
    | some old => return t.set n (← f.merge (f.key n) old s)
    | none => return t.set n s) states

def runs (log : List (α × Bool)) (k : Nat) : Nat := log.countP fun e => e.2 && f.key e.1 = k

def visit (p : Progress α σ) (n : α) (s : σ) : m (Bool × σ × Table Nat σ) := do
  let b ← f.block n
  let known := p.before.get? (f.key n)
  if known.any (f.same s) then return (false, s, p.before)
  let s ← known.elim (pure s) (f.merge (f.key n) · s)
  let before := p.before.set (f.key n) s
  if f.limit ≤ f.runs p.log (f.key n) then return (false, f.copy s, before)
  return (true, ← f.run b (f.copy s), before)

def step (p : Progress α σ) : m (Option (Progress α σ)) := do
  let some (n, walk) := p.walk.next? | return none
  let (changed, s, before) ← f.visit p n ((p.states.get? n).getD f.initial)
  let states ← f.pass s (p.states.erase n) (g.succs n)
  let walk ← ofExcept (if changed then walk.await (g.succs n) else .ok walk)
  return some { walk, states, before, log := (n, changed) :: p.log }

def loop : Nat → Progress α σ → m (Progress α σ)
  | 0, p => return p
  | fuel + 1, p => do
    match ← f.step g p with
    | some p => loop fuel p
    | none => return p

end Forward

def Ir.Expr.bits (types : Array Ty) : Ir.Expr → Nat
  | .const c => c.ty.bits
  | .temp n => ((types[n]?).map Ty.bits).getD 0
  | .get _ t | .load _ t _ | .helper _ t _ => t.bits
  | .getI bank _ _ => bank.elem.bits
  | .op name _ => ((Op.ofName? name).map (·.outBits)).getD 0
  | .ite _ a _ => a.bits types
  | .vectorPlace | .guestPlace => 0

inductive KnownValue where
  | number (i : Int)
  | fraction
  | stack (offset : Int)

namespace KnownValue

def wrap (bits : Nat) (i : Int) : Int := if i ≥ 2 ^ (bits - 1) then i - 2 ^ bits else i

def combine? (bits : Nat) (f : Int → Int → Int) : KnownValue → KnownValue → Option KnownValue
  | stack o, number n => some (stack (wrap bits (f o n)))
  | number a, number b => some (number (f a b))
  | stack _, _ | _, stack _ => none
  | _, _ => some fraction

def greater : Option KnownValue → Option KnownValue → Option KnownValue
  | none, b => b
  | a, none => a
  | some (number a), some (number b) => some (number (max a b))
  | some (stack a), _ => some (stack a)
  | _, some (stack b) => some (stack b)
  | a, _ => a

end KnownValue

structure VariableState where
  (stack registers : VariableRegion := {})
  sp : Int
  bp : Option KnownValue := none

namespace VariableState

def initial (a : Arch) : VariableState := { sp := if a.callPushesRet then a.bytes else 0 }

def same (a b : VariableState) : Bool := a.stack.same b.stack && a.registers.same b.registers

def copy (s : VariableState) : VariableState := { s with stack := s.stack.copy, registers := s.registers.copy }

end VariableState

structure Recovery where
  own : FunctionVariables
  /-- The variables that were made for several, by the block at which that was. -/
  phis : List (Nat × List Variable × Variable) := []
  state : VariableState
  temps : Table Nat KnownValue := {}
  place : CodeLocation := default

abbrev Recovering := EStateM Fault Recovery

namespace Recovering

/-! ### Joining -/

def phiKey (vs : List Variable) : List Variable := vs.mergeSort fun a b => (compare a.ident b.ident).isLE

def phiAt (block : Nat) (key : List Variable) (e : Nat × List Variable × Variable) : Bool :=
  e.1 = block && (e.2.1 = key || e.2.1.isEqv key Variable.same)

def makePhi (block : Nat) (v : Variable) (vs : List Variable) : Recovering Variable := do
  let key := phiKey (v :: vs)
  let r ← get
  match r.phis.find? (phiAt block key) with
  | some (_, _, phi) => return phi
  | none =>
    let (phi, own) ← ofExcept (r.own.makePhi (v :: vs))
    set { r with own, phis := r.phis ++ [(block, key, phi)] }
    return phi

def merge (block : Nat) (a b : VariableState) : Recovering VariableState := do
  let cover := .merged (makePhi block)
  let stack ← a.stack.copy.merge cover b.stack
  let registers ← a.registers.copy.merge cover b.registers
  return { stack, registers, sp := max a.sp b.sp, bp := KnownValue.greater a.bp b.bp }

/-! ### Reading -/

def modifyState (f : VariableState → VariableState) : Recovering Unit := modify fun r => { r with state := f r.state }

def access (kind : AccessKind) (v : Variable) (offset : Int) : Recovering Unit :=
  modify fun r => { r with own := r.own.access kind v (some offset) r.place false }

def named (kind : IdentKind) (v : Simple) : Recovering Variable := do
  let r ← get
  let (ident, own) := r.own.nextIdent kind
  set { r with own }
  return .simple { v with ident := some ident, scope := own.scope }

def newOnStack (offset size : Int) : Recovering Variable := named .stack (.onStack offset (some size) "bp" none)

def newInRegister (offset size : Int) : Recovering Variable := named .register (.ofRegister offset (some size))

def declare (onStack : Bool) (offset : Int) (v : Variable) : Recovering Unit := do
  let own ← ofExcept ((← get).own.place onStack false offset v)
  modify ({ · with own })

def found? (kind : FunctionVariables.UseKind) : Recovering (Option Variable) := do
  let r ← get
  return ((r.own.atStatement r.place.block r.place.stmt kind).head?).map (·.1)

variable (a : Arch)

def readRegister (offset bits : Nat) : Recovering (Option KnownValue) := do
  let s := (← get).state
  if offset = a.spOffset then return some (.stack s.sp)
  if offset = a.bpOffset then return s.bp
  if !s.registers.contains offset then
    let v ← newInRegister offset (bits / 8 : Nat)
    let registers ← ofExcept (s.registers.add offset v)
    modifyState ({ · with registers })
    declare false offset v
  ((← get).state.registers.variablesAt offset).forM fun v => access .read v 0
  return none

def readStack (offset : Int) (bits : Nat) : Recovering Unit := do
  let s := (← get).state
  if !s.stack.contains offset then
    let v ← newOnStack offset (bits / 8 : Nat)
    let stack ← ofExcept (s.stack.add offset v)
    modifyState ({ · with stack })
    declare true offset v
  let s := (← get).state
  let base := (s.stack.base? offset).getD offset
  match s.stack.variablesAt base with
  | [v] => access .read v (offset - base)
  | _ => raise .badAssertion

def expr (a : Arch) : Ir.Expr → Recovering (Option KnownValue)
  | .const c => return some ((c.nat?.map fun n => .number n).getD .fraction)
  | .temp n => return (← get).temps.get? n
  | .get offset ty => readRegister a offset ty.bits
  | .load _ ty addr => do
    match ← expr a addr with
    | some (.stack o) => readStack o ty.bits
    | _ => pure ()
    return none
  | .op name [x, y] => do
    let up := name.startsWith "Iop_Add"
    if !(up || name.startsWith "Iop_Sub") then return none
    let some u := ← expr a x | return none
    match ← expr a y with
    | none => return none
    | some v => return u.combine? a.bits (if up then (· + ·) else (· - ·)) v
  | _ => return none

def referToStack (offset : Int) : Recovering Unit := do
  let v ← match ← found? .memory with
    | some v => pure v
    | none =>
      match ((← get).state.stack.variablesAt offset).head? with
      | some v => pure v
      | none => do
        let v ← newOnStack offset 1
        declare true offset v
        pure v
  let stack ← ofExcept ((← get).state.stack.add offset v)
  modifyState ({ · with stack })
  let base := (stack.base? offset).getD offset
  (stack.variablesAt base).forM fun w => access .reference w (offset - base)

def writeRegister (types : Array Ty) (offset : Nat) (e : Ir.Expr) : Recovering Unit := do
  let value ← expr a e
  if offset = a.spOffset then
    match value with
    | some (.stack o) => modifyState ({ · with sp := o })
    | _ => return
  else if offset = a.bpOffset then modifyState ({ · with bp := value })
  else
    match value with
    | some (.stack o) => referToStack o
    | _ => pure ()
    let v ← match ← found? .register with
      | some v => pure v
      | none => do
        let v ← newInRegister offset (e.bits types / 8 : Nat)
        declare false offset v
        pure v
    let registers ← ofExcept ((← get).state.registers.set offset v)
    modifyState ({ · with registers })
    access .write v 0

def writeMemory (types : Array Ty) (addr data : Ir.Expr) : Recovering Unit := do
  match ← expr a addr with
  | some (.stack o) =>
    let v ← match ← found? .memory with
      | some v => pure v
      | none => do
        let v ← newOnStack o (data.bits types / 8 : Nat)
        declare true o v
        pure v
    let stack ← ofExcept ((← get).state.stack.set o v)
    modifyState ({ · with stack })
    let base := (stack.base? o).getD o
    (stack.variablesAt o).forM fun w => access .write w (o - base)
  | _ => return

def stmt (types : Array Ty) : Ir.Stmt → Recovering Unit
  | .write n e => do (← expr a e).forM fun v => modify fun r => { r with temps := r.temps.set n v }
  | .put offset e => writeRegister a types offset e
  | .store _ addr data => writeMemory a types addr data
  | _ => return

def block (a : Arch) (b : Ir.Block) : Recovering Unit := do
  modify fun r => { r with temps := {} }
  let _ ← b.stmts.zipIdx.foldlM (fun ins (s, i) => do
    match s with
    | .mark addr _ delta => return some ((addr + delta : Nat) : Int)
    | s =>
      modify fun r => { r with place := { block := some (b.addr : Int), stmt := some (i : Int), instruction := ins } }
      stmt a b.types s
      return ins) none

/-! ### Visiting -/

def analysis (p : Program) (limit : Nat) : Forward Recovering CodeNode Ir.Block VariableState where
  key := CodeNode.addr
  limit
  initial := .initial p.arch
  same := VariableState.same
  copy := VariableState.copy
  block n := ofExcept (p.blockAt n.addr { bytes := n.size? })
  merge
  run b s := do
    modifyState fun _ => s
    block p.arch b
    return (← get).state

def run (p : Program) (f : Function) (limit : Nat) : Recovering Unit :=
  let g := f.graph
  discard ((analysis p limit).loop g (g.nodes.length + limit * g.arcs.length + 1)
    { walk := .ofOrder (Digraph.quasiOrderOf CodeNode.addr g g.nodes) })

end Recovering

namespace Knowledge

def recoverVariables (k : Knowledge) (p : Program) (f : Function) (limit : Nat := 3) : EStateM.Result Fault Knowledge Unit :=
  let start : Recovery := { own := k.vars.function f.addr, state := .initial p.arch }
  let keep (r : Recovery) : Knowledge := { k with vars := k.vars.setFunction f.addr r.own }
  match Recovering.run p f limit start with
  | .error e r => .error e (keep r)
  | .ok () r =>
    match (keep r).vars.giveNames with
    | .ok vs => .ok () { k with vars := vs }
    | .error e => .error e (keep r)

end Knowledge

end SymExec
