import SymExec.CallConv.Basic
import SymExec.Ir.Block
import SymExec.Memory.Paged
import SymExec.Setting
import SymExec.Solver

/-!
# Programs, histories and states

A program: one piece of memory with code in it, and procedures that stand in for code at some addresses.
-/

namespace SymExec

structure Procedure where
  (library name display : String)
  numArgs : Nat := 0
  options : Fields := []
  signature : Option Signature := none
  returns : Bool := true
  isSyscall : Bool := false
  isFunction : Bool := true
  (isStub symbolicReturn systemKind noReturn addsExits : Bool := false)
  /-- The procedure of which this one is a continuation, by the number it has among all, and the part that goes on. -/
  family : Nat := 0
  part : Option String := none
  (addr number : Option Nat := none)
  libraryName : Option String := none

namespace Procedure

variable (p : Procedure)

def option (k : String) : Value := (p.options.lookup k).getD .null

def text : String :=
  "<SimProcedure " ++ p.display ++ (if p.systemKind then " (syscall)" else "") ++ (if p.isStub then " (stub)" else "") ++ ">"

end Procedure

structure Program where
  arch : Arch
  (base size entry : Nat)
  backing : Backing := {}
  blocks : List Ir.Block := []
  hooks : Std.TreeMap Nat Procedure := {}
  (externBase externNext : Nat := 0)
  externNames : List (String × Nat) := []
  kernelBase : Nat := 0
  continuations : List ((Nat × String) × Nat) := []
  (families deadend : Nat := 0)

namespace Program

variable (p : Program) (addr : Nat)

def isHooked : Bool := p.hooks.contains addr

def hook (proc : Procedure) (replace : Bool := false) : Program :=
  if p.isHooked addr && !replace then p else { p with hooks := p.hooks.insert addr { proc with addr := some addr } }

def unhook : Program := { p with hooks := p.hooks.erase addr }

def allocate (size : Nat := 1) (alignment : Nat := 8) : Nat × Program :=
  (p.externNext, { p with externNext := p.externNext + (size + alignment - 1) / alignment * alignment })

def named (name : String) : Nat × Program :=
  match p.externNames.lookup name with
  | some a => (a, p)
  | none =>
    let (a, p) := p.allocate
    (a, { p with externNames := p.externNames ++ [(name, a)] })

end Program

/-! ## Histories

What happened to a state, as a list of epochs: one for each step, the current one first. -/

structure Place where
  block : Option Nat := none
  stmt : Option Int := none
  instruction : Option Nat := none
  procedure : Option String := none

structure Tracked where
  value : Value
  (regs tmps : List Nat := [])

inductive ActionKind where
  | data | exit | constraint | operation
deriving DecidableEq

def ActionKind.label : ActionKind → String
  | .data => "Data"
  | .exit => "Exit"
  | .constraint => "Constraint"
  | .operation => "Operation"

structure Action where
  kind : ActionKind
  /-- What it acts on: `reg`, `mem`, `tmp`, a file, or the kind of action. -/
  type : String
  place : Place
  action : Option String := none
  (tmp offset : Option Nat := none)
  (addr size data condition fallback : Option Tracked := none)
  op : Option String := none
  exprs : Option (List Tracked) := none
  target : Option Tracked := none
  exitType : Option String := none
  constraint : Option Tracked := none
  actualAddrs : Option (List Nat) := none
  (ownRegs ownTmps : List Nat := [])

def Action.parts (a : Action) : List Tracked :=
  match a.kind with
  | .data => [a.addr, a.size, a.data, a.condition, a.fallback].filterMap id
  | .exit => [a.target, a.condition].filterMap id
  | .constraint => [a.constraint, a.condition].filterMap id
  | .operation => a.exprs.getD []

def Action.regs (a : Action) : List Nat := (a.ownRegs ++ a.parts.flatMap (·.regs)).eraseDups.mergeSort (· ≤ ·)

def Action.tmps (a : Action) : List Nat := (a.ownTmps ++ a.parts.flatMap (·.tmps)).eraseDups.mergeSort (· ≤ ·)

inductive Event where
  | note (type : String) (place : Place)
  | action (a : Action)
  | merged (events : List Event)

def Event.type? : Event → Option String
  | .note t _ => some t
  | .action a => some a.type
  | .merged _ => none

def Event.action? : Event → Option Action
  | .action a => some a
  | _ => none

def Event.constraint? : Event → Option Cond
  | .action { kind := .constraint, constraint := some { value := .cond c, .. }, .. } => some c
  | _ => none

structure StackAction where
  push : Bool
  depth : Nat
  ret : Option Int := none

structure Epoch where
  (id depth previousBlocks : Nat := 0)
  description : Option String := none
  jumpTarget : Option Quantity := none
  jumpGuard : Option Cond := none
  jumpkind : Option String := none
  events : List Event := []
  (blocks instructions : List Nat := [])
  stackActions : List StackAction := []
  (blockCount syscallCount : Nat := 0)
  instructionCount : Int := -1
  mergeConditions : List Cond := []
  mergedFrom : List Nat := []

structure History where
  current : Epoch := {}
  past : List Epoch := []

namespace History

variable (h : History)

def lineage : List Epoch := h.current :: h.past

def blockCount (h : History) : Nat := h.current.previousBlocks + h.current.blockCount

def addEvent (e : Event) : History := { h with current := { h.current with events := e :: h.current.events } }

def child (id : Nat) : History where
  current := { id, depth := h.current.depth + 1, previousBlocks := h.blockCount }
  past := h.lineage

def constraintsOf (e : Epoch) : List Cond := (e.events.filterMap Event.constraint?).reverse

def constraintsSince (ancestor : Option Nat) : List Cond :=
  (h.lineage.takeWhile fun e => some e.id != ancestor).flatMap constraintsOf

def bare (past : List Epoch) : History := { current := { h.current with events := [] }, past }

def merge (others : List History) (conds : List Cond) (ancestor : Option Nat) (past : List Epoch)
    (place : Place) : History :=
  let since := .any ((h.bare past :: others).map fun g => .all (g.constraintsSince ancestor))
  let action : Action := { kind := .constraint, type := "constraint", place, constraint := some { value := .cond since } }
  { current := { h.current with
      mergedFrom := others.map (·.current.id)
      mergeConditions := conds
      events := .action action :: ((h :: others).map fun g => .merged g.current.events.reverse).reverse }
    past }

def meet : List Nat → List Epoch → List Epoch → Option Nat
  | _, [], [] => none
  | seen, a :: as, [] => if seen.contains a.id then some a.id else meet (a.id :: seen) as []
  | seen, [], b :: bs => if seen.contains b.id then some b.id else meet (b.id :: seen) [] bs
  | seen, a :: as, b :: bs =>
    if seen.contains a.id then some a.id
    else
      let seen := a.id :: seen
      if seen.contains b.id then some b.id else meet (b.id :: seen) as bs
termination_by _ as bs => as.length + bs.length

def commonAncestor (h g : History) : Option Nat := meet [] h.lineage g.lineage

end History

/-! ## States

The state of a program under execution, and the world it lives in: what all states share. -/

/-! ### Call stack -/

structure Suspended where
  sp : Bits
  args : List Value
  locals : Fields := []

structure Frame where
  (callSite func sp : Option Nat := some 0)
  ret : Option Int := some 0
  jumpkind : String := "Ijk_Call"
  blockCounter : Std.TreeMap Nat Nat := {}
  suspended : Option Suspended := none

/-! ### Scratch -/

/-- The statement by which a block is left: one of its exits, or its end. -/
inductive ExitPoint where
  | atStmt (i : Nat)
  | atEnd
deriving DecidableEq

structure Scratch where
  block : Option Nat := none
  stmt : Option Int := none
  instruction : Option Nat := none
  (procedure jumpkind : Option String := none)
  guard : Cond := .lit true
  target : Option Quantity := none
  source : Option Nat := none
  exitStmt : Option ExitPoint := none
  exitInstruction : Option Nat := none
  avoidable : Bool := true
  temps : Std.TreeMap Nat Scalar := {}
  types : Array Ty := #[]
  /-- The ranges that were written since the step began, as address and length. -/
  dirtied : List (Nat × Nat) := []
  instructionCount : Nat := 0
  priv : List Bool := [false]

def Scratch.copy (s : Scratch) : Scratch := { s with priv := [false], avoidable := true, instructionCount := 0, dirtied := [] }

/-! ### Inspection -/

inductive When where
  | before | after | both
deriving DecidableEq

structure Breakpoint where
  id : Nat
  (name event : String)
  moment : When
  attributes : List String
  conditions : Fields := []
  assigns : Option (String × Value) := none

structure Inspector where
  attributes : Std.TreeMap String Value := {}
  breakpoints : List Breakpoint := []

/-! ### Libraries and files -/

structure Libc where
  heap : Nat := 0xc0000000
  mmapBase : Nat := 0xc0000000 + 0x80000
  bufSymbolicBytes : Nat := 60
  maxSymbolicStrstr : Nat := 1
  maxSymbolicStrchr : Nat := 16
  (maxVariableSize maxStrLen : Nat := 128)
  maxBufferSize : Nat := 48
  maxStrtolLen : Nat := 11
  maxMemcpySize : Nat := 4096
  strtokHeap : List Nat := []
  simpleStrtok : Bool := true
  strtokTokenSize : Nat := 1024
  ppc64Abi : Option String := none
  (ctypeTable toLowerTable toUpperTable errnoLocation : Option Nat := none)

inductive FileName where
  | text (s : String)
  | term (b : Bits)
deriving DecidableEq

def FileName.toValue : FileName → Value
  | .text s => .str s
  | .term b => .bits b

def FileName.label : FileName → String
  | .text s => s
  | .term (.lit _ v) => hexText v
  | .term _ => "symbolic"

structure File where
  name : FileName
  mode : Value
  pos : Quantity := .num 0
  size : Option Quantity := none
  closed : Bool := false
  content : Memory
  packets : Option (List Nat) := none

/-- Files, descriptors and what else a system keeps for a process. -/
structure Posix where
  table : Std.TreeMap Nat File := {}
  nextFile : Nat := 0
  fds : List (Nat × Nat) := []
  paths : List (FileName × Nat) := []
  sockets : List (Nat × Nat) := []
  brk : Quantity := .num 0x1b00000
  sigmask : Option Bits := none
  pid : Nat := 1337
  queuedReturns : List Value := []
  (argc argv environ : Value := .null)

structure Cgc where
  allocationBase : Quantity := .num 0xb8000000
  time : Quantity := .num 0
  maxAllocation : Nat := 0x10000000
  inputSize : Nat := 0
  sinkholes : List (Nat × Nat) := []

structure LoopData where
  tripCounts : List (Nat × List Int) := []
  current : List (Nat × List Nat) := []

/-! ### State and world -/

structure State where
  arch : Arch
  mode : Mode := .symbolic
  settings : Settings := Mode.settings .symbolic
  (constraints learned : List Cond := [])
  probes : List (List Cond) := []
  /-- The terms whose greatest or else least value was asked for, with the number of conditions at that time. -/
  extremes : List (Bits × Bool × Nat) := []
  (memory registers : Memory)
  scratch : Scratch := {}
  history : History := {}
  callstack : List Frame := [{}]
  inspector : Option Inspector := none
  libc : Option Libc := none
  posix : Option Posix := none
  cgc : Option Cgc := none
  globals : Option Fields := none
  loopData : Option LoopData := none
  tracked : Std.TreeMap String Nat := {}
  ipConstraints : List Cond := []
  osName : Option String := none
  (protectedMode feasible : Bool := true)

structure World where
  state : State
  commons : Commons := {}
  solver : Solver := .circuits
  (symbols merges serial : Nat := 0)
  eternal : Std.TreeMap String Bits := {}
  callbacks : Array (List Nat) := #[]
  multiwrite : List Bits := []
  trace : List (String × List Value) := []
  program : Option Program := none

abbrev Exec := EStateM Fault World

namespace Exec

def state : Exec State := fun w => .ok w.state w

@[inline] def modifyState (f : State → State) : Exec Unit := modify fun w => { w with state := f w.state }

def arch : Exec Arch := return (← state).arch

def wordBits : Exec Nat := return (← arch).bits

def has (s : Setting) : Exec Bool := return (← state).settings.has s

def serial : Exec Nat := modifyGet fun w => (w.serial, { w with serial := w.serial + 1 })

def onState (s : State) (act : Exec α) : Exec (α × State) := fun w =>
  match act { w with state := s } with
  | .ok a w' => .ok (a, w'.state) { w' with state := w.state }
  | .error f w' => .error f { w' with state := w.state }

def handling (k : FaultKind) (act : Exec α) (handler : Exec α) : Exec α :=
  tryCatch act fun f => if f.kind.within k then handler else throw f

end Exec

/-! ### Events -/

def State.place (s : State) : Place := ⟨s.scratch.block, s.scratch.stmt, s.scratch.instruction, s.scratch.procedure⟩

namespace Exec

def note (type : String) : Exec Unit := modifyState fun s => { s with history := s.history.addEvent (.note type s.place) }

def act (a : Action) : Exec Unit := modifyState fun s => { s with history := s.history.addEvent (.action a) }

def modifyScratch (f : Scratch → Scratch) : Exec Unit := modifyState fun s => { s with scratch := f s.scratch }

def modifyEpoch (f : Epoch → Epoch) : Exec Unit :=
  modifyState fun s => { s with history := { s.history with current := f s.history.current } }

end Exec

/-! ## Questions to the solver

What the conditions of the current state say about a term. -/

/-- The conditions that share symbols with `names`, directly or through each other. -/
def connected (fuel : Nat) (names : List String) (cs : List (Cond × List String)) : List Cond :=
  match fuel with
  | 0 => cs.map (·.1)
  | fuel + 1 =>
    let (near, far) := cs.partition fun c => c.2.any names.contains
    if near.isEmpty then []
    else near.map (·.1) ++ connected fuel (near.flatMap (·.2) ++ names).eraseDups far

def State.context (s : State) (about : List String) (extra : List Cond) : List Cond :=
  if extra.isEmpty then s.constraints
  else if s.constraints.any (·.isFalse) then [.lit false]
  else
    let names := (about ++ extra.flatMap (·.symbols)).eraseDups
    extra ++ connected s.constraints.length names (s.constraints.map fun c => (c, c.symbols))

/-! ### Models that are known

A solver keeps the models it has met. When an extreme of a term is asked for under further conditions, and the same
extreme was asked for without them, it is taken from the models that are known, if any of them meets the conditions: the
answer can then fall short of what is possible. -/

def State.models (s : State) (S : Solver) : List Model :=
  s.probes.foldr (fun cs known => if known.any fun m => m.Meets cs then known else known ++ (S.model? cs).toList) []

/-- The extreme value of a term among the known models that meet further conditions. -/
def State.recalled? (s : State) (S : Solver) (isGreatest : Bool) (e : Bits) (extra : List Cond) : Option Nat :=
  match s.extremes.find? fun (t, g, _) => g == isGreatest && t == e with
  | none => none
  | some (_, _, count) =>
    let early := s.constraints.drop (s.constraints.length - count)
    let known := s.models S
    if known.any fun m => m.Meets early && !m.Meets s.constraints then none
    else
      let vs := (known.filter fun m => m.Meets (extra ++ s.constraints)).map e.eval
      if isGreatest then vs.max? else vs.min?

namespace Exec

def unsat : Fault := .of .unsat

variable (c : Cond)

def learn : Exec Unit := do
  if ← has .replacementSolver then return
  modifyState fun s => { s with learned := if c.isTrue || s.learned.contains c then s.learned else c :: s.learned }

def probe (cs : List Cond) : Exec Unit := modifyState fun s => { s with probes := cs :: s.probes }

def values (e : Bits) (n : Nat) (extra : List Cond := []) : Exec (List Nat) := do
  match e with
  | .lit _ v => return [v]
  | _ =>
    let w ← get
    let cs := w.state.context e.symbols extra
    match w.solver.values cs e n with
    | [] => throw unsat
    | vs =>
      vs.forM fun v => probe (.eqNat e v :: cs)
      if extra.isEmpty && vs.length < n then learn (.any (vs.map fun v => .eqNat e v))
      return vs.mergeSort (· ≤ ·)

variable (e : Bits)

def eval (extra : List Cond := []) : Exec Nat := return (← values e 1 extra).headD 0

def evalCounted (limit : Nat) (fits : Nat → Bool) (want method : String) (extra : List Cond) : Exec (List Nat) := do
  let vs ← values e limit extra
  if !fits vs.length then throw (.because .solverValue s!"Concretized {vs.length} values (must be {want}) in {method}")
  return vs

def evalExact (n : Nat) (extra : List Cond := []) := evalCounted e (n + 1) (· = n) s!"exactly {n}" "eval_exact" extra

def evalOne (extra : List Cond := []) : Exec Nat := return (← evalExact e 1 extra).headD 0

def evalAtMost (n : Nat) (extra : List Cond := []) := evalCounted e (n + 1) (· ≤ n) s!"at most {n}" "eval_atmost" extra

def evalAtLeast (n : Nat) (extra : List Cond := []) := evalCounted e n (· = n) s!"at least {n}" "eval_atleast" extra

def extreme (isGreatest : Bool) (e : Bits) (extra : List Cond) : Exec Nat := do
  match e with
  | .lit _ v => return v
  | _ =>
    let w ← get
    let recalled := if extra.isEmpty || w.state.settings.has .cachelessSolver then none
      else w.state.recalled? w.solver isGreatest e extra
    match recalled with
    | some v => return v
    | none =>
      let cs := w.state.context e.symbols extra
      match if isGreatest then w.solver.greatest cs e else w.solver.least cs e with
      | none => throw unsat
      | some v =>
        probe (.eqNat e v :: cs)
        if extra.isEmpty then
          let bound := .ofNat e.width v
          learn (if isGreatest then .ule e bound else .uge e bound)
          modifyState fun s => { s with extremes := (e, isGreatest, s.constraints.length) :: s.extremes }
        return v

def least (extra : List Cond := []) : Exec Nat := extreme false e extra

def greatest (extra : List Cond := []) : Exec Nat := extreme true e extra

def solverSatisfiable (extra : List Cond := []) : Exec Bool := do
  let w ← get
  let cs := extra ++ w.state.constraints
  let holds := w.solver.satisfiable cs
  if holds then probe cs
  return holds

def satisfiable (extra : List Cond := []) : Exec Bool := do
  if ← has .symbolic then solverSatisfiable extra
  else if extra.any (·.isFalse) then return false
  else return (← state).feasible

def canHold (extra : List Cond := []) : Exec Bool := do
  match c with
  | .lit b => return b
  | _ =>
    let w ← get
    if extra.isEmpty && !w.solver.satisfiable w.state.constraints then throw unsat
    let cs := w.state.context [] (c :: extra)
    let holds := w.solver.satisfiable cs
    if holds then probe cs
    return holds

def canBe (v : Nat) (extra : List Cond := []) : Exec Bool := canHold (.eqNat e v) extra

def oneValue? : Exec (Option Nat) := do
  match e with
  | .lit _ v => return some v
  | _ =>
    let w ← get
    match w.solver.values w.state.constraints e 2 with
    | [v] => return some v
    | _ => return none

def oneTruth? : Exec (Option Bool) := do
  match c with
  | .lit b => return some b
  | _ => return (← oneValue? (.ofCond c)).map (· == 1)

/-- Adds conditions to the solver; those that are plainly true are left out. -/
def addRaw (cs : List Cond) : Exec (List Cond) := do
  let cs := cs.filter (!·.isTrue)
  modifyState fun s => { s with constraints := cs.reverse ++ s.constraints }
  return cs

def unique : Exec Bool := do
  if e.symbolic && !(← has .symbolic) then return false
  match ← values e 2 with
  | [v] =>
    let _ ← addRaw [Cond.eqNat e v]
    return true
  | _ => return false

variable (q : Quantity)

def evalQ : Exec Nat :=
  match q with
  | .num n => return n
  | .bits b => eval b

def leastQ : Exec Nat :=
  match q with
  | .num n => return n
  | .bits b => least b

def greatestQ : Exec Nat :=
  match q with
  | .num n => return n
  | .bits b => greatest b

/-! ### Inspection -/

def resolveOne (v : Value) : Exec Value := do
  match v with
  | .bits b => return ((← oneValue? b).map fun n => .bits (.lit b.width n)).getD v
  | .cond c => return ((← oneTruth? c).map .bool).getD v
  | _ => return v

def resolve : Value → Exec Value
  | .list vs => return .list (← vs.mapM resolveOne)
  | v => resolveOne v

/-- Whether an attribute can be the value that a breakpoint asks for, and if `only`, nothing else. -/
def meets (current needed : Value) (only : Bool) : Exec Bool := do
  match current with
  | .null => return needed.isNull
  | .bits b =>
    let can ← match needed with
      | .null => pure false
      | .bits c => canHold (.eq b c)
      | v => match v.nat? with
        | some n => canBe b n
        | none => raise .badType
    if can && only then unique b else return can
  | .cond c =>
    match needed with
    | .bool b =>
      let can ← canHold (if b then c else c.mkNot)
      if can && only then unique (.ofCond c) else return can
    | _ => return false
  | .int i =>
    match needed with
    | .int j => return i == j
    | .bits b => canHold (.eq b (.ofInt b.width i))
    | _ => return false
  | .str _ => if needed.isNull then return false else raise .badAttribute
  | _ => return false

def fires (bp : Breakpoint) (moment : When) : Exec Bool := do
  if bp.moment ≠ moment && bp.moment ≠ .both then return false
  let rec go : Fields → Exec Bool
    | [] => return true
    | (k, needed) :: rest => do
      if k.endsWith "_unique" then go rest
      else
        let current := (((← state).inspector.getD {}).attributes[k]?).getD .null
        let only := match bp.conditions.lookup (k ++ "_unique") with
          | some (.bool b) => b
          | _ => true
        if ← meets current needed only then go rest else return false
  go bp.conditions

variable (k : String)

def setAttribute (v : Value) : Exec Unit :=
  modifyState fun s => { s with inspector := s.inspector.map fun i => { i with attributes := i.attributes.insert k v } }

def tell (event : String) (moment : When) (bp : Breakpoint) : Exec Unit := do
  if bp.event == event then
    if ← fires bp moment then
      let i := (← state).inspector.getD {}
      let vs ← bp.attributes.mapM fun k => resolve ((i.attributes[k]?).getD .null)
      modify fun w => { w with trace := (bp.name, vs) :: w.trace }
      match bp.assigns with
      | some (k, v) => setAttribute k v
      | none => pure ()

def inspect (event : String) (moment : When) (attrs : Fields) : Exec Unit := do
  match (← state).inspector with
  | none => return
  | some _ =>
    attrs.forM fun (k, v) => setAttribute k v
    ((← state).inspector.getD {}).breakpoints.forM (tell event moment)

/-- An attribute of the event under way, which a breakpoint may have set. -/
def attr (v : Value) : Exec Value := do
  match (← state).inspector with
  | none => return v
  | some i => return (i.attributes[k]?).getD .null

def attributeBits (b : Bits) : Exec Bits := do
  match ← attr k (.bits b) with
  | .bits b => return b
  | .int i => return .ofInt b.width i
  | _ => raise .badType

def attributeQ (q : Quantity) : Exec Quantity := do
  match Quantity.ofValue? (← attr k q.toValue) with
  | some q => return q
  | none => raise .badType

def downsizeInspector : Exec Unit :=
  modifyState fun s => { s with inspector := some { s.inspector.getD {} with attributes := {} } }

/-! ### Conditions and symbols -/

/-- A term in a simpler form of the same meaning: one that has a single value whatever its symbols are becomes it. -/
def simplify : Exec Bits := do
  match e with
  | .lit .. | .sym .. => return e
  | _ =>
    match (← get).solver.values [] e 2 with
    | [v] => return .lit e.width v
    | _ => return e

def simplifyCond : Exec Cond := do
  match c with
  | .lit _ => return c
  | _ =>
    match (← get).solver.values [] (.ofCond c) 2 with
    | [v] => return .lit (v == 1)
    | _ => return c

def constraintAction : Exec Unit := do
  act { kind := .constraint, type := "constraint", place := (← state).place, constraint := some { value := .cond c } }

def addConstraints (cs : List Cond) (noted : Bool := false) : Exec Unit := do
  if cs.isEmpty then return
  if ← has .trackConstraints then
    let cs ← if ← has .simplifyConstraints then cs.mapM simplifyCond else pure cs
    inspect "constraints" .before [("added_constraints", .list (cs.map .cond))]
    let cs ← match ← attr "added_constraints" (.list (cs.map .cond)) with
      | .list vs => pure (vs.filterMap fun | .cond c => some c | .bool b => some (.lit b) | _ => none)
      | _ => raise .badType
    let added ← addRaw cs
    inspect "constraints" .after []
    if ← has .trackConstraintActions then (added.filter (!·.isFalse)).forM constraintAction
  else if noted then
    if ← has .trackConstraintActions then cs.forM fun c => if c.symbolic then constraintAction c else return
  if !(← has .symbolic) then
    if cs.any (·.isFalse) then modifyState ({ · with feasible := false })

def freshSymbol (name : String) (bits : Nat) (inspected : Bool := true) (events : Bool := true) : Exec Bits := do
  let n ← modifyGet fun w => (w.symbols, { w with symbols := w.symbols + 1 })
  let full := s!"{name}_{n}_{bits}"
  let b := .sym full bits
  if inspected then
    inspect "symbolic_variable" .after
      [("symbolic_name", .str full), ("symbolic_size", .ofNat bits), ("symbolic_expr", .bits b)]
  if events then note "unconstrained"
  return b

def eternalSymbol (key name : String) (bits : Nat) : Exec Bits := do
  match (← get).eternal[key]? with
  | some b =>
    inspect "symbolic_variable" .after [("symbolic_name", .str name), ("symbolic_size", .ofNat bits), ("symbolic_expr", .bits b)]
    note "unconstrained"
    return b
  | none =>
    let b ← freshSymbol name bits
    modify fun w => { w with eternal := w.eternal.insert key b }
    return b

/-- A value of which nothing is known: a fresh symbol, or zero where values start as zero. -/
def unconstrained (name : String) (bits : Nat) (inspected : Bool := true) (events : Bool := true) : Exec Bits := do
  if ← has .symbolicInitialValues then freshSymbol name bits inspected events else return .lit bits 0

end Exec

end SymExec
