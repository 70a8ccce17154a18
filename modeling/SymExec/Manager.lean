import SymExec.Engine.Run
import SymExec.State.Merge
import SymExec.Graph

/-!
# Simulation managers

A manager keeps states in stashes and steps all states of one stash at once.
-/

namespace SymExec

/-! ### Hierarchies of histories -/

structure Hierarchy where
  graph : Digraph Nat Unit := {}
  twigs : List Nat := []

namespace Hierarchy

variable (t : Hierarchy)

def add (h : History) : Hierarchy :=
  let g := t.graph.addNode h.current.id
  match h.past with
  | [] => { t with graph := g }
  | p :: _ =>
    let g := g.addArc p.id h.current.id ()
    let others := t.twigs.filter (· != p.id)
    { graph := g, twigs := if (g.succs p.id).length = 1 then others ++ [p.id] else others }

def remove (n : Nat) : Hierarchy :=
  let preds := t.graph.preds n
  let succs := t.graph.succs n
  let g := preds.foldl (fun g p => succs.foldl (fun g s => g.addArc p s ()) g) t.graph
  { graph := g.removeNode n, twigs := t.twigs.filter (· != n) }

def simplify : Hierarchy := t.twigs.foldl remove { t with twigs := [] }

def below (n : Nat) : List Nat := (t.graph.reachable n).filter (· != n)

def meeting? (ids : List Nat) : Option Nat :=
  t.graph.postorder.find? fun n => (ids.eraseDups.filter ((t.below n).contains ·)).length > 1

/-- The epoch that several of some histories have closest in common, those that have it and those that do not. -/
def mostMergeable (α : Type) (epoch : α → Nat) (xs : List α) : Option (List α × Nat × List α) :=
  (t.meeting? (xs.map epoch)).map fun n =>
    let (mine, others) := xs.partition fun x => (t.below n).contains (epoch x)
    (mine, n, others)

end Hierarchy

/-! ### Stashes -/

structure Stashes (α : Type) where
  lists : List (String × List α) := []

namespace Stashes

variable {α : Type} (s : Stashes α) (name : String)

def has : Bool := s.lists.any (·.1 == name)

def get : List α := (s.lists.lookup name).getD []

variable (xs : List α)

def replaceIn : List (String × List α) → List (String × List α)
  | [] => [(name, xs)]
  | (n, ys) :: rest => if n = name then (n, xs) :: rest else (n, ys) :: replaceIn rest

def set : Stashes α := ⟨replaceIn name xs s.lists⟩

def append : Stashes α := s.set name (s.get name ++ xs)

def clear : Stashes α := s.set name []

def open' : Stashes α := if s.has name then s else s.set name []

def all : List α := s.lists.flatMap (·.2)

def map (s : Stashes α) (f : α → α) : Stashes α := ⟨s.lists.map fun (n, xs) => (n, xs.map f)⟩

def ofNames (names : List String) : Stashes α := ⟨names.map fun n => (n, [])⟩

end Stashes

/-! ### Managers -/

structure Member where
  id : Nat
  state : State

def FaultKind.usual : List FaultKind := [.program, .execution, .badTerm]

def FaultKind.resilient : List FaultKind := usual ++ [.badKey, .badIndex, .badType, .badValue, .badDivision, .overflow]

structure Manager where
  stashes : Stashes Member := .ofNames ["active", "stashed", "pruned", "unsat", "errored", "deadended", "unconstrained"]
  errored : List (Member × Fault) := []
  tolerated : List FaultKind := FaultKind.usual
  dropped : List String := ["_DROP", "unconstrained", "unsat"]
  hierarchy : Hierarchy := {}
  counters : List (String × Nat) := []

inductive Fate (α : Type) where
  | sent (stash : String) (x : α)
  | kept (x : α)
  /-- It is replaced by its successors, each list for a stash or for the one that is stepped. -/
  | stepped (x : α) (next : List (Option String × List α))

namespace Fate

variable {α : Type}

def named (stash into : String) : String := if into.isEmpty then stash else into

def parts (stash : String) : Fate α → List (String × List α)
  | sent into x => [(named stash into, [x])]
  | kept x => [(stash, [x])]
  | stepped x next =>
    if next.all (·.2.isEmpty) then [("deadended", [x])]
    else next.map fun (into, xs) => (named stash (into.getD stash), xs)

end Fate

namespace Manager

variable (m : Manager) (stash : String)

def store (xs : List Member) : Manager := if m.dropped.contains stash then m else { m with stashes := m.stashes.append stash xs }

def allStashes : String := "_ALL"

def fetch? : Option (List Member) :=
  if m.stashes.has stash then some (m.stashes.get stash)
  else if stash = allStashes then some m.stashes.all
  else none

def clear (m : Manager) (stash : String) : Manager :=
  if stash = allStashes then { m with stashes := ⟨m.stashes.lists.map fun (n, _) => (n, [])⟩ }
  else { m with stashes := m.stashes.clear stash }

def place (fates : List (Fate Member)) : Manager :=
  (fates.flatMap (Fate.parts stash)).foldl (fun m (into, xs) => m.store into xs) (m.clear stash)

def divide (source target : String) (keep sent : List Member) : Manager := ((m.clear source).store source keep).store target sent

end Manager

structure Exploration where
  world : World
  manager : Manager

abbrev Exploring := EStateM Fault Exploration

namespace Exploring

def exec (act : Exec α) : Exploring α := fun e =>
  match act e.world with
  | .ok a w => .ok a { e with world := w }
  | .error f w => .error f { e with world := w }

instance : MonadLift Exec Exploring := ⟨exec⟩

def manager : Exploring Manager := return (← get).manager

@[inline] def modifyManager (f : Manager → Manager) : Exploring Unit := modify fun e => { e with manager := f e.manager }

def onMember (m : Member) (act : Exec α) : Exploring (α × Member) := do
  let (a, s) ← exec (Exec.onState m.state act)
  return (a, { m with state := s })

def enroll (s : State) : Exploring Member := return { id := ← exec Exec.serial, state := s }

def fetch (stash : String) : Exploring (List Member) := do
  match (← manager).fetch? stash with
  | some ms => return ms
  | none => raise .badAttribute

/-! ### Stepping -/

structure Policy where
  /-- Where a state goes instead of being stepped, and the state that goes there. -/
  filter : Member → Exploring (Option String × Member) := fun m => return (none, m)
  selector : Member → Exploring (Bool × Member) := fun m => return (true, m)
  advance : Member → Exploring (Member × List (Option String × List Member))

/-- The successors of a state, or what became of it where there are none. -/
def advanceBy (next : Exec Successors) (m : Member) : Exploring (Member × List (Option String × List Member)) := fun e =>
  match next { e.world with state := m.state } with
  | .ok o w =>
    let own := { m with state := w.state }
    let e := { e with world := { w with state := e.world.state } }
    let enrolled : Exploring (List (Option String × List Member)) := do
      let flat ← (o.states o.flat).mapM enroll
      let unsat ← (o.states o.unsat).mapM enroll
      let unconstrained ← (o.states o.unconstrained).mapM enroll
      return [(none, flat), (some "unsat", unsat), (some "unconstrained", unconstrained)]
    match enrolled e with
    | .ok next e => .ok (own, next) e
    | .error f e => .error f e
  | .error f w =>
    let own := { m with state := w.state }
    let e := { e with world := { w with state := e.world.state } }
    if f.kind.within .unsat then
      .ok (own, [(some "pruned", [own])]) { e with manager := { e.manager with hierarchy := e.manager.hierarchy.simplify } }
    else if e.manager.tolerated.any (f.kind.within ·) then
      .ok (own, []) { e with manager := { e.manager with errored := e.manager.errored ++ [(own, f)] } }
    else .error f e

def settle (p : Policy) (stash : String) (m : Member) : Exploring (Fate Member) := do
  let (into, m) ← p.filter m
  match into.filter (· != stash) with
  | some into => return .sent into m
  | none =>
    let (chosen, m) ← p.selector m
    if !chosen then return .kept m
    let (m, next) ← p.advance m
    return .stepped m next

def stepAll (p : Policy) (stash : String) : Exploring Unit := do
  let fates ← (← fetch stash).mapM (settle p stash)
  modifyManager (·.place stash fates)

/-! ### Operations on stashes -/

def separate (test : State → Exec Bool) : List Member → Exploring (List Member × List Member)
  | [] => return ([], [])
  | m :: ms => do
    let (b, m) ← onMember m (test m.state)
    let (yes, no) ← separate test ms
    return if b then (m :: yes, no) else (yes, m :: no)

def move (source target : String) (test : State → Exec Bool := fun _ => return true) : Exploring Unit := do
  let (yes, no) ← separate test (← fetch source)
  modifyManager (·.divide source target no yes)

def prune (test : State → Exec Bool := fun _ => return true) (source : String := "active") (target : String := "pruned") :
    Exploring Unit := do
  move source target fun s => do
    if !(← test s) then return false
    return !(← Exec.satisfiable)
  modifyManager fun m => { m with hierarchy := m.hierarchy.simplify }

def splitOff (rank : Option (State → Exec Nat)) (limit : Nat) (source : String := "active") (target : String := "stashed") :
    Exploring Unit := do
  let ms ← fetch source
  let ranked ← match rank with
    | none => pure ms
    | some r => do
      let keyed ← ms.mapM fun m => onMember m (r m.state)
      pure ((keyed.mergeSort fun a b => a.1 ≤ b.1).map (·.2))
  modifyManager (·.divide source target (ranked.take limit) (ranked.drop limit))

/-! ### Merging -/

def groups : Nat → List (Nat × Member) → List (List Member)
  | 0, _ => []
  | _, [] => []
  | fuel + 1, (a, m) :: rest =>
    let (same, others) := rest.partition (·.1 = a)
    (m :: same.map (·.2)) :: groups fuel others

def mergeStates : Nat → List Member → Exploring Member
  | 0, _ => raise .recursion
  | _, [] => raise .badIndex
  | fuel + 1, ms@(first :: others) => do
    let epoch (m : Member) := m.state.history.current.id
    match (← manager).hierarchy.mostMergeable Member epoch ms with
    | some (o :: near, n, far) =>
      let conds := (o :: near).map fun m => .all (m.state.history.constraintsSince (some n))
      let ((merged, _), _) ← onMember o (Exec.merge (near.map (·.state)) (some conds))
      let m ← enroll merged
      modifyManager fun g => { g with hierarchy := g.hierarchy.add merged.history }
      if far.isEmpty then return m else mergeStates fuel (far ++ [m])
    | _ =>
      let ((merged, _), _) ← onMember first (Exec.merge (others.map (·.state)))
      let m ← enroll merged
      modifyManager fun g => { g with hierarchy := g.hierarchy.add merged.history }
      return m

def mergeStash (stash : String := "active") (by_ : Option (List Member → Exploring Member) := none) : Exploring Unit := do
  prune (fun _ => return true) stash
  let ms ← fetch stash
  let keyed ← ms.mapM fun m => onMember m Exec.addr
  let gs := groups (keyed.length + 1) keyed
  let alone := (gs.filter (·.length ≤ 1)).flatten
  let merged ← (gs.filter (·.length > 1)).mapM fun g =>
    tryCatch (do return [← (by_.getD (mergeStates (g.length + 1))) g]) fun f => if f.kind.within .merge then return g else throw f
  modifyManager fun m => (m.clear stash).store stash (alone ++ merged.flatten)

end Exploring

/-! ## Exploration techniques

A technique takes part in the steps of a manager: it wraps a step of all states, filters states before they are stepped, or takes
the place of the step of one state. -/

open Exec

/-! ### Conditions on states -/

inductive Predicate where
  | register (name : String) (value : Value)
  | fromAddr (addr : Nat)
  | atAddr (addr : Nat)
  | among (addrs : List Nat)
  | blocks (n : Nat)

def Predicate.holds : Predicate → Exec Bool
  | register name v => do
    let r ← reg name
    match v with
    | .int i => return (Cond.eq r (Bits.ofInt r.width i)).isTrue
    | .bits b => return (Cond.eq r b).isTrue
    | _ => return false
  | fromAddr a => do return decide (a ≤ (← addr))
  | atAddr a => do return (← addr) == a
  | among as => do return as.contains (← addr)
  | blocks n => do return decide (n ≤ (← state).history.blockCount)

inductive Goal where
  | nothing
  | addrs (as : List Nat)
  | test (p : Predicate)

inductive Hit where
  | no
  | yes
  | within (as : List Nat)

def Hit.isHit : Hit → Bool
  | no => false
  | yes => true
  | within as => !as.isEmpty

def Hit.addrs : Hit → List Nat
  | within as => as
  | _ => []

def Hit.isSet : Hit → Bool
  | within _ => true
  | _ => false

def Goal.places : Goal → List Nat
  | addrs as => as
  | _ => []

def Goal.check : Goal → Exec Hit
  | nothing => return .no
  | test p => do return if ← p.holds then .yes else .no
  | addrs as => do
    let a ← addr
    if as.contains a then return .within [a]
    let some p := (← get).program | return .no
    match p.blockAt a with
    | .error _ => return .no
    | .ok b => return .within (as.eraseDups.filter b.instructions.contains)

/-! ### Techniques -/

structure Explorer where
  (find avoid : Goal := .nothing)
  findStash : String := "found"
  avoidStash : String := "avoid"
  numFind : Int := 1
  avoidFirst : Bool := false
  known : Option (List Nat × List Nat) := none

structure WatchedLoop where
  (before head : Nat)
  exits : List Nat
  back : Nat × Nat

structure LoopSeer where
  loops : List WatchedLoop := []
  bound : Option Int := none
  discard : String := "spinning"
  lengths : List (Nat × Nat) := []

structure Mergepoint where
  addr : Nat
  limit : Int := 10
  waiting : String

structure VeritestOptions where
  boundaries : List Nat := []
  limit : Int := 10

inductive Technique where
  | explorer (e : Explorer)
  | lengthLimiter (max : Int) (drop : Bool)
  | loopLimiter (count : Int) (discard : String)
  | loopSeer (l : LoopSeer)
  | mergepoint (m : Mergepoint)
  | veritesting (o : Try VeritestOptions)

namespace Exploring

/-! ### Explorer -/

variable (e : Explorer)

def followTo (found avoided : List Nat) : Nat → Member → Exploring (Option String × Member)
  | 0, _ => raise .recursion
  | fuel + 1, m => do
    let (a, m) ← onMember m addr
    if found.contains a then return (some (if e.avoidFirst && avoided.contains a then e.avoidStash else e.findStash), m)
    if avoided.contains a then return (some e.avoidStash, m)
    let (o, _) ← onMember m (successors { limits := { instructions := some 1 } })
    let s ← orRaise (o.states o.plain).head? .badIndex
    followTo found avoided fuel (← enroll s)

def exploreFilter (m : Member) : Exploring (Option String × Member) := do
  let (found, m) ← onMember m e.find.check
  if found.isHit then
    let (avoided, m) ← onMember m e.avoid.check
    if avoided.isHit && e.avoidFirst && (!found.isSet || !avoided.isSet) then return (some e.avoidStash, m)
    if found.isSet then followTo e found.addrs avoided.addrs 10000 m
    else
      if e.avoidFirst then
        let (a, m) ← onMember m addr
        return (some (if avoided.addrs.contains a then e.avoidStash else e.findStash), m)
      return (some e.findStash, m)
  else
    let (avoided, m) ← onMember m e.avoid.check
    if avoided.isHit then return (some e.avoidStash, m)
    let some (nodes, good) := e.known | return (none, m)
    let (a, m) ← onMember m addr
    return (if nodes.contains a && !good.contains a then some e.avoidStash else none, m)

/-! ### Loops -/

def bumpLast (f : Int → Int) (head : Nat) (d : LoopData) : LoopData :=
  { d with tripCounts := d.tripCounts.map fun (h, cs) =>
      if h = head then (h, match cs.getLast? with | some c => cs.dropLast ++ [f c] | none => cs) else (h, cs) }

def startCount (head : Nat) (d : LoopData) : LoopData :=
  if d.tripCounts.any (·.1 == head) then
    { d with tripCounts := d.tripCounts.map fun (h, cs) => if h = head then (h, cs ++ [0]) else (h, cs) }
  else { d with tripCounts := d.tripCounts ++ [(head, [0])] }

def lastCount (head : Nat) (d : LoopData) : Option Int := (d.tripCounts.lookup head).bind (·.getLast?)

variable (l : LoopSeer)

def followLoop (prog : Option Program) (addr : Nat) (d : LoopData) : Try (Option Nat × LoopData) := do
  let some (head, exits) := d.current.getLast? | return (none, d)
  if addr = head then return (some head, bumpLast (· + 1) head d)
  else if exits.contains addr then
    let d ← match l.loops.find? (·.head = head), prog with
      | some w, some p => do
        let b ← p.blockAt w.back.1
        pure (if w.back.1 ≠ w.back.2 && b.instructions.contains w.back.2 then bumpLast (· - 1) head d else d)
      | _, _ => pure d
    return (some head, { d with current := d.current.dropLast })
  else return (some head, d)

def enterLoop (addr : Nat) (d : LoopData) : LoopData :=
  match l.loops.reverse.find? (·.before = addr) with
  | none => d
  | some w => { startCount w.head d with current := d.current ++ [(w.head, w.exits)] }

def watch (stash : String) : Nat → Nat → Exploring Unit
  | 0, _ => return
  | fuel + 1, i => do
    let some m := ((← manager).stashes.get stash)[i]? | return
    let (addr, m) ← onMember m addr
    let d := m.state.loopData.getD {}
    let (head, d) ← ofExcept (followLoop l (← get).world.program addr d)
    let beyond := match head, l.bound with
      | some h, some b => (lastCount h d).any (b ≤ ·)
      | _, _ => false
    let m := { m with state := { m.state with loopData := some (enterLoop l addr d) } }
    modifyManager fun g =>
      let ms := g.stashes.get stash
      if beyond then { g with stashes := (g.stashes.set stash (ms.eraseIdx i)).append l.discard [m] }
      else { g with stashes := g.stashes.set stash (ms.set i m) }
    watch stash fuel (i + 1)

/-! ### Steps with techniques -/

structure StepRequest where
  stash : Option String := none
  (filter selector : Option Predicate := none)
  options : StepOptions := {}
  lengths : Option (List (Nat × Nat)) := none
  stopPoints : Bool := false

structure Repetition where
  (count untilActive : Option Nat := none)

def Repetition.once (r : Repetition) : Bool := r.count.isNone && r.untilActive.isNone

abbrev Advance := Member → Exploring (Option (List (Option String × List Member)))

variable (ts : List Technique) (r : StepRequest)

def filterBy (m : Member) : Exploring (Option String × Member) := do
  let own? : Option (Exploring (Option String × Member)) := ts.findSome? fun t =>
    match t with
    | .explorer e => some (exploreFilter e m)
    | .mergepoint _ => some (raise .badType)
    | _ => none
  match own?, r.filter with
  | some act, _ => act
  | none, none => return (none, m)
  | none, some p =>
    let (b, m) ← onMember m p.holds
    return (if b then some "filtered" else none, m)

def selectBy (m : Member) : Exploring (Bool × Member) :=
  match r.selector with
  | none => return (true, m)
  | some p => onMember m p.holds

def advancePlainly (m : Member) : Exploring (Member × List (Option String × List Member)) :=
  match r.lengths with
  | none => advanceBy (successors r.options) m
  | some lengths => do
    if r.stopPoints then raise .badType
    let (a, m) ← onMember m addr
    advanceBy (successors { limits := { instructions := lengths.lookup a } }) m

variable (veritest : VeritestOptions → Advance)

def advanceWith (r : StepRequest) : List Technique → Member →
    Exploring (Member × List (Option String × List Member))
  | [], m => advancePlainly r m
  | .veritesting o :: ts, m => do
    let m := { m with state := { m.state with settings := m.state.settings.insert .efficientStateMerging } }
    match ← veritest (← ofExcept o) m with
    | some next => return (m, next)
    | none => advanceWith r ts m
  | _ :: ts, m => advanceWith r ts m

def stepUnwrapped (ts : List Technique) (r : StepRequest) : Exploring Unit :=
  stepAll { filter := filterBy ts r, selector := selectBy r, advance := advanceWith veritest r ts } (r.stash.getD "active")

def sameStack : List Frame → List Frame → Bool
  | [], [] => true
  | f :: fs, g :: gs => f.func == g.func && f.sp == g.sp && f.ret == g.ret && sameStack fs gs
  | _, _ => false

/-! ### Merge points -/

variable (p : Mergepoint) (stash : String)

def release : Nat → Exploring Unit
  | 0 => return
  | fuel + 1 => do
    match (← manager).stashes.get p.waiting with
    | [] => return
    | m :: _ =>
      let stack := m.state.callstack
      move p.waiting "merge_tmp" fun s => return sameStack s.callstack stack
      if ((← manager).stashes.get "merge_tmp").length > 1 then mergeStash "merge_tmp"
      move "merge_tmp" stash
      release fuel

def afterMergepoint : Exploring Unit := do
  let waiting := (← manager).stashes.get p.waiting
  if waiting.isEmpty then return
  let count := ((← manager).counters.lookup p.waiting).getD 0 + 1
  modifyManager fun g => { g with counters := (p.waiting, count) :: g.counters.filter (·.1 != p.waiting) }
  let active := (← manager).stashes.get stash
  if !active.isEmpty && (count : Int) < p.limit then return
  if waiting.length = 1 then move p.waiting stash else release p stash (waiting.length + 1)

def stepWrapped (inner : StepRequest → Exploring Unit) : List Technique → StepRequest → Exploring Unit
  | [], r => inner r
  | t :: ts, r => do
    let next := stepWrapped inner ts
    match t with
    | .explorer _ => if r.stopPoints then raise .badType else next { r with stopPoints := true }
    | .lengthLimiter max drop =>
      next r
      move "active" (if drop then "_DROP" else "cut") fun s => return decide (max < (s.history.blockCount : Int))
    | .loopLimiter _ discard =>
      next r
      move (r.stash.getD "active") discard fun _ => raise .badAttribute
    | .loopSeer l =>
      next { r with lengths := some l.lengths }
      r.stash.forM fun s => do watch l s (((← manager).stashes.get s).length + 1) 0
    | .mergepoint p =>
      let stash := r.stash.getD "stashed"
      let stashes := (← manager).stashes
      if (stashes.get p.waiting).length = 1 && r.stash.all fun s => (stashes.get s).isEmpty then move p.waiting stash
      next r
      afterMergepoint p stash
    | .veritesting _ => next r

def isComplete (m : Manager) : Bool :=
  ts.any fun t =>
    match t with
    | .explorer e => decide (e.numFind ≤ ((m.stashes.get e.findStash).length : Int))
    | _ => false

def repeating (untilActive : Option Nat) (step : Exploring Unit) : Nat → Exploring Unit
  | 0 => return
  | n + 1 => do
    let m ← manager
    if isComplete ts m || (m.stashes.get stash).isEmpty then return
    step
    let active := ((← manager).stashes.get "active").length
    if untilActive.any (· ≤ active) then return
    repeating untilActive step n

def endlessly : Nat := 100000

/-- A step of a manager with techniques, the one installed last first. -/
def step (ts : List Technique) (r : StepRequest) (rep : Repetition := {}) : Exploring Unit :=
  let once := stepUnwrapped veritest ts
  stepWrapped (fun r =>
    if rep.once then once r
    else do
      let stash := r.stash.getD "active"
      let r := { r with stash := some stash }
      let n := rep.count.getD endlessly
      repeating ts stash rep.untilActive (once r) (min n 1)
      let m ← manager
      if n > 1 && !rep.untilActive.any (· ≤ (m.stashes.get "active").length) then
        repeating ts stash rep.untilActive (stepWrapped once ts r) (n - 1)) ts r

def run (ts : List Technique) (r : StepRequest) (rep : Repetition := {}) : Exploring Unit :=
  let stash := r.stash.getD "active"
  repeating ts stash rep.untilActive (step veritest ts { r with stash := some stash }) (rep.count.getD endlessly)

def explore (ts : List Technique) (e : Explorer) (r : StepRequest) (rep : Repetition := {}) :
    Exploring Unit := do
  let m ← manager
  let e := { e with numFind := e.numFind + (m.stashes.get e.findStash).length }
  modifyManager fun m => { m with stashes := (m.stashes.open' e.findStash).open' e.avoidStash }
  run veritest (.explorer e :: ts) r rep

end Exploring

/-! ### Calls from outside -/

def Exploring.runToReturn (deadend : Nat) : Exploring Unit := do
  run (fun _ _ => return none) [] {}
  move "deadended" "active"
  prune fun _ => do return (← addr) == deadend
  if ((← manager).stashes.get "active").isEmpty then refuse .callable "No paths returned from function"
  mergeStash

def Exec.call (p : Program) (addr : Quantity) (args : List Value) (sig : Signature) : Exec (Value × State) := do
  let s ← callState p addr args {} { signature := some sig }
  let id ← serial
  let m : Manager := {}
  let m := m.store "active" [{ id, state := s }]
  let final ← fun w =>
    match Exploring.runToReturn p.deadend { world := w, manager := m } with
    | .ok _ e => .ok (e.manager.stashes.get "active") e.world
    | .error f e => .error f e.world
  match final with
  | [] => raise .badIndex
  | m :: _ =>
    onState m.state do
      let base := (← sp).addInt (-sig.conv.retBytes)
      match ← getReturn sig none (some (.bits base)) with
      | .bits b => return .bits (← simplify b)
      | v => return v

end SymExec
