import SymExec.Console.FlowSteps

/-!
# Steps on managers

A manager over states of a session.
-/

namespace SymExec.Console

open Exec

namespace Step

def modifyBench (f : Bench → Bench) : Step Unit := modify fun s => { s with bench := f s.bench }

def checkIn : Step Unit := do
  let s ← get
  let known ← s.bench.links.filterMapM fun (n, id) => do return (← state? n).map fun st => (id, st)
  let refresh (m : Member) := match known.lookup m.id with | some st => { m with state := st } | none => m
  modifyBench fun b => { b with manager := { b.manager with stashes := b.manager.stashes.map refresh } }

def checkOut : Step Unit := do
  let s ← get
  let all := s.bench.manager.stashes.all
  s.bench.links.forM fun (n, id) =>
    match all.find? (·.id = id) with
    | some m => putState n m.state
    | none => return

def exploring (act : Exploring α) : Step α := do
  checkIn
  let r : Try α ← modifyGet fun s =>
    match act { world := s.world, manager := s.bench.manager } with
    | .ok a e => (.ok a, { s with world := e.world, bench := { s.bench with manager := e.manager } })
    | .error f e => (.error f, { s with world := e.world, bench := { s.bench with manager := e.manager } })
  checkOut
  ofExcept r

end Step

/-! ### Showing -/

def shownIp (w : World) (s : State) : Data :=
  match ipOf w s with
  | some b => Value.displayBits (viewerOf w s) b
  | none => .null

def showStashes (w : World) (d : Bench) : Data :=
  let lists := d.manager.stashes.lists.filter (!·.2.isEmpty)
  let name (n : String) := if n.startsWith "merge_waiting" then "merge_waiting" else n
  let ips := lists.map fun (n, ms) => (name n, .sorted (ms.map fun m => shownIp w m.state))
  let errored := d.manager.errored.map fun (m, f) => Data.list [shownIp w m.state, .str f.kind.label]
  .obj (ips ++ if errored.isEmpty then [] else [("errored", .sorted errored)])

def showSummary (d : Bench) : Data :=
  if d.tampered then .null
  else
    let parts := d.manager.stashes.lists.filterMap fun (n, ms) => if ms.isEmpty then none else some s!"{ms.length} {n}"
    .list (((if parts.isEmpty then ["all stashes empty"] else parts).mergeSort (· ≤ ·)).map .str)

def showBench : Step Reply := do
  let s ← get
  tell (.obj [("repr", showSummary s.bench), ("stashes", showStashes s.world s.bench)])

/-! ### Reading -/

def readPredicate : Value → Try (Option Predicate)
  | .null => .ok none
  | .int a => .ok (some (.atAddr a.toNat))
  | .list [.str "reg", .str n, v] => .ok (some (.register n v))
  | .list [.str "ge", .int a] => .ok (some (.fromAddr a.toNat))
  | .list [.str "is", .int a] => .ok (some (.atAddr a.toNat))
  | .list [.str "len", .int n] => .ok (some (.blocks n.toNat))
  | .list vs => do return some (.among (← vs.mapM Value.natural))
  | _ => raise .badType

variable (v : Value)

def readGoal : Try Goal := do
  match v with
  | .null => return .nothing
  | .int a => return .addrs [a.toNat]
  | v =>
    match ← readPredicate v with
    | some (.among as) => return .addrs as
    | some p => return .test p
    | none => return .nothing

def readTest (byName : Bool) (v : Value) : Try (State → Exec Bool) := do
  match v with
  | .null => return fun _ => return true
  | v =>
    if !byName then return fun _ => raise .badType
    match ← readPredicate v with
    | some p => return fun _ => p.holds
    | none => return fun _ => return true

def stashName (usual : String) : Try String :=
  match v with
  | .str "" | .null => .ok usual
  | .str s => .ok s
  | _ => raise .badAttribute

variable (kw : Fields)

def readRequest (raw : Data) : Try Exploring.StepRequest := do
  return {
    stash := (arg kw "stash").str?.filter (· ≠ "")
    filter := ← readPredicate (arg kw "filter_func")
    selector := ← readPredicate (arg kw "selector_func")
    options := { toBlockOptions := readBlockOptions raw none } }

def readRepetition : Exploring.Repetition where
  count := (arg kw "n").nat?
  untilActive := (arg kw "until").nat?

variable (b : Fields)

def readExplorer : Try Explorer := do
  return {
    find := ← readGoal (arg b "find")
    avoid := ← readGoal (arg b "avoid")
    findStash := ← stashName (arg b "find_stash") "found"
    avoidStash := ← stashName (arg b "avoid_stash") "avoid"
    numFind := (arg b "num_find").int?.getD 1
    avoidFirst := (arg b "avoid_priority").truth }

def readVeritest : Try VeritestOptions := do
  checkNames kw "boundaries loop_unrolling_limit enable_function_inlining terminator deviation_filter"
  return {
    boundaries := (arg kw "boundaries").items.filterMap Value.nat?
    limit := (arg kw "loop_unrolling_limit").int?.getD 10 }

/-! ### Steps -/

variable (a : Args)

def managerStep : Step Reply := do
  let s ← get
  let id ← Step.exec serial
  let kept (k : String) := if (arg a.kw ("save_" ++ k)).truth then [] else [k]
  let dropped := match arg a.kw "auto_drop" with
    | .null => ["_DROP"] ++ kept "unconstrained" ++ kept "unsat"
    | v => "_DROP" :: v.items.filterMap (·.str?)
  let tolerated := match arg a.kw "resilience" with
    | .null => FaultKind.usual
    | .bool true => FaultKind.resilient
    | _ => []
  let m : Manager := { dropped, tolerated }
  let m := m.store "active" [{ id, state := s.world.state }]
  let veritesting := (arg a.kw "veritesting").truth
  modify fun s => { s with bench := {
    manager := m, links := [(s.current, id)], immutable := (arg a.kw "immutable").truth
    techniques := if veritesting then
      [("", .veritesting (readVeritest (match arg a.kw "veritesting_options" with | .dict fs => fs | _ => [])))] else [] } }
  let s ← get
  tell (showStashes s.world s.bench)

def pickStep : Step Reply := do
  let s ← get
  let stash : String ← (a.arg 0).text
  let all := s.bench.manager.stashes.get stash
  let ms : List Member := match a.arg 1 with
    | .str ip => all.filter fun m => (shownIp s.world m.state).str? == some ip
    | _ => all
  match ms with
  | [] => raise .badIndex
  | m :: _ =>
    let name := (a.arg 2).str?.getD "picked"
    Step.checkIn
    Step.putState name m.state
    let _ ← Step.use name
    Step.modifyBench fun b => { b with links := (name, m.id) :: b.links.filter (·.1 != name) }
    give (.ofNat ms.length)

def techniques : Step (List Technique) := return ((← get).bench.techniques.map (·.2)).reverse

def applyTo (source : String) (target : Option String) (change : Option (String × Value)) : Exploring Unit := do
  let ms ← (← Exploring.fetch source).mapM fun m => do
    match change with
    | none => return m
    | some (r, v) => do
      let (_, m) ← Exploring.onMember m do
        let (_, n) ← registerRange r
        match v with
        | .int i => setReg r (.ofInt (8 * n) i)
        | v => setReg r (← v.vector)
      return m
  let keep := if target.isSome then ms else []
  Exploring.modifyManager (·.divide source (target.getD source) keep ms)

variable (veritest : VeritestOptions → Exploring.Advance)

def operateStep (raw : List Data) (a : Args) : Step Unit := do
  let method ← (a.arg 0).text
  let rest : Args := { a with pos := a.pos.drop 1 }
  let named (k : String) := a.kw.any (·.1 == k)
  let ts ← techniques
  match method with
  | "step" =>
    let b ← ({ rest with kw := rest.kw.filter fun (k, _) => k != "num_inst" && k != "size" }.bind 0
      "n selector_func step_func stash successor_func until filter_func")
    Step.exploring (Exploring.step veritest ts (← readRequest b (keywords raw)) (readRepetition b))
  | "run" =>
    let b ← { rest with kw := [] }.bind 0 "stash n until"
    let b := b ++ rest.kw
    Step.exploring (Exploring.run veritest ts (← readRequest b (keywords raw)) (readRepetition b))
  | "explore" =>
    let b ← { rest with kw := [] }.bind 0 "stash n find avoid find_stash avoid_stash cfg num_find"
    let b := b ++ rest.kw
    let e ← readExplorer b
    Step.exploring (Exploring.explore veritest ts e (← readRequest b (keywords raw)) (readRepetition b))
  | "move" =>
    let b ← rest.bind 2 "from_stash to_stash filter_func"
    let test ← readTest (named "filter_func") (arg b "filter_func")
    Step.exploring (Exploring.move (← stashName (arg b "from_stash") "active") (← stashName (arg b "to_stash") "stashed") test)
  | "stash" | "unstash" | "drop" | "prune" =>
    let params := match method with
      | "unstash" => "filter_func to_stash from_stash"
      | "drop" => "filter_func stash"
      | _ => "filter_func from_stash to_stash"
    let b ← rest.bind 0 params
    let test ← readTest (named "filter_func") (arg b "filter_func")
    let name (k usual : String) : Step String := ofExcept (stashName (arg b k) usual)
    match method with
    | "stash" => do Step.exploring (Exploring.move (← name "from_stash" "active") (← name "to_stash" "stashed") test)
    | "unstash" => do Step.exploring (Exploring.move (← name "from_stash" "stashed") (← name "to_stash" "active") test)
    | "drop" => do Step.exploring (Exploring.move (← name "stash" "active") "_DROP" test)
    | _ => do Step.exploring (Exploring.prune test (← name "from_stash" "active") (← name "to_stash" "pruned"))
  | "split" =>
    let b ← rest.bind 0 "stash_splitter stash_ranker state_ranker limit from_stash to_stash"
    let rank := match arg b "state_ranker" with
      | .str r => some fun _ => do eval (← reg r)
      | _ => none
    let limit := (arg b "limit").nat?.getD 8
    Step.exploring (Exploring.splitOff rank limit (← stashName (arg b "from_stash") "active")
      (← stashName (arg b "to_stash") "stashed"))
  | "merge" =>
    let b ← rest.bind 0 "merge_func stash"
    Step.exploring (Exploring.mergeStash ((arg b "stash").str?.getD "active"))
  | "apply" =>
    let b ← rest.bind 0 "state_func stash_func stash to_stash"
    let change := match arg b "state_func" with
      | .list [.str r, v] => some (r, v)
      | _ => none
    let target ← match arg b "to_stash" with
      | .null | .str "" => pure none
      | v => some <$> ofExcept v.text
    Step.exploring (applyTo (← stashName (arg b "stash") "active") target change)
  | "populate" =>
    let b ← rest.bind 2 "stash states"
    let stash ← (arg b "stash").text
    let sts ← (arg b "states").items.filterMapM fun v => do Step.state? (← v.text)
    Step.exploring do
      let ms ← sts.mapM Exploring.enroll
      Exploring.modifyManager (·.store stash ms)
  | "complete" => return
  | _ => raise .badAttribute

def benchStep (raw : List Data) (a : Args) : Step Reply := do
  if (← get).bench.immutable then Step.modifyBench ({ · with techniques := [] })
  operateStep veritest raw a
  showBench

/-! ### Steps on techniques -/

def namedSurvey : Step (Option Survey) := do
  match v with
  | .bool true => return some (← Step.survey)
  | _ => return none

def explorerOf : Step Explorer := do
  let e ← readExplorer b
  match ← namedSurvey (arg b "cfg") with
  | some { flow, scan := none, .. } => return { e with known := flow.goodAddrs e.find.places e.avoid.places }
  | _ => return e

def readFunctions (k : Knowledge) (v : Value) : Try (Option (List Nat)) := do
  let one (v : Value) : Try Nat :=
    match v with
    | .str s => do return (← orRaise (k.functions.ofName? s) .badAttribute).addr
    | .int i => if k.functions.contains i.toNat then .ok i.toNat else raise .badAttribute
    | _ => raise .badType
  match v with
  | .null => return none
  | .list vs => return some (← vs.mapM one)
  | v => return some [← one v]

def loopSeerOf : Step LoopSeer := do
  let bound := (arg b "bound").int?
  let discard ← stashName (arg b "discard_stash") "spinning"
  match ← namedSurvey (arg b "cfg") with
  | some s =>
    let p ← Step.program
    let flow := if s.flow.normalized then s.flow else s.flow.normalize
    modify fun t => { t with survey := some { s with flow } }
    let k := (← get).knowledge
    let (seer, k) := LoopSeer.make p flow k (← readFunctions k (arg b "functions")) bound discard
    Step.setKnowledge k
    ofExcept seer
  | none =>
    let p := (← Step.program).withUnknownTarget
    modify fun t => { t with world := { t.world with program := some p } }
    match p.scan { normalize := true } {} with
    | .error f _ => throw f
    | .ok () r =>
      let names ← readFunctions r.knowledge (arg b "functions")
      ofExcept (LoopSeer.make p r.flow r.knowledge names bound discard).1

def readTechnique (key name : String) (a : Args) : Step (Technique × List String) := do
  match name with
  | "Explorer" =>
    let b ← a.bind 0 "find avoid find_stash avoid_stash cfg num_find avoid_priority"
    let e ← explorerOf b
    return (.explorer e, [e.findStash, e.avoidStash])
  | "LengthLimiter" =>
    let b ← a.bind 1 "max_length drop"
    return (.lengthLimiter (← (arg b "max_length").integer) (arg b "drop").truth, [])
  | "LoopLimiter" =>
    let b ← a.bind 0 "count discard_stash"
    let count := (arg b "count").int?.getD 5
    return (.loopLimiter count (← stashName (arg b "discard_stash") "spinning"), [])
  | "LoopSeer" =>
    let b ← a.bind 0 "cfg functions loops bound bound_reached discard_stash"
    return (.loopSeer (← loopSeerOf b), [])
  | "ManualMergepoint" =>
    let b ← a.bind 1 "address wait_counter"
    let addr ← (arg b "address").natural
    let waiting := "merge_waiting_" ++ hexText addr ++ "_" ++ key
    return (.mergepoint { addr, limit := (arg b "wait_counter").int?.getD 10, waiting }, [waiting])
  | "Veritesting" =>
    if !a.pos.isEmpty then raise .badType
    return (.veritesting (readVeritest a.kw), [])
  | _ => raise .badAttribute

def techniqueStep : Step Reply := do
  let key ← (a.arg 0).text
  let name ← (a.arg 1).text
  let (t, stashes) ← readTechnique key name { a with pos := a.pos.drop 2 }
  Step.modifyBench fun b => { b with
    techniques := b.techniques.filter (·.1 != key) ++ [(key, t)]
    tampered := true
    manager := { b.manager with stashes := stashes.foldl Stashes.open' b.manager.stashes } }
  let s ← get
  tell (showStashes s.world s.bench)

def untechniqueStep : Step Reply := do
  let key ← (a.arg 0).text
  if (← get).bench.techniques.all (·.1 != key) then raise .badKey
  Step.modifyBench fun b => { b with techniques := b.techniques.filter (·.1 != key) }
  give .null

end SymExec.Console
