import SymExec.Analysis.Veritest
import SymExec.Analysis.Recovery
import SymExec.Console.Variables
import SymExec.Console.Steps

/-!
# Steps on control flow

Finding the control flow of a program, and asking for what was found: the graph, the functions and how they call each other, labels,
loops and slices.
-/

namespace SymExec.Console

/-! ### Showing -/

def exitPointText : Option ExitPoint → String
  | some (.atStmt i) => toString i
  | some .atEnd => "default"
  | none => "None"

variable (p : Program)

def flowData (g : FlowGraph) : Data :=
  let node (n : FlowNode) : Data :=
    let f := g.factsOf n
    let name := n.procedure <|> (p.externNames.find? (·.2 = n.addr)).map (·.1)
    .list [.int n.addr, .ofNat? n.size, .ofNat? f.function, .opt .str name, .bool f.noReturn, .bool f.isSyscall,
      .opt .str n.procedure, numbers f.instructions, .int n.looping]
  let arc (a : Arc FlowNode FlowArc) : Data :=
    .list [.int a.src.addr, .int a.dst.addr, .str a.label.jumpkind, .str (exitPointText a.label.stmt), .ofNat? a.label.ins]
  .obj [("nodes", .sorted (g.graph.nodes.map node)), ("edges", .sorted (g.graph.arcs.map arc))]

variable (k : Knowledge) (f : Function)

def hasUnknown (jumpkind : String) : Bool :=
  f.own.keys.any fun a => k.unresolved.contains a && (match p.blockAt a with | .ok b => b.jumpkind = jumpkind | .error _ => false)

/-- The blocks of a function: address, size, and the code where it is known to be a block. -/
def codeOf : Try (List (Nat × Nat × Option Ir.Block)) :=
  f.own.entries.foldlM (fun bs (a, n) =>
    match n, n.size? with
    | .block .., some size => do
      let b ← p.blockAt a { bytes := some size }
      return bs ++ [(a, size, some b)]
    | _, some size => return bs ++ [(a, size, none)]
    | _, none =>
      match p.blockAt a with
      | .ok b => return bs ++ [(a, b.size, some b)]
      | .error e => if e.kind.within .engine || e.kind.within .memory then return bs else .error e) []

def functionData : Try Data := do
  let addrs (ns : List CodeNode) := numbers (ordered (ns.map CodeNode.addr))
  let sites (ns : List (Option CodeNode)) : Try Data := do
    return addrs (← ns.mapM (orRaise · .badAttribute))
  let transfer (a : Arc CodeNode Transfer) : Data :=
    .list [.int a.src.addr, .int a.dst.addr, .str a.label.kind.label, .bool a.label.outside,
      .str (if a.label.confirmed then "True" else "None")]
  return .obj [
    ("addr", .int f.addr), ("name", .str f.name), ("plt", .bool f.isPlt), ("syscall", .bool f.isSyscall),
    ("simproc", .bool f.isProcedure), ("return", .bool f.hasReturn),
    ("returning", .opt .bool f.returning),
    ("startpoint", .ofNat? (f.startpoint.map CodeNode.addr)),
    ("size", .int (((← codeOf p f).map fun (_, size, _) => size).sum)),
    ("blocks", numbers (ordered f.blockAddrs)),
    ("endpoints", ← sites f.endpoints), ("rets", addrs f.retSites), ("jumpouts", addrs f.jumpoutSites),
    ("callouts", ← sites f.calloutSites), ("retouts", addrs f.retoutSites),
    ("calls", .sorted (f.callSites.entries.map fun (a, c) => .list [.int a, .int c.target, .ofNat? c.back])),
    ("graph", numberPairs (f.graph.arcs.map fun a => (a.src.addr, a.dst.addr))),
    ("transitions", .sorted (f.transfers.arcs.map transfer)),
    ("unresolved", .list [.bool (hasUnknown p k f "Ijk_Boring"), .bool (hasUnknown p k f "Ijk_Call")])]

/-! ### Finding control flow -/

def readNats (v : Value) : List Nat := v.items.filterMap Value.nat?

variable (kw : Fields)

def readScan : Try ScanOptions := do
  checkNames kw ("function_starts normalize force_complete_scan collect_data_references resolve_indirect_jumps regions " ++
    "start_at_entry function_prologues exclude_sparse_regions extra_cross_references symbols") .badKey
  let flag (k : String) (d : Bool) := match kw.lookup k with | some v => v.truth | none => d
  let region (v : Value) := match readNats v with | [a, b] => some (a, b) | _ => none
  return {
    regions := (arg kw "regions").given?.map (·.items.filterMap region)
    starts := readNats (arg kw "function_starts")
    atEntry := flag "start_at_entry" true
    prologues := flag "function_prologues" true
    complete := flag "force_complete_scan" true
    resolveJumps := flag "resolve_indirect_jumps" false
    normalize := flag "normalize" false
    collectData := flag "collect_data_references" false
    allReferences := flag "extra_cross_references" false
    skipSparse := flag "exclude_sparse_regions" true }

def Step.survey : Step Survey := do orRaise (← get).survey .badAttribute

def Step.setKnowledge (k : Knowledge) : Step Unit := modify ({ · with knowledge := k })

def settingsNamed (v : Value) : List Setting := v.items.filterMap (·.str?.bind Setting.ofName?)

def tracedSettings : Value → List Setting
  | .str "refs" => [.trackRegisterActions, .trackMemoryActions, .trackTmpActions, .trackJmpActions, .actionDeps, .trackConstraintActions]
  | v => settingsNamed v

def readTrace : Try TraceOptions := do
  checkNames kw ("starts start context_sensitivity_level call_depth keep_state normalize max_iterations avoid_runs " ++
    "address_whitelist max_steps state_add_options state_remove_options")
  let number (k : String) (d : Nat) := (arg kw k).nat?.getD d
  return {
    starts := match arg kw "start", arg kw "starts" with
      | .int i, _ => some [i.toNat]
      | _, .null => none
      | _, v => some (readNats v)
    level := number "context_sensitivity_level" 1
    callDepth := (arg kw "call_depth").int?
    keepsStates := (arg kw "keep_state").truth
    normalize := (arg kw "normalize").truth
    rounds := number "max_iterations" 1
    avoid := readNats (arg kw "avoid_runs")
    allowed := (arg kw "address_whitelist").given?.map readNats
    maxSteps := (arg kw "max_steps").nat?
    adding := tracedSettings (arg kw "state_add_options")
    removing := tracedSettings (arg kw "state_remove_options") }

variable (a : Args)

def traceFlowStep : Step Reply := do
  let o ← readTrace a.kw
  let p := (← Step.program).withUnknownTarget
  modify fun s => { s with world := { s.world with program := some p } }
  let own := (← get).world.state
  match p.trace o (← get).knowledge (← get).world with
  | .ok () r =>
    modify fun s => { s with
      world := { r.world with state := own }, knowledge := r.knowledge, survey := some { flow := r.flow, keepsStates := o.keepsStates } }
    tell (flowData p r.flow)
  | .error f r => do
    modify fun s => { s with world := { r.world with state := own }, knowledge := r.knowledge }
    throw f

def scanFlowStep : Step Reply := do
  let o ← readScan a.kw
  let p := (← Step.program).withUnknownTarget
  modify fun s => { s with world := { s.world with program := some p } }
  match p.scan o (← get).knowledge with
  | .ok () r =>
    modify fun s => { s with knowledge := r.knowledge, survey := some { flow := r.flow, scan := some r } }
    tell (flowData p r.flow)
  | .error f r => do
    Step.setKnowledge r.knowledge
    throw f

def cfgStep : Step Reply := do
  match a.arg 0 with
  | .null | .str "CFGFast" => scanFlowStep a
  | .str "CFGAccurate" => traceFlowStep a
  | _ => raise .badAttribute

/-! ### Functions -/

def functionsStep : Step Reply := do
  let p ← Step.program
  let k := (← get).knowledge
  tell (.list (← ofExcept (k.functions.all.mapM (functionData p k))))

def functionStep : Step Reply := do
  let p ← Step.program
  let addr ← (a.arg 0).natural
  let k := (← get).knowledge
  let f ← orRaise (k.functions.get? addr) .badKey
  let whole (f : Function) : Step Reply := do
    tell (← functionData p (← get).knowledge f)
  match a.arg 1 with
  | .null | .str "show" => whole f
  | .str "normalize" =>
    let f := f.normalize
    Step.setKnowledge { k with functions := k.functions.modify addr fun _ => f }
    whole f
  | .str "repr" => give (.str (f.text (hexText addr)))
  | .str "in" => give (.list ((a.pos.drop 2).map fun v => .bool (v.nat?.any f.contains)))
  | .str "blocks" => tell (numberPairs ((← codeOf p f).map fun (a, size, _) => (a, size)))
  | .str "code_constants" =>
    let cs := (← codeOf p f).flatMap fun (_, _, b) => (b.map (·.constants p.arch.ipOffset)).getD []
    tell (numbers (ordered (cs.filterMap Ir.Const.nat?).eraseDups))
  | .str "operations" =>
    let ops := (← codeOf p f).flatMap fun (_, _, b) => (b.map Ir.Block.operations).getD []
    tell (texts ops.eraseDups)
  | .str "isize" =>
    let ins ← (a.arg 2).natural
    let sizes := (← codeOf p f).flatMap fun (_, _, b) => ((b.map (·.stmts)).getD []).filterMap fun s =>
      match s with | .mark a len d => if a + d = ins then some len else none | _ => none
    tell (.ofNat? sizes.head?)
  | _ => raise .badType

def functionName (f : Option Function) : Reply :=
  match f with
  | some f => (.list [.int f.addr, .str f.name] : Value)
  | none => Value.null

def functionTableStep : Step Reply := do
  let p ← Step.program
  let k := (← get).knowledge
  let t := k.functions
  let setTable (t : Functions) : Step Unit := Step.setKnowledge { k with functions := t }
  let first := a.arg 1
  let nearest (found : Option Nat) : Step Reply := do
    let some addr := found | return functionName none
    let (f, k) := k.functionAt p addr
    Step.setKnowledge k
    return functionName (some f)
  match ← (a.arg 0).text with
  | "in" => give (.bool (match first with | .str s => (t.ofName? s).isSome | v => v.nat?.any t.contains))
  | "contains_addr" => give (.bool (first.nat?.any t.contains))
  | "floor" => nearest (t.floor? (← first.natural))
  | "ceiling" => nearest (t.ceiling? (← first.natural))
  | "function" =>
    match first with
    | .str s => return functionName (t.ofName? s)
    | v =>
      let addr ← v.natural
      if t.contains addr || (a.arg 2).truth then nearest (some addr) else return functionName none
  | "len" => tell (.list [.int t.map.size, numbers t.addrs])
  | "del" =>
    let t ← t.erase (← first.natural)
    setTable t
    tell (numbers t.addrs)
  | "callgraph" => tell (.sorted (t.calls.map fun c => .list [.int c.src, .int c.dst, .str c.kind.label]))
  | "clear" =>
    setTable t.clear
    give (.int 0)
  | _ => raise .badType

def labelStep : Step Reply := do
  let p ← Step.program
  let k := (← get).knowledge
  let ls := k.labelsOf p
  Step.setKnowledge { k with labels := some ls }
  let first := a.arg 1
  let showAll := do
    tell (texts ((← get).knowledge.labelsOf p).addrs.keys)
  match ← (a.arg 0).text with
  | "set" =>
    let k ← k.setLabel p (← first.natural) (← (a.arg 2).text)
    Step.setKnowledge k
    showAll
  | "del" =>
    let ls ← ls.erase (← first.natural)
    Step.setKnowledge { k with labels := some ls }
    showAll
  | "get" => give (.str (← orRaise (ls.names.get? (← first.natural)) .badKey))
  | "lookup" => give (.int (← orRaise (ls.addrs.get? (← first.text)) .badKey))
  | "in" => give (.bool (first.nat?.any ls.names.contains))
  | _ => raise .badType

/-! ### Questions about the graph -/

def byteText (bs : List UInt8) : Data := .str (textOfBytes bs)

def flowQueryStep : Step Reply := do
  let p ← Step.program
  let s ← Step.survey
  let g := s.flow
  let inside := (arg a.kw "anyaddr").truth
  let plain := match a.kw.lookup "excluding_fakeret" with | some v => v.truth | none => true
  let keep := fun jk => match arg a.kw "jumpkind" with
    | .str wanted => jk = wanted && !(plain && FlowGraph.isFakeReturn jk)
    | _ => !(plain && FlowGraph.isFakeReturn jk)
  let nodeData (n : FlowNode) := .list [.int n.addr, .ofNat? n.size]
  let addr (i : Nat) : Step Nat := ofExcept (a.arg i).natural
  let node (i : Nat) : Step (Option FlowNode) := do return g.anyNode? (← addr i)
  let addrs (ns : List FlowNode) := numbers (ordered (ns.map (·.addr)))
  let data : Step Scan := orRaise s.scan .badAttribute
  match ← (a.arg 0).text with
  | "node" => tell (.opt nodeData (g.anyNode? (← addr 1) inside))
  | "all" => tell (.sorted ((g.allNodes (← addr 1) inside).map nodeData))
  | "preds" => tell (addrs (((← node 1).map (g.predecessors · keep)).getD []))
  | "succs" => tell (addrs (((← node 1).map (g.successors · keep)).getD []))
  | "succs_jk" =>
    tell (.sorted ((((← node 1).map (g.successorsBy · keep)).getD []).map fun (n, jk) => .list [.int n.addr, .str jk]))
  | "exit" =>
    match ← node 1, ← node 2 with
    | some u, some v => tell (.str (exitPointText (← g.exitTo u v)))
    | _, _ => raise .controlFlow
  | "branching" => tell (addrs g.branching)
  | "bytes" =>
    let at' ← addr 1
    let bytes := p.bytesAt at' (← addr 2)
    if bytes.isEmpty then tell (.list [.null, .null, .null])
    else tell (.list [byteText (bytes.take 1), byteText bytes, .ofNat? (p.pointerAt? at')])
  | "regions" => tell (.list [.list [.int p.base, .int (p.base + p.size - 1)]])
  | "indirect" =>
    tell (.sorted (g.indirect.values.map fun j =>
      .list [.int j.addr, .str j.jumpkind, .ofNat? j.ins, numbers (ordered j.targets)]))
  | "memory_data" =>
    tell (.sorted ((← data).data.values.map fun d => .list [.int d.addr, .ofNat? d.size, .opt .str d.sort, .opt .str d.content]))
  | "xrefs" =>
    let r ← data
    tell (.sorted (r.dataOf.entries.filterMap fun (ins, addr) => (r.data.get? addr).map fun d =>
      .list [.int ins, .int addr, .ofNat? d.size, .opt .str d.sort]))
  | "normalize" =>
    let g := g.normalize
    modify fun t => { t with survey := some { s with flow := g } }
    tell (flowData p g)
  | _ => raise .badType

/-! ### Analyses -/

def loopsStep : Step Reply := do
  let p ← Step.program
  let k := (← get).knowledge
  let normalize := match a.kw.lookup "normalize" with | some v => v.truth | none => true
  let (forest, k) := k.loops p k.functions.addrs normalize
  Step.setKnowledge k
  let addrs (l : Loop CodeNode) : Loop Nat :=
    let pairs (as : List (CodeNode × CodeNode)) := as.map fun (u, v) => (u.addr, v.addr)
    { entry := l.entry.addr, entryArcs := pairs l.entryArcs, breakArcs := pairs l.breakArcs
      continueArcs := pairs l.continueArcs, body := l.body.map CodeNode.addr, subloops := l.subloops.map CodeNode.addr
      hasCalls := l.hasCalls }
  tell (.obj [
    ("all", loopsData (forest.all.map addrs)),
    ("tops", .obj (forest.tops.entries.map fun (a, ls) => (hexText a, numbers (ordered (ls.map (·.entry.addr))))))])

def bladeStep : Step Reply := do
  let p ← Step.program
  let s ← Step.survey
  let addr ← (a.arg 0).natural
  let stmt := match a.arg 1 with | .int i => if i < 0 then none else some i.toNat | _ => none
  let g ← Blade.make p s.flow addr stmt
  if g.nodes.length > 1 && g.nodes.any fun n => n.2 = .atEnd then raise .badType
  let place (n : SlicePoint) := (n.1, match n.2 with | .atStmt i => i | .atEnd => 0)
  let le (a b : Nat × Nat) := a.1 < b.1 || (a.1 = b.1 && a.2 ≤ b.2)
  let point (n : Nat × Nat) := .list [.int n.1, .int n.2]
  let arcs := (g.arcs.map fun e => (place e.src, place e.dst)).mergeSort fun a b => if a.1 = b.1 then le a.2 b.2 else le a.1 b.1
  tell (.obj [
    ("nodes", numberPairs (g.nodes.map place)),
    ("slice", .list (arcs.map fun (u, v) => .list [point u, point v]))])

def controlStep : Step Reply := do
  let p ← Step.program
  let s ← Step.survey
  if s.scan.isSome then raise .badType
  let start := (arg a.kw "start").nat?.getD p.entry
  let place := endedText fun n : FlowNode => hexText n.addr
  match s.flow.anyNode? start with
  | none =>
    tell (.obj [("edges", .list []), ("guardians", .obj []),
      ("postdom", textPairs [("None", place .stop), (place .start, "None")])])
  | some entry =>
    let c := s.flow.controlDependence entry
    modify ({ · with control := some c })
    let guards : Table String Data := c.graph.nodes.foldl (fun t n =>
      t.set (hexText n.addr) (numbers (ordered ((c.graph.preds n).map (·.addr))))) {}
    tell (.obj [
      ("edges", numberPairs (c.graph.arcs.map fun a => (a.src.addr, a.dst.addr))),
      ("guardians", .obj guards.entries),
      ("postdom", textPairs (c.postDominators.arcs.map fun a => (place a.src, place a.dst)))])

def dataStep : Step Reply := do
  let p ← Step.program
  let s ← Step.survey
  if s.scan.isSome then raise .badAttribute
  if !s.keepsStates then refuse .dataDependence "CFG must have \"keep_state\" set to True."
  let start := (arg a.kw "start").nat?.getD p.entry
  let limit := (arg a.kw "call_depth").int?
  let d ← Step.exec (s.flow.dataDependence p start limit)
  modify ({ · with data := some d })
  tell (.obj [
    ("data", .int d.data.arcs.length), ("simplified", .int d.withoutTemporaries.arcs.length),
    ("stmts", .sorted (d.statements.arcs.map fun a =>
      .list [.str a.src.text, .str a.dst.text, .str a.label.label, .str a.label.text]))])

def sliceStep : Step Reply := do
  let p ← Step.program
  let s ← Step.survey
  let t ← get
  let b : SliceBase := {
    program := p, flow := s.flow, control := t.control, data := t.data, sameFunction := (arg a.kw "same_function").truth }
  let targets := (a.arg 0).items.map fun v => ((v.items.headD .null).nat?.bind s.flow.anyNode?, (v.items.getD 1 .null).int?)
  let key (k : Option Nat) := (k.map hexText).getD "None"
  if (arg a.kw "control_flow_slice").truth then
    let nodes ← targets.mapM fun (n, _) => orRaise n .badAttribute
    return ← tell (.obj [
      ("chosen", .obj ((b.blocksTo nodes).map fun a => (hexText a, .bool true))), ("exits", .obj []), ("taints", .null)])
  let r ← b.slice targets
  let stmts (xs : List (Option Int)) := .list ((xs.mergeSort fun a b => (a.getD 0) ≤ (b.getD 0)).map (.opt .int))
  let exit (e : SliceExit × Option Nat) := "(" ++ e.1.text ++ ", " ++ (e.2.map toString).getD "None" ++ ")"
  tell (.obj [
    ("chosen", .obj (r.chosen.entries.map fun (k, xs) => (key k, stmts xs))),
    ("exits", .obj (r.exits.entries.map fun (k, es) => (key k, texts (es.map exit)))),
    ("taints", texts (r.taints.nodes.map (·.text)))])

def recoveredData (v : Variable) : Data :=
  let phi := if v.isPhi then "Phi" else ""
  let size := .opt .int v.size
  let row (sort : String) (place : Data) := .list [.str (sort ++ phi), place, size, .bool v.isPhi]
  match v.head.storage with
  | .register o => row "SimRegisterVariable" (.int o)
  | .stack o _ _ => row "SimStackVariable" (.int o)
  | .memory a | .located _ a => row "SimMemoryVariable" (.int a)
  | .constant _ => row "SimConstantVariable" .null
  | .temporary _ => row "SimTemporaryVariable" .null

def recoverStep : Step Reply := do
  let p ← Step.program
  let addr ← (a.arg 0).natural
  let k := (← get).knowledge
  let limit := (arg a.kw "max_iterations").nat?.getD 3
  let f ← orRaise (k.functions.get? addr) .badKey
  match k.recoverVariables p f limit with
  | .error e k => do
    Step.setKnowledge k
    throw e
  | .ok () k =>
    Step.setKnowledge k
    let own := k.vars.function addr
    let accesses (v : Variable) := .sorted ((own.accessesTo v false).map fun x => .list [.str x.kind.text, .str x.location.text])
    tell (.sorted (own.vars.map fun v => .list [recoveredData v, accesses v]))

def flowStep? (name : String) (args : Step Args) : Option (Step Reply) :=
  let on (f : Args → Step Reply) : Option (Step Reply) := some (args >>= f)
  match name with
  | "cfg" => on cfgStep
  | "functions" => some functionsStep
  | "func" => on functionStep
  | "funcs" => on functionTableStep
  | "label" => on labelStep
  | "cfg_query" => on flowQueryStep
  | "loops" => on loopsStep
  | "cdg" => on controlStep
  | "ddg" => on dataStep
  | "slice" => on sliceStep
  | "variable_recovery" => on recoverStep
  | "blade" => on bladeStep
  | _ => none

end SymExec.Console
