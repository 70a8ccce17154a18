import SymExec.Variable
import SymExec.Plugin.Hub
import SymExec.Console.Value
import SymExec.Graph

/-!
# Requests about graphs, variables and plugins

What is asked of single structures, without a session.
-/

namespace SymExec.Console

def ordered (xs : List Nat) : List Nat := xs.mergeSort (· ≤ ·)

def texts (xs : List String) : Data := .list ((xs.mergeSort (· ≤ ·)).map .str)

def numbers (xs : List Nat) : Data := .list (xs.map fun (n : Nat) => .int n)

def numberPairs (xs : List (Nat × Nat)) : Data :=
  let le (a b : Nat × Nat) := a.1 < b.1 || (a.1 = b.1 && a.2 ≤ b.2)
  .list ((xs.mergeSort le).map fun (a, b) => .list [.int a, .int b])

def textPairs (xs : List (String × String)) : Data :=
  let le (a b : String × String) := a.1 < b.1 || (a.1 = b.1 && a.2 ≤ b.2)
  .list ((xs.mergeSort le).map fun (a, b) => .list [.str a, .str b])

def nodeText (n : Nat) : String := "n" ++ toString n

def endedText (text : α → String) : Digraph.Ended α → String
  | .start => "TemporaryNode[start_node]"
  | .stop => "TemporaryNode[end_node]"
  | .node n => text n

def loopData (l : Loop Nat) : Data :=
  .obj [("entry", .int l.entry), ("body", numbers (ordered l.body)), ("entries", numberPairs l.entryArcs),
    ("breaks", numberPairs l.breakArcs), ("continues", numberPairs l.continueArcs),
    ("sub", numbers (ordered l.subloops)), ("calls", .bool l.hasCalls)]

def loopsData (ls : List (Loop Nat)) : Data := .list ((ls.mergeSort fun a b => a.entry ≤ b.entry).map loopData)

variable (d : Data)

def graphs : Data :=
  let nats (x : Data) := x.toList.filterMap Data.nat?
  let arcs := (d.get "edges").toList.map fun e => (((e.item 0).nat?).getD 0, ((e.item 1).nat?).getD 0)
  let g := Digraph.ofLists (nats (d.get "nodes")) arcs
  let entry := ((d.get "entry").nat?).getD 0
  let select := nats (d.get "select")
  let ended := endedText nodeText
  match (d.get "what").str?.getD "" with
  | "postdom" => textPairs ((g.postDominators entry).arcs.map fun a => (ended a.src, ended a.dst))
  | "frontier" =>
    let follow : Digraph.Ended Nat → List (Digraph.Ended Nat)
      | .node n => (g.succs n).map .node
      | _ => []
    .obj ((Digraph.dominanceFrontier follow (g.postDominators entry)).map fun (n, ns) => (ended n, texts (ns.map ended)))
  | "reverse" => textPairs (g.reverse.arcs.map fun a => (nodeText a.src, nodeText a.dst))
  | "merge_points" => numbers (g.mergePoints id)
  | "widening_points" => numbers (ordered (g.wideningPoints id))
  | "rpo" => numbers (if (d.get "select").isNull then g.reversePostorder else g.reversePostorderOf select)
  | "qtopo" => numbers (if (d.get "select").isNull then Digraph.quasiOrderOf id g g.nodes else g.quasiOrderOf id select)
  | "loops" =>
    match Digraph.loops id (g.nodes.length + 1) { nodes := g.nodes, arcs := g.arcs.map fun a => ⟨a.src, a.dst, false⟩ } with
    | .error () => .obj [("error", .str "NetworkXError")]
    | .ok (tops, all) => .obj [("tops", numbers (ordered (tops.map (·.entry)))), ("all", loopsData all)]
  | _ => .null

def reported {α : Type} (show' : α → Data) : Try α → Data
  | .ok a => show' a
  | .error f => Value.showFault f

/-! ### Reading -/

def readScope : Data → Scope
  | .int i => .function i
  | .str s => .named s
  | _ => .named ""

def readSimple : Option Simple :=
  let named (kw : Data) (v : Simple) : Simple :=
    { v with ident := (kw.get "ident").str?, name := (kw.get "name").str?, scope := readScope (kw.get "region") }
  match d with
  | .obj [("reg", xs)] => some (named (xs.item 2) (.ofRegister (xs.number 0) (xs.item 1).int?))
  | .obj [("mem", xs)] =>
    match xs.item 0 with
    | .str part => some { storage := .located part (xs.number 1), size := (xs.item 2).int? }
    | a => some (named (xs.item 2) { storage := .memory (a.int?.getD 0), size := (xs.item 1).int? })
  | .obj [("stack", xs)] =>
    let kw := xs.item 2
    some (named kw (.onStack (xs.number 0) (xs.item 1).int? ((kw.get "base").str?.getD "sp") (kw.get "base_addr").int?))
  | .obj [("const", xs)] =>
    some { storage := .constant (xs.item 1).int?, ident := (xs.item 0).str?, scope := readScope (xs.item 2) }
  | .obj [("tmp", xs)] => some { storage := .temporary (xs.number 0) }
  | _ => none

def readVariable : Try Variable :=
  match d with
  | .obj [("phi", xs)] =>
    orRaise (Variable.phiOf? (xs.item 1).str? (.named "") ((xs.item 2).toList.filterMap readSimple)) .stopIteration
  | d => do return .simple (← orRaise (readSimple d) .badValue)

/-! ### Showing -/

def simpleLine (v : Simple) : String := v.text ++ " name=" ++ v.nameText

def phiLabel (v : Simple) : String :=
  match v.storage with
  | .register _ => "SimRegisterVariablePhi"
  | .stack .. => "SimStackVariablePhi"
  | _ => "SimMemoryVariablePhi"

def variableData : Variable → Data
  | .simple v => .str (simpleLine v)
  | .phi v vs => .obj [("phi", .str (phiLabel v)), ("ident", .opt .str v.ident), ("of", texts (vs.map simpleLine))]

def regionData (r : VariableRegion) : Data :=
  .list (r.entries.map fun (_, p) =>
    let placed := p.placed.mergeSort fun a b =>
      a.start < b.start || (a.start = b.start && (variableData a.what).text ≤ (variableData b.what).text)
    .list [.int p.start, .int p.size, .list (placed.map fun x => .list [.int x.start, variableData x.what])])

def matrix {α : Type} (r : α → α → Bool) (xs : List α) : Data := .list (xs.map fun x => .list (xs.map fun y => .bool (r x y)))

/-- A variable without the address of its base, which equality passes over. -/
def unbased : Variable → Variable
  | .simple { storage := .stack o b _, size, ident, name, scope } => .simple ⟨.stack o b none, size, ident, name, scope⟩
  | v => v

def variableTable : Data :=
  reported (fun vs => .obj [("show", .list (vs.map variableData)), ("eq", matrix (fun a b => (unbased a).same (unbased b)) vs),
    ("hash_eq", matrix (fun a b => a.digest = b.digest) vs)]) ((d.get "vars").toList.mapM readVariable)

/-! ### Regions -/

def summed (ident : Option String) (v : Variable) (vs : List Variable) : Try Variable := do
  let offsets ← (v :: vs).mapM fun w => match w.head.storage with
    | .register o => .ok o
    | _ => raise .badAttribute
  return .simple { Simple.ofRegister offsets.sum v.size with ident }

def regionStep (regions : List (String × VariableRegion)) (s : Data) : Try (List (String × VariableRegion) × Data) := do
  let name := s.name 0
  let get (n : String) := (regions.lookup n).getD {}
  let put (n : String) (r : VariableRegion) := (n, r) :: regions.filter (·.1 ≠ n)
  let r := get name
  let offset := s.number 2
  let other := s.name 2
  match s.name 1 with
  | "add" => do
    let r ← r.add offset (← readVariable (s.item 3))
    return (put name r, regionData r)
  | "set" => do
    let r ← r.set offset (← readVariable (s.item 3))
    return (put name r, regionData r)
  | "copy" => return (put other r.copy, regionData r.copy)
  | "merge" => do
    let cover := if (s.item 3).isNull then .beside else .merged (summed (s.item 3).str?)
    let r ← r.merge cover (get other)
    return (put name r, regionData r)
  | "get" => return (regions, .sorted ((r.variablesAt offset).map variableData))
  | "base" => return (regions, .opt .int (r.base? offset))
  | "in" => return (regions, .bool (r.contains offset))
  | "len" => return (regions, .int r.length)
  | "eq" => return (regions, .bool (r.same (get other)))
  | _ => return (regions, .null)

def answerSteps {σ : Type} (step : σ → Data → Try (σ × Data)) : σ → List Data → List Data
  | _, [] => []
  | s, d :: ds =>
    match step s d with
    | .ok (s, out) => out :: answerSteps step s ds
    | .error f => Value.showFault f :: answerSteps step s ds

def regions : Data := .list (answerSteps regionStep [] (d.get "steps").toList)

/-! ### Sets -/

def setData (s : VariableSet) : Data :=
  .obj [("n", .int s.toList.length), ("items", texts (s.toList.map Simple.text)),
    ("regs", .list ((s.offsets.mergeSort (· ≤ ·)).map .int)), ("addrs", .list ((s.addrs.mergeSort (· ≤ ·)).map .int))]

def setStep (sets : VariableSet × VariableSet) (s : Data) : Try ((VariableSet × VariableSet) × Data) := do
  let second := (s.item 0).truthy
  let own := if second then sets.2 else sets.1
  let put (v : VariableSet) := if second then (sets.1, v) else (v, sets.2)
  let other := if (s.item 2).truthy then sets.2 else sets.1
  let item := orRaise (readSimple (s.item 2)) .badValue
  match s.name 1 with
  | "add" => do
    let v ← own.add (← item)
    return (put v, setData v)
  | "discard" => do
    let v ← own.discard (← item)
    return (put v, setData v)
  | "in" => return (sets, .bool (← own.contains (← item)))
  | "complement" => return (sets, setData (own.complement other))
  | "copy" => return (sets, setData own)
  | "ior" => return (put (own.union other), setData (own.union other))
  | _ => return (sets, .null)

def variableSets : Data := .list (answerSteps setStep ({}, {}) (d.get "steps").toList)

/-! ### Variables of functions -/

structure Desk where
  program : ProgramVariables := {}
  given : List Variable := []
  made : List (String × Variable) := []

namespace Desk

variable (k : Desk)

def find (d : Data) : Try Variable :=
  orRaise (match d with
    | .str s => k.made.lookup s
    | d => d.nat?.bind fun i => k.given[i]?) .badIndex

def ownerOf : Data → Try (Option Int)
  | .str "global" => .ok none
  | .int i => .ok (some i)
  | .bool b => .ok (some (if b then 1 else 0))
  | _ => raise .badType

def owner : Option Int → FunctionVariables
  | none => k.program.shared
  | some a => k.program.function a

def setOwner (o : Option Int) (f : FunctionVariables) : Desk :=
  match o with
  | none => { k with program := { k.program with shared := f } }
  | some a => { k with program := k.program.setFunction a f }

def rename (v : Variable) (name : Option String) : Desk :=
  let change := v.renaming name
  { program := k.program.mapVariables change, given := k.given.map change, made := k.made.map fun (n, w) => (n, change w) }

def giveNames : Try Desk :=
  k.program.all.foldlM (fun k v => do
    let name ← givenName v.head
    return if name = v.name then k else k.rename v name) k

end Desk

def readLocation : CodeLocation where
  block := (d.item 0).int?
  stmt := (d.item 1).int?
  instruction := (d.item 2).int?

def readKind : Data → FunctionVariables.UseKind
  | .str "memory" | .int 1 => .memory
  | .str "register" | .int 0 => .register
  | _ => .other

def useData (u : VariableUse) : Data := .list [variableData u.1, .opt .int u.2]

def accessData (a : VariableAccess) : Data := .list [.str a.kind.text, variableData a.what, .str a.location.text]

def deskStep (k : Desk) (s : Data) : Try (Desk × Data) := do
  let noting (kind : AccessKind) : Try (Desk × Data) := do
    let o ← Desk.ownerOf (s.item 1)
    let v ← k.find (s.item 2)
    return (k.setOwner o ((k.owner o).access kind v (s.item 3).int? (readLocation (s.item 4)) (s.item 5).truthy), .null)
  let placing (replace : Bool) : Try (Desk × Data) := do
    let o ← Desk.ownerOf (s.item 1)
    let onStack ← match s.name 2 with
      | "stack" => pure true
      | "register" => pure false
      | _ => raise .badValue
    let f ← (k.owner o).place onStack replace (s.number 3) (← k.find (s.item 4))
    return (k.setOwner o f, .obj [("register", regionData f.registers), ("stack", regionData f.stack)])
  match (s.item 0).str? with
  | some "read_from" => noting .read
  | some "write_to" => noting .write
  | some "reference_at" => noting .reference
  | some "add_variable" => placing false
  | some "set_variable" => placing true
  | some "accesses" => do
    let v ← k.find (s.item 1)
    return (k, .sorted ((k.program.accessesTo v (s.item 2).truthy).map accessData))
  | some "init_names" => do
    let k ← k.giveNames
    return (k, .list (k.given.map variableData))
  | some what => do
    let o ← Desk.ownerOf (s.item 1)
    let f := k.owner o
    match what with
    | "find_variables_by_insn" =>
      return (k, .opt (.sorted <| ·.map useData) (f.atInstruction (s.item 2).int? (readKind (s.item 3))))
    | "find_variables_by_stmt" =>
      return (k, .sorted ((f.atStatement (s.item 2).int? (s.item 3).int? (readKind (s.item 4))).map useData))
    | "find_variable_by_stmt" =>
      return (k, .opt useData (f.atStatement (s.item 2).int? (s.item 3).int? (readKind (s.item 4))).head?)
    | "get_variables" =>
      if (s.item 3).truthy then raise .notImplemented
      let wanted (v : Variable) := match s.name 2 with
        | "stack" => v.isStack
        | "reg" => v.isRegister
        | _ => true
      return (k, .list ((f.vars.filter wanted).map variableData))
    | "input_variables" => return (k, .sorted (f.inputs.map variableData))
    | "ident" =>
      let kind ← match s.name 2 with
        | "register" => pure IdentKind.register
        | "stack" => pure .stack
        | "argument" => pure .argument
        | "phi" => pure .other
        | _ => raise .badValue
      let (name, f) := f.nextIdent kind
      return (k.setOwner o f, .str name)
    | "phi" =>
      let vs ← (s.item 3).toList.mapM k.find
      let (v, f) ← f.makePhi vs
      let name := s.name 2
      return ({ k.setOwner o f with made := (name, v) :: k.made.filter (·.1 ≠ name) }, variableData v)
    | _ => return (k, .null)
  | none => return (k, .null)

def functionVariables : Data :=
  match (d.get "vars").toList.mapM readVariable with
  | .error f => Value.showFault f
  | .ok given => .list (answerSteps deskStep { given } (d.get "steps").toList)

/-! ### Locations -/

def factText : Data → String
  | .str s => s
  | .null => "None"
  | .bool b => if b then "True" else "False"
  | d => d.text

def locations : Data :=
  let ls := ((d.get "locs").toList.zipIdx.map fun (l, i) =>
    let facts := match l.item 4 with
      | .obj fs => fs.map fun (k, v) => (k, factText v)
      | _ => []
    (i, ({ block := (l.item 0).int?, stmt := (l.item 1).int?, procedure := (l.item 2).str?,
           instruction := (l.item 3).int?, info := facts } : CodeLocation)))
  let eq (a b : Nat × CodeLocation) := a.2.same b.2 && (a.1 = b.1 || a.2.procedure.isNone)
  .obj [("repr", .list (ls.map fun l => .str l.2.text)), ("short", .list (ls.map fun l => .str l.2.short)),
    ("eq", matrix eq ls), ("hash_eq", matrix (fun a b => a.2.digest = b.2.digest) ls)]

/-! ### Requests about plugins and hooks -/

def hubStep (h : PluginHub) (s : Data) : Try (PluginHub × Data) := do
  let name := s.name 1
  let second := s.name 2
  match s.name 0 with
  | "preset" => return (h.addPreset name [], .null)
  | "default" => return (h.addDefault name second ((s.item 3).str?.getD "default"), .null)
  | "use" => return (← h.usePreset name, .null)
  | "copy_preset" =>
    if h.named.isEmpty then raise .badType
    match (h.named.lookup name).bind fun i => h.presets[i]? with
    | none => raise .badKey
    | some p => return (h.addPreset second p, .null)
  | "discard" => return (h.discard, .null)
  | "get" => do
    let (p, h) ← h.find name
    return (h, .str p.text)
  | "attr" =>
    match h.find name with
    | .ok (p, h) => return (h, .str p.text)
    | .error _ => raise .badAttribute
  | "has" => return (h, .list [.bool (h.hasPlugin name), .bool h.active.isSome])
  | "register" =>
    let (p, h) := h.make second
    return (h.register name p, if h.keeps then .str p.text else .null)
  | "release" => return (← h.release name, .null)
  | "active" => return (h, .obj (h.plugins.map fun (n, p) => (n, .str p.text)))
  | "listed" => do
    let p ← orRaise h.activePreset? .badAttribute
    return (h, texts (p.map (·.1)))
  | "state" => return (h, .list [texts (h.plugins.map (·.1)), .bool h.active.isSome])
  | _ => return (h, .null)

def hubs : Data := .list (answerSteps hubStep { keeps := !(d.get "vendor").truthy } (d.get "steps").toList)

/-- What a hook of a request does: it calls the method with the next number, unless its name ends in an exclamation mark. -/
def hookReaction (name : String) (x : Int) : Reaction Int Unit :=
  if name.endsWith "!" then .done (.ok ()) else .call (x + 1) .done

def hookStep (m : Option (HookedMethod String Int)) (s : Data) : Try (Option (HookedMethod String Int) × Data) := do
  let name := s.name 1
  match s.name 0 with
  | "install" => return (some ((m.getD {}).install name), .null)
  | "remove" => do
    let m ← orRaise m .badAttribute
    let m := m.remove name
    return (if m.pending.isEmpty then none else some m, .null)
  | "call" =>
    let before : HookedMethod String Int := { m.getD {} with taken := [] }
    let x := s.number 1
    let (r, after) := before.invoke hookReaction (fun _ => .done (.ok ())) (before.pending.length + 2) x
    match r with
    | .error f => throw f
    | .ok () => return (m.map fun _ => after, .list (after.taken.map fun (h, x) => .list [.str (h.getD "f"), .int x]))
  | "pending" => do
    let m ← orRaise m .badAttribute
    return (some m, .int m.pending.length)
  | "hooked" => return (m, .bool m.isSome)
  | _ => return (m, .null)

def hooks : Data := .list (answerSteps hookStep none (d.get "steps").toList)

end SymExec.Console
