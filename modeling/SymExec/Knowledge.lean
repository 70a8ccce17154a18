import SymExec.Graph
import SymExec.State.Basic
import SymExec.Variable

/-!
# Functions and knowledge

A function as it is recovered from code: the pieces of code it is made of, how control passes between them, and where it calls,
jumps out and returns.
-/

namespace SymExec

inductive CodeNode where
  | block (addr size : Nat) (thumb : Bool)
  | hook (addr : Nat) (size : Option Nat) (procedure : String)
  | function (addr : Nat)
deriving DecidableEq

namespace CodeNode

def addr : CodeNode → Nat
  | block a _ _ | hook a _ _ | function a => a

def size? : CodeNode → Option Nat
  | block _ n _ => some n
  | hook _ n _ => n
  | function _ => none

def isBlock : CodeNode → Bool
  | block .. => true
  | _ => false

def isHook : CodeNode → Bool
  | hook .. => true
  | _ => false

def isFunction : CodeNode → Bool
  | function _ => true
  | _ => false

end CodeNode

inductive Passing where
  | transition | call | syscall
  | fakeReturn
  | realReturn
deriving DecidableEq

def Passing.label : Passing → String
  | transition => "transition"
  | call => "call"
  | syscall => "syscall"
  | fakeReturn => "fake_return"
  | realReturn => "real_return"

structure Transfer where
  kind : Passing
  (outside confirmed : Bool := false)
  /-- Whether it ends in the node of the graph itself, not in a copy of it. -/
  itself : Bool := false

abbrev CodeGraph := Digraph CodeNode Transfer

inductive Ending where
  | return | transition | call
deriving DecidableEq

structure CallSite where
  target : Nat
  back : Option Nat

inductive LinkPlace where
  | unknown | register
  | stack (offset : Int)
deriving DecidableEq

structure Function where
  addr : Nat
  name : String
  (isSyscall isPlt isProcedure : Bool := false)
  returning : Option Bool := none
  startpoint : Option CodeNode := none
  transfers : CodeGraph := {}
  (retSites jumpoutSites : List CodeNode := [])
  /-- Calls that do not come back; a call from a place that is no block has no site. -/
  calloutSites : List (Option CodeNode) := []
  retoutSites : List CodeNode := []
  endings : List (Ending × Option CodeNode) := []
  callSites : Table Nat CallSite := {}
  sizes : Table Nat (Option Nat) := {}
  (blockNodes own : Table Nat CodeNode := {})
  normalized : Bool := false
  link : LinkPlace := .unknown

def insertNew {α : Type} [DecidableEq α] (a : α) (as : List α) : List α := if a ∈ as then as else as ++ [a]

namespace Function

def contains (f : Function) (addr : Nat) : Bool := f.sizes.contains addr

variable (f : Function)

def blockAddrs : List Nat := f.own.keys

def hasReturn : Bool := !f.retSites.isEmpty

def nodeAt? (addr : Nat) : Option CodeNode := f.blockNodes.get? addr

def text (hex : String) : String := (if f.isSyscall then "<Syscall function " else "<Function ") ++ f.name ++ " (" ++ hex ++ ")>"

/-! ### Building -/

def register (isOwn : Bool) (n : CodeNode) (f : Function) : Function :=
  let sizes := match f.sizes.get? n.addr with
    | none | some (some 0) => f.sizes.set n.addr n.size?
    | some _ => f.sizes
  let startpoint := if n.addr = f.addr && !(f.startpoint.any (·.isHook)) then some n else f.startpoint
  { f with
    transfers := f.transfers.addNode n
    sizes, startpoint
    own := if isOwn then f.own.set n.addr n else f.own
    blockNodes := if n.isBlock && !f.blockNodes.contains n.addr then f.blockNodes.set n.addr n else f.blockNodes }

variable (u v : CodeNode)

def connect (t : Option Transfer → Transfer) (f : Function) : Function :=
  let old := f.transfers.label? u v
  let itself := old.elim (decide (v ∉ f.transfers.nodes)) (·.itself)
  { f with transfers := f.transfers.addArc u v { t old with itself } }

def addEnding (e : Ending) (n : Option CodeNode) (f : Function) : Function := { f with endings := insertNew (e, n) f.endings }

def Transfer.renew (kind : Passing) (outside : Bool) (old : Option Transfer) : Transfer :=
  { kind, outside, confirmed := (old.map (·.confirmed)).getD false }

def transit (outside : Bool) (f : Function) : Function :=
  if outside then
    let f := ((f.register true u).connect u v (Transfer.renew .transition true)).register false v
    let f := { f with jumpoutSites := insertNew u f.jumpoutSites }
    f.addEnding .transition (some u)
  else ((f.register true u).connect u v (Transfer.renew .transition false)).register true v

def fakeReturn (u v : CodeNode) (confirmed outside : Bool) (f : Function) : Function :=
  let f := (f.register true u).connect u v fun old => {
    kind := .fakeReturn, outside, confirmed := confirmed || (old.map (·.confirmed)).getD false }
  if confirmed then f.register (!outside) v else f

def call (u : CodeNode) (target : Nat) (isSyscall : Bool) (back : Option CodeNode) (backOutside : Bool) (f : Function) : Function :=
  let f := (f.register true u).connect u (.function target)
    (Transfer.renew (if isSyscall then .syscall else .call) false)
  match back with
  | some b => if isSyscall then f else f.fakeReturn u b false backOutside
  | none => f

def returnFromCall (callee : Nat) (v : CodeNode) (f : Function) : Function :=
  let f := f.connect (.function callee) v fun old => { (old.getD { kind := .realReturn }) with kind := .realReturn }
  { f with transfers := { f.transfers with
      arcs := f.transfers.arcs.map fun a =>
        if a.dst = v && a.label.kind = .fakeReturn then { a with label := { a.label with confirmed := true } } else a } }

variable (n : CodeNode)

def addReturnSite (f : Function) : Function :=
  let f := f.register true n
  ({ f with retSites := insertNew n f.retSites }).addEnding .return (some n)

def addRetoutSite (f : Function) : Function :=
  let f := f.register true n
  ({ f with retoutSites := insertNew n f.retoutSites }).addEnding .return (some n)

def addCallSite (site target : Nat) (back : Option Nat) (f : Function) : Function :=
  { f with callSites := f.callSites.set site ⟨target, back⟩ }

def confirmReturn (f : Function) : Function :=
  let f := match f.transfers.label? u v with
    | some t => if t.outside then f else f.register true v
    | none => f
  { f with transfers := { f.transfers with
      arcs := f.transfers.arcs.map fun a =>
        if a.src = u && a.dst = v then { a with label := { a.label with confirmed := true } } else a } }

/-! ### Views -/

def graph : CodeGraph :=
  let g := match f.startpoint with
    | some s => .addNode {} s
    | none => {}
  let g := f.own.values.foldl .addNode g
  f.transfers.arcList.foldl (fun g a =>
    if !a.label.outside && (a.label.kind = .transition || (a.label.kind = .fakeReturn && a.label.confirmed)) then
      g.addArc a.src a.dst a.label
    else g) g

def endpoints : List (Option CodeNode) :=
  ([Ending.return, .transition, .call].flatMap fun e => (f.endings.filter (·.1 = e)).map (·.2))

def endpointsBy (e : Ending) : List CodeNode := (f.endings.filter (·.1 = e)).filterMap (·.2)

end Function

/-! ### Normal functions -/

namespace Function

/-- A function whose blocks are being cut, with the blocks by the addresses where they end. -/
structure Cutting where
  function : Function
  byEnd : Table Nat (List CodeNode) := {}

namespace Cutting

variable (f : Function)

def ofFunction : Cutting where
  function := f
  byEnd := f.transfers.nodes.foldl (fun (t : Table Nat (List CodeNode)) n =>
    match n with
    | .block a s _ => t.set (a + s) ((t.get? (a + s)).getD [] ++ [n])
    | _ => t) {}

/-- The passings of control when a block is cut: what followed it follows its last part, its first part goes on to the last,
and what came before it, unless it is cut in the same place, comes before the first. A block that followed itself is followed
by its first part if the arc ends in the node itself; one that ends in a copy goes with the block. -/
def reroute (g : CodeGraph) (n first last : CodeNode) (isOutside : Bool) (others : List CodeNode) :
    CodeGraph :=
  let before := g.arcsTo n
  let after := g.arcsFrom n
  let join (g : CodeGraph) (u v : CodeNode) (t : Transfer) : CodeGraph :=
    let old := g.label? u v
    g.addArc u v { t with
      confirmed := t.confirmed || (old.map (·.confirmed)).getD false, itself := (old.map (·.itself)).getD t.itself }
  let g := after.foldl (fun g a =>
    if g.hasArc last a.dst then g else join g last (if a.dst = n ∧ a.label.itself then first else a.dst) a.label) g
  let g := before.foldl (fun g a =>
    if a.src ∈ others then g else join g a.src first { a.label with itself := true }) (g.removeNode n)
  join g first last { kind := .transition, outside := isOutside, itself := true }

variable (c : Cutting)

def cutAt (smallest : CodeNode) (isOutside : Bool) (others : List CodeNode) (n : CodeNode) : Cutting :=
  match n with
  | .block addr _ thumb =>
    if smallest.addr = addr then c
    else
      let size := smallest.addr - addr
      let found := ((c.byEnd.get? smallest.addr).getD []).find? (·.addr = addr)
      let new := found.getD (.block addr size thumb)
      let f := c.function
      let f := if found.isSome then f
        else { f with sizes := f.sizes.set addr (some size), blockNodes := f.blockNodes.set addr new }
      let byEnd := if found.isSome then c.byEnd
        else c.byEnd.set smallest.addr ((c.byEnd.get? smallest.addr).getD [] ++ [new])
      let own := match f.own.get? addr with
        | some o => if o.size? = new.size? then f.own else (f.own.erase addr).set addr new
        | none => f.own
      let sizes := if f.sizes.contains addr then f.sizes.set addr new.size? else f.sizes
      { function := { f with transfers := reroute f.transfers n new smallest isOutside others, own, sizes }, byEnd }
  | _ => c

def cutGroup (stop : Nat) (group : List CodeNode) : Cutting :=
  match group.mergeSort (fun a b => a.size?.getD 0 ≤ b.size?.getD 0) with
  | [] => c
  | smallest :: others =>
    let isOutside := smallest ∉ c.function.transfers.nodes
    let c := others.foldl (fun c n => c.cutAt smallest isOutside others n) c
    { c with byEnd := c.byEnd.set stop [smallest] }

def run : Nat → Cutting → Cutting
  | 0, c => c
  | fuel + 1, c =>
    match c.byEnd.entries.find? fun (_, ns) => ns.length > 1 with
    | none => c
    | some (stop, group) => run fuel (c.cutGroup stop group)

def rounds : Nat := (f.transfers.nodes.map fun n => n.size?.getD 0 + 1).sum + 1

end Cutting

def normalize (f : Function) : Function :=
  match f.startpoint with
  | none => f
  | some start =>
    let f := (Cutting.run (Cutting.rounds f) (.ofFunction f)).function
    let startpoint := if f.sizes.get? start.addr = some start.size? then some start else f.nodeAt? start.addr
    { f with startpoint, normalized := true }

end Function

/-! ## Knowledge

What analyses find out about a program and later ones use: its functions, how they call each other, names of addresses, and jumps
whose targets are not known. -/

/-! ### Labels -/

structure Labels where
  names : Table Nat String := {}
  addrs : Table String Nat := {}

def Labels.erase (l : Labels) (addr : Nat) : Try Labels :=
  match l.names.get? addr with
  | none => .ok l
  | some name =>
    if l.addrs.contains name then .ok { names := l.names.erase addr, addrs := l.addrs.erase name }
    else raise .badKey

def Labels.set (l : Labels) (addr : Nat) (name : String) : Try Labels := do
  let l ← l.erase addr
  return { names := l.names.set addr name, addrs := l.addrs.set name addr }

def Labels.ofNames (ns : List (String × Nat)) : Labels where
  names := ns.foldl (fun t (name, addr) => t.set addr name) {}
  addrs := ns.foldl (fun t (name, addr) => t.set name addr) {}

/-! ### The functions of a program -/

inductive CallKind where
  | call | fakeReturn | transition
deriving DecidableEq

def CallKind.label : CallKind → String
  | call => "call"
  | fakeReturn => "fakeret"
  | transition => "transition"

structure CallArc where
  (src dst : Nat)
  kind : CallKind
deriving DecidableEq

structure Functions where
  map : Table Nat Function := {}
  /-- The addresses that can be found by searching for the next one, in order. -/
  index : List Nat := []
  calls : List CallArc := []

namespace Functions

def get? (t : Functions) (addr : Nat) : Option Function := t.map.get? addr

def contains (t : Functions) (addr : Nat) : Bool := t.map.contains addr

variable (t : Functions)

def addrs : List Nat := t.map.keys.mergeSort (· ≤ ·)

def all : List Function := t.addrs.filterMap t.get?

def insertAddr (a : Nat) : List Nat → List Nat
  | [] => [a]
  | b :: rest => if a = b then b :: rest else if a < b then a :: b :: rest else b :: insertAddr a rest

variable (f : Function)

def insert : Functions := { t with map := t.map.set f.addr f, index := insertAddr f.addr t.index }

variable (addr : Nat)

def modify (g : Function → Function) : Functions := { t with map := t.map.alter addr g }

def erase (t : Functions) (addr : Nat) : Try Functions :=
  if t.contains addr then
    .ok { map := t.map.erase addr, index := t.index.filter (· ≠ addr)
          calls := t.calls.filter fun c => c.src ≠ addr && c.dst ≠ addr }
  else raise .badKey

def clear : Functions := { index := t.index }

def floor? : Option Nat := (t.index.filter (· ≤ addr)).getLast?

def ceiling? : Option Nat := t.index.find? (addr ≤ ·)

def ofName? (name : String) : Option Function := t.map.values.find? (·.name = name)

def addCall (src dst : Nat) (kind : CallKind) : Functions := { t with calls := insertNew ⟨src, dst, kind⟩ t.calls }

def callers : List Nat := ((t.calls.filter (·.dst = addr)).map (·.src)).eraseDups

def markCallouts : Function :=
  f.transfers.arcList.foldl (fun f a =>
    if a.label.kind = .call && (t.get? a.dst.addr).any (·.returning = some false) then
      let site := f.nodeAt? a.src.addr
      ({ f with calloutSites := insertNew site f.calloutSites }).addEnding .call site
    else f) f

end Functions

/-! ### Code as functions know it -/

namespace Program

def procedureKind (p : Procedure) : String := p.library ++ "." ++ p.name

variable (p : Program)

def hookNode? (addr : Nat) : Option CodeNode :=
  p.hooks[addr]?.map fun h => .hook addr (some (match h.option "length" with | .int n => n.toNat | _ => 0)) (procedureKind h)

def newFunction (labels : Labels) (addr : Nat) : Function :=
  let h := p.hooks[addr]?
  { addr
    name := (labels.names.get? addr).getD ((h.map (·.display)).getD ("sub_" ++ String.ofList (Nat.toDigits 16 addr)))
    isProcedure := h.isSome
    returning := h.map fun h => !h.noReturn }

end Program

/-! ### Knowledge -/

structure Knowledge where
  functions : Functions := {}
  labels : Option Labels := none
  unresolved : List Nat := []
  vars : ProgramVariables := {}

namespace Knowledge

variable (k : Knowledge) (p : Program)

def labelsOf : Labels := k.labels.getD (.ofNames p.externNames)

def mapFunctions (g : Function → Function) : Knowledge :=
  { k with functions := { k.functions with map := ⟨k.functions.map.entries.map fun (a, f) => (a, g f)⟩ } }

def normalizeFunctions : Knowledge := k.mapFunctions fun f => if p.isHooked f.addr then f else f.normalize

variable (addr : Nat)

def touch : Knowledge :=
  if k.functions.contains addr then k
  else
    let labels := k.labelsOf p
    { k with labels := some labels, functions := k.functions.insert (p.newFunction labels addr) }

def onFunction (g : Function → Function) : Knowledge :=
  let k := k.touch p addr
  { k with functions := k.functions.modify addr g }

def functionAt : Function × Knowledge :=
  let k := k.touch p addr
  ((k.functions.get? addr).getD (p.newFunction (k.labelsOf p) addr), k)

variable (func : Nat) (n : CodeNode)

def addNode (isSyscall : Option Bool := none) : Knowledge :=
  k.onFunction p func fun f => ({ f with isSyscall := isSyscall.getD f.isSyscall }).register true n

def addCall (k : Knowledge) (p : Program) (func : Nat) (site : CodeNode) (target : Nat) (back : Option CodeNode)
    (isSyscall : Option Bool) (backOutside : Bool := false) : Knowledge :=
  let k := k.onFunction p target fun f => { f with isSyscall := isSyscall.getD f.isSyscall }
  let isSystem := (k.functions.get? target).any (·.isSyscall)
  let k := k.onFunction p func fun f =>
    let f := (f.call site target isSystem back backOutside).addCallSite site.addr target (back.map (·.addr))
    if backOutside then f.addRetoutSite site else f
  { k with functions := k.functions.addCall func target .call }

variable (src dst : CodeNode)

def addFakeReturn (confirmed outside : Bool)
    (toFunction : Option Nat := none) : Knowledge :=
  let k := k.onFunction p func (·.fakeReturn src dst confirmed outside)
  match outside, toFunction with
  | true, some t => { k with functions := k.functions.addCall func t .fakeReturn }
  | _, _ => k

def addReturn : Knowledge := k.onFunction p func (·.addReturnSite n)

def addTransition : Knowledge := k.onFunction p func (·.transit src dst false)

def addOutsideTransition (toFunction : Option Nat) : Knowledge :=
  let k := k.onFunction p func (·.transit src dst true)
  match toFunction with
  | some t => { k with functions := k.functions.addCall func t .transition }
  | none => k

def addReturnFromCall (func callee : Nat) (dst : CodeNode) : Knowledge :=
  (k.touch p func |>.touch p callee).onFunction p func (·.returnFromCall callee dst)

def setLabel (name : String) : Try Knowledge := do
  let labels ← (k.labelsOf p).set addr name
  return { k with labels := some labels, functions := k.functions.modify addr ({ · with name }) }

end Knowledge

/-! ### Which functions come back -/

structure Review where
  knowledge : Knowledge
  (returning leaving : List Nat := [])

namespace Knowledge

/-- What a way out of a function says: it comes back, it does not, or that is not known. -/
inductive Clue where
  | back | away | open_
deriving DecidableEq

variable (k : Knowledge)

def clueAt (f : Function) (isRetout : Bool) (site : CodeNode) : Clue :=
  let succs := f.transfers.succs site
  if succs.isEmpty then .open_
  else
    let callees := succs.filter (·.isFunction)
    if isRetout && !callees.isEmpty && callees.all fun c => (k.functions.get? c.addr).all (·.returning ≠ some true) then .away
    else
      match (if isRetout then succs.find? (!·.isFunction) else succs.head?) with
      | none => .away
      | some target =>
        match k.functions.get? target.addr with
        | none => .open_
        | some g =>
          match g.returning with
          | some true => .back
          | some false => .away
          | none => .open_

variable (p : Program) (isComplete : Nat → Bool)

def judge (f : Function) : Option Bool :=
  if f.hasReturn then some true
  else if f.own.entries.isEmpty then none
  else
    match p.hooks[f.addr]? with
    | some h => some (!h.noReturn)
    | none =>
      if !isComplete f.addr then none
      else
        let clues := f.jumpoutSites.map (k.clueAt f false) ++ f.retoutSites.map (k.clueAt f true)
        if clues.contains .back then some true
        else if clues.contains .open_ then none
        else some false

def review (addrs : List Nat) : Review :=
  addrs.foldl (fun r addr =>
    match r.knowledge.functions.get? addr with
    | none => r
    | some f =>
      if f.returning.isSome then r
      else
        match r.knowledge.judge p isComplete f with
        | none => r
        | some b =>
          let knowledge := { r.knowledge with
            functions := r.knowledge.functions.modify addr ({ · with returning := some b }) }
          if b then { r with knowledge, returning := insertNew addr r.returning }
          else { r with knowledge, leaving := insertNew addr r.leaving }) { knowledge := k }

def reviewRounds {σ : Type} (choose : σ → Knowledge → List Nat × σ) : Nat → σ → Review → Review × σ
  | 0, s, r => (r, s)
  | fuel + 1, s, r =>
    let (addrs, s) := choose s r.knowledge
    let new := r.knowledge.review p isComplete addrs
    let all : Review :=
      { knowledge := new.knowledge
        returning := new.returning.foldl (fun as a => insertNew a as) r.returning
        leaving := new.leaving.foldl (fun as a => insertNew a as) r.leaving }
    if new.returning.isEmpty && new.leaving.isEmpty then (all, s) else reviewRounds choose fuel s all

def reviewAll {σ : Type}
    (choose : σ → Knowledge → List Nat × σ) (s : σ) : Review × σ :=
  reviewRounds p isComplete choose (k.functions.map.size + 1) s { knowledge := k }

end Knowledge

end SymExec
