import SymExec.Arch
import SymExec.Value
import Std.Data.TreeSet

/-!
# Pages and paged memory

Memory as a finite map from page numbers to pages, over what the program was loaded with.
-/

namespace SymExec

open List

def pageSize : Nat := 0x1000

/-- A stored term and the range of addresses it was stored at; its first byte is the most significant one. -/
structure Chunk where
  content : Bits
  (base length : Nat)
deriving DecidableEq

namespace Chunk

def ofBits (content : Bits) (base : Nat) : Chunk := ⟨content, base, content.width / 8⟩

variable (c : Chunk)

def stop : Nat := c.base + c.length

def covers (a : Nat) : Bool := c.base ≤ a && a < c.stop

def bytesAt (a n : Nat) : Bits :=
  if a = c.base ∧ n = c.length then c.content
  else
    let top := 8 * (c.length - (a - c.base))
    c.content.slice (top - 1) (top - 8 * n)

end Chunk

def protRead : Nat := 1
def protWrite : Nat := 2
structure Page where
  base : Nat
  protection : Bits := .lit 3 7
  whole : Option Chunk := none
  cells : Std.TreeMap Nat Chunk := {}
deriving Inhabited

namespace Page

variable (p : Page)

def stop : Nat := p.base + pageSize

def grants (right : Nat) : Bool :=
  match p.protection with
  | .lit _ v => v &&& right != 0
  | _ => true

def at? (a : Nat) : Option Chunk := p.cells[a]? <|> p.whole

def keys (p : Page) : List Nat := if p.whole.isSome then .range' p.base pageSize else p.cells.keys

variable (c : Chunk)

/-- The part of a chunk that lies in the page, as a first address and the one past the last. -/
def clip : Nat × Nat := (max c.base p.base, min c.stop p.stop)

def overwrite : Page :=
  let (start, stop) := p.clip c
  if start = p.base ∧ stop = p.stop then { p with whole := some c, cells := {} }
  else { p with cells := (range' start (stop - start)).foldl (fun m a => m.insert a c) p.cells }

/-- Lays a chunk under the page: only bytes without a chunk of their own show it. -/
def underwrite : Page :=
  let (start, stop) := p.clip c
  if start = p.base ∧ stop = p.stop then { p with whole := some c }
  else { p with cells := (range' start (stop - start)).foldl (fun m a => m.insertIfNew a c) p.cells }

def replace (old new : Chunk) : Page :=
  if p.whole = some old then { p with whole := some new }
  else { p with cells := p.cells.map fun _ c => if c = old then new else c }

def meet (items : List (Nat × Chunk)) (a : Nat) : List (Nat × Chunk) :=
  match p.at? a, items with
  | some c, [] => [(a, c)]
  | some c, (b, d) :: rest => if c = d then items else (a, c) :: (b, d) :: rest
  | none, _ => items

/-- The chunks over a range, each with the first address at which it is met. -/
def slice (start stop : Nat) : List (Nat × Chunk) :=
  let from' := max start p.base
  ((range' from' (min stop p.stop - from')).foldl p.meet []).reverse

end Page

/-- What a program was loaded with: ranges of bytes and the protection of ranges of addresses. -/
structure Backing where
  segments : List (Nat × ByteArray) := []
  protections : List (Nat × Nat × Nat) := []
  executable : Bool := false

structure Paged where
  pages : Std.TreeMap Nat Nat := {}
  (owned initialized : Std.TreeSet Nat := {})
  backing : Backing := {}
  stack : Nat × Nat := (0, 0)
  checked : Bool := false
  /-- For each symbol the cell with the addresses whose chunks have it. -/
  names : Std.TreeMap String Nat := {}
  ownNames : Std.TreeSet String := {}

structure Commons where
  pages : Array Page := #[]
  addresses : Array (Std.TreeSet Nat) := #[]

def Commons.page (c : Commons) (i : Nat) : Page := c.pages.getD i default

abbrev PagedM := EStateM Fault (Paged × Commons)

namespace Paged

def pageAt (i : Nat) : PagedM Page := return (← get).2.page i

def editPage (i : Nat) (f : Page → Page) : PagedM Unit := modify fun (p, c) => (p, { c with pages := c.pages.modify i f })

variable (n : Nat)

def putPage (pg : Page) : PagedM Nat := fun (p, c) =>
  .ok c.pages.size ({ p with pages := p.pages.insert n c.pages.size }, { c with pages := c.pages.push pg })

def putOwn (pg : Page) : PagedM Nat := do
  let i ← putPage n pg
  modify fun (p, c) => ({ p with owned := p.owned.insert n }, c)
  return i

variable (b : Backing)

def emptyPage (n : Nat) (prot : Option Bits) : Page :=
  { base := n * pageSize, protection := prot.getD (.lit 3 (if b.executable then 7 else 3)) }

/-- Lays the part of a range of bytes that lies in a page over what was found of the page so far. -/
def loadSegment (n : Nat) (found : Option Page) (segment : Nat × ByteArray) : Option Page :=
  let (addr, bytes) := segment
  let base := n * pageSize
  if base + pageSize ≤ addr ∨ addr + bytes.size ≤ base then found
  else
    let from' := base - addr
    let start := max base addr
    let part := (bytes.extract from' (from' + (pageSize - start % pageSize))).toList
    let prot := ((b.protections.find? fun (s, e, _) => s ≤ base && base < e).map (·.2.2)).getD 3
    let pg := found.getD { base, protection := .lit 3 prot }
    some (pg.overwrite (.ofBits (.ofBytes part) start))

def load (n : Nat) : Option Page := b.segments.foldl (loadSegment b n) none

variable (p : Paged)

/-- The page that comes into being when a number without one is looked for: the one that the backing has, the first time,
or else an empty one if `create` says so or it lies in the stack. -/
def fresh? (n : Nat) (create : Bool) : Option Page :=
  (if p.initialized.contains n then none else load p.backing n) <|>
    if create || (p.stack.1 ≤ n * pageSize && n * pageSize < p.stack.2) then some (emptyPage p.backing n none) else none

def page? (write create : Bool) : PagedM (Option Nat) := do
  let p := (← get).1
  match p.pages[n]? with
  | some i => if write && !p.owned.contains n then return some (← putOwn n (← pageAt i)) else return some i
  | none =>
    modify fun (p, c) => ({ p with initialized := p.initialized.insert n }, c)
    match p.fresh? n create with
    | some pg => return some (← putOwn n pg)
    | none => return none

def at? (a : Nat) : PagedM (Option Chunk) := do
  match ← page? (a / pageSize) false false with
  | some i => return (← pageAt i).at? a
  | none => return none

variable (a : Nat)

def has : PagedM Bool := return (← at? a).isSome

/-- Whether a page lists the distance of an address from its base among the addresses that have a chunk. -/
def listed (c : Commons) (a : Nat) : Bool :=
  match p.pages[a / pageSize]? with
  | some i => (c.page i).keys.contains (a - (c.page i).base)
  | none => false

def keys (p : Paged) (c : Commons) : List Nat := p.pages.foldl (fun ks n i => ks ++ (c.page i).keys.map (· + n * pageSize)) []

def pagesOf (start stop : Nat) : List Nat :=
  let first := start / pageSize
  let last := (stop + pageSize - 1) / pageSize
  .range' first (last - first)

def chunks (strict cut : Bool) (addr n : Nat) : PagedM (List (Nat × Chunk)) := do
  let rec go : List Nat → PagedM (List (Nat × Chunk))
    | [] => return []
    | k :: ks => do
      match ← page? k false false with
      | none =>
        if strict then
          if cut then return [] else throw (.segfault addr "read-miss")
        go ks
      | some i =>
        let pg ← pageAt i
        if strict && !pg.grants protRead then
          if cut then return [] else throw (.segfault addr "non-readable")
        return pg.slice addr (addr + n) ++ (← go ks)
  go (pagesOf addr (addr + n))

/-! ### Symbols in memory -/

variable (v : String)

def nameCell : PagedM Nat := do
  let (p, c) ← get
  match if p.ownNames.contains v then p.names[v]? else none with
  | some i => return i
  | none =>
    let held := ((p.names[v]?).bind fun i => c.addresses[i]?).getD {}
    let i := c.addresses.size
    modify fun (p, c) => ({ p with names := p.names.insert v i, ownNames := p.ownNames.insert v },
      { c with addresses := c.addresses.push held })
    return i

def editName (f : Std.TreeSet Nat → Std.TreeSet Nat) : PagedM Unit := do
  let i ← nameCell v
  modify fun (p, c) => (p, { c with addresses := c.addresses.modify i f })

def noteByte (content : Bits) : PagedM Unit := do
  let new := content.symbols
  if new.isEmpty then return
  let rec forget : List String → PagedM Unit
    | [] => return
    | v :: vs => do
      let (p, _) ← get
      if p.ownNames.contains v && !p.names.contains v then return
      editName v (·.erase a)
      let (p, c) ← get
      match p.names[v]? with
      | some i => if (c.addresses.getD i {}).isEmpty then modify fun (p, c) => ({ p with names := p.names.erase v }, c)
      | none => pure ()
      forget vs
  match ← at? a with
  | some c => forget c.content.symbols
  | none => pure ()
  new.forM fun v => editName v (·.insert a)

/-- The addresses whose chunks have a symbol; those that no longer do are dropped from its cell. -/
def addressesOf : PagedM (List Nat) := do
  if !(← get).1.names.contains v then return []
  let i ← nameCell v
  let all := ((← get).2.addresses.getD i {}).toList
  let kept ← all.filterM fun a => do
    return ((← at? a).map fun c => c.content.symbols.contains v).getD false
  modify fun (p, c) => (p, { c with addresses := c.addresses.setIfInBounds i (.ofList kept) })
  return kept

/-! ### Storing -/

/-- Lays a chunk over one page, in the place of what is there or else only where nothing is. -/
def putChunk (strict anew : Bool) (n : Nat) (c : Chunk) : PagedM Unit := do
  match ← page? n true (!strict) with
  | none => throw (.segfault c.base "write-miss")
  | some i =>
    if strict && !(← pageAt i).grants protWrite then throw (.segfault c.base "non-writable")
    editPage i fun pg => if anew then pg.overwrite c else pg.underwrite c

def store (strict tracking anew : Bool) (c : Chunk) : PagedM Unit := do
  (pagesOf c.base c.stop).forM fun n => putChunk strict anew n c
  if tracking then (range' c.base c.length).forM fun a => noteByte a c.content

def replaceOn (old new : Chunk) (n : Nat) : PagedM Unit := do
  match ← page? n true false with
  | some i => editPage i (·.replace old new)
  | none => raise .badKey

def replaceChunk (tracking : Bool) (old : Chunk) (content : Bits) : PagedM Chunk := do
  if old.content.width ≠ content.width then
    throw (.because .memory "memory objects can only be replaced by the same length content")
  let new := .ofBits content old.base
  (pagesOf old.base old.stop).forM (replaceOn old new)
  if tracking then (range' old.base old.length).forM fun a => noteByte a content
  return new

def replaceAll (old new : Bits) : PagedM Unit := do
  if old.symbols.isEmpty then throw (.because .memory "old argument to replace_all() must have at least one named variable")
  let places ← old.symbols.mapM addressesOf
  let common := (places.headD []).filter fun a => places.all (·.contains a)
  let found ← common.filterMapM at?
  found.eraseDups.forM fun c => do
    let content := c.content.replace old new
    if content ≠ c.content then discard <| replaceChunk true c content

/-! ### Mapping -/

/-- The protection of the page of an address, after it was set if one is given. -/
def protect (prot : Option Bits) : PagedM Bits := do
  match ← page? (a / pageSize) false false with
  | none => throw (.because .memory "page does not exist at given address")
  | some i =>
    match prot with
    | some b =>
      editPage i ({ · with protection := b })
      return b
    | none => return (← pageAt i).protection

def refuseMapped : PagedM Unit := do
  if ← has (n * pageSize) then
    throw (.because .memory "map_page received address and length combination which contained mapped page")

def mappedPage (prot : Bits) (zero : Bool) (n : Nat) : Page :=
  let pg := emptyPage b n (some prot)
  if zero then pg.overwrite (.ofBits (.lit (8 * pageSize) 0) (n * pageSize)) else pg

def map (guarded : Bool) (addr length : Nat) (prot : Bits) (zero : Bool) : PagedM Unit := do
  let ns := range' (addr / pageSize) ((length + pageSize - 1) / pageSize)
  if guarded then ns.forM refuseMapped
  ns.forM fun n => do discard <| putPage n (mappedPage (← get).1.backing prot zero n)

def unmap (guarded : Bool) (addr length : Nat) : PagedM Unit := do
  let ns := range' (addr / pageSize) ((length + pageSize - 1) / pageSize)
  let (p, c) ← get
  if ns.all (p.pages.contains ·) then set ({ p with pages := ns.foldl (·.erase ·) p.pages }, c)
  else if !guarded then raise .badKey

/-- A copy and the memory it was taken from: neither owns a page any more. -/
def branch : Paged × Paged :=
  let p := { p with owned := {} }
  ({ p with ownNames := {} }, p)

/-- The addresses at which two memories may have different chunks: those of a page that one of them lacks, and those of a
page that both have at which its chunks differ. -/
def candidates (mine other : Paged) (c : Commons) : List Nat :=
  (mine.pages.keys ++ other.pages.keys).eraseDups.flatMap fun n =>
    match mine.pages[n]?, other.pages[n]? with
    | some i, none => (c.page i).keys
    | none, some j => (c.page j).keys
    | some i, some j =>
      if i = j then []
      else
        let (a, b) := (c.page i, c.page j)
        ((a.keys ++ b.keys).eraseDups).filter fun k => decide (a.at? k ≠ b.at? k)
    | none, none => []

def differs : Option Chunk → Option Chunk → Bool
  | some x, some y => x ≠ y && x.bytesAt a 1 ≠ y.bytesAt a 1
  | none, none => false
  | _, _ => true

def changedAmong (other : Paged) : List Nat → PagedM (List Nat)
  | [] => return []
  | a :: as => do
    let x ← at? a
    let (mine, c) ← get
    match (at? a).run (other, c) with
    | .ok y (other, c) =>
      set (mine, c)
      let rest ← changedAmong other as
      return if differs a x y then a :: rest else rest
    | .error f _ => throw f

def changed (other : Paged) : PagedM (List Nat) := do
  let (mine, c) ← get
  changedAmong other ((candidates mine other c).mergeSort (· ≤ ·))

end Paged

/-! ### Memories -/

inductive Strategy where
  | any (exact : Bool)
  /-- Values among the addresses that hold named symbols, and some fixed ones. -/
  | controlledData (limit : Nat) (fixed : List Nat) (exact : Bool)
  | eval (limit : Nat) (exact : Bool)
  | max (exact : Bool)
  | nonzero (exact : Bool)
  /-- Values that are not zero, if the range of all is not longer than the limit. -/
  | nonzeroRange (limit : Nat) (exact : Bool)
  | noRepeats (expr : Bits) (seen : List Cond) (exact : Bool)
  | noRepeatsRange (expr : Bits) (least granularity : Nat) (exact : Bool)
  | range (limit : Nat) (marked exact : Bool)
  | single (exact : Bool)
  | solutions (limit : Nat) (exact : Bool)
deriving DecidableEq

def Strategy.label : Strategy → String
  | any _ => "<SimConcretizationStrategyAny>"
  | controlledData .. => "<SimConcretizationStrategyControlledData>"
  | eval .. => "<SimConcretizationStrategyEval>"
  | max _ => "<SimConcretizationStrategyMax>"
  | nonzero _ => "<SimConcretizationStrategyNonzero>"
  | nonzeroRange .. => "<SimConcretizationStrategyNonzeroRange>"
  | noRepeats .. => "<SimConcretizationStrategyNorepeats>"
  | noRepeatsRange .. => "<SimConcretizationStrategyNorepeatsRange>"
  | range .. => "<SimConcretizationStrategyRange>"
  | single _ => "<SimConcretizationStrategySingle>"
  | solutions .. => "<SimConcretizationStrategySolutions>"

def Strategy.merge (s : Strategy) (others : List Strategy) : Try Strategy :=
  others.foldlM (fun s t =>
    match s, t with
    | noRepeats e cs x, noRepeats _ ds _ => .ok (noRepeats e (cs ++ ds.filter fun d => !cs.contains d) x)
    | noRepeatsRange e m g x, noRepeatsRange e' m' g' _ =>
      if e = e' then .ok (noRepeatsRange e (Max.max m m') (Max.max g g') x)
      else .error (.because .merge "Unable to merge two different repeat expressions.")
    | s, _ => .ok s) s

/-- Memory in words, for states that do not reason about addresses. -/
structure WordMemory where
  width : Nat
  words : Std.TreeMap Nat Bits := {}

structure Memory where
  id : String
  endness : Endness
  paged : Paged := {}
  fast : Option WordMemory := none
  (readStrategies writeStrategies : List Strategy := [])
deriving Inhabited

inductive Category where
  | registers | memory | file
deriving DecidableEq

def Memory.category (m : Memory) : Category := if m.id = "mem" then .memory else if m.id = "reg" then .registers else .file

/-- The name of the category in actions: a file is named by itself. -/
def Memory.regionName (m : Memory) : String := m.id

def Memory.branch (m : Memory) : Memory × Memory :=
  let (copy, own) := m.paged.branch
  ({ m with paged := copy }, { m with paged := own })

inductive Region where
  | registers | memory
  | file (i : Nat)
deriving DecidableEq

end SymExec
