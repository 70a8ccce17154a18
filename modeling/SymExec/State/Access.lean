import SymExec.State.Basic

/-!
# Access to memory

Loads and stores on the memories of the current state, with addresses, sizes and conditions that may have symbols.
-/

namespace SymExec

open Cond Paged

structure LoadOptions where
  size : Option Quantity := none
  condition : Option Cond := none
  fallback : Option Bits := none
  addConstraints : Bool := true
  endness : Option Endness := none
  (inspected actions : Bool := true)
  recorded : Bool := false
  /-- Whether a range that may not be read ends the answer instead of being a fault. -/
  cut : Bool := false
  addrRegs : List Nat := []

structure StoreOptions where
  size : Option Quantity := none
  condition : Option Cond := none
  addConstraints : Bool := true
  endness : Option Endness := none
  (inspected actions : Bool := true)
  recorded : Bool := false
  priv : Option Bool := none
  addrRegs : List Nat := []

namespace Exec

/-! ### Regions -/

variable (r : Region)

def memoryAt : Exec Memory := do
  let s ← state
  match r with
  | .registers => return s.registers
  | .memory => return s.memory
  | .file i =>
    match s.posix.bind (·.table[i]?) with
    | some f => return f.content
    | none => raise .badKey

def modifyMemory (f : Memory → Memory) : Exec Unit :=
  modifyState fun s =>
    match r with
    | .registers => { s with registers := f s.registers }
    | .memory => { s with memory := f s.memory }
    | .file i =>
      { s with posix := s.posix.map fun p =>
        { p with table := p.table.modify i fun file => { file with content := f file.content } } }

def onPages (r : Region) (act : PagedM α) : Exec α := do
  let m ← memoryAt r
  let w ← get
  match act (m.paged, w.commons) with
  | .ok a (p, c) =>
    set { w with commons := c }
    modifyMemory r ({ · with paged := p })
    return a
  | .error f (p, c) =>
    set { w with commons := c }
    modifyMemory r ({ · with paged := p })
    throw f

def strict : Exec Bool := do
  let s ← state
  return (← memoryAt r).paged.checked && !(s.scratch.priv.headD false) && s.settings.has .strictPageAccess

def trackingNames : Exec Bool := has .reverseMemoryNameMap

/-! ### Unknown bytes -/

def unknownBytes (name : String) (bits : Nat) (inspected events : Bool := true) : Exec Bits := do
  if r = .memory && (← has .zeroFillUnconstrainedMemory) then return .lit bits 0
  unconstrained name bits inspected events

/-- Fills a range with unknown bytes, under what is there, and gives the chunk of them. -/
def fillMissing (addr n : Nat) (inspected events : Bool) : Exec Chunk := do
  let m ← memoryAt r
  let name := s!"{m.id}_{hexDigits addr}"
  let parts ← (List.range ((n + pageSize - 1) / pageSize)).mapM fun _ => unknownBytes r name (8 * min pageSize n) inspected events
  let parts := if (← arch).endness = .little then parts.map .reverse else parts
  if events then note "uninitialized"
  let c := .ofBits (.concatList parts) addr
  let tracking ← trackingNames
  onPages r (store false tracking false c)
  return c

/-- The bytes of a range from the chunks over it, and new ones where it has none. -/
def gather (addr n : Nat) (inspected events : Bool) (items : List (Nat × Chunk)) : Exec Bits := do
  -- the segments before `stop`, from the last item back
  let rec go (stop : Nat) (segments : List Bits) : List (Nat × Chunk) → Exec (Nat × List Bits)
    | [] => return (stop, segments)
    | (a, c) :: rest => do
      if c.covers (stop - 1) then go a (c.bytesAt a (stop - a) :: segments) rest
      else
        let missing := stop - c.stop
        let fill ← fillMissing r c.stop missing inspected events
        let segments := (fill.bytesAt c.stop missing).reverse :: segments
        go a (c.bytesAt a (c.stop - a) :: segments) rest
  let (stop, segments) ← go (addr + n) [] items.reverse
  let segments ←
    if stop ≠ addr then do
      let fill ← fillMissing r addr (stop - addr) inspected events
      pure (fill.bytesAt addr (stop - addr) :: segments)
    else pure segments
  return .concatList segments

def readFrom (addr n : Nat) (inspected events : Bool := true) (cut : Bool := false) : Exec Bits := do
  let strict ← strict r
  let items ← onPages r (chunks strict cut addr n)
  match items with
  | [(_, c)] => if c.covers addr && c.covers (addr + n - 1) then return c.bytesAt addr n
  | _ => pure ()
  gather r addr n inspected events items

/-! ### Addresses -/

def Strategy.choose (s : Strategy) (addr : Bits) : Exec (Option (List Nat) × Strategy) := do
  match s with
  | .any exact =>
    if exact then return (some [← eval addr], s)
    else
      let lo ← least addr
      return (if lo = (← greatest addr) then some [lo] else none, s)
  | .controlledData limit fixed _ =>
    let names := (← memoryAt r).paged.names.keys.filter fun k => !k.startsWith "reg_" && !k.startsWith "mem_"
    let found ← names.mapM fun v => onPages r (addressesOf v)
    let controlled := found.flatten.mergeSort (· ≤ ·) ++ fixed
    match controlled with
    | [] => raise .badIndex
    | first :: rest =>
      -- the base of the run that each address belongs to
      let (runs, _) := rest.foldl (fun acc a =>
        let base := if acc.2 + 1 = a then acc.1.headD 0 else a
        (base :: acc.1, a)) ([first], first)
      let groups := runs.reverse.splitBy (· == ·)
      let ranges := groups.map fun g =>
        let base := g.headD 0
        .mkAnd (.uge addr (.ofNat addr.width base)) (.ult addr (.ofNat addr.width (base + g.length)))
      return (some (← values addr limit [any ranges]), s)
  | .eval limit _ => return (some (← values addr limit), s)
  | .max _ => return (some [← greatest addr], s)
  | .nonzero _ => return (some [← eval addr [nonzero addr]], s)
  | .nonzeroRange limit _ =>
    let lo ← least addr
    if (← greatest addr) - lo ≤ limit then return (some (← values addr limit [nonzero addr]), s)
    return (none, s)
  | .noRepeats e seen x =>
    let v ← eval addr (seen ++ [eq addr e])
    return (some [v], .noRepeats e (seen ++ [mkNot (.eqNat e v)]) x)
  | .noRepeatsRange e lo g x =>
    let v ← eval addr [uge addr (.ofNat addr.width lo), .ult addr (.ofNat addr.width (lo + g))]
    return (some [v], .noRepeatsRange e (v + g) g x)
  | .range limit marked _ =>
    if marked && !addr.mentionsAny (← get).multiwrite then return (none, s)
    let lo ← least addr
    if (← greatest addr) - lo ≤ limit then return (some (← values addr limit), s)
    return (none, s)
  | .single _ =>
    match ← values addr 2 with
    | [v] => return (some [v], s)
    | _ => return (none, s)
  | .solutions limit _ =>
    let vs ← values addr (limit + 1)
    return (if vs.length ≤ limit then some vs else none, s)

/-- The numbers of an address with symbols, by the first strategy that gives some. -/
def concretizeWith (addr : Bits) (write : Bool) : Exec (List Nat) := do
  let m ← memoryAt r
  let action := if write then "store" else "load"
  let rec go (i : Nat) : List Strategy → Exec (List Nat)
    | [] => throw (.because .memoryAddress s!"Unable to concretize address for {action} with the provided strategies.")
    | s :: rest => do
      inspect "address_concretization" .before
        [("address_concretization_strategy", .str s.label), ("address_concretization_action", .str action),
         ("address_concretization_memory", .str "<SimSymbolicMemory>"), ("address_concretization_expr", .bits addr),
         ("address_concretization_add_constraints", .bool true)]
      if (← attr "address_concretization_strategy" (.str s.label)).isNull then go (i + 1) rest
      else
        let e ← attributeBits "address_concretization_expr" addr
        let (a, s') ← handling .unsat (Strategy.choose r s e) (return (none, s))
        modifyMemory r fun m =>
          if write then { m with writeStrategies := m.writeStrategies.set i s' }
          else { m with readStrategies := m.readStrategies.set i s' }
        let shown := (a.map fun vs => Value.list (vs.map .ofNat)).getD .null
        inspect "address_concretization" .after [("address_concretization_result", shown)]
        match ← attr "address_concretization_result" shown with
        | .list vs => return vs.filterMap (·.nat?)
        | _ => go (i + 1) rest
  go 0 (if write then m.writeStrategies else m.readStrategies)

def concretize (addr : Quantity) (write : Bool) : Exec (List Nat) :=
  match addr with
  | .num n => return [n]
  | .bits (.lit _ v) => return [v]
  | .bits b => concretizeWith r b write

/-! ### Sizes -/

def maximumSymbolicSize : Nat := 8 * 1024
def maximumConcreteSize : Nat := 0x1000000

def sizeRange (size : Quantity) : Exec (Nat × Nat) := do
  match size.nat? with
  | some n =>
    if n > maximumConcreteSize then throw (.because .memoryLimit s!"Concrete size {n} outside of allowable limits")
    return (n, n)
  | none =>
    let hi ← greatestQ size
    let lo ← leastQ size
    if (← has .approximateMemorySizes) && hi < 4 * 1024 then return (lo, hi)
    if lo > maximumSymbolicSize then
      note "memory_limit"
      if !(← has .bestEffortMemoryStoring) then throw (.because .memoryLimit s!"Symbolic size {lo} outside of allowable limits")
      return (maximumSymbolicSize, min hi maximumSymbolicSize)
    return (lo, min hi maximumSymbolicSize)

/-! ### Words -/

/-- The words that an access touches: base, offset and size of each part. -/
def wordParts (width addr size : Nat) : List (Nat × Nat × Nat) :=
  let offset := addr % width
  let base := addr - offset
  if offset + size ≤ width then [(base, offset, size)]
  else
    let lastSize := (addr + size) % width
    let lastBase := addr + size - lastSize
    (base, offset, width - offset) ::
      ((List.range ((lastBase - base - width) / width)).map fun i => (base + width * (i + 1), 0, width)) ++
      (if lastSize ≠ 0 then [(lastBase, 0, lastSize)] else [])

def setWord (base : Nat) (d : Bits) : Exec Unit :=
  modifyMemory r fun m => { m with fast := m.fast.map fun f => { f with words := f.words.insert base d } }

def loadWord (width : Nat) (part : Nat × Nat × Nat) : Exec Bits := do
  let (base, offset, size) := part
  let m ← memoryAt r
  let word ← match m.fast.bind (·.words[base]?) with
    | some d => pure d
    | none => do
      let v ← freshSymbol s!"{m.id}_{base}" (8 * width)
      let v := if m.endness = .little then v.reverse else v
      setWord r base v
      pure v
  let top := 8 * (width - offset)
  return word.slice (top - 1) (top - 8 * size)

def storeWord (width : Nat) (part : Nat × Nat × Nat) (data : Bits) : Exec Unit := do
  let (base, offset, size) := part
  let before ← if offset = 0 then pure (.lit 0 0) else loadWord r width (base, 0, offset)
  let after ← if offset + size = width then pure (.lit 0 0)
    else loadWord r width (base, offset + size, width - offset - size)
  setWord r base ((before.concat data).concat after)

/-- The part of the data that belongs into a part of a word, and where the data goes on. -/
def storePart (width : Nat) (data : Bits) (off : Nat) (part : Nat × Nat × Nat) : Exec Nat := do
  let top := data.width - 8 * off
  storeWord r width part (data.slice (top - 1) (top - 8 * part.2.2))
  return off + part.2.2

def wordNumber (q : Quantity) (what : String) : Exec Nat := do
  match q with
  | .num n => return n
  | .bits b => if b.symbolic then throw (.because .fastMemory s!"{what} not supported") else eval b

/-! ### Loads -/

/-- Loads without inspection: the addresses, the value with the first byte most significant, and conditions. -/
def loadRaw (addr size : Quantity) (o : LoadOptions) : Exec (List Nat × Bits × List Cond) := do
  let m ← memoryAt r
  match m.fast with
  | some f => do
    let a ← wordNumber addr "address"
    let n ← wordNumber size "address"
    let parts ← (wordParts f.width a n).mapM (loadWord r f.width)
    return ([a], .concatList parts, [])
  | none =>
    let (_, n) ← sizeRange size
    if size.symbolic then addConstraints [size.eqNat n] true
    if n = 0 then note "memory_limit"
    if addr.symbolic && (← has .avoidMultivaluedReads) then
      return ([], ← unknownBytes r "symbolic_read_unconstrained" (8 * n), [])
    let addrs ← tryCatch (some <$> concretize r addr false) fun f => do
      if f.kind.within .memory && (← has .conservativeReadStrategy) then return none else throw f
    match addrs with
    | none => return ([], ← unknownBytes r "symbolic_read_unconstrained" (8 * n), [])
    | some [] => raise .badIndex
    | some (a :: as) =>
      let first ← readFrom r a n o.inspected o.actions o.cut
      let value ← as.foldlM (fun v a => do
        let x ← readFrom r a n o.inspected o.actions
        return .mkIte (addr.eqNat a) x v) first
      let conds :=
        if as.isEmpty then (let c := addr.eqNat a; if c.symbolic then [c] else [])
        else [any ((a :: as).map addr.eqNat)]
      match o.condition with
      | none => return (a :: as, value, conds)
      | some c =>
        match o.fallback with
        | none => raise .badTermType
        | some fb => return (a :: as, .mkIte c value fb, [mkOr (.mkAnd c (.all conds)) c.mkNot])

def keepsConstraints (given : Bool) : Exec Bool := do
  match ← attr "address_concretization_add_constraints" (.bool given) with
  | .bool b => return b
  | .null => return false
  | _ => return true

def offsetOf (place : Quantity) : Exec Nat :=
  match place with
  | .num n => return n
  | .bits b => if b.symbolic then eval b else evalOne b

def actionOffset (addr : Quantity) : Exec (Option Nat) := do
  if r ≠ .registers then return none
  return some (← offsetOf addr)

def sizeBits (q : Quantity) : Value :=
  match q with
  | .num n => .ofNat (8 * n)
  | .bits b => .bits (b.mul (.ofNat b.width 8))

variable (cat : Category)

def accessName : String := if cat = .registers then "reg" else "mem"

def beginLoad (inspected : Bool) (addr size : Quantity) : Exec (Quantity × Quantity) := do
  if inspected && cat ≠ .file then
    let k := accessName cat
    let place := if cat = .registers then "reg_read_offset" else "mem_read_address"
    inspect (k ++ "_read") .before [(place, addr.toValue), (k ++ "_read_length", size.toValue)]
    return (← attributeQ place addr, ← attributeQ (k ++ "_read_length") size)
  else return (addr, size)

def endLoad (inspected : Bool) (value : Bits) : Exec Bits := do
  if inspected && cat ≠ .file then
    let k := accessName cat
    inspect (k ++ "_read") .after [(k ++ "_read_expr", .bits value)]
    attributeBits (k ++ "_read_expr") value
  else return value

def recordAs (m : Memory) (addr : Quantity) (fill : Action → Action) : Exec Unit := do
  act (fill { kind := .data, type := m.regionName, place := (← state).place, offset := ← actionOffset r addr,
              addr := some { value := addr.toValue } })

def recordLoad (m : Memory) (o : LoadOptions) (addr size : Quantity) (addrs : List Nat) (value : Bits) : Exec Unit := do
  if o.actions && !o.recorded && (← has .autoRefs) then
    let regs := if m.category = .registers && (← has .astDeps) then (addr.nat?).toList else []
    let own := match addr with | .num n => [n] | _ => []
    recordAs r m addr ({ · with
      action := some "read", addr := some { value := addr.toValue, regs := o.addrRegs },
      size := some { value := sizeBits size }, data := some { value := .bits value, regs },
      condition := o.condition.map fun c => { value := .cond c },
      fallback := o.fallback.map fun b => { value := .bits b }, actualAddrs := some addrs, ownRegs := own })

def load (addr : Quantity) (o : LoadOptions := {}) : Exec Bits := do
  let m ← memoryAt r
  let cat := m.category
  let size := o.size.getD (.num (← arch).bytes)
  let (addr', size') ← beginLoad cat o.inspected addr size
  let (addrs, value, conds) ← loadRaw r addr' size' o
  if (← keepsConstraints o.addConstraints) && !conds.isEmpty then addConstraints conds
  let value ←
    if (cat = .memory && (← has .simplifyMemoryReads)) || (cat = .registers && (← has .simplifyRegisterReads)) then simplify value
    else pure value
  let value := if o.endness.getD m.endness = .little then value.reverse else value
  let value ← endLoad cat o.inspected value
  recordLoad r m o addr size addrs value
  return value

/-! ### Stores -/

/-- A range of addresses of a store and where in it each possible address puts its data. -/
structure Segment where
  (start size : Nat)
  /-- How far into the data the range starts, for each address that covers it. -/
  options : List Nat
deriving Inhabited

/-- Cuts the segment that an address lies in, so that one starts there; gives its place. -/
def splitSegment (addr : Nat) (segments : List Segment) : Nat × List Segment :=
  let i := (segments.findIdx? fun s => s.start ≤ addr && addr < s.start + s.size).getD (segments.length - 1)
  let s := segments.getD i default
  if s.start = addr then (i, segments)
  else
    let before := addr - s.start
    let cut := [⟨s.start, before, s.options⟩, ⟨addr, s.size - before, s.options.map (· + before)⟩]
    (i + 1, segments.take i ++ cut ++ segments.drop (i + 1))

def storeSegments (addrs : List Nat) (size : Nat) : List Segment :=
  (addrs.foldl (fun acc addr =>
    let (segments, highest) := acc
    let segments :=
      if addr < highest then
        let (i, segments) := splitSegment addr segments
        let segments := segments ++ [⟨highest, addr + size - highest, []⟩]
        segments.mapIdx fun j s =>
          if i ≤ j ∧ addr < s.start + s.size then { s with options := s.options ++ [s.start - addr] } else s
      else segments ++ [⟨addr, size, [0]⟩]
    (segments, addr + size)) ([], 0)).1

structure Piece where
  value : Bits
  (addr size : Nat)

structure StoreResult where
  addrs : List Nat := []
  values : List Bits := []
  conditions : List Cond := []
  completed : Bool := false

def storeConcrete (little : Bool) (addr size : Nat) (data : Bits) (cond : Option Cond) : Exec (List Piece) := do
  let data := if 0 < size ∧ size < data.width / 8 then data.slice (8 * size - 1) 0 else data
  match cond with
  | none => return [⟨data, addr, size⟩]
  | some c =>
    let old ← readFrom r addr size
    let old := if little then old.reverse else old
    return [⟨.mkIte c data old, addr, size⟩]

/-- A store of which the size has symbols: each byte is written if it lies within the size. -/
def storeSymbolicSize (little : Bool) (addr : Nat) (size data : Bits) (cond : Option Cond) : Exec (List Piece) := do
  let n := data.width / 8
  let old ← readFrom r addr n
  let old := if little then old.reverse else old
  let bytes := (data.chop 8).zip (old.chop 8)
  let stored := .concatList (bytes.mapIdx fun i (a, b) => .mkIte (.ugt size (.ofNat size.width i)) a b)
  return [⟨(cond.map fun c => .mkIte c stored old).getD stored, addr, n⟩]

def storeSymbolicAddr (little : Bool) (addr : Quantity) (addrs : List Nat) (size : Nat) (data : Bits)
    (cond : Option Cond) : Exec (List Piece) := do
  let segments := storeSegments addrs size
  let olds ← segments.mapM fun s => readFrom r s.start s.size
  let olds := if little then olds.map .reverse else olds
  return (segments.zip olds).map fun (s, old) =>
    let value := s.options.foldl (fun v i =>
      let part :=
        if little then data.slice (8 * (i + s.size) - 1) (8 * i)
        else data.slice (data.width - 1 - 8 * i) (data.width - 8 * (i + s.size))
      .mkIte (.mkAnd (addr.eqNat (s.start - i)) (cond.getD (.lit true))) part v) old
    ⟨value, s.start, s.size⟩

def storeSymbolic (little : Bool) (addr : Quantity) (addrs : List Nat) (size data : Bits)
    (cond : Option Cond) : Exec (List Piece) := do
  let n := data.width / 8
  let olds ← addrs.mapM fun a => readFrom r a n
  let olds := if little then olds.map .reverse else olds
  let writes := (addrs.zip olds).flatMap fun (a, old) =>
    ((data.chop 8).zip (old.chop 8)).mapIdx fun i (d, b) => (a + i, a, i, d, b)
  let places := (writes.map (·.1)).eraseDups.mergeSort (· ≤ ·)
  places.mapM fun p => do
    let here := writes.filter (·.1 == p)
    let old := (here.head?.map (·.2.2.2.2)).getD default
    if here.any fun x => x.2.2.2.2 ≠ old then raise .badAssertion
    let value := here.foldl (fun v (_, a, i, d, _) =>
      .mkIte (.mkAnd (addr.eqNat a) (.mkAnd (.ugt size (.ofNat size.width i)) (cond.getD (.lit true))))
        d v) old
    return ⟨value, p, 1⟩

def storePieces (little : Bool) (addr : Quantity) (addrs : List Nat) (size : Quantity) (data : Bits)
    (cond : Option Cond) : Exec (List Piece) :=
  match size, size.nat?, addrs with
  | _, some k, [a] => storeConcrete r little a k data cond
  | .bits b, none, a :: _ =>
    if addr.symbolic then storeSymbolic r little addr addrs b data cond
    else storeSymbolicSize r little a b data cond
  | _, some k, _ => storeSymbolicAddr r little addr addrs k data cond
  | _, _, _ => raise .badIndex

def boundSize (size : Quantity) (n : Nat) : Exec Unit := do
  match size.nat? with
  | some k => if k > n then throw (.because .memory "Not enough data for requested storage size (size: <, data: <)")
  | none => pure ()
  match size with
  | .bits b => if b.symbolic then addConstraints [ule b (.ofNat b.width n)]
  | .num _ => pure ()

/-- Puts a piece in its place and gives the value that is now there, first byte most significant. -/
def putPiece (little simplifying tracking : Bool) (p : Piece) : Exec Bits := do
  let v ← if simplifying then simplify p.value else pure p.value
  if little && v.width % 8 ≠ 0 then raise .badTerm
  let v := if little then v.reverse else v
  let strict ← strict r
  if cat = .memory then modifyScratch fun s => { s with dirtied := (p.addr, p.size) :: s.dirtied }
  onPages r (store strict tracking true ⟨v, p.addr, p.size⟩)
  return v

def storeAt (little : Bool) (addr : Quantity) (addrs : List Nat) (size : Quantity) (data : Bits)
    (cond : Option Cond) : Exec StoreResult := do
  let conds :=
    if addr.symbolic then
      let c := .any (addrs.map addr.eqNat)
      if c.symbolic || c.isFalse then [c] else []
    else []
  let pieces ← storePieces r little addr addrs size data cond
  let simplifying := (cat = .memory && (← has .simplifyMemoryWrites)) || (cat = .registers && (← has .simplifyRegisterWrites))
  let tracking ← trackingNames
  let values ← pieces.mapM (putPiece r cat little simplifying tracking)
  return { addrs, values, conditions := conds, completed := true }

def storeRaw (addr : Quantity) (data : Bits) (size : Quantity) (cond : Option Cond) (endness : Option Endness) :
    Exec StoreResult := do
  let m ← memoryAt r
  let little := endness.getD m.endness = .little
  match m.fast with
  | some f => do
    match cond with
    | some c => if c.symbolic then throw (.because .fastMemory "size not supported")
    | none => pure ()
    let data := if little then data.reverse else data
    let a ← wordNumber addr "address"
    let n ← wordNumber size "address"
    let _ ← (wordParts f.width a n).foldlM (storePart r f.width data) 0
    return { addrs := [a], values := [data], completed := true }
  | none =>
    if size.symbolic && (← has .avoidMultivaluedWrites) then return {}
    let size ←
      if size.symbolic && (← has .concretizeSymbolicWriteSizes) then do
        let v ← evalQ size
        addConstraints [size.eqNat v]
        pure (.num v)
      else pure size
    if addr.symbolic && (← has .avoidMultivaluedWrites) then return {}
    boundSize size (data.width / 8)
    let addrs ← tryCatch (some <$> concretize r addr true) fun f => do
      if f.kind.within .memory && (← has .conservativeWriteStrategy) then return none else throw f
    match addrs with
    | none => return {}
    | some [a] => storeAt r m.category little addr [a] size data cond
    | some addrs => storeAt r m.category little addr (addrs.mergeSort (· ≤ ·)) size data cond

def beginStore (inspected : Bool) (addr size : Quantity) (data : Bits) : Exec (Quantity × Quantity × Bits) := do
  if inspected && cat ≠ .file then
    let k := accessName cat
    let place := if cat = .registers then "reg_write_offset" else "mem_write_address"
    inspect (k ++ "_write") .before
      [(place, addr.toValue), (k ++ "_write_length", size.toValue), (k ++ "_write_expr", .bits data)]
    return (← attributeQ place addr, ← attributeQ (k ++ "_write_length") size, ← attributeBits (k ++ "_write_expr") data)
  else return (addr, size, data)

def recordStore (m : Memory) (o : StoreOptions) (addr : Quantity) (data : Bits) (res : StoreResult) : Exec Unit := do
  if o.actions && res.completed && !o.recorded && (← has .autoRefs) then
    recordAs r m addr ({ · with
      action := some "write", size := some { value := (o.size.map sizeBits).getD (.ofNat data.width) },
      data := some { value := .bits data }, condition := o.condition.map fun c => { value := .cond c }, actualAddrs := some res.addrs })

/-- The data of a store as it is asked for: a register is filled up to the size with zeros. -/
def storeData (bits : Nat) (size : Option Quantity) (data : Bits) : Bits :=
  match cat, size with
  | .registers, some q =>
    let want := match q with | .num n => 8 * n | .bits _ => bits
    if data.width < want then data.zext (want - data.width) else data
  | _, _ => data

def storeSize (bits : Nat) (size : Option Quantity) (data : Bits) : Quantity :=
  match size with
  | some (.num n) => .bits (.ofNat bits n)
  | some q => q
  | none => .bits (.ofNat bits (data.width / 8))

def storePlain (addr : Quantity) (data : Bits) (o : StoreOptions) : Exec StoreResult := do
  let m ← memoryAt r
  let cat := m.category
  let bits := (← arch).bits
  let data := storeData cat bits o.size data
  let (addr', size', data') ← beginStore cat o.inspected addr (storeSize bits o.size data) data
  if (o.condition.map (·.isFalse)).getD false then return {}
  let res ← storeRaw r addr' data' size' o.condition o.endness
  if o.inspected && cat ≠ .file then inspect (accessName cat ++ "_write") .after []
  if (← keepsConstraints o.addConstraints) && !res.conditions.isEmpty then addConstraints res.conditions
  recordStore r m o addr' data' res
  return res

def store (addr : Quantity) (data : Bits) (o : StoreOptions := {}) : Exec StoreResult := do
  if let some b := o.priv then modifyScratch fun s => { s with priv := b :: s.priv }
  let res ← storePlain r addr data o
  if o.priv.isSome then modifyScratch fun s => { s with priv := s.priv.tail }
  return res

def poke (addr : Quantity) (data : Bits) (o : StoreOptions := {}) : Exec Unit := discard (store .memory addr data o)

def storeCases (addr : Quantity) (contents : List (Option Bits)) (conditions : List Cond)
    (fallback : Option Bits := none) (addConds : Option Bool := none) (endness : Option Endness := none) : Exec Unit := do
  if fallback.isNone && contents.all Option.isNone then return
  let width := (fallback.map (·.width)).getD ((contents.filterMap id).foldl (fun m c => max m c.width) 0)
  let fb ← match fallback with
    | some b => pure b
    | none => load r addr { size := some (.num (width / 8)), endness, addConstraints := addConds.getD true }
  let extended := contents.map fun c =>
    match c with
    | none => fb
    | some c => if c.width < fb.width then c.concat (fb.slice (fb.width - c.width - 1) 0) else c
  let cases := extended.zip conditions
  let unique := extended.eraseDups
  let data ←
    if unique.length = 1 ∧ unique.head? = some fb then pure fb
    else do
      let merged ← unique.mapM fun c => do
        return (← simplifyCond (.any ((cases.filter (·.1 == c)).map (·.2))), ← simplify c)
      simplify (merged.foldr (fun (g, c) rest => .mkIte g c rest) fb)
  let m ← memoryAt r
  let res ← storeRaw r addr data (.num (data.width / 8)) none endness
  if ← keepsConstraints (addConds.getD false) then addConstraints res.conditions
  if res.completed && (← has .autoRefs) then
    recordAs r m addr ({ · with
      action := some "write", size := some { value := .ofNat width }, data := res.values.getLast?.map fun b => { value := .bits b },
      condition := some { value := .cond (.any conditions) },
      fallback := fallback.map fun b => { value := .bits b }, actualAddrs := some res.addrs })

/-! ### Searching and copying -/

structure Found where
  addr : Bits
  conditions : List Cond
  offsets : List Nat

def find (start : Bits) (what : Bits) (maxSearch : Nat := 8) (maxSymbolic : Option Nat := none)
    (default : Option Bits := none) (step : Nat := 1) : Exec Found := do
  let seek := what.width / 8
  let chunkSize := max 0x100 (seek + 0x80)
  let first ← load r start { size := chunkSize, endness := some .big }
  let rec go (fuel i chunkStart : Nat) (chunk : Bits) (remaining : Option Nat) (cases : List (Cond × Bits × Nat)) :
      Exec (List (Cond × Bits × Nat)) := do
    match fuel with
    | 0 => return cases
    | fuel + 1 =>
      if i + seek > maxSearch ∨ remaining = some 0 then return cases
      let (chunkStart, chunk) ←
        if i - chunkStart > chunkSize - seek then do
          let s := chunkStart + (chunkSize - seek + 1)
          pure (s, ← load r (start.addInt s) { size := chunkSize, endness := some .big, cut := true })
        else pure (chunkStart, chunk)
      let top := 8 * (chunkSize - (i - chunkStart))
      let b := chunk.slice (top - 1) (top - 8 * seek)
      let cases := (.eq b what, start.addInt i, i) :: cases
      if !b.symbolic && !what.symbolic && b = what then return cases
      let remaining := if b.symbolic then remaining.map (· - 1) else remaining
      go fuel (i + step) chunkStart chunk remaining cases
  let cases ← go (maxSearch + 1) 0 0 first maxSymbolic []
  let conditions := if default.isNone then [any (cases.reverse.map (·.1))] else []
  let other := default.getD (.lit start.width 0)
  return ⟨cases.foldl (fun rest (c, a, _) => .mkIte c a rest) other, conditions, (cases.map (·.2.2)).reverse⟩

def copyContents (src dst : Region) (target origin size : Quantity) (cond : Option Cond := none) (inspected actions : Bool := true) :
    Exec (Option Bits) := do
  let (_, n) ← sizeRange size
  if n = 0 then return none
  let data ← load src origin { size := n, inspected, actions }
  let _ ← store dst target data { size := some size, condition := cond, inspected, actions }
  return some data

/-! ### Mapping -/

def mapRegion (addr : Quantity) (length : Nat) (prot : Bits) (zero : Bool := false) : Exec Unit := do
  if !(← has .trackMemoryMapping) then return
  if addr.symbolic then throw (.because .memory "cannot map region with a symbolic address")
  let a ← greatestQ addr
  onPages .memory (map ((← state).mode ≠ .fastpath) a length prot zero)

def unmapRegion (addr : Quantity) (length : Nat) : Exec Unit := do
  if !(← has .trackMemoryMapping) then return
  if addr.symbolic then throw (.because .memory "cannot unmap region with a symbolic address")
  let a ← greatestQ addr
  onPages .memory (unmap ((← state).mode ≠ .fastpath) a length)

def permissions (addr : Quantity) (prot : Option Bits := none) : Exec Bits := do
  if addr.symbolic then throw (.because .memory "page permissions cannot currently be looked up for symbolic addresses")
  let a ← evalQ addr
  onPages .memory (protect a prot)

end Exec

end SymExec
