import SymExec.State.Files

/-!
# Merging states

Several states become one that behaves as each of them under that state's condition.
-/

namespace SymExec.Exec

/-- What the same place is in each of several memories, with the condition of each. -/
structure MergeView where
  chunks : List (Chunk × Cond)
  missing : List (Paged × Cond)

def chunkIn (p : Paged) (a : Nat) : Exec (Option Chunk) := fun w =>
  match (Paged.at? a).run (p, w.commons) with
  | .ok c _ => .ok c w
  | .error f _ => .error f w

variable (r : Region) (others : List (Paged × Cond)) (own : Cond)

def mergeViewAt (a : Nat) : Exec MergeView := do
  let mine := (← memoryAt r).paged
  let all := (mine, own) :: others
  let found ← all.mapM fun (p, c) => do return (← chunkIn p a, p, c)
  return {
    chunks := found.filterMap fun (x, _, c) => x.map (·, c)
    missing := found.filterMap fun (x, p, c) => if x.isNone then some (p, c) else none }

/-- The choice between values; of several conditions that hold the last counts. -/
def mergeValues (bits : Nat) (vs : List (Bits × Cond)) : Bits := vs.foldl (fun acc (v, c) => .mkIte c v acc) (.lit bits 0)

/-- The first distance below `n` at which a memory has something after an address. -/
def firstPresent (p : Paged) (a : Nat) : Nat → Nat → Exec Nat
  | 0, i => return i
  | n + 1, i => do
    if (← chunkIn p (a + i)).isSome then return i
    firstPresent p a n (i + 1)

def mergeAt (done : List Chunk) (b : Nat) : Exec (Option (Nat × List Chunk)) := do
  let v ← mergeViewAt r others own b
  let cs := v.chunks.map (·.1)
  if v.missing.isEmpty && cs.all done.contains then return none
  match cs with
  | [] => raise .badValue
  | first :: _ =>
    if v.missing.isEmpty && cs.all fun c => c.base = first.base && c.length = first.length then
      let value := mergeValues (8 * first.length) (v.chunks.map fun (c, f) => (c.content, f))
      let new ← onPages r (Paged.replaceChunk (← trackingNames) first value)
      return some (first.base + first.length, new :: cs ++ done)
    else
      let least := cs.foldl (fun m c => min m (c.length - (b - c.base))) (first.length - (b - first.base))
      let size ← v.missing.foldlM (fun m (p, _) => firstPresent p b m 0) least
      let id := (← memoryAt r).id
      let made ← v.missing.mapM fun (_, f) => do
        return (← unknownBytes r ("merge_uc_" ++ id ++ "_" ++ hexDigits b) (8 * size), f)
      let cut := if size = 0 then [] else v.chunks.map fun (c, f) => (c.bytesAt b size, f)
      let value := mergeValues (8 * size) (cut ++ made)
      let _ ← store r b value { endness := some .big, inspected := false }
      return some (b + size, done)

def mergePlaces : List Nat → Option Nat → List Chunk → Nat → Exec Nat
  | [], _, _, n => return n
  | b :: bs, mergedTo, done, n => do
    if mergedTo.any fun m => decide (b < m) then mergePlaces bs mergedTo done n
    else
      match ← mergeAt r others own done b with
      | none => mergePlaces bs mergedTo done n
      | some (stop, done) => mergePlaces bs (some stop) done (n + 1)

def mergeStrategies (all : List (List Strategy)) : Try (List Strategy) := do
  match all with
  | [] => return []
  | first :: rest =>
    if rest.any fun l => l.length != first.length then refuse .merge "unable to merge memories with amounts of strategies"
    first.zipIdx.mapM fun (s, i) => do
      let others := rest.filterMap (·[i]?)
      if others.any fun t => t.label != s.label then refuse .merge "unable to merge memories with different types of strategies"
      s.merge (others.filter (· != s)).eraseDups

/-- Merges the memories of other states into one of the current state. -/
def mergeMemory (others : List Memory) (conds : List Cond) : Exec Nat := do
  let changed ← others.mapM fun m => onPages r (Paged.changed m.paged)
  let places := (changed.flatten.eraseDups).mergeSort (· ≤ ·)
  let mine ← memoryAt r
  let reads ← ofExcept (mergeStrategies (mine.readStrategies :: others.map (·.readStrategies)))
  let writes ← ofExcept (mergeStrategies (mine.writeStrategies :: others.map (·.writeStrategies)))
  modifyMemory r ({ · with readStrategies := reads, writeStrategies := writes })
  mergePlaces r ((others.map (·.paged)).zip (conds.drop 1)) (conds.headD (.lit true)) places none [] 0

def mergePositions (own : File) (others : List (State × File)) : Exec Quantity := do
  if others.all fun (_, f) => f.pos = own.pos then return own.pos
  let mine ← greatestQ own.pos
  let theirs ← others.mapM fun (s, f) => do return (← onState s (greatestQ f.pos)).1
  return .num (theirs.foldl max mine)

def mergeFiles (others : List State) (conds : List Cond) : Exec Unit := do
  if (← state).posix.isNone && others.all (·.posix.isNone) then return
  let mine ← posix
  let theirs ← others.mapM fun s => do
    let (p, s) ← onState s posix
    return (s, p)
  let fds := ((mine.fds.map (·.1)) ++ theirs.flatMap fun (_, p) => p.fds.map (·.1)).eraseDups
  fds.forM fun fd => do
    let i ← fileOf (.num fd)
    let own ← file i
    let files ← theirs.mapM fun (s, p) => do
      match (p.file? fd).bind (p.table[·]?) with
      | some f => return (s, f)
      | none => raise .badKey
    let pos ← mergePositions own files
    modifyFile i ({ · with pos })
    let _ ← mergeMemory (.file i) (files.map (·.2.content)) conds

/-- The conditions of the merged state: those that all have, and the choice between the rest. -/
def mergeConstraints (own : List Cond) (others : List (List Cond)) (conds : List Cond) : List Cond :=
  let shared := own.filter fun c => others.all (·.contains c)
  let rest (cs : List Cond) := cs.filter fun c => !shared.contains c
  let options := ((own :: others).zip conds).map fun (cs, c) => Cond.all (c :: (rest cs).reverse)
  match Cond.any options with
  | .lit true => shared
  | c => c :: shared

/-- Merges other states into a copy of the current one, with a condition for each state, the current one first. -/
def merge (others : List State) (given : Option (List Cond) := none) (ancestor : Option State := none)
    (ancestorEpoch : Option Nat := none) : Exec (State × List Cond) := do
  let conds ← match given with
    | some cs => pure cs
    | none =>
      let n ← modifyGet fun w => (w.merges, { w with merges := w.merges + 1 })
      let flag ← freshSymbol s!"state_merge_{n}" 16
      pure ((List.range (others.length + 1)).map fun i => Cond.eqNat flag i)
  if ((others.map (·.arch.name)).eraseDups).length ≠ 1 then refuse .merge "Unable to merge due to different architectures."
  let self ← state
  let start ← fork
  let (_, merged) ← onState start do
    modifyState fun s => { s with history := { s.history with past := self.history.lineage } }
    if others.any (·.libc.isSome) then
      let _ ← libc
      let heap := others.foldl (fun h s => max h (s.libc.getD {}).heap) 0
      modifyLibc ({ · with heap })
    if others.any (·.cgc.isSome) || self.cgc.isSome then
      let bases := others.map fun s => (s.cgc.getD {}).allocationBase
      if bases.any Quantity.symbolic then raise .badValue
      let base := bases.foldl (fun h q => if (h.nat?.getD 0) < (q.nat?.getD 0) then q else h) (.num 0)
      if (← evalQ (← cgc).allocationBase) ≠ (← evalQ base) then modifyCgc ({ · with allocationBase := base })
    let _ ← mergeMemory .memory (others.map (·.memory)) conds
    let _ ← mergeMemory .registers (others.map (·.registers)) conds
    mergeFiles others conds
    if others.any (·.inspector.isSome) then
      let i ← inspector
      let all := others.flatMap fun s => (s.inspector.getD {}).breakpoints
      let new := all.filter fun b => i.breakpoints.all (·.id != b.id)
      modifyState fun s => { s with inspector := some { i with breakpoints := i.breakpoints ++ new } }
    if others.any (·.globals.isSome) || self.globals.isSome then
      let all := others.flatMap fun s => s.globals.getD []
      modifyState fun s =>
        let own := s.globals.getD []
        { s with globals := some (all.foldl (fun g (k, v) => if g.any (·.1 == k) then g else g ++ [(k, v)]) own) }
    let epoch := (ancestor.map (·.history.current.id)) <|> ancestorEpoch
    modifyState fun s =>
      let past := match ancestor, ancestorEpoch with
        | some a, _ => a.history.lineage
        | none, some e => s.history.past.dropWhile (·.id != e)
        | none, none => s.history.past
      { s with history := s.history.merge (others.map (·.history)) conds epoch past s.place }
    let constraints := match ancestor with
      | some a => .any conds :: a.constraints
      | none => mergeConstraints self.constraints (others.map (·.constraints)) conds
    modifyState ({ · with constraints, learned := [], probes := [], extremes := [] })
    addConstraints [Cond.any conds]
  return (merged, conds)

end SymExec.Exec
