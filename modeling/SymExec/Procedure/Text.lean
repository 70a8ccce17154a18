import SymExec.Procedure.Basic

/-!
# Bytes, the heap and texts

The functions on texts that end in a zero.
-/

namespace SymExec

open Cond

namespace Exec

def compareCases (bits : Nat) (a b : Bits) : List (Cond × Bits) :=
  [(.eq a b, .lit bits 0), (.ult a b, .ofInt bits (-1)), (.ugt a b, .lit bits 1)]

def memcmp (a b n : Bits) : Exec Bits := do
  let bits ← wordBits
  let most := (← libc).maxBufferSize
  let sure ← least n
  let more := if n.symbolic then most - sure else 0
  let answer ←
    if sure = 0 then pure (.lit bits 0)
    else do
      let x ← load .memory a { size := sure, endness := some .big }
      let y ← load .memory b { size := sure, endness := some .big }
      let cases := compareCases bits x y
      addConstraints [any (cases.map (·.1))]
      pure (choose cases (.lit bits 2))
  match answer with
  | .lit _ (_ + 1) => return answer
  | _ =>
    if more = 0 then return answer
    let x ← load .memory (a.addInt sure) { size := more, endness := some .big }
    let y ← load .memory (b.addInt sure) { size := more, endness := some .big }
    let extra := n.addInt (-sure)
    let results ← (List.range more).mapM fun i => do
      let low := 8 * (more - 1 - i)
      let cases := compareCases bits (x.slice (8 * more - 1) low) (y.slice (8 * more - 1) low)
      addConstraints [any (cases.map (·.1))]
      return (.eqNat extra (i + 1), choose cases (.lit bits 0))
    let all := (.eqNat extra 0, answer) :: results
    let r := .mkIte (.eqNat answer 0) (choose all (.lit bits 2)) answer
    addConstraints [any (all.map (·.1))]
    return r

def memcpy (dst src limit : Bits) : Exec Unit := do
  let n ←
    if limit.symbolic then do
      let most := (← libc).maxMemcpySize
      let hi ← greatest limit
      pure (max (← least limit) (min hi most))
    else eval limit
  if n > 0 then
    let v ← load .memory src { size := n, endness := some .big }
    poke dst v { size := some (.bits limit), endness := some .big }

/-- The number that a byte makes when it is repeated. -/
def repeatBytes (b k : Nat) : Nat :=
  if k ≤ 1 then b
  else
    let r := repeatBytes b (k / 2)
    if k % 2 = 1 then r <<< (8 * (k / 2 + 1)) ||| ((r <<< 8) + b) else r <<< (8 * (k / 2)) ||| r

def filling (char : Bits) (k : Nat) : Bits :=
  match char with
  | .lit _ b => .lit (8 * k) (if b = 0 then 0 else repeatBytes b k)
  | c => .concatList (.replicate k c)

def fillRange (dst : Bits) (char : Bits) : Nat → Nat → Nat → Exec Unit
  | 0, _, _ => return
  | fuel + 1, offset, n => do
    if offset < n then
      let k := min (n - offset) 0x1000
      poke (dst.addInt offset) (filling char k)
      fillRange dst char fuel (offset + k) n

def memset (dst char num : Bits) : Exec Unit := do
  let c := char.slice 7 0
  if num.symbolic then
    let n := (← least num) + (← libc).maxBufferSize
    poke dst (.concatList (.replicate n c)) { size := some (.bits num) }
  else
    let n ← eval num
    fillRange dst c (n / 0x1000 + 1) 0 n

/-! ### The heap -/

def requestedSize (size : Bits) : Exec Nat := do
  if size.symbolic then return min (← greatest size) (← libc).maxVariableSize else eval size

def takeHeap (n : Nat) : Exec Nat := do
  let addr := (← libc).heap
  modifyLibc ({ · with heap := addr + n })
  return addr

def malloc (size : Bits) : Exec Nat := do takeHeap (← requestedSize size)

def mallocNat (n : Nat) : Exec Nat := do malloc (← word n)

def calloc (count size : Bits) : Exec Nat := do
  let most := (← libc).maxVariableSize
  let number (b : Bits) : Exec Nat := if b.symbolic then greatest b else eval b
  let k ← number count
  let n ← number size
  let total := min (n * k) most
  let addr ← takeHeap total
  poke addr (.lit (8 * total) 0)
  return addr

def realloc (ptr size : Bits) : Exec Nat := do
  let most := (← libc).maxVariableSize
  addConstraints [ule size (.ofNat size.width most)]
  let n ← greatest size
  addConstraints [eqNat size n]
  let addr := (← libc).heap
  let v ← load .memory ptr { size := n }
  poke addr v
  let _ ← takeHeap n
  return addr

end Exec

structure TextLength where
  length : Bits
  most : Nat

namespace Exec

/-! ### Length -/

variable (s : Bits)

def seekEnd (symbolic : Nat) : Nat → Nat → Found → Exec Found
  | 0, _, _ => refuse .memoryLimit "strlen hit limit of 0x10000"
  | fuel + 1, n, found => do
    if !found.conditions.all (·.isFalse) then return found
    let further ← find .memory s (.lit 8 0) (2 * n) (some symbolic)
    if 2 * n > 0x10000 then refuse .memoryLimit "strlen hit limit of 0x10000"
    seekEnd symbolic fuel (2 * n) further

def strlen : Exec TextLength := do
  let l ← libc
  let first ← find .memory s (.lit 8 0) l.maxStrLen (some l.bufSymbolicBytes)
  let found ← seekEnd s l.bufSymbolicBytes 64 l.maxStrLen first
  match found.offsets with
  | [] => raise .badValue
  | o :: os =>
    addConstraints found.conditions
    return { length := ← asResult (found.addr.sub s), most := os.foldl max o }

def textBytes : Exec Bits := do
  let n ← strlen s
  load .memory s { size := n.most, endness := some .big }

def textAt : Exec String := do bytesText (← textBytes s)

/-! ### Comparison -/

def compareBytes (aLen limit : Bits) : Nat → List (Bits × Bits) → Bool → List Cond → Except Int (Bool × List Cond)
  | _, [], sure, cs => .ok (sure, cs.reverse)
  | i, (a, b) :: rest, sure, cs =>
    let c := .any [eq a b, .ult aLen (.ofNat aLen.width i), .ult limit (.ofNat limit.width i)]
    match sure, a.lit?, b.lit? with
    | true, some x, some y =>
      if x < y then .error (-1) else if y < x then .error 1 else compareBytes aLen limit (i + 1) rest true (c :: cs)
    | _, _, _ => compareBytes aLen limit (i + 1) rest false (c :: cs)

def compareTexts (a b limit : Bits) (al bl : TextLength) : Exec Bits := do
  let bits ← wordBits
  let x := al.length
  let y := bl.length
  let ret ← unconstrained "strncmp_ret" bits
  let sure := !x.symbolic && !y.symbolic && !limit.symbolic
  let n ←
    if sure then do pure (min (min (← eval x) (← eval y)) (← eval limit))
    else if !limit.symbolic then do pure (min (min al.most bl.most) (← eval limit))
    else pure (max al.most bl.most)
  let start := if sure then []
    else [mkOr (.eq x y) (.mkAnd (.uge x limit) (.uge y limit))]
  let zero (e : Bits) := e.lit? == some 0
  if n = 0 then
    let r := if zero limit || (zero x && zero y) then 0 else if al.most = 0 then -1 else 1
    return .ofInt bits r
  let as ← load .memory a { size := n, endness := some .big }
  let bs ← load .memory b { size := n, endness := some .big }
  match compareBytes x limit 0 ((as.chop 8).zip (bs.chop 8)) sure start.reverse with
  | .error r => return .ofInt bits r
  | .ok (true, _) => return .lit bits 0
  | .ok (false, cs) =>
    let same := .all cs
    let open_ := .nonzero limit
    let is (v : Nat) := .eqNat ret v
    addConstraints [any [
      .all [open_, same, is 0], .all [open_, same.mkNot, is 1], .all [eqNat limit 0, is 0],
      .all [eqNat x 0, .eqNat y 0, is 0]]]
    return ret

def strncmp (a b limit : Bits) : Exec Bits := do
  let al ← strlen a
  let bl ← strlen b
  compareTexts a b limit al bl

def strcmp (a b : Bits) : Exec Bits := do
  let al ← strlen a
  let bl ← strlen b
  asResult (← compareTexts a b (← word (max al.most bl.most)) al bl)

/-! ### Copies -/

def copyText (dst src limit length : Bits) : Exec Unit := do
  let whole := length.addInt 1
  memcpy dst src (.mkIte (.ule limit whole) limit whole)

def strncpy (dst src limit : Bits) : Exec Bits := do
  copyText dst src limit (← strlen src).length
  asResult dst

def strcpy (dst src : Bits) : Exec Bits := do
  let n := (← strlen src).length
  copyText dst src (n.addInt 1) n
  asResult dst

def strcat (dst src : Bits) : Exec Bits := do
  let n := (← strlen src).length
  let k := (← strlen dst).length
  copyText (dst.add k) src (n.addInt 1) n
  return dst

def strdup : Exec Nat := do
  let n := (← strlen s).length
  let new ← malloc (n.addInt 1)
  copyText (← word new) s (n.addInt 1) n
  return new

/-! ### Search -/

def markMultiwrite (b : Bits) : Exec Unit :=
  if b.symbolic then modify fun w => { w with multiwrite := b :: w.multiwrite } else return

def strchr (s char : Bits) : Exec Value := do
  let c := char.slice 7 0
  let n ← strlen s
  let bits ← wordBits
  let found ←
    if n.length.symbolic then do
      let hi ← greatest n.length
      find .memory s c n.most (some (min hi (← libc).maxSymbolicStrchr)) (some (.lit bits 0))
    else do find .memory s c (← eval n.length) none (some (.lit bits 0))
  if found.offsets.isEmpty then return .int 0
  markMultiwrite found.addr
  return .bits found.addr

def matchAt (hay needle : Bits) (needleLen : TextLength) :
    List Nat → TextLength → Int → List Cond → List (Cond × Bits) → Exec (List Cond × List (Cond × Bits))
  | [], _, _, exclusions, cases => return (exclusions, cases)
  | i :: rest, hayLen, remaining, exclusions, cases => do
    let here := hay.addInt i
    let r ← asResult (← compareTexts here needle needleLen.length hayLen needleLen)
    let c := all ([uge hayLen.length needleLen.length, eqNat r 0] ++ exclusions)
    let exclusions := exclusions ++ [nonzero r]
    let cases := cases ++ [(c, here)]
    let remaining := if c.symbolic then remaining - 1 else remaining
    if remaining = 0 then return (exclusions, cases)
    matchAt hay needle needleLen rest { hayLen with length := hayLen.length.addInt (-1) } remaining exclusions cases

def searchText (hay needle : Bits) (hayLen needleLen : TextLength) : Exec Value := do
  let bits ← wordBits
  if needleLen.most = 0 then return .bits hay
  if hayLen.most = 0 then return .bits (.lit bits 0)
  let tries := (← libc).maxSymbolicStrstr
  if needleLen.length.symbolic then
    let (exclusions, cases) ← matchAt hay needle needleLen (.range hayLen.most) hayLen tries
      [nonzero needleLen.length] [(.eqNat needleLen.length 0, hay)]
    let all := cases ++ [(.all exclusions, .lit bits 0)]
    addConstraints [any (all.map (·.1))]
    return .bits (choose all (.lit bits 0))
  let n ← eval needleLen.length
  let what ← load .memory needle { size := n }
  let found ← find .memory hay what hayLen.most (some tries) (some (.lit bits 0))
  if found.offsets.isEmpty then return .int 0
  return .bits found.addr

def strstr (hay needle : Bits) : Exec Value := do
  let hl ← strlen hay
  let nl ← strlen needle
  searchText hay needle hl nl

def strtok (s delim save : Bits) : Exec Value := do
  let a ← arch
  let l ← libc
  if l.simpleStrtok then
    let token ← mallocNat l.strtokTokenSize
    let which ← unconstrained "strtok_case" a.bits
    modifyLibc fun l => { l with strtokHeap := l.strtokHeap ++ [token] }
    return .bits (.mkIte (.eqNat which 0) (.ofNat a.bits token) (.lit a.bits 0))
  let saved ← loadOrdered save a.bytes
  let start := .mkIte (.eqNat s 0) saved s
  let sl ← strlen start
  let dl ← strlen delim
  let _ ← searchText start delim sl dl
  raise .badType

end Exec

end SymExec
