import SymExec.Value

/-!
# Condition flags of the PC

An instruction leaves behind an operation code and its operands; the flags and the conditions on them are computed from these when
they are asked for.
-/

namespace SymExec

open Bits Cond

structure HelperContext where
  wordBits : Nat
  pick : Bits → Try Nat
  simplified : Bool := false
  protectedMode : Bool := true

abbrev HelperResult := Try (Bits × List Cond)

namespace Flags

inductive PcOp where
  | add | sub | adc | sbb | logic | inc | dec | shl | shr | rol | ror | umul | smul
deriving DecidableEq

def PcOp.all : List PcOp := [.add, .sub, .adc, .sbb, .logic, .inc, .dec, .shl, .shr, .rol, .ror, .umul, .smul]

structure PcFlags where
  (cf pf af zf sf of : Bits)

def sizeCount (w : Nat) : Nat := if w = 64 then 4 else 3

def PcOp.decode (w code : Nat) : Try (PcOp × Nat) :=
  let k := sizeCount w
  match PcOp.all[(code - 1) / k]? with
  | some op => .ok (op, 8 * 2 ^ ((code - 1) % k))
  | none => .error (.of (if code = 13 * k + 1 then .badType else .badKey))

variable (a : Bits)

def bit (i : Nat) : Bits := a.slice i i

def parity : Bits :=
  let n := if a.width > 7 then 8 else a.width
  (List.range n).foldl (fun b i => b.xor (bit a i)) (.lit 1 1)

def isZero : Bits := .ofCond (.eqNat a 0)

def low (n : Nat) (a : Bits) : Try Bits := if n ≤ a.width then .ok (a.slice (n - 1) 0) else .error (.of .badTerm)

/-- The flags an operation leaves on operands of `n` bits; `old` are the flags before it. -/
def PcOp.flags (op : PcOp) (n : Nat) (a b old : Bits) : PcFlags :=
  let one := .ofNat n 1
  let top (x : Bits) := bit x (n - 1)
  let common (r x y : Bits) (cf of : Bits) : PcFlags :=
    { cf, pf := parity r, af := bit ((r.xor x).xor y) 4, zf := isZero r, sf := top r, of }
  match op with
  | .add =>
    let r := a.add b
    common r a b (ofCond (ult r a)) (top (((a.xor b).xor (.lit n (Word.ones n))).and (a.xor r)))
  | .sub =>
    let r := a.sub b
    common r a b (.ofCond (.ult a b)) (top ((a.xor b).and (a.xor r)))
  | .adc =>
    let c := old.and one
    let y := b.xor c
    let r := (a.add y).add c
    common r a y (.mkIte (.nonzero c) (.ofCond (.ule r a)) (.ofCond (.ult r a)))
      (top (((a.xor y).xor (.lit n (Word.ones n))).and (a.xor r)))
  | .sbb =>
    let c := (bit old 0).zext (n - 1)
    let y := b.xor c
    let r := (a.sub y).sub c
    common r a y (.mkIte (.eqNat c 1) (.ofCond (.ule a y)) (.ofCond (.ult a y)))
      (top ((a.xor y).and (a.xor r)))
  | .logic => { cf := .lit 1 0, pf := parity a, af := .lit 1 0, zf := isZero a, sf := top a, of := .lit 1 0 }
  | .inc =>
    let x := a.sub one
    common a x one (bit old 0) (.mkIte (.eq (top a) (top x)) (.lit 1 0) (.lit 1 1))
  | .dec =>
    let x := a.add one
    common a x one (bit old 0) (.mkIte (.eq (top a) (top x)) (.lit 1 0) (.lit 1 1))
  | .shl => { cf := top a, pf := parity a, af := .lit 1 0, zf := isZero a, sf := top a, of := (bit a 0).xor (bit b 0) }
  | .shr =>
    { cf := .ofCond (.nonzero (b.and one)), pf := parity a, af := .lit 1 0, zf := isZero a, sf := top a, of := (bit a 0).xor (bit b 0) }
  | .rol =>
    { cf := bit a 0, pf := bit old 2, af := bit old 4, zf := bit old 6, sf := bit old 7, of := bit ((a.lshr (.ofNat n (n - 1))).xor a) 0 }
  | .ror => { cf := top a, pf := bit old 2, af := bit old 4, zf := bit old 6, sf := bit old 7, of := (top a).xor (bit a (n - 2)) }
  | .umul =>
    let lo := a.mul b
    let cf := .ofCond (.nonzero (lo.ashr (.ofNat n n)))
    { cf, pf := parity lo, af := .lit 1 0, zf := isZero lo, sf := top lo, of := cf }
  | .smul =>
    let lo := a.mul b
    let cf := .ofCond (.ne (lo.ashr (.ofNat n n)) (lo.ashr (.ofNat n (n - 1))))
    { cf, pf := parity lo, af := .lit 1 0, zf := isZero lo, sf := top lo, of := cf }

/-- Flags as a word: each at its place in the low 32 bits, and these in the high part of a wider word. -/
def placeFlags (w : Nat) (flags : List (Nat × Bits)) : Bits :=
  let r := flags.foldl (fun (r : Bits) (p, b) => (r.concat (.lit (31 - r.width - p) 0)).concat b) (.lit 0 0)
  r.concat (.lit (w - r.width) 0)

def PcFlags.toWord (f : PcFlags) (w : Nat) : Bits :=
  placeFlags w [(11, f.of), (7, f.sf), (6, f.zf), (4, f.af), (2, f.pf), (0, f.cf)]

def pcMask : Nat := 2 ^ 11 + 2 ^ 7 + 2 ^ 6 + 2 ^ 4 + 2 ^ 2 + 2 ^ 0

variable (cx : HelperContext)

/-- The flags of an operation code: a word of flags for code zero, else flags computed from the operands. -/
def pcFlags (w : Nat) (code a b old : Bits) : Try (Bits ⊕ PcFlags) := do
  let code ← cx.pick code
  if code = 0 then pure (.inl (a.and (ofNat a.width pcMask)))
  else
    let (op, n) ← PcOp.decode w code
    pure (.inr (op.flags n (← low n a) (← low n b) (← low n old)))

def pcAll (w : Nat) (code a b old : Bits) : HelperResult := do
  match ← pcFlags cx w code a b old with
  | .inl r => pure (r, [])
  | .inr f => pure (f.toWord w, [])

/-- A condition in terms of flags, by its number without the lowest bit, which negates it. -/
def pcCondition (cond : Nat) (cf pf zf sf of : Bits) : Option Bits :=
  match cond / 2 with
  | 0 => some of
  | 1 => some cf
  | 2 => some zf
  | 3 => some (cf.or zf)
  | 4 => some sf
  | 5 => some pf
  | 6 => some (sf.xor of)
  | 7 => some ((sf.xor of).or zf)
  | _ => none

def pcCond (w : Nat) (cond code a b old : Bits) : HelperResult := do
  let flags ← pcFlags cx w code a b old
  if cond.symbolic then throw (.because .execution "Hit a symbolic 'cond' in pc_calculate_condition. Panic.")
  let v ← cx.pick cond
  match flags with
  | .inr f =>
    match pcCondition v f.cf f.pf f.zf f.sf f.of with
    | some r => pure ((lit (cx.wordBits - 1) 0).concat ((ofNat 1 v).xor r), [])
    | none => throw (.of .badName)
  | .inl r =>
    let at' (i : Nat) := r.lshr (.ofNat r.width i)
    match pcCondition v (at' 0) (at' 2) (at' 6) (at' 7) (at' 11) with
    | some x => pure (((ofNat r.width (v % 2)).xor x).and (ofNat r.width 1), [])
    | none => throw (.because .helperCall "Unrecognized condition in pc_calculate_condition")

def pcCondNames : List String := ["O", "NO", "B", "NB", "Z", "NZ", "BE", "NBE", "S", "NS", "P", "NP", "L", "NL", "LE", "NLE"]

def comparison (cond : String) (a b : Bits) : Option Cond :=
  match cond with
  | "Z" => some (.eq a b)
  | "NZ" => some (.ne a b)
  | "B" => some (.ult a b)
  | "BE" => some (.ule a b)
  | "NBE" => some (.ugt a b)
  | "L" => some (.slt a b)
  | "LE" => some (.sle a b)
  | "NLE" => some (.sgt a b)
  | _ => none

def PcOp.result (op : PcOp) (a b : Bits) : Option Bits :=
  match op with
  | .sub => some (a.sub b)
  | .dec => some (a.sub (.ofNat a.width 1))
  | .inc => some (a.add (.ofNat a.width 1))
  | .shr => some (a.ashr b)
  | .shl => some (a.shl b)
  | .add => some (a.add b)
  | .logic => some a
  | _ => none

def pcCondSimple (w : Nat) (cond code a b : Bits) : HelperResult := do
  if cond.symbolic then throw (.because .execution "Hit a symbolic 'cond' in pc_calculate_condition. Panic.")
  let v ← cx.pick cond
  let code ← cx.pick code
  let refuse (s : String) : Fault :=
    .because .helperCall s!"G_CC_OP_{s} is not supported in pc_calculate_condition_simple(). Consider implementing."
  if code = 0 then throw (refuse "COPY")
  if code = 13 * sizeCount w + 1 then throw (refuse "NUMBER")
  let (op, n) ← PcOp.decode w code
  let x ← low n a
  let y ← low n b
  let name := pcCondNames.getD v ""
  let c :=
    if op = .sub then comparison name x y
    else
      (op.result x y).bind fun r => if name = "S" then some (slt r (.lit n 0)) else comparison name r (.lit n 0)
  let c := if op = .sub && name = "S" then some (slt (x.sub y) (.lit n 0)) else c
  match c with
  | some c => pure ((lit (cx.wordBits - 1) 0).concat (ofCond c), [])
  | none => throw (.of .badKey)

variable (cond code a b old : Bits)

/-- Whether a condition holds, from the operands where that is asked for and possible. -/
def pcCondition64 : HelperResult :=
  if cx.simplified then
    match pcCondSimple cx 64 cond code a b with
    | .error f => if f.kind = .badKey then pcCond cx 64 cond code a b old else .error f
    | r => r
  else pcCond cx 64 cond code a b old

def pcCondition32 : HelperResult := if cx.simplified then pcCondSimple cx 32 cond code a b else pcCond cx 32 cond code a b old

def pcCarry (w : Nat) (code a b old : Bits) : HelperResult := do
  let v ← cx.pick code
  let k := sizeCount w
  if v = 0 then pure (a.and (.ofNat a.width 1), [])
  else if 4 * k < v ∧ v ≤ 5 * k then pure (.lit cx.wordBits 0, [])
  else
    match ← pcFlags cx w (.lit 32 v) a b old with
    | .inl r => pure (r.and (.ofNat r.width 1), [])
    | .inr f => pure ((lit (cx.wordBits - 1) 0).concat f.cf, [])

/-! ### Rotation through the carry flag -/

variable (left : Bool)

/-- The rotation of the low bytes of a word together with the carry bit: carry, overflow and result. -/
def rotateCarry (arg amount carry size : Bits) : Try (Bits × Bits × Bits) := do
  if size.symbolic then throw (.because .execution "Hit a symbolic \"sz\" in an x86 rotate with carry instruction. Panic.")
  let n := 8 * (← cx.pick size)
  let w := arg.width
  if n > amount.width then
    throw (.because .execution "Got a rotate instruction for data larger than the provided word size. Panic.")
  if n = 0 ∨ n > w then throw (.of .badTerm)
  let masked := amount.and (.ofNat amount.width (w - 1))
  let k := if n = amount.width then masked.zext 1 else masked.slice n 0
  let x := carry.concat (arg.slice (n - 1) 0)
  let r := if left then x.rotl k else x.rotr k
  let low := r.slice (n - 1) 0
  let c := r.slice n n
  let o := if left then c.xor (bit low (n - 1)) else (bit low (n - 1)).xor (bit low (n - 2))
  pure (c, o, low.zext (w - n))

def withCarryOverflow (flags c o : Bits) : Bits :=
  let w := flags.width
  let kept := flags.and (.ofInt w (-(1 + 2 ^ 11) - 1))
  kept.or ((c.zext (w - 1)).or ((o.zext (w - 1)).shl (.ofNat w 11)))

variable (arg amount flags size : Bits)

/-- On the 64-bit machine a negative size asks for the flags instead of the result. -/
def rotate64 : HelperResult := do
  let wantFlags := (slt size (.lit size.width 0)).isTrue
  let (c, o, r) ← rotateCarry cx left arg amount (bit flags 0) (if wantFlags then size.neg else size)
  pure (if wantFlags then withCarryOverflow flags c o else r, [])

def rotate32 : HelperResult := do
  let (c, o, r) ← rotateCarry cx left arg amount (bit flags 0) size
  pure ((withCarryOverflow flags c o).concat r, [])

/-! ### Other helpers -/

/-- Flags, high and low part of the accumulator, put together after an adjustment of decimal digits. -/
def packAdjusted (o s z a c p ah al : Bits) : Bits :=
  let w := 32
  let one := .ofNat w 1
  let put (x : Bits) (i : Nat) := (x.and one).shl (.ofNat w (16 + i))
  let byte := .ofNat w 0xff
  (((((((put o 11).or (put s 7)).or (put z 6)).or (put a 4)).or (put c 0)).or (put p 2)).or
    ((ah.and byte).shl (.ofNat w 8))).or (al.and byte)

variable (flagsAx opcode : Bits)

def adjustAscii : HelperResult := do
  if flagsAx.width != 32 || opcode.symbolic then throw (.of .badAssertion)
  let code ← cx.pick opcode
  let w := 32
  let n (v : Nat) := .ofNat w v
  let al := flagsAx.and (n 0xff)
  let ah := (flagsAx.ashr (n 8)).and (n 0xff)
  let aux := (bit flagsAx 20).zext 31
  let c := .mkOr (.ugt (al.and (n 0xf)) (n 9)) (.eqNat aux 1)
  let flag := .mkIte c (n 1) (n 0)
  let done (al' ah' : Bits) : HelperResult :=
    .ok (packAdjusted (n 0) (n 0) (n 0) flag flag (n 0) (.mkIte c ah' ah) (.mkIte c (al'.and (n 0xf)) (al.and (n 0xf))), [])
  if code = 0x37 then done (al.add (n 6)) (.mkIte (.ugt al (n 0xf9)) (ah.add (n 2)) (ah.add (n 1)))
  else if code = 0x3f then done (al.sub (n 6)) (.mkIte (.ult al (n 6)) (ah.sub (n 2)) (ah.sub (n 1)))
  else throw (.because .helperCall "DAA/DAS instructions are unsupported")

def hex (n : Nat) : String := "0x" ++ String.ofList (Nat.toDigits 16 n)

def adjustProduct : HelperResult := do
  if flagsAx.width != 32 || opcode.symbolic then throw (.of .badAssertion)
  let code ← cx.pick opcode
  let n (v : Nat) := .ofNat 32 v
  let al := flagsAx.and (n 0xff)
  let ah := (flagsAx.ashr (n 8)).and (n 0xff)
  let (al, ah) ←
    if code = 0xd4 then pure (al.urem (n 10), al.udiv (n 10))
    else if code = 0xd5 then pure (((ah.mul (n 10)).add al).and (n 0xff), n 0)
    else throw (.because .helperCall s!"Unknown opcode {hex code} in AAD/AAM ccall")
  pure (packAdjusted (n 0) ((bit al 7).zext 31) (.mkIte (.eqNat al 0) (n 1) (n 0)) (n 0) (n 0) ((parity al).zext 31) ah al, [])

def controlRounding (cw : Bits) : Bits := ((cw.ashr (.ofNat cw.width 10)).and (.ofNat cw.width 3)).zext 32

def controlWord (mode : Bits) : Bits :=
  let n (v : Nat) := ofNat mode.width v
  (n 0x37f).or ((mode.and (n 3)).shl (n 10))

def vectorControl (mode : Bits) : Bits :=
  let n (v : Nat) := ofNat mode.width v
  (n 0x1f80).or ((mode.and (n 3)).shl (n 13))

/-- The rounding mode in a vector control word, with a warning in the high half. -/
def checkVectorControl (cw : Bits) : Bits :=
  let n (v : Nat) := ofNat cw.width v
  let set (v : Nat) := nonzero (cw.and (n v))
  let warning :=
    mkIte (ne (cw.and (n 0x1f80)) (n 0x1f80)) (.lit 64 3)
      (mkIte (set (2 ^ 15)) (.lit 64 4) (mkIte (set (2 ^ 6)) (.lit 64 5) (.lit 64 0)))
  (warning.shl (.lit 64 32)).or ((cw.lshr (n 13)).and (n 3))

/-! ### Segments -/

def segmentBase (d : Bits) : Bits := ((d.slice 63 56).concat (d.slice 39 32)).concat (d.slice 31 16)

def segmentLimit (d : Bits) : Bits :=
  let limit := ((d.slice 51 48).concat (d.slice 15 0)).zext 12
  if (eqNat (bit d 55) 0).isTrue then limit
  else (limit.shl (.ofNat 32 12)).or (.ofNat 32 0xfff)

/-- What becomes of an address in a segment: an answer at once, or one that needs the descriptor stored at an
address. -/
inductive Segment where
  | done (r : Bits)
  | descriptor (addr : Bits) (k : Bits → Bits)

def segmentAddress (ldt gdt selector addr : Bits) : Try Segment := do
  let n (v : Nat) := .ofNat selector.width v
  let bad := (ofNat cx.wordBits (2 ^ 32)).zext 32
  if (nonzero (selector.and (ofInt selector.width (-65536)))).isTrue then return .done bad
  let addr := if addr.width = 16 then addr.zext 16 else addr
  if !cx.protectedMode then return .done (((selector.shl (n 4)).add addr).zext 32)
  let sel := selector.and (n 0xffff)
  let local' := (sel.ashr (n 2)).and (n 1)
  let table := if (eqNat local' 0).isTrue then gdt else ldt
  if (← cx.pick table) = 0 then return .done (((sel.shl (n 16)).add addr).zext 32)
  let index := (sel.ashr (n 3)).zext 32
  if (uge index ((table.slice 15 0).zext 48)).isTrue then return .done bad
  let base ← cx.pick (table.slice 47 16)
  let finish (d : Bits) : Bits :=
    if (eqNat (bit d 47) 0).isTrue then bad
    else if (uge addr (segmentLimit d)).isTrue then bad
    else ((segmentBase d).add addr).zext 32
  pure (.descriptor ((ofNat index.width base).add (index.mul (ofNat index.width 8))) finish)

end Flags

end SymExec
