import SymExec.Op.Table
import SymExec.Value

/-!
# The meaning of primitive operations

`Op.ofName?` finds the rule that computes an operation from its description, and `Op.apply` computes it on scalars.
-/

namespace SymExec

open Bits

inductive OpRule where
  | intToFloat | floatToFloat | floatToInt | concat | highHalf | lowHalf | extract | signExtend | zeroExtend
  | divMod | mapped | floatLow | floatMapped | laneMapped | floatLaneMapped | compareFloats | reinterpret | round
  | multiplyWide | leadingZeros | trailingZeros | minimum | maximum | signBits | interleaveLow | interleaveHigh
  | equal | notEqual | notZero | greater | greaterEqual | less | lessEqual | orderCode
  | shiftLeftLanes | shiftRightLanes | shiftArithLanes | halving (sub : Bool) | saturating (sub : Bool) | packSaturated

structure Op where
  name : String
  attrs : OpAttrs
  rule : OpRule
  float : Bool
  outBits : Nat
  (fromSize toSize laneSize laneCount : Option Nat)

namespace Op

variable (op : Op)

def signed : Bool := op.attrs.fromSigned = some "S" || op.attrs.laneSigned = some "S"

/-! ### Which rule an operation follows -/

variable (name : String)

def explicitAttrs : Option OpAttrs :=
  if name = "Iop_64x4toV256" then some { generic := some "64x4", toSize := some "256" }
  else if name = "Iop_Yl2xF64" then some { generic := some "Yl2x", toSize := some "64" }
  else if name = "Iop_Yl2xp1F64" then some { generic := some "Yl2xp1", toSize := some "64" }
  else
    [(8, 8), (8, 16), (16, 4), (16, 8), (32, 2), (32, 4), (64, 2)].findSome? fun (w, n) =>
      if name = s!"Iop_InterleaveHI{w}x{n}" then
        some { generic := some "InterleaveHI", toSize := some (toString (w * n)), laneSize := some (toString w),
               laneCount := some (toString n) }
      else none

variable (g : String)

def isBitwise : Bool := g ∈ ["Xor", "Or", "And", "Not"]
def isArithmetic : Bool := g ∈ ["Add", "Sub", "Mul", "Div", "Neg", "Abs", "Mod"]
def isShift : Bool := g ∈ ["Shl", "Shr", "Sar"]

def genericRule (float : Bool) (g : String) : Option (OpRule × Bool) :=
  if float then
    match g with
    | "Cmp" => some (.compareFloats, false)
    | "Reinterp" => some (.reinterpret, false)
    | "Round" => some (.round, true)
    | _ => none
  else
    match g with
    | "Mull" => some (.multiplyWide, false)
    | "Clz" => some (.leadingZeros, false)
    | "Ctz" => some (.trailingZeros, false)
    | "Min" => some (.minimum, true)
    | "Max" => some (.maximum, true)
    | "GetMSBs" => some (.signBits, true)
    | "InterleaveLO" => some (.interleaveLow, true)
    | "InterleaveHI" => some (.interleaveHigh, true)
    | "CmpEQ" | "CasCmpEQ" => some (.equal, true)
    | "CmpNE" | "ExpCmpNE" | "CasCmpNE" => some (.notEqual, false)
    | "CmpNEZ" => some (.notZero, true)
    | "CmpGT" | "CasCmpGT" => some (.greater, true)
    | "CmpGE" | "CasCmpGE" => some (.greaterEqual, true)
    | "CmpLT" | "CasCmpLT" => some (.less, true)
    | "CmpLE" | "CasCmpLE" => some (.lessEqual, true)
    | "CmpORD" => some (.orderCode, false)
    | "ShlN" => some (.shiftLeftLanes, true)
    | "ShrN" => some (.shiftRightLanes, true)
    | "SarN" => some (.shiftArithLanes, true)
    | "HAdd" => some (.halving false, true)
    | "HSub" => some (.halving true, true)
    | "QAdd" => some (.saturating false, true)
    | "QSub" => some (.saturating true, true)
    | _ => none

variable (a : OpAttrs) (float signed : Bool)

def conversionRule (fromSize toSize : Nat) : Option OpRule :=
  if float && a.fromType = some "I" then some .intToFloat
  else if a.fromType = some "F" && a.toType = some "F" then some .floatToFloat
  else if a.fromType = some "F" && a.toType = some "I" then some .floatToInt
  else if a.fromSide = some "HL" then some .concat
  else if fromSize > toSize then
    (match a.fromSide with
      | some "HI" => some .highHalf
      | some _ => some .lowHalf
      | none => some .extract)
  else if fromSize < toSize then some (if signed then .signExtend else .zeroExtend)
  else none

def chooseRule : Option OpRule :=
  let size (s : Option String) := (s.bind numeral).getD 0
  if name = "Iop_64x4toV256" then some .concat
  else if name = "Iop_QNarrowBin16Sto8Ux16" || name = "Iop_QNarrowBin16Sto8Ux8" then some .packSaturated
  else
    match a.generic with
    | none => if a.conversion.isSome then conversionRule a float signed (size a.fromSize) (size a.toSize) else none
    | some g =>
      if a.conversion.isSome && g != "Round" && g != "Reinterp" then (if g = "DivMod" then some .divMod else none)
      else if isBitwise g then some .mapped
      else if isArithmetic g || isShift g then
        some (match float, a.laneZero.isSome, a.laneCount.isSome with
          | true, true, _ => .floatLow
          | true, false, false => .floatMapped
          | true, false, true => .floatLaneMapped
          | false, _, true => .laneMapped
          | false, _, false => .mapped)
      else
        match genericRule float g with
        | some (r, lanes) => if a.laneSize.isSome && !lanes then none else some r
        | none => none

/-- The operation of a description, given the width of its result. -/
def ofAttrs? (outBits : Nat) : Option Op :=
  let size (s : Option String) := s.bind numeral
  let types := [a.laneType, a.fromType, a.toType]
  let float := types.contains (some "F") || types.contains (some "D")
  let signed := a.fromSigned = some "S" || a.laneSigned = some "S"
  let declared := (size a.toSize).map fun n => if a.generic = some "DivMod" then 2 * n else n
  if declared.any (· != outBits) || types.contains (some "D") then none
  else
    (chooseRule name a float signed).map fun r =>
      { name, attrs := a, rule := r, float, outBits, fromSize := size a.fromSize, toSize := size a.toSize,
        laneSize := size a.laneSize, laneCount := size a.laneCount }

def ofName? (name : String) : Option Op := do
  if !known.contains name then none
  let a ← (explicitAttrs name).or (OpAttrs.ofName? name)
  ofAttrs? name a (tableBits name a)

/-! ### Computing -/

def failed : Try α := raise .operation

variable (args : List Scalar)

def arg (i : Nat) : Try Scalar :=
  match args[i]? with
  | some a => .ok a
  | none => raise .badIndex

def argBits (i : Nat) : Try Bits := (arg args i).map Scalar.toBits

def argFlt (i : Nat) : Try Flt := do
  match (← arg args i).toFlt? with
  | some f => pure f
  | none => failed

def part (hi lo : Nat) (a : Bits) : Try Bits := if hi < a.width ∧ lo ≤ hi then .ok (a.slice hi lo) else failed

variable (a : Bits)

def lane (i : Nat) : Try Bits :=
  let w := op.laneSize.getD 0
  part ((i + 1) * w - 1) (i * w) a

def laneNumbers : List Nat := (List.range (op.laneCount.getD 0)).reverse

def roundingMode (v : Scalar) : Try Rounding :=
  let ofNat (n : Nat) : Try Rounding :=
    match n with
    | 0 => .ok .nearestEven
    | 1 => .ok .down
    | 2 => .ok .up
    | 3 => .ok .zero
    | _ => raise .badKey
  match v with
  | .bits (.lit _ n) => ofNat n
  | .flt (.lit _ b) =>
    if b = Ieee.ofInt 0 then ofNat 0 else if b = Ieee.ofInt 1 then ofNat 1 else if b = Ieee.ofInt 2 then ofNat 2
    else if b = Ieee.ofInt 3 then ofNat 3 else raise .badKey
  | _ => .ok .nearestEven

def extend (signed : Bool) (k : Nat) (a : Bits) : Bits := if signed then a.sext k else a.zext k

def extendTo : Try Bits :=
  if a.width < op.outBits then
    .ok (extend (op.attrs.toSigned = some "S" || (op.attrs.fromSigned = some "S" && op.attrs.toSigned.isNone)) (op.outBits - a.width) a)
  else if a.width > op.outBits then raise .badImport
  else .ok a

def shiftable (a n : Bits) : Bool :=
  match a, n with
  | .lit .., .lit w v => !Word.isNeg w v
  | _, _ => true

def checkDivisor : Bits → Bits → Try Unit
  | .lit .., .lit _ 0 => .error (.because .zeroDivision "divide by zero!")
  | _, _ => .ok ()

variable (a b : Bits)

def wordOp : Try Bits :=
  if a.width != b.width then failed else
  match g with
  | "Xor" => .ok (a.xor b)
  | "Or" => .ok (a.or b)
  | "And" => .ok (a.and b)
  | "Add" => .ok (a.add b)
  | "Sub" => .ok (a.sub b)
  | "Mul" => .ok (a.mul b)
  | "Div" => (checkDivisor a b).map fun _ => a.udiv b
  | "Mod" => (checkDivisor a b).map fun _ => a.urem b
  | "Shl" => if shiftable a b then .ok (a.shl b) else failed
  | "Shr" => if shiftable a b then .ok (a.lshr b) else failed
  | "Sar" => if shiftable a b then .ok (a.ashr b) else failed
  | _ => raise .badAttribute

def mapWords (args : List Bits) : Try Bits := do
  let sized ← match op.fromSize with
    | none => pure args
    | some n => args.mapM fun a =>
      if a.width = n then .ok a
      else if a.width < n then .ok (extend op.signed (n - a.width) a)
      else .error (.because .operation s!"operation {op.name} received too large an argument")
  match op.attrs.generic, sized with
  | some "Not", [a] => pure a.not
  | some "Neg", _ | some "Abs", _ => raise .badAttribute
  | some g, [a, b] => wordOp g a b
  | _, _ => failed

def mapFloats (args : List Flt) : Try Flt :=
  match g, args with
  | "Neg", [f] => .ok (f.mkUn .neg)
  | "Abs", [f] => .ok (f.mkUn .abs)
  | "Neg", _ | "Abs", _ => failed
  | _, [f, g'] =>
    if f.sort != g'.sort then failed else
    match g with
    | "Add" => .ok (.mkBin .add f g')
    | "Sub" => .ok (.mkBin .sub f g')
    | "Mul" => .ok (.mkBin .mul f g')
    | "Div" => .ok (.mkBin .div f g')
    | _ => raise .badAttribute
  | _, _ => failed

def isUnaryFloat : Bool := g = "Neg" || g = "Abs"

/-- A number of the operand's own kind: bits are not taken for a number here. -/
def asFloat : Scalar → Try Flt
  | .flt f => .ok f
  | .bits _ => raise .badAttribute

def floatMapped : Try Flt := do
  let g := op.attrs.generic.getD ""
  if isUnaryFloat g then mapFloats g (← args.mapM asFloat)
  else
    let _ ← roundingMode (← arg args 0)
    mapFloats g (← (args.drop 1).mapM asFloat)

def eachLane (f : Nat → Try Bits) : Try Bits := do
  pure (.concatList (← op.laneNumbers.mapM f))

def floatLaneMapped : Try Bits := do
  let g := op.attrs.generic.getD ""
  let vectors ← if isUnaryFloat g then pure args else do
    let _ ← roundingMode (← arg args 0)
    pure (args.drop 1)
  op.eachLane fun i => do
    let fs ← vectors.mapM fun v => do
      match (Scalar.bits (← op.lane v.toBits i)).toFlt? with
      | some f => pure f
      | none => failed
    pure ((← mapFloats g fs).toBits .pattern)

/-- Computes on the low lane; the other lanes are those of the first operand. -/
def floatLow : Try Bits := do
  let w := op.laneSize.getD 0
  let fs ← args.mapM fun v => do
    match (Scalar.bits (← part (w - 1) 0 v.toBits)).toFlt? with
    | some f => pure f
    | none => failed
  let r ← mapFloats (op.attrs.generic.getD "") fs
  let a ← argBits args 0
  pure ((← part (a.width - 1) w a).concat (r.toBits .pattern))

variable (cmp : Bits → Bits → Cond)

def compare : Try Bits :=
  match op.laneSize with
  | some w => op.eachLane fun i => do
    pure (mkIte (cmp (← op.lane a i) (← op.lane b i)) (.lit w (Word.ones w)) (.lit w 0))
  | none => if a.width = b.width then .ok (.ofCond (cmp a b)) else failed

def shiftLanes (a n : Bits) (f : Bits → Bits → Bits) : Try Bits :=
  match op.laneSize with
  | none => failed
  | some w =>
    if w < n.width then failed else
    let n := n.zext (w - n.width)
    op.eachLane fun i => do
      let x ← op.lane a i
      if shiftable x n then pure (f x n) else failed

def sumOrDif (sub : Bool) (a b : Bits) : Bits := if sub then a.sub b else a.add b

variable (sub signed : Bool) (w : Nat)

def halve (a b : Bits) : Try Bits := part w 1 (sumOrDif sub (extend signed w a) (extend signed w b))

/-- Whether a sum or a difference `r` is not the exact one. -/
def lost (a b r : Bits) : Cond :=
  let top (x : Bits) := x.slice (w - 1) (w - 1)
  if signed then
    let differ := (top a).xor (top b)
    .eqNat ((if sub then differ else differ.not).and ((top a).xor (top r))) 1
  else if sub then .ugt r a else .ult r a

def limit (r : Bits) : Bits :=
  if signed then (lit w (Word.ones w / 2)).add ((r.slice (w - 1) (w - 1)).not.zext (w - 1))
  else .lit w (if sub then 0 else Word.ones w)

def saturate (a b : Bits) : Try Bits :=
  let r := sumOrDif sub a b
  .ok (.mkIte (lost sub signed w a b r) (limit sub signed w r) r)

def pairLanes (f : Nat → Bits → Bits → Try Bits) : Try Bits :=
  match op.laneSize with
  | none => raise .badType
  | some w => op.eachLane fun i => do f w (← op.lane a i) (← op.lane b i)

def choose (_ : Nat) (x y : Bits) : Try Bits := .ok (.mkIte (cmp x y) x y)

def interleave (start : Nat) : Try Bits := do
  let n := op.laneCount.getD 0 / 2
  let pairs ← (List.range n).reverse.mapM fun i => do
    pure [← op.lane a (start + i), ← op.lane b (start + i)]
  pure (concatList pairs.flatten)

def countLeadingZeros (a : Bits) : Bits :=
  (List.range w).foldl (fun r i => mkIte (Cond.eqNat (a.slice i i) 1) (.lit w (w - i - 1)) r) (ofNat w w)

def countTrailingZeros (a : Bits) : Bits :=
  (List.range w).reverse.foldl (fun r i => mkIte (Cond.eqNat (a.slice i i) 1) (ofNat w i) r) (ofNat w w)

def divMod : Try Bits := do
  let n := op.toSize.getD 0
  let d := extend op.signed (op.fromSize.getD 0 - n) b
  if a.width != d.width then failed
  checkDivisor a d
  let r ← part (n - 1) 0 (.mkBin (if op.signed then .srem else .urem) a d)
  pure (r.concat (← part (n - 1) 0 (.mkBin (if op.signed then .sdiv else .udiv) a d)))

def orderCode (a b : Bits) : Bits := .mkIte (.eq a b) (.lit w 2) (.mkIte (.ult a b) (.lit w 8) (.lit w 4))

/-- The code of an order of numbers: 1 for less, 0 for greater, 0x40 for equal, 0x45 for unordered. -/
def floatOrderCode (a b : Flt) : Bits :=
  .mkIte (.mkFcmp .lt a b) (.lit 32 1)
    (.mkIte (.mkFcmp .lt b a) (.lit 32 0) (.mkIte (.mkFcmp .eq a b) (.lit 32 0x40) (.lit 32 0x45)))

def packByte : Bits :=
  let hi := lit 16 255
  let lo := lit 16 0
  (mkIte (.sgt a hi) hi (mkIte (.slt a lo) lo a)).slice 7 0

def toFloat (a : Bits) : Try Flt :=
  match FloatSort.ofBits? w with
  | some s => .ok (.mkOfBits .signed s a)
  | none => failed

def takesMode : Bool := op.fromSize != some 32 || op.toSize != some 64

def modeAndArg : Try Scalar := do
  if op.takesMode then
    let _ ← roundingMode (← arg args 0)
    arg args 1
  else arg args 0

def compute : Try Scalar := do
  let two (f : Bits → Bits → Try Bits) : Try Scalar := do
    pure (.bits (← f (← argBits args 0) (← argBits args 1)))
  let s := op.signed
  match op.rule with
  | .intToFloat => do
    match ← op.modeAndArg args with
    | .bits b => pure (.flt (← toFloat op.outBits b))
    | .flt _ => raise .badAttribute
  | .floatToFloat => do
    let v ← op.modeAndArg args
    match v.toFlt?, FloatSort.ofBits? op.outBits with
    | some f, some sort => pure (.flt (f.mkUn (.cast sort)))
    | _, _ => failed
  | .floatToInt => do
    let mode ← roundingMode (← arg args 0)
    let f ← argFlt args 1
    match op.toSize with
    | none => raise .badType
    | some n => pure (.bits (f.toBits (.integer mode (op.attrs.toSigned = some "S") n)))
  | .concat => pure (.bits (concatList (args.map Scalar.toBits)))
  | .highHalf => do
    let a ← argBits args 0
    pure (.bits (← part (a.width - 1) (a.width / 2) a))
  | .lowHalf => do
    let a ← argBits args 0
    pure (.bits (← part (a.width / 2 - 1) 0 a))
  | .extract => do pure (.bits (← part (op.toSize.getD 0 - 1) 0 (← argBits args 0)))
  | .signExtend => do
    let a ← argBits args 0
    if op.toSize.getD 0 < a.width then failed else pure (.bits (a.sext (op.toSize.getD 0 - a.width)))
  | .zeroExtend => do
    let a ← argBits args 0
    if op.toSize.getD 0 < a.width then failed else pure (.bits (a.zext (op.toSize.getD 0 - a.width)))
  | .divMod => two op.divMod
  | .mapped => do pure (.bits (← op.mapWords (args.map Scalar.toBits)))
  | .floatLow => do pure (.bits (← op.floatLow args))
  | .floatMapped => do pure (.flt (← op.floatMapped args))
  | .laneMapped => do
    pure (.bits (← op.eachLane fun i => do op.mapWords (← args.mapM fun v => op.lane v.toBits i)))
  | .floatLaneMapped => do pure (.bits (← op.floatLaneMapped args))
  | .compareFloats => do pure (.bits (floatOrderCode (← argFlt args 0) (← argFlt args 1)))
  | .reinterpret => do
    match op.attrs.toType with
    | some "I" => pure (.bits (← argBits args 0))
    | some "F" => pure (.flt (← argFlt args 0))
    | _ => throw (.because .operation "unsupport Reinterp _to_type")
  | .round => do
    if op.laneSize.isSome then raise .badKey
    let mode ← roundingMode (← arg args 0)
    let v ← arg args 1
    let r := (← argFlt args 1).toBits (.integer mode true v.width)
    pure (.flt (← toFloat v.width r))
  | .multiplyWide => do
    match args with
    | [a, b] => do
      let x ← op.extendTo a.toBits
      let y ← op.extendTo b.toBits
      pure (.bits (x.mul y))
    | _ => failed
  | .leadingZeros => do pure (.bits (countLeadingZeros (op.fromSize.getD 0) (← argBits args 0)))
  | .trailingZeros => do pure (.bits (countTrailingZeros (op.fromSize.getD 0) (← argBits args 0)))
  | .minimum => two fun a b => op.pairLanes a b (choose (if s then .slt else .ult))
  | .maximum => two fun a b => op.pairLanes a b (choose (if s then .sgt else .ugt))
  | .signBits => do
    let a ← argBits args 0
    let n := op.laneCount.getD 0
    pure (.bits (concatList (← (List.range n).reverse.mapM fun i => part (8 * i + 7) (8 * i + 7) a)))
  | .interleaveLow => two fun a b => op.interleave a b 0
  | .interleaveHigh => two fun a b => op.interleave a b (op.laneCount.getD 0 / 2)
  | .equal => two fun a b => op.compare a b .eq
  | .notEqual => two fun a b => op.compare a b .ne
  | .notZero => do
    match args with
    | [a] =>
      let a := a.toBits
      pure (.bits (← op.compare a (.lit a.width 0) .ne))
    | _ => raise .badAssertion
  | .greater => two fun a b => op.compare a b (if s then .sgt else .ugt)
  | .greaterEqual => two fun a b => op.compare a b (if s then .sge else .uge)
  | .less => two fun a b => op.compare a b (if s then .slt else .ult)
  | .lessEqual => two fun a b => op.compare a b (if s then .sle else .ule)
  | .orderCode => two fun a b => if a.width = b.width then .ok (orderCode (op.fromSize.getD 0) a b) else failed
  | .shiftLeftLanes => two fun a n => op.shiftLanes a n .shl
  | .shiftRightLanes => two fun a n => op.shiftLanes a n .lshr
  | .shiftArithLanes => two fun a n => op.shiftLanes a n .ashr
  | .halving sub => two fun a b => op.pairLanes a b (halve sub s)
  | .saturating sub => two fun a b => op.pairLanes a b (saturate sub s)
  | .packSaturated => pure (.bits (.concatList (args.flatMap fun v => (v.toBits.chop 16).map packByte)))

def apply : Try Scalar := do
  match ← op.compute (if op.float then args else args.map fun a => .bits a.toBits) with
  | .bits b => pure (.bits (← op.extendTo b))
  | .flt f => if f.sort.bits = op.outBits then pure (.flt f) else raise .badImport

end Op

end SymExec
