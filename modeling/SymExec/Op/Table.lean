import Std.Data.HashSet

/-!
# The table of primitive operations

The operations of the intermediate language, family by family, and the widths of their results.
-/

namespace SymExec

structure OpAttrs where
  (generic fromType fromSigned fromSize fromSide conversion toType toSize toSigned lanes rounding : Option String := none)
  (laneSize laneSigned laneType laneZero laneCount : Option String := none)

namespace OpAttrs

abbrev Ways := List (Option String × List Char)

def rarely (ws : List (String × List Char)) (s : List Char) : Ways := (none, s) :: ws.map fun (t, r) => (some t, r)

def words (ws : List String) (s : List Char) : List (String × List Char) :=
  ws.filterMap fun w => if w.toList.isPrefixOf s then some (w, s.drop w.length) else none

variable (s : List Char)

def digits : List (String × List Char) :=
  let n := (s.takeWhile Char.isDigit).length
  (List.range n).map fun i => (String.ofList (s.take (n - i)), s.drop (n - i))

def wordRuns : List (String × List Char) :=
  let n := (s.takeWhile fun c => !c.isDigit).length
  (List.range n).map fun i => (String.ofList (s.take (i + 1)), s.drop (i + 1))

def skip (c : Char) : List Char → List Char × List Char
  | [] => ([], [])
  | d :: s => if d = c then ([c], s) else ([], d :: s)

/-- Lane descriptions: a width, marks for sign, float and low lane, and a count after an `x`. -/
def laneRuns : List (String × List Char) :=
  (digits s).flatMap fun (w, s) =>
    let (u, s) := skip 'U' s
    let (g, s) := skip 'S' s
    let (f, s) := skip 'F' s
    let (z, s) := skip '0' s
    match s with
    | 'x' :: s => (digits s).map fun (n, r) => (w ++ String.ofList (u ++ g ++ f ++ z) ++ "x" ++ n, r)
    | _ => []

variable (a : OpAttrs)

def conversions (s : List Char) : List (OpAttrs × List Char) :=
  (rarely (words ["HL", "HI", "L", "LO"] s) s).flatMap fun (side, s) =>
  (words ["to", "as"] s).flatMap fun (word, s) =>
  (rarely (words ["Int", "I", "F", "D", "V"] s) s).flatMap fun (ty, s) =>
  (rarely (digits s) s).flatMap fun (size, s) =>
  (rarely (words ["U", "S"] s) s).map fun (sign, s) =>
    ({ a with fromSide := side, conversion := some word, toType := ty, toSize := size, toSigned := sign }, s)

def ending : Option (Option String) :=
  match s with
  | [] => some none
  | ['_', 'R', c] => if c ∈ ['Z', 'P', 'N', 'M'] then some (some (String.ofList s)) else none
  | _ => none

def finish (s : List Char) : Option OpAttrs :=
  (rarely (laneRuns s) s).findSome? fun (lanes, s) => (ending s).map fun r => { a with lanes, rounding := r }

def splitLanes : OpAttrs :=
  match a.lanes with
  | none => a
  | some t =>
    let s := t.toList
    let size := s.takeWhile Char.isDigit
    let s := s.dropWhile Char.isDigit
    let (u, s) := skip 'U' s
    let (g, s) := if u.isEmpty then skip 'S' s else (u, s)
    let (f, s) := skip 'F' s
    let (z, s) := skip '0' s
    let some' (l : List Char) := if l.isEmpty then none else some (String.ofList l)
    { a with
      lanes := none, laneSize := some' size, laneSigned := some' g, laneType := some' f, laneZero := some' z,
      laneCount := some' (s.drop 1) }

def ofName? (name : String) : Option OpAttrs := do
  let (_, s) ← (words ["Iop_"] name.toList).head?
  let a ← (rarely (wordRuns s) s).findSome? fun (g, s) =>
    (rarely (words ["I", "F", "D", "V"] s) s).findSome? fun (ty, s) =>
    (rarely (words ["U", "S"] s) s).findSome? fun (sign, s) =>
    (rarely (digits s) s).findSome? fun (size, s) =>
    (rarely (words ["U", "S"] s) s).findSome? fun (back, s) =>
      let a : OpAttrs := { generic := g, fromType := ty, fromSigned := sign.or back, fromSize := size }
      (finish a s).or ((conversions a s).findSome? fun (a, s) => finish a s)
  let a := if a.generic = some "CmpOR" then { a with generic := some "CmpORD", fromType := none } else a
  pure a.splitLanes

def present : List (String × String) :=
  [("generic_name", a.generic), ("from_type", a.fromType), ("from_signed", a.fromSigned), ("from_size", a.fromSize),
    ("from_side", a.fromSide), ("conversion", a.conversion), ("to_type", a.toType), ("to_size", a.toSize),
    ("to_signed", a.toSigned), ("rounding_mode", a.rounding), ("vector_size", a.laneSize),
    ("vector_signed", a.laneSigned), ("vector_type", a.laneType), ("vector_zero", a.laneZero),
    ("vector_count", a.laneCount)].filterMap fun (k, v) => v.map (k, ·)

end OpAttrs

end SymExec

namespace SymExec.Op

/-- Rows of stems and of tails. -/
def rows (text : String) : List (List String × List String) :=
  let words (s : String) := (s.splitToList Char.isWhitespace).filter (· ≠ "")
  (text.splitOn ";").map fun row =>
    match row.splitOn ":" with
    | [stems, tails] => (words stems, words tails)
    | _ => ([""], words row)

/-- The tails that many operations share, by a letter. -/
def shapes : List (List String × List String) := rows
  "v: 8x8 16x4 32x2; w: 8x16 16x8 32x4; x: 8x32 16x16 32x8; i: 8 16 32 64; f: 32Fx4 32F0x4 64Fx2 64F0x2; g: 32Fx8 64Fx4; s: 8Sx8
  16Sx4 32Sx2; u: 8Ux8 16Ux4 32Ux2; S: 8Sx16 16Sx8 32Sx4; U: 8Ux16 16Ux8 32Ux4; b: F32 F64 F128; d: D64 D128; n: I32S I64S I32U
  I64U; h: 32Fx2 32Fx4; z: 16Sto8Sx8 32Sto16Sx4 64Sto32Sx2; y: 16Sto8Ux8 32Sto16Ux4 64Sto32Ux2; k: 16Uto8Ux8 32Uto16Ux4
  64Uto32Ux2; m: 8Sx32 16Sx16 32Sx8; p: 8Ux32 16Ux16 32Ux8"

def families : List (List String × List String) := rows
  "64to8 32to8 64to16 16to8 16HIto8 8HLto16 32to16 32HIto16 16HLto32 64to32 64HIto32 32HLto64 128to64 128HIto64 64HLto128 32to1
  64to1 64HLtoV128 64UtoV128 64x4toV256 2xm1F64 F64HLtoF128 F128HItoF64 F128LOtoF64 RndF128 AtanF64 Yl2xF64 Yl2xp1F64 ScaleF64
  SinF64 CosF64 TanF64 RSqrtEst5GoodF64 Slice64 SliceV128 D64HLtoD128 D128HItoD64 D128LOtoD64 DPBtoBCD I128StoBCD128 32Sto64;
  Add Sub: v w x i f g b d F64r32 16x2 8x4 64x2 128x1 64x4 32Fx2; Mul: v w i f g b d F64r32 16x16 32x8 32Fx2 I128by10
  I128by10Carry I128by10E I128by10ECarry; Div: f g b d U32 S32 U64 S64 U32E S32E U64E S64E F64r32; DivMod: U64to32 S64to32
  U128to64 S128to64 S64to64; And Or Xor: i V128 V256; Not: i 1 V128 V256; Shl Shr: v w i d V128 64x2; Sar: v w i V128 64x2; Sal
  QShl QSal QShlNsatUU QShlNsatSU QShlNsatSS: v w 64x1 64x2; ShlN ShrN: v w 64x2 16x16 32x8 64x4; SarN: v w 64x2 16x16 32x8; Rol
  QAddExtUSsatSS QAddExtSUsatUU PolynomialMulAdd QandUQsh QandSQsh QandUQRsh QandSQRsh: w 64x2; CmpEQ: v w x i f 64x2 64x4
  32Fx2; CmpNE CasCmpEQ CasCmpNE ExpCmpNE MullS MullU Left 1Sto: i; CmpNEZ: v w x i 16x2 8x4 64x2 128x1 64x4; CmpwNEZ 16Uto
  16Sto: 32 64; CmpLT CmpLE: f 32S 64S 32U 64U; CmpUN: f; CmpGT: s u S U h m 64Sx2 64Ux2 64Sx4; CmpGE: h; CmpORD: 32U 64U 32S
  64S; Cmp I64Sto I64Uto: b d; CmpExp Quantize SignificanceRound ExtractExp ExtractSig InsertExp: d; Mull: s u; MullEven: S U;
  Clz: v w 32 64 64x2; Ctz: w 32 64 64x2; Cls Dup: v w; Cnt PolynomialMul GetMSBs: 8x8 8x16; Max: f g s u S U m p 32U 64Sx2
  64Ux2 32Fx2; Min: f g s u S U m p 64Sx2 64Ux2 32Fx2; MaxNum MinNum: F32 F64; Neg: b h 64Fx2; Abs: v w b h 64x2 64Fx2; Sqrt: f
  g b; F64to: d n I16S F32 F16 F128 F16x2 D32; F32to: d n F64 F128 F16 F16x4 D32; F128to: d n I128S F64 F32 D32; F16to: F64 F32
  F32x4 F64x2; I32Sto I32Uto: b d Fx2 Fx4; Reinterp: F64asI64 I64asF64 F32asI32 I32asF32 I64asD64 D64asI64; MAdd MSub: b F64r32;
  NegMAdd NegMSub: F128; QAdd QSub: s u S U 32S 16Sx2 16Ux2 8Sx4 8Ux4 64Ux1 64Sx1 64Ux2 64Sx2 8Ux32 16Ux16 8Sx32 16Sx16; HAdd
  HSub: 16Ux2 16Sx2 8Ux4 8Sx4; Sad: 8Ux4; PwMax PwMin: s u h; PwAdd: v w 32Fx2; PwAddL: s u S U 64Ux2; PwBitMtxXpose: 64x2;
  RecipEst RSqrtEst: h 32Ux2 32Ux4 32F0x4 64Fx2 32Fx8; RecipStep RSqrtStep: h 64Fx2; MulHi: S U 16Ux4 16Sx4 16Ux16 16Sx16;
  PolynomialMull: 8x8; QDMulHi QRDMulHi: 16Sx4 32Sx2 16Sx8 32Sx4; QDMull: 16Sx4 32Sx2; Avg: S U 8Ux8 16Ux4 64Ux2 64Sx2 8Ux32
  16Ux16; QNarrowBin: 16Sto8Ux8 16Sto8Sx8 32Sto16Sx4 16Sto8Ux16 32Sto16Ux8 16Sto8Sx16 32Sto16Sx8 16Uto8Ux16 32Uto16Ux8
  64Sto32Sx4 64Uto32Ux4; NarrowBin: 16to8x8 32to16x4 16to8x16 32to16x8 64to32x4; NarrowUn: 16to8x8 32to16x4 64to32x2; QNarrowUn:
  z y k; Widen: 8Uto16x8 16Uto32x4 32Uto64x2 8Sto16x8 16Sto32x4 32Sto64x2; Sh Rsh: S U 64Sx2 64Ux2; QandQShrNnarrow
  QandQRShrNnarrow: k; QandQSarNnarrow QandQRSarNnarrow: z y; InterleaveHI InterleaveLO GetElem SetElem: v w 64x2;
  InterleaveOddLanes InterleaveEvenLanes: w 8x8 16x4; CatOddLanes CatEvenLanes: w 16x4 8x8; Perm: 8x8 8x16 32x4 32x8 8x16x2;
  D32to: b D64; D64to: b n D32 D128; D128to: b n D64; 8Uto 8Sto: 16 32 64; 32Uto: 64 V128; 1Uto: 8 32 64; Trunc: F128toI32S
  F128toI32U F128toI64S F128toI64U F64asF32; PRem: F64 C3210F64 1F64 1C3210F64; Round: F128toInt F64toInt F32toInt
  F64toF64_NEAREST F64toF64_NegINF F64toF64_PosINF F64toF64_ZERO F64toF32 F32x4_RM F32x4_RP F32x4_RN F32x4_RZ D64toInt
  D128toInt; RecpExp: F64 F32; FtoI32U FtoI32S F32ToFixed32U F32ToFixed32S: x2_RZ x4_RZ; QFtoI32: Ux4_RZ Sx4_RZ; Fixed32UToF32
  Fixed32SToF32: x2_RN x4_RN; Reverse: 8sIn16_x4 8sIn32_x2 16sIn32_x2 8sIn64_x1 16sIn64_x1 32sIn64_x1 8sIn16_x8 8sIn32_x4
  16sIn32_x4 8sIn64_x2 16sIn64_x2 32sIn64_x2 1sIn8_x16; BCD: toDPB Add Sub 128toI128S; V128: to64 HIto64 HLtoV256 to32;
  SetV128lo: 64 32; ZeroHI: 64ofV128 96ofV128 112ofV128 120ofV128; V256to: 64_0 64_1 64_2 64_3 V128_0 V128_1; Cipher: V128 LV128
  SV128; NCipher: V128 LV128; SHA: 512 256"

def known : Std.HashSet String :=
  .ofList (families.flatMap fun (stems, tails) => stems.flatMap fun stem =>
    (tails.flatMap fun t => (shapes.lookup [t]).getD [t]).map fun tail => "Iop_" ++ stem ++ tail)

def numeral (s : String) : Option Nat := if s.isEmpty || !s.all Char.isDigit then none else s.toNat?

def sized (stems : List String) (tail : String) (name : String) : Option Nat :=
  stems.findSome? fun p =>
    let p := "Iop_" ++ p
    if name.startsWith p && name.endsWith tail then numeral ((name.drop p.length).dropEnd tail.length).toString
    else none

def schemeBits (name : String) : Option Nat :=
  (sized ["Not", "Ctz", "Clz", "Add", "Sub", "Mul", "Xor", "Or", "And", "DivS", "DivU", "Mod", "Shl", "Shr", "Sar"] "" name).or <|
  ((sized ["CmpEQ", "CmpNE"] "" name).map fun _ => 1).or <|
  ((sized ["CmpGT", "CmpGE", "CmpLT", "CmpLE"] "S" name).map fun _ => 1).or <|
  ((sized ["CmpGT", "CmpGE", "CmpLT", "CmpLE"] "U" name).map fun _ => 1).or <|
  ((sized ["MullS", "MullU"] "" name).map (2 * ·)).or <|
  (match (name.splitOn "to") with
    | [a, b] =>
      ((sized ["DivModS", "DivModU"] "" a).bind fun _ => (numeral b).map (2 * ·)).or
        (((sized [""] "" a).or <| (sized [""] "U" a).or <| (sized [""] "S" a).or <| (sized [""] "HI" a).or
          (sized [""] "HL" a)).bind fun _ => numeral b)
    | _ => none)

def tableBits (name : String) (a : OpAttrs) : Nat :=
  let n (s : Option String) := (s.bind numeral).getD 0
  let lanes := n a.laneSize * n a.laneCount
  match a.generic with
  | some "GetMSBs" => n a.laneCount
  | some "64x4" => 256
  | some "DivMod" => 2 * n a.toSize
  | some "Mull" => if a.laneCount.isSome then 2 * lanes else 2 * n a.fromSize
  | some "Round" => if a.laneCount.isSome then lanes else n a.fromSize
  | some "Cmp" => 32
  | g =>
    if name == "Iop_F64toF16x2" then 128
    else if a.laneCount.isSome then lanes
    else if a.conversion.isSome then n a.toSize
    else if g.any fun g => g != "CmpORD" && ("Cmp".isPrefixOf g || "CasCmp".isPrefixOf g || "ExpCmp".isPrefixOf g) then 1
    else n a.fromSize

end SymExec.Op
