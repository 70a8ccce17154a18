import SymExec.Flags.Pc

/-!
# Condition flags of ARM

The flags N, Z, C and V of the 32-bit and the 64-bit machine, computed from the operation code and the operands that an instruction
left behind.
-/

namespace SymExec.Flags

inductive ArmOp where
  | copy | add | sub | adc | sbb | logic | mul | mull
deriving DecidableEq

inductive Arm64Op where
  | copy | add | sub | adc | sbc | logic
deriving DecidableEq

def ArmOp.ofCode? (code : Nat) : Option ArmOp := [ArmOp.copy, .add, .sub, .adc, .sbb, .logic, .mul, .mull][code]?

def Arm64Op.ofCode? (code : Nat) : Option (Arm64Op × Bool) :=
  if code = 0 then some (.copy, true)
  else ([Arm64Op.add, .sub, .adc, .sbc, .logic][(code - 1) / 2]?).map (·, code % 2 = 0)

inductive ArmFlag where
  | n | z | c | v
deriving DecidableEq

def ArmFlag.place : ArmFlag → Nat
  | .n => 31
  | .z => 30
  | .c => 29
  | .v => 28

def wordOfCond (w : Nat) (c : Cond) : Bits := .mkIte c (.lit w 1) (.lit w 0)

def ArmOp.result (op : ArmOp) (a b d : Bits) : Bits :=
  match op with
  | .add => a.add b
  | .sub => a.sub b
  | .adc => (a.add b).add d
  | .sbb => (a.sub b).sub (d.xor (.ofNat d.width 1))
  | _ => a

def ArmOp.flag (op : ArmOp) (f : ArmFlag) (a b d : Bits) : Bits :=
  let r := op.result a b d
  let w := 32
  let shr (x : Bits) (i : Nat) := x.lshr (.ofNat x.width i)
  let one := .ofNat w 1
  match op, f with
  | .copy, f => (shr a f.place).and one
  | .mull, .n => shr b 31
  | _, .n => shr r 31
  | .mull, .z => wordOfCond w (.eqNat (a.or b) 0)
  | _, .z => wordOfCond w (.eqNat r 0)
  | .add, .c => wordOfCond w (.ult r a)
  | .sub, .c => wordOfCond w (.uge a b)
  | .adc, .c => .mkIte (.nonzero d) (wordOfCond w (.ule r a)) (wordOfCond w (.ult r a))
  | .sbb, .c => .mkIte (.nonzero d) (wordOfCond w (.uge a b)) (wordOfCond w (.ugt a b))
  | .logic, .c => b
  | _, .c => (shr d 1).and one
  | .add, .v | .adc, .v => shr ((r.xor a).and (r.xor b)) 31
  | .sub, .v | .sbb, .v => shr ((a.xor b).and (a.xor r)) 31
  | .logic, .v => d
  | _, .v => d.and one

variable (op : Arm64Op)

def Arm64Op.result (a b d : Bits) : Bits :=
  match op with
  | .add => a.add b
  | .sub => a.sub b
  | .adc => (a.add b).add d
  | .sbc => (a.sub b).sub (d.xor (.ofNat d.width 1))
  | _ => a

/-- The overflow flag of an operation on operands of one width, as a word of 64 bits. -/
def Arm64Op.overflow (a b d : Bits) : Bits :=
  let w := a.width
  let r := op.result a b d
  let v := match op with
    | .add | .adc => (r.xor a).and (r.xor b)
    | _ => (a.xor b).and (a.xor r)
  (v.lshr (.ofNat w (w - 1))).zext (64 - w)

def Arm64Op.flag (wide : Bool) (f : ArmFlag) (a b d : Bits) : Try Bits :=
  let r := op.result a b d
  let w := 64
  let shr (x : Bits) (i : Nat) := x.lshr (.ofNat x.width i)
  match op, f with
  | .copy, f => .ok ((shr a f.place).and (.ofNat w 1))
  | _, .n => .ok (shr r (if wide then 63 else 31))
  | _, .z => .ok (wordOfCond w (.eqNat r 0))
  | .add, .c => .ok (wordOfCond w (.ult r a))
  | .sub, .c => .ok (wordOfCond w (.uge a b))
  | .adc, .c => .ok (.mkIte (.nonzero b) (wordOfCond w (.ule r a)) (wordOfCond w (.ult r a)))
  | .sbc, .c => .ok (.mkIte (.nonzero b) (wordOfCond w (.uge a b)) (wordOfCond w (.ugt a b)))
  | .logic, .c | .logic, .v => .ok (.lit w 0)
  | op, .v =>
    if wide then .ok (op.overflow a b d)
    else if op = .adc ∨ op = .sbc then .error (.of .badTerm)
    else .ok (op.overflow (a.slice 31 0) (b.slice 31 0) d)

variable (cx : HelperContext) (f : ArmFlag)

def armFlag (code a b d : Bits) : HelperResult := do
  let v ← cx.pick code
  match ArmOp.ofCode? v with
  | some op => pure (op.flag f a b d, [Cond.eqNat code v])
  | none => throw (if f = .z then .because .helperCall s!"Unknown cc_op {v}" else .of .helperCall)

def arm64Flag (code a b d : Bits) : HelperResult := do
  let v ← cx.pick code
  match Arm64Op.ofCode? v with
  | some (op, wide) => pure (← op.flag wide f a b d, [Cond.eqNat code v])
  | none => throw (if f = .z then .because .helperCall s!"Unknown cc_op {v}" else .of .helperCall)

abbrev FlagOf := HelperContext → ArmFlag → Bits → Bits → Bits → Bits → HelperResult

variable (flag : FlagOf)

def armAll (w : Nat) (cx : HelperContext) (code a b d : Bits) : HelperResult := do
  let (n, c₁) ← flag cx .n code a b d
  let (z, c₂) ← flag cx .z code a b d
  let (c, c₃) ← flag cx .c code a b d
  let (v, c₄) ← flag cx .v code a b d
  pure (placeFlags w [(31, bit n 0), (30, bit z 0), (29, bit c 0), (28, bit v 0)], c₁ ++ c₂ ++ c₃ ++ c₄)

def armCondition (w : Nat) (cx : HelperContext) (condCode a b d : Bits) : HelperResult := do
  let one := .ofNat w 1
  let cond := condCode.lshr (.ofNat condCode.width 4)
  let code := condCode.and (.ofNat condCode.width 0xf)
  let inv := cond.and (.ofNat cond.width 1)
  let v ← cx.pick cond
  let get (f : ArmFlag) := flag cx f code a b d
  let here := .eqNat cond v
  let always := (one, [here])
  if v = 14 ∨ (v = 15 ∧ w = 64) then return always
  match v / 2 with
  | 0 => do
    let (z, cs) ← get .z
    pure (inv.xor z, here :: cs)
  | 1 => do
    let (c, cs) ← get .c
    pure (inv.xor c, here :: cs)
  | 2 => do
    let (n, cs) ← get .n
    pure (inv.xor n, here :: cs)
  | 3 => do
    let (v, cs) ← get .v
    pure (inv.xor v, here :: cs)
  | 4 => do
    let (c, cs) ← get .c
    let (z, ds) ← get .z
    let r := c.and z.not
    pure (inv.xor (if w = 64 then r.and one else r), here :: cs ++ ds)
  | 5 => do
    let (n, cs) ← get .n
    let (v, ds) ← get .v
    pure (inv.xor ((n.xor v).not.and one), here :: cs ++ ds)
  | 6 => do
    let (n, cs) ← get .n
    let (v, ds) ← get .v
    let (z, es) ← get .z
    pure (inv.xor ((z.or (n.xor v)).not.and one), here :: cs ++ ds ++ es)
  | _ =>
    let name := if w = 64 then "arm64g_calculate_condition" else "armg_calculate_condition"
    throw (.because .helperCall s!"Unrecognized condition {v} in {name}")

/-! ### Helper functions -/

inductive HelperCall where
  | value (r : HelperResult)
  | segment (s : Try Segment)

def callHelper (name : String) (args : List Bits) : Option HelperCall :=
  let badCount := .error (.of .badType)
  let four (f : Bits → Bits → Bits → Bits → HelperResult) : Option HelperCall :=
    some (.value (match args with | [a, b, c, d] => f a b c d | _ => badCount))
  let five (f : Bits → Bits → Bits → Bits → Bits → HelperResult) : Option HelperCall :=
    some (.value (match args with | [a, b, c, d, e] => f a b c d e | _ => badCount))
  let two (f : Bits → Bits → HelperResult) := some (.value (match args with | [a, b] => f a b | _ => badCount))
  let one (f : Bits → Bits) := some (.value (match args with | [a] => .ok (f a, []) | _ => badCount))
  match name with
  | "amd64g_calculate_condition" => five (pcCondition64 cx)
  | "amd64g_calculate_rflags_all" => four (pcAll cx 64)
  | "amd64g_calculate_rflags_c" => four (pcCarry cx 64)
  | "amd64g_calculate_RCL" => four (rotate64 cx true)
  | "amd64g_calculate_RCR" => four (rotate64 cx false)
  | "amd64g_create_mxcsr" => one vectorControl
  | "amd64g_check_ldmxcsr" => one checkVectorControl
  | "x86g_calculate_condition" => five (pcCondition32 cx)
  | "x86g_calculate_eflags_all" => four (pcAll cx 32)
  | "x86g_calculate_eflags_c" => four (pcCarry cx 32)
  | "x86g_calculate_RCL" => four (rotate32 cx true)
  | "x86g_calculate_RCR" => four (rotate32 cx false)
  | "x86g_check_fldcw" => one controlRounding
  | "x86g_create_fpucw" => one controlWord
  | "x86g_calculate_daa_das_aaa_aas" => two (adjustAscii cx)
  | "x86g_calculate_aad_aam" => two (adjustProduct cx)
  | "x86g_use_seg_selector" =>
    match args with
    | [a, b, c, d] => some (.segment (segmentAddress cx a b c d))
    | _ => some (.value badCount)
  | "armg_calculate_flag_n" => four (armFlag cx .n)
  | "armg_calculate_flag_z" => four (armFlag cx .z)
  | "armg_calculate_flag_c" => four (armFlag cx .c)
  | "armg_calculate_flag_v" => four (armFlag cx .v)
  | "armg_calculate_flags_nzcv" => four (armAll armFlag 32 cx)
  | "armg_calculate_condition" => four (armCondition armFlag 32 cx)
  | "arm64g_calculate_flag_n" => four (arm64Flag cx .n)
  | "arm64g_calculate_flag_z" => four (arm64Flag cx .z)
  | "arm64g_calculate_flag_c" => four (arm64Flag cx .c)
  | "arm64g_calculate_flag_v" => four (arm64Flag cx .v)
  | "arm64g_calculate_data_nzcv" => four (armAll arm64Flag 64 cx)
  | "arm64g_calculate_condition" => four (armCondition arm64Flag 64 cx)
  | _ => none

end SymExec.Flags
