import SymExec.Engine.Successors

/-!
# Expressions, helpers and statements

The value of an expression in the current state, with the actions that reading it took.
-/

namespace SymExec

structure Operand where
  value : Scalar
  actions : List Action := []
  loaded : Bool := false

namespace Exec

def sources (read : Tracked → List Nat) (taken : Action → List Nat) (o : Operand) : Exec (List Nat) := do
  if o.actions.isEmpty || !(← has .actionDeps) then return []
  if o.loaded then
    let mem := o.actions.filter fun a => a.kind = .data && a.type = "mem"
    if mem.isEmpty then raise .badType
    return (mem.flatMap fun a => (a.data.map read).getD []).eraseDups
  return (o.actions.flatMap taken).eraseDups

def sourceRegs : Operand → Exec (List Nat) := sources (·.regs) (·.regs)

def sourceTmps : Operand → Exec (List Nat) := sources (·.tmps) (·.tmps)

def tracked (o : Operand) (v : Value) : Exec Tracked := return { value := v, regs := ← sourceRegs o, tmps := ← sourceTmps o }

def constant (c : Ir.Const) : Exec Scalar := do
  match c with
  | .num t v => return .bits (.ofNat t.bits v)
  | .flt s b =>
    if !(← has .supportFloatingPoint) then throw (.because .unsupportedExpression "floating point support disabled")
    return .flt (.lit s b)

/-- The value in its final form: simpler or concrete if the settings ask for it, and as wide as its type. -/
def finishValue (v : Scalar) (bits : Nat) : Exec Scalar := do
  let v ← match v with
    | .bits b => if ← has .simplifyExprs then pure (.bits (← simplify b)) else pure v
    | _ => pure v
  let v ← match v with
    | .bits b =>
      if b.symbolic && (← has .concretize) then do
        let n ← eval b
        addConstraints [Cond.eqNat b n]
        pure (.bits (.lit b.width n))
      else pure v
    | _ => pure v
  if v.width ≠ bits then throw (.because .expression s!"Inconsistent expression size: should be {bits} but is {v.width}")
  return v

def ofType (t : Ty) (b : Bits) : Exec Scalar := do
  if t.isFloat then
    match (Scalar.bits b).toFlt? with
    | some f => return .flt f
    | none => raise .badTerm
  else return .bits b

def callHelper (name : String) (args : List Bits) : Exec (Option (Bits × List Cond)) := do
  match Flags.callHelper (← helperContext) name args with
  | none => return none
  | some (.value r) => return some (← ofExcept r)
  | some (.segment s) =>
    match ← ofExcept s with
    | .done v => return some (v, [])
    | .descriptor p k =>
      let d ← load .memory p { size := some (.num 8), endness := some .little }
      return some (k d, [])

def applyOp (name : String) (args : List Scalar) : Exec Scalar := do
  let op ← ofExcept (Op.find name)
  if op.float && !(← has .supportFloatingPoint) then throw (.because .unsupportedOperation "floating point support disabled")
  match op.apply args with
  | .ok v => return v
  | .error f =>
    if f.kind.within .operation && !f.kind.within .zeroDivision && !f.kind.within .unsupportedOperation && (← has .bypassErroredIrop) then
      return .bits (← unconstrained "irop_error" op.outBits)
    else throw f

def bankPlace (b : Ir.Bank) (index : Bits) (bias : Int) : Exec (Bits × Nat) := do
  let size ← ofExcept b.elem.bytes
  let i := (index.addInt bias).urem (.ofNat index.width b.count)
  return ((i.mul (.ofNat i.width size)).addInt b.base, size)

def readAction (place : Quantity) (bits : Nat) (v : Scalar) : Exec (List Action) := do
  if !(← has .trackRegisterActions) then return []
  let offset ← offsetOf place
  return [{
    kind := .data, type := "reg", place := (← state).place, action := some "read", offset := some offset
    addr := some { value := place.toValue }, size := some { value := .ofNat bits }, data := some { value := .ofScalar v }
    ownRegs := match place with | .num n => [n] | _ => [] }]

def arityName (n : Nat) : String := ["", "Unop", "Binop", "Triop", "Qop"].getD n "Op"

mutual

def operand (e : Ir.Expr) : Exec Operand := do
  let ty ← match e with
    | .guestPlace => do pure (Ty.int (← arch).bits)
    | e => do ofExcept (e.ty (← state).scratch.types)
  inspect "expr" .before []
  let r ← match e with
    | .const c => do
      let v ← constant c
      pure { value := ← finishValue v ty.bits }
    | .temp n => do
      let v ←
        if (← has .superFastpath) && !(← state).scratch.temps.contains n then pure (Scalar.bits (.lit ty.bits 0))
        else temp n
      let v ← finishValue v ty.bits
      let actions : List Action ←
        if ← has .trackTmpActions then
          pure [{ kind := .data, type := "tmp", place := (← state).place, action := some "read", tmp := some n
                  size := some { value := .ofNat ty.bits }, data := some { value := .ofScalar v }, ownTmps := [n] }]
        else pure []
      pure { value := v, actions }
    | .get offset t => do
      let v ← ofType t (← load .registers offset { size := some (.num (← ofExcept t.bytes)) })
      let v ← finishValue v t.bits
      pure { value := v, actions := ← readAction (.num offset) t.bits v }
    | .getI b index bias => do
      let ix ← operand index
      let (place, size) ← bankPlace b ix.value.toBits bias
      let v ← ofType b.elem (← load .registers place { size })
      let v ← finishValue v b.elem.bits
      pure { value := v, actions := ix.actions ++ (← readAction place b.elem.bits v) }
    | .load endness t addr => do
      let size ← ofExcept t.bytes
      let a ← operand addr
      let v ←
        if ← has .doLoads then load .memory a.value.toBits { size, endness }
        else do
          let s := (← state).scratch
          unconstrained s!"load_expr_{hexText (s.instruction.getD 0)}_{s.stmt.getD 0}" (8 * size)
      let v ← finishValue (← ofType t v) t.bits
      let own : List Action ←
        if ← has .trackMemoryActions then
          pure [{ kind := .data, type := "mem", place := (← state).place, action := some "read"
                  addr := some (← tracked a (.ofScalar a.value)), size := some { value := .ofNat t.bits }
                  data := some { value := .ofScalar v } }]
        else pure []
      pure { value := v, actions := a.actions ++ own, loaded := true }
    | .op name args => do
      let os ← operands args
      let result : Try Scalar ← tryCatch (Except.ok <$> applyOp name (os.map (·.value))) fun f => do
        if f.kind.within .unsupportedOperation && (← has .bypassUnsupportedIrop) then return .error f else throw f
      match result with
      | .ok v =>
        let own : List Action ←
          if ← has .trackOpActions then
            let part (a : Ir.Expr) (o : Operand) : Tracked :=
              match a with
              | .temp n => { value := .ofScalar o.value, tmps := [n] }
              | .get n _ => { value := .ofScalar o.value, regs := [n] }
              | _ => { value := .ofScalar o.value }
            pure [{ kind := .operation, type := "operation", place := (← state).place, op := some name
                    exprs := some ((args.zip os).map fun (a, o) => part a o) }]
          else pure []
        pure { value := ← finishValue v ty.bits, actions := os.flatMap (·.actions) ++ own }
      | .error _ =>
        note "resilience"
        let b ← if ← has .unsupportedBypassZeroDefault then pure (Bits.lit ty.bits 0)
          else unconstrained (arityName args.length) ty.bits
        pure { value := ← finishValue (← ofType ty b) ty.bits, actions := os.flatMap (·.actions) }
    | .ite c a b => do
      let oc ← operand c
      let of ← operand b
      let ot ← operand a
      let v := Scalar.ite (Cond.eqNat oc.value.toBits 0) of.value ot.value
      pure { value := ← finishValue v ty.bits, actions := oc.actions ++ of.actions ++ ot.actions }
    | .helper name t args => do
      let os ← operands args
      let actions := os.flatMap (·.actions)
      if !(← has .doCcalls) then pure { value := ← finishValue (.bits (← unconstrained "ccall_ret" t.bits)) ty.bits, actions }
      else
        let r ← tryCatch (Except.ok <$> callHelper name (os.map (·.value.toBits))) fun f => do
          if f.kind.within .helperCall && (← has .bypassErroredIrccall) then return .error f else throw f
        match r with
        | .error _ =>
          note "resilience"
          pure { value := ← finishValue (.bits (← unconstrained ("errored_" ++ name) t.bits)) ty.bits, actions }
        | .ok (some (v, cs)) =>
          addConstraints cs
          pure { value := ← finishValue (.bits v) ty.bits, actions }
        | .ok none =>
          if !(← has .bypassUnsupportedIrccall) then throw (.because .unsupportedHelperCall s!"Unsupported CCall {name}")
          let v ← if ← has .unsupportedBypassZeroDefault then pure (Bits.lit t.bits 0)
            else unconstrained ("unsupported_" ++ name) t.bits
          note "resilience"
          pure { value := ← finishValue (.bits v) ty.bits, actions }
    | .vectorPlace => do pure { value := .bits (Bits.ofBytes (bytesOf "OMG!")) }
    | .guestPlace => do pure { value := .bits (.lit ty.bits 0) }
  inspect "expr" .after [("expr", .ofScalar r.value)]
  return r

def operands (es : List Ir.Expr) : Exec (List Operand) := do
  match es with
  | [] => return []
  | e :: es =>
    let o ← operand e
    return o :: (← operands es)

end

end Exec

/-! ## Helpers that change the state

Helper functions with effects on registers and memory. -/

/-! ### Processor identification -/

/-- One answer: four registers, for a question in the first register and perhaps a second one in the third. -/
structure CpuRow where
  (a b c d : Nat)
  (question second : Option Nat)
  keepsC : Bool := false

namespace CpuRow

def other (a b c d : Nat) : CpuRow := { a, b, c, d, question := none, second := none }

def reply (question a b c d : Nat) : CpuRow := { a, b, c, d, question, second := none }

def subreply (question second a b c d : Nat) : CpuRow := { a, b, c, d, question, second }

def baseline64 : List CpuRow := [
  other 0 0 0 0,
  reply 0 0x1 0x72676e41 0x21444955 0x50432079,
  reply 0x1 0xf5a 0x1000800 0 0x78bfbff,
  reply 0x80000000 0x80000018 0x68747541 0x444d4163 0x69746e65,
  reply 0x80000001 0xf5a 0x505 0 0x21d3fbff,
  reply 0x80000002 0x20444d41 0x6574704f 0x206e6f72 0x296d7428,
  reply 0x80000003 0x6f725020 0x73736563 0x3820726f 0x3834,
  reply 0x80000004 0 0 0 0,
  reply 0x80000005 0xff08ff08 0xff20ff20 0x40020140 0x40020140,
  reply 0x80000006 0 0x42004200 0x4008140 0,
  reply 0x80000007 0 0 0 0xf,
  reply 0x80000008 0x3028 0 0 0]

def avx64 : List CpuRow := [
  other 0x7 0x340 0x340 0,
  reply 0 0xd 0x756e6547 0x6c65746e 0x49656e69,
  reply 0x1 0x206a7 0x100800 0x1f9ae3bf 0xbfebfbff,
  reply 0x2 0x76035a01 0xf0b0ff 0 0xca0000,
  reply 0x3 0 0 0 0,
  reply 0x4 0 0 0 0,
  subreply 0x4 0 0x1c004121 0x1c0003f 0x3f 0,
  subreply 0x4 0x1 0x1c004122 0x1c0003f 0x3f 0,
  subreply 0x4 0x2 0x1c004143 0x1c0003f 0x1ff 0,
  subreply 0x4 0x3 0x1c03c163 0x2c0003f 0x1fff 0x6,
  reply 0x5 0x40 0x40 0x3 0x1120,
  reply 0x6 0x77 0x2 0x9 0,
  reply 0x7 0 0x800 0 0,
  reply 0x8 0 0 0 0,
  reply 0x9 0 0 0 0,
  reply 0xa 0x7300803 0 0 0x603,
  { reply 0xb 0 0 0 0 with keepsC := true },
  subreply 0xb 0 0x1 0x1 0x100 0,
  subreply 0xb 0x1 0x4 0x4 0x201 0,
  reply 0xc 0 0 0 0,
  reply 0xd 0 0 0 0,
  subreply 0xd 0 0x7 0x340 0x340 0,
  subreply 0xd 0x1 0x1 0 0 0,
  subreply 0xd 0x2 0x100 0x240 0 0,
  reply 0xe 0x7 0x340 0x340 0,
  reply 0xf 0x7 0x340 0x340 0,
  reply 0x80000000 0x80000008 0 0 0,
  reply 0x80000001 0 0 0x1 0x28100800,
  reply 0x80000002 0x20202020 0x20202020 0x65746e49 0x2952286c,
  reply 0x80000003 0x726f4320 0x4d542865 0x35692029 0x3033322d,
  reply 0x80000004 0x50432030 0x20402055 0x30382e32 0x7a4847,
  reply 0x80000005 0 0 0 0,
  reply 0x80000006 0 0 0x1006040 0,
  reply 0x80000007 0 0 0 0x100,
  reply 0x80000008 0x3024 0 0 0]

def baseline32 : List CpuRow := [
  other 0x543 0 0 0x8001bf,
  reply 0 0x1 0x72676e41 0x21444955 0x50432079]

def sse32 : List CpuRow := [
  other 0x7280202 0 0 0,
  reply 0 0xa 0x756e6547 0x6c65746e 0x49656e69,
  reply 0x1 0x6f6 0x20800 0xe3bd 0xbfebfbff,
  reply 0x2 0x5b0b101 0x5657f0 0 0x2cb43049,
  reply 0x3 0 0 0 0,
  reply 0x4 0 0 0 0,
  subreply 0x4 0 0x4000121 0x1c0003f 0x3f 0x1,
  subreply 0x4 0x1 0x4000122 0x1c0003f 0x3f 0x1,
  subreply 0x4 0x2 0x4004143 0x3c0003f 0xfff 0x1,
  reply 0x5 0x40 0x40 0x3 0x20,
  reply 0x6 0x1 0x2 0x1 0,
  reply 0x7 0 0 0 0,
  reply 0x8 0x400 0 0 0,
  reply 0x9 0 0 0 0,
  reply 0xa 0x7280202 0 0 0,
  reply 0x80000000 0x80000008 0 0 0,
  reply 0x80000001 0 0 0x1 0x20100000,
  reply 0x80000002 0x65746e49 0x2952286c 0x726f4320 0x4d542865,
  reply 0x80000003 0x43203229 0x20205550 0x20202020 0x20202020,
  reply 0x80000004 0x30303636 0x20402020 0x30342e32 0x7a4847,
  reply 0x80000005 0 0 0 0,
  reply 0x80000006 0 0 0x10008040 0,
  reply 0x80000007 0 0 0 0,
  reply 0x80000008 0x3024 0 0 0]

end CpuRow

/-! ### Extended floating point numbers -/

/-- A float in another format, by the exponent and the fraction that a normal one has there. -/
def reformat (sign exponent mantissa exp frac : Bits) : Bits :=
  let ones (b : Bits) := .ofInt b.width (-1)
  let zero (b : Bits) := .lit b.width 0
  let special (z i n : Bits) := .mkIte (.eqNat exponent 0) z (.mkIte (.eq exponent (ones exponent)) i n)
  let inf := .mkIte (.eqNat mantissa 0) (zero frac) (ones frac)
  (sign.concat (special (zero exp) (ones exp) exp)).concat (special (zero frac) inf frac)

def doubleOfExtended (x : Bits) : Bits :=
  let e := x.slice 78 64
  reformat (x.slice 79 79) e (x.slice 62 0) (((e.slice 10 0).addInt (-16383)).addInt 1023) (x.slice 62 11)

def extendedOfDouble (x : Bits) : Bits :=
  let e := x.slice 62 52
  let m := x.slice 51 0
  reformat (x.slice 63 63) e m (((e.zext 4).addInt (-1023)).addInt 16383) (((Bits.lit 1 1).concat m).concat (.lit 11 0))

def Exec.setRegIf (name : String) (v : Bits) (size : Nat) (cond : Option Cond) : Exec Unit := do
  let (place, _) ← registerPlace name true
  let _ ← store .registers place v { size, condition := cond }

def idNames (wide : Bool) : List String := if wide then ["rax", "rbx", "rcx", "rdx"] else ["eax", "ebx", "ecx", "edx"]

def Exec.identify (rows : List CpuRow) (wide : Bool) : Exec Unit := do
  let size := if wide then 8 else 4
  let names := idNames wide
  let old (i : Nat) : Exec Bits := do
    let v ← reg (names.getD i "")
    return if wide then v.slice 31 0 else v
  let a ← old 0
  let c ← old 2
  rows.forM fun r => do
    let cond := match r.question, r.second with
      | none, _ => none
      | some q, none => some (.eqNat a q)
      | some q, some s => some (.mkAnd (.eqNat a q) (.eqNat c s))
    let third := if r.keepsC then c else .ofNat (8 * size) r.c
    let n (v : Nat) := .ofNat (8 * size) v
    (names.zip [n r.a, n r.b, third, n r.d]).forM fun (k, v) => setRegIf k v size cond

def Exec.runDirty (name : String) (args : List Quantity) : Exec (Option (Option Bits)) := do
  let badCount : Exec (Option (Option Bits)) := raise .badType
  let counted (n : Nat) (act : Exec (Option Bits)) := if args.length = n then do return some (← act) else badCount
  let answers (rows : List CpuRow) (wide : Bool) := counted 1 do
    identify rows wide
    return none
  let opcode (q : Quantity) : Exec (Option Nat) :=
    match q with
    | .num _ => raise .badAttribute
    | .bits b => return b.lit?
  match name with
  | "ppcg_dirtyhelper_MFTB" => counted 0 (return some (.lit 64 0x200))
  | "ppc32g_dirtyhelper_MFSPR_287" => counted 0 (return some (.lit 32 0x200))
  | "amd64g_dirtyhelper_RDTSC" | "x86g_dirtyhelper_RDTSC" => counted 0 do return some (← freshSymbol "RDTSC" 64)
  | "amd64g_dirtyhelper_CPUID_baseline" | "amd64g_dirtyhelper_CPUID_avx_and_cx16" | "amd64g_dirtyhelper_CPUID_avx2" =>
    answers CpuRow.baseline64 true
  | "CORRECT_amd64g_dirtyhelper_CPUID_avx_and_cx16" => answers CpuRow.avx64 true
  | "x86g_dirtyhelper_CPUID_sse0" | "x86g_dirtyhelper_CPUID_sse2" | "x86g_dirtyhelper_CPUID_sse3" =>
    answers CpuRow.baseline32 false
  | "CORRECT_x86g_dirtyhelper_CPUID_sse2" => answers CpuRow.sse32 false
  | "amd64g_dirtyhelper_IN" => counted 2 do return some (← unconstrained "IN" 64)
  | "x86g_dirtyhelper_IN" => counted 2 do return some (← unconstrained "IN" 32)
  | "amd64g_dirtyhelper_OUT" | "x86g_dirtyhelper_OUT" => counted 3 (return none)
  | "amd64g_dirtyhelper_SxDT" =>
    match args with
    | [addr, _] =>
      let _ ← store .memory addr (← unconstrained "SxDT" 80)
      return some none
    | _ => badCount
  | "x86g_dirtyhelper_SxDT" =>
    match args with
    | [addr, op] =>
      match ← opcode op with
      | some 0 => let _ ← store .memory addr (← unconstrained "SIDT" 48)
      | some 1 => let _ ← store .memory addr (← reg "gdt")
      | _ => pure ()
      return some none
    | _ => badCount
  | "x86g_dirtyhelper_LGDT_LIDT" =>
    match args with
    | [addr, op] =>
      match ← opcode op with
      | none => return some none
      | some op =>
        let limit ← load .memory addr { size := some (.num 2), endness := some .little }
        let base ← load .memory (addr.addNat 2) { size := some (.num 4), endness := some .little }
        if op = 2 then setReg "gdt" ((base.concat limit).zext 16)
        return some none
    | _ => badCount
  | "x86g_dirtyhelper_FINIT" => counted 1 do
    let set (n : String) (v : Nat) : Exec Unit := do setReg n (.ofNat (8 * (← registerRange n).2) v)
    set "fpu_tags" 0
    set "fpround" 0
    set "fc3210" 0x0300
    set "ftop" 0
    return none
  | "x86g_dirtyhelper_write_cr0" =>
    match args with
    | [v] =>
      let n ← match v with
        | .num n => pure n
        | .bits b => evalOne b
      modifyState ({ · with protectedMode := n % 2 = 1 })
      return some none
    | _ => badCount
  | "x86g_dirtyhelper_loadF80le" =>
    match args with
    | [addr] => return some (some (doubleOfExtended (← load .memory addr { size := some (.num 10), endness := some .little })))
    | _ => badCount
  | "x86g_dirtyhelper_storeF80le" =>
    match args with
    | [addr, v] =>
      match v with
      | .num _ => raise .badType
      | .bits b =>
        let _ ← store .memory addr (extendedOfDouble b) { endness := some .little }
        return some none
    | _ => badCount
  | _ => return none

/-! ## Statements

The effect of a statement on the current state, with the actions it took. -/

namespace Exec

def bitsOf (o : Operand) : Bits := o.value.toBits

def storeBy (r : Region) (addr : Quantity) (data : Bits) (o : StoreOptions) (a : Option Action) : Exec (Option Action) := do
  let res ← store r addr data { o with recorded := a.isSome }
  return a.map ({ · with actualAddrs := some res.addrs })

def writeAction (addr : Operand) (data : Tracked) (size : Nat) (condition : Option Tracked := none) : Exec Action := do
  return {
    kind := .data, type := "mem", place := (← state).place, action := some "write"
    addr := some (← tracked addr (.ofScalar addr.value)), data := some data, size := some { value := .ofNat size }
    condition }

def putAction (place : Quantity) (data : Tracked) (size : Nat) : Exec Action := do
  let offset ← offsetOf place
  return {
    kind := .data, type := "reg", place := (← state).place, action := some "write", offset := some offset
    addr := some { value := place.toValue }, data := some data, size := some { value := .ofNat size } }

def recorded (s : Setting) (record : Exec Action) : Exec (Option Action) := do
  if ← has s then return some (← record) else return none

def runStatement (s : Ir.Stmt) : Exec (List Action) := do
  match s with
  | .mark .. =>
    modifyEpoch fun e => { e with instructionCount := e.instructionCount + 1 }
    return []
  | .noop | .hint .. | .fence | .exit .. => return []
  | .put offset e =>
    let d ← operand e
    let own ← recorded .trackRegisterActions do putAction (.num offset) (← tracked d (.ofScalar d.value)) d.value.width
    let own ← if ← has .doPuts then storeBy .registers (.num offset) (bitsOf d) {} own else pure own
    return d.actions ++ own.toList
  | .putI bank index bias e =>
    let d ← operand e
    let ix ← operand index
    let (place, _) ← bankPlace bank (bitsOf ix) bias
    let own ← recorded .trackRegisterActions do putAction place (← tracked d (.bits (bitsOf d))) d.value.width
    let own ← if ← has .doPuts then storeBy .registers place (bitsOf d) {} own else pure own
    return d.actions ++ ix.actions ++ own.toList
  | .write n e =>
    let d ← operand e
    let own ← writeTemp n d.value (← sourceRegs d) (← sourceTmps d)
    return d.actions ++ own
  | .store endness a e =>
    let addr ← operand a
    let d ← operand e
    let own ← recorded .trackMemoryActions do writeAction addr (← tracked d (.bits (bitsOf d))) d.value.width
    let own ←
      if ← has .doStores then storeBy .memory (bitsOf addr) (bitsOf d) { endness } own else pure own
    return addr.actions ++ d.actions ++ own.toList
  | .swap endness a oldHi oldLo expectedHi expectedLo dataHi dataLo =>
    let addr ← operand a
    match oldHi, expectedHi with
    | some oldHi, some expectedHi =>
      let lo ← operand expectedLo
      let hi ← operand expectedHi
      let width := lo.value.width
      let old ← load .memory (bitsOf addr) { size := some (.num (width * 2 / 8)), endness }
      let oldHiBits := old.slice (2 * width - 1) width
      let oldLoBits := old.slice (width - 1) 0
      setTemp oldLo (.bits oldLoBits)
      setTemp oldHi (.bits oldHiBits)
      let dlo ← operand dataLo
      let dhi ← match dataHi with
        | some e => operand e
        | none => raise .badAttribute
      let data := (bitsOf dhi).concat (bitsOf dlo)
      let condition := .mkAnd (.eq oldLoBits (bitsOf lo)) (.eq oldHiBits (bitsOf hi))
      let both (x y : Operand) (v : Value) : Exec Tracked := do
        return {
          value := v, regs := ((← sourceRegs x) ++ (← sourceRegs y)).eraseDups
          tmps := ((← sourceTmps x) ++ (← sourceTmps y)).eraseDups }
      let own ← writeAction addr (← both dlo dhi (.bits data)) data.width (some (← both lo hi (.cond condition)))
      let own ← storeBy .memory (bitsOf addr) data { condition, endness } (some own)
      return addr.actions ++ lo.actions ++ hi.actions ++ dlo.actions ++ dhi.actions ++ own.toList
    | _, _ =>
      let lo ← operand expectedLo
      let old ← load .memory (bitsOf addr) { size := some (.num (lo.value.width / 8)), endness }
      setTemp oldLo (.bits old)
      let d ← operand dataLo
      let condition := .eq old (bitsOf lo)
      let own ← writeAction addr (← tracked d (.ofScalar d.value)) d.value.width (some (← tracked lo (.cond condition)))
      let _ ← storeBy .memory (bitsOf addr) (bitsOf d) { condition, endness } (some own)
      return addr.actions ++ lo.actions ++ d.actions
  | .linked endness result a data =>
    let addr ← operand a
    match data with
    | none =>
      let bits ← match (← state).scratch.types[result]? with
        | some t => pure t.bits
        | none => raise .badIndex
      let v ← load .memory (bitsOf addr) { size := some (.num (bits / 8)), endness }
      setTemp result (.bits v) (← sourceRegs addr) (← sourceTmps addr)
      return addr.actions
    | some e =>
      let d ← operand e
      let own ← recorded .trackMemoryActions do writeAction addr (← tracked d (.ofScalar d.value)) d.value.width
      let own ← storeBy .memory (bitsOf addr) (bitsOf d) {} own
      setTemp result (.bits (.lit 1 1)) ((← sourceRegs addr) ++ (← sourceRegs d)).eraseDups
        ((← sourceTmps addr) ++ (← sourceTmps d)).eraseDups
      return addr.actions ++ d.actions ++ own.toList
  | .dirty tmp name args =>
    let os ← operands args
    let regs ← os.mapM sourceRegs
    let tmps ← os.mapM sourceTmps
    match ← runDirty name (os.map fun o => .bits (bitsOf o)) with
    | none => throw (.because .unsupportedDirty s!"Unsupported dirty helper {name}")
    | some r =>
      match tmp, r with
      | some t, some v => setTemp t (.bits v) regs.flatten.eraseDups tmps.flatten.eraseDups
      | _, _ => pure ()
      return os.flatMap (·.actions)
  | .loadIf endness conversion dst a alt guard =>
    let addr ← operand a
    let other ← operand alt
    let g ← operand guard
    match Ir.conversionBits conversion with
    | none => throw (.because .statement s!"Unrecognized IRLoadGOp ILGop_{conversion}!")
    | some (read, full, signed) =>
      let v ← load .memory (bitsOf addr) { size := some (.num (read / 8)), endness }
      let converted := if signed then v.sext (full - read) else v.zext (full - read)
      let value := .ite (.nonzero (bitsOf g)) (.bits converted) other.value
      let regs ← [addr, other, g].mapM sourceRegs
      let tmps ← [addr, other, g].mapM sourceTmps
      setTemp dst value regs.flatten.eraseDups tmps.flatten.eraseDups
      let own : List Action ←
        if ← has .trackMemoryActions then
          pure [{
            kind := .data, type := "mem", place := (← state).place, action := some "read"
            addr := some (← tracked addr (.ofScalar addr.value)), data := some { value := .bits converted }
            condition := some (← tracked g (.ofScalar g.value)), size := some { value := .ofNat full }
            fallback := some (← tracked other (.ofScalar other.value)) }]
        else pure []
      return addr.actions ++ other.actions ++ g.actions ++ own
  | .storeIf endness a e guard =>
    let addr ← operand a
    let d ← operand e
    let g ← operand guard
    let own ← recorded .trackMemoryActions do
      writeAction addr (← tracked d (.bits (bitsOf d))) d.value.width (some (← tracked g (.ofScalar g.value)))
    let own ← storeBy .memory (bitsOf addr) (bitsOf d)
      { condition := some (.eqNat (bitsOf g) 1), endness } own
    return addr.actions ++ d.actions ++ g.actions ++ own.toList

def exitAction (target : Tracked) (exitType : String) (condition : Option Tracked := none) : Exec Action := do
  return { kind := .exit, type := "exit", place := (← state).place, target := some target, condition, exitType := some exitType }

end Exec

end SymExec
