import SymExec.Console.Session

/-!
# Steps on states

The steps that read and change the current state: registers, memories, conditions, files and call stacks.
-/

namespace SymExec.Console

open Exec

def datum (bits : Nat) (size : Option Nat) (v : Value) : Try Bits :=
  match v with
  | .bits b => .ok b
  | .flt f => .ok (f.toBits .pattern)
  | .int i => .ok (.ofInt ((size.map (8 * ·)).getD bits) i)
  | .bool b => .ok (.ofNat ((size.map (8 * ·)).getD bits) b.toNat)
  | .str s => .ok (.ofBytes (bytesOf s))
  | .cond _ | .null | .list _ | .tuple _ | .set _ | .dict _ | .pointer _ | .real _ => raise .badAttribute

variable (r : Region) (v : Value)

/-- An address of a region: a number, a vector or the name of a register. -/
def place (write : Bool) : Exec (Quantity × Option Nat) := do
  match v with
  | .str name =>
    if r = .registers then
      let (q, n) ← registerPlace name write
      return (q, some n)
    else if name.startsWith "*" then return (.bits (← reg ((name.drop 1).toString)), none)
    else refuse .memory "Trying to address memory with a register name."
  | v => return (← v.quantity, none)

variable (a : Args)

def loadStep : Exec Value := do
  let b ← a.bind 1 "addr size condition fallback add_constraints action endness inspect disable_actions ret_on_segv"
  let (addr, named) ← place r (arg b "addr") false
  let size ← (arg b "size").optional Value.quantity
  let fallback ← match arg b "fallback" with
    | .null => pure none
    | v => do
      let n := ((size.bind (·.nat?)).map (8 * ·)).getD (← arch).bits
      pure (some (← datum n none v))
  let v ← load r addr {
    size := size <|> named.map .num
    condition := ← (arg b "condition").optional Value.toCond
    fallback
    addConstraints := (arg b "add_constraints").truthOr true
    endness := (arg b "endness").endness
    inspected := (arg b "inspect").truthOr true
    actions := !(arg b "disable_actions").truth
    cut := (arg b "ret_on_segv").truth }
  return .bits v

def storeStep : Exec Value := do
  let b ← a.bind 2 "addr data size condition add_constraints endness action inspect priv disable_actions"
  let (addr, named) ← place r (arg b "addr") true
  let size ← (arg b "size").optional Value.quantity
  let size := size <|> named.map .num
  let bits ← wordBits
  let data ← match arg b "data" with
    | .bool _ => raise .badAttribute
    | v => ofExcept (datum bits (size.bind fun | .num n => some n | _ => none) v)
  let _ ← store r addr data {
    size := size
    condition := ← (arg b "condition").optional Value.toCond
    addConstraints := (arg b "add_constraints").truthOr true
    endness := (arg b "endness").endness
    inspected := (arg b "inspect").truthOr true
    actions := !(arg b "disable_actions").truth
    priv := (arg b "priv").given?.map Value.truth }
  return .null

def storeCasesStep : Exec Value := do
  let b ← a.bind 3 "addr contents conditions fallback add_constraints endness action"
  let addr ← (arg b "addr").quantity
  let bits ← wordBits
  let contents ← (arg b "contents").items.mapM fun v => ofExcept (v.optional (datum bits none))
  let conds ← Value.conds (arg b "conditions").items
  let fallback ← (arg b "fallback").optional (datum bits none)
  storeCases r addr contents conds fallback
    ((arg b "add_constraints").given?.map Value.truth) (arg b "endness").endness
  return .null

def findStep : Exec (Value × List Cond × Value) := do
  let b ← a.bind 2 "addr what max_search max_symbolic_bytes default step"
  let bits ← wordBits
  let start ← (arg b "addr").quantity
  let what ← datum bits none (arg b "what")
  let most ← (arg b "max_search").optional Value.natural
  let step ← (arg b "step").optional Value.natural
  let found ← find r (start.toBits bits) what (most.getD 8)
    (← (arg b "max_symbolic_bytes").optional Value.natural)
    (← (arg b "default").optional (datum bits none)) (step.getD 1)
  let addr := if found.offsets.isEmpty && (arg b "default").isNull then .int 0 else .bits found.addr
  return (addr, found.conditions, .list (found.offsets.map .ofNat))

def dumpStep (addr n : Nat) : Exec String := do
  let parts ← (List.range n).mapM fun i => do
    let b ← load r (.num (addr + i)) { size := some (.num 1), endness := some .big, inspected := false, actions := false }
    match ← oneValue? b with
    | some v => return String.ofList ((Nat.toDigits 16 (256 + v)).drop 1)
    | none => return "??"
  return String.join parts

def regionOf : Exec Region := do
  match v with
  | .null | .str "mem" | .str "memory" => return .memory
  | .str "reg" | .str "registers" => return .registers
  | v => return .file (← fileOf (← v.quantity))

/-! ### Solver -/

def castText (width v : Nat) : String := textOf (Word.toBytes (width / 8) v)

def shownValue (e : Value) (castTo : Value) (v : Nat) : Try Value :=
  match castTo, e with
  | .null, .cond _ => .ok (.bool (v = 1))
  | .null, _ => .ok (.ofNat v)
  | .str "str", .bits b => .ok (.str (castText b.width v))
  | .str "str", .cond _ => .ok (.str (if v = 1 then "True" else "False"))
  | .str "int", _ => .ok (.ofNat v)
  | _, _ => raise .badValue

variable (name : String)

def evalMethod (e : Value) (n : Nat) (extra : List Cond) : Exec (List Nat) := do
  let go (b : Bits) : Exec (List Nat) :=
    match name with
    | "eval" | "any_int" | "any_str" => values b 1 extra
    | "eval_one" | "exactly_int" => evalExact b 1 extra
    | "eval_exact" | "exactly_n_int" => evalExact b n extra
    | "eval_atmost" => evalAtMost b n extra
    | "eval_atleast" => evalAtLeast b n extra
    | _ => values b n extra
  match e with
  | .bits b => go b
  | .cond c => go (.ofCond c)
  | _ => raise .badAttribute

def solverStep (a : Args) : Exec Value := do
  let extra ← Value.conds (arg a.kw "extra_constraints").items
  let e := a.arg 0
  let castTo := if name = "any_str" || name = "any_n_str" then .str "str" else arg a.kw "cast_to"
  let extreme (f : Bits → List Cond → Exec Nat) : Exec Value := do
    match e with
    | .bits b => return .ofNat (← f b extra)
    | .int _ | .bool _ => return e
    | .cond c => return .ofNat (← f (.ofCond c) extra)
    | _ => raise .badAttribute
  let n ← match a.pos.drop 1 with
    | v :: _ => ofExcept (v.natural <|> .ok 0)
    | [] => pure 1
  match name with
  | "eval" | "any_int" | "any_str" | "eval_one" | "exactly_int" =>
    match e with
    | .int _ | .bool _ | .real _ => return e
    | .flt (.lit s b) =>
      let n := Ieee.pattern s b
      match castTo with
      | .null => return .real b
      | .str "str" => return .str (castText s.bits n)
      | .str "int" => return .ofNat n
      | _ => raise .badValue
    | _ =>
      let r ← tryCatch (evalMethod name e 1 extra) fun f => do
        if f.kind.within .solverValue && name = "eval_one" && (a.kw.lookup "default").isSome then return [] else throw f
      match r with
      | v :: _ => ofExcept (shownValue e castTo v)
      | [] => return arg a.kw "default"
  | "eval_upto" | "any_n_int" | "any_n_str" | "eval_exact" | "exactly_n_int" | "eval_atmost" | "eval_atleast" =>
    match e with
    | .int _ | .bool _ | .real _ => return .list [e]
    | _ =>
      let vs ← evalMethod name e n extra
      return .list (← (vs.mergeSort (· ≤ ·)).mapM fun v => ofExcept (shownValue e castTo v))
  | "min" | "min_int" => extreme fun b x => least b x
  | "max" | "max_int" => extreme fun b x => greatest b x
  | "solution" =>
    let v := a.arg 1
    match e, v with
    | .bits b, .bits c => return .bool (← canHold (.eq b c) extra)
    | .bits b, .int i => return .bool (← canHold (.eq b (.ofInt b.width i)) extra)
    | .cond c, .bool b => return .bool (← canHold (if b then c else c.mkNot) extra)
    | .cond c, .cond d => return .bool (← canHold (.mkIte c d d.mkNot) extra)
    | .int i, .int j => return .bool (i == j)
    | _, _ => raise .badType
  | "is_true" =>
    match e with
    | .bool b => return .bool b
    | .cond c => return .bool c.isTrue
    | _ => return .bool false
  | "is_false" =>
    match e with
    | .bool b => return .bool (!b)
    | .cond c => return .bool c.isFalse
    | _ => return .bool false
  | "satisfiable" => return .bool (← solverSatisfiable extra)
  | "unique" =>
    match e with
    | .bits b => return .bool (← unique b)
    | .cond c => return .bool (← unique (.ofCond c))
    | _ => return .bool true
  | "symbolic" => return .bool e.symbolic
  | "single_valued" => return .bool (!e.symbolic)
  | "simplify" =>
    match e with
    | .bits b => return .bits (← simplify b)
    | .cond c => return .cond (← simplifyCond c)
    | _ => return e
  | "add" => return .list ((← addRaw (← Value.conds a.pos)).map .cond)
  | "unsat_core" =>
    if !(← has .constraintTrackingInSolver) then
      refuse .solverOption "CONSTRAINT_TRACKING_IN_SOLVER must be enabled before calling unsat_core()."
    return .list []
  | "constraints" => return .list ((← state).constraints.reverse.map .cond)
  | _ => raise .badAttribute

/-! ### Call stack -/

def frameData (f : Frame) : Data :=
  .obj [("func", .ofNat? f.func), ("site", .ofNat? f.callSite), ("ret", .opt .int f.ret), ("sp", .ofNat? f.sp), ("jk", .str f.jumpkind)]

def callstackReply : Exec Reply := do tell (.list ((← state).callstack.map frameData))

def readFrame : Try Frame := do
  let b ← a.bind 0 "call_site_addr func_addr stack_ptr ret_addr jumpkind next_frame"
  let nat (k : String) : Try (Option Nat) :=
    match b.lookup k with
    | none => .ok (some 0)
    | some v => v.optional Value.natural
  return { callSite := ← nat "call_site_addr", func := ← nat "func_addr", sp := ← nat "stack_ptr"
           ret := ← ((b.lookup "ret_addr").getD (.int 0)).optional Value.integer
           jumpkind := match b.lookup "jumpkind" with | some (.str s) => s | _ => "Ijk_Call" }

def stackSuffix (frames : List Frame) (level : Nat) : List (Option Nat) :=
  let near := ((frames.take level).reverse.map fun f => [f.callSite, f.func]).flatten
  .replicate (2 * level - near.length) none ++ near

def callstackStep (a : Args) : Exec Reply := do
  let top ← topFrame
  match name with
  | "ret" =>
    let t ← (a.pos.headD (arg a.kw "retn_target")).optional Value.integer
    returnFrom t
    callstackReply
  | "pop" =>
    popFrame
    callstackReply
  | "call" =>
    let b ← a.bind 2 "callsite_addr addr retn_target stack_pointer"
    pushFrame {
      callSite := ← (arg b "callsite_addr").optional Value.natural
      func := ← (arg b "addr").optional Value.natural
      ret := ← (arg b "retn_target").optional Value.integer
      sp := ← (arg b "stack_pointer").optional Value.natural }
    callstackReply
  | "func_addr" | "current_function_address" => give (.ofNat? top.func)
  | "stack_ptr" | "current_stack_pointer" => give (.ofNat? top.sp)
  | "ret_addr" | "current_return_target" => give (.opt .int top.ret)
  | "call_site_addr" => give (.ofNat? top.callSite)
  | "jumpkind" => give (.str top.jumpkind)
  | "stack_suffix" =>
    let n ← (a.arg 0).natural
    give (.tuple ((stackSuffix (← state).callstack n).map .ofNat?))
  | "stack_suffix_to_string" =>
    let parts := (a.arg 0).items.map fun v =>
      match v.nat? with
      | some n => hexText n
      | none => "Unspecified"
    give (.str ("[" ++ ",".intercalate parts ++ "]"))
  | "top" | "" => callstackReply
  | _ => raise .badAttribute

/-! ### Files -/

def fdQuantity : Exec Quantity := ofExcept (a.arg 0).quantity

def fileLabel (i : Nat) : Exec Value :=
  return .str (if (← file i).packets.isSome then "<SimDialogue>" else "<SimFile>")

def posixStep (a : Args) : Exec Value := do
  let bits ← wordBits
  let a1 := a.arg 1
  let a2 := a.arg 2
  match name with
  | "dumps" | "dump_fd" => return .str (← dumpFile (← fileOf (← fdQuantity a)))
  | "pos" => return (← file (← fileOf (← fdQuantity a))).pos.toValue
  | "set_pos" =>
    let i ← fileOf (← fdQuantity a)
    seekFile i (.bits (← datum bits none a1))
    return .null
  | "seek" =>
    let whence ← a2.integer
    return .int (← seekFd (← fdQuantity a) (← datum bits none a1) whence.toNat)
  | "read" =>
    let i ← fileOf (← fdQuantity a)
    return (← readFile i (← a1.quantity) (← a2.quantity)).toValue
  | "read_from" =>
    let i ← fileOf (← fdQuantity a)
    return .bits (← readBytes i (← a1.quantity))
  | "write" =>
    let i ← fileOf (← fdQuantity a)
    writeFile i (← datum bits none a1) (← a2.quantity)
    return a2
  | "open" =>
    let b ← a.bind 2 "name mode preferred_fd"
    let name ← match arg b "name" with
      | .bits t => pure (FileName.term t)
      | v => do pure (FileName.text (← v.text))
    return .ofNat (← openFile name (arg b "mode") (← (arg b "preferred_fd").optional Value.natural))
  | "close" => return .bits (← closeFd (← fdQuantity a))
  | "remove" => return .int 0
  | "filename_to_fd" =>
    let n ← (a.arg 0).text
    let p ← posix
    let named (i : Nat) : Bool :=
      match p.table[i]? with
      | some { name := .text s, .. } => s == n
      | _ => false
    return .ofNat? ((p.fds.find? fun (_, i) => named i).map (·.1))
  | "get_file" => fileLabel (← fileOf (← fdQuantity a))
  | "add_socket" =>
    addSocket (← (a.arg 0).natural)
    return .null
  | "sockets" => return .dict (← (← posix).sockets.mapM fun (fd, i) => return (toString fd, ← fileLabel i))
  | "brk" => return (← posix).brk.toValue
  | "set_brk" => return .bits (← setBrk (← datum bits none (a.arg 0)))
  | "pid" => return .ofNat (← posix).pid
  | "sigmask" => return .bits (← sigmask (← (a.arg 0).optional Value.quantity))
  | "fstat" =>
    let st ← fileStatus (← fdQuantity a)
    let z (w : Nat) := .bits (.lit w 0)
    return .tuple ([z 64, z 64, z 64, .bits st.mode, z 32, z 32, z 64, .bits st.size] ++ .replicate 8 (z 64))
  | _ => raise .badAttribute

def fdsStep (view : Value.Viewer) : Exec Data := do
  let p ← posix
  let row (fd : Nat) (f : File) : String × Data :=
    (toString fd, .obj [("name", f.name.toValue.display view), ("pos", f.pos.toValue.display .plain),
      ("size", ((f.size.map Quantity.toValue).getD Value.null).display .plain), ("closed", .bool f.closed)])
  return .obj (p.fds.filterMap fun (fd, i) => (p.table[i]?).map (row fd))

def fileStep : Exec Unit := do
  let bits ← wordBits
  let name ← (a.arg 1).text
  let p ← posix
  let f ← newFile (.text name) ((a.kw.lookup "mode").getD (.int 0))
  let wide (v : Value) := match Quantity.ofValue? v with | some q => .bits (q.toBits bits) | none => .num 0
  let f := { f with
    pos := ((a.kw.lookup "pos").map wide).getD f.pos
    size := (arg a.kw "size").given?.map wide
    packets := (arg a.kw "dialogue").given?.map (·.items.filterMap (·.nat?)) }
  let (i, p) := p.addFile f
  let p := match (a.arg 0).nat? with
    | some fd => p.bindFd fd i
    | none => p.bindPath (.text name) i
  modifyState ({ · with posix := some p })
  let data ← datum bits none (a.arg 2)
  if data.width > 0 then
    let _ ← store (.file i) (.num 0) data

/-! ### Libraries -/

def libcFields : List (String × (Libc → Nat) × (Nat → Libc → Libc)) := [
  ("heap_location", (·.heap), fun n l => { l with heap := n }),
  ("mmap_base", (·.mmapBase), fun n l => { l with mmapBase := n }),
  ("buf_symbolic_bytes", (·.bufSymbolicBytes), fun n l => { l with bufSymbolicBytes := n }),
  ("max_symbolic_strstr", (·.maxSymbolicStrstr), fun n l => { l with maxSymbolicStrstr := n }),
  ("max_symbolic_strchr", (·.maxSymbolicStrchr), fun n l => { l with maxSymbolicStrchr := n }),
  ("max_variable_size", (·.maxVariableSize), fun n l => { l with maxVariableSize := n }),
  ("max_str_len", (·.maxStrLen), fun n l => { l with maxStrLen := n }),
  ("max_buffer_size", (·.maxBufferSize), fun n l => { l with maxBufferSize := n }),
  ("max_strtol_len", (·.maxStrtolLen), fun n l => { l with maxStrtolLen := n }),
  ("max_memcpy_size", (·.maxMemcpySize), fun n l => { l with maxMemcpySize := n }),
  ("strtok_token_size", (·.strtokTokenSize), fun n l => { l with strtokTokenSize := n })]

def libcStep : Exec Value := do
  match libcFields.lookup name with
  | some (get, _) => return .ofNat (get (← libc))
  | none => if name = "simple_strtok" then return .bool (← libc).simpleStrtok else raise .badAttribute

def cgcStep (a : Args) : Exec Value := do
  let c ← cgc
  match name with
  | "allocation_base" => return c.allocationBase.toValue
  | "max_allocation" => return .ofNat c.maxAllocation
  | "time" => return c.time.toValue
  | "input_size" => return .ofNat c.inputSize
  | "sinkholes" => return .set (c.sinkholes.map fun (x, n) => .tuple [.ofNat x, .ofNat n])
  | "get_max_sinkhole" => return .ofNat? (← takeSinkhole (← (a.arg 0).natural))
  | "add_sinkhole" =>
    let s := (← (a.arg 0).natural, ← (a.arg 1).natural)
    addSinkhole s.1 s.2
    return .null
  | "addr_invalid" =>
    match a.arg 0 with
    | .bits b => return .bool (← neverAddress b)
    | .int i => return .bool (i == 0)
    | _ => raise .badType
  | _ => raise .badAttribute

/-! ### Memory attributes -/

def memoryStep (a : Args) : Exec Value := do
  let a0 := a.arg 0
  match name with
  | "load" => loadStep r a
  | "store" => storeStep r a
  | "store_cases" => storeCasesStep r a
  | "find" => do
    let (x, cs, is) ← findStep r a
    return .tuple [x, .list (cs.map .cond), is]
  | "copy_contents" =>
    let b ← a.bind 3 "dst src size condition src_memory dst_memory inspect disable_actions"
    let out ← copyContents r r (← (arg b "dst").quantity) (← (arg b "src").quantity)
      (← (arg b "size").quantity) (← (arg b "condition").optional Value.toCond)
    match out with
    | some d => return .bits d
    | none => return .tuple [.null, .list []]
  | "permissions" =>
    let prot ← ((a.kw.lookup "permissions").getD (a.arg 1)).optional (datum 3 none)
    return .bits (← permissions (← a0.quantity) prot)
  | "map_region" =>
    let b ← a.bind 3 "addr length permissions init_zero"
    mapRegion (← (arg b "addr").quantity) (← (arg b "length").natural)
      (← datum 3 none (arg b "permissions")) (arg b "init_zero").truth
    return .null
  | "unmap_region" =>
    unmapRegion (← a0.quantity) (← (a.arg 1).natural)
    return .null
  | "concretize_read_addr" | "concretize_write_addr" =>
    return .list ((← concretize r (← a0.quantity) (name == "concretize_write_addr")).map .ofNat)
  | "was_written_to" =>
    match ← a0.quantity with
    | .bits b => if b.symbolic then return .bool false
    | _ => pure ()
    let x ← evalQ (← a0.quantity)
    return .bool ((← memoryAt r).paged.listed (← get).commons x)
  | "replace_all" =>
    if !(← has .reverseMemoryNameMap) then
      refuse .memory ("replace_all is not doable without a reverse name mapping. Please add " ++
        "sim_options.REVERSE_MEMORY_NAME_MAP to the state options")
    match a0, a.arg 1 with
    | .bits old, .bits new =>
      onPages r (Paged.replaceAll old new)
      return .null
    | _, _ => refuse .memory "old and new arguments to replace_all() must be claripy.BV objects"
  | "addrs_for_name" | "addrs_for_hash" => return .str "<generator>"
  | "memory_objects_for_name" =>
    let _ ← onPages r (Paged.addressesOf (← a0.text))
    return .set []
  | "id" => return .str (← memoryAt r).id
  | "endness" => return .str (← memoryAt r).endness.name
  | "category" => return .str (match r with | .memory => "mem" | .registers => "reg" | .file _ => "file")
  | "make_symbolic" =>
    let nm ← a0.text
    let (q, n) ← match a.arg 1 with
      | .str k => do
        let (o, n) ← registerRange k
        pure (.num o, n)
      | v => do
        match a.pos.getD 2 (arg a.kw "length") with
        | .null => raise .general
        | l => pure (← v.quantity, ← l.natural)
    let old ← load r q { size := n }
    let v ← unknownBytes r nm old.width
    let _ ← store r q v
    addConstraints [Cond.eq old v]
    return .bits v
  | _ => raise .badAttribute

def containsStep : Exec Bool := do
  match ← v.quantity with
  | .num n => onPages r (Paged.has n)
  | .bits b => if b.symbolic then return false else do onPages r (Paged.has (← eval b))

/-- An item of a path leads on: a name to a member or a type, a number to an element, a list to an array of that length. -/
def viewItem (view : Option CType × Bits) (item : Value) : Exec (Option CType × Bits) := do
  let s := TypeNames.initial.structs
  let (t, addr) := view
  let a ← arch
  match t, item with
  | t, .str "deref" =>
    let target := match t with | some (.pointer e) => some e | _ => none
    return (target, .ofNat a.bits (← eval (← loadOrdered addr (a.bits / 8))))
  | t, .str name =>
    if let some (.struct i) := t then
      if let some u := (s.fieldsOf i).lookup name then
        return (some u, addr.addInt (((← ofExcept (CType.offsets s (some a) i)).lookup name).getD 0))
    return (some (← orRaise (TypeNames.initial.find? name) .badAttribute), addr)
  | t, .list [n] => return (some (.array (← orRaise t .badValue) (← n.integer)), addr)
  | some (.array e _), i => return (some e, addr.addInt ((← i.integer) * (← ofExcept (e.bytes s a))))
  | some (.string _), i => return (some .char, addr.addInt (← i.integer))
  | some (.wstring _), i => return (some (.num 16 false), addr.addInt (2 * (← i.integer)))
  | t, i => return (t, .ofInt a.bits (← i.integer))

/-- Where a path leads from an address a value is stored, or what is there is read or named. -/
def viewStep (addr : Bits) (path : List Value) (given : Option Value) : Exec Value := do
  let s := TypeNames.initial.structs
  let last := (path.getLast?.bind Value.str?).getD ""
  let reads := last ∈ ["resolved", "concrete", "resolvable"]
  let (t, addr) ← (if reads then path.dropLast else path).foldlM viewItem (none, addr)
  if last = "resolvable" then return .bool t.isSome
  if let some v := given then
    storeAs s (← orRaise t .badValue) addr v
    return .null
  if reads then extract s (← orRaise t .badValue) addr (last = "concrete")
  else return .dict [("addr", .bits addr), ("type", .opt (.str <| ·.text s (← arch)) t)]

end SymExec.Console
