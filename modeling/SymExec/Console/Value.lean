import SymExec.Ir.Block

/-!
# Values of the console

How values stand in requests and answers.
-/

namespace SymExec

/-! ### Data -/

inductive Data where
  | null
  | bool (b : Bool)
  | int (i : Int)
  | str (s : String)
  | list (xs : List Data)
  | obj (fields : List (String × Data))
deriving Inhabited

namespace Data

variable (d : Data)

def get? (k : String) : Option Data :=
  match d with
  | .obj fs => fs.lookup k
  | _ => none

def get (k : String) : Data := (d.get? k).getD .null

def toList : Data → List Data
  | .list xs => xs
  | _ => []

def str? : Data → Option String
  | .str s => some s
  | _ => none

def int? : Data → Option Int
  | .int i => some i
  | .bool b => some (if b then 1 else 0)
  | _ => none

def nat? : Option Nat := d.int?.map Int.toNat

def isNull : Data → Bool
  | .null => true
  | _ => false

def item (i : Nat) : Data := d.toList.getD i .null

def name (i : Nat) : String := (d.item i).str?.getD ""

def number (i : Nat) : Int := (d.item i).int?.getD 0

def opt (f : α → Data) (x : Option α) : Data := (x.map f).getD .null

def ofNat? (n : Option Nat) : Data := opt (fun k => .int k) n

def truthy : Data → Bool
  | .null => false
  | .bool b => b
  | .int i => i != 0
  | .str s => !s.isEmpty
  | .list xs => !xs.isEmpty
  | .obj fs => !fs.isEmpty

mutual

def missingRef (n : Nat) : Data → Bool
  | .obj [("ref", .int i)] => n ≤ i.toNat
  | .obj fs => missingRefFields n fs
  | .list xs => missingRefList n xs
  | _ => false

def missingRefList (n : Nat) : List Data → Bool
  | [] => false
  | x :: xs => missingRef n x || missingRefList n xs

def missingRefFields (n : Nat) : List (String × Data) → Bool
  | [] => false
  | (_, x) :: xs => missingRef n x || missingRefFields n xs

end

def quoted (s : String) : String :=
  "\"" ++ s.foldl (fun t c =>
    if c = '"' then t ++ "\\\"" else if c = '\\' then t ++ "\\\\" else if c = '\n' then t ++ "\\n" else t.push c) "" ++ "\""

mutual

def text : Data → String
  | .null => "null"
  | .bool b => if b then "true" else "false"
  | .int i => toString i
  | .str s => quoted s
  | .list xs => "[" ++ textList xs ++ "]"
  | .obj fs => "\x7b" ++ textFields fs ++ "\x7d"

def textList : List Data → String
  | [] => ""
  | [x] => text x
  | x :: xs => text x ++ ", " ++ textList xs

def textFields : List (String × Data) → String
  | [] => ""
  | [(k, x)] => quoted k ++ ": " ++ text x
  | (k, x) :: xs => quoted k ++ ": " ++ text x ++ ", " ++ textFields xs

end

def sorted (xs : List Data) : Data := .list (xs.mergeSort fun a b => a.text ≤ b.text)

end Data

namespace Value

def ofHex (s : String) : Nat :=
  s.foldl (fun n c =>
    let d :=
      if c.isDigit then c.toNat - '0'.toNat
      else if 'a' ≤ c ∧ c ≤ 'f' then c.toNat - 'a'.toNat + 10
      else if 'A' ≤ c ∧ c ≤ 'F' then c.toNat - 'A'.toNat + 10
      else 0
    n * 16 + d) 0

/-! ### Reading -/

/-- The operands of an operator, both as vectors of one width: an integer takes the width of the other operand. -/
def pair : Value → Value → Try (Bits × Bits)
  | .bits a, .bits b => if a.width = b.width then .ok (a, b) else raise .badTerm
  | .bits a, .int i => .ok (a, .ofInt a.width i)
  | .int i, .bits b => .ok (.ofInt b.width i, b)
  | .bits a, .bool b => .ok (a, .ofNat a.width b.toNat)
  | .bool a, .bits b => .ok (.ofNat b.width a.toNat, b)
  | _, _ => raise .badType

def dividing (f : Bits → Bits → Bits) (a b : Bits) : Try Value :=
  match a, b with
  | .lit .., .lit _ 0 => raise .divisionByZeroTerm
  | _, _ => .ok (.bits (f a b))

def toCond : Value → Try Cond
  | .cond c => .ok c
  | .bool b => .ok (.lit b)
  | _ => raise .badType

def onInts (op : String) (a b : Int) : Try Value :=
  match op with
  | "add" => .ok (.int (a + b))
  | "sub" => .ok (.int (a - b))
  | "mul" => .ok (.int (a * b))
  | "udiv" => if b = 0 then raise .general else .ok (.int (a.fdiv b))
  | "urem" => if b = 0 then raise .general else .ok (.int (a.fmod b))
  | "shl" => .ok (.int (a * 2 ^ b.toNat))
  | "ashr" => .ok (.int (a.fdiv (2 ^ b.toNat)))
  | "eq" => .ok (.bool (a == b))
  | "ne" => .ok (.bool (a != b))
  | _ => raise .badType

def vectorOps : List (String × (Bits → Bits → Bits)) := [
  ("add", .add), ("sub", .sub), ("mul", .mul), ("and", .and), ("or", .or), ("xor", .xor), ("shl", .shl), ("lshr", .lshr),
  ("ashr", .ashr)]

def quotientOps : List (String × (Bits → Bits → Bits)) := [("udiv", .udiv), ("sdiv", .sdiv), ("urem", .urem), ("srem", .srem)]

def conditionOps : List (String × (Bits → Bits → Cond)) := [
  ("eq", .eq), ("ne", .ne), ("ult", .ult), ("ule", .ule), ("ugt", .ugt), ("uge", .uge), ("slt", .slt), ("sle", .sle),
  ("sgt", .sgt), ("sge", .sge)]

def binary (op : String) (x y : Value) : Try Value := do
  match op, x, y with
  | "concat", .bits a, .bits b => return .bits (a.concat b)
  | "eq", .cond a, .cond b => return .cond (if a = b then .lit true else .mkIte a b b.mkNot)
  | "ne", .cond a, .cond b => return .cond (if a = b then .lit false else .mkIte a b.mkNot b)
  | _, .int a, .int b => onInts op a b
  | _, _, _ =>
    let (a, b) ← pair x y
    match vectorOps.lookup op, quotientOps.lookup op, conditionOps.lookup op with
    | some f, _, _ => return .bits (f a b)
    | _, some f, _ => dividing f a b
    | _, _, some f => return .cond (f a b)
    | _, _, _ => raise .badType

def ofForm (refs : Nat → Value) (form : String) (raw : Data) (args : List Value) : Try Value := do
  match form, args with
  | "bv", [.int v, .int w] => pure (.bits (.ofInt w.toNat v))
  | "bytes", _ =>
    let h := raw.str?.getD ""
    pure (.bits (.ofNat (4 * h.length) (ofHex h)))
  | "sym", [.str n, .int w] => pure (.bits (.sym n w.toNat))
  | "ref", _ => pure (refs (raw.nat?.getD 0))
  | "fp", [.str h, .int w] => do
    let s ← orRaise (FloatSort.ofBits? w.toNat) .badTerm
    pure (.flt (.lit s (Ieee.ofPattern s (ofHex h))))
  | "f", _ => pure (.real (ofHex (raw.str?.getD "")).toUInt64)
  | "tuple", xs => pure (.tuple xs)
  | "ptr", vs =>
    match raw with
    | .list _ => pure (.pointer (.list vs))
    | _ => pure (.pointer (vs.headD .null))
  | "extract", [.int hi, .int lo, .bits b] =>
    if lo ≤ hi ∧ 0 ≤ lo ∧ hi < b.width then pure (.bits (b.slice hi.toNat lo.toNat)) else raise .badTerm
  | "zext", [.int n, .bits b] => if n < 0 then raise .badTerm else pure (.bits (b.zext n.toNat))
  | "sext", [.int n, .bits b] => if n < 0 then raise .badTerm else pure (.bits (b.sext n.toNat))
  | "not", [v] => do pure (.cond (← toCond v).mkNot)
  | "all", vs => do pure (.cond (.all (← vs.mapM toCond)))
  | "any", vs => do pure (.cond (.any (← vs.mapM toCond)))
  | "if", [c, a, b] => do
    let c ← toCond c
    match a, b with
    | .cond x, .cond y => pure (.cond (.mkIte c x y))
    | .flt x, .flt y => pure (.flt (.mkIte c x y))
    | _, _ => do
      let (x, y) ← pair a b
      pure (.bits (.mkIte c x y))
  | op, [a, b] => binary op a b
  | _, _ => raise .badType

mutual

def ofData (refs : Nat → Value) : Data → Try Value
  | .null => .ok .null
  | .bool b => .ok (.bool b)
  | .int i => .ok (.int i)
  | .str s => .ok (.str s)
  | .list xs => do pure (.list (← ofDataList refs xs))
  | .obj [("map", .obj fs)] => do pure (.dict (← ofDataFields refs fs))
  | .obj [(form, .list xs)] => do ofForm refs form (.list xs) (← ofDataList refs xs)
  | .obj [(form, d)] => do ofForm refs form d [← ofData refs d]
  | .obj fs => do pure (.dict (← ofDataFields refs fs))

def ofDataList (refs : Nat → Value) : List Data → Try (List Value)
  | [] => .ok []
  | d :: ds => do
    let v ← ofData refs d
    pure (v :: (← ofDataList refs ds))

def ofDataFields (refs : Nat → Value) : List (String × Data) → Try Fields
  | [] => .ok []
  | (k, d) :: ds => do
    let v ← ofData refs d
    pure ((k, v) :: (← ofDataFields refs ds))

end

/-! ### Writing -/

def showBits (w v : Nat) : String := s!"0x{hexDigits v}:{w}"

def showFloat (s : FloatSort) (bits : UInt64) : String :=
  if Ieee.isNaN bits then s!"nan:{s.bits}" else s!"fp:0x{hexDigits (Ieee.pattern s bits)}:{s.bits}"

structure Viewer where
  bits : Bits → Option Nat
  cond : Cond → Option Bool

def Viewer.plain : Viewer := ⟨fun _ => none, fun _ => none⟩

def displayBits (v : Viewer) (b : Bits) : Data :=
  match b.lit? <|> v.bits b with
  | some n => .str (showBits b.width n)
  | none => .str s!"sym:{b.width}"

def displayCond (v : Viewer) (c : Cond) : Data :=
  match c with
  | .lit b => .bool b
  | _ =>
    match v.cond c with
    | some b => .bool b
    | none => .str "sym:bool"

def displayFlt (f : Flt) : Data :=
  match f with
  | .lit s b => .str (showFloat s b)
  | _ => .str s!"sym:{f.sort.bits}"

mutual

def display (v : Viewer) : Value → Data
  | .null => .null
  | .bool b => .bool b
  | .int i => .int i
  | .str s => .str s
  | .real b => .str (showFloat .double b)
  | .bits b => displayBits v b
  | .cond c => displayCond v c
  | .flt f => displayFlt f
  | .list xs => .list (displayList v xs)
  | .tuple xs => .list (displayList v xs)
  | .set xs => .sorted (displayList v xs)
  | .dict fs => .obj (displayFields v fs)
  | .pointer _ => .str "<PointerWrapper>"

def displayList (v : Viewer) : List Value → List Data
  | [] => []
  | x :: xs => display v x :: displayList v xs

def displayFields (v : Viewer) : Fields → List (String × Data)
  | [] => []
  | (k, x) :: xs => (k, display v x) :: displayFields v xs

end

def showFault (f : Fault) : Data := .obj (("error", .str f.kind.label) :: (f.shownText.map fun t => ("message", .str t)).toList)

end Value

namespace Console

/-! ### Requests on primitive operations -/

def operand (i : Nat) : Data → Data
  | .obj [("sym", .list [.str n, w])] => .obj [("sym", .list [.str s!"{n}.{i}", w])]
  | d => d

def runOp (c : Data) : Try Value := do
  let name := c.name 0
  let args ← Value.ofDataList (fun _ => .null) ((c.toList.drop 1).mapIdx operand)
  let op ← Op.find name
  pure (.ofScalar (← op.apply (args.filterMap Value.scalar?)))

def orFault (r : Try Value) : Data :=
  match r with
  | .ok v => v.display .plain
  | .error f => Value.showFault f

def operations (d : Data) : Data := .list ((d.get "cases").toList.map fun c => orFault (runOp c))

def describeOp (c : Data) : Data :=
  let name := c.name 0
  let attrs :=
    match OpAttrs.ofName? name with
    | some a => Data.obj (a.present.map fun (k, v) => (k, .str v))
    | none => .null
  let (out, float, signed, ok) :=
    match Op.ofName? name with
    | some op => (Data.int op.outBits, Data.bool op.float, Data.bool op.signed, true)
    | none => (.null, .null, .null, false)
  .obj [("attrs", attrs), ("supported", .bool ok), ("out_bits", out), ("float", float), ("signed", signed)]

def operationNames (d : Data) : Data := .list ((d.get "cases").toList.map describeOp)

end Console

end SymExec
