import SymExec.Arch
import SymExec.Fault
import SymExec.Table

/-!
# C types

The types of C declarations.
-/

namespace SymExec

inductive IntKind where
  | short | int | long | longLong
deriving DecidableEq

def IntKind.name : IntKind → String
  | .short => "short"
  | .int => "int"
  | .long => "long"
  | .longLong => "long long"

def IntKind.bits (a : Arch) : IntKind → Nat
  | .short => 16
  | .int => 32
  | .long => a.longBits
  | .longLong => 64

inductive CType where
  | void
  | num (bits : Nat) (signed : Bool)
  | int (k : IntKind) (signed : Bool)
  | length (signed : Bool)
  | char
  | float
  | double
  | pointer (target : CType)
  | array (elem : CType) (length : Int)
  | string (length : Option Nat)
  | wstring (length : Option Nat)
  /-- A function; `bare` says that it was declared without parameters and not bound to a machine since. -/
  | func (args : List CType) (ret : CType) (bare : Bool)
  | struct (id : Nat)
  | union (members : List (String × CType))

abbrev Members := List (String × CType)

structure StructDef where
  name : Option String := none
  fields : Members := []

abbrev Structs := Array StructDef

namespace Structs

variable (s : Structs)

def nameOf (i : Nat) : String := ((s[i]?).bind (·.name)).getD "<anon>"

def fieldsOf (i : Nat) : Members := ((s[i]?).map (·.fields)).getD []

end Structs

namespace CType

def kind : CType → String
  | .void => "SimTypeBottom"
  | .num .. => "SimTypeNum"
  | .int .short _ => "SimTypeShort"
  | .int .int _ => "SimTypeInt"
  | .int .long _ => "SimTypeLong"
  | .int .longLong _ => "SimTypeLongLong"
  | .length _ => "SimTypeLength"
  | .char => "SimTypeChar"
  | .float => "SimTypeFloat"
  | .double => "SimTypeDouble"
  | .pointer _ => "SimTypePointer"
  | .array .. => "SimTypeFixedSizeArray"
  | .string _ => "SimTypeString"
  | .wstring _ => "SimTypeWString"
  | .func .. => "SimTypeFunction"
  | .struct _ => "SimStruct"
  | .union _ => "SimUnion"

def signed? : CType → Option Bool
  | .num _ s | .int _ s | .length s => some s
  | .char | .pointer _ => some false
  | .float | .double => some true
  | _ => none

def machine (a : Option Arch) : Try Arch := orRaise a .badValue

def addSizes : List (Option Int) → Try Int
  | [] => .ok 0
  | some n :: rest => do return n + (← addSizes rest)
  | none :: _ => raise .badType

variable (s : Structs)

def sizeIn (a : Option Arch) : Nat → CType → Try (Option Int)
  | 0, _ => raise .recursion
  | n + 1, t =>
    match t with
    | .void => .ok none
    | .num b _ => .ok (some b)
    | .char => .ok (some 8)
    | .float => .ok (some 32)
    | .double => .ok (some 64)
    | .func .. => .ok (some 4096)
    | .int k _ => do return some (k.bits (← machine a))
    | .length _ | .pointer _ => do return some (← machine a).bits
    | .string l => .ok (some (match l with | none => 4096 | some l => (l + 1) * 8))
    | .wstring l => .ok (some (match l with | none => 4096 | some l => (l * 2 + 2) * 8))
    | .array e l => do
      let k ← orRaise (← sizeIn a n e) .badType
      return some (k * l)
    | .struct i => do
      let sizes ← (s.fieldsOf i).mapM fun f => sizeIn a n f.2
      return some (← addSizes sizes)
    | .union ms => do
      let sizes ← ms.mapM fun f => sizeIn a n f.2
      match sizes.filterMap id with
      | [] => raise .badValue
      | k :: ks => .ok (some (ks.foldl max k))

def depth : Nat := 300

def size (a : Option Arch) (t : CType) : Try (Option Int) := sizeIn s a depth t

def bytes (a : Arch) (t : CType) : Try Nat := do
  let n ← orRaise (← size s (some a) t) .badType
  return (n / 8).toNat

def offsets (a : Option Arch) (i : Nat) : Try (List (String × Int)) := do
  let rec go (off : Int) : Members → Try (List (String × Int))
    | [] => .ok []
    | (f, t) :: rest => do
      let n ← orRaise (← size s a t) .badType
      if a.isNone then raise .badAttribute
      return (f, off) :: (← go (off + n / 8) rest)
  go 0 (s.fieldsOf i)

mutual

def text (s : Structs) (a : Option Arch) : CType → String
  | .void => "BOT"
  | .num b sg => (if sg then "" else "u") ++ s!"int{b}_t"
  | .int k sg =>
    let name := (if sg then "" else "unsigned ") ++ k.name
    match a with
    | some a => name ++ s!" ({k.bits a} bits)"
    | none => name
  | .length _ => "size_t"
  | .char => "char"
  | .float => "float"
  | .double => "double"
  | .pointer t => text s a t ++ "*"
  | .array e l => text s a e ++ s!"[{l}]"
  | .string _ => "string_t"
  | .wstring _ => "wstring_t"
  | .func args ret _ => "(" ++ ", ".intercalate (textList s a args) ++ ") -> " ++ text s a ret
  | .struct i => "struct " ++ s.nameOf i
  | .union ms => "union \x7b\n\t" ++ "\n\t".intercalate (textMembers s a ms) ++ "\n\x7d"

def textList (s : Structs) (a : Option Arch) : List CType → List String
  | [] => []
  | t :: ts => text s a t :: textList s a ts

def textMembers (s : Structs) (a : Option Arch) : Members → List String
  | [] => []
  | (n, t) :: ts => (n ++ " " ++ text s a t ++ ";") :: textMembers s a ts

end

/-! ### Equality -/

def allEqual (eq : CType → CType → Try Bool) : List (CType × CType) → Try Bool
  | [] => .ok true
  | (a, b) :: rest => do if ← eq a b then allEqual eq rest else return false

def equalIn (a : Option Arch) : Nat → CType → CType → Try Bool
  | 0, _, _ => raise .recursion
  | n + 1, t, u =>
    match t, u with
    | .void, .void => .ok true
    | .num b x, .num c y => .ok (x == y && b == c)
    | .int k x, .int l y => if k != l then .ok false else if a.isNone then raise .badValue else .ok (x == y)
    | .length x, .length y => if x != y then .ok false else if a.isNone then raise .badValue else .ok true
    | .char, .char | .float, .float | .double, .double => .ok true
    | .pointer x, .pointer y => if a.isNone then raise .badValue else equalIn a n x y
    | .string x, .string y => .ok (x == y)
    | .wstring x, .wstring y => .ok (x == y)
    | .func xs r b, .func ys q c => do
      if b != c || xs.length != ys.length then return false
      if ← allEqual (equalIn a n) (xs.zip ys) then equalIn a n r q else return false
    | .struct i, .struct j => do
      let xs := s.fieldsOf i
      let ys := s.fieldsOf j
      if s.nameOf i != s.nameOf j then return false
      if i == j then return true
      if xs.map (·.1) != ys.map (·.1) then return false
      allEqual (equalIn a n) ((xs.map (·.2)).zip (ys.map (·.2)))
    | .array .., .array .. | .union _, .union _ => .ok true
    | _, _ => .ok false

def equal (a : Option Arch) (t u : CType) : Try Bool := equalIn s a depth t u

/-- What the hash of a type is made of: the kinds that occur an odd number of times and the sum of the numbers by
exclusive or. -/
structure HashParts where
  kinds : List String := []
  num : Nat := 0
deriving DecidableEq

def HashParts.xor (p q : HashParts) : HashParts where
  kinds := (p.kinds.filter (!q.kinds.contains ·) ++ q.kinds.filter (!p.kinds.contains ·)).mergeSort (· ≤ ·)
  num := p.num ^^^ q.num

def hashParts (a : Option Arch) (t : CType) : Try HashParts :=
  let own (n : Nat) : HashParts := ⟨[t.kind], n⟩
  match t with
  | .num b s => .ok (own (b ^^^ s.toNat))
  | .int k s => do return own (k.bits (← machine a) ^^^ s.toNat)
  | .length s => do return own ((← machine a).bits ^^^ s.toNat)
  | .char => .ok (own 8)
  | .float => .ok (own 32)
  | .double => .ok (own 64)
  | .pointer u => do return (own (← machine a).bits).xor (← hashParts a u)
  | .string _ => .ok ⟨["SimTypeChar", "SimTypeString"], 8⟩
  | .wstring _ => .ok ⟨["SimTypeNum", "SimTypeWString"], 16⟩
  | .func _ r true => do return (HashParts.mk ["()", "SimTypeFunction"] 0).xor (← hashParts a r)
  | .func .. | .struct _ => raise .badType
  | _ => .ok (own 0)

end CType

/-! ### Names -/

/-- The types that are known by name, in the order in which they came, and the structs they refer to. -/
structure TypeNames where
  structs : Structs := #[]
  names : Members := []

namespace TypeNames

def basic : Members :=
  let family (t : Bool → CType) (plain : String) : Members :=
    [(plain, t true), ("signed " ++ plain, t true), ("unsigned " ++ plain, t false)]
  let ints (k : IntKind) := family (.int k) k.name ++ family (.int k) (k.name ++ " int")
  family (fun _ => .char) "char" ++ ints .short ++ family (.int .int) "int" ++ ints .long ++ ints .longLong ++
  [("float", .float), ("double", .double), ("void", .void)]

def further : Members :=
  let family (bits : Nat) (plain : String) : Members :=
    [(s!"int{bits}_t", .num bits true), (s!"uint{bits}_t", .num bits false), (plain, .num bits false)]
  family 8 "byte" ++ family 16 "word" ++ family 32 "dword" ++ family 64 "qword" ++ [
  ("ptrdiff_t", .int .long true), ("size_t", .length false), ("ssize_t", .length true), ("ssize", .length false),
  ("uintptr_t", .int .long false), ("string", .string none), ("wstring", .wstring none)]

def initial : TypeNames where
  structs := #[{ name := some "example", fields := [("foo", .int .int true), ("bar", .int .int true), ("hello", .pointer .char)] }]
  names := further ++ basic ++ [("example", .struct 0)]

variable (t : TypeNames) (n : String)

def find? : Option CType := t.names.lookup n

def insert (c : CType) : TypeNames := { t with names := Table.put n c t.names }

def typedefText (type name : String) : String := "typedef " ++ type ++ " " ++ name ++ ";"

def declaration (c : CType) : Option String :=
  let text := c.text t.structs none
  let known := basic.any fun p => p.1 == text
  if basic.any (·.1 == n) || n.any (· == ' ') then none
  else
    match c with
    | .func .. | .string _ | .wstring _ => none
    | .num b s =>
      let base := match b with | 8 => "char" | 16 => "short" | 32 => "int" | 64 => "long long" | _ => "long"
      some (typedefText (if s then base else "unsigned " ++ base) n)
    | .length s => some (typedefText (if s then "long" else "unsigned long") n)
    | .int _ s => some (typedefText (if known then text else if s then "long" else "unsigned long") n)
    | _ => some (typedefText text n)

def preamble : String := "\n".intercalate (t.names.filterMap fun (n, c) => t.declaration n c) ++ "\n"

end TypeNames

end SymExec
