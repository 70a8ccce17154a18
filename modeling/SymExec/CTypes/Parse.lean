import SymExec.CTypes.Basic
import SymExec.CTypes.Macro

/-!
# Types of C texts

The types that a text declares.
-/

namespace SymExec

open CDecl

structure Declared where
  known : TypeNames
  extra : Members := []

namespace Declared

abbrev Convert := StateT Declared Try

/-- The value of the length of an array, if it is a plain number or made of such. -/
def lengthOf : CExpr → Try (Option Int)
  | .const s => .ok (if !s.isEmpty && s.all Char.isDigit then s.toNat?.map Int.ofNat else none)
  | .bin op a b => do
    let f : Option (Int → Int → Try Int) := match op with
      | "+" => some fun x y => .ok (x + y)
      | "-" => some fun x y => .ok (x - y)
      | "*" => some fun x y => .ok (x * y)
      | "/" => some fun x y => if y = 0 then raise .badDivision else .ok (x.fdiv y)
      | _ => none
    let some f := f | return none
    let some x := ← lengthOf a | return none
    match ← lengthOf b with
    | none => return none
    | some y => some <$> f x y
  | .other => .ok none

def structOf (name : Option String) : Convert Nat := do
  let d ← get
  let fresh := ({ d with known.structs := d.known.structs.push { name } }, d.known.structs.size)
  match name with
  | none =>
    set fresh.1
    return fresh.2
  | some n =>
    let key := "struct " ++ n
    match d.extra.lookup key with
    | some (.struct i) => return i
    | _ =>
      set { fresh.1 with extra := Table.put key (.struct fresh.2) fresh.1.extra }
      return fresh.2

def setField (i : Nat) (f : String) (t : CType) : Convert Unit :=
  modify fun d => { d with
    known.structs := d.known.structs.modify i fun s => { s with fields := Table.put f t s.fields } }

mutual

def convert : Form → Convert CType
  | .named ws => do
    let key := " ".intercalate ws
    let d ← get
    orRaise (d.extra.lookup key <|> d.known.find? key) .badType
  | .pointer f => do return .pointer (← convert f)
  | .array f l => do
    let e ← convert f
    let n ← match l with
      | none => pure none
      | some c => lengthOf c
    return .array e (n.getD 0)
  | .func ps r => do
    let some ps := ps | return .func [] (← convert r) true
    let args ← convertParams ps
    return .func args (← convert r) false
  | .struct name fs => do
    let i ← structOf name
    let some fs := fs | return .struct i
    convertFields i fs
    return .struct i
  | .union fs => return .union (← convertMembers fs)
  | .enumeration => raise .badValue

def convertParams : List (Option Form) → Convert (List CType)
  | [] => return []
  | none :: _ => raise .badAttribute
  | some f :: fs => do
    let t ← convert f
    return t :: (← convertParams fs)

def convertFields (i : Nat) : List (String × Form) → Convert Unit
  | [] => return
  | (n, f) :: fs => do
    setField i n (← convert f)
    convertFields i fs

def convertMembers : List (String × Form) → Convert Members
  | [] => return []
  | (n, f) :: fs => do
    let t ← convert f
    let rest ← convertMembers fs
    return if rest.any (·.1 == n) then rest else (n, t) :: rest

end

def convertItems (defns : Members) : List Item → Convert Members
  | [] => return defns
  | .typedef n f :: rest => do
    let t ← convert f
    modify fun d => { d with extra := Table.put n t d.extra }
    convertItems defns rest
  | .decl n f :: rest => do
    let t ← convert f
    convertItems (match n with | some n => Table.put n t defns | none => defns) rest

end Declared

namespace TypeNames

variable (t : TypeNames) (s : String)

def parseType (preprocess : Bool) : Try (CType × TypeNames) := do
  let outer (c : Char) := c = ';' || c = ' ' || c = '\n' || c = '\t' || c = '\r'
  let s := String.ofList ((((s.toList.dropWhile outer).reverse).dropWhile outer).reverse)
  let s := "typedef " ++ s ++ " QQQQ;"
  let s := if preprocess then CMacro.process s else s
  let is ← CDecl.read (t.preamble ++ s)
  match is.getLast? with
  | some (.typedef _ f) =>
    let (c, d) ← (Declared.convert f).run { known := t }
    return (c, d.known)
  | _ => raise .badValue

def parseFile (preprocess : Bool) :
    Try (Members × Members × TypeNames) := do
  let s := CMacro.dropIncludes s
  let s := if preprocess then CMacro.process s else s
  let is ← CDecl.read (t.preamble ++ s)
  let (defns, d) ← (Declared.convertItems [] is).run { known := t }
  return (defns, d.extra, d.known)

def defineStruct : Try (CType × TypeNames) := do
  let (c, t) ← t.parseType s true
  match c with
  | .struct i => return (c, t.insert (t.structs.nameOf i) c)
  | _ => raise .badAttribute

end TypeNames

end SymExec
