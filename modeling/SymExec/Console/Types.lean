import SymExec.CTypes.Parse
import SymExec.Console.Value

/-!
# Requests on C types

Requests that read C declarations and describe the types they declare.
-/

namespace SymExec.Console

def untold : CType → Bool
  | .union _ | .pointer (.union _) | .array (.union _) _ => true
  | .func args ret _ => (ret :: args).any fun | .union _ => true | _ => false
  | _ => false

variable (s : Structs) (a : Option Arch)

def describeType : Nat → List Nat → CType → Data
  | 0, _, _ => .null
  | n + 1, open_, t =>
    let again := describeType n
    let size := match t.size s a with
      | .ok (some k) => .int k
      | .ok none => .str "NotImplemented"
      | .error f => Value.showFault f
    let base := [("kind", Data.str t.kind), ("size", size)]
      ++ (if untold t then [] else [("repr", .str (t.text s a))])
      ++ (match t.signed? with | some b => [("signed", .bool b)] | none => [])
    let more := match t with
      | .pointer u => [("to", again open_ u)]
      | .array e l => [("length", .int l), ("elem", again open_ e)]
      | .string l => [("length", .ofNat? l), ("elem", again open_ .char)]
      | .wstring l => [("length", .ofNat? l), ("elem", again open_ (.num 16 false))]
      | .func args r _ => [("args", .list (args.map (again open_))), ("returns", again open_ r)]
      | .union ms => [("members", .list ((ms.mergeSort fun x y => x.1 ≤ y.1).map fun (k, u) => .list [.str k, again open_ u]))]
      | .struct i =>
        ("name", .str (s.nameOf i)) ::
        if open_.contains i then []
        else [
          ("fields", .list ((s.fieldsOf i).map fun (k, u) => .list [.str k, again (i :: open_) u])),
          ("offsets", match CType.offsets s a i with
            | .ok os => .obj (os.map fun (k, o) => (k, .int o))
            | .error f => Value.showFault f)]
      | _ => []
    .obj (base ++ more)

def describeTypes (ts : Members) : Data := .obj (ts.map fun (k, t) => (k, describeType s a 40 [] t))

def compareTypes (t u : CType) : Try Data := do
  -- Bound to a machine, a function without parameters is as any other.
  let bound (c : CType) := match c with
    | .func args r b => .func args r (b && a.isNone)
    | c => c
  let t := bound t
  let u := bound u
  let eq ← CType.equal s a t u
  return .list [.bool eq, .bool !eq, .bool ((← CType.hashParts a t) = (← CType.hashParts a u))]

def typeStep (names : TypeNames) (d : Data) : Try (Data × TypeNames) := do
  let text := d.name 1
  let preprocess := match d.toList[2]? with | some p => p.truthy | none => true
  let hidden (ts : Members) := ts.filter fun (k, _) => (names.find? k).isNone && k != "struct example"
  match d.name 0 with
  | "parse" =>
    let (c, t) ← names.parseType text preprocess
    return (describeType t.structs a 40 [] c, names)
  | "file" =>
    let (defns, types, t) ← names.parseFile text preprocess
    return (.obj [("defns", describeTypes t.structs a defns), ("types", describeTypes t.structs a (hidden types))], names)
  | "defns" =>
    let (defns, _, t) ← names.parseFile text preprocess
    return (describeTypes t.structs a defns, names)
  | "types" =>
    let (_, types, t) ← names.parseFile text preprocess
    return (describeTypes t.structs a (hidden types), names)
  | "struct" =>
    let (c, t) ← names.defineStruct text
    return (describeType t.structs a 40 [] c, t)
  | "register" =>
    let (_, types, t) ← names.parseFile text true
    return (.null, types.foldl (fun t (k, c) => t.insert k c) t)
  | "eq" =>
    let (c, t) ← names.parseType text true
    let (e, t) ← t.parseType (d.name 2) true
    return (← compareTypes t.structs a c e, names)
  | "lookup" => do
    let c ← orRaise (names.find? text) .badKey
    return (describeType names.structs a 40 [] c, names)
  | "names" => return (.list (((names.names.map (·.1)).mergeSort (· ≤ ·)).map .str), names)
  | _ => raise .badValue

def typeSteps : TypeNames → List Data → List Data
  | _, [] => []
  | names, d :: ds =>
    match typeStep a names d with
    | .ok (r, names) => r :: typeSteps names ds
    | .error f => Value.showFault f :: typeSteps names ds

def types (d : Data) : Data :=
  let a := (d.get "arch").str?.bind Arch.ofName?
  .list (typeSteps a TypeNames.initial (d.get "steps").toList)

end SymExec.Console
