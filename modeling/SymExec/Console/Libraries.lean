import SymExec.Console.CallSteps
import SymExec.Console.Variables
import SymExec.Library.Basic

/-!
# Requests about libraries
-/

namespace SymExec.Console

def stockedData (l : Library) (key : Data) (s : Stocked) : Data :=
  let p := s.procedure
  let class' := (p.kind?.map (·.display)).getD p.name
  .obj ([("name", .str p.display), ("class", .str class'), ("num_args", .int p.numArgs), ("returns", .bool p.returns),
    ("stub", .bool p.isStub), ("syscall", .bool p.isSyscall), ("function", .bool p.isFunction),
    ("lib", .opt .str p.libraryName), ("cc", .opt (.str ·.name) s.conv),
    ("proto", .opt (.str ·.text) s.prototype)]
    ++ (if l.system then [("number", key), ("abi", .opt .str s.abi)] else []))

def optionValue : Data → Value
  | .int i => .int i
  | .bool b => .bool b
  | .str s => .str s
  | _ => .null

def libraryStep (s : Shelf) (d : Data) : Shelf × Try Data :=
  let what := d.name 0
  let own := d.name 1
  let rest := d.toList.drop 2
  let strings := rest.filterMap Data.str?
  if what = "new" then (s.insert own { system := (d.item 2).truthy }, .ok .null)
  else
    match s.place? own with
    | none => (s, raise .badKey)
    | some i =>
      let l := s.library i
      let arg := d.item 2
      let name := arg.str?.getD ""
      let key := match arg with
        | .str t => .named t
        | a => .number (a.int?.getD 0)
      let abis := (d.item 4).toList.filterMap Data.str?
      let archOf (x : Data) : Try Arch := orRaise (x.str?.bind Arch.ofName?) .badValue
      let convOf (x : Data) : Try CallConv := orRaise (x.str?.bind CallConv.ofName?) .badAttribute
      let changing (r : Try (Library × Data)) := match r with
        | .ok (l, out) => (s.set i l, .ok out)
        | .error f => (s, .error f)
      match what with
      | "copy" => (s.copy i name, .ok .null)
      | "update" =>
        match s.place? name with
        | none => (s, raise .badKey)
        | some j =>
          match s.update i j with
          | (.ok s, _) => (s, .ok .null)
          | (.error f, s) => (s, .error f)
      | "names" =>
        let s := s.addNames i strings
        (s, .ok (.str (s.library i).name))
      | "name" => (s, .ok (.str l.name))
      | "non_returning" => changing (.ok (l.setNonReturning strings, .null))
      | "proto" => changing do
        let (defns, _, t) ← TypeNames.initial.parseFile name true
        match defns with
        | [] => raise .badValue
        | (f, c) :: _ =>
          let proto : Prototype := { type := c, structs := t.structs }
          return (l.setPrototype f proto, .list [.str f, .str proto.text])
      | "add" => changing do
        let kw := match d.item 5 with
          | .obj fs => fs.map fun (k, v) => (k, optionValue v)
          | _ => []
        let p ← makeProcedure (d.name 3) (d.name 4) kw
        if kw.any (·.1 = "display_name") then raise .badType
        let l := l.add name { procedure := p }
        return (l, texts (l.procedures.map (·.1)))
      | "alias" => changing do return (← l.addAlias name (strings.drop 1), .null)
      | "cc" => changing do return (l.setConv (← archOf arg) (← convOf (d.item 3)), .null)
      | "abi_cc" => changing do
        return ({ l with abiConvs := Table.put name (← convOf (d.item 3)) l.abiConvs }, .null)
      | "number" => (s.addNumbers i name [(d.number 3, d.name 4)], .ok .null)
      | "numbers" =>
        let entries := match d.item 3 with
          | .obj fs => fs.map fun (k, v) => ((k.toInt?).getD 0, v.str?.getD "")
          | xs => xs.toList.map fun e => (e.number 0, e.name 1)
        (s.addNumbers i name entries, .ok .null)
      | "range" =>
        let (lo, hi) := s.numberRange i name
        (s, .ok (.list [.int lo, .int hi]))
      | "get" | "get_stub" =>
        match archOf (d.item 3) with
        | .error f => (s, .error f)
        | .ok arch =>
          let (found, s) :=
            if l.system then s.findCall i arch key abis (what = "get_stub")
            else (if what = "get" then l.find arch name else l.stub arch name, s)
          (s, found.map (stockedData l arg))
      | "has" =>
        let wrong := Value.showFault (.of .badType)
        if l.system then
          if rest.length < 2 then (s, .ok (.list [wrong, wrong, .bool (l.hasPrototype name)]))
          else
            let ((found, _), s) := s.resolve i key abis
            (s, .ok (.list [wrong, .bool (l.implements found), wrong]))
        else if rest.length > 1 then (s, .ok (.list [wrong, wrong, wrong]))
        else (s, .ok (.list [.bool (l.mentions name), .bool (l.implements name), .bool (l.hasPrototype name)]))
      | _ => (s, .ok .null)

def librarySteps : Shelf → List Data → List Data
  | _, [] => []
  | s, d :: ds =>
    let (s, r) := libraryStep s d
    reported id r :: librarySteps s ds

def libraries (d : Data) : Data := .list (librarySteps .initial (d.get "steps").toList)

end SymExec.Console
