import SymExec.CTypes.Syntax

/-!
# Directives

What happens to a text before it is read as C: comments go, macros are replaced, and parts under a condition are chosen.
-/

namespace SymExec.CMacro

inductive Piece where
  | name (s : String)
  | blank (s : String)
  | other (s : String)
deriving DecidableEq

def Piece.text : Piece → String
  | .name s | .blank s | .other s => s

def Piece.isBlank : Piece → Bool
  | .blank _ => true
  | _ => false

/-- A macro; without parameters it is replaced wherever its name stands. -/
structure Macro where
  name : String
  params : Option (List String)
  body : List Piece

/-- Comments become blanks, or as many line ends as they hold; one up to the end of its line becomes a line end. -/
def stripComments : Nat → List Char → List Char
  | 0, cs => cs
  | _ + 1, [] => []
  | n + 1, '/' :: '*' :: cs =>
    let rec close : List Char → Nat → Option (Nat × List Char)
      | '*' :: '/' :: r, k => some (k, r)
      | c :: r, k => close r (if c = '\n' then k + 1 else k)
      | [], _ => none
    match close cs 0 with
    | some (k, rest) => (if k = 0 then [' '] else .replicate k '\n') ++ stripComments n rest
    | none => '/' :: '*' :: cs
  | n + 1, '/' :: '/' :: cs => '\n' :: stripComments n (cs.dropWhile (· != '\n') |>.drop 1)
  | n + 1, '"' :: cs =>
    match CToken.untilMark '"' cs with
    | some (w, rest) => '"' :: w ++ '"' :: stripComments n rest
    | none => '"' :: stripComments n cs
  | n + 1, c :: cs => c :: stripComments n cs

def pieces : Nat → List Char → List Piece
  | 0, _ => []
  | _ + 1, [] => []
  | n + 1, c :: cs =>
    if CToken.wordStart c then
      .name (String.ofList ((c :: cs).takeWhile CToken.wordChar)) :: pieces n ((c :: cs).dropWhile CToken.wordChar)
    else if c = ' ' || c = '\t' || c = '\r' then
      let blank (c : Char) := c = ' ' || c = '\t' || c = '\r'
      .blank (String.ofList ((c :: cs).takeWhile blank)) :: pieces n ((c :: cs).dropWhile blank)
    else if c.isDigit then
      .other (String.ofList ((c :: cs).takeWhile CToken.wordChar)) :: pieces n ((c :: cs).dropWhile CToken.wordChar)
    else if c = '"' || c = '\'' then
      match CToken.untilMark c cs with
      | some (w, rest) => .other (String.ofList (c :: w ++ [c])) :: pieces n rest
      | none => .other (String.ofList [c]) :: pieces n cs
    else .other (String.ofList [c]) :: pieces n cs

variable (s : String)

def piecesOf : List Piece := pieces (s.length + 1) s.toList

def trim (ps : List Piece) : List Piece := ((ps.dropWhile Piece.isBlank).reverse.dropWhile Piece.isBlank).reverse

def arguments : List Piece → Nat → List Piece → List (List Piece) → Option (List (List Piece) × List Piece)
  | [], _, _, _ => none
  | .other "(" :: r, d, cur, done => arguments r (d + 1) (cur ++ [.other "("]) done
  | .other ")" :: r, 0, cur, done => some (done ++ [trim cur], r)
  | .other ")" :: r, d + 1, cur, done => arguments r d (cur ++ [.other ")"]) done
  | .other "," :: r, 0, cur, done => arguments r 0 [] (done ++ [trim cur])
  | p :: r, d, cur, done => arguments r d (cur ++ [p]) done

def expand (n : Nat) (ms : List Macro) (ps : List Piece) : List Piece :=
  match n with
  | 0 => ps
  | n + 1 =>
    let rec go (fuel : Nat) (ps : List Piece) : List Piece :=
      match fuel, ps with
      | 0, ps => ps
      | _, [] => []
      | fuel + 1, .name s :: rest =>
        match ms.find? (·.name == s) with
        | none => .name s :: go fuel rest
        | some m =>
          let inner := ms.filter (·.name != s)
          match m.params with
          | none => expand n inner m.body ++ go fuel rest
          | some params =>
            match rest.dropWhile Piece.isBlank with
            | .other "(" :: r =>
              match arguments r 0 [] [] with
              | some (args, r) =>
                if args.length = params.length || (params.isEmpty && args = [[]]) then
                  let bound := params.zip args
                  let body := m.body.flatMap fun p =>
                    match p with
                    | .name k => ((bound.lookup k).map fun a => expand n ms a).getD [p]
                    | p => [p]
                  expand n inner body ++ go fuel r
                else .name s :: go fuel rest
              | none => .name s :: go fuel rest
            | _ => .name s :: go fuel rest
      | fuel + 1, p :: rest => p :: go fuel rest
    go (ps.length + 1) ps

def readMacro (ps : List Piece) : Option Macro :=
  match trim ps with
  | .name n :: .other "(" :: rest =>
    match arguments rest 0 [] [] with
    | some (params, body) =>
      let names := params.filterMap fun p => match p with | [.name s] => some s | _ => none
      some { name := n, params := some names, body := trim body }
    | none => none
  | .name n :: rest => some { name := n, params := none, body := trim rest }
  | _ => none

/-- The value of a condition of numbers, names and a few signs; what cannot be read is false. -/
def conditionHolds (ms : List Macro) (ps : List Piece) : Bool :=
  let rec resolve : List Piece → List Piece
    | .name "defined" :: .other "(" :: .name k :: .other ")" :: r =>
      .other (if ms.any (·.name == k) then "1" else "0") :: resolve r
    | .name "defined" :: .name k :: r => .other (if ms.any (·.name == k) then "1" else "0") :: resolve r
    | p :: r => p :: resolve r
    | [] => []
  let value (ps : List Piece) : Nat :=
    match ps with
    | [.other s] => (s.toNat?).getD 0
    | _ => 0
  let ps := (expand 20 ms (resolve (ps.filter (!·.isBlank)))).filter (!·.isBlank)
  match ps with
  | .other "!" :: r => value r = 0
  | [a, .other "=", .other "=", b] => value [a] = value [b]
  | [a, .other "!", .other "=", b] => value [a] != value [b]
  | [a, .other ">", b] => value [a] > value [b]
  | [a, .other "<", b] => value [a] < value [b]
  | ps => value ps != 0

structure Reader where
  macros : List Macro := []
  conditions : List (Bool × Bool) := []

def Reader.active (r : Reader) : Bool := r.conditions.all (·.1)

def line (r : Reader) (s : String) : Reader × String :=
  let ps := piecesOf s
  match ps.dropWhile Piece.isBlank with
  | .other "#" :: rest =>
    let rest := rest.dropWhile Piece.isBlank
    let args := rest.drop 1
    let named := match trim args with | .name k :: _ => r.macros.any (·.name == k) | _ => false
    let push (b : Bool) : Reader :=
      if r.active then { r with conditions := (b, b) :: r.conditions }
      else { r with conditions := (false, true) :: r.conditions }
    match rest with
    | .name "define" :: _ =>
      match if r.active then readMacro args else none with
      | some m => ({ r with macros := m :: r.macros.filter (·.name != m.name) }, "")
      | none => (r, "")
    | .name "undef" :: _ =>
      match trim args with
      | .name k :: _ => (if r.active then { r with macros := r.macros.filter (·.name != k) } else r, "")
      | _ => (r, "")
    | .name "ifdef" :: _ => (push named, "")
    | .name "ifndef" :: _ => (push !named, "")
    | .name "if" :: _ => (push (conditionHolds r.macros args), "")
    | .name "elif" :: _ =>
      match r.conditions with
      | (_, took) :: outer =>
        let b := !took && conditionHolds r.macros args
        ({ r with conditions := (b, took || b) :: outer }, "")
      | [] => (r, "")
    | .name "else" :: _ =>
      match r.conditions with
      | (_, took) :: outer => ({ r with conditions := (!took, true) :: outer }, "")
      | [] => (r, "")
    | .name "endif" :: _ => ({ r with conditions := r.conditions.drop 1 }, "")
    | _ => (r, "")
  | _ => if r.active then (r, String.join ((expand 50 r.macros ps).map Piece.text)) else (r, "")

def process : String :=
  let s := String.ofList (stripComments (s.length + 1) s.toList)
  let s := s.replace "\\\n" ""
  let (_, out) := (s.splitOn "\n").foldl (fun (acc : Reader × List String) l =>
    let (r, t) := line acc.1 l
    (r, t :: acc.2)) ({}, [])
  "\n".intercalate out.reverse

def dropIncludes : String :=
  let blank (c : Char) := c = ' ' || c = '\t' || c = '\r' || c = '\x0b' || c = '\x0c'
  "\n".intercalate ((s.splitOn "\n").filter fun l => !(String.ofList (l.toList.dropWhile blank)).startsWith "#include")

end SymExec.CMacro
