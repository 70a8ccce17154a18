import SymExec.Fault

/-!
# C declarations

The form of declarations, read from tokens.
-/

namespace SymExec.CToken

inductive Token where
  | word (s : String)
  | number (s : String)
  | quoted (s : String)
  | sym (s : String)
deriving DecidableEq

def wordStart (c : Char) : Bool := c.isAlpha || c = '_' || c = '$'
def wordChar (c : Char) : Bool := wordStart c || c.isDigit

def signs : List String := (
  "... <<= >>= -> ++ -- << >> <= >= == != && || *= /= %= += -= &= |= ^= ( ) [ ] \x7b \x7d . & * + - ~ ! / % < > ^ | ? : " ++
  "; = ,").splitOn " "

def dropStart : List Char → List Char → Option (List Char)
  | [], cs => some cs
  | p :: ps, c :: cs => if p = c then dropStart ps cs else none
  | _ :: _, [] => none

def untilMark (mark : Char) : List Char → Option (List Char × List Char)
  | [] => none
  | '\\' :: c :: cs => (untilMark mark cs).map fun (a, r) => ('\\' :: c :: a, r)
  | c :: cs => if c = mark then some ([], cs) else if c = '\n' then none else (untilMark mark cs).map fun (a, r) => (c :: a, r)

def numberRun : Char → List Char → List Char × List Char
  | _, [] => ([], [])
  | prev, c :: cs =>
    if wordChar c || c = '.' || ((c = '+' || c = '-') && (prev = 'e' || prev = 'E')) then
      let (a, r) := numberRun c cs
      (c :: a, r)
    else ([], c :: cs)

def tokensFrom : Nat → List Char → Try (List Token)
  | 0, _ => .ok []
  | _ + 1, [] => .ok []
  | n + 1, c :: cs =>
    if c = ' ' || c = '\t' || c = '\n' || c = '\r' then tokensFrom n cs
    else if wordStart c then do
      let w := (c :: cs).takeWhile wordChar
      return .word (String.ofList w) :: (← tokensFrom n ((c :: cs).dropWhile wordChar))
    else if c.isDigit || (c = '.' && (cs.head?.map Char.isDigit).getD false) then do
      let (w, rest) := numberRun c cs
      return .number (String.ofList (c :: w)) :: (← tokensFrom n rest)
    else if c = '"' || c = '\'' then do
      let (w, rest) ← orRaise (untilMark c cs) .declaration
      return .quoted (String.ofList (c :: w ++ [c])) :: (← tokensFrom n rest)
    else do
      let (s, rest) ← orRaise (signs.findSome? fun s => (dropStart s.toList (c :: cs)).map fun rest => (s, rest)) .declaration
      return .sym s :: (← tokensFrom n rest)

def tokens (s : String) : Try (List Token) := tokensFrom (s.length + 1) s.toList

end SymExec.CToken

namespace SymExec.CDecl

open CToken

inductive CExpr where
  | const (s : String)
  | bin (op : String) (a b : CExpr)
  | other

inductive Form where
  | named (words : List String)
  | pointer (t : Form)
  | array (t : Form) (length : Option CExpr)
  | func (params : Option (List (Option Form))) (ret : Form)
  | struct (name : Option String) (fields : Option (List (String × Form)))
  | union (fields : List (String × Form))
  | enumeration

inductive Item where
  | typedef (name : String) (t : Form)
  | decl (name : Option String) (t : Form)

/-- The steps from the declared name out to the type it is built on. -/
inductive Modifier where
  | pointer
  | array (length : Option CExpr)
  | func (params : Option (List (Option Form)))

def Modifier.apply (m : Modifier) (t : Form) : Form :=
  match m with
  | .pointer => .pointer t
  | .array l => .array t l
  | .func ps => .func ps t

structure Reader where
  rest : List Token
  (typedefs others : List String := [])

abbrev Read := StateT Reader Try

namespace Read

def fail : Read α := raise .declaration

def peek : Read (Option Token) := return (← get).rest.head?

def skip : Read Unit := modify fun r => { r with rest := r.rest.drop 1 }

variable (s : String)

def sym? : Read Bool := do
  match ← peek with
  | some (.sym t) => if s = t then do skip; return true else return false
  | _ => return false

def sym : Read Unit := do if !(← sym? s) then fail

def nextIs : Read Bool := return (← peek) = some (.sym s)

def word? : Read Bool := do
  match ← peek with
  | some (.word t) => if s = t then do skip; return true else return false
  | _ => return false

end Read

open Read

/-! ### Words -/

def storageWords : List String := "auto register static extern typedef _Thread_local".splitOn " "
def qualifierWords : List String := ["const", "restrict", "volatile", "_Atomic"]
def functionWords : List String := ["inline", "_Noreturn"]
def typeWords : List String := "void _Bool char short int long float double _Complex signed unsigned __int128".splitOn " "
def tagWords : List String := ["struct", "union", "enum"]
def statementWords : List String := (
  "break case continue default do else for goto if return sizeof switch while _Alignof _Alignas _Static_assert offsetof " ++
  "__offsetof").splitOn " "

def isKeyword (s : String) : Bool :=
  [storageWords, qualifierWords, functionWords, typeWords, tagWords, statementWords].any (·.contains s)

def startsType (typedefs : List String) : Option Token → Bool
  | some (.word s) => typedefs.contains s || [storageWords, qualifierWords, functionWords, typeWords, tagWords].any (·.contains s)
  | _ => false

def atType : Read Bool := return startsType (← get).typedefs (← peek)

def name? : Read (Option String) := do
  let some (.word n) ← peek | return none
  if isKeyword n then fail
  skip
  return n

structure Specs where
  isTypedef : Bool := false
  words : List String := []
  tagged : Option Form := none
  some : Bool := false

def Specs.hasType (s : Specs) : Bool := !s.words.isEmpty || s.tagged.isSome

def Specs.form? (s : Specs) : Option Form :=
  match s.tagged with
  | Option.some f => if s.words.isEmpty then Option.some f else none
  | none => if s.words.isEmpty then none else Option.some (.named s.words)

def precedence : List (String × Nat) := [
  ("||", 1), ("&&", 2), ("|", 3), ("^", 4), ("&", 5), ("==", 6), ("!=", 6), ("<", 7), (">", 7), ("<=", 7), (">=", 7), ("<<", 8),
  (">>", 8), ("+", 9), ("-", 9), ("*", 10), ("/", 10), ("%", 10)]

def skipBlock : Nat → Nat → Read Unit
  | 0, _ => fail
  | fuel + 1, depth => do
    match ← peek with
    | none => fail
    | some (.sym "\x7b") =>
      skip
      skipBlock fuel (depth + 1)
    | some (.sym "\x7d") =>
      skip
      if depth ≤ 1 then return else skipBlock fuel (depth - 1)
    | _ =>
      skip
      skipBlock fuel depth

def skipQualifiers : Nat → Read Unit
  | 0 => return
  | fuel + 1 => do
    let some (.word s) ← peek | return
    if qualifierWords.contains s then
      skip
      skipQualifiers fuel

mutual

def expr : Nat → Read CExpr
  | 0 => fail
  | fuel + 1 => do
    let a ← binary fuel 1
    if ← sym? "?" then
      let _ ← expr fuel
      sym ":"
      let _ ← expr fuel
      return .other
    let some (.sym s) ← peek | return a
    if s ∉ ["=", "*=", "/=", "%=", "+=", "-=", "<<=", ">>=", "&=", "^=", "|="] then return a
    skip
    let _ ← expr fuel
    return .other

def binary : Nat → Nat → Read CExpr
  | 0, _ => fail
  | fuel + 1, level => do
    binaryRest fuel level (← unary fuel)

def binaryRest : Nat → Nat → CExpr → Read CExpr
  | 0, _, _ => fail
  | fuel + 1, level, a => do
    let some (.sym s) ← peek | return a
    let some p := precedence.lookup s | return a
    if p < level then return a
    skip
    let b ← binary fuel (p + 1)
    binaryRest fuel level (.bin s a b)

def unary : Nat → Read CExpr
  | 0 => fail
  | fuel + 1 => do
    match ← peek with
    | some (.sym s) =>
      if ["++", "--", "&", "*", "+", "-", "~", "!"].contains s then do
        skip
        let _ ← unary fuel
        return .other
      else if s = "(" then do
        skip
        if ← atType then
          let _ ← typeName fuel
          sym ")"
          let _ ← unary fuel
          return .other
        else
          let e ← expr fuel
          let _ ← commas fuel
          sym ")"
          suffixes fuel e
      else fail
    | some (.word "sizeof") =>
      skip
      if ← sym? "(" then
        if ← atType then
          let _ ← typeName fuel
          sym ")"
        else
          let _ ← expr fuel
          sym ")"
      else
        let _ ← unary fuel
      return .other
    | some (.word s) =>
      if isKeyword s || (← get).typedefs.contains s then fail
      else do
        skip
        suffixes fuel .other
    | some (.number s) =>
      skip
      suffixes fuel (.const s)
    | some (.quoted s) =>
      skip
      suffixes fuel (.const s)
    | none => fail

def suffixes : Nat → CExpr → Read CExpr
  | 0, _ => fail
  | fuel + 1, e => do
    match ← peek with
    | some (.sym "[") =>
      skip
      let _ ← expr fuel
      sym "]"
      suffixes fuel .other
    | some (.sym "(") =>
      skip
      if !(← sym? ")") then
        let _ ← expr fuel
        let _ ← commas fuel
        sym ")"
      suffixes fuel .other
    | some (.sym ".") | some (.sym "->") =>
      skip
      let some (.word _) ← peek | fail
      skip
      suffixes fuel .other
    | some (.sym "++") | some (.sym "--") =>
      skip
      suffixes fuel .other
    | some (.quoted _) =>
      let .const _ := e | return e
      skip
      suffixes fuel e
    | _ => return e

def commas : Nat → Read Unit
  | 0 => fail
  | fuel + 1 => do
    if ← sym? "," then
      let _ ← expr fuel
      commas fuel
    else return

def typeName : Nat → Read Form
  | 0 => fail
  | fuel + 1 => do
    let s ← specs fuel {}
    let some base := s.form? | fail
    let (none, mods) ← declarator fuel true | fail
    return mods.foldr Modifier.apply base

def specs : Nat → Specs → Read Specs
  | 0, _ => fail
  | fuel + 1, s => do
    match ← peek with
    | some (.word w) =>
      if w = "typedef" then do
        skip
        specs fuel { s with isTypedef := true, some := true }
      else if storageWords.contains w || qualifierWords.contains w || functionWords.contains w then do
        skip
        specs fuel { s with some := true }
      else if typeWords.contains w then do
        if s.tagged.isSome then fail
        skip
        specs fuel { s with words := s.words ++ [w], some := true }
      else if tagWords.contains w then do
        if s.hasType then fail
        skip
        let f ← tagged fuel w
        specs fuel { s with tagged := some f, some := true }
      else if !s.hasType && (← get).typedefs.contains w then do
        skip
        specs fuel { s with words := [w], some := true }
      else return s
    | _ => return s

def tagged : Nat → String → Read Form
  | 0, _ => fail
  | fuel + 1, w => do
    let name ← name?
    let braces ← sym? "\x7b"
    if name.isNone && !braces then fail
    if w = "enum" then
      if braces then enumerators fuel true
      return .enumeration
    let fs ← if braces then some <$> fields fuel else pure none
    if w = "struct" then return .struct name fs else return .union (fs.getD [])

def enumerators : Nat → Bool → Read Unit
  | 0, _ => fail
  | fuel + 1, first => do
    if !first then
      if ← sym? "\x7d" then return
    let some _ ← name? | fail
    if ← sym? "=" then
      let _ ← expr fuel
    if ← sym? "," then enumerators fuel false else sym "\x7d"

def fields : Nat → Read (List (String × Form))
  | 0 => fail
  | fuel + 1 => do
    if ← sym? "\x7d" then return []
    if ← sym? ";" then return ← fields fuel
    let some base := (← specs fuel {}).form? | fail
    let ds ← if ← sym? ";" then pure [("", base)] else fieldDeclarators fuel base
    return ds ++ (← fields fuel)

def fieldDeclarators : Nat → Form → Read (List (String × Form))
  | 0, _ => fail
  | fuel + 1, base => do
    let (name, mods) ← if ← nextIs ":" then pure (none, []) else declarator fuel false
    if ← sym? ":" then
      let _ ← expr fuel
    let f := (name.getD "", mods.foldr Modifier.apply base)
    if ← sym? "," then return f :: (← fieldDeclarators fuel base)
    sym ";"
    return [f]

def declarator : Nat → Bool → Read (Option String × List Modifier)
  | 0, _ => fail
  | fuel + 1, abstract => do
    if ← sym? "*" then
      skipQualifiers fuel
      let (n, ms) ← declarator fuel abstract
      return (n, ms ++ [.pointer])
    match ← peek with
    | some (.word n) =>
      if isKeyword n then (if abstract then return (none, []) else fail)
      else do
        skip
        let ms ← modifiers fuel
        return (some n, ms)
    | some (.sym "(") =>
      let after := (← get).rest.drop 1
      if abstract && (after.head? = some (.sym ")") || startsType (← get).typedefs after.head?) then
        let ms ← modifiers fuel
        return (none, ms)
      else do
        skip
        let (n, inner) ← declarator fuel abstract
        sym ")"
        let ms ← modifiers fuel
        return (n, inner ++ ms)
    | some (.sym "[") => if abstract then return (none, ← modifiers fuel) else fail
    | _ => if abstract then return (none, []) else fail

def modifiers : Nat → Read (List Modifier)
  | 0 => fail
  | fuel + 1 => do
    if ← sym? "[" then
      skipQualifiers fuel
      let _ ← word? "static"
      skipQualifiers fuel
      let l ←
        if ← nextIs "]" then pure none
        else if (← get).rest.take 2 = [.sym "*", .sym "]"] then do
          skip
          pure (some .other)
        else some <$> expr fuel
      sym "]"
      return .array l :: (← modifiers fuel)
    else if ← sym? "(" then
      let ps ←
        if ← sym? ")" then pure none
        else if ← atType then some <$> params fuel
        else some <$> identifiers fuel
      return .func ps :: (← modifiers fuel)
    else return []

def params : Nat → Read (List (Option Form))
  | 0 => fail
  | fuel + 1 => do
    let s ← specs fuel {}
    let base ← match s.form? with
      | some b => pure b
      | none => if s.some then pure (Form.named ["int"]) else fail
    let (_, ms) ← declarator fuel true
    let p := some (ms.foldr Modifier.apply base)
    if ← sym? "," then
      if ← sym? "..." then
        sym ")"
        return [p, none]
      else return p :: (← params fuel)
    else
      sym ")"
      return [p]

def identifiers : Nat → Read (List (Option Form))
  | 0 => fail
  | fuel + 1 => do
    let some _ ← name? | fail
    if ← sym? "," then return none :: (← identifiers fuel)
    sym ")"
    return [none]

end

def declare (isTypedef : Bool) (n : String) : Read Unit := do
  let r ← get
  if isTypedef then
    if r.others.contains n then fail
    set { r with typedefs := if r.typedefs.contains n then r.typedefs else n :: r.typedefs }
  else
    if r.typedefs.contains n then fail
    set { r with others := if r.others.contains n then r.others else n :: r.others }

def declarators : Nat → Specs → Bool → Read (List Item)
  | 0, _, _ => fail
  | fuel + 1, s, first => do
    let (name, mods) ← declarator fuel false
    let isFunc := match mods.head? with | some (.func _) => true | _ => false
    let base ← match s.form? with
      | some b => pure b
      | none => if isFunc && !s.hasType then pure (Form.named ["int"]) else fail
    let t := mods.foldr Modifier.apply base
    let some n := name | fail
    declare s.isTypedef n
    let item := if s.isTypedef then .typedef n t else .decl (some n) t
    if first && isFunc && !s.isTypedef && (← nextIs "\x7b") then
      skip
      skipBlock (← get).rest.length 1
      return [item]
    if ← sym? "=" then
      if ← sym? "\x7b" then skipBlock (← get).rest.length 1
      else
        let _ ← expr fuel
    if ← sym? "," then return item :: (← declarators fuel s false)
    sym ";"
    return [item]

def items (inner : Nat) : Nat → Read (List Item)
  | 0 => fail
  | fuel + 1 => do
    match ← peek with
    | none => return []
    | some (.sym ";") =>
      skip
      items inner fuel
    | _ =>
      let s ← specs inner {}
      if ← sym? ";" then
        let some f := s.tagged | fail
        return .decl none f :: (← items inner fuel)
      else
        let ds ← declarators inner s true
        return ds ++ (← items inner fuel)

def read (s : String) : Try (List Item) := do
  let ts ← tokens s
  let fuel := 20 * ts.length + 200
  let (is, _) ← (items fuel (ts.length + 1)).run { rest := ts }
  return is

end SymExec.CDecl
