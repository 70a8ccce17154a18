import SymExec.CTypes.Parse
import SymExec.Procedure.Text

/-!
# Numbers in texts and format strings

A format string is read into pieces: bytes to be copied, and directives.
-/

namespace SymExec

open Bits Cond

namespace Exec

structure Numeral where
  valid : Cond
  (value length : Bits)

def digit (base : Nat) (c : Bits) : Cond × Bits :=
  let byte (n : Nat) := .ofNat 8 n
  let between (lo hi : Nat) := .mkAnd (.uge c (byte lo)) (.ule c (byte hi))
  let isDigit := between 48 (if base < 10 then 48 + base else 57)
  let fromDigit := c.sub (byte 48)
  if base ≤ 10 then (isDigit, fromDigit)
  else
    let isLower := between 97 (97 + base - 11)
    let isUpper := between 65 (65 + base - 11)
    let fromLetter (first : Nat) := (c.sub (byte first)).add (byte 10)
    (.any [isDigit, isLower, isUpper], choose [(isDigit, fromDigit), (isLower, fromLetter 97)] (fromLetter 65))

variable (r : Region) (s : Bits)

def readDigits (base : Nat) (signed : Bool) (length : Option Int) : Exec Numeral := do
  let bits ← wordBits
  let n := (length.getD (← libc).maxStrtolLen).toNat
  let load1 (a : Bits) : Exec Bits := load r a { size := some (.num 1) }
  let (valid, _) := digit base (← load1 s)
  let wide := min (2 * bits) 128
  let count ← freshSymbol "num_bytes" bits
  let rec go : List Nat → Bits → List Cond → List (Cond × Bits) → List Cond → Exec (Bits × List Cond × List (Cond × Bits) × List Cond)
    | [], v, digits, cases, ends => return (v, digits, cases, ends)
    | i :: rest, v, digits, cases, ends => do
      let (isDigit, d) := digit base (← load1 (s.addInt i))
      let here := .eqNat count i
      let stop := .all (digits ++ [isDigit.mkNot, here])
      let next := (v.mul (.ofNat wide base)).add (d.zext (wide - 8))
      go rest next (digits ++ [isDigit]) (cases ++ [(here, v)]) (ends ++ [stop])
  let (last, digits, cases, ends) ← go (.range n) (.lit wide 0) [] [] []
  let (cases, ends) := match length with
    | none => (cases, ends)
    | some k =>
      let here := eq count (ofInt bits k)
      (cases ++ [(here, last)], ends ++ [all (digits ++ [here])])
  addConstraints [any ends]
  -- A number that is zero however many digits are read has no width to be cut to.
  if cases.all fun (_, v) => v.lit? == some 0 then raise .badAttribute
  let result := choose cases (.lit wide 0)
  let most := 2 ^ (if signed then bits - 1 else bits) - 1
  let value := mkIte (ult result (ofNat wide most)) (result.slice (bits - 1) 0) (ofNat bits most)
  return { valid, value, length := count }

def readMarked (base : Nat) (signed : Bool) (length : Option Int) (mark : String) : Exec Numeral := do
  let n := mark.length
  let rest := match length with
    | some 0 | none => none
    | some k => some (k - n)
  let num ← readDigits r (s.addInt n) base signed rest
  let valid ←
    if n = 0 then pure num.valid
    else do
      let found ← load r s { size := n }
      pure (.mkAnd (.eq found (.ofBytes (bytesOf mark))) num.valid)
  let zero ← word 0
  let value := if mark.startsWith "-" then zero.sub num.value else num.value
  return { valid, value, length := num.length.addInt n }

def readNumeral (base : Nat) (signed : Bool := true) (length : Option Int := none) : Exec Numeral := do
  if base < 2 || 36 < base then refuse .procedure "base should be in the range [2,36]"
  let marks := (if base = 16 then ["0x", "-0x", "+0x"] else []) ++ ["-", "+", ""]
  let nums ← marks.mapM (readMarked r s base signed length)
  let bits ← wordBits
  return {
    valid := .any (nums.map (·.valid))
    value := choose (nums.dropLast.map fun x => (x.valid, x.value)) ((nums.getLast?.map (·.value)).getD (.lit bits 0))
    length := choose (nums.map fun x => (x.valid, x.length)) (.lit bits 0) }

def atoi : Exec Bits := return (← readNumeral .memory s 10).value

def strtol (s endPtr base : Bits) : Exec Bits := do
  let a ← arch
  if base.symbolic then
    let v ← eval base
    addConstraints [eqNat base v]
  let storeEnd (n : Bits) : Exec Unit := do
    poke endPtr (s.add n) { condition := nonzero endPtr, endness := a.endness }
  match ← eval base with
  | 0 =>
    let starts (t : String) : Exec Cond := do
      return eq (← load .memory s { size := t.length }) (ofBytes (bytesOf t))
    let hex := any [← starts "0x", ← starts "+0x", ← starts "-0x"]
    let octal := mkAnd (any [← starts "0", ← starts "+0", ← starts "-0"]) hex.mkNot
    let decimal := mkAnd hex.mkNot octal.mkNot
    let nums ← [(hex, 16), (decimal, 10), (octal, 8)].mapM fun (c, b) => do
      let n ← readNumeral .memory s b
      return { n with valid := mkAnd n.valid c }
    let value := choose (nums.map fun n => (n.valid, n.value)) (.lit a.bits 0)
    storeEnd (choose (nums.map fun n => (n.valid, n.length)) (.lit a.bits 0))
    return value
  | b =>
    let n ← readNumeral .memory s b
    storeEnd n.length
    return mkIte n.valid n.value (.lit a.bits 0)

end Exec

structure Directive where
  text : String
  width : Option Nat
  size : Nat
  signed : Bool

def Directive.conversion (d : Directive) : Char := (d.text.toList.getLast?.getD ' ').toLower

inductive FormatPiece where
  | bytes (s : String)
  | unknown (b : Bits)
  | directive (d : Directive)

namespace Format

/-- The type that a conversion is given: a type, two words that are none, or nothing. -/
inductive ArgType where
  | named (s : String)
  | words (a b : String)
  | none

def ArgType.shown : ArgType → String
  | .named s => "'" ++ s ++ "'"
  | .words a b => "('" ++ a ++ "', '" ++ b ++ "')"
  | .none => "None"

def lengthMarks : List (String × ArgType × ArgType) := [
  ("hh", .named "char", .named "uint8_t"), ("h", .named "int16_t", .named "uint16_t"),
  ("l", .named "long", .words "unsigned" "long"), ("ll", .named "int64_t", .named "uint64_t"),
  ("j", .named "int64_t", .named "uint64_t"), ("z", .named "ssize", .named "size_t"),
  ("t", .named "ptrdiff_t", .named "ptrdiff_t")]

def conversions : List (String × ArgType) :=
  lengthMarks.flatMap (fun (m, s, u) =>
    ["d", "i"].map (fun c => (m ++ c, s)) ++ ["o", "u", "x", "X"].map (fun c => (m ++ c, u))) ++
  ["d", "i"].map (fun c => (c, .named "int")) ++ ["o", "u", "x", "X"].map (fun c => (c, .named "unsigned int")) ++
  ["e", "E", "f", "F", "g", "G", "a", "A"].map (fun c => (c, .named "double")) ++
  [("c", .named "char"), ("s", .named "char*"), ("p", .named "uintptr_t"), ("n", .named "uintptr_t"), ("m", .none), ("%", .none)]

variable (a : Arch)

def argSize (t : ArgType) : Try (Nat × Bool) :=
  let unknown := .because .procedure ("format specifier uses unknown type '" ++ t.shown ++ "'")
  match t with
  | .named n =>
    match TypeNames.initial.parseType n true with
    | .ok (c, names) =>
      match c.size names.structs (some a) with
      | .ok (some k) => .ok ((k / 8).toNat, c.signed?.getD false)
      | _ => .error unknown
    | .error _ => .error unknown
  | _ => .error unknown

def directive? (s : String) : Try (Option Directive) := do
  let digits := s.toList.takeWhile Char.isDigit
  let rest := String.ofList (s.toList.drop digits.length)
  -- A text of digits only has no end at which they would be taken off.
  let (digits, rest) := if rest.isEmpty then ([], s) else (digits, rest)
  let some (c, t) := conversions.find? fun (c, _) => rest.startsWith c | return none
  let (size, signed) ← argSize a t
  return some { text := String.ofList digits ++ c, width := (String.ofList digits).toNat?, size, signed }

def pieces : Nat → List (Char ⊕ Bits) → Try (List FormatPiece)
  | 0, _ => .ok []
  | _, [] => .ok []
  | fuel + 1, .inr b :: rest => do return .unknown b :: (← pieces fuel rest)
  | fuel + 1, .inl c :: rest => do
    if c ≠ '%' then return .bytes c.toString :: (← pieces fuel rest)
    let ahead := (rest.map fun | .inl c => some c | .inr _ => none).takeWhile Option.isSome
    match ← directive? a (String.ofList (ahead.filterMap id)) with
    | some d => return .directive d :: (← pieces fuel (rest.drop d.text.length))
    -- The character after a mark that starts no directive is passed over.
    | none => return .bytes "%" :: (← pieces fuel (rest.drop 1))

def octal (n : Nat) : String := if n = 0 then "" else String.ofList (Nat.toDigits 8 n)

end Format

namespace Exec

def readFormat (ptr : Bits) : Exec (List FormatPiece) := do
  if ptr.symbolic then refuse .procedure "Symbolic pointer to (format) string :("
  let n := (← strlen ptr).length
  let n ←
    if n.symbolic then do
      match ← values n 2 with
      | [v] => pure v
      | _ => refuse .procedure "Symbolic (format) string, game over :("
    else eval n
  if n = 0 then return [.bytes ""]
  let text ← load .memory ptr { size := n }
  let chars ← (text.chop 8).mapM fun b => do
    match ← values b 2 with
    | [v] => return (Sum.inl (Char.ofNat v) : Char ⊕ Bits)
    | _ => return .inr b
  ofExcept (Format.pieces (← arch) (chars.length + 1) chars)

def printInteger (d : Directive) (arg : Bits) : Exec String := do
  let wide := 8 * d.size
  let n := Word.trunc wide (← eval arg)
  let i := if d.signed then Word.toInt wide n else n
  match d.conversion with
  | 'd' | 'u' => return toString i
  | 'c' => return textOf [(Word.ofInt 8 i).toUInt8]
  | 'x' => return hexDigits n
  | 'o' => return Format.octal n
  | 'p' => return hexText n
  | c => refuse .procedure ("Unimplemented format specifier '" ++ c.toString ++ "'")

variable (ps : List FormatPiece)

def printFormat (first : Nat) (arg : Nat → Exec Bits) : Exec (Option Bits) := do
  let add (out : Option Bits) (b : Bits) := some ((out.map fun o => o.concat b).getD b)
  let (out, _) ← ps.foldlM (fun (out, i) p => do
    match p with
    | .bytes s => return (add out (.ofBytes (bytesOf s)), i)
    | .unknown b => return (add out b, i)
    | .directive d =>
      let v ← arg i
      if d.conversion = 's' then
        let n := (← strlen v).length
        if (← greatest n) = 0 then return (out, i + 1)
        return (add out (← load .memory v { size := some (.bits n) }), i + 1)
      return (add out (.ofBytes (bytesOf (← printInteger d v))), i + 1)) ((none : Option Bits), first)
  return out

structure Scan where
  pos : Bits
  next : Nat
  failed : Bits

def wordEnds : List Nat := [0x09, 0x0a, 0x0b, 0x0d, 0x20]

variable (r : Region)

/-- Scans a word: all up to the end of the line, in which no blank may stand. -/
def scanWord (d : Directive) (dest : Option Bits) (pos : Bits) : Exec Bits := do
  let l ← libc
  let most := d.width.getD l.maxStrLen
  let found ← find r pos (.lit 8 0x0a) most (some (d.width.getD l.bufSymbolicBytes))
  let stop := if found.offsets.isEmpty then pos.addInt most
    else .mkIte (.eqNat found.addr 0) (pos.addInt most) found.addr
  let n ← greatest (stop.sub pos)
  let text ← load r pos { size := n }
  wordEnds.forM fun e => (List.range n).forM fun i => do
    let b ← load r (pos.addInt i) { size := some (.num 1) }
    addConstraints [mkNot (.eqNat b e)]
  let p ← orRaise dest .badAttribute
  poke p text
  poke (p.addInt n) (.lit 8 0)
  return pos.addInt n

def scanDirective (d : Directive) (dest : Option Bits) (s : Scan) : Exec Scan := do
  let a ← arch
  if d.conversion = 's' then return { s with pos := ← scanWord r d dest s.pos, next := s.next + 1 }
  let (value, pos, failed) ← match d.conversion with
    | 'd' | 'u' | 'x' => do
      let n ← readNumeral r s.pos (if d.conversion = 'x' then 16 else 10) true (d.width.map Int.ofNat)
      pure (n.value, s.pos.add n.length, .mkIte n.valid s.failed (s.failed.addInt 1))
    | 'c' => do
      let b ← load r s.pos { size := some (.num 1) }
      pure (b.zext (a.bits - 8), s.pos.addInt 1, s.failed)
    | c => refuse .procedure ("unsupported format spec '" ++ c.toString ++ "' in interpret")
  if value.width < 8 * d.size then raise .badTerm
  let p ← orRaise dest .badAttribute
  poke p (value.slice (8 * d.size - 1) 0) { size := d.size, endness := a.endness }
  return { pos, next := s.next + 1, failed }

def scanFormat (start : Bits) (first : Nat) (arg : Nat → Exec Bits) : Exec (Bits × Bits) := do
  let bits ← wordBits
  let s ← ps.foldlM (fun s p => do
    match p with
    | .bytes _ => return s
    | .unknown _ => raise .badAttribute
    | .directive d =>
      let dest ← handling .procedureArgument (some <$> arg s.next) (return none)
      scanDirective r d dest s) { pos := start, next := first, failed := .lit bits 0 }
  return (s.pos, (ofNat bits (s.next - first)).sub s.failed)

end Exec

end SymExec
