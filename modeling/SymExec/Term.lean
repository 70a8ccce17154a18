import SymExec.Word
import Std.Data.HashSet

/-!
# Terms

Bit vectors, conditions and floating point numbers over named symbols.
-/

namespace SymExec

/-! ### Operators -/

inductive UnOp where
  | not
  | neg
  | reverse
  | slice (hi lo : Nat)
  | zext (n : Nat)
  | sext (n : Nat)
deriving DecidableEq, Hashable

inductive BinOp where
  | add | sub | mul | udiv | urem | sdiv | srem | and | or | xor | shl | lshr | ashr | rotl | rotr | concat
deriving DecidableEq, Hashable

inductive CmpOp where
  | eq | ult | ule | slt | sle
deriving DecidableEq, Hashable

inductive FloatSort where
  | single | double
deriving DecidableEq, Hashable

def FloatSort.bits : FloatSort → Nat
  | .single => 32
  | .double => 64

def FloatSort.ofBits? : Nat → Option FloatSort
  | 32 => some .single
  | 64 => some .double
  | _ => none

inductive Rounding where
  | nearestEven | nearestAway | up | down | zero
deriving DecidableEq, Hashable

inductive FloatUnOp where
  | neg | abs
  | cast (sort : FloatSort)
deriving DecidableEq, Hashable

inductive FloatBinOp where
  | add | sub | mul | div
deriving DecidableEq, Hashable

inductive FloatCmp where
  | eq | lt | le
deriving DecidableEq, Hashable

inductive FloatOfBits where
  | pattern
  | signed
  | unsigned
deriving DecidableEq, Hashable

inductive FloatToBits where
  | pattern
  | integer (mode : Rounding) (signed : Bool) (width : Nat)
deriving DecidableEq, Hashable

/-! ### The three kinds of term -/

def UnOp.width : UnOp → Nat → Nat
  | .not, w | .neg, w | .reverse, w => w
  | .slice hi lo, _ => hi + 1 - lo
  | .zext n, w | .sext n, w => w + n

def BinOp.width : BinOp → Nat → Nat → Nat
  | .concat, w, v => w + v
  | _, w, _ => w

def FloatUnOp.sort : FloatUnOp → FloatSort → FloatSort
  | .cast s, _ => s
  | _, s => s

def FloatToBits.width : FloatToBits → FloatSort → Nat
  | .pattern, s => s.bits
  | .integer _ _ w, _ => w

mutual

inductive Bits where
  | lit (w v : Nat)
  | sym (name : String) (w : Nat)
  | un (op : UnOp) (a : Bits)
  | bin (op : BinOp) (a b : Bits)
  | ite (c : Cond) (a b : Bits)
  | ofFloat (how : FloatToBits) (f : Flt)
with
  @[computed_field] width : Bits → Nat
    | .lit w _ => w
    | .sym _ w => w
    | .un op a => op.width a.width
    | .bin op a b => op.width a.width b.width
    | .ite _ a _ => a.width
    | .ofFloat how f => how.width f.sort
  @[computed_field] hash : Bits → UInt64
    | .lit w v => mixHash 3 (mixHash (Hashable.hash w) (Hashable.hash v))
    | .sym n w => mixHash 5 (mixHash (Hashable.hash n) (Hashable.hash w))
    | .un op a => mixHash 7 (mixHash (Hashable.hash op) a.hash)
    | .bin op a b => mixHash 11 (mixHash (Hashable.hash op) (mixHash a.hash b.hash))
    | .ite c a b => mixHash 13 (mixHash c.hash (mixHash a.hash b.hash))
    | .ofFloat how f => mixHash 17 (mixHash (Hashable.hash how) f.hash)
  @[computed_field] symbolic : Bits → Bool
    | .lit .. => false
    | .sym .. => true
    | .un _ a => a.symbolic
    | .bin _ a b => a.symbolic || b.symbolic
    | .ite c a b => c.symbolic || (a.symbolic || b.symbolic)
    | .ofFloat _ f => f.symbolic

inductive Cond where
  | lit (b : Bool)
  | cmp (op : CmpOp) (a b : Bits)
  | fcmp (op : FloatCmp) (a b : Flt)
  | not (a : Cond)
  | and (a b : Cond)
  | or (a b : Cond)
with
  @[computed_field] hash : Cond → UInt64
    | .lit b => mixHash 19 (Hashable.hash b)
    | .cmp op a b => mixHash 23 (mixHash (Hashable.hash op) (mixHash a.hash b.hash))
    | .fcmp op a b => mixHash 29 (mixHash (Hashable.hash op) (mixHash a.hash b.hash))
    | .not a => mixHash 31 a.hash
    | .and a b => mixHash 37 (mixHash a.hash b.hash)
    | .or a b => mixHash 41 (mixHash a.hash b.hash)
  @[computed_field] symbolic : Cond → Bool
    | .lit _ => false
    | .cmp _ a b => a.symbolic || b.symbolic
    | .fcmp _ a b => a.symbolic || b.symbolic
    | .not a => a.symbolic
    | .and a b => a.symbolic || b.symbolic
    | .or a b => a.symbolic || b.symbolic

inductive Flt where
  /-- A constant, held in double precision whatever its format: a single is rounded when it is written as bits. -/
  | lit (s : FloatSort) (bits : UInt64)
  | ofBits (how : FloatOfBits) (s : FloatSort) (a : Bits)
  | un (op : FloatUnOp) (a : Flt)
  | bin (op : FloatBinOp) (a b : Flt)
  | ite (c : Cond) (a b : Flt)
with
  @[computed_field] sort : Flt → FloatSort
    | .lit s _ => s
    | .ofBits _ s _ => s
    | .un op a => op.sort a.sort
    | .bin _ a _ => a.sort
    | .ite _ a _ => a.sort
  @[computed_field] hash : Flt → UInt64
    | .lit s b => mixHash 43 (mixHash (Hashable.hash s) b)
    | .ofBits how s a => mixHash 47 (mixHash (Hashable.hash how) (mixHash (Hashable.hash s) a.hash))
    | .un op a => mixHash 53 (mixHash (Hashable.hash op) a.hash)
    | .bin op a b => mixHash 59 (mixHash (Hashable.hash op) (mixHash a.hash b.hash))
    | .ite c a b => mixHash 61 (mixHash c.hash (mixHash a.hash b.hash))
  @[computed_field] symbolic : Flt → Bool
    | .lit .. => false
    | .ofBits _ _ a => a.symbolic
    | .un _ a => a.symbolic
    | .bin _ a b => a.symbolic || b.symbolic
    | .ite c a b => c.symbolic || (a.symbolic || b.symbolic)

end

instance : Inhabited Bits := ⟨.lit 0 0⟩
instance : Inhabited Cond := ⟨.lit true⟩
instance : Inhabited Flt := ⟨.lit .double 0⟩
instance : Hashable Bits := ⟨Bits.hash⟩
instance : Hashable Cond := ⟨Cond.hash⟩
instance : Hashable Flt := ⟨Flt.hash⟩

/-! ### Equality -/

def Bits.kind : Bits → Nat
  | .lit .. => 0
  | .sym .. => 1
  | .un .. => 2
  | .bin .. => 3
  | .ite .. => 4
  | .ofFloat .. => 5

def Cond.kind : Cond → Nat
  | .lit _ => 0
  | .cmp .. => 1
  | .fcmp .. => 2
  | .not _ => 3
  | .and .. => 4
  | .or .. => 5

def Flt.kind : Flt → Nat
  | .lit .. => 0
  | .ofBits .. => 1
  | .un .. => 2
  | .bin .. => 3
  | .ite .. => 4

mutual

/-- Equality of bit vectors; the stored hashes tell most different terms apart at once. -/
def Bits.decEq (a b : Bits) : Decidable (a = b) :=
  withPtrEqDecEq a b fun _ =>
    if h : a.hash = b.hash ∧ a.kind = b.kind then
      match a, b, h.2 with
      | .lit w v, .lit w' v', _ => decidable_of_iff (w = w' ∧ v = v') (by simp)
      | .sym n w, .sym n' w', _ => decidable_of_iff (n = n' ∧ w = w') (by simp)
      | .un o x, .un o' x', _ =>
        have := Bits.decEq x x'
        decidable_of_iff (o = o' ∧ x = x') (by simp)
      | .bin o x y, .bin o' x' y', _ =>
        have := Bits.decEq x x'
        have := Bits.decEq y y'
        decidable_of_iff (o = o' ∧ x = x' ∧ y = y') (by simp)
      | .ite c x y, .ite c' x' y', _ =>
        have := Cond.decEq c c'
        have := Bits.decEq x x'
        have := Bits.decEq y y'
        decidable_of_iff (c = c' ∧ x = x' ∧ y = y') (by simp)
      | .ofFloat k f, .ofFloat k' f', _ =>
        have := Flt.decEq f f'
        decidable_of_iff (k = k' ∧ f = f') (by simp)
    else isFalse fun e => h (e ▸ ⟨rfl, rfl⟩)

def Cond.decEq (a b : Cond) : Decidable (a = b) :=
  withPtrEqDecEq a b fun _ =>
    if h : a.hash = b.hash ∧ a.kind = b.kind then
      match a, b, h.2 with
      | .lit x, .lit x', _ => decidable_of_iff (x = x') (by simp)
      | .cmp o x y, .cmp o' x' y', _ =>
        have := Bits.decEq x x'
        have := Bits.decEq y y'
        decidable_of_iff (o = o' ∧ x = x' ∧ y = y') (by simp)
      | .fcmp o x y, .fcmp o' x' y', _ =>
        have := Flt.decEq x x'
        have := Flt.decEq y y'
        decidable_of_iff (o = o' ∧ x = x' ∧ y = y') (by simp)
      | .not x, .not x', _ =>
        have := Cond.decEq x x'
        decidable_of_iff (x = x') (by simp)
      | .and x y, .and x' y', _ =>
        have := Cond.decEq x x'
        have := Cond.decEq y y'
        decidable_of_iff (x = x' ∧ y = y') (by simp)
      | .or x y, .or x' y', _ =>
        have := Cond.decEq x x'
        have := Cond.decEq y y'
        decidable_of_iff (x = x' ∧ y = y') (by simp)
    else isFalse fun e => h (e ▸ ⟨rfl, rfl⟩)

def Flt.decEq (a b : Flt) : Decidable (a = b) :=
  withPtrEqDecEq a b fun _ =>
    if h : a.hash = b.hash ∧ a.kind = b.kind then
      match a, b, h.2 with
      | .lit s v, .lit s' v', _ => decidable_of_iff (s = s' ∧ v = v') (by simp)
      | .ofBits k s x, .ofBits k' s' x', _ =>
        have := Bits.decEq x x'
        decidable_of_iff (k = k' ∧ s = s' ∧ x = x') (by simp)
      | .un o x, .un o' x', _ =>
        have := Flt.decEq x x'
        decidable_of_iff (o = o' ∧ x = x') (by simp)
      | .bin o x y, .bin o' x' y', _ =>
        have := Flt.decEq x x'
        have := Flt.decEq y y'
        decidable_of_iff (o = o' ∧ x = x' ∧ y = y') (by simp)
      | .ite c x y, .ite c' x' y', _ =>
        have := Cond.decEq c c'
        have := Flt.decEq x x'
        have := Flt.decEq y y'
        decidable_of_iff (c = c' ∧ x = x' ∧ y = y') (by simp)
    else isFalse fun e => h (e ▸ ⟨rfl, rfl⟩)

end

instance : DecidableEq Bits := Bits.decEq
instance : DecidableEq Cond := Cond.decEq
instance : DecidableEq Flt := Flt.decEq

/-! ## The meaning of terms

A model gives every symbol a number, read modulo the width at which the symbol is used. -/

open Word

namespace Ieee

/-! ### Binary floating point numbers -/

inductive Parts where
  | nan
  | inf (neg : Bool)
  | finite (neg : Bool) (mant : Nat) (exp : Int)

/-- Takes a pattern with `e` exponent bits and `f` fraction bits apart. -/
def decodeFormat (e f : Nat) (v : Nat) : Parts :=
  let neg := v.testBit (e + f)
  let ex := (v >>> f) % 2 ^ e
  let frac := v % 2 ^ f
  let bias := 2 ^ (e - 1) - 1
  if ex = 2 ^ e - 1 then (if frac = 0 then .inf neg else .nan)
  else if ex = 0 then .finite neg frac (1 - bias - f)
  else .finite neg (frac + 2 ^ f) (ex - bias - f)

variable (bits : UInt64)

def decode : Parts := decodeFormat 11 52 bits.toNat

/-- `m / 2 ^ k` rounded to the nearest integer, a half to the even one. -/
def halfEven (m k : Nat) : Nat :=
  let q := m >>> k
  let r := m % 2 ^ k
  let half := if k = 0 then 1 else 2 ^ (k - 1)
  if r > half || (r = half && q % 2 = 1) then q + 1 else q

/-- The pattern nearest to `mant * 2 ^ exp` in a format of `e` exponent and `f` fraction bits; what is too large
becomes an infinity. -/
def encodeFormat (e f : Nat) (neg : Bool) (mant : Nat) (exp : Int) : Nat :=
  let sign := if neg then 2 ^ (e + f) else 0
  if mant = 0 then sign else
  let bias := 2 ^ (e - 1) - 1
  let top := exp + mant.log2
  let unit := max (top - f) (1 - bias - f)
  let scaled := if exp ≥ unit then mant <<< (exp - unit).toNat else halfEven mant (unit - exp).toNat
  -- a carry out of the fraction moves into the exponent field by itself
  let field := (unit + bias + f - 1).toNat
  let v := field * 2 ^ f + scaled
  sign + (if v ≥ (2 ^ e - 1) * 2 ^ f then (2 ^ e - 1) * 2 ^ f else v)

def narrow : Nat :=
  match decode bits with
  | .nan =>
    let v := bits.toNat
    ((v >>> 63) <<< 31) + 0xff * 2 ^ 23 + ((v >>> 29) % 2 ^ 23 ||| 2 ^ 22)
  | .inf neg => (if neg then 2 ^ 31 else 0) + 0xff * 2 ^ 23
  | .finite neg m e => encodeFormat 8 23 neg m e

def widen (v : Nat) : UInt64 :=
  match decodeFormat 8 23 v with
  | .nan => (((v >>> 31) <<< 63) + 0x7ff * 2 ^ 52 + ((v % 2 ^ 23) <<< 29 ||| 2 ^ 51)).toUInt64
  | .inf neg => ((if neg then 2 ^ 63 else 0) + 0x7ff * 2 ^ 52).toUInt64
  | .finite neg m e => (encodeFormat 11 52 neg m e).toUInt64

variable (s : FloatSort)

def pattern (bits : UInt64) : Nat :=
  match s with
  | .single => narrow bits
  | .double => bits.toNat

def ofPattern (v : Nat) : UInt64 :=
  match s with
  | .single => widen (v % 2 ^ 32)
  | .double => v.toUInt64

def ofInt (i : Int) : UInt64 := (encodeFormat 11 52 (i < 0) i.natAbs 0).toUInt64

variable (mode : Rounding)

def roundMagnitude (neg : Bool) (m : Nat) (e : Int) : Nat :=
  if e ≥ 0 then m <<< e.toNat else
  let k := (-e).toNat
  let q := m >>> k
  let inexact := m % 2 ^ k != 0
  match mode with
  | .nearestEven => halfEven m k
  | .nearestAway => if inexact then q + 1 else q
  | .up => if inexact && !neg then q + 1 else q
  | .down => if inexact && neg then q + 1 else q
  | .zero => q

def toInt? (bits : UInt64) : Option Int :=
  match decode bits with
  | .nan | .inf _ => none
  | .finite neg m e =>
    let q := roundMagnitude mode neg m e
    some (if neg then -(q : Int) else q)

def isNaN : Bool :=
  match decode bits with
  | .nan => true
  | _ => false

def FloatUnOp.apply : FloatUnOp → UInt64 → UInt64
  | .neg, v => v ^^^ 0x8000000000000000
  | .abs, v => v &&& 0x7fffffffffffffff
  | .cast _, v => v

def FloatBinOp.apply (op : FloatBinOp) (a b : UInt64) : UInt64 :=
  let x := Float.ofBits a
  let y := Float.ofBits b
  match op with
  | .add => (x + y).toBits
  | .sub => (x - y).toBits
  | .mul => (x * y).toBits
  | .div => (x / y).toBits

def FloatCmp.apply (op : FloatCmp) (a b : UInt64) : Bool :=
  let x := Float.ofBits a
  let y := Float.ofBits b
  match op with
  | .eq => x == y
  | .lt => x < y
  | .le => x ≤ y

end Ieee

abbrev Model := String → Nat

def UnOp.apply : UnOp → Nat → Nat → Nat
  | .not, w, v => Word.not w v
  | .neg, w, v => Word.neg w v
  | .reverse, w, v => reverseBytes (w / 8) v
  | .slice hi lo, _, v => Word.slice hi lo v
  | .zext _, _, v => v
  | .sext n, w, v => Word.sext w n v

def BinOp.apply (op : BinOp) (w wb a b : Nat) : Nat :=
  match op with
  | .add => Word.add w a b
  | .sub => Word.sub w a b
  | .mul => Word.mul w a b
  | .udiv => Word.udiv w a b
  | .urem => Word.urem a b
  | .sdiv => Word.sdiv w a b
  | .srem => Word.srem w a b
  | .and => a &&& b
  | .or => a ||| b
  | .xor => a ^^^ b
  | .shl => Word.shl w a b
  | .lshr => Word.lshr w a b
  | .ashr => Word.ashr w a b
  | .rotl => Word.rotl w a b
  | .rotr => Word.rotr w a b
  | .concat => a <<< wb ||| b

def CmpOp.apply (op : CmpOp) (w a b : Nat) : Bool :=
  match op with
  | .eq => a == b
  | .ult => decide (a < b)
  | .ule => decide (a ≤ b)
  | .slt => decide (toInt w a < toInt w b)
  | .sle => decide (toInt w a ≤ toInt w b)

def FloatOfBits.apply (how : FloatOfBits) (s : FloatSort) (w v : Nat) : UInt64 :=
  match how with
  | .pattern => Ieee.ofPattern s v
  | .signed => Ieee.ofInt (toInt w v)
  | .unsigned => Ieee.ofInt v

def FloatToBits.apply (how : FloatToBits) (s : FloatSort) (v : UInt64) : Nat :=
  match how with
  | .pattern => Ieee.pattern s v
  | .integer mode _ w => ofInt w ((Ieee.toInt? mode v).getD 0)

mutual

def Bits.eval (m : Model) : Bits → Nat
  | .lit w v => trunc w v
  | .sym n w => trunc w (m n)
  | .un op a => op.apply a.width (a.eval m)
  | .bin op a b => op.apply a.width b.width (a.eval m) (b.eval m)
  | .ite c a b => bif c.eval m then a.eval m else b.eval m
  | .ofFloat how f => how.apply f.sort (f.eval m)

def Cond.eval (m : Model) : Cond → Bool
  | .lit b => b
  | .cmp op a b => op.apply a.width (a.eval m) (b.eval m)
  | .fcmp op a b => Ieee.FloatCmp.apply op (a.eval m) (b.eval m)
  | .not a => !a.eval m
  | .and a b => a.eval m && b.eval m
  | .or a b => a.eval m || b.eval m

def Flt.eval (m : Model) : Flt → UInt64
  | .lit _ v => v
  | .ofBits how s a => how.apply s a.width (a.eval m)
  | .un op a => Ieee.FloatUnOp.apply op (a.eval m)
  | .bin op a b => Ieee.FloatBinOp.apply op (a.eval m) (b.eval m)
  | .ite c a b => bif c.eval m then a.eval m else b.eval m

end

end SymExec

/-! ## Building terms

Constructors that fold constants and a few identities. -/

namespace SymExec

open Word

namespace Bits

def ofNat (w v : Nat) : Bits := .lit w (trunc w v)

def ofInt (w : Nat) (i : Int) : Bits := .lit w (Word.ofInt w i)

def ofBytes (bs : List UInt8) : Bits := .lit (8 * bs.length) (Word.ofBytes bs)

def lit? : Bits → Option Nat
  | .lit _ v => some v
  | _ => none

def mkUn (op : UnOp) (a : Bits) : Bits :=
  match a with
  | .lit w v => .lit (op.width w) (op.apply w v)
  | _ => .un op a

def mkBin (op : BinOp) (a b : Bits) : Bits :=
  match a, b with
  | .lit w v, .lit w' v' => .lit (op.width w w') (op.apply w w' v v')
  | _, _ => .bin op a b

protected def not (a : Bits) : Bits :=
  match a with
  | .un .not b => b
  | _ => mkUn .not a

def neg (a : Bits) : Bits :=
  match a with
  | .un .neg b => b
  | _ => mkUn .neg a

/-- Adds a part at the low end, joined with the last part where both are constants or adjacent slices of one term. -/
def snoc (a b : Bits) : Bits :=
  match a, b with
  | .lit w v, .lit w' v' => .lit (w + w') (BinOp.concat.apply w w' v v')
  | .bin .concat p (.lit w v), .lit w' v' => .bin .concat p (.lit (w + w') (BinOp.concat.apply w w' v v'))
  | .un (.slice h l) x, .un (.slice h' l') y =>
    if l = h' + 1 ∧ x = y then (if l' = 0 ∧ h + 1 = x.width then x else .un (.slice h l') x)
    else .bin .concat a b
  | .bin .concat p (.un (.slice h l) x), .un (.slice h' l') y =>
    if l = h' + 1 ∧ x = y then .bin .concat p (if l' = 0 ∧ h + 1 = x.width then x else .un (.slice h l') x)
    else .bin .concat a b
  | _, _ => .bin .concat a b

def concat (a b : Bits) : Bits :=
  if a.width = 0 then b else
  match b with
  | .bin .concat b₁ b₂ => snoc (concat a b₁) b₂
  | _ => if b.width = 0 then a else snoc a b

def zext (n : Nat) (a : Bits) : Bits :=
  if n = 0 then a else
  match a with
  | .un (.zext k) b => .un (.zext (k + n)) b
  | _ => mkUn (.zext n) a

def sext (n : Nat) (a : Bits) : Bits := if n = 0 then a else mkUn (.sext n) a

def reverse (a : Bits) : Bits :=
  if a.width ≤ 8 then a else
  match a with
  | .un .reverse b => b
  | .bin .concat x y => if x.width % 8 = 0 ∧ y.width % 8 = 0 then concat (reverse y) (reverse x) else .un .reverse a
  | .ite c (.lit w v) (.lit w' v') => .ite c (.lit w (UnOp.reverse.apply w v)) (.lit w' (UnOp.reverse.apply w' v'))
  | _ => mkUn .reverse a

def slice (hi lo : Nat) (a : Bits) : Bits :=
  if lo = 0 ∧ hi + 1 = a.width then a else
  match a with
  | .un (.slice _ l) b => .un (.slice (hi + l) (lo + l)) b
  | .un (.zext n) b =>
    if hi < b.width then slice hi lo b
    else if b.width ≤ lo then .lit (hi + 1 - lo) 0
    else if hi + 1 = b.width + n ∧ lo = 0 then a
    else zext (hi + 1 - b.width) (slice (b.width - 1) lo b)
  | .un (.sext n) b => if hi < b.width then slice hi lo b else .un (.slice hi lo) (.un (.sext n) b)
  | .un .reverse b =>
    if lo % 8 = 0 ∧ (hi + 1) % 8 = 0 then reverse (slice (b.width - 1 - lo) (b.width - 1 - hi) b)
    else .un (.slice hi lo) a
  | .bin .concat x y =>
    if hi < y.width then slice hi lo y
    else if y.width ≤ lo then slice (hi - y.width) (lo - y.width) x
    else concat (slice (hi - y.width) 0 x) (slice (y.width - 1) lo y)
  | .bin .and x y => mkBin .and (slice hi lo x) (slice hi lo y)
  | .bin .or x y => mkBin .or (slice hi lo x) (slice hi lo y)
  | .bin .xor x y => mkBin .xor (slice hi lo x) (slice hi lo y)
  | .ite c (.lit _ v) (.lit _ v') =>
    let p := Word.slice hi lo v
    let q := Word.slice hi lo v'
    if p = q then .lit (hi + 1 - lo) p else .ite c (.lit (hi + 1 - lo) p) (.lit (hi + 1 - lo) q)
  | _ => mkUn (.slice hi lo) a

def add (a b : Bits) : Bits :=
  match a, b with
  | .lit w v, .lit _ v' => .lit w (Word.add w v v')
  | .lit _ 0, _ => b
  | _, .lit _ 0 => a
  | .bin .add x (.lit w v), .lit _ v' =>
    let s := Word.add w v v'
    if s = 0 then x else .bin .add x (.lit w s)
  | .lit _ v', .bin .add x (.lit w v) =>
    let s := Word.add w v v'
    if s = 0 then x else .bin .add x (.lit w s)
  | .lit _ _, _ => .bin .add b a
  | _, _ => .bin .add a b

def sub (a b : Bits) : Bits :=
  match b with
  | .lit w v => add a (.lit w (Word.neg w v))
  | _ => if a = b then .lit a.width 0 else mkBin .sub a b

def mul (a b : Bits) : Bits :=
  match a, b with
  | .lit w v, .lit _ v' => .lit w (Word.mul w v v')
  | .lit w 0, _ | _, .lit w 0 => .lit w 0
  | .lit _ 1, _ => b
  | _, .lit _ 1 => a
  | _, _ => .bin .mul a b

protected def and (a b : Bits) : Bits :=
  match a, b with
  | .lit w v, .lit _ v' => .lit w (v &&& v')
  | .lit w v, x | x, .lit w v => if v = 0 then .lit w 0 else if v = ones w then x else .bin .and x (.lit w v)
  | _, _ => if a = b then a else .bin .and a b

protected def or (a b : Bits) : Bits :=
  match a, b with
  | .lit w v, .lit _ v' => .lit w (v ||| v')
  | .lit w v, x | x, .lit w v => if v = 0 then x else .bin .or x (.lit w v)
  | _, _ => if a = b then a else .bin .or a b

protected def xor (a b : Bits) : Bits :=
  match a, b with
  | .lit w v, .lit _ v' => .lit w (v ^^^ v')
  | .lit w v, x | x, .lit w v => if v = 0 then x else .bin .xor x (.lit w v)
  | _, _ => if a = b then .lit a.width 0 else .bin .xor a b

def shift (op : BinOp) (a b : Bits) : Bits :=
  match b with
  | .lit _ 0 => a
  | _ => mkBin op a b

def shl (a b : Bits) : Bits := shift .shl a b
def lshr (a b : Bits) : Bits := shift .lshr a b
def ashr (a b : Bits) : Bits :=
  match a, b with
  | .lit w v, .lit _ n => .lit w (if n < w then Word.ashr w v n else 0)
  | _, _ => shift .ashr a b

def rotl (a b : Bits) : Bits := shift .rotl a b
def rotr (a b : Bits) : Bits := shift .rotr a b
def udiv (a b : Bits) : Bits := mkBin .udiv a b
def urem (a b : Bits) : Bits := mkBin .urem a b
def sdiv (a b : Bits) : Bits := mkBin .sdiv a b
def srem (a b : Bits) : Bits := mkBin .srem a b

def mkIte (c : Cond) (a b : Bits) : Bits :=
  match c with
  | .lit true => a
  | .lit false => b
  | _ => if a = b then a else .ite c a b

def ofCond (c : Cond) : Bits := mkIte c (.lit 1 1) (.lit 1 0)

def addInt (a : Bits) (i : Int) : Bits := add a (ofInt a.width i)

def concatList : List Bits → Bits
  | [] => .lit 0 0
  | a :: as => as.foldl concat a

def chop (n : Nat) (a : Bits) : List Bits :=
  let k := a.width / n
  (List.range k).map fun i => a.slice (n * (k - i) - 1) (n * (k - 1 - i))

end Bits

namespace Cond

def isTrue : Cond → Bool
  | .lit b => b
  | _ => false

def isFalse : Cond → Bool
  | .lit b => !b
  | _ => false

def mkNot (a : Cond) : Cond :=
  match a with
  | .lit b => .lit (!b)
  | .not b => b
  | .cmp .ult x y => .cmp .ule y x
  | .cmp .ule x y => .cmp .ult y x
  | .cmp .slt x y => .cmp .sle y x
  | .cmp .sle x y => .cmp .slt y x
  | _ => .not a

def mkAnd (a b : Cond) : Cond :=
  match a, b with
  | .lit true, c | c, .lit true => c
  | .lit false, _ | _, .lit false => .lit false
  | _, _ => if a = b then a else .and a b

def mkOr (a b : Cond) : Cond :=
  match a, b with
  | .lit false, c | c, .lit false => c
  | .lit true, _ | _, .lit true => .lit true
  | _, _ => if a = b then a else .or a b

def all (cs : List Cond) : Cond := cs.foldr mkAnd (.lit true)
def any (cs : List Cond) : Cond := cs.foldr mkOr (.lit false)

def mkIte (c a b : Cond) : Cond :=
  match c with
  | .lit true => a
  | .lit false => b
  | _ =>
    match a, b with
    | .lit true, .lit false => c
    | .lit false, .lit true => mkNot c
    | _, _ => if a = b then a else mkOr (mkAnd c a) (mkAnd (mkNot c) b)

def mkCmp (op : CmpOp) (a b : Bits) : Cond :=
  match a, b with
  | .lit w v, .lit _ v' => .lit (op.apply w v v')
  | _, _ => .cmp op a b

def lowBitsDiffer : Bits → Bits → Bool
  | .bin .concat _ (.lit w v), .lit _ v' => v != trunc w v'
  | .lit _ v', .bin .concat _ (.lit w v) => v != trunc w v'
  | .bin .concat _ (.lit w v), .bin .concat _ (.lit w' v') => trunc (min w w') v != trunc (min w w') v'
  | _, _ => false

/-- Equality with a constant: extensions, choices and the high part of a concatenation are taken apart. -/
def eqLit (a : Bits) (w v : Nat) : Cond :=
  match a with
  | .lit _ v' => .lit (v == v')
  | .un (.zext _) x => if trunc x.width v = v then eqLit x x.width v else .lit false
  | .un .reverse x => .cmp .eq x (.lit w (UnOp.reverse.apply w v))
  | .ite c (.lit _ p) (.lit _ q) => if p = v ∧ q ≠ v then c else if q = v ∧ p ≠ v then mkNot c else .cmp .eq a (.lit w v)
  | _ => if lowBitsDiffer a (.lit w v) then .lit false else .cmp .eq a (.lit w v)

def eq (a b : Bits) : Cond :=
  match a, b with
  | .lit w v, x | x, .lit w v => eqLit x w v
  | .un .reverse x, .un .reverse y => if x = y then .lit true else .cmp .eq x y
  | _, _ => if a = b then .lit true else if lowBitsDiffer a b then .lit false else .cmp .eq a b

variable (a b : Bits)

def ne : Cond := mkNot (eq a b)
def ult (a b : Bits) : Cond := mkCmp .ult a b
def ule (a b : Bits) : Cond := mkCmp .ule a b
def ugt : Cond := ult b a
def uge : Cond := ule b a
def slt (a b : Bits) : Cond := mkCmp .slt a b
def sle (a b : Bits) : Cond := mkCmp .sle a b
def sgt : Cond := slt b a
def sge : Cond := sle b a

def eqNat (a : Bits) (v : Nat) : Cond := eq a (.ofNat a.width v)

def nonzero (a : Bits) : Cond := ne a (.lit a.width 0)

def mkFcmp (op : FloatCmp) (a b : Flt) : Cond :=
  match a, b with
  | .lit _ v, .lit _ v' => .lit (Ieee.FloatCmp.apply op v v')
  | _, _ => .fcmp op a b

end Cond

namespace Flt

def mkOfBits (how : FloatOfBits) (s : FloatSort) (a : Bits) : Flt :=
  match how, a with
  | _, .lit w v => .lit s (how.apply s w v)
  | .pattern, .ofFloat .pattern f => if f.sort = s then f else .ofBits how s a
  | _, _ => .ofBits how s a

def toBits (how : FloatToBits) (f : Flt) : Bits :=
  match how, f with
  | _, .lit s v => .lit (how.width s) (how.apply s v)
  | .pattern, .ofBits .pattern _ a => a
  | _, _ => .ofFloat how f

def mkUn (op : FloatUnOp) (f : Flt) : Flt :=
  match f with
  | .lit s v => .lit (op.sort s) (Ieee.FloatUnOp.apply op v)
  | _ => .un op f

def mkBin (op : FloatBinOp) (f g : Flt) : Flt :=
  match f, g with
  | .lit s v, .lit _ v' => .lit s (Ieee.FloatBinOp.apply op v v')
  | _, _ => .bin op f g

def mkIte (c : Cond) (f g : Flt) : Flt :=
  match c with
  | .lit true => f
  | .lit false => g
  | _ => if f = g then f else .ite c f g

end Flt

/-! ### Symbols of terms -/

structure SymbolWalk where
  seen : Std.HashSet Bits := {}
  seenConds : Std.HashSet Cond := {}
  names : Std.HashSet String := {}
  found : Array String := #[]

mutual

def SymbolWalk.bits (w : SymbolWalk) (t : Bits) : SymbolWalk :=
  if !t.symbolic || w.seen.contains t then w else
  let w := { w with seen := w.seen.insert t }
  match t with
  | .lit .. => w
  | .sym n _ => if w.names.contains n then w else { w with names := w.names.insert n, found := w.found.push n }
  | .un _ a => w.bits a
  | .bin _ a b => (w.bits a).bits b
  | .ite c a b => ((w.cond c).bits a).bits b
  | .ofFloat _ f => w.flt f

def SymbolWalk.cond (w : SymbolWalk) (t : Cond) : SymbolWalk :=
  if !t.symbolic || w.seenConds.contains t then w else
  let w := { w with seenConds := w.seenConds.insert t }
  match t with
  | .lit _ => w
  | .cmp _ a b => (w.bits a).bits b
  | .fcmp _ a b => (w.flt a).flt b
  | .not a => w.cond a
  | .and a b | .or a b => (w.cond a).cond b

def SymbolWalk.flt (w : SymbolWalk) (t : Flt) : SymbolWalk :=
  match t with
  | .lit .. => w
  | .ofBits _ _ a => w.bits a
  | .un _ a => w.flt a
  | .bin _ a b => (w.flt a).flt b
  | .ite c a b => ((w.cond c).flt a).flt b

end

def Bits.symbols (t : Bits) : List String := (SymbolWalk.bits {} t).found.toList

def Cond.symbols (t : Cond) : List String := (SymbolWalk.cond {} t).found.toList

def Bits.rebuildUn : UnOp → Bits → Bits
  | .not, a => a.not
  | .neg, a => a.neg
  | .reverse, a => a.reverse
  | .slice hi lo, a => a.slice hi lo
  | .zext n, a => a.zext n
  | .sext n, a => a.sext n

def Bits.rebuildBin : BinOp → Bits → Bits → Bits
  | .add, a, b => a.add b
  | .sub, a, b => a.sub b
  | .mul, a, b => a.mul b
  | .and, a, b => a.and b
  | .or, a, b => a.or b
  | .xor, a, b => a.xor b
  | .concat, a, b => a.concat b
  | .ashr, a, b => a.ashr b
  | .shl, a, b => a.shl b
  | .lshr, a, b => a.lshr b
  | .rotl, a, b => a.rotl b
  | .rotr, a, b => a.rotr b
  | op, a, b => mkBin op a b

def Bits.mentionsAny (t : Bits) (ts : List Bits) : Bool :=
  !ts.isEmpty &&
    let w := SymbolWalk.bits {} t
    ts.any w.seen.contains

mutual

def Bits.replace (t : Bits) (old new : Bits) : Bits :=
  if t = old then new else
  match t with
  | .lit .. | .sym .. => t
  | .un op a => .rebuildUn op (a.replace old new)
  | .bin op a b => .rebuildBin op (a.replace old new) (b.replace old new)
  | .ite c a b => .mkIte (c.replace old new) (a.replace old new) (b.replace old new)
  | .ofFloat how f => Flt.toBits how (f.replace old new)

def Cond.replace (t : Cond) (old new : Bits) : Cond :=
  match t with
  | .lit _ => t
  | .cmp .eq a b => .eq (a.replace old new) (b.replace old new)
  | .cmp op a b => .mkCmp op (a.replace old new) (b.replace old new)
  | .fcmp op a b => .mkFcmp op (a.replace old new) (b.replace old new)
  | .not a => .mkNot (a.replace old new)
  | .and a b => .mkAnd (a.replace old new) (b.replace old new)
  | .or a b => .mkOr (a.replace old new) (b.replace old new)

def Flt.replace (t : Flt) (old new : Bits) : Flt :=
  match t with
  | .lit .. => t
  | .ofBits how s a => .mkOfBits how s (a.replace old new)
  | .un op a => .mkUn op (a.replace old new)
  | .bin op a b => .mkBin op (a.replace old new) (b.replace old new)
  | .ite c a b => .mkIte (c.replace old new) (a.replace old new) (b.replace old new)

end

end SymExec
