import SymExec.Term
import SymExec.Fault

/-!
# Scalars and values

What an argument, an inspected attribute or a result can be: plain values, terms and containers of them.
-/

namespace SymExec

inductive Scalar where
  | bits (b : Bits)
  | flt (f : Flt)

namespace Scalar

def width : Scalar → Nat
  | .bits b => b.width
  | .flt f => f.sort.bits

def toBits : Scalar → Bits
  | .bits b => b
  | .flt f => f.toBits .pattern

/-- The value as a number; bits are taken for the pattern of the format of their width. -/
def toFlt? : Scalar → Option Flt
  | .bits b => (FloatSort.ofBits? b.width).map fun s => Flt.mkOfBits .pattern s b
  | .flt f => some f

def ite (c : Cond) (a b : Scalar) : Scalar :=
  match a, b with
  | .flt f, .flt g => .flt (.mkIte c f g)
  | _, _ => .bits (.mkIte c a.toBits b.toBits)

end Scalar

inductive Value where
  | null
  | bool (b : Bool)
  | int (i : Int)
  | str (s : String)
  | real (bits : UInt64)
  | bits (b : Bits)
  | cond (c : Cond)
  | flt (f : Flt)
  | list (xs : List Value)
  | tuple (xs : List Value)
  | set (xs : List Value)
  | dict (fields : List (String × Value))
  | pointer (v : Value)

abbrev Fields := List (String × Value)

namespace Value

def ofScalar : Scalar → Value
  | .bits b => .bits b
  | .flt f => .flt f

def scalar? : Value → Option Scalar
  | .bits b => some (.bits b)
  | .flt f => some (.flt f)
  | .cond c => some (.bits (.ofCond c))
  | _ => none

def ofNat (n : Nat) : Value := .int n

def ofNat? (n : Option Nat) : Value := (n.map ofNat).getD .null

def isNull : Value → Bool
  | .null => true
  | _ => false

def nat? : Value → Option Nat
  | .int (.ofNat n) => some n
  | .bool b => some b.toNat
  | .bits (.lit _ v) => some v
  | _ => none

def symbolic : Value → Bool
  | .bits b => b.symbolic
  | .cond c => c.symbolic
  | .flt f => f.symbolic
  | _ => false

end Value

/-! ### Texts of bytes -/

def bytesOf (s : String) : List UInt8 := s.toList.map fun c => c.toNat.toUInt8

def textOf (bs : List UInt8) : String := String.ofList (bs.map fun b => Char.ofNat b.toNat)

def hexDigits (n : Nat) : String := String.ofList (Nat.toDigits 16 n)

def hexText (n : Nat) : String := "0x" ++ hexDigits n

/-! ### Quantities -/

inductive Quantity where
  | num (n : Nat)
  | bits (b : Bits)
deriving DecidableEq

namespace Quantity

def symbolic : Quantity → Bool
  | .num _ => false
  | .bits b => b.symbolic

def toValue : Quantity → Value
  | .num n => .ofNat n
  | .bits b => .bits b

def toBits (w : Nat) : Quantity → Bits
  | .num n => .ofNat w n
  | .bits b => b

def nat? : Quantity → Option Nat
  | .num n => some n
  | .bits b => b.lit?

def ofValue? : Value → Option Quantity
  | .int i => some (.num i.toNat)
  | .bool b => some (.num b.toNat)
  | .bits b => some (.bits b)
  | _ => none

def eqNat (q : Quantity) (n : Nat) : Cond :=
  match q with
  | .num k => .lit (k == n)
  | .bits b => .eqNat b n

def addNat (q : Quantity) (n : Nat) : Quantity :=
  match q with
  | .num k => .num (k + n)
  | .bits b => .bits (b.addInt n)

def add : Quantity → Quantity → Quantity
  | .num a, .num b => .num (a + b)
  | .num a, .bits b => .bits (b.addInt a)
  | .bits a, .num b => .bits (a.addInt b)
  | .bits a, .bits b => .bits (a.add b)

end Quantity

instance : Coe Nat Quantity := ⟨.num⟩
instance : Coe Bits Quantity := ⟨.bits⟩

end SymExec
