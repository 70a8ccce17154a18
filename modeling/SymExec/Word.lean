/-!
# Machine words

Arithmetic on natural numbers read as words of a given width.
-/

-- powers and sums mean the same whatever else is imported
attribute [instance (2000), default_instance 20000] instPowNat

namespace SymExec.Word

instance (priority := 2000) zero : Zero Nat := ⟨0⟩
instance (priority := 2000) zeroInt : Zero Int := ⟨0⟩

variable (w v : Nat)

def trunc : Nat := v % 2 ^ w

def ones (w : Nat) : Nat := 2 ^ w - 1

def isNeg : Bool := w != 0 && v.testBit (w - 1)

def toInt : Int := if isNeg w v then (v : Int) - (2 ^ w : Nat) else (v : Int)

def ofInt (w : Nat) (i : Int) : Nat := (i % (2 ^ w : Nat)).toNat

variable (w a b : Nat)

def add : Nat := trunc w (a + b)
def neg (w a : Nat) : Nat := trunc w (2 ^ w - trunc w a)
def sub : Nat := trunc w (a + (2 ^ w - trunc w b))
def mul : Nat := trunc w (a * b)
def not (w a : Nat) : Nat := 2 ^ w - 1 - trunc w a

def udiv : Nat := if b = 0 then ones w else a / b

def urem (a b : Nat) : Nat := a % b

def sdiv : Nat := if b = 0 then (if isNeg w a then trunc w 1 else ones w) else ofInt w ((toInt w a).tdiv (toInt w b))

def srem : Nat := if b = 0 then a else ofInt w ((toInt w a).tmod (toInt w b))

variable (w a n : Nat)

def shl : Nat := if n < w then trunc w (a <<< n) else 0

def lshr : Nat := if n < w then a >>> n else 0

/-- Arithmetic right shift; an amount of `w` or more gives copies of the sign bit. -/
def ashr : Nat :=
  if isNeg w a then (if n < w then ones w - (ones w - a) >>> n else ones w)
  else lshr w a n

def rotl : Nat :=
  if w = 0 then 0 else
  let k := n % w
  trunc w (a <<< k) ||| (a >>> (w - k))

def rotr : Nat :=
  if w = 0 then 0 else
  let k := n % w
  (a >>> k) ||| trunc w (a <<< (w - k))

def slice (hi lo a : Nat) : Nat := trunc (hi + 1 - lo) (a >>> lo)

def sext (w n a : Nat) : Nat := if isNeg w a then a + (2 ^ (w + n) - 2 ^ w) else a

def reverseBytes : Nat → Nat → Nat
  | 0, _ => 0
  | n + 1, v => ((v % 256) <<< (8 * n)) + reverseBytes n (v / 256)

def toBytes (n v : Nat) : List UInt8 := (List.range n).map fun i => (v >>> (8 * (n - 1 - i))).toUInt8

def ofBytes (bs : List UInt8) : Nat := bs.foldl (fun v b => v * 256 + b.toNat) 0

end SymExec.Word
