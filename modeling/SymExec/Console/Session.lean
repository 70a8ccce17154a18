import SymExec.Analysis.Backward
import SymExec.Console.Value
import SymExec.Flow.Scan.Block
import SymExec.Manager

/-!
# Sessions

A session runs steps on named states, one of which is current.
-/

namespace SymExec.Console

structure Reply where
  value : Value := .null
  shown : Option Data := none

instance : Coe Value Reply := ⟨fun v => { value := v }⟩

def give [Monad m] (v : Value) : m Reply := return v

def tell [Monad m] (d : Data) : m Reply := return { shown := some d }

structure Bench where
  manager : Manager := {}
  techniques : List (String × Technique) := []
  (tampered immutable : Bool := false)
  links : List (String × Nat) := []

structure Survey where
  flow : FlowGraph
  scan : Option Scan := none
  keepsStates : Bool := false

structure Session where
  world : World
  states : List (String × State) := []
  current : String := ""
  results : Array Value := #[]
  signature : Option Signature := none
  bench : Bench := {}
  knowledge : Knowledge := {}
  survey : Option Survey := none
  control : Option ControlDependence := none
  data : Option DataDependence := none

abbrev Step := EStateM Fault Session

namespace Step

def exec (act : Exec α) : Step α := fun s =>
  match act s.world with
  | .ok a w => .ok a { s with world := w }
  | .error f w => .error f { s with world := w }

instance : MonadLift Exec Step := ⟨exec⟩

instance {σ : Type} : MonadLift Try (EStateM Fault σ) := ⟨ofExcept⟩

variable (name : String)

def putState (st : State) : Step Unit := modify fun s =>
  if name = s.current then { s with world := { s.world with state := st } }
  else { s with states := (name, st) :: s.states.filter (·.1 != name) }

def state? : Step (Option State) := do
  let s ← get
  return if name = s.current then some s.world.state else s.states.lookup name

def use : Step Bool := do
  let s ← get
  if name = s.current then return true
  let some st := s.states.lookup name | return false
  set { s with
    world := { s.world with state := st }
    current := name
    states := (s.current, s.world.state) :: s.states.filter (·.1 != name) }
  return true

def program : Step Program := do orRaise (← get).world.program .badAttribute

def view (w : World) : Value.Viewer where
  bits b := match (Exec.oneValue? b).run w with | .ok v _ => v | .error .. => none
  cond c := match (Exec.oneTruth? c).run w with | .ok v _ => v | .error .. => none

def viewer : Step Value.Viewer := return view (← get).world

end Step

/-! ### Arguments -/

structure Args where
  pos : List Value
  kw : Fields := []

namespace Args

def arg (a : Args) (i : Nat) : Value := a.pos.getD i .null

def read (refs : Nat → Value) (ds : List Data) : Try Args := do
  let (ds, kw) := match ds.getLast? with
    | some (.obj [("kw", .obj fs)]) => (ds.dropLast, fs)
    | _ => (ds, [])
  return { pos := ← Value.ofDataList refs ds, kw := ← Value.ofDataFields refs kw }

def badCall : Fault := .of .badType

def bind (a : Args) (required : Nat) (params : String) : Try Fields := do
  let params := params.splitOn " "
  if a.pos.length > params.length then throw badCall
  if a.kw.any fun (k, _) => !params.contains k || (params.take a.pos.length).contains k then throw badCall
  let bound := params.zip a.pos ++ a.kw
  if (params.take required).any fun p => (bound.lookup p).isNone then throw badCall
  return bound

end Args

def arg (bound : Fields) (k : String) : Value := (bound.lookup k).getD .null

def checkNames (kw : Fields) (names : String) (k : FaultKind := .badType) : Try Unit := do
  if kw.any fun (n, _) => !(names.splitOn " ").contains n then raise k

end SymExec.Console

namespace SymExec.Value

variable (v : Value)

def quantity : Try Quantity := orRaise (Quantity.ofValue? v) .badType

def natural : Try Nat :=
  match v with
  | .int i => .ok i.toNat
  | .bool b => .ok b.toNat
  | .bits (.lit _ n) => .ok n
  | _ => raise .badType

def integer : Try Int :=
  match v with
  | .int i => .ok i
  | .bool b => .ok b.toNat
  | _ => raise .badType

def truth : Value → Bool
  | .null => false
  | .bool b => b
  | .int i => i != 0
  | .str s => !s.isEmpty
  | .list xs | .tuple xs | .set xs => !xs.isEmpty
  | .dict fs => !fs.isEmpty
  | _ => true

def items : Value → List Value
  | .list xs | .tuple xs | .set xs => xs
  | _ => []

def int? : Value → Option Int
  | .int i => some i
  | _ => none

def str? : Value → Option String
  | .str s => some s
  | _ => none

def text : Try String := orRaise v.str? .badType

def given? : Option Value := if v.isNull then none else some v

def truthOr (usual : Bool) (v : Value) : Bool := (v.given?.map truth).getD usual

def conds (vs : List Value) : Try (List Cond) := vs.mapM toCond

def opt (f : α → Value) (x : Option α) : Value := (x.map f).getD .null

def optional (f : Value → Try α) (v : Value) : Try (Option α) :=
  match v with
  | .null => .ok none
  | v => some <$> f v

def endness : Value → Option Endness
  | .null => none
  | .str "Iend_LE" => some .little
  | _ => some .big

end SymExec.Value
