import SymExec.Fault

/-!
# Hooked methods and plugins

A hub holds plugins by name.
-/

namespace SymExec

/-- What a hook, or the method itself, does with a call: it ends with a result or a fault, or calls the method again. -/
inductive Reaction (χ ρ : Type) where
  | done (r : Try ρ)
  | call (x : χ) (next : Try ρ → Reaction χ ρ)

structure HookedMethod (η χ : Type) where
  (pending pulled : List η := [])
  taken : List (Option η × χ) := []

namespace HookedMethod

variable {η χ ρ : Type} (m : HookedMethod η χ)

def pull (x : χ) : Option η × HookedMethod η χ :=
  match m.pending.getLast? with
  | some h => (some h, { pending := m.pending.dropLast, pulled := m.pulled ++ [h], taken := m.taken ++ [(some h, x)] })
  | none => (none, { m with taken := m.taken ++ [(none, x)] })

def restore : HookedMethod η χ := { m with pending := m.pending ++ m.pulled.reverse, pulled := [] }

def react (call : χ → HookedMethod η χ → Try ρ × HookedMethod η χ) :
    Reaction χ ρ → HookedMethod η χ → Try ρ × HookedMethod η χ
  | .done r, m => (r, m)
  | .call x next, m =>
    let (r, m) := call x m
    react call (next r) m

def invoke (hook : η → χ → Reaction χ ρ) (base : χ → Reaction χ ρ) : Nat → χ → HookedMethod η χ → Try ρ × HookedMethod η χ
  | 0, _, m => (raise .recursion, m)
  | fuel + 1, x, m =>
    let (h?, m) := m.pull x
    let body := match h? with
      | some h => hook h x
      | none => base x
    let (r, m) := react (invoke hook base fuel) body m
    (r, m.restore)

def install (h : η) : HookedMethod η χ := { m with pending := m.pending ++ [h] }

def remove [DecidableEq η] (m : HookedMethod η χ) (h : η) : HookedMethod η χ := { m with pending := m.pending.erase h }

end HookedMethod

structure Plugin where
  kind : String
  serial : Nat
deriving DecidableEq

def Plugin.text (p : Plugin) : String := p.kind ++ "#" ++ toString p.serial

abbrev PluginPreset := List (String × String)

structure PluginHub where
  keeps : Bool := true
  presets : Array PluginPreset := #[]
  named : List (String × Nat) := []
  active : Option Nat := none
  plugins : List (String × Plugin) := []
  provided : List Plugin := []
  made : List (String × Nat) := []

namespace PluginHub

def noPlugin (text : String) : Fault := .because .noPlugin text

variable (h : PluginHub)

def make (kind : String) : Plugin × PluginHub :=
  let n := (h.made.lookup kind).getD 0 + 1
  (⟨kind, n⟩, { h with made := (kind, n) :: h.made.filter (·.1 ≠ kind) })

variable (name : String)

def addPreset (p : PluginPreset) : PluginHub :=
  { h with presets := h.presets.push p, named := (name, h.presets.size) :: h.named.filter (·.1 ≠ name) }

def addDefault (name kind preset : String) : PluginHub :=
  match h.named.lookup preset with
  | none => h
  | some i => { h with presets := h.presets.modify i fun p => (name, kind) :: p.filter (·.1 ≠ name) }

def hasPlugin : Bool := h.plugins.any (·.1 = name)

def release : Try PluginHub :=
  if !h.keeps then .ok h
  else match h.plugins.lookup name with
    | none => raise .badKey
    | some p => .ok { h with provided := h.provided.erase p, plugins := h.plugins.filter (·.1 ≠ name) }

def register (p : Plugin) : PluginHub :=
  if !h.keeps then h
  else
    let h := (h.release name).toOption.getD h
    { h with plugins := h.plugins ++ [(name, p)] }

def discard : PluginHub :=
  match h.active with
  | none => h
  | some _ =>
    let h := h.plugins.foldl (fun h (name, p) => if h.provided.contains p then (h.release name).toOption.getD h else h) h
    { h with active := none }

def usePreset : Try PluginHub :=
  if h.named.isEmpty then raise .badType
  else match h.named.lookup name with
    | none => .error (noPlugin ("There is no preset named " ++ name))
    | some i => .ok { h.discard with active := some i }

def activePreset? : Option PluginPreset := h.active.bind fun i => h.presets[i]?

def find : Try (Plugin × PluginHub) :=
  match h.plugins.lookup name with
  | some p => .ok (p, h)
  | none =>
    match h.activePreset? with
    | none => .error (noPlugin ("No such plugin: " ++ name))
    | some preset =>
      match preset.lookup name with
      | none => .error (noPlugin ("There is no plugin named " ++ name))
      | some kind =>
        let (p, h) := h.make kind
        .ok (p, { h with provided := h.provided ++ [p] }.register name p)

end PluginHub

end SymExec
