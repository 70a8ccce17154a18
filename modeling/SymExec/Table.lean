/-!
# Tables

A table gives each of its keys a value.
-/

namespace SymExec

structure Table (κ α : Type) where
  entries : List (κ × α) := []
deriving DecidableEq

namespace Table

variable {κ α : Type} [DecidableEq κ] (t : Table κ α) (k : κ)

def get? : Option α := (t.entries.find? (·.1 = k)).map (·.2)

def contains : Bool := t.entries.any (·.1 = k)

def put (v : α) : List (κ × α) → List (κ × α)
  | [] => [(k, v)]
  | (j, w) :: rest => if j = k then (j, v) :: rest else (j, w) :: put v rest

def putAll (entries others : List (κ × α)) : List (κ × α) := others.foldl (fun t (k, v) => put k v t) entries

def set (v : α) : Table κ α := ⟨put k v t.entries⟩

def erase : Table κ α := ⟨t.entries.filter (·.1 ≠ k)⟩

def alter (f : α → α) : Table κ α := ⟨t.entries.map fun (j, v) => if j = k then (j, f v) else (j, v)⟩

def keys : List κ := t.entries.map (·.1)

def values : List α := t.entries.map (·.2)

def size : Nat := t.entries.length

end Table

end SymExec
