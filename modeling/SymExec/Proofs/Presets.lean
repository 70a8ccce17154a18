import Mathlib.Data.List.Nodup
import SymExec.Plugin.Hub

/-!
# Plugins that a preset provides

A hub remembers which plugins it made from its preset by the objects alone. A ledger that says of each plugin where it comes from
agrees with it through all calls.
-/

namespace SymExec.PluginHub

open List

inductive Call where
  | use (preset : String)
  | discard
  | get (name : String)
  | register (name : String) (p : Plugin)
  | release (name : String)

/-- A plugin with its name, and whether it was made from the preset in use. -/
structure Holding where
  entry : String × Plugin
  lent : Bool

variable {h h' : PluginHub} {t : List Holding} {name : String} {p : Plugin}

/-- A call on a hub with a ledger beside it: a preset takes back what it lent, and a plugin goes when its name is released or given
to another. -/
def act (h : PluginHub) (t : List Holding) : Call → PluginHub × List Holding
  | .use preset =>
    match h.usePreset preset with
    | .ok h => (h, t.filter (!·.lent))
    | .error _ => (h, t)
  | .discard => (h.discard, t.filter (!·.lent))
  | .get name =>
    match h.find name with
    | .ok (p, h') => (h', if (h.plugins.lookup name).isSome then t else t ++ [⟨(name, p), true⟩])
    | .error _ => (h, t)
  | .register name p => (h.register name p, t.filter (·.entry.1 ≠ name) ++ [⟨(name, p), false⟩])
  | .release name => ((h.release name).toOption.getD h, t.filter (·.entry.1 ≠ name))

def after (h : PluginHub) (t : List Holding) : List Call → PluginHub × List Holding
  | [] => (h, t)
  | c :: cs => (h.act t c).1.after (h.act t c).2 cs

/-- No plugin ever has two names. -/
def Singles (h : PluginHub) (t : List Holding) : List Call → Prop
  | [] => True
  | c :: cs => ((h.act t c).1.plugins.map (·.2)).Nodup ∧ (h.act t c).1.Singles (h.act t c).2 cs

structure Agrees (h : PluginHub) (t : List Holding) : Prop where
  keeps : h.keeps = true
  plugins : h.plugins = t.map (·.entry)
  provided : h.provided = (t.filter (·.lent)).map (·.entry.2)
  names : (t.map (·.entry.1)).Nodup
  single : (t.map (·.entry.2)).Nodup
  idle : h.active = none → h.provided = []

/-- **The provided plugins** are those that the preset in use has lent. -/
theorem Agrees.lent_iff (ha : Agrees h t) {e} (he : e ∈ t) : e.lent = true ↔ e.entry.2 ∈ h.provided := by
  rw [ha.provided, mem_map]
  refine ⟨fun hl => ⟨e, mem_filter.2 ⟨he, hl⟩, rfl⟩, fun ⟨d, hd, hde⟩ => ?_⟩
  rw [← inj_on_of_nodup_map ha.single (mem_filter.1 hd).1 he hde]
  exact (mem_filter.1 hd).2

lemma Agrees.release (ha : Agrees h t) (name) : Agrees ((h.release name).toOption.getD h) (t.filter (·.entry.1 ≠ name)) := by
  rw [PluginHub.release, ha.keeps]
  cases hl : h.plugins.lookup name with
  | none =>
    have hall : t.filter (·.entry.1 ≠ name) = t := filter_eq_self.2 fun e he => decide_eq_true fun hn => by
      simpa [hn] using lookup_eq_none_iff.1 hl e.entry (ha.plugins ▸ mem_map_of_mem he)
    exact hall.symm ▸ ha
  | some p =>
    obtain ⟨l, l', hl', -⟩ := lookup_eq_some_iff.1 hl
    obtain ⟨d, hd, hdp⟩ := mem_map.1 (ha.plugins ▸ hl' ▸ mem_append_right l (mem_cons_self ..) : (name, p) ∈ t.map _)
    have hnodup : h.provided.Nodup := ha.provided ▸ ha.single.sublist (filter_sublist.map _)
    refine ⟨rfl, ?_, ?_, ha.names.sublist (filter_sublist.map _), ha.single.sublist (filter_sublist.map _), fun hn => ?_⟩
    · change h.plugins.filter _ = _
      rw [ha.plugins, filter_map]
      rfl
    · change h.provided.erase p = _
      rw [hnodup.erase_eq_filter, ha.provided, filter_map, filter_filter, filter_filter]
      refine congrArg (map _) (filter_congr fun e he => ?_)
      -- the name and the object stand for one holding
      have hname := inj_on_of_nodup_map ha.names he hd
      have hplugin := inj_on_of_nodup_map ha.single he hd
      grind
    · exact congrArg (·.erase p) (ha.idle hn)

/-- What a preset takes back of the plugins from some place on. -/
lemma Agrees.sweep {s} (ha : Agrees h (s ++ t)) :
    Agrees ((t.map (·.entry)).foldl (fun h e => if h.provided.contains e.2 then (h.release e.1).toOption.getD h else h) h)
      (s ++ t.filter (!·.lent)) := by
  induction t generalizing h s with
  | nil => exact ha
  | cons e t ih =>
    have hlent := ha.lent_iff (mem_append_right _ (mem_cons_self ..))
    rw [map_cons, foldl_cons]
    cases he : e.lent with
    | true =>
      have hrest : (s ++ e :: t).filter (·.entry.1 ≠ e.entry.1) = s ++ t := by
        have hn := ha.names
        rw [map_append, map_cons, nodup_middle, nodup_cons, ← map_append, mem_map] at hn
        rw [filter_append, filter_cons_of_neg (by simp), ← filter_append, filter_eq_self]
        exact fun d hd => decide_eq_true fun h => hn.1 ⟨d, hd, h⟩
      rw [if_pos (contains_iff_mem.2 (hlent.1 he)), filter_cons_of_neg (by simp [he])]
      exact ih (hrest ▸ ha.release e.entry.1)
    | false =>
      rw [if_neg fun h => by simpa [he] using hlent.2 (contains_iff_mem.1 h), filter_cons_of_pos (by simp [he]), append_cons]
      exact ih (by rwa [append_cons] at ha)

lemma Agrees.discard (ha : Agrees h t) : Agrees h.discard (t.filter (!·.lent)) := by
  rw [PluginHub.discard]
  cases hact : h.active with
  | none =>
    have hall : t.filter (!·.lent) = t := filter_eq_self.2 fun e he => by simpa [ha.idle hact] using ha.lent_iff he
    exact hall.symm ▸ ha
  | some i =>
    have hd := sweep (s := []) ha
    rw [← ha.plugins] at hd
    exact ⟨hd.keeps, hd.plugins, hd.provided, hd.names, hd.single, fun _ => hd.provided.trans (by simp)⟩

/-- What looking for a plugin can do. -/
lemma find_ok (hk : h.keeps = true) (hf : h.find name = .ok (p, h')) : h.plugins.lookup name = some p ∧ h' = h ∨
    h.plugins.lookup name = none ∧ h'.keeps = true ∧ h'.active ≠ none ∧ h'.plugins = h.plugins ++ [(name, p)] ∧
      h'.provided = h.provided ++ [p] := by
  unfold find at hf
  split at hf
  · next hl =>
    cases hf
    exact .inl ⟨hl, rfl⟩
  · next hl =>
    split at hf
    · cases hf
    · next preset hp =>
      have hact : h.active ≠ none := fun hn => by simp [activePreset?, hn] at hp
      split at hf
      · cases hf
      · simp only [register, release, make, hk, hl] at hf
        cases hf
        exact .inr ⟨hl, rfl, hact, rfl, rfl⟩

/-- One more holding under a new name. -/
lemma Agrees.add (ha : Agrees h t) {lent} (hn : ∀ e ∈ t, e.entry.1 ≠ name) (hk : h'.keeps = true)
    (hp : h'.plugins = h.plugins ++ [(name, p)]) (hv : h'.provided = h.provided ++ if lent then [p] else [])
    (hs : (h'.plugins.map (·.2)).Nodup) (hi : h'.active = none → h'.provided = []) : Agrees h' (t ++ [⟨(name, p), lent⟩]) := by
  rw [hp, ha.plugins] at hs
  refine ⟨hk, by simp [hp, ha.plugins], ?_, ?_, by simpa [Function.comp_def] using hs, hi⟩
  · cases lent <;> simp [hv, ha.provided]
  · simpa [nodup_append, ha.names] using hn

lemma Agrees.act (ha : Agrees h t) {c} (hs : ((h.act t c).1.plugins.map (·.2)).Nodup) : Agrees (h.act t c).1 (h.act t c).2 := by
  cases c with
  | use preset =>
    have hd := ha.discard
    rw [PluginHub.act, usePreset]
    split_ifs
    · exact ha
    · cases h.named.lookup preset with
      | none => exact ha
      | some i => exact ⟨hd.keeps, hd.plugins, hd.provided, hd.names, hd.single, fun hn => absurd hn (Option.some_ne_none i)⟩
  | discard => exact ha.discard
  | get name =>
    rw [PluginHub.act] at hs ⊢
    cases hf : h.find name with
    | error f => exact ha
    | ok r =>
      rw [hf] at hs
      obtain ⟨hl, he⟩ | ⟨hl, hk, hact, hp, hv⟩ := find_ok ha.keeps hf <;> rw [hl]
      · exact he ▸ ha
      · refine ha.add (fun e he hn => ?_) hk hp hv hs fun hn => absurd hn hact
        simpa [hn] using lookup_eq_none_iff.1 hl e.entry (ha.plugins ▸ mem_map_of_mem he)
  | register name p =>
    have hr := ha.release name
    rw [PluginHub.act, register, if_neg (by simp [ha.keeps])] at hs ⊢
    exact hr.add (fun e he => of_decide_eq_true (mem_filter.1 he).2) hr.keeps rfl (append_nil _).symm hs hr.idle
  | release name => exact ha.release name

lemma Agrees.after {cs} (ha : Agrees h t) (hs : h.Singles t cs) : Agrees (h.after t cs).1 (h.after t cs).2 := by
  induction cs generalizing h t with
  | nil => exact ha
  | cons c cs ih => exact ih (ha.act hs.1) hs.2

/-- **Presets own what they provide.** After any calls on a new hub by which no plugin gets two names, the hub holds the plugins of
the ledger under their names, and remembers those that the preset in use has lent. A plugin that was found is found again. -/
theorem presets_own (presets : Array PluginPreset) (named made : List (String × Nat)) {cs : List Call} {h : PluginHub}
    {t : List Holding} (hs : Singles { presets, named, made } [] cs) (hr : after { presets, named, made } [] cs = (h, t)) :
    h.plugins = t.map (·.entry) ∧ (t.map (·.entry.1)).Nodup ∧ h.provided = (t.filter (·.lent)).map (·.entry.2) ∧
    ∀ name p h', h.find name = .ok (p, h') → h'.find name = .ok (p, h') := by
  have hnew : Agrees { presets, named, made } [] := ⟨rfl, rfl, rfl, nodup_nil, nodup_nil, fun _ => rfl⟩
  have ha := hnew.after hs
  rw [hr] at ha
  refine ⟨ha.plugins, ha.names, ha.provided, fun name p h' hf => ?_⟩
  obtain ⟨-, rfl⟩ | ⟨hl, -, -, hp, -⟩ := find_ok ha.keeps hf
  · exact hf
  · simp [find, hp, lookup_append, hl]

theorem presets_own_discarded : ∃ cs h t, Singles { presets := #[[("a", "A")]], named := [("p", 0)] } [] cs ∧
    after { presets := #[[("a", "A")]], named := [("p", 0)] } [] cs = (h, t) ∧ h.plugins = t.map (·.entry) ∧ t.length = 1 := by
  have hs : Singles { presets := #[[("a", "A")]], named := [("p", 0)] } []
    [.use "p", .get "a", .register "b" ⟨"B", 1⟩, .discard] := ⟨by decide, by decide, by decide, by decide, trivial⟩
  exact ⟨_, _, _, hs, rfl, (presets_own _ _ _ hs rfl).1, rfl⟩

/-- A hub that keeps no plugins makes a new one each time. -/
theorem vendor_makes_anew : let h : PluginHub := { keeps := false, presets := #[[("a", "A")]], active := some 0 }
    ∃ p q h' h'', h.find "a" = .ok (p, h') ∧ h'.find "a" = .ok (q, h'') ∧ p ≠ q :=
  ⟨_, _, _, _, rfl, rfl, by decide⟩

end SymExec.PluginHub
