import SymExec.Proofs.Access
import SymExec.Proofs.Reading

/-!
# Accesses at numbers

An access at a number asks no strategy for an address and adds no condition, so that it keeps whatever reading and writing the bytes
keeps.
-/

namespace SymExec

open Paged (leaves)
open EStateM (Result)

/-- Reading a number of bytes of a region keeps a property. -/
structure World.Readable (P : World → Prop) (r : Region) (n : Nat) : Prop where
  pages : ∀ a inspected events w, Steady P (Exec.readFrom r a n inspected events) w
  words : ∀ width part w, Steady P (Exec.loadWord r width part) w

def World.Spans (r : Region) (width : Nat) (w : World) : Prop := (w.state.part r).fast.map WordMemory.width = some width

structure World.Writable (P : World → Prop) (r : Region) (a n : Nat) : Prop where
  pages : ∀ enforced tracking v w, Steady P (Exec.onPages r (Paged.store enforced tracking true ⟨v, a, n⟩)) w
  words : ∀ width, ∀ part ∈ Exec.wordParts width a n, ∀ data w, w.Spans r width → Steady P (Exec.storeWord r width part data) w

namespace Exec

variable {P : World → Prop} {r : Region} {w : World} {cat : Category} {addr size q : Quantity} {w' : World} {n k a width : Nat}
  {inspected little : Bool} {res : StoreResult} {data : Bits} {cond : Option Cond} {addrs : List Nat} {endness : Option Endness}
  {part : Nat × Nat × Nat}

lemma attributeQ_steady {k} : Steady P (attributeQ k q) w := by
  refine attr_steady.bind fun v _ _ => ?_
  split
  · exact .pure _
  · exact .throw _

lemma keepsConstraints_steady {given} : Steady P (keepsConstraints given) w := by
  refine attr_steady.bind fun v _ _ => ?_
  cases v <;> exact .pure _

lemma simplify_steady {e} : Steady P (simplify e) w := by
  unfold simplify
  split
  · exact .pure _
  · exact .pure _
  · refine .bind .get fun _ _ _ => ?_
    split <;> exact .pure _

lemma evalOne_steady (hP : World.Blind P) {e} : Steady P (evalOne e) w := by
  refine .bind ((values_steady hP).seq ?_) fun _ _ _ => .pure _
  exact .when fun _ => .throw _

lemma offsetOf_steady (hP : World.Blind P) {place} : Steady P (offsetOf place) w := by
  cases place with
  | num n => exact .pure _
  | bits b => exact .ite (fun _ => eval_steady hP) fun _ => evalOne_steady hP

lemma actionOffset_steady (hP : World.Blind P) {r'} : Steady P (actionOffset r' addr) w :=
  .orElse fun _ => (offsetOf_steady hP).done

/-! ### What loads and stores give -/

lemma beginLoad_ok {q} (hw : w.Quiet) (h : beginLoad cat inspected addr size w = .ok q w') : q = (addr, size) := by
  obtain ⟨_, _, hrun, -, rfl, -⟩ := beginLoad_gives (r := .memory) cat inspected addr size w hw rfl
  exact (Result.ok.inj (h.symm.trans hrun)).1

lemma sizeRange_ok {k} (h : sizeRange (.num n) w = .ok k w') : k = (n, n) := by
  change (if n > maximumConcreteSize then _ else _ : Exec (Nat × Nat)) w = _ at h
  split at h
  · cases h
  · exact (Result.ok.inj h).1.symm

lemma loadRaw_literal (hr : r.Main) (ha : addr.nat? = some a) (n o) (hcond : o.condition = none) (hcut : o.cut = false) (w) :
    loadRaw r addr (.num n) o w = (match (w.state.part r).fast with
      | some f => do
        let parts ← (wordParts f.width a n).mapM (loadWord r f.width)
        return ([a], .concatList parts, [])
      | none => do
        let (_, n) ← sizeRange (.num n)
        if n = 0 then note "memory_limit"
        return ([a], ← readFrom r a n o.inspected o.actions, []) : Exec (List Nat × Bits × List Cond)) w := by
  rw [loadRaw, bind_of_ok (memoryAt_main hr w)]
  cases (w.state.part r).fast with
  | some f =>
    obtain rfl | ⟨k, rfl⟩ := Quantity.eq_of_nat? ha <;> rfl
  | none =>
    rw [hcond, hcut]
    obtain rfl | ⟨k, rfl⟩ := Quantity.eq_of_nat? ha <;> rfl

lemma loadRaw_conds (hr : r.Main) (ha : addr.nat? = some a) {o} (hcond : o.condition = none)
    (hcut : o.cut = false) {res} (h : loadRaw r addr (.num n) o w = .ok res w') : res.2.2 = [] := by
  rw [loadRaw_literal hr ha n o hcond hcut] at h
  generalize (w.state.part r).fast = f at h
  cases f with
  | some f =>
    obtain ⟨_, _, -, h⟩ := ok_of_bind h
    exact congrArg (·.2.2) (Result.ok.inj h).1.symm
  | none =>
    obtain ⟨_, t, -, h⟩ := ok_of_bind h
    have rest : ∀ k t, (do return ([a], ← readFrom r a k o.inspected o.actions, []) : Exec (List Nat × Bits × List Cond)) t = .ok res w' →
        res.2.2 = [] := fun k t h => by
      obtain ⟨_, _, -, h⟩ := ok_of_bind h
      exact congrArg (·.2.2) (Result.ok.inj h).1.symm
    dsimp only at h
    split at h
    · obtain ⟨_, t, -, h⟩ := ok_of_bind h
      exact rest _ t h
    · exact rest _ t h

lemma beginStore_ok {q} (hw : w.Quiet) (h : beginStore cat inspected addr size data w = .ok q w') : q = (addr, size, data) := by
  obtain ⟨_, _, hrun, -, rfl, -⟩ := beginStore_gives (r := .memory) cat inspected w hw rfl
  exact (Result.ok.inj (h.symm.trans hrun)).1

lemma storeConcrete_steady (hread : cond.isSome → World.Readable P r k) : Steady P (storeConcrete r little a k data cond) w := by
  cases cond with
  | none => exact .pure _
  | some c => exact ((hread rfl).pages a _ _ _).done

lemma storeConcrete_ok {ps} (h : storeConcrete r little a k data cond w = .ok ps w') : ∀ p ∈ ps, p.addr = a ∧ p.size = k := by
  cases cond with
  | none =>
    cases h
    simp
  | some c =>
    obtain ⟨_, _, -, h⟩ := ok_of_bind h
    cases h
    simp

lemma storeAt_conds (ha : addr.nat? = some a)
    (h : storeAt r cat little addr addrs size data cond w = .ok res w') : res.conditions = [] := by
  iterate 5 obtain ⟨_, _, -, h⟩ := ok_of_bind h
  cases h
  rw [Quantity.symbolic_of_nat? ha]
  rfl

section
variable (hr : r.Main) (ha : addr.nat? = some a) (hk : size.nat? = some k)
include hr ha hk

lemma storeRaw_literal (data cond) (endness w) :
    storeRaw r addr data size cond endness w = (match (w.state.part r).fast with
      | some f => do
        match cond with
        | some c => if c.symbolic then throw (.because .fastMemory "size not supported")
        | none => pure ()
        let data := if endness.getD (w.state.part r).endness = .little then data.reverse else data
        let _ ← (wordParts f.width a k).foldlM (storePart r f.width data) 0
        return { addrs := [a], values := [data], completed := true }
      | none => do
        boundSize size (data.width / 8)
        storeAt r (w.state.part r).category (endness.getD (w.state.part r).endness = .little)
          addr [a] size data cond : Exec StoreResult) w := by
  rw [storeRaw, bind_of_ok (memoryAt_main hr w)]
  obtain rfl | ⟨i, rfl⟩ := Quantity.eq_of_nat? ha <;> obtain rfl | ⟨j, rfl⟩ := Quantity.eq_of_nat? hk <;>
    cases (w.state.part r).fast <;> rfl

lemma storeRaw_conds (h : storeRaw r addr data size cond endness w = .ok res w') : res.conditions = [] := by
  rw [storeRaw_literal hr ha hk] at h
  generalize hf : (w.state.part r).fast = f at h
  cases f with
  | none =>
    obtain ⟨_, _, -, h⟩ := ok_of_bind h
    exact storeAt_conds ha h
  | some f =>
    cases cond with
    | none =>
      obtain ⟨_, _, -, h⟩ := ok_of_bind h
      cases h
      rfl
    | some c =>
      dsimp only at h
      split at h <;> obtain ⟨_, _, h', h⟩ := ok_of_bind h
      · cases h'
      · cases h
        rfl

end

lemma setWord_spans (hr : r.Main) {base d} : Steady (fun t => t.Quiet ∧ t.Spans r width) (setWord r base d) w := by
  rintro ⟨hq, hs⟩
  rw [leaves, setWord, modifyMemory_main hr]
  refine ⟨fun i hi => hq i ?_, ?_⟩
  · cases hr <;> exact hi
  · change ((w.state.put r _).part r).fast.map WordMemory.width = some width
    rw [State.part_put_self hr, Option.map_map]
    exact hs

lemma loadWord_spans (hr : r.Main) : Steady (fun t => t.Quiet ∧ t.Spans r k) (loadWord r width part) w := by
  have central : World.Central fun t => t.Quiet ∧ t.Spans r k := by
    refine ⟨fun _ h => h.1, fun s t h hq hc => ⟨hq, ?_⟩⟩
    rw [World.Spans, World.part_of_core hc]
    exact h.2
  refine memoryAt_steady.bind fun m t _ => ?_
  split
  · exact .pure _
  · refine (freshSymbol_steady central).bind fun v t _ => ?_
    exact (setWord_spans hr).done

lemma storeWord_keeps (hload : ∀ p t, Steady P (loadWord r width p) t)
    (hset : ∀ d t, Steady P (setWord r part.1 d) t) : Steady P (storeWord r width part data) w := by
  refine .ite (fun _ => ?_) fun _ => (hload _ _).bind fun before t _ => ?_
  all_goals exact .ite (fun _ => hset _ _) fun _ => (hload _ _).bind fun after t _ => hset _ t

lemma boundSize_steady (hk : size.nat? = some k) : Steady P (boundSize size n) w := by
  obtain rfl | ⟨j, rfl⟩ := Quantity.eq_of_nat? hk <;> exact .check

lemma storeSize_nat (bits) {size} (hsize : ∀ q, size = some q → ∃ n, q = .num n) (data) :
    ∃ k, (storeSize bits size data).nat? = some k := by
  cases size with
  | none => exact ⟨_, rfl⟩
  | some q =>
    obtain ⟨n, rfl⟩ := hsize q rfl
    exact ⟨_, rfl⟩

/-! ### What they keep -/

section
variable (hP : World.Central P) {m : Memory}
include hP

lemma beginLoad_steady : Steady P (beginLoad cat inspected addr size) w := by
  refine .when fun _ => ?_
  refine (inspect_steady hP).seq <| attributeQ_steady.seq ?_
  exact attributeQ_steady.done

lemma endLoad_steady {v} : Steady P (endLoad cat inspected v) w := by
  refine .when fun _ => ?_
  exact (inspect_steady hP).seq <| attributeBits_steady

lemma recordAs_steady {fill} : Steady P (recordAs r m addr fill) w := .seq .get <| (actionOffset_steady hP).seq <| act_steady hP

lemma recordLoad_steady {o} {v} : Steady P (recordLoad r m o addr size addrs v) w := by
  refine .seq .get <| .when fun _ => ?_
  exact .seq .get <| recordAs_steady hP

section
variable (hr : r.Main) (hread : World.Readable P r n) (ha : addr.nat? = some a) (o : LoadOptions)
include hr hread ha o

lemma loadRaw_steady (hcond : o.condition = none) (hcut : o.cut = false) : Steady P (loadRaw r addr (.num n) o) w := by
  unfold Steady leaves
  rw [loadRaw_literal hr ha n o hcond hcut]
  cases (w.state.part r).fast with
  | some f => exact Steady.bind (.mapM _ fun part _ t => hread.words f.width part t) fun _ _ _ => .pure _
  | none =>
    refine Steady.bind (.when fun _ => .throw _) fun k t hk => ?_
    obtain rfl := sizeRange_ok hk
    have rest : ∀ t, Steady P (do return ([a], ← readFrom r a n o.inspected o.actions, []) : Exec (List Nat × Bits × List Cond)) t :=
      fun t => (hread.pages a o.inspected o.actions t).done
    exact .ite (fun _ => (note_steady hP).bind fun _ t _ => rest t) fun _ => rest t

lemma load_steady (hsize : o.size = some (.num n)) (hcond : o.condition = none) (hcut : o.cut = false) : Steady P (load r addr o) w := by
  refine memoryAt_steady.bind fun m t _ => .bind .get fun A t _ h => ?_
  rw [hsize]
  refine Steady.bind (beginLoad_steady hP) (fun q t' hq => ?_) h
  obtain rfl := beginLoad_ok (hP.quiet _ h) hq
  refine .bind (loadRaw_steady hP hr hread ha o hcond hcut) fun res t hres => ?_
  obtain ⟨addrs, v, conds⟩ := res
  obtain rfl : conds = [] := loadRaw_conds hr ha hcond hcut hres
  refine keepsConstraints_steady.bind fun k _ _ => .ite (by simp) fun _ => ?_
  refine .seq .get <| .seq .get <| .ite (fun _ => simplify_steady.seq ?_) fun _ => ?_
  all_goals exact (endLoad_steady hP).seq <| (recordLoad_steady hP).done

end

lemma modifyScratch_steady {f} (ht : (f w.state.scratch).temps = w.state.scratch.temps)
    (hg : (f w.state.scratch).guard = w.state.scratch.guard) (he : (f w.state.scratch).exitStmt = w.state.scratch.exitStmt)
    (ha : (f w.state.scratch).target = w.state.scratch.target) : Steady P (modifyScratch f) w := by
  refine modifyState_steady hP ?_ rfl
  simp only [World.core, ht, hg, he, ha]

lemma beginStore_steady : Steady P (beginStore cat inspected addr size data) w := by
  refine .when fun _ => ?_
  refine (inspect_steady hP).seq <| attributeQ_steady.seq ?_
  exact attributeQ_steady.seq <| attributeBits_steady.done

variable {o : StoreOptions}

lemma recordStore_steady : Steady P (recordStore r m o addr data res) w := .seq .get <| .when fun _ => recordAs_steady hP

lemma putPiece_steady {p} (hwrite : World.Writable P r p.addr p.size)
    {simplifying tracking} : Steady P (putPiece r cat little simplifying tracking p) w := by
  refine .ite (fun _ => simplify_steady.seq ?_) fun _ => ?_
  all_goals
    refine .ite (fun _ => (Steady.throw _).seq ?_) fun _ => ?_
    all_goals
      refine strict_steady.bind fun enforced _ _ => .ite (fun _ => (modifyScratch_steady hP rfl rfl rfl rfl).seq ?_) fun _ => ?_
      all_goals exact (hwrite.pages enforced tracking _ _).done

lemma storeAt_steady (hk : size.nat? = some k) (hread : cond.isSome → World.Readable P r k) (hwrite : World.Writable P r a k) :
    Steady P (storeAt r cat little addr [a] size data cond) w := by
  have hpieces : storePieces r little addr [a] size data cond = storeConcrete r little a k data cond := by
    obtain rfl | ⟨b, rfl⟩ := Quantity.eq_of_nat? hk <;> rfl
  rw [storeAt, hpieces]
  refine .bind (storeConcrete_steady hread) fun ps t hps => ?_
  refine .seq .get <| .seq .get <| .seq .get ?_
  refine .bind (.mapM _ fun p hp t => ?_) fun _ _ _ => .pure _
  obtain ⟨h1, h2⟩ := storeConcrete_ok hps p hp
  exact putPiece_steady hP (h1 ▸ h2 ▸ hwrite)

lemma storeRaw_steady (hr : r.Main) (ha : addr.nat? = some a) (hk : size.nat? = some k)
    (hread : cond.isSome → World.Readable P r k) (hwrite : World.Writable P r a k) :
    Steady P (storeRaw r addr data size cond endness) w := by
  unfold Steady leaves
  rw [storeRaw_literal hr ha hk]
  cases hf : (w.state.part r).fast with
  | none => exact Steady.bind (boundSize_steady hk) fun _ _ _ => storeAt_steady hP hk hread hwrite
  | some f =>
    intro h
    -- the words keep their width while one after the other is set
    have written : ∀ data, Steady (fun t => P t ∧ t.Quiet ∧ t.Spans r f.width) (do
        let _ ← (wordParts f.width a k).foldlM (storePart r f.width data) 0
        return { addrs := [a], values := [data], completed := true } : Exec StoreResult) w := fun data => by
      refine .bind (.foldlM _ (fun _ part hpart t => ?_) 0) fun _ _ _ => .pure _
      refine .bind (fun h => ?_) fun _ _ _ => .pure _
      exact ⟨hwrite.words f.width part hpart _ t h.2.2 h.1,
        storeWord_keeps (fun p _ => loadWord_spans hr) (fun _ _ => setWord_spans hr) h.2⟩
    have hspans : w.Spans r f.width := congrArg (Option.map WordMemory.width) hf
    cases cond with
    | none => exact (written _ ⟨h, hP.quiet w h, hspans⟩).1
    | some c =>
      refine And.left (Steady.ite (P := fun t => P t ∧ t.Quiet ∧ t.Spans r f.width) (fun _ => ?_) (fun _ => written _)
        ⟨h, hP.quiet w h, hspans⟩)
      exact (Steady.throw _).bind fun _ _ ht => nomatch ht

lemma store_steady (hr : r.Main) (ha : addr.nat? = some a)
    (hsize : ∀ q, o.size = some q → ∃ n, q = .num n) (hread : o.condition.isSome → ∀ k, World.Readable P r k)
    (hwrite : ∀ t data k, P t → (storeSize t.state.arch.bits o.size data).nat? = some k → World.Writable P r a k) :
    Steady P (store r addr data o) w := by
  have plain : ∀ t, Steady P (storePlain r addr data o) t := by
    intro t
    refine memoryAt_steady.bind fun m t0 _ => .bind (.get) fun A t' hA h => ?_
    cases hA
    obtain ⟨k, hk⟩ := storeSize_nat t0.state.arch.bits hsize (storeData m.category t0.state.arch.bits o.size data)
    have hwrite := hwrite t0 _ k h hk
    refine Steady.bind (beginStore_steady hP) (fun q t' hq => ?_) h
    obtain rfl := beginStore_ok (hP.quiet _ h) hq
    refine .orElse fun _ => ?_
    refine .bind (storeRaw_steady hP hr ha hk (fun hc => hread hc k) hwrite) fun res t hres => ?_
    have hconds := storeRaw_conds hr ha hk hres
    refine .ite (fun _ => (inspect_steady hP).seq ?_) fun _ => ?_
    all_goals
      refine keepsConstraints_steady.bind fun k _ _ => .ite (by simp [hconds]) fun _ => ?_
      exact (recordStore_steady hP).done
  rw [store]
  split
  on_goal 1 => refine (modifyScratch_steady hP rfl rfl rfl rfl).seq ?_
  all_goals
    exact (plain _).seq <| .when fun _ => (modifyScratch_steady hP rfl rfl rfl rfl).done

end

end Exec

end SymExec
