import ConfGraph.Graph.Fingerprint
import ConfGraph.Proofs.Graph.Entity
import ConfGraph.Proofs.Graph.Texts
import ConfGraph.Proofs.Value.Canonical

/-!
# Graphs alike

The canonical text of a graph tells the graph, up to the order of attributes and fields and the sign of
zeros.  An entity shows its id among its attributes; the text can be taken apart again because no
attribute goes by the name of the id.  The next id does not show, but ids leave no gap, so it is one
more than the number of entities.

* `Graph.Alike`: equality up to the order of attributes and fields and the sign of zeros.
* `Graph.Countable`: no count is beyond those that doubles tell apart.
* `Graph.toValue_alike_iff`: graphs are alike exactly when they show as values that are alike.
* `Graph.Alike.sameTexts`: graphs that are alike show the same texts.
* `canonicalText_alike_congruent`: what equal canonical texts mean, and that every batch keeps them.
-/

namespace ConfGraph

open Shape (lt_smallBound)
open Value (Proper)

/-! ## 1. Whole numbers -/

theorem proper_nat {n : Nat} (h : n ≤ Cause.exactBound) : Proper (.nat n) :=
  .num (Number.isFinite_ofNat (lt_smallBound h))

theorem alike_nat (n : Nat) : Value.Alike (.nat n) (.nat n) := .num (.inl rfl)

/-- Counts that doubles tell apart are told apart as values. -/
theorem eq_of_alike_nat {n m : Nat} (hn : n ≤ Cause.exactBound) (hm : m ≤ Cause.exactBound)
    (h : Value.Alike (.nat n) (.nat m)) : n = m := by
  cases h with
  | num same =>
    obtain hsame | ⟨hzero, hzero'⟩ := same
    · exact Number.ofNat_inj (lt_smallBound hn) (lt_smallBound hm) hsame
    · rw [Number.isZero_ofNat (lt_smallBound hn) hzero,
        Number.isZero_ofNat (lt_smallBound hm) hzero']

/-! ## 2. Likeness -/

/-- Two records of the log are equal, the provenance up to the order of fields and the sign of
zeros. -/
structure TxRecord.Alike (r r' : TxRecord) : Prop where
  tx : r.tx = r'.tx
  opCount : r.opCount = r'.opCount
  provenance : r.provenance.Alike r'.provenance

/-- Two entities have the same id and, under every name, values that are alike. -/
structure EntityAlike (e e' : EntityId × Attrs) : Prop where
  id : e.1 = e'.1
  attrs : ∀ name, Option.Rel (fun a a' : AttrValue => a.toValue.Alike a'.toValue)
    (Fields.get? e.2 name) (Fields.get? e'.2 name)

namespace Graph

/-- Two graphs have the same entities and the same log, up to the order of attributes and fields and
the sign of zeros.  What names the latest transaction gave does not count. -/
structure Alike (g h : Graph) : Prop where
  basisTx : g.basisTx = h.basisTx
  entities : List.Forall₂ EntityAlike g.entities h.entities
  transactions : List.Forall₂ TxRecord.Alike g.transactions h.transactions

/-- No count in a graph is beyond those that doubles tell apart.  Each counts the items of an array, of
entities, of records or of ops, and arrays end at `2 ^ 32` items, far below. -/
structure Countable (g : Graph) : Prop where
  entities : g.entities.length ≤ Cause.exactBound
  basisTx : g.basisTx ≤ Cause.exactBound
  opCounts : ∀ r ∈ g.transactions, r.opCount ≤ Cause.exactBound

/-! ## 3. Graphs show as proper values -/

/-- The log counts the transactions from one on. -/
theorem Reachable.logged {g : Graph} (h : g.Reachable) :
    g.transactions.map (·.tx) = List.range' 1 g.basisTx := by
  induction h with
  | empty => rfl
  | step _ applied ih =>
    obtain ⟨txOps, -, -, d, -, rfl⟩ := applyOps_eq_some applied
    simp only [commit, List.map_append, ih, List.map_cons, List.map_nil]
    rw [List.range'_concat, Nat.one_mul, Nat.add_comm 1]

/-- The fields that a graph shows. -/
def parts (g : Graph) : List (String × Value) := [
  ("basisTx", .nat g.basisTx),
  ("entities", .list (g.entities.map entityValue)),
  ("transactions", .list (g.transactions.map recordValue))]

theorem nodup_parts (g : Graph) : (Fields.names g.parts).Nodup := by
  show ["basisTx", "entities", "transactions"].Nodup
  decide

end Graph

/-- A stored value whose references doubles tell apart shows as a proper value. -/
theorem AttrValue.Sound.proper {a : AttrValue} (h : a.Sound fun n => n ≤ Cause.exactBound) :
    a.toValue.Proper := by
  induction h with
  | str s => exact .str s
  | num finite => exact .num finite
  | bool b => exact .bool b
  | null => exact .null
  | list _ ih =>
    rw [AttrValue.toValue, AttrValue.toValues_eq_map]
    exact .list (List.forall_mem_map.mpr ih)
  | ref hn =>
    exact .record .host (List.nodup_singleton "ref") (List.forall_mem_singleton.mpr (proper_nat hn))

/-- The fields that an entity shows. -/
def shownFields (e : EntityId × Attrs) : List (String × Value) :=
  (dbId, .nat e.1) :: e.2.map fun f => (f.1, f.2.toValue)

section

variable {e : EntityId × Attrs} (hnodup : (Fields.names e.2).Nodup)
  (hid : dbId ∉ Fields.names e.2)

include hnodup hid

theorem nodup_shownFields : (Fields.names (shownFields e)).Nodup := by
  refine List.nodup_cons.mpr ⟨?_, ?_⟩
  · rwa [← Fields.names, Fields.names_map]
  · rwa [← Fields.names, Fields.names_map]

/-- **An entity shows its id and its attributes**, and one does not hide the other. -/
theorem get?_shown (name : String) :
    Fields.get? (Fields.ofList (shownFields e)) name
      = if name = dbId then some (.nat e.1)
        else (Fields.get? e.2 name).map AttrValue.toValue := by
  have hperm := Fields.ofList_perm (nodup_shownFields hnodup hid)
  rw [Fields.get?_eq_of_perm (Fields.nodup_ofList _) hperm, shownFields, Fields.get?_cons,
    Fields.get?_map]

theorem proper_entityValue (hvalues : ∀ f ∈ e.2, f.2.toValue.Proper)
    (hle : e.1 ≤ Cause.exactBound) : (Graph.entityValue e).Proper := by
  refine .record .host (Fields.nodup_ofList _) fun f hf => ?_
  have hmem := (Fields.ofList_perm (nodup_shownFields hnodup hid)).subset hf
  rcases List.mem_cons.mp hmem with rfl | hmem
  · exact proper_nat hle
  · obtain ⟨f', hf', rfl⟩ := List.mem_map.mp hmem
    exact hvalues f' hf'

end

/-- A reachable graph whose counts doubles tell apart and whose log names contributors by JSON
values. -/
structure Graph.Legible (g : Graph) : Prop where
  reachable : g.Reachable
  countable : g.Countable
  provenances : ∀ r ∈ g.transactions, r.provenance.Proper

namespace Graph.Legible

variable {g : Graph}

theorem id_le (h : g.Legible) {n : EntityId} (hn : g.finished.has n = true) :
    n ≤ Cause.exactBound := by
  have hlt := (h.reachable.dense.has_iff.mp hn).2
  rw [h.reachable.dense.nextId] at hlt
  exact Nat.le_trans (Nat.le_of_lt_succ hlt) h.countable.entities

theorem entity_le (h : g.Legible) {e : EntityId × Attrs} (he : e ∈ g.entities) :
    e.1 ≤ Cause.exactBound :=
  h.id_le (Draft.has_iff_mem.mpr (List.mem_map_of_mem he))

theorem nodup (h : g.Legible) {e : EntityId × Attrs} (he : e ∈ g.entities) :
    (Fields.names e.2).Nodup := h.reachable.tidy.nodup e he

theorem dbId_not_mem (h : g.Legible) {e : EntityId × Attrs} (he : e ∈ g.entities) :
    dbId ∉ Fields.names e.2 := h.reachable.tidy.dbId_not_mem he

theorem proper_attr (h : g.Legible) {e : EntityId × Attrs} (he : e ∈ g.entities)
    {f : String × AttrValue} (hf : f ∈ e.2) : f.2.toValue.Proper :=
  ((h.reachable.grounded.values e he f hf).mono fun _ hn => h.id_le hn).proper

theorem tx_le (h : g.Legible) {r : TxRecord} (hr : r ∈ g.transactions) :
    r.tx ≤ Cause.exactBound := by
  have hmem : r.tx ∈ g.transactions.map (·.tx) := List.mem_map_of_mem hr
  rw [h.reachable.logged, List.mem_range'_1] at hmem
  have hbasis := h.countable.basisTx
  omega

theorem proper_entity (h : g.Legible) {e : EntityId × Attrs} (he : e ∈ g.entities) :
    (entityValue e).Proper :=
  proper_entityValue (h.nodup he) (h.dbId_not_mem he) (fun _ hf => h.proper_attr he hf)
    (h.entity_le he)

theorem proper_record (h : g.Legible) {r : TxRecord} (hr : r ∈ g.transactions) :
    (recordValue r).Proper := by
  have hnodup : ["tx", "opCount", "provenance"].Nodup := by decide
  refine .record .host hnodup (List.forall_mem_cons.mpr ⟨proper_nat (h.tx_le hr), ?_⟩)
  refine List.forall_mem_cons.mpr ⟨proper_nat (h.countable.opCounts r hr), ?_⟩
  exact List.forall_mem_singleton.mpr (h.provenances r hr)

/-- **A legible graph shows as a proper value.** -/
theorem proper (h : g.Legible) : g.toValue.Proper := by
  refine .record .host g.nodup_parts
    (List.forall_mem_cons.mpr ⟨proper_nat h.countable.basisTx, ?_⟩)
  refine List.forall_mem_cons.mpr ⟨?_, List.forall_mem_singleton.mpr ?_⟩
  · exact .list (List.forall_mem_map.mpr fun e he => h.proper_entity he)
  · exact .list (List.forall_mem_map.mpr fun r hr => h.proper_record hr)

end Graph.Legible

/-! ## 4. The value tells the graph -/

theorem rel_map_iff {α β : Type} {R : β → β → Prop} {f : α → β} {a b : Option α} :
    Option.Rel R (a.map f) (b.map f) ↔ Option.Rel (fun x y => R (f x) (f y)) a b := by
  cases a with
  | none =>
    cases b with
    | none => exact ⟨fun _ => .none, fun _ => .none⟩
    | some y => exact ⟨nofun, nofun⟩
  | some x =>
    cases b with
    | none => exact ⟨nofun, nofun⟩
    | some y =>
      constructor
      · rintro (h | _)
        exact .some h
      · rintro (h | _)
        exact .some h

theorem alike_of_rel_some {v w : Value} (h : Option.Rel Value.Alike (some v) (some w)) :
    v.Alike w := by
  cases h with
  | some hvw => exact hvw

namespace Graph

variable {g h : Graph}

/-- **The id and the attributes of an entity are told apart** in what it shows. -/
theorem entityValue_alike_iff (hg : g.Legible) (hh : h.Legible) {e e' : EntityId × Attrs}
    (he : e ∈ g.entities) (he' : e' ∈ h.entities) :
    (entityValue e).Alike (entityValue e') ↔ EntityAlike e e' := by
  have hget := get?_shown (hg.nodup he) (hg.dbId_not_mem he)
  have hget' := get?_shown (hh.nodup he') (hh.dbId_not_mem he')
  constructor
  · intro halike
    have hrel := halike.get?
    refine ⟨?_, fun name => ?_⟩
    · have hid := hrel dbId
      rw [← shownFields, ← shownFields, hget, hget', if_pos rfl, if_pos rfl] at hid
      exact eq_of_alike_nat (hg.entity_le he) (hh.entity_le he') (alike_of_rel_some hid)
    · by_cases hname : name = dbId
      · rw [hname, Fields.get?_eq_none_iff.mpr (hg.dbId_not_mem he),
          Fields.get?_eq_none_iff.mpr (hh.dbId_not_mem he')]
        exact .none
      · have hattr := hrel name
        rw [← shownFields, ← shownFields, hget, hget', if_neg hname, if_neg hname] at hattr
        exact rel_map_iff.mp hattr
  · intro halike
    refine .record fun name => ?_
    rw [← shownFields, ← shownFields, hget, hget']
    split
    · rw [halike.id]
      exact .some (alike_nat _)
    · exact rel_map_iff.mpr (halike.attrs name)

theorem recordValue_alike_iff (hg : g.Legible) (hh : h.Legible) {r r' : TxRecord}
    (hr : r ∈ g.transactions) (hr' : r' ∈ h.transactions) :
    (recordValue r).Alike (recordValue r') ↔ r.Alike r' := by
  constructor
  · intro halike
    have htx := alike_of_rel_some (halike.get? "tx")
    have hcount := alike_of_rel_some (halike.get? "opCount")
    exact ⟨eq_of_alike_nat (hg.tx_le hr) (hh.tx_le hr') htx,
      eq_of_alike_nat (hg.countable.opCounts r hr) (hh.countable.opCounts r' hr') hcount,
      alike_of_rel_some (halike.get? "provenance")⟩
  · rintro ⟨htx, hcount, hprovenance⟩
    refine .record (Value.rel_get?_of_forall₂ (.cons ⟨rfl, ?_⟩ (.cons ⟨rfl, ?_⟩
      (.cons ⟨rfl, hprovenance⟩ .nil))))
    · rw [htx]
      exact alike_nat _
    · rw [hcount]
      exact alike_nat _

/-- Lists show as lists that are alike when their items do, one by one. -/
theorem alike_map_iff {α : Type} {R : α → α → Prop} {f : α → Value} {as bs : List α}
    (h : ∀ a ∈ as, ∀ b ∈ bs, (f a).Alike (f b) ↔ R a b) :
    Value.Alike (.list (as.map f)) (.list (bs.map f)) ↔ List.Forall₂ R as bs := by
  constructor
  · intro halike
    cases halike with
    | list items_alike =>
      rw [List.forall₂_map_left_iff, List.forall₂_map_right_iff] at items_alike
      exact Value.forall₂_imp_of_mem items_alike fun a ha b hb => (h a ha b hb).mp
  · intro hall
    refine .list ?_
    rw [List.forall₂_map_left_iff, List.forall₂_map_right_iff]
    exact Value.forall₂_imp_of_mem hall fun a ha b hb => (h a ha b hb).mpr

/-- **Graphs are alike exactly when they show as values that are alike.** -/
theorem toValue_alike_iff (hg : g.Legible) (hh : h.Legible) :
    g.toValue.Alike h.toValue ↔ g.Alike h := by
  have hentities : Value.Alike (.list (g.entities.map entityValue))
      (.list (h.entities.map entityValue)) ↔ List.Forall₂ EntityAlike g.entities h.entities :=
    alike_map_iff fun e he e' he' => entityValue_alike_iff hg hh he he'
  have htransactions : Value.Alike (.list (g.transactions.map recordValue))
      (.list (h.transactions.map recordValue))
        ↔ List.Forall₂ TxRecord.Alike g.transactions h.transactions :=
    alike_map_iff fun r hr r' hr' => recordValue_alike_iff hg hh hr hr'
  constructor
  · intro halike
    have hbasis := alike_of_rel_some (halike.get? "basisTx")
    exact ⟨eq_of_alike_nat hg.countable.basisTx hh.countable.basisTx hbasis,
      hentities.mp (alike_of_rel_some (halike.get? "entities")),
      htransactions.mp (alike_of_rel_some (halike.get? "transactions"))⟩
  · intro halike
    refine .record (Value.rel_get?_of_forall₂ (.cons ⟨rfl, ?_⟩
      (.cons ⟨rfl, hentities.mpr halike.entities⟩
        (.cons ⟨rfl, htransactions.mpr halike.transactions⟩ .nil))))
    rw [halike.basisTx]
    exact alike_nat _

/-! ## 5. Graphs alike show the same texts -/

theorem withTexts_eq_of_alike (hg : g.Legible) (hh : h.Legible) {e e' : EntityId × Attrs}
    (he : e ∈ g.entities) (he' : e' ∈ h.entities) (halike : EntityAlike e e') :
    withTexts e = withTexts e' := by
  have htexts : Attrs.texts e.2 = Attrs.texts e'.2 := by
    funext name
    refine Value.map_eq_of_rel (halike.attrs name) fun a ha a' ha' hvalue => ?_
    exact Value.canonical_eq_of_alike (hg.proper_attr he (Fields.mem_of_get? ha))
      (hh.proper_attr he' (Fields.mem_of_get? ha')) hvalue
  unfold withTexts
  rw [halike.id, htexts]

/-- **Graphs that are alike show the same texts**, and will give the same id to the next entity. -/
theorem Alike.sameTexts (halike : g.Alike h) (hg : g.Legible) (hh : h.Legible) :
    SameTexts g h where
  basisTx := halike.basisTx
  nextId := by
    have hlength := halike.entities.length_eq
    have hnext := hg.reachable.dense.nextId
    have hnext' := hh.reachable.dense.nextId
    simp only [finished] at hnext hnext'
    rw [hnext, hnext', hlength]
  entities :=
    Value.map_eq_map_iff.mpr (Value.forall₂_imp_of_mem halike.entities fun _ he _ he' hee' =>
      withTexts_eq_of_alike hg hh he he' hee')
  transactions :=
    Value.map_eq_map_iff.mpr (Value.forall₂_imp_of_mem halike.transactions fun _ hr _ hr' hrr' =>
      Value.canonical_eq_of_alike (hg.proper_record hr) (hh.proper_record hr')
        ((recordValue_alike_iff hg hh hr hr').mpr hrr'))

/-- An entity's canonical text is made of the texts it shows. -/
theorem canonical_entityValue_eq {e e' : EntityId × Attrs} (hnodup : (Fields.names e.2).Nodup)
    (hid : dbId ∉ Fields.names e.2) (hnodup' : (Fields.names e'.2).Nodup)
    (hid' : dbId ∉ Fields.names e'.2) (h : withTexts e = withTexts e') :
    (entityValue e).canonical = (entityValue e').canonical := by
  obtain ⟨heq, htexts⟩ := Prod.mk.inj h
  refine Value.canonical_record_eq (Fields.nodup_ofList _) (Fields.nodup_ofList _) fun name => ?_
  rw [← shownFields, ← shownFields, get?_shown hnodup hid, get?_shown hnodup' hid', heq]
  split
  · rfl
  · rw [Option.map_map, Option.map_map]
    exact congrFun htexts name

/-- **Graphs that show the same texts have the same canonical text.** -/
theorem SameTexts.canonicalText_eq (hsame : SameTexts g h) (hg : g.Reachable) (hh : h.Reachable) :
    g.canonicalText = h.canonicalText := by
  have hentities : g.entities.map (fun e => (entityValue e).canonical)
      = h.entities.map fun e => (entityValue e).canonical := by
    refine Value.map_eq_map_iff.mpr (Value.forall₂_imp_of_mem
      (Value.map_eq_map_iff.mp hsame.entities) fun e he e' he' hee' => ?_)
    exact canonical_entityValue_eq (hg.tidy.nodup e he) (hg.tidy.dbId_not_mem he)
      (hh.tidy.nodup e' he') (hh.tidy.dbId_not_mem he') hee'
  have hfields : List.Forall₂ (fun f f' => f.1 = f'.1 ∧ f.2.canonical = f'.2.canonical)
      g.parts h.parts := by
    refine .cons ⟨rfl, by rw [hsame.basisTx]⟩ (.cons ⟨rfl, Value.canonical_list_eq ?_⟩
      (.cons ⟨rfl, Value.canonical_list_eq ?_⟩ .nil))
    · rw [List.map_map, List.map_map]
      exact hentities
    · rw [List.map_map, List.map_map]
      exact hsame.transactions
  have hcanonical : g.toValue.canonical = h.toValue.canonical := by
    refine Value.canonical_record_eq g.nodup_parts h.nodup_parts fun name => ?_
    exact Value.map_eq_of_rel (Value.rel_get?_of_forall₂ hfields name) fun _ _ _ _ heq => heq
  unfold canonicalText Value.canonicalText
  rw [hcanonical]

theorem canonicalText_eq_iff (hg : g.Legible) (hh : h.Legible) :
    g.canonicalText = h.canonicalText ↔ g.Alike h := by
  have hcanonical : g.canonicalText = h.canonicalText ↔ g.toValue.canonical = h.toValue.canonical :=
    String.ofList_inj
  rw [hcanonical, Value.canonical_eq_iff hg.proper hh.proper, toValue_alike_iff hg hh]

end Graph

/-! ## 6. What equal canonical texts mean -/

/-- **Canonical texts tell graphs, and every batch keeps them equal.**  Two reachable graphs whose log
names contributors by JSON values have the same canonical text exactly if they are alike.  And if they
have, every batch is refused by both for the same reason, or accepted by both with the same canonical
text again, whoever contributes it.  Counts show as numbers, so none may be beyond those that doubles
tell apart, as no length of an array is. -/
theorem canonicalText_alike_congruent {g h : Graph} (hg : g.Reachable) (hh : h.Reachable)
    (g_json : ∀ r ∈ g.transactions, r.provenance.Proper)
    (h_json : ∀ r ∈ h.transactions, r.provenance.Proper)
    (g_countable : g.Countable) (h_countable : h.Countable) :
    (g.canonicalText = h.canonicalText ↔ g.Alike h) ∧
      (g.canonicalText = h.canonicalText → ∀ ops provenance : Value,
        (∃ fault, g.applyOps ops provenance = .error fault ∧
          h.applyOps ops provenance = .error fault) ∨
        ∃ r r', g.applyOps ops provenance = .ok r ∧ h.applyOps ops provenance = .ok r' ∧
          (r.getD g).canonicalText = (r'.getD h).canonicalText) := by
  have hgl : g.Legible := ⟨hg, g_countable, g_json⟩
  have hhl : h.Legible := ⟨hh, h_countable, h_json⟩
  have hiff := Graph.canonicalText_eq_iff hgl hhl
  refine ⟨hiff, fun htext ops provenance => ?_⟩
  have hsame := (hiff.mp htext).sameTexts hgl hhl
  obtain ⟨fault, hfault, hfault'⟩ | ⟨r, r', hr, hr', hrel⟩ :=
    (hsame.applyOps ops provenance).error_or_ok
  · exact .inl ⟨fault, hfault, hfault'⟩
  · refine .inr ⟨r, r', hr, hr', ?_⟩
    cases hrel with
    | none => exact htext
    | some hkk' => exact hkk'.canonicalText_eq (.step hg hr) (.step hh hr')

/-! ## 7. One graph in two orders -/

/-- An entity that refers to itself, its attributes given in an order, with zero or minus zero for a
count. -/
def countedOps (zero : Float) (before after : List (String × Value)) : Value := .list [
  .record .host [("op", .str "create"), ("attrs", .record .host
    (before ++ [("config/id", .str "app/main"), ("count", .num zero)] ++ after))]]

/-- The reference of the entity to itself. -/
def selfField : String × Value := ("self", .record .host [("ref", .nat 1)])

/-- Who contributes the entity, in an order of the fields. -/
def contributor (fields : List (String × Value)) : Value :=
  .record .host [("module", .str "main.ts"), ("at", .record .host fields)]

/-- The graph with the count before the reference. -/
def countFirstGraph : Graph where
  basisTx := 1
  nextId := 2
  entities := [(1, [("config/id", .str "app/main"), ("count", .num (.ofBits 0)), ("self", .ref 1)])]
  tempIds := []
  transactions := [⟨1, 1, contributor [("line", .null), ("zero", .num (.ofBits 0))]⟩]

/-- The graph with the reference before the count, and minus zero for zero. -/
def selfFirstGraph : Graph where
  basisTx := 1
  nextId := 2
  entities := [(1, [("config/id", .str "app/main"), ("self", .ref 1),
    ("count", .num (.ofBits 0x8000000000000000))])]
  tempIds := []
  transactions := [⟨1, 1,
    contributor [("zero", .num (.ofBits 0x8000000000000000)), ("line", .null)]⟩]

theorem countFirstGraph_reachable : countFirstGraph.Reachable :=
  @Graph.Reachable.step Graph.empty countFirstGraph (countedOps (.ofBits 0) [] [selfField])
    (contributor [("line", .null), ("zero", .num (.ofBits 0))]) .empty rfl

theorem selfFirstGraph_reachable : selfFirstGraph.Reachable :=
  @Graph.Reachable.step Graph.empty selfFirstGraph
    (countedOps (.ofBits 0x8000000000000000) [selfField] [])
    (contributor [("zero", .num (.ofBits 0x8000000000000000)), ("line", .null)]) .empty rfl

/-- Two fields in either order answer alike if what they hold is alike. -/
theorem rel_get?_swapped {α : Type} {R : α → α → Prop} {n m : String} {a a' b b' : α} (hne : n ≠ m)
    (ha : R a a') (hb : R b b') (name : String) :
    Option.Rel R (Fields.get? [(n, a), (m, b)] name) (Fields.get? [(m, b'), (n, a')] name) := by
  simp only [Fields.get?_cons, Fields.get?_nil]
  by_cases hname : name = n
  · subst hname
    rw [if_pos rfl, if_neg hne, if_pos rfl]
    exact .some ha
  · rw [if_neg hname, if_neg hname]
    split
    · exact .some hb
    · exact .none

theorem zeros_alike : Value.Alike (.num (.ofBits 0)) (.num (.ofBits 0x8000000000000000)) :=
  .num (.inr ⟨rfl, rfl⟩)

theorem countFirstGraph_alike : countFirstGraph.Alike selfFirstGraph where
  basisTx := rfl
  entities := by
    refine .cons ⟨rfl, fun name => ?_⟩ .nil
    have hne : "count" ≠ "self" := by decide
    refine Value.rel_get?_cons (.str "app/main") (rel_get?_swapped hne ?_ ?_ name)
    · exact zeros_alike
    · exact .record (Value.rel_get?_of_forall₂ (.cons ⟨rfl, alike_nat 1⟩ .nil))
  transactions := by
    have hne : "line" ≠ "zero" := by decide
    have hfields := rel_get?_swapped hne Value.Alike.null zeros_alike
    refine .cons ⟨rfl, rfl, .record (Value.rel_get?_of_forall₂ (R := Value.Alike) ?_)⟩ .nil
    exact .cons ⟨rfl, Value.Alike.str "main.ts"⟩ (.cons ⟨rfl, Value.Alike.record hfields⟩ .nil)

theorem contributor_proper {fields : List (String × Value)} (hnodup : (Fields.names fields).Nodup)
    (hproper : ∀ f ∈ fields, f.2.Proper) : (contributor fields).Proper := by
  have hnames : ["module", "at"].Nodup := by decide
  refine .record .host hnames (List.forall_mem_cons.mpr ⟨.str _, ?_⟩)
  exact List.forall_mem_singleton.mpr (.record .host hnodup hproper)

theorem canonicalText_countFirst_selfFirst :
    countFirstGraph.canonicalText = selfFirstGraph.canonicalText ∧
      ∀ ops provenance : Value,
        (∃ fault, countFirstGraph.applyOps ops provenance = .error fault ∧
          selfFirstGraph.applyOps ops provenance = .error fault) ∨
        ∃ r r', countFirstGraph.applyOps ops provenance = .ok r ∧
          selfFirstGraph.applyOps ops provenance = .ok r' ∧
          (r.getD countFirstGraph).canonicalText = (r'.getD selfFirstGraph).canonicalText := by
  have hzero : (Value.num (.ofBits 0)).Proper := .num rfl
  have hminus : (Value.num (.ofBits 0x8000000000000000)).Proper := .num rfl
  have both := canonicalText_alike_congruent countFirstGraph_reachable selfFirstGraph_reachable
    (List.forall_mem_singleton.mpr (contributor_proper (by decide)
      (List.forall_mem_cons.mpr ⟨.null, List.forall_mem_singleton.mpr hzero⟩)))
    (List.forall_mem_singleton.mpr (contributor_proper (by decide)
      (List.forall_mem_cons.mpr ⟨hminus, List.forall_mem_singleton.mpr .null⟩)))
    ⟨by decide, by decide, by decide⟩ ⟨by decide, by decide, by decide⟩
  have htext := both.1.mpr countFirstGraph_alike
  exact ⟨htext, both.2 htext⟩

end ConfGraph
