import ConfGraph.Graph.Fingerprint
import ConfGraph.Proofs.Graph.Naming
import ConfGraph.Proofs.Graph.Written

/-!
# Dump and reload

A graph is dumped as one batch: for every entity, in order, a create with the attributes that the
entity shows.  On the empty graph the batch is accepted and gives the same entities under the same
ids.  No create meets an entity of an earlier one, since config ids are unique; the first pass hands
out every id before the second resolves a reference, so it is no matter which way references point.

* `AttrValue.toOp`: a stored value as a value in an op.
* `Graph.dump`: the batch.
* `Draft.prepareAll_dump`: the first pass makes the entities, with their config ids only.
* `Draft.performAll_dump`: the second pass gives them their attributes.
* `reload_dump`: the dump of a reachable graph gives back its entities.
-/

namespace ConfGraph

/-! ## 1. Stored values in ops -/

mutual

/-- A stored value as a value in an op: references go by id.  What a script has altered has no such
form; `null` stands for it. -/
def AttrValue.toOp : AttrValue → OpValue
  | .str s => .str s
  | .num x => .num x
  | .bool b => .bool b
  | .null => .null
  | .list items => .list (AttrValue.toOps items)
  | .ref n => .ref (.id n)
  | .altered _ => .null

/-- Stored values as values in an op. -/
def AttrValue.toOps : List AttrValue → List OpValue
  | [] => []
  | a :: rest => a.toOp :: AttrValue.toOps rest

end

theorem AttrValue.toOps_eq_map (items : List AttrValue) :
    AttrValue.toOps items = items.map AttrValue.toOp := by
  induction items with
  | nil => rfl
  | cons a rest ih => rw [AttrValue.toOps, ih, List.map_cons]

section

variable {known : EntityId → Prop} {a : AttrValue}

/-- **It shows as the stored value does.** -/
theorem AttrValue.Sound.toValue_toOp (h : a.Sound known) : a.toOp.toValue = a.toValue := by
  induction h with
  | str s => rfl
  | num hx => rfl
  | bool b => rfl
  | null => rfl
  | list _ ih =>
    simp only [AttrValue.toOp, OpValue.toValue, AttrValue.toValue, AttrValue.toOps_eq_map,
      OpValue.toValues_eq_map, AttrValue.toValues_eq_map, List.map_map]
    exact congrArg Value.list (List.map_congr_left ih)
  | ref hn => rfl

/-- **An op may hold it**, if its references can be written. -/
theorem AttrValue.Sound.valid_toOp (h : a.Sound IsWritable) : a.toOp.Valid := by
  induction h with
  | str s => exact .str s
  | num hx => exact .num hx
  | bool b => exact .bool b
  | null => exact .null
  | list _ ih =>
    rw [AttrValue.toOp, AttrValue.toOps_eq_map]
    refine .list fun op hop => ?_
    obtain ⟨b, hb, rfl⟩ := List.mem_map.mp hop
    exact ih b hb
  | ref hn => exact .ref hn

namespace Draft

variable {d : Draft}

theorem resolveItems_eq_ok {ops : List OpValue} {as : List AttrValue}
    (h : List.Forall₂ (fun op a => d.resolveValue op = .ok a) ops as) :
    d.resolveItems ops = .ok as := by
  induction h with
  | nil => rfl
  | cons hfirst _ ih =>
    unfold resolveItems
    rw [hfirst, ih]

/-- **It is resolved to the stored value**, if its references lead to entities. -/
theorem resolveValue_toOp (h : a.Sound (d.has · = true)) : d.resolveValue a.toOp = .ok a := by
  induction h with
  | str s => rfl
  | num hx => rfl
  | bool b => rfl
  | null => rfl
  | list _ ih =>
    have hitems := resolveItems_eq_ok (d := d)
      (List.forall₂_map_left_iff.mpr (List.forall₂_same.mpr ih))
    rw [AttrValue.toOp, AttrValue.toOps_eq_map, resolveValue, hitems]
    rfl
  | ref hn =>
    have hresolve : d.resolve (.id _) = .ok _ := if_pos hn
    rw [AttrValue.toOp, resolveValue, hresolve]
    rfl

end Draft

end

/-! ## 2. The batch -/

/-- The create that makes an entity out of what it shows: all its fields but its id. -/
def createOf (shown : Value) : Value :=
  .record .host [("op", .str "create"),
    ("attrs", .record .host (Fields.erase (shown.fields?.getD []) dbId))]

/-- **The dump of a graph**: for every entity, in order, a create with the attributes it shows. -/
def Graph.dump (g : Graph) : Value :=
  .list (g.entities.map fun e => createOf (Graph.entityValue e))

/-- The attributes of an entity in the order in which they show. -/
def shownAttrs (e : EntityId × Attrs) : Attrs :=
  Fields.erase (Fields.ofList ((dbId, .num (Number.ofNat e.1)) :: e.2)) dbId

/-- The op that makes an entity. -/
def creating (e : EntityId × Attrs) : TxOp :=
  .create none ((shownAttrs e).map fun f => (f.1, f.2.toOp))

theorem fields_entityValue (e : EntityId × Attrs) :
    Fields.erase ((Graph.entityValue e).fields?.getD []) dbId
      = (shownAttrs e).map fun f => (f.1, f.2.toValue) := by
  rw [shownAttrs, ← Fields.erase_map, ← Fields.ofList_map]
  rfl

/-- Showing only changes the order. -/
theorem shownAttrs_perm {e : EntityId × Attrs} (hnodup : (Fields.names e.2).Nodup)
    (hid : dbId ∉ Fields.names e.2) : (shownAttrs e).Perm e.2 := by
  have hshown : (Fields.ofList ((dbId, AttrValue.num (Number.ofNat e.1)) :: e.2)).Perm
      ((dbId, AttrValue.num (Number.ofNat e.1)) :: e.2) :=
    Fields.ofList_perm (List.nodup_cons.mpr ⟨hid, hnodup⟩)
  have herase := Fields.erase_perm hshown dbId
  have hskip : Fields.erase ((dbId, AttrValue.num (Number.ofNat e.1)) :: e.2) dbId = e.2 := by
    rw [← Fields.erase_of_not_mem hid]
    simp [Fields.erase]
  rwa [hskip] at herase

theorem get?_shownAttrs {e : EntityId × Attrs} (hnodup : (Fields.names e.2).Nodup)
    (hid : dbId ∉ Fields.names e.2) (name : String) :
    Fields.get? (shownAttrs e) name = Fields.get? e.2 name :=
  (Fields.get?_eq_of_perm hnodup (shownAttrs_perm hnodup hid).symm name).symm

namespace Draft

variable {d : Draft}

theorem Tidy.shownAttrs_perm (h : d.Tidy) {e : EntityId × Attrs} (he : e ∈ d.entities) :
    (shownAttrs e).Perm e.2 :=
  ConfGraph.shownAttrs_perm (h.nodup e he) (h.dbId_not_mem he)

/-! ## 3. First pass -/

/-- What the first pass writes of an entity's attributes: its config id, if it has one. -/
def heading (attrs : Attrs) : Attrs :=
  ((Fields.get? attrs configId).map fun a => (configId, a)).toList

/-- An entity after the first pass. -/
def headed (e : EntityId × Attrs) : EntityId × Attrs := (e.1, heading e.2)

/-- What is left to do for an entity after the first pass. -/
def filling (e : EntityId × Attrs) : Task :=
  .fill e.1 ((shownAttrs e).map fun f => (f.1, f.2.toOp))

theorem get?_heading (attrs : Attrs) (name : String) :
    Fields.get? (heading attrs) name
      = if name = configId then Fields.get? attrs configId else none := by
  unfold heading
  cases Fields.get? attrs configId with
  | none => simp
  | some a => simp [Fields.get?_cons]

theorem nodup_heading (attrs : Attrs) : (Fields.names (heading attrs)).Nodup := by
  refine Fields.nodup_of_length_le_one ?_
  unfold heading
  cases Fields.get? attrs configId with
  | none => exact Nat.zero_le 1
  | some a => exact Nat.le_refl 1

/-- Ids count from one on, so the place of an entity tells its id. -/
theorem Dense.id_of_split (h : d.Dense) {before after : List (EntityId × Attrs)}
    {e : EntityId × Attrs} (hsplit : d.entities = before ++ e :: after) :
    e.1 = before.length + 1 := by
  have hat : (d.entities.map (·.1))[before.length]? = some e.1 := by simp [hsplit]
  have hlt : before.length < d.entities.length := by simp [hsplit]
  rw [h.ids, List.getElem?_range' hlt] at hat
  rw [← Option.some.inj hat, Nat.one_mul, Nat.add_comm]

theorem Dense.split_disjoint (h : d.Dense) {before after : List (EntityId × Attrs)}
    {e : EntityId × Attrs} (hsplit : d.entities = before ++ e :: after) :
    e.1 ∉ before.map (·.1) ∧ e.1 ∉ after.map (·.1) := by
  have hnodup := h.nodup
  rw [hsplit, List.map_append, List.map_cons, List.nodup_append] at hnodup
  obtain ⟨-, hafter, hapart⟩ := hnodup
  refine ⟨fun hmem => ?_, (List.nodup_cons.mp hafter).1⟩
  exact hapart _ hmem _ List.mem_cons_self rfl

/-- **No create meets an earlier entity**: the config ids so far are those of other entities. -/
theorem findIn_headed (hdense : d.Dense) (hnamed : d.Named)
    {before after : List (EntityId × Attrs)} {e : EntityId × Attrs}
    (hsplit : d.entities = before ++ e :: after) {s : String}
    (hs : Fields.get? e.2 configId = some (.str s)) :
    findIn (before.map headed) configId (.str s) = none := by
  refine findIn_eq_none_iff.mpr fun e' he' hmatch => ?_
  obtain ⟨e₀, he₀, rfl⟩ := List.mem_map.mp he'
  have hmem₀ : e₀ ∈ d.entities := by
    rw [hsplit]
    exact List.mem_append_left _ he₀
  have hmem : e ∈ d.entities := by
    rw [hsplit]
    exact List.mem_append_right _ List.mem_cons_self
  have texts : ∀ f ∈ heading e₀.2, f.1 = configId → ∃ s, f.2 = .str s := by
    intro f hf hname
    have hget := Fields.get?_of_mem (nodup_heading e₀.2) hf
    rw [hname, get?_heading, if_pos rfl] at hget
    exact hnamed.texts e₀ hmem₀ (configId, f.2) (Fields.mem_of_get? hget) rfl
  have hget := (matchesSearch_configId texts).mp hmatch
  rw [get?_heading, if_pos rfl] at hget
  have hid := hnamed.unique e₀ hmem₀ e hmem s hget hs
  exact (hdense.split_disjoint hsplit).1 (hid ▸ List.mem_map_of_mem he₀)

/-- **A create makes the entity it was dumped from**, with its config id only. -/
theorem allocate_creating {before after : List (EntityId × Attrs)} {e : EntityId × Attrs}
    (hdense : d.Dense) (htidy : d.Tidy) (hnamed : d.Named)
    (hsplit : d.entities = before ++ e :: after) :
    allocate ⟨before.map headed, [], before.length + 1⟩ none
        ((shownAttrs e).map fun f => (f.1, f.2.toOp))
      = .ok (e.1, ⟨(before ++ [e]).map headed, [], before.length + 2⟩) := by
  have hmem : e ∈ d.entities := by
    rw [hsplit]
    exact List.mem_append_right _ List.mem_cons_self
  have hget : ∀ name, Fields.get? ((shownAttrs e).map fun f => (f.1, f.2.toOp)) name
      = (Fields.get? e.2 name).map AttrValue.toOp := by
    intro name
    rw [Fields.get?_map, get?_shownAttrs (htidy.nodup e hmem) (htidy.dbId_not_mem hmem)]
  have hdb : Fields.has ((shownAttrs e).map fun f => (f.1, f.2.toOp)) dbId = false := by
    rw [Fields.has, hget, Fields.get?_eq_none_iff.mpr (htidy.dbId_not_mem hmem)]
    rfl
  have hid := hdense.id_of_split hsplit
  have hnew : (before ++ [e]).map headed
      = before.map headed ++ [(before.length + 1, heading e.2)] := by
    rw [List.map_append, List.map_singleton, headed, hid]
  unfold allocate
  rw [hdb, givenName, hget, hnew, hid]
  cases hconfig : Fields.get? e.2 configId with
  | none =>
    have hheading : heading e.2 = [] := by simp [heading, hconfig]
    rw [hheading]
    rfl
  | some a =>
    obtain ⟨s, rfl⟩ := hnamed.texts e hmem _ (Fields.mem_of_get? hconfig) rfl
    have hheading : heading e.2 = [(configId, .str s)] := by simp [heading, hconfig]
    have hfree := findIn_headed hdense hnamed hsplit hconfig
    have hplace : place ⟨before.map headed, [], before.length + 1⟩ (some s)
        = (before.length + 1,
          ⟨before.map headed ++ [(before.length + 1, [(configId, .str s)])], [],
            before.length + 2⟩) := by
      unfold place
      simp only [hfree]
      rfl
    rw [hheading, ← hplace]
    rfl

/-- **The first pass makes the entities**, with their config ids only. -/
theorem prepareAll_dump (hdense : d.Dense) (htidy : d.Tidy) (hnamed : d.Named)
    (before : List (EntityId × Attrs)) {after : List (EntityId × Attrs)}
    (hsplit : d.entities = before ++ after) (index : Nat) :
    prepareAll index ⟨before.map headed, [], before.length + 1⟩ (after.map creating)
      = .ok (after.map filling, ⟨d.entities.map headed, [], d.entities.length + 1⟩) := by
  induction after generalizing before index with
  | nil => rw [hsplit, List.append_nil]; rfl
  | cons e rest ih =>
    have hfirst : prepare ⟨before.map headed, [], before.length + 1⟩ (creating e)
        = .ok (filling e, ⟨(before ++ [e]).map headed, [], before.length + 2⟩) := by
      rw [creating, prepare, allocate_creating hdense htidy hnamed hsplit]
      rfl
    have hrest := ih (before ++ [e]) (by simpa using hsplit) (index + 1)
    rw [List.length_append, List.length_singleton] at hrest
    rw [List.map_cons, prepareAll, hfirst]
    simp only [hrest, List.map_cons]

/-! ## 4. Second pass -/

section Fill

variable {before after : List (EntityId × Attrs)} {id : EntityId}
  {tempIds : List (String × EntityId)} {nextId : EntityId}

theorem attrsOf_split (hbefore : id ∉ before.map (·.1)) (attrs : Attrs) :
    attrsOf ⟨before ++ (id, attrs) :: after, tempIds, nextId⟩ id = attrs := by
  have hskip : before.lookup id = none :=
    Option.not_isSome_iff_eq_none.mp fun h => hbefore (lookup_isSome_iff.mp h)
  simp [attrsOf, List.lookup_append, hskip]

theorem setAttrs_split (hbefore : id ∉ before.map (·.1)) (hafter : id ∉ after.map (·.1))
    (old new : Attrs) :
    setAttrs ⟨before ++ (id, old) :: after, tempIds, nextId⟩ id new
      = ⟨before ++ (id, new) :: after, tempIds, nextId⟩ := by
  have keep : ∀ es : List (EntityId × Attrs), id ∉ es.map (·.1) →
      es.map (fun e => if e.1 = id then (id, new) else e) = es := by
    intro es hes
    have hsame : ∀ e ∈ es, (if e.1 = id then (id, new) else e) = e := by
      intro e he
      refine if_neg fun hid => ?_
      exact hes (hid ▸ List.mem_map_of_mem he)
    exact (List.map_congr_left hsame).trans (List.map_id es)
  simp only [setAttrs, List.map_append, List.map_cons, if_true, keep before hbefore,
    keep after hafter]

/-- **The attributes of a create are written one over the other**, its config id apart. -/
theorem fill_toOp (tempIds : List (String × EntityId)) (nextId : EntityId)
    (hbefore : id ∉ before.map (·.1)) (hafter : id ∉ after.map (·.1))
    {attrs : Attrs}
    (hattrs : ∀ f ∈ attrs, f.1 ≠ dbId ∧
      f.2.Sound fun n => n ∈ before.map (·.1) ∨ n = id ∨ n ∈ after.map (·.1)) (old : Attrs) :
    fill ⟨before ++ (id, old) :: after, tempIds, nextId⟩ id (attrs.map fun f => (f.1, f.2.toOp))
      = .ok ⟨before ++ (id, Fields.putAll old (Fields.erase attrs configId)) :: after,
          tempIds, nextId⟩ := by
  induction attrs generalizing old with
  | nil => rfl
  | cons f rest ih =>
    obtain ⟨hdb, hsound⟩ := hattrs f List.mem_cons_self
    have hrest := ih fun g hg => hattrs g (List.mem_cons_of_mem f hg)
    rw [List.map_cons, fill]
    by_cases hconfig : f.1 = configId
    · have hskip : Fields.erase (f :: rest) configId = Fields.erase rest configId := by
        simp [Fields.erase, hconfig]
      rw [if_pos hconfig, hrest, hskip]
    · have hkeep : Fields.erase (f :: rest) configId = f :: Fields.erase rest configId := by
        simp [Fields.erase, hconfig]
      have hvalue : resolveValue ⟨before ++ (id, old) :: after, tempIds, nextId⟩ f.2.toOp
          = .ok f.2 := by
        refine resolveValue_toOp (hsound.mono fun n hn => has_iff_mem.mpr ?_)
        simpa using hn
      have hwrite : write ⟨before ++ (id, old) :: after, tempIds, nextId⟩ id f.1 f.2
          = .ok ⟨before ++ (id, Fields.put old f.1 f.2) :: after, tempIds, nextId⟩ := by
        unfold write
        rw [if_neg hdb, if_neg hconfig, attrsOf_split hbefore, setAttrs_split hbefore hafter]
      rw [if_neg hconfig, hvalue, ok_bind, hwrite, ok_bind, hkeep]
      exact hrest (Fields.put old f.1 f.2)

end Fill

/-- An entity after both passes. -/
def filled (e : EntityId × Attrs) : EntityId × Attrs :=
  (e.1, Fields.putAll (heading e.2) (Fields.erase (shownAttrs e) configId))

theorem ids_headed (es : List (EntityId × Attrs)) :
    (es.map headed).map (·.1) = es.map (·.1) := by
  rw [List.map_map]
  rfl

theorem ids_filled (es : List (EntityId × Attrs)) :
    (es.map filled).map (·.1) = es.map (·.1) := by
  rw [List.map_map]
  rfl

/-- **The second pass gives every entity its attributes.** -/
theorem performAll_dump (hdense : d.Dense) (htidy : d.Tidy) (hgrounded : d.Grounded)
    (before : List (EntityId × Attrs)) {after : List (EntityId × Attrs)}
    (hsplit : d.entities = before ++ after) (index : Nat) (tempIds : List (String × EntityId))
    (nextId : EntityId) :
    performAll index ⟨before.map filled ++ after.map headed, tempIds, nextId⟩ (after.map filling)
      = .ok ⟨d.entities.map filled, tempIds, nextId⟩ := by
  induction after generalizing before index with
  | nil => rw [hsplit]; simp; rfl
  | cons e rest ih =>
    have hmem : e ∈ d.entities := by
      rw [hsplit]
      exact List.mem_append_right _ List.mem_cons_self
    obtain ⟨hbefore, hafter⟩ := hdense.split_disjoint hsplit
    have hattrs : ∀ f ∈ shownAttrs e, f.1 ≠ dbId ∧
        f.2.Sound fun n => n ∈ (before.map filled).map (·.1) ∨ n = e.1 ∨
          n ∈ (rest.map headed).map (·.1) := by
      intro f hf
      have hfmem := (htidy.shownAttrs_perm hmem).subset hf
      refine ⟨(htidy.named e hmem f hfmem).2, (hgrounded.values e hmem f hfmem).mono fun n hn => ?_⟩
      have hids := has_iff_mem.mp hn
      rw [hsplit] at hids
      rw [ids_filled, ids_headed]
      simpa using hids
    have hfirst : perform ⟨before.map filled ++ headed e :: rest.map headed, tempIds, nextId⟩
        (filling e)
        = .ok ⟨(before ++ [e]).map filled ++ rest.map headed, tempIds, nextId⟩ := by
      have hfill := fill_toOp tempIds nextId
        ((ids_filled before).symm ▸ hbefore) ((ids_headed rest).symm ▸ hafter) hattrs (heading e.2)
      rw [List.map_append, List.append_assoc]
      exact hfill
    have hrest := ih (before ++ [e]) (by simpa using hsplit) (index + 1)
    rw [List.map_cons, List.map_cons, performAll, hfirst]
    exact hrest

/-- What both passes write of an entity is all it had. -/
theorem filled_perm {e : EntityId × Attrs} (hnodup : (Fields.names e.2).Nodup)
    (hid : dbId ∉ Fields.names e.2) : (filled e).2.Perm e.2 := by
  refine Fields.perm_of_get?_eq (Fields.nodup_putAll _ (nodup_heading e.2)) hnodup fun name => ?_
  have hshown : (Fields.names (shownAttrs e)).Nodup :=
    ((ConfGraph.shownAttrs_perm hnodup hid).map _).nodup_iff.mpr hnodup
  have hrest := Fields.nodup_erase hshown configId
  have hreverse := Fields.get?_eq_of_perm hrest (List.reverse_perm _).symm name
  rw [filled, Fields.get?_putAll, ← hreverse, Fields.get?_erase, get?_heading,
    get?_shownAttrs hnodup hid]
  by_cases hconfig : name = configId
  · simp [hconfig]
  · simp [hconfig]

/-- **Both passes over the dump of a store** make its entities out of nothing. -/
theorem run_dump (hdense : d.Dense) (htidy : d.Tidy) (hnamed : d.Named) (hgrounded : d.Grounded) :
    Graph.empty.draft.run (d.entities.map creating)
      = .ok ⟨d.entities.map filled, [], d.nextId⟩ := by
  have hprepare := prepareAll_dump hdense htidy hnamed [] rfl 0
  have hperform := performAll_dump hdense htidy hgrounded [] rfl 0 [] d.nextId
  rw [← hdense.nextId] at hprepare
  have hstart : Graph.empty.draft = ⟨[], [], 1⟩ := rfl
  unfold run
  rw [hstart]
  simp only [List.map_nil, List.length_nil, Nat.zero_add] at hprepare
  simp only [List.map_nil, List.nil_append] at hperform
  simp only [hprepare, hperform]

end Draft

/-! ## 5. The dump of a reachable graph -/

/-- The same entities under the same ids, in the same order, each with the same attributes in
whatever order. -/
def SameEntities : List (EntityId × Attrs) → List (EntityId × Attrs) → Prop :=
  List.Forall₂ fun e e' => e.1 = e'.1 ∧ e.2.Perm e'.2

namespace Graph.Reachable

variable {g : Graph}

/-- Ids can be written as long as doubles tell them apart. -/
theorem sound_isWritable (h : g.Reachable) (countable : g.entities.length ≤ Cause.exactBound)
    {e : EntityId × Attrs} (he : e ∈ g.entities) {f : String × AttrValue} (hf : f ∈ e.2) :
    f.2.Sound IsWritable := by
  refine (h.grounded.values e he f hf).mono fun n hn => ?_
  obtain ⟨hpos, hlt⟩ := h.dense.has_iff.mp hn
  rw [h.dense.nextId] at hlt
  exact ⟨hpos, Nat.le_trans (Nat.le_of_lt_succ hlt) countable⟩

theorem createOf_entityValue (h : g.Reachable) (countable : g.entities.length ≤ Cause.exactBound)
    {e : EntityId × Attrs} (he : e ∈ g.entities) :
    createOf (Graph.entityValue e) = (creating e).toValue := by
  have hvalues : (shownAttrs e).map (fun f => (f.1, f.2.toValue))
      = (shownAttrs e).map fun f => (f.1, f.2.toOp.toValue) := by
    refine List.map_congr_left fun f hf => ?_
    have hfmem := (h.tidy.shownAttrs_perm he).subset hf
    rw [(h.sound_isWritable countable he hfmem).toValue_toOp]
  rw [createOf, fields_entityValue, hvalues, creating, TxOp.toValue, List.map_map]
  rfl

theorem dump_eq (h : g.Reachable) (countable : g.entities.length ≤ Cause.exactBound) :
    g.dump = .list ((g.entities.map creating).map TxOp.toValue) := by
  rw [Graph.dump, List.map_map]
  exact congrArg Value.list
    (List.map_congr_left fun e he => h.createOf_entityValue countable he)

theorem creating_valid (h : g.Reachable) (countable : g.entities.length ≤ Cause.exactBound)
    (no_proto : ∀ e ∈ g.entities, Fields.has e.2 "__proto__" = false) :
    ∀ op ∈ g.entities.map creating, op.Valid := by
  intro op hop
  obtain ⟨e, he, rfl⟩ := List.mem_map.mp hop
  refine ⟨nofun, fun f hf => ?_⟩
  obtain ⟨f', hf', rfl⟩ := List.mem_map.mp hf
  have hmem := (h.tidy.shownAttrs_perm he).subset hf'
  refine ⟨?_, (h.tidy.named e he f' hmem).1, (h.sound_isWritable countable he hmem).valid_toOp⟩
  intro hproto
  have hhas := Fields.has_iff_mem_names.mpr (List.mem_map_of_mem (f := (·.1)) hmem)
  rw [show f'.1 = "__proto__" from hproto, no_proto e he] at hhas
  exact nomatch hhas

end Graph.Reachable

/-- **Dump and reload.**  On the empty graph the dump of a reachable graph is accepted, whoever
contributes it, and gives the same entities under the same ids with the same attributes, and the
same next id.  Reading drops `__proto__`, so no entity may have an attribute of that name; and since
ids are written as numbers, there may be as many entities as doubles tell apart, far more than an array
holds. -/
theorem reload_dump {g : Graph} (h : g.Reachable)
    (no_proto : ∀ e ∈ g.entities, Fields.has e.2 "__proto__" = false)
    (countable : g.entities.length ≤ Cause.exactBound) (provenance : Value) :
    ∃ r, Graph.empty.applyOps g.dump provenance = .ok r ∧
      (r.getD Graph.empty).nextId = g.nextId ∧
      SameEntities (r.getD Graph.empty).entities g.entities := by
  have hcount : (g.entities.map creating).length < Number.smallBound := by
    rw [List.length_map]
    exact Shape.lt_smallBound countable
  have hread := ofValue_toValue (h.creating_valid countable no_proto) hcount
  rw [← h.dump_eq countable] at hread
  by_cases hempty : g.entities = []
  · have hnext : g.nextId = 1 := by simpa [Graph.finished, hempty] using h.dense.nextId
    refine ⟨none, ?_, hnext.symm, hempty ▸ .nil⟩
    simp [Graph.applyOps, hread, hempty]
  · have hne : g.entities.map creating ≠ [] := fun hnil => hempty (List.map_eq_nil_iff.mp hnil)
    have hrun := Draft.run_dump h.dense h.tidy h.named h.grounded
    refine ⟨_, Graph.applyOps_of_run hread hne hrun, rfl, ?_⟩
    refine List.forall₂_map_left_iff.mpr (List.forall₂_same.mpr fun e he => ⟨rfl, ?_⟩)
    exact Draft.filled_perm (h.tidy.nodup e he) (h.tidy.dbId_not_mem he)

/-- Two entities with config ids that refer forward, back and to themselves, one of them under a name
that shows before the others. -/
def crossedOps : Value := .list [
  .record .host [("op", .str "create"), ("attrs", .record .host [
    ("config/id", .str "app/root"), ("next", .record .host [("ref", .record .host [
      ("attr", .str "config/id"), ("value", .str "app/leaf")])]), ("7", .null)])],
  .record .host [("op", .str "create"), ("attrs", .record .host [
    ("back", .list [.record .host [("ref", .nat 1)]]), ("config/id", .str "app/leaf"),
    ("self", .record .host [("ref", .nat 2)])])]]

/-- What `crossedOps` makes of the empty graph. -/
def crossedGraph : Graph where
  basisTx := 1
  nextId := 3
  entities := [
    (1, [("7", .null), ("config/id", .str "app/root"), ("next", .ref 2)]),
    (2, [("config/id", .str "app/leaf"), ("back", .list [.ref 1]), ("self", .ref 2)])]
  tempIds := []
  transactions := [⟨1, 2, .null⟩]

theorem crossedGraph_reachable : crossedGraph.Reachable :=
  @Graph.Reachable.step Graph.empty crossedGraph crossedOps .null .empty rfl

theorem reload_dump_crossedGraph :
    (∀ e ∈ crossedGraph.entities, Fields.has e.2 "__proto__" = false) ∧
      crossedGraph.entities.length ≤ Cause.exactBound ∧
      ∃ r, Graph.empty.applyOps crossedGraph.dump .null = .ok r ∧
        (r.getD Graph.empty).nextId = 3 ∧
        SameEntities (r.getD Graph.empty).entities crossedGraph.entities :=
  have no_proto : ∀ e ∈ crossedGraph.entities, Fields.has e.2 "__proto__" = false := by
    simp [crossedGraph, Fields.has, Fields.get?_cons]
  have countable : crossedGraph.entities.length ≤ Cause.exactBound := by decide
  ⟨no_proto, countable, reload_dump crossedGraph_reachable no_proto countable .null⟩

end ConfGraph
