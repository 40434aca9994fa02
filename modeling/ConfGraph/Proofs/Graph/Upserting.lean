import ConfGraph.Proofs.Graph.LastWriter

/-!
# Upserting twice is upserting once

A batch of creates that all give a config id can be applied again.  The second time each of them finds
the entity that the first time has made or found, binds its name to it again, and writes over what was
written.  What it writes is the same, because its references lead where they led: by ids, by names of
the transaction and by config ids, none of which such a batch moves while it writes.  And a list of
writes has done all it can do once it is through, down to the order of the attributes.

* `TxOp.Upserts`: creates of this kind.
* `Draft.SameNames`: drafts in which steady references lead to the same entities.
* `Draft.puts`: a list of writes, its references resolved.
* `Draft.exists_puts`: the second pass is such a list, and the same one from any of these drafts.
* `Draft.puts_puts`: writing twice is writing once.
* `Draft.prepareAll_again`: the first pass finds again what it has found.
* `upserting_twice_is_upserting_once`: a whole batch.
-/

namespace ConfGraph

/-! ## 1. Upserting creates -/

/-- A reference by an id, by a name of the transaction or by a config id. -/
def EntityRef.IsSteady : EntityRef → Prop
  | .id _ => True
  | .tempId _ => True
  | .lookup attr _ => attr = configId

/-- All references in a value, at any depth, are of this kind. -/
inductive OpValue.IsSteady : OpValue → Prop
  | str (s : String) : IsSteady (.str s)
  | num (x : Float) : IsSteady (.num x)
  | bool (b : Bool) : IsSteady (.bool b)
  | null : IsSteady .null
  | list {items : List OpValue} (items_steady : ∀ a ∈ items, IsSteady a) : IsSteady (.list items)
  | ref {target : EntityRef} (target_steady : target.IsSteady) : IsSteady (.ref target)

/-- A create that gives a config id and whose references are all steady. -/
def TxOp.Upserts : TxOp → Prop
  | .create _ attrs => Fields.has attrs configId = true ∧ ∀ f ∈ attrs, f.2.IsSteady
  | .assert .. => False
  | .retract .. => False

namespace Draft

variable {d d' x : Draft}

/-! ## 2. Drafts in which steady references lead to the same entities -/

/-- A draft with the same entities, the same config ids and the same names of the transaction. -/
structure SameNames (d x : Draft) : Prop where
  dense : x.Dense
  configIds : configIds x.entities = configIds d.entities
  tempIds : x.tempIds = d.tempIds

namespace SameNames

theorem has (h : SameNames d x) (e : EntityId) : x.has e = d.has e := by
  have hids : x.entities.map (·.1) = d.entities.map (·.1) := by
    simpa [Draft.configIds, Function.comp_def] using congrArg (List.map Prod.fst) h.configIds
  rw [Bool.eq_iff_iff, has_iff_mem, has_iff_mem, hids]

theorem resolve (h : SameNames d x) {r : EntityRef} (hr : r.IsSteady) :
    x.resolve r = d.resolve r := by
  cases r with
  | id n => simp only [Draft.resolve, h.has]
  | tempId name => simp only [Draft.resolve, h.tempIds]
  | lookup attr value =>
    subst hr
    simp only [Draft.resolve, findIn_configId h.configIds]

mutual

/-- **What a value is resolved to** is the same in both. -/
theorem resolveValue (h : SameNames d x) : ∀ {v : OpValue}, v.IsSteady →
    x.resolveValue v = d.resolveValue v
  | .str _, _ => rfl
  | .num _, _ => rfl
  | .bool _, _ => rfl
  | .null, _ => rfl
  | .list items, .list items_steady => by
    rw [Draft.resolveValue, Draft.resolveValue, SameNames.resolveItems h items_steady]
  | .ref target, .ref target_steady => by
    rw [Draft.resolveValue, Draft.resolveValue, h.resolve target_steady]

theorem resolveItems (h : SameNames d x) : ∀ {items : List OpValue}, (∀ a ∈ items, a.IsSteady) →
    x.resolveItems items = d.resolveItems items
  | [], _ => rfl
  | v :: rest, hitems => by
    have hfirst := SameNames.resolveValue h (hitems v List.mem_cons_self)
    have hrest := SameNames.resolveItems h fun a ha => hitems a (List.mem_cons_of_mem v ha)
    rw [Draft.resolveItems, Draft.resolveItems, hfirst, hrest]

end

/-- A write of another attribute than the config id moves no name. -/
theorem put (h : SameNames d x) (id : EntityId) {name : String} (hname : name ≠ configId)
    (value : AttrValue) : SameNames d (x.setAttrs id (Fields.put (x.attrsOf id) name value)) where
  dense := h.dense.setAttrs id _
  configIds := (configIds_setAttrs h.dense (Fields.get?_put_of_ne _ value (Ne.symm hname))).trans
    h.configIds
  tempIds := h.tempIds

end SameNames

/-! ## 3. Lists of writes -/

/-- A write of one attribute, its references resolved. -/
structure Put where
  entity : EntityId
  name : String
  value : AttrValue

/-- Does one write. -/
def put (d : Draft) (w : Put) : Draft :=
  d.setAttrs w.entity (Fields.put (d.attrsOf w.entity) w.name w.value)

/-- Does writes one after the other. -/
def puts (d : Draft) (ws : List Put) : Draft := ws.foldl put d

/-- **Filling in the attributes of a create is a list of writes**, the same from any draft in which
references lead to the same entities. -/
theorem exists_puts_of_fill {id : EntityId} {attrs : Fields OpValue} {x' : Draft}
    (hattrs : ∀ f ∈ attrs, f.2.IsSteady) (hx : SameNames d x) (h : x.fill id attrs = .ok x') :
    ∃ ws : List Put, (∀ w ∈ ws, w.name ≠ configId) ∧
      ∀ y, SameNames d y → y.fill id attrs = .ok (y.puts ws) := by
  induction attrs generalizing x with
  | nil => exact ⟨[], fun _ hw => absurd hw List.not_mem_nil, fun y _ => rfl⟩
  | cons f rest ih =>
    obtain ⟨name, value⟩ := f
    obtain ⟨hvalue, hrest⟩ := List.forall_mem_cons.mp hattrs
    by_cases hname : name = configId
    · rw [fill, if_pos hname] at h
      obtain ⟨ws, hws, hfill⟩ := ih hrest hx h
      refine ⟨ws, hws, fun y hy => ?_⟩
      rw [fill, if_pos hname]
      exact hfill y hy
    · obtain ⟨a, x₁, ha, hwrite, h⟩ := (fill_cons_eq_ok_iff hname).mp h
      obtain ⟨hdb, rfl⟩ := (write_eq_ok_iff hname).mp hwrite
      obtain ⟨ws, hws, hfill⟩ := ih hrest (hx.put id hname a) h
      refine ⟨⟨id, name, a⟩ :: ws, List.forall_mem_cons.mpr ⟨hname, hws⟩, fun y hy => ?_⟩
      refine (fill_cons_eq_ok_iff hname).mpr ⟨a, _, ?_, (write_eq_ok_iff hname).mpr ⟨hdb, rfl⟩, ?_⟩
      · rw [hy.resolveValue hvalue, ← hx.resolveValue hvalue, ha]
      · exact hfill _ (hy.put id hname a)

theorem SameNames.puts {ws : List Put} (hws : ∀ w ∈ ws, w.name ≠ configId) {x : Draft}
    (h : SameNames d x) : SameNames d (x.puts ws) := by
  induction ws generalizing x with
  | nil => exact h
  | cons w rest ih =>
    obtain ⟨hw, hrest⟩ := List.forall_mem_cons.mp hws
    exact ih hrest (h.put w.entity hw w.value)

/-- The task of a create whose references are steady. -/
def Task.IsSteady : Task → Prop
  | .fill _ attrs => ∀ f ∈ attrs, f.2.IsSteady
  | .assert .. => False
  | .retract .. => False

/-- **The second pass over such creates is a list of writes**, the same from any draft in which
references lead to the same entities. -/
theorem exists_puts {tasks : List Task} {index : Nat} {x' : Draft}
    (htasks : ∀ task ∈ tasks, task.IsSteady) (hx : SameNames d x)
    (h : performAll index x tasks = .ok x') :
    ∃ ws : List Put, (∀ w ∈ ws, w.name ≠ configId) ∧
      ∀ y, SameNames d y → ∀ j, performAll j y tasks = .ok (y.puts ws) := by
  induction tasks generalizing index x with
  | nil => exact ⟨[], fun _ hw => absurd hw List.not_mem_nil, fun y _ j => rfl⟩
  | cons task rest ih =>
    obtain ⟨htask, hrest⟩ := List.forall_mem_cons.mp htasks
    obtain ⟨x₁, hfirst, h⟩ := performAll_cons_eq_ok_iff.mp h
    cases task with
    | fill id attrs =>
      obtain ⟨us, hus, hfill⟩ := exists_puts_of_fill htask hx hfirst
      obtain rfl := Except.ok.inj (hfirst.symm.trans (hfill x hx))
      obtain ⟨ws, hws, hothers⟩ := ih hrest (hx.puts hus) h
      refine ⟨us ++ ws, fun w hw => (List.mem_append.mp hw).elim (hus w) (hws w), fun y hy j => ?_⟩
      refine performAll_cons_eq_ok_iff.mpr ⟨y.puts us, hfill y hy, ?_⟩
      rw [hothers _ (hy.puts hus), Draft.puts, Draft.puts, Draft.puts, List.foldl_append]
    | assert => exact absurd htask id
    | retract => exact absurd htask id

theorem isSteady_of_found {ops : List TxOp} {tasks : List Task} (hops : ∀ op ∈ ops, op.Upserts)
    (h : List.Forall₂ (Found d) ops tasks) : ∀ task ∈ tasks, task.IsSteady := by
  induction h with
  | nil => exact fun _ htask => absurd htask List.not_mem_nil
  | cons hfirst _ ih =>
    obtain ⟨hop, hrest⟩ := List.forall_mem_cons.mp hops
    refine List.forall_mem_cons.mpr ⟨?_, ih hrest⟩
    cases hfirst with
    | create => exact hop.2
    | assert => exact hop
    | retract => exact hop

/-! ## 4. Writing twice is writing once -/

theorem read_put (d : Draft) (w : Put) (e : EntityId) (attr : String) :
    (d.put w).read e attr
      = if (w.entity = e ∧ w.name = attr) ∧ d.has e = true then some w.value
        else d.read e attr := by
  rw [put, read_setAttrs]
  by_cases he : e = w.entity
  · subst he
    by_cases hattr : attr = w.name
    · subst hattr
      by_cases hhas : d.has w.entity = true
      · simp [hhas]
      · simp [hhas]
    · rw [Fields.get?_put_of_ne _ _ hattr]
      simp [Ne.symm hattr, read]
  · simp [he, Ne.symm he]

theorem has_puts (ws : List Put) (d : Draft) (e : EntityId) : (d.puts ws).has e = d.has e := by
  induction ws generalizing d with
  | nil => rfl
  | cons w rest ih => exact (ih (d.put w)).trans (has_setAttrs d _ _ e)

theorem read_puts_of_not_mem {ws : List Put} {e : EntityId} {attr : String}
    (h : ∀ w ∈ ws, ¬ (w.entity = e ∧ w.name = attr)) (d : Draft) :
    (d.puts ws).read e attr = d.read e attr := by
  induction ws generalizing d with
  | nil => rfl
  | cons w rest ih =>
    obtain ⟨hw, hrest⟩ := List.forall_mem_cons.mp h
    have hput : (d.put w).read e attr = d.read e attr := by
      rw [read_put, if_neg fun hall => hw hall.1]
    exact (ih hrest (d.put w)).trans hput

/-- An attribute that is written is the same afterwards, whatever it was. -/
theorem read_puts_of_mem {ws : List Put} {e : EntityId} {attr : String}
    (h : ∃ w ∈ ws, w.entity = e ∧ w.name = attr) :
    ∃ a, ∀ d : Draft, d.has e = true → (d.puts ws).read e attr = some a := by
  induction ws with
  | nil =>
    obtain ⟨w, hw, -⟩ := h
    cases hw
  | cons w rest ih =>
    by_cases hrest : ∃ w ∈ rest, w.entity = e ∧ w.name = attr
    · obtain ⟨a, ha⟩ := ih hrest
      exact ⟨a, fun d hd => ha (d.put w) ((has_setAttrs d _ _ e).trans hd)⟩
    · have hnot : ∀ w ∈ rest, ¬ (w.entity = e ∧ w.name = attr) := fun v hv hsame =>
        hrest ⟨v, hv, hsame⟩
      obtain ⟨v, hv, hsame⟩ := h
      obtain rfl : v = w := (List.mem_cons.mp hv).resolve_right fun hin => hnot v hin hsame
      refine ⟨v.value, fun d hd => ?_⟩
      have hlater := read_puts_of_not_mem hnot (d.put v)
      rw [read_put, if_pos ⟨hsame, hd⟩] at hlater
      exact hlater

/-- Writes to attributes that are there leave their order alone. -/
theorem names_puts {ws : List Put} {d : Draft}
    (h : ∀ w ∈ ws, d.has w.entity = true → (d.read w.entity w.name).isSome = true) (e : EntityId) :
    Fields.names ((d.puts ws).attrsOf e) = Fields.names (d.attrsOf e) := by
  induction ws generalizing d with
  | nil => rfl
  | cons w rest ih =>
    obtain ⟨hw, hrest⟩ := List.forall_mem_cons.mp h
    have hput : Fields.names ((d.put w).attrsOf e) = Fields.names (d.attrsOf e) := by
      rw [put, attrsOf_setAttrs]
      split
      · next he =>
        obtain ⟨rfl, hhas⟩ := he
        exact Fields.names_put_of_has (hw hhas) w.value
      · rfl
    refine (ih fun v hv hhas => ?_).trans hput
    rw [read_put]
    split
    · rfl
    · exact hrest v hv ((has_setAttrs d _ _ _).symm.trans hhas)

theorem Dense.puts (ws : List Put) {d : Draft} (h : d.Dense) : (d.puts ws).Dense := by
  induction ws generalizing d with
  | nil => exact h
  | cons w rest ih => exact ih (h.setAttrs w.entity _)

/-- Writes add no entity and bind no name. -/
theorem puts_keeps (ws : List Put) (d : Draft) :
    (d.puts ws).entities.map (·.1) = d.entities.map (·.1) ∧ (d.puts ws).tempIds = d.tempIds ∧
      (d.puts ws).nextId = d.nextId := by
  induction ws generalizing d with
  | nil => exact ⟨rfl, rfl, rfl⟩
  | cons w rest ih =>
    obtain ⟨hids, htempIds, hnextId⟩ := ih (d.put w)
    exact ⟨hids.trans (ids_setAttrs d _ _), htempIds, hnextId⟩

/-- The entities are the ids with the attributes that are looked up under them. -/
theorem Dense.entities_eq {a : Draft} (ha : a.Dense) :
    (a.entities.map (·.1)).map (fun e => (e, a.attrsOf e)) = a.entities := by
  rw [List.map_map]
  refine (List.map_congr_left fun f hf => ?_).trans (List.map_id a.entities)
  rw [Function.comp_apply, ha.attrsOf_of_mem (show (f.1, f.2) ∈ a.entities from hf)]
  rfl

/-- Entities are told by their ids and attributes. -/
theorem Dense.entities_ext {a b : Draft} (ha : a.Dense) (hb : b.Dense)
    (hids : a.entities.map (·.1) = b.entities.map (·.1)) (hattrs : ∀ e, a.attrsOf e = b.attrsOf e) :
    a.entities = b.entities := by
  rw [← ha.entities_eq, ← hb.entities_eq, hids]
  exact List.map_congr_left fun e _ => by rw [hattrs e]

/-- **Writing twice is writing once**, down to the order of the attributes. -/
theorem puts_puts {ws : List Put} (hdense : (d.puts ws).Dense) (htidy : (d.puts ws).Tidy) :
    (d.puts ws).puts ws = d.puts ws := by
  have hread : ∀ e attr, ((d.puts ws).puts ws).read e attr = (d.puts ws).read e attr := by
    intro e attr
    by_cases hmem : ∃ w ∈ ws, w.entity = e ∧ w.name = attr
    · obtain ⟨a, ha⟩ := read_puts_of_mem hmem
      cases he : d.has e with
      | false =>
        have hnot : (d.puts ws).has e = false := (has_puts ws d e).trans he
        rw [read_of_not_has hnot, read_of_not_has ((has_puts ws _ e).trans hnot)]
      | true => rw [ha d he, ha _ ((has_puts ws d e).trans he)]
    · push Not at hmem
      exact read_puts_of_not_mem (fun w hw hsame => hmem w hw hsame.1 hsame.2) _
  have hthere : ∀ w ∈ ws, (d.puts ws).has w.entity = true →
      ((d.puts ws).read w.entity w.name).isSome = true := by
    intro w hw hhas
    obtain ⟨a, ha⟩ := read_puts_of_mem ⟨w, hw, rfl, rfl⟩
    rw [ha d ((has_puts ws d _).symm.trans hhas)]
    rfl
  have hattrs : ∀ e, ((d.puts ws).puts ws).attrsOf e = (d.puts ws).attrsOf e := by
    intro e
    have hnames := names_puts hthere e
    exact Fields.eq_of_names_eq hnames (hnames ▸ htidy.nodup_attrsOf e) (hread e)
  obtain ⟨hids, htempIds, hnextId⟩ := puts_keeps ws (d.puts ws)
  have hentities := (hdense.puts ws).entities_ext hdense hids hattrs
  generalize (d.puts ws).puts ws = x at hentities htempIds hnextId
  obtain ⟨entities, tempIds, nextId⟩ := x
  obtain rfl : entities = _ := hentities
  obtain rfl : tempIds = _ := htempIds
  obtain rfl : nextId = _ := hnextId
  rfl

/-! ## 5. The first pass once more -/

/-- A name that was bound to an entity is bound to it again, whatever the entities are. -/
theorem bind_again {a b b' : Draft} {t : String} {id : EntityId} (h : b.bind t id = .ok b')
    (htempIds : a.tempIds = b.tempIds) : a.bind t id = .ok { a with tempIds := b'.tempIds } := by
  obtain ⟨entities, tempIds, nextId⟩ := a
  obtain rfl : tempIds = b.tempIds := htempIds
  unfold bind at h ⊢
  split at h
  · next hfree =>
    obtain rfl := Except.ok.inj h
    simp only [hfree]
  · next bound hbound =>
    split at h
    · next hsame =>
      obtain rfl := Except.ok.inj h
      simp only [hbound, if_pos hsame]
    · cases h

/-- **A create finds the entity again** that it has found or made, once this has its config id. -/
theorem allocate_again {a b b' : Draft} {tempId : Option String} {attrs : Fields OpValue}
    {id : EntityId} {name : String} (h : b.allocate tempId attrs = .ok (id, b'))
    (hname : givenName attrs = .ok (some name)) (ha : a.named? name = some id)
    (htempIds : a.tempIds = b.tempIds) :
    a.allocate tempId attrs = .ok (id, { a with tempIds := b'.tempIds }) := by
  have hplace : a.place (some name) = (id, a) := by
    rw [named?] at ha
    simp [place, ha]
  unfold allocate at h ⊢
  split at h
  · cases h
  · next hdb =>
    rw [if_neg hdb]
    rw [hname, ok_bind] at h ⊢
    rw [hplace]
    have hkept := tempIds_place b (some name)
    generalize b.place (some name) = placing at h hkept
    obtain ⟨id', b₀⟩ := placing
    cases tempId with
    | none =>
      obtain ⟨rfl, rfl⟩ := Prod.mk.inj (Except.ok.inj h)
      obtain ⟨entities, tempIds, nextId⟩ := a
      obtain rfl : tempIds = b₀.tempIds := htempIds.trans hkept.symm
      rfl
    | some t =>
      obtain ⟨bound, hbind, h⟩ := bind_eq_ok h
      obtain ⟨rfl, rfl⟩ := Prod.mk.inj (Except.ok.inj h)
      simp only [bind_again hbind (htempIds.trans hkept.symm), ok_bind]

/-- **The first pass finds again what it has found**, in a draft in which it is still named. -/
theorem prepareAll_again {ops : List TxOp} (hops : ∀ op ∈ ops, op.Upserts) {index j : Nat}
    {a b b' : Draft} {tasks : List Task} (h : prepareAll index b ops = .ok (tasks, b'))
    (hnamed : ∀ name id, b'.named? name = some id → a.named? name = some id)
    (htempIds : a.tempIds = b.tempIds) :
    prepareAll j a ops = .ok (tasks, { a with tempIds := b'.tempIds }) := by
  induction ops generalizing index j a b tasks with
  | nil =>
    obtain ⟨rfl, rfl⟩ := prepareAll_nil_eq_ok_iff.mp h
    rw [← htempIds]
    rfl
  | cons op rest ih =>
    obtain ⟨hop, hrest⟩ := List.forall_mem_cons.mp hops
    obtain ⟨task, b₁, tasks', hfirst, hothers, rfl⟩ := prepareAll_cons_eq_ok_iff.mp h
    have hgrows := (found_of_prepareAll hothers).2
    cases op with
    | create tempId attrs =>
      obtain ⟨⟨id, b₂⟩, halloc, hfirst'⟩ := bind_eq_ok hfirst
      obtain ⟨rfl, rfl⟩ := Prod.mk.inj (Except.ok.inj hfirst')
      obtain ⟨name, hname, hplaced, -⟩ := allocate_eq_ok halloc
      have hunnamed := (givenName_eq_ok tempId hname).2
      simp only [TxOp.isUnnamed, hop.1, Bool.not_true] at hunnamed
      obtain ⟨s, rfl⟩ := Option.isSome_iff_exists.mp (Option.isNone_eq_false_iff.mp hunnamed.symm)
      have hheld : a.named? s = some id :=
        hnamed s id (hgrows.named s id (by rw [hplaced.named? s, if_pos rfl]))
      have hagain : a.prepare (.create tempId attrs)
          = .ok (.fill id attrs, { a with tempIds := b₂.tempIds }) := by
        rw [prepare, allocate_again halloc hname hheld htempIds, ok_bind]
      refine prepareAll_cons_eq_ok_iff.mpr ⟨_, _, _, hagain, ih hrest hothers hnamed rfl, rfl⟩
    | assert => exact absurd hop id
    | retract => exact absurd hop id

end Draft

/-- **Upserting twice is upserting once.**  Let a batch of creates be applied to a reachable graph,
each of which gives a config id and refers to others by ids, by names of the transaction and by config
ids only.  Then it can be applied again to the graph that it makes, whoever contributes it, and the
next id, the entities with their attributes, in the same order, and the names of the transaction are
the same as before. -/
theorem upserting_twice_is_upserting_once {g : Graph} {batch provenance : Value} {ops : List TxOp}
    {next : Option Graph} (hg : g.Reachable) (hread : Batch.ofValue batch = .ok ops)
    (hops : ∀ op ∈ ops, op.Upserts) (happly : g.applyOps batch provenance = .ok next)
    (provenance' : Value) :
    ∃ again, (next.getD g).applyOps batch provenance' = .ok again ∧
      (again.getD (next.getD g)).nextId = (next.getD g).nextId ∧
      (again.getD (next.getD g)).entities = (next.getD g).entities ∧
      (again.getD (next.getD g)).tempIds = (next.getD g).tempIds := by
  cases next with
  | none =>
    have hempty := Graph.applyOps_eq_none_iff.mp happly
    exact ⟨none, Graph.applyOps_eq_none_iff.mpr hempty, rfl, rfl, rfl⟩
  | some g₁ =>
    have hg₁ := hg.step happly
    obtain ⟨ops', hread', hne, d', hrun, rfl⟩ := Graph.applyOps_eq_some happly
    obtain rfl := Except.ok.inj (hread.symm.trans hread')
    obtain ⟨tasks, d, hprepare, hperform⟩ := Draft.run_eq_ok_iff.mp hrun
    have hsteady := Draft.isSteady_of_found hops (Draft.found_of_prepareAll hprepare).1
    have hsteps := (Draft.steps_of_prepareAll (valid_of_ofValue hread) hprepare).1
    have hdense : d.Dense := hsteps.dense hg.dense_draft
    -- The second pass is a list of writes, from the draft of the first pass and from its own result.
    have hsame : Draft.SameNames d d := ⟨hdense, rfl, rfl⟩
    obtain ⟨ws, hws, hputs⟩ := Draft.exists_puts hsteady hsame hperform
    obtain rfl := Except.ok.inj (hperform.symm.trans (hputs d hsame 0))
    have hsame' : Draft.SameNames d (d.puts ws) := hsame.puts hws
    have hnamed : ∀ name id, d.named? name = some id → (d.puts ws).named? name = some id := by
      intro name id hname
      rw [Draft.named?, Draft.findIn_configId hsame'.configIds]
      exact hname
    have hagain := Draft.prepareAll_again hops (j := 0) hprepare
      (a := ⟨(d.puts ws).entities, [], (d.puts ws).nextId⟩) hnamed rfl
    rw [← hsame'.tempIds] at hagain
    have hrun' : (g.commit (d.puts ws) ops.length provenance).draft.run ops = .ok (d.puts ws) := by
      refine Draft.run_eq_ok_iff.mpr ⟨tasks, d.puts ws, hagain, ?_⟩
      rw [hputs (d.puts ws) hsame' 0, Draft.puts_puts hsame'.dense ⟨hg₁.tidy.nodup, hg₁.tidy.named⟩]
    exact ⟨_, Graph.applyOps_of_run hread hne hrun', rfl, rfl, rfl⟩

/-- Two entities that refer to each other, by a name that is only bound later, by a config id and by
an id; and one of them is created twice, the second time with another port. -/
def peerOps : List TxOp := [
  .create (some "web") [(configId, .str "app/web"), ("port", .str "80"),
    ("peers", .list [.ref (.tempId "db"), .list [.ref (.lookup configId (.str "app/db"))]])],
  .create (some "db") [(configId, .str "app/db"), ("peer", .ref (.id 3))],
  .create (some "web") [("port", .str "90"), (configId, .str "app/web")]]

theorem peerOps_upsert : ∀ op ∈ peerOps, op.Upserts := by
  simp only [peerOps, List.forall_mem_cons, TxOp.Upserts, List.not_mem_nil, IsEmpty.forall_iff,
    implies_true, and_true]
  refine ⟨⟨by decide, .str _, .str _, ?_⟩, ⟨by decide, .str _, .ref trivial⟩,
    ⟨by decide, .str _, .str _⟩⟩
  refine .list (List.forall_mem_cons.mpr ⟨.ref trivial, List.forall_mem_singleton.mpr ?_⟩)
  exact .list (List.forall_mem_singleton.mpr (.ref rfl))

/-- What `peerOps` makes of two entities with a config id each. -/
def peerGraph : Graph where
  basisTx := 2
  nextId := 5
  entities := [
    (1, [(configId, .str "app/a")]), (2, [(configId, .str "app/b")]),
    (3, [(configId, .str "app/web"), ("port", .str "90"), ("peers", .list [.ref 4, .list [.ref 4]])]),
    (4, [(configId, .str "app/db"), ("peer", .ref 3)])]
  tempIds := [("web", 3), ("db", 4)]
  transactions := [⟨1, 2, .null⟩, ⟨2, 3, .null⟩]

theorem upserting_peerOps_twice :
    Session.namedGraph.Reachable ∧ (∀ op ∈ peerOps, op.Upserts) ∧
      Session.namedGraph.applyOps (.list (peerOps.map TxOp.toValue)) .null = .ok (some peerGraph) ∧
      ∃ again, peerGraph.applyOps (.list (peerOps.map TxOp.toValue)) (.str "again") = .ok again ∧
        (again.getD peerGraph).entities = peerGraph.entities ∧
        (again.getD peerGraph).tempIds = peerGraph.tempIds := by
  have hread : Batch.ofValue (.list (peerOps.map TxOp.toValue)) = .ok peerOps := rfl
  have happly : Session.namedGraph.applyOps (.list (peerOps.map TxOp.toValue)) .null
      = .ok (some peerGraph) := rfl
  obtain ⟨again, hagain, -, hentities, htempIds⟩ :=
    upserting_twice_is_upserting_once namedGraph_reachable hread peerOps_upsert happly (.str "again")
  exact ⟨namedGraph_reachable, peerOps_upsert, happly, again, hagain, hentities, htempIds⟩

end ConfGraph
