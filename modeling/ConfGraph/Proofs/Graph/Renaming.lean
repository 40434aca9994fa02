import ConfGraph.Proofs.Graph.OneByOne
import ConfGraph.Proofs.Graph.Passes
import ConfGraph.Proofs.Scope.Resolving

/-!
# What a batch makes of config ids

A create is given the entity that has its config id, or a new one that has it, before any op of the
batch has written; and its config id is not written again when its turn comes.  Ops that stand before
it may have taken the name from the entity by then.  So a config id is told by two things: what the
first pass has made of it, and what the ops last wrote over it or removed.

* `Draft.renames`, `Draft.renamesOf`: the config ids that ops write and remove.
* `Draft.name?_performAll`: the last of these at an entity stands, else what the first pass left.
* `Draft.fill_of_prepareAll`: the first pass gives a create an entity of its name, and keeps it so.
* `created_entity_keeps_its_name`: who has the config id of a create after the batch.
* `name_lost_to_an_earlier_op`: nobody, if an earlier op has removed it.
-/

namespace ConfGraph

namespace Draft

variable {d d' : Draft}

/-! ## 1. Config ids that ops write and remove -/

/-- The config id that an op writes or removes: at which entity, and what it leaves there. -/
def renames (d : Draft) : Task → List (EntityId × Option AttrValue)
  | .fill .. => []
  | .assert entity attr value =>
    if attr = configId then
      match d.resolve entity, d.resolveValue value with
      | .ok id, .ok value => [(id, some value)]
      | _, _ => []
    else []
  | .retract entity attr =>
    if attr = configId then
      match d.resolve entity with
      | .ok id => [(id, none)]
      | .error _ => []
    else []

/-- The config ids that ops write and remove, in the order in which they do. -/
def renamesOf (d : Draft) : List Task → List (EntityId × Option AttrValue)
  | [] => []
  | task :: rest =>
    d.renames task ++
      match d.perform task with
      | .ok d => renamesOf d rest
      | .error _ => []

theorem renames_of_leavesConfigIds {op : TxOp} {task : Task} (hop : op.LeavesConfigIds)
    (h : d.prepare op = .ok (task, d')) (b : Draft) : b.renames task = [] := by
  cases op with
  | create tempId attrs =>
    obtain ⟨⟨id, d₁⟩, -, h⟩ := bind_eq_ok h
    obtain ⟨rfl, -⟩ := Prod.mk.inj (Except.ok.inj h)
    rfl
  | assert entity attr value =>
    obtain ⟨rfl, -⟩ := Prod.mk.inj (Except.ok.inj h)
    exact if_neg hop
  | retract entity attr =>
    obtain ⟨rfl, -⟩ := Prod.mk.inj (Except.ok.inj h)
    exact if_neg hop

/-- Ops that leave config ids alone, from a position on, do so when their creates have their entities. -/
theorem renames_of_prepareAll {ops : List TxOp} {index : Nat} {d : Draft} {tasks : List Task}
    (h : prepareAll index d ops = .ok (tasks, d')) {i : Nat}
    (hleaves : ∀ op ∈ ops.drop i, op.LeavesConfigIds) :
    ∀ task ∈ tasks.drop i, ∀ b : Draft, b.renames task = [] := by
  induction ops generalizing index d tasks i with
  | nil =>
    obtain ⟨rfl, -⟩ := Prod.mk.inj (Except.ok.inj h)
    rw [List.drop_nil]
    exact fun _ htask => absurd htask List.not_mem_nil
  | cons op rest ih =>
    obtain ⟨task, d₁, tasks', hfirst, hrest, rfl⟩ := prepareAll_cons_eq_ok_iff.mp h
    cases i with
    | zero =>
      have hop := hleaves op List.mem_cons_self
      have hothers := ih hrest (i := 0) fun o ho => hleaves o (List.mem_cons_of_mem op ho)
      exact List.forall_mem_cons.mpr ⟨renames_of_leavesConfigIds hop hfirst, hothers⟩
    | succ i => exact ih hrest hleaves

/-- Ops that leave config ids alone may be left out at the end. -/
theorem renamesOf_take {tasks : List Task} {i : Nat}
    (h : ∀ task ∈ tasks.drop i, ∀ b : Draft, b.renames task = []) (d : Draft) :
    d.renamesOf tasks = d.renamesOf (tasks.take i) := by
  induction tasks generalizing i d with
  | nil => rw [List.take_nil]
  | cons task rest ih =>
    cases i with
    | zero =>
      have hfirst := h task List.mem_cons_self d
      have hrest := fun b => ih (i := 0) (fun t ht => h t (List.mem_cons_of_mem task ht)) b
      simp only [List.take_zero, renamesOf] at hrest ⊢
      rw [hfirst]
      cases d.perform task with
      | error c => rfl
      | ok d₁ => exact hrest d₁
    | succ i =>
      rw [List.take_succ_cons, renamesOf, renamesOf]
      cases d.perform task with
      | error c => rfl
      | ok d₁ => exact congrArg _ (ih h d₁)

/-! ## 2. Second pass: the last one stands -/

/-- What is written at an entity is its config id from then on, if it was written as such. -/
theorem name?_setAttrs {id : EntityId} {attrs : Attrs} (hid : d.has id = true) (e : EntityId) :
    (d.setAttrs id attrs).name? e
      = if e = id then Fields.get? attrs configId else d.name? e := by
  unfold name?
  rw [attrsOf_setAttrs]
  by_cases he : e = id
  · rw [if_pos ⟨he, hid⟩, if_pos he]
  · rw [if_neg fun h => he h.1, if_neg he]

theorem entities_of_write {id : EntityId} {name : String} {value : AttrValue}
    (h : d.write id name value = .ok d') :
    d' = d.setAttrs id (Fields.put (d.attrsOf id) name value) := by
  unfold write at h
  split at h
  · cases h
  · by_cases hconfig : name = configId
    · rw [if_pos hconfig] at h
      obtain ⟨_, -, h⟩ := bind_eq_ok h
      exact (Except.ok.inj h).symm
    · rw [if_neg hconfig] at h
      exact (Except.ok.inj h).symm

theorem lookup_singleton {α : Type} (id e : EntityId) (a : α) :
    [(id, a)].lookup e = if e = id then some a else none := by
  rw [List.lookup_cons]
  by_cases he : e = id
  · simp [he]
  · simp [he, beq_eq_false_iff_ne.mpr he]

/-- **One op**: the config id that it writes or removes, else the one before. -/
theorem name?_perform (hd : d.Grounded) {task : Task} (h : d.perform task = .ok d')
    (e : EntityId) : d'.name? e = ((d.renames task).lookup e).getD (d.name? e) := by
  cases task with
  | fill id attrs => exact name?_fill h e
  | assert entity attr value =>
    obtain ⟨id, hid, h⟩ := bind_eq_ok h
    obtain ⟨a, ha, hwrite⟩ := bind_eq_ok h
    by_cases hattr : attr = configId
    · subst hattr
      have hrenames : d.renames (.assert entity configId value) = [(id, some a)] := by
        simp only [renames, if_true, hid, ha]
      rw [entities_of_write hwrite, name?_setAttrs (hd.resolve hid), Fields.get?_put_self, hrenames,
        lookup_singleton]
      split <;> rfl
    · have hrenames : d.renames (.assert entity attr value) = [] := if_neg hattr
      rw [name?_write hwrite hattr, hrenames]
      rfl
  | retract entity attr =>
    obtain ⟨id, hid, hremove⟩ := bind_eq_ok h
    obtain ⟨-, rfl⟩ := remove_eq_ok_iff.mp hremove
    rw [name?_setAttrs (hd.resolve hid)]
    by_cases hattr : attr = configId
    · subst hattr
      have hrenames : d.renames (.retract entity configId) = [(id, none)] := by
        simp only [renames, if_true, hid]
      rw [Fields.get?_erase_self, hrenames, lookup_singleton]
      split <;> rfl
    · have hrenames : d.renames (.retract entity attr) = [] := if_neg hattr
      rw [Fields.get?_erase_of_ne _ (Ne.symm hattr), hrenames]
      split
      · next he => exact he ▸ rfl
      · rfl

/-- An op writes or removes one config id at most, so the first that it names is the last. -/
theorem reverse_renames (d : Draft) (task : Task) : (d.renames task).reverse = d.renames task := by
  cases task with
  | fill id attrs => rfl
  | assert entity attr value =>
    simp only [renames]
    split
    · split <;> rfl
    · rfl
  | retract entity attr =>
    simp only [renames]
    split
    · split <;> rfl
    · rfl

/-- **The last config id that the ops wrote or removed at an entity stands**, else the one that it had
before them. -/
theorem name?_performAll {tasks : List Task} {index : Nat} {d : Draft} (hd : d.Grounded)
    (htasks : ∀ task ∈ tasks, task.Valid) (h : performAll index d tasks = .ok d') (e : EntityId) :
    d'.name? e = ((d.renamesOf tasks).reverse.lookup e).getD (d.name? e) := by
  induction tasks generalizing index d with
  | nil =>
    obtain rfl := Except.ok.inj h
    rfl
  | cons task rest ih =>
    obtain ⟨d₁, hfirst, hrest⟩ := performAll_cons_eq_ok_iff.mp h
    have hd₁ : d₁.Grounded :=
      (steps_of_perform (htasks task List.mem_cons_self) hfirst).grounded hd
    rw [ih hd₁ (fun t ht => htasks t (List.mem_cons_of_mem task ht)) hrest, name?_perform hd hfirst,
      renamesOf, hfirst, List.reverse_append, reverse_renames, List.lookup_append]
    cases (d₁.renamesOf rest).reverse.lookup e <;> rfl

/-! ## 3. First pass: the entity of a create -/

theorem Named.eq_of_name? (h : d.Named) {e e' : EntityId} {s : String}
    (he : d.name? e = some (.str s)) (he' : d.name? e' = some (.str s)) : e = e' := by
  obtain hmem | hnone := attrsOf_cases d e
  · exact h.unique_attrsOf hmem he' he
  · rw [name?, hnone] at he
    cases he

/-- A create that is given an entity gives a text as its config id, if it gives one. -/
theorem text_of_allocate {tempId : Option String} {attrs : Fields OpValue} {given : OpValue}
    {id : EntityId} (hgiven : Fields.get? attrs configId = some given)
    (h : d.allocate tempId attrs = .ok (id, d')) : ∃ name, given = .str name := by
  unfold allocate at h
  split at h
  · cases h
  · obtain ⟨name, hname, -⟩ := bind_eq_ok h
    unfold givenName at hname
    rw [hgiven] at hname
    cases given with
    | str name => exact ⟨name, rfl⟩
    | _ => cases hname

theorem entities_of_prepare {op : TxOp} {task : Task} (h : d.prepare op = .ok (task, d')) :
    ∃ added, d'.entities = d.entities ++ added := by
  cases op with
  | create tempId attrs =>
    obtain ⟨⟨id, d₁⟩, halloc, h⟩ := bind_eq_ok h
    obtain ⟨-, rfl⟩ := Prod.mk.inj (Except.ok.inj h)
    unfold allocate at halloc
    split at halloc
    · cases halloc
    · obtain ⟨name, -, halloc⟩ := bind_eq_ok halloc
      obtain ⟨placed, added, nextId, hplace, -⟩ := place_alike (a := d) (d := d) rfl rfl name
      rw [hplace] at halloc
      refine ⟨added, ?_⟩
      cases tempId with
      | none =>
        obtain ⟨-, rfl⟩ := Prod.mk.inj (Except.ok.inj halloc)
        rfl
      | some t =>
        obtain ⟨bound, hbind, halloc⟩ := bind_eq_ok halloc
        obtain ⟨-, rfl⟩ := Prod.mk.inj (Except.ok.inj halloc)
        exact entities_bind hbind
  | assert entity attr value =>
    obtain ⟨-, rfl⟩ := Prod.mk.inj (Except.ok.inj h)
    exact ⟨[], (List.append_nil _).symm⟩
  | retract entity attr =>
    obtain ⟨-, rfl⟩ := Prod.mk.inj (Except.ok.inj h)
    exact ⟨[], (List.append_nil _).symm⟩

/-- A config id that is there stays: the first pass only adds entities behind it. -/
theorem name?_of_prepareAll {ops : List TxOp} {index : Nat} {d : Draft} {tasks : List Task}
    (h : prepareAll index d ops = .ok (tasks, d')) {e : EntityId} {a : AttrValue}
    (hname : d.name? e = some a) : d'.name? e = some a := by
  induction ops generalizing index d tasks with
  | nil =>
    obtain ⟨-, rfl⟩ := Prod.mk.inj (Except.ok.inj h)
    exact hname
  | cons op rest ih =>
    obtain ⟨task, d₁, tasks', hfirst, hrest, rfl⟩ := prepareAll_cons_eq_ok_iff.mp h
    obtain ⟨added, hadded⟩ := entities_of_prepare hfirst
    refine ih hrest ?_
    unfold name? attrsOf at hname ⊢
    rw [hadded, List.lookup_append]
    cases hlookup : d.entities.lookup e with
    | none =>
      rw [hlookup] at hname
      cases hname
    | some attrs =>
      rw [hlookup] at hname
      exact hname

/-- **The first pass gives a create an entity of its name**, which it has when the pass is over. -/
theorem fill_of_prepareAll {ops : List TxOp} {index : Nat} {d : Draft} {tasks : List Task}
    (hops : ∀ op ∈ ops, op.Valid) (hdense : d.Dense) (hnamed : d.Named)
    (h : prepareAll index d ops = .ok (tasks, d')) {i : Nat} {tempId : Option String}
    {attrs : Fields OpValue} (hi : ops[i]? = some (.create tempId attrs)) {given : OpValue}
    (hgiven : Fields.get? attrs configId = some given) :
    ∃ name id, given = .str name ∧ tasks[i]? = some (.fill id attrs) ∧
      d'.name? id = some (.str name) := by
  induction ops generalizing index d tasks i with
  | nil => cases hi
  | cons op rest ih =>
    obtain ⟨task, d₁, tasks', hfirst, hrest, rfl⟩ := prepareAll_cons_eq_ok_iff.mp h
    cases i with
    | zero =>
      obtain rfl : op = .create tempId attrs := Option.some.inj hi
      obtain ⟨⟨id, d₃⟩, halloc, hfirst⟩ := bind_eq_ok hfirst
      obtain ⟨rfl, rfl⟩ := Prod.mk.inj (Except.ok.inj hfirst)
      obtain ⟨name, rfl⟩ := text_of_allocate hgiven halloc
      have hname := name?_allocate hdense hnamed hgiven halloc
      exact ⟨name, id, rfl, rfl, name?_of_prepareAll hrest hname⟩
    | succ i =>
      have hsteps := (steps_of_prepare (hops op List.mem_cons_self) hfirst).1
      exact ih (fun o ho => hops o (List.mem_cons_of_mem op ho)) (hsteps.dense hdense)
        (hsteps.named hnamed) hrest hi

end Draft

/-! ## 4. Config ids after a batch -/

namespace Graph

variable {g g' : Graph}

/-- The entity that the create at a position of a batch is given. -/
def entityOf? (g : Graph) (ops : List TxOp) (i : Nat) : Option EntityId :=
  match Draft.prepareAll 0 g.draft ops with
  | .ok (tasks, _) =>
    match tasks[i]? with
    | some (.fill id _) => some id
    | _ => none
  | .error _ => none

/-- What the ops before a position of a batch last made of the config id of an entity, if they wrote
or removed it at all. -/
def renamed? (g : Graph) (ops : List TxOp) (i : Nat) (e : EntityId) : Option (Option AttrValue) :=
  match Draft.prepareAll 0 g.draft ops with
  | .ok (tasks, d) => (d.renamesOf (tasks.take i)).reverse.lookup e
  | .error _ => none

theorem Reachable.named_draft (h : g.Reachable) : g.draft.Named := ⟨h.named.texts, h.named.unique⟩

theorem attr_configId (g : Graph) (e : EntityId) : g.attr (.id e) configId = g.finished.name? e := by
  have hname : configId ≠ dbId := by decide
  unfold attr entity? has Draft.name? Draft.attrsOf finished
  cases hlookup : g.entities.lookup e with
  | none =>
    simp only [hlookup, Option.isSome_none, Bool.false_eq_true, if_false, Option.bind_none]
    rfl
  | some attrs => simp [hname, hlookup]

/-- A config id is resolved to the entity that is read to have it. -/
theorem resolveId_of_attr (h : g.Reachable) {e : EntityId} {name : String}
    (hattr : g.attr (.id e) configId = some (.str name)) {c : Context} {s : Session}
    (hs : s.Holds c g) :
    (Session.resolveId (.str name)).exec c s = (.ok (.entity e), s) := by
  have hfind : g.find configId (.str name) = some e :=
    h.named.findIn_eq_some_iff.mpr ((attr_id_eq_some_iff h (by decide)).mp hattr)
  rw [Session.exec_resolveId hs, hfind]
  rfl

end Graph

/-- **Who has the config id of a create.**  Let a batch be applied to a reachable graph, let the
create at position `i` give a config id, and let no later op assert or retract one.  Then the config
id is a text, the create is given an entity, and after the batch

* an entity has the config id exactly when the ops before the create last gave it to this entity, or
  left the config id of this entity alone and it is the entity of the create;
* and the config id is resolved to whichever entity has it.

So the entity of the create has it whenever the ops before leave its config id alone. -/
theorem created_entity_keeps_its_name {g g' : Graph} {batch provenance : Value} {ops : List TxOp}
    (hg : g.Reachable) (hread : Batch.ofValue batch = .ok ops)
    (happly : g.applyOps batch provenance = .ok (some g')) {i : Nat} {tempId : Option String}
    {attrs : Fields OpValue} (hi : ops[i]? = some (.create tempId attrs)) {given : OpValue}
    (hgiven : Fields.get? attrs configId = some given)
    (hlater : ∀ op ∈ ops.drop (i + 1), op.LeavesConfigIds) :
    ∃ name created, given = .str name ∧ g.entityOf? ops i = some created ∧
      (∀ e, g'.attr (.id e) configId = some (.str name) ↔
        g.renamed? ops i e = some (some (.str name)) ∨
          (g.renamed? ops i e = none ∧ e = created)) ∧
      ∀ e, g'.attr (.id e) configId = some (.str name) → ∀ (c : Context) (s : Session),
        s.Holds c g' → (Session.resolveId (.str name)).exec c s = (.ok (.entity e), s) := by
  obtain ⟨ops', hread', -, d', hrun, rfl⟩ := Graph.applyOps_eq_some happly
  obtain rfl := Except.ok.inj (hread.symm.trans hread')
  have hops := valid_of_ofValue hread
  have hg' := hg.step happly
  -- The two passes, and the entity that the first gives to the create.
  unfold Draft.run at hrun
  split at hrun
  · cases hrun
  next tasks d hprepare =>
  obtain ⟨hsteps, htasks⟩ := Draft.steps_of_prepareAll hops hprepare
  have hnamed : d.Named :=
    Draft.invariant_of_steps (fun _ _ hx hstep => hstep.named hx) hsteps hg.named_draft
  have hgrounded : d.Grounded :=
    Draft.invariant_of_steps (fun _ _ hx hstep => hstep.grounded hx) hsteps hg.grounded_draft
  obtain ⟨name, created, rfl, htask, hcreated⟩ :=
    Draft.fill_of_prepareAll hops hg.dense_draft hg.named_draft hprepare hi hgiven
  -- From the create on no op touches a config id, so the ops before it have the last word.
  have hleaves : ∀ op ∈ ops.drop i, op.LeavesConfigIds := by
    obtain ⟨hlt, hget⟩ := List.getElem?_eq_some_iff.mp hi
    rw [List.drop_eq_getElem_cons hlt, hget]
    exact List.forall_mem_cons.mpr ⟨trivial, hlater⟩
  have hname : ∀ e, (g.commit d' ops.length provenance).attr (.id e) configId
      = (g.renamed? ops i e).getD (d.name? e) := by
    intro e
    have hlast := Draft.name?_performAll hgrounded htasks hrun e
    rw [Draft.renamesOf_take (Draft.renames_of_prepareAll hprepare hleaves)] at hlast
    rw [Graph.attr_configId, Graph.renamed?, hprepare]
    exact hlast
  have hholder : ∀ e, d.name? e = some (.str name) ↔ e = created :=
    fun e => ⟨fun he => hnamed.eq_of_name? he hcreated, fun he => he ▸ hcreated⟩
  refine ⟨name, created, rfl, ?_, fun e => ?_, fun e he c s hs => Graph.resolveId_of_attr hg' he hs⟩
  · simp only [Graph.entityOf?, hprepare, htask]
  · rw [hname]
    cases g.renamed? ops i e with
    | none => simp [hholder]
    | some last => simp

/-! ## 5. Names taken by earlier ops -/

/-- The first entity loses its config id, and then the second is created again. -/
def otherTakenOps : List TxOp := [
  .retract (.id 1) configId,
  .create none [(configId, .str "app/b"), ("port", .str "80")]]

/-- What `otherTakenOps` makes of two entities with a config id each. -/
def otherTakenGraph : Graph where
  basisTx := 2
  nextId := 3
  entities := [(1, []), (2, [("config/id", .str "app/b"), ("port", .str "80")])]
  tempIds := []
  transactions := [⟨1, 2, .null⟩, ⟨2, 2, .null⟩]

theorem namedGraph_reachable : Session.namedGraph.Reachable :=
  @Graph.Reachable.step Graph.empty Session.namedGraph Session.namingOps .null .empty rfl

/-- A session whose one scope holds what `otherTakenOps` makes. -/
def otherTakenSession : Session := ⟨⟨[⟨.graph ⟨0, otherTakenGraph, []⟩, true⟩], 1⟩, []⟩

theorem created_entity_keeps_name_app_b :
    Session.namedGraph.renamed? otherTakenOps 1 1 = some none ∧
      otherTakenGraph.attr (.id 2) configId = some (.str "app/b") ∧
      (Session.resolveId (.str "app/b")).exec ⟨some 0, none, []⟩ otherTakenSession
        = (.ok (.entity 2), otherTakenSession) := by
  have hread : Batch.ofValue (.list (otherTakenOps.map TxOp.toValue)) = .ok otherTakenOps := rfl
  have happly : Session.namedGraph.applyOps (.list (otherTakenOps.map TxOp.toValue)) .null
      = .ok (some otherTakenGraph) := rfl
  obtain ⟨name, created, hname, hcreated, hholder, hresolve⟩ :=
    created_entity_keeps_its_name namedGraph_reachable hread happly (i := 1) rfl rfl (by decide)
  obtain rfl := OpValue.str.inj hname
  obtain rfl : 2 = created := Option.some.inj hcreated
  have hattr := (hholder 2).mpr (.inr ⟨rfl, rfl⟩)
  exact ⟨rfl, hattr, hresolve 2 hattr _ _ ⟨0, ⟨0, otherTakenGraph, []⟩, rfl, rfl, rfl⟩⟩

/-- The first entity loses its config id, and then it is created again. -/
def ownTakenOps : List TxOp := [
  .retract (.id 1) configId,
  .create none [(configId, .str "app/a")]]

/-- What `ownTakenOps` makes of two entities with a config id each. -/
def ownTakenGraph : Graph where
  basisTx := 2
  nextId := 3
  entities := [(1, []), (2, [("config/id", .str "app/b")])]
  tempIds := []
  transactions := [⟨1, 2, .null⟩, ⟨2, 2, .null⟩]

/-- **A name is lost to an earlier op.**  The create is given the first entity, which has its config
id; the op before it removes that; and the create, the last op of the batch, does not write it
again.  The batch goes through, and no entity has the config id. -/
theorem name_lost_to_an_earlier_op :
    Session.namedGraph.Reachable ∧
      Batch.ofValue (.list (ownTakenOps.map TxOp.toValue)) = .ok ownTakenOps ∧
      Session.namedGraph.applyOps (.list (ownTakenOps.map TxOp.toValue)) .null
        = .ok (some ownTakenGraph) ∧
      ownTakenOps[1]? = some (.create none [(configId, .str "app/a")]) ∧
      (∀ op ∈ ownTakenOps.drop 2, op.LeavesConfigIds) ∧
      ∀ e, ownTakenGraph.attr (.id e) configId ≠ some (.str "app/a") := by
  have happly : Session.namedGraph.applyOps (.list (ownTakenOps.map TxOp.toValue)) .null
      = .ok (some ownTakenGraph) := rfl
  have hlater : ∀ op ∈ ownTakenOps.drop 2, op.LeavesConfigIds :=
    fun _ hop => absurd hop List.not_mem_nil
  refine ⟨namedGraph_reachable, rfl, happly, rfl, hlater, fun e hattr => ?_⟩
  obtain ⟨attrs, hmem, hget⟩ :=
    (Graph.attr_id_eq_some_iff (namedGraph_reachable.step happly) (by decide)).mp hattr
  simp only [ownTakenGraph, List.mem_cons, Prod.mk.injEq, List.not_mem_nil, or_false] at hmem
  obtain ⟨-, rfl⟩ | ⟨-, rfl⟩ := hmem
  · cases hget
  · simp [Fields.get?_cons, configId] at hget

end ConfGraph
