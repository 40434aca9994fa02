import ConfGraph.Proofs.Dsl.Builtin
import ConfGraph.Proofs.Graph.Renaming
import ConfGraph.Proofs.Graph.Upserting

/-!
# What a call of `entity` does

A call applies one create with the given config id, and then looks the config id up.  The create finds
the entity that has it or makes a new one, and fills in the attributes one after the other; a config id
among them is put aside, since the one given stands in its place.  So everything is told by the entity
and by what its attributes are filled in with.

* `Draft.fill_put_configId`: a config id is never filled in.
* `Graph.transact_entityOp_eq_ok_iff`: the one transaction.
* `Graph.Merges`: what it makes of a graph.
* `Graph.merges_of_transact`: that this is so.
* `entity_merges_attributes`: a whole call.
-/

namespace ConfGraph

open Shape

namespace Draft

variable {d d' : Draft}

/-! ## 1. Filling in beside a config id -/

theorem fill_erase_configId (d : Draft) (id : EntityId) (attrs : Fields OpValue) :
    d.fill id (Fields.erase attrs configId) = d.fill id attrs := by
  induction attrs generalizing d with
  | nil => rfl
  | cons f rest ih =>
    obtain ⟨name, value⟩ := f
    by_cases hname : name = configId
    · have hdropped : Fields.erase ((name, value) :: rest) configId = Fields.erase rest configId :=
        List.filter_cons_of_neg (by simpa using hname)
      rw [hdropped, fill, if_pos hname, ih]
    · have hkept : Fields.erase ((name, value) :: rest) configId
          = (name, value) :: Fields.erase rest configId :=
        List.filter_cons_of_pos (bne_iff_ne.mpr hname)
      rw [hkept, fill, fill, if_neg hname, if_neg hname]
      simp only [ih]

/-- **A config id is never filled in**, whether it is among the attributes or not. -/
theorem fill_put_configId (d : Draft) (id : EntityId) (attrs : Fields OpValue) (value : OpValue) :
    d.fill id (Fields.put attrs configId value) = d.fill id attrs := by
  rw [← fill_erase_configId, Fields.erase_put, fill_erase_configId]

theorem configIds_of_fill {attrs : Fields OpValue} {id : EntityId} {d : Draft} (hd : d.Dense)
    (h : d.fill id attrs = .ok d') : d'.Dense ∧ configIds d'.entities = configIds d.entities := by
  induction attrs generalizing d with
  | nil =>
    obtain rfl := Except.ok.inj h
    exact ⟨hd, rfl⟩
  | cons f rest ih =>
    obtain ⟨name, value⟩ := f
    by_cases hname : name = configId
    · rw [fill, if_pos hname] at h
      exact ih hd h
    · obtain ⟨a, d₁, -, hwrite, h⟩ := (fill_cons_eq_ok_iff hname).mp h
      obtain ⟨-, rfl⟩ := (write_eq_ok_iff hname).mp hwrite
      obtain ⟨hdense, hids⟩ := ih (hd.setAttrs _ _) h
      refine ⟨hdense, hids.trans (configIds_setAttrs hd ?_)⟩
      exact Fields.get?_put_of_ne _ a (Ne.symm hname)

/-- Placing a create makes no entity but its own. -/
theorem Placed.has_of_ne {name : Option String} {id e : EntityId} (h : Placed d d' name id)
    (hne : e ≠ id) : d'.has e = d.has e := by
  cases h with
  | held holder entities nextId => rw [Draft.has, entities, Draft.has]
  | made is_new entities nextId =>
    rw [Draft.has, entities, List.lookup_append, Draft.has]
    simp [List.lookup_cons, beq_eq_false_iff_ne.mpr hne]

end Draft

namespace Graph

variable {g g' : Graph} {id : String} {attrs : Fields OpValue} {provenance : Value}

/-! ## 2. The one transaction -/

/-- The entity of a call: the one that has the config id, or a new one. -/
def entityFor (g : Graph) (id : String) : EntityId := (g.draft.place (some id)).1

/-- The draft in which it has its place, before its attributes are filled in. -/
def placedFor (g : Graph) (id : String) : Draft := (g.draft.place (some id)).2

theorem placed_entityFor (g : Graph) (id : String) :
    g.draft.Placed (g.placedFor id) (some id) (g.entityFor id) := Draft.placed_place g.draft (some id)

theorem transact_singleton {op : TxOp} : g.transact [op] provenance = .ok g' ↔
    ∃ d, g.draft.run [op] = .ok d ∧ g' = g.commit d 1 provenance := by
  rw [transact, if_neg (by simp)]
  cases g.draft.run [op] with
  | error r => simp
  | ok d => simp [eq_comm]

/-- **The one transaction of a call**: the entity is found or made, and filled in. -/
theorem transact_entityOp_eq_ok_iff :
    g.transact [Dsl.entityOp id attrs] provenance = .ok g' ↔
      dbId ∉ Fields.names attrs ∧ ∃ d, (g.placedFor id).fill (g.entityFor id) attrs = .ok d ∧
        g' = g.commit d 1 provenance := by
  have hdb : Fields.has (Fields.put attrs configId (OpValue.str id)) dbId = Fields.has attrs dbId := by
    rw [Fields.has, Fields.get?_put_of_ne _ _ (by decide : dbId ≠ configId)]
    rfl
  have hprepare : g.draft.prepare (Dsl.entityOp id attrs)
      = if Fields.has attrs dbId = true then .error ⟨.dbIdWritten, none⟩
        else .ok (.fill (g.entityFor id) (Fields.put attrs configId (.str id)), g.placedFor id) := by
    unfold Draft.prepare Dsl.entityOp Draft.allocate
    simp only [hdb]
    split
    · rfl
    · simp only [Draft.givenName, Fields.get?_put_self, Draft.ok_bind]
      rfl
  rw [transact_singleton, ← Fields.has_iff_mem_names]
  constructor
  · rintro ⟨d, hrun, rfl⟩
    obtain ⟨tasks, d₁, hall, hperform⟩ := Draft.run_eq_ok_iff.mp hrun
    obtain ⟨task, d₂, tasks', hfirst, hrest, rfl⟩ := Draft.prepareAll_cons_eq_ok_iff.mp hall
    obtain ⟨rfl, rfl⟩ := Draft.prepareAll_nil_eq_ok_iff.mp hrest
    rw [hprepare] at hfirst
    split at hfirst
    · cases hfirst
    · next hnot =>
      obtain ⟨rfl, rfl⟩ := Prod.mk.inj (Except.ok.inj hfirst)
      obtain ⟨d₃, hfill, hnil⟩ := Draft.performAll_cons_eq_ok_iff.mp hperform
      obtain rfl := Except.ok.inj hnil
      refine ⟨hnot, d₃, ?_, rfl⟩
      rw [← Draft.fill_put_configId _ _ attrs (.str id)]
      exact hfill
  · rintro ⟨hnot, d, hfill, rfl⟩
    rw [if_neg hnot] at hprepare
    rw [← Draft.fill_put_configId _ _ attrs (.str id)] at hfill
    refine ⟨d, Draft.run_eq_ok_iff.mpr ⟨_, _, Draft.prepareAll_cons_eq_ok_iff.mpr
      ⟨_, _, [], hprepare, rfl, rfl⟩, ?_⟩, rfl⟩
    exact Draft.performAll_cons_eq_ok_iff.mpr ⟨d, hfill, rfl⟩

/-! ## 3. What it makes of a graph -/

/-- A call of `entity` with a config id and attributes makes `g'` of `g`, and `e` is its entity. -/
structure Merges (g : Graph) (id : String) (attrs : Fields OpValue) (provenance : Value)
    (e : EntityId) (g' : Graph) : Prop where
  /-- It is the entity that had the config id. -/
  held : ∀ holder, g.attr (.id holder) configId = some (.str id) → e = holder
  /-- If none had, it is new. -/
  made : (∀ holder, g.attr (.id holder) configId ≠ some (.str id)) → e = g.nextId
  /-- It has the config id afterwards, and no other entity has. -/
  named : ∀ other, g'.attr (.id other) configId = some (.str id) ↔ other = e
  /-- Each attribute is the value given, with the references resolved in what the call would have made
  with the attributes before it alone.  References by ids and config ids are still good in the end. -/
  given : ∀ earlier name value later, attrs = earlier ++ (name, value) :: later →
    name ∉ Fields.names later → name ≠ configId → ∃ so_far a,
      g.transact [Dsl.entityOp id earlier] provenance = .ok so_far ∧
      so_far.draft.resolveValue value = .ok a ∧ g'.attr (.id e) name = some a ∧
      (value.IsSteady → g'.draft.resolveValue value = .ok a)
  /-- Other attributes of the entity are what they were. -/
  kept : ∀ name, name ∉ Fields.names attrs → name ≠ configId → name ≠ dbId →
    g'.attr (.id e) name = g.attr (.id e) name
  /-- So are those of other entities. -/
  others : ∀ other name, other ≠ e → g'.attr (.id other) name = g.attr (.id other) name
  /-- A config id among the attributes makes no difference. -/
  ignored : g.transact [Dsl.entityOp id (Fields.erase attrs configId)] provenance = .ok g'
  /-- One transaction of one op is logged. -/
  logged : g'.transactions = g.transactions ++ [⟨g.basisTx + 1, 1, provenance⟩]

theorem find_configId_iff (hg : g.Reachable) {e : EntityId} :
    g.find configId (.str id) = some e ↔ g.attr (.id e) configId = some (.str id) := by
  rw [attr_id_eq_some_iff hg (by decide)]
  exact hg.named.findIn_eq_some_iff

theorem entityFor_of_find {e : EntityId} (h : g.find configId (.str id) = some e) :
    g.entityFor id = e := by
  have hfind : findIn g.draft.entities configId (.str id) = some e := h
  simp only [entityFor, Draft.place, hfind]

theorem entityFor_of_find_none (h : g.find configId (.str id) = none) :
    g.entityFor id = g.nextId := by
  have hfind : findIn g.draft.entities configId (.str id) = none := h
  simp only [entityFor, Draft.place, hfind]
  rfl

theorem attr_dbId (g : Graph) (e : EntityId) :
    g.attr (.id e) dbId = if g.draft.has e then some (.num (Number.ofNat e)) else none := by
  unfold attr entity?
  simp only [if_true]
  split
  · next hhas => rw [if_pos (show g.draft.has e = true from hhas), Option.bind_some]
  · next hhas => rw [if_neg (show ¬ g.draft.has e = true from hhas), Option.bind_none]

/-- A filled-in draft has the entities of the draft before, and no names of the transaction if that
has none. -/
theorem fill_keeps_entities {d d' : Draft} {e : EntityId}
    (h : d.fill e attrs = .ok d') : d'.tempIds = d.tempIds ∧ ∀ other, d'.has other = d.has other :=
  Draft.fill_keeps (P := fun x => x.tempIds = d.tempIds ∧ ∀ other, x.has other = d.has other)
    (fun x id attrs hx => ⟨hx.1, fun other => (Draft.has_setAttrs x id attrs other).trans (hx.2 other)⟩)
    h ⟨rfl, fun _ => rfl⟩

/-- **What one create with a config id makes of a reachable graph.** -/
theorem merges_of_transact (hg : g.Reachable) (hvalid : (Dsl.entityOp id attrs).Valid)
    (h : g.transact [Dsl.entityOp id attrs] provenance = .ok g') :
    g.Merges id attrs provenance (g.entityFor id) g' := by
  have hg' : g'.Reachable := hg.of_transact (List.forall_mem_singleton.mpr hvalid) Dsl.one_is_few h
  obtain ⟨hdb, d, hfill, rfl⟩ := transact_entityOp_eq_ok_iff.mp h
  have hplaced := g.placed_entityFor id
  have htempIds : (g.placedFor id).tempIds = [] := Draft.tempIds_place g.draft (some id)
  obtain ⟨hkeptIds, hkeptHas⟩ := fill_keeps_entities hfill
  have hread : ∀ (other : EntityId) (name : String), name ≠ dbId →
      (g.commit d 1 provenance).attr (.id other) name = d.read other name :=
    fun other name hname => attr_eq_read _ other hname
  have hdensePlaced : (g.placedFor id).Dense :=
    (Draft.steps_of_place g.draft (some id)).1.dense hg.dense_draft
  have hname : (g.placedFor id).name? (g.entityFor id) = some (.str id) :=
    Draft.name?_place hg.dense_draft hg.named_draft id
  have hname' : (g.commit d 1 provenance).finished.name? (g.entityFor id) = some (.str id) :=
    (Draft.name?_fill hfill (g.entityFor id)).trans hname
  constructor
  case held =>
    intro holder hholder
    exact entityFor_of_find ((find_configId_iff hg).mpr hholder)
  case made =>
    intro hnobody
    refine entityFor_of_find_none ?_
    cases hfind : g.find configId (.str id) with
    | none => rfl
    | some holder => exact absurd ((find_configId_iff hg).mp hfind) (hnobody holder)
  case named =>
    intro other
    rw [attr_configId]
    refine ⟨fun hother => hg'.named.eq_of_name? hother hname', ?_⟩
    rintro rfl
    exact hname'
  case given =>
    rintro earlier name value later rfl hlast hne
    obtain ⟨before, hsofar, hrest⟩ := Draft.fill_append_eq_ok_iff.mp hfill
    obtain ⟨a, d₁, hresolve, hwrite, hlater⟩ := (Draft.fill_cons_eq_ok_iff hne).mp hrest
    obtain ⟨hbeforeIds, hbeforeHas⟩ := fill_keeps_entities hsofar
    obtain ⟨hearlier, hothers⟩ : dbId ∉ Fields.names earlier ∧
        dbId ∉ Fields.names ((name, value) :: later) := by
      simpa [Fields.names, not_or] using hdb
    have hnotDb : name ≠ dbId := fun heq => hothers (heq ▸ List.mem_cons_self)
    have hdraft : (g.commit before 1 provenance).draft = before := by
      have hnone : before.tempIds = [] := hbeforeIds.trans htempIds
      obtain ⟨entities, tempIds, nextId⟩ := before
      obtain rfl : tempIds = [] := hnone
      rfl
    refine ⟨g.commit before 1 provenance, a,
      transact_entityOp_eq_ok_iff.mpr ⟨hearlier, before, hsofar, rfl⟩, ?_, ?_, fun hsteady => ?_⟩
    · rw [hdraft]
      exact hresolve
    · have hhas : before.has (g.entityFor id) = true := (hbeforeHas _).trans hplaced.has.1
      rw [hread _ _ hnotDb, Draft.read_fill_of_not_mem hlater (.inr (.inr hlast)),
        Draft.read_write_self hhas hwrite]
    · have hdense := (Draft.configIds_of_fill hdensePlaced hsofar).1
      have hsame : Draft.SameNames before (g.commit d 1 provenance).draft :=
        ⟨hg'.dense_draft, (Draft.configIds_of_fill hdense hrest).2, (hbeforeIds.trans htempIds).symm⟩
      rw [hsame.resolveValue hsteady, hresolve]
  case kept =>
    intro name hnot hconfig hname
    rw [hread _ _ hname, attr_eq_read g _ hname,
      Draft.read_fill_of_not_mem hfill (.inr (.inr hnot))]
    obtain hsame | ⟨hnew, -, -, hinitial⟩ := hplaced.read (g.entityFor id) name
    · exact hsame
    · rw [hinitial, Draft.read_of_not_has hnew]
      simp [Draft.initial, Fields.get?_cons, hconfig]
  case others =>
    intro other name hne
    by_cases hname : name = dbId
    · have hhas : (g.commit d 1 provenance).draft.has other = g.draft.has other :=
        (hkeptHas other).trans (hplaced.has_of_ne hne)
      rw [hname, attr_dbId, attr_dbId, hhas]
    · rw [hread _ _ hname, attr_eq_read g _ hname, Draft.read_fill_of_not_mem hfill (.inl hne)]
      obtain hsame | ⟨-, heq, -⟩ := hplaced.read other name
      · exact hsame
      · exact absurd heq hne
  case ignored =>
    refine transact_entityOp_eq_ok_iff.mpr ⟨fun hmem => hdb ?_, d, ?_, rfl⟩
    · exact (List.filter_sublist.map Prod.fst).subset hmem
    · rw [Draft.fill_erase_configId]
      exact hfill
  case logged => rfl

end Graph

/-! ## 4. A whole call -/

/-- The fields of an argument that may be left out, read as attributes. -/
theorem fields_of_optional_attrs {v : Value} {attrs : Option (Fields OpValue)}
    (h : Shape.optional attrsShape v = .ok attrs) :
    List.Forall₂ (fun f a => a.1 = f.1 ∧ opValueShape f.2 = .ok a.2)
      (Fields.erase (v.fields?.getD []) "__proto__") (attrs.getD []) := by
  unfold Shape.optional at h
  split at h
  · obtain rfl := Except.ok.inj h
    exact .nil
  · obtain ⟨fields, hread, rfl⟩ := map_eq_ok_iff.mp h
    exact entries_eq_ok hread

open Session in
/-- **What a call of `entity` does.**  Let a scope hold a reachable graph, and let a call of `entity`
return in it.  Then its first argument is a config id, and the fields of its second, but for
`__proto__`, are read as attributes.  What it returns is the id of an entity to which the config id is
resolved in the graph that the scope holds afterwards, and `Graph.Merges` says what that graph is: the
entity that had the config id, or else a new one, has the attributes, resolved, over those that it had,
and all else is as before. -/
theorem entity_merges_attributes {g : Graph} (hg : g.Reachable) {c : Context} {s s' : Session}
    (hs : s.Holds c g) {args : List Value} {v : Value}
    (hcall : (Dsl.entity.invoke args).exec c s = (.ok v, s')) :
    ∃ id attrs e g', args.getD 0 .undefined = .str id ∧ id ≠ "" ∧
      List.Forall₂ (fun f a => a.1 = f.1 ∧ opValueShape f.2 = .ok a.2)
        (Fields.erase ((args.getD 1 .undefined).fields?.getD []) "__proto__") attrs ∧
      v = .nat e ∧ s'.Holds c g' ∧ g'.Reachable ∧
      (resolveId (.str id)).exec c s' = (.ok (.entity e), s') ∧
      g.Merges id attrs
        (c.annotated ⟨s.scopes.nextSerial, "cfgscript/entity", args,
          Signature.callFrames c.site⟩).provenance e g' := by
  cases hprepare : Dsl.entity.prepare args with
  | error issues =>
    rw [DslFunction.exec_invoke_of_error c s hprepare] at hcall
    cases (Prod.mk.inj hcall).1
  | ok body =>
    obtain ⟨⟨id, given⟩, hargs, rfl⟩ := map_eq_ok_iff.mp hprepare
    obtain ⟨hid, hgiven⟩ := both_eq_ok_iff.mp (sized_eq_ok hargs)
    obtain ⟨hidText, hidNonempty⟩ := nonEmptyText_eq_ok (argument_eq_ok hid)
    have hvalid : (Dsl.entityOp id (given.getD [])).Valid :=
      Dsl.entityOp_valid (optional_attrs_valid (argument_eq_ok hgiven))
    have hread := fields_of_optional_attrs (argument_eq_ok hgiven)
    let note : Annotation :=
      ⟨s.scopes.nextSerial, "cfgscript/entity", args, Signature.callFrames c.site⟩
    have hstart : Session.Shows ⟨s.scopes.issue.2, []⟩ (c.annotated note) (some g) :=
      Session.Shows.congr (v := some g) hs rfl (Context.scope_annotated c note)
    have hdoes := Dsl.does_entity hvalid (c := c.annotated note) (v := some g)
      fun g' hg' => Option.some.inj hg' ▸ hg
    -- The call is over when the body is, and its scopes are those of the body.
    have hbody : ∀ r t, (Dsl.entityBody id (given.getD [])).exec (c.annotated note)
        ⟨s.scopes.issue.2, []⟩ = (r, t) → r = .ok v ∧ t.scopes = s'.scopes := by
      intro r t hrun
      rw [DslFunction.exec_invoke_of_ok c s hprepare, exec_unaware] at hcall
      obtain ⟨hv, hs'⟩ := Prod.mk.inj hcall
      have hresult : r = .ok v := (congrArg Prod.fst hrun).symm.trans hv
      have hscopes : t.scopes = s'.scopes :=
        (congrArg (fun p => p.2.scopes) hrun).symm.trans (congrArg Session.scopes hs')
      exact ⟨hresult, hscopes⟩
    unfold Dsl.entityEffect at hdoes
    dsimp only at hdoes
    cases htransact : g.transact [Dsl.entityOp id (given.getD [])] (c.annotated note).provenance with
    | error r =>
      rw [htransact] at hdoes
      obtain ⟨t, hrun, -⟩ := hdoes _ hstart
      cases (hbody _ t hrun).1
    | ok g' =>
      rw [htransact] at hdoes
      obtain ⟨t, hrun, hshows⟩ := hdoes _ hstart
      obtain ⟨hv, hscopes⟩ := hbody _ t hrun
      have hmerges := Graph.merges_of_transact hg hvalid htransact
      have hg' : g'.Reachable :=
        hg.of_transact (List.forall_mem_singleton.mpr hvalid) Dsl.one_is_few htransact
      have hholds : s'.Holds c g' :=
        Session.Shows.congr (v := some g') hshows (by rw [hscopes]) (Context.scope_annotated c note).symm
      have hname : g'.attr (.id (g.entityFor id)) configId = some (.str id) :=
        (hmerges.named _).mpr rfl
      have hfind := (Graph.find_configId_iff hg').mpr hname
      refine ⟨id, given.getD [], g.entityFor id, g', hidText, hidNonempty, hread, ?_, hholds, hg',
        Graph.resolveId_of_attr hg' hname hholds, hmerges⟩
      rw [hfind] at hv
      exact (Except.ok.inj hv).symm

/-- The arguments of a call for the second entity of `Session.exchangedGraph`, with another config id
among the attributes, a name that is dropped, and a reference to the first. -/
def mergingArgs : List Value := [
  .str "app/a", .record .host [("__proto__", .null), ("config/id", .str "app/c"),
    ("peer", .record .host [("ref", .record .host [
      ("attr", .str "config/id"), ("value", .str "app/b")])])]]

theorem entity_merges_mergingArgs : ∃ s' g',
    (Dsl.entity.invoke mergingArgs).exec ⟨some 0, none, []⟩ Session.exchangedSession
      = (.ok (.nat 2), s') ∧
    s'.Holds ⟨some 0, none, []⟩ g' ∧ g'.attr (.id 2) configId = some (.str "app/a") ∧
    g'.attr (.id 2) "peer" = some (.ref 1) ∧ g'.attr (.id 2) "port" ≠ none := by
  have holds : Session.exchangedSession.Holds ⟨some 0, none, []⟩ Session.exchangedGraph :=
    ⟨0, ⟨0, Session.exchangedGraph, []⟩, rfl, rfl, rfl⟩
  obtain ⟨s', hcall⟩ : ∃ s', (Dsl.entity.invoke mergingArgs).exec ⟨some 0, none, []⟩
      Session.exchangedSession = (.ok (.nat 2), s') := ⟨_, rfl⟩
  obtain ⟨id, attrs, e, g', hid, -, hread, -, hholds, hg', -, hmerges⟩ :=
    entity_merges_attributes Session.exchangedGraph_reachable holds hcall
  obtain rfl : "app/a" = id := Value.str.inj hid
  obtain rfl : e = 2 := hmerges.held 2 rfl
  have hfields : Fields.erase (((mergingArgs.getD 1 .undefined).fields?).getD []) "__proto__"
      = [("config/id", .str "app/c"), ("peer", .record .host [("ref", .record .host [
          ("attr", .str "config/id"), ("value", .str "app/b")])])] := rfl
  rw [hfields] at hread
  obtain ⟨⟨-, value⟩, _, ⟨rfl, -⟩, hrest, rfl⟩ := List.forall₂_cons_left_iff.mp hread
  obtain ⟨⟨-, peer⟩, _, ⟨rfl, hpeer⟩, hnone, rfl⟩ := List.forall₂_cons_left_iff.mp hrest
  obtain rfl := List.forall₂_nil_left_iff.mp hnone
  obtain rfl : OpValue.ref (.lookup configId (.str "app/b")) = peer := Except.ok.inj hpeer
  obtain ⟨-, a, -, -, hattr, hresolved⟩ :=
    hmerges.given [("config/id", value)] "peer" _ [] rfl List.not_mem_nil (by decide)
  refine ⟨s', g', hcall, hholds, (hmerges.named 2).mpr rfl, ?_, ?_⟩
  · -- the other entity still has the config id by which it is looked up
    have hother : g'.attr (.id 1) configId = some (.str "app/b") :=
      hmerges.others 1 configId (by decide)
    have hfind : findIn g'.draft.entities configId (.str "app/b") = some 1 :=
      (Graph.find_configId_iff hg').mpr hother
    have hpeer := hresolved (.ref rfl)
    rw [Draft.resolveValue, Draft.resolve, AttrValue.toValue, hfind] at hpeer
    rw [hattr, ← Except.ok.inj hpeer]
  · rw [hmerges.kept "port" (by simp [Fields.names]) (by decide) (by decide)]
    exact Option.isSome_iff_ne_none.mp rfl

end ConfGraph
