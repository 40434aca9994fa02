import ConfGraph.Proofs.Graph.Alike
import ConfGraph.Proofs.Graph.Upserting

/-!
# The order of attributes does not matter

A create writes its attributes one at a time and resolves the references of each just before.  So a
reference could find what an attribute before it has written, and then it would matter which comes
first.  It cannot if every lookup is by a config id, since no create writes one while it is filled in:
then each value is resolved to the same thing wherever it stands, and two writes under different names
commute.

* `Value.Rearranged`, `TxOp.Rearranged`: ops that differ at most in the order of attributes.
* `TxOp.exists_rearranged`: reading leaves them so.
* `Draft.SameReads`: drafts in which every attribute of every entity reads the same.
* `Draft.fill_perm`: filling in the attributes of a create in another order.
* `Draft.performAll_rearranged`: the second pass.
* `order_of_attributes_does_not_matter`: a whole batch.
-/

namespace ConfGraph

open Shape

/-! ## 1. Ops with attributes in another order -/

/-- Two ops as values that differ at most in the order in which the attributes are listed. -/
inductive Value.Rearranged : Value → Value → Prop
  | same (v : Value) : Rearranged v v
  | attrs {o o' : Origin} {before after fs gs : List (String × Value)}
    (nodup : (Fields.names fs).Nodup) (perm : fs.Perm gs) :
    Rearranged (.record o (before ++ ("attrs", .record o' fs) :: after))
      (.record o (before ++ ("attrs", .record o' gs) :: after))

/-- Two ops that differ at most in the order in which a create lists its attributes. -/
inductive TxOp.Rearranged : TxOp → TxOp → Prop
  | same (op : TxOp) : Rearranged op op
  | create {tempId : Option String} {attrs attrs' : Fields OpValue}
    (nodup : (Fields.names attrs).Nodup) (perm : attrs.Perm attrs') :
    Rearranged (.create tempId attrs) (.create tempId attrs')

/-- A create in whose values all references are steady; any other op. -/
def TxOp.IsSteady : TxOp → Prop
  | .create _ attrs => ∀ f ∈ attrs, f.2.IsSteady
  | .assert .. => True
  | .retract .. => True

/-! ## 2. Reading them -/

namespace Shape

variable {α : Type} {s : Shape α} {fs gs : List (String × Value)} {attrs : Fields α}

/-- The outcome for one entry of a record with free names, if the name is not dropped. -/
def entryOutcome (s : Shape α) (f : String × Value) : Option (Checked (String × α)) :=
  if f.1 = "__proto__" then none
  else if f.1 = "" then some (.error [⟨[""], .emptyName⟩])
  else some ((under f.1 (s f.2)).map fun a => (f.1, a))

theorem entryOutcomes_eq_filterMap (s : Shape α) (fields : List (String × Value)) :
    entryOutcomes s fields = fields.filterMap (entryOutcome s) := by
  induction fields with
  | nil => rfl
  | cons f rest ih =>
    unfold entryOutcomes entryOutcome
    rw [List.filterMap_cons]
    split
    · exact ih
    · split
      · exact congrArg _ ih
      · exact congrArg _ ih

theorem names_of_entryOutcomes (h : entryOutcomes s fs = attrs.map .ok) :
    Fields.names attrs = Fields.names (Fields.erase fs "__proto__") := by
  have hnames : List.Forall₂ (fun f a => f.1 = a.1) (Fields.erase fs "__proto__") attrs :=
    (entryOutcomes_eq_map_ok h).imp fun _ _ hf => hf.1.symm
  exact (Value.map_eq_map_iff.mpr hnames).symm

/-- **A record with free names is read alike in any order** of its fields. -/
theorem entries_perm {o : Origin} (hnodup : (Fields.names fs).Nodup) (hperm : fs.Perm gs)
    (h : entries s (.record o fs) = .ok attrs) :
    (Fields.names attrs).Nodup ∧
      ∃ attrs', entries s (.record o gs) = .ok attrs' ∧ attrs.Perm attrs' := by
  unfold entries at h
  split at h
  · next hplain =>
    have hread : entryOutcomes s fs = attrs.map .ok := gather_eq_ok_iff.mp h
    refine ⟨names_of_entryOutcomes hread ▸ Fields.nodup_erase hnodup _, ?_⟩
    have houtcomes : (entryOutcomes s gs).Perm (entryOutcomes s fs) := by
      rw [entryOutcomes_eq_filterMap, entryOutcomes_eq_filterMap]
      exact hperm.symm.filterMap _
    have hall : List.Forall₂ (fun r a => r = .ok a) (entryOutcomes s fs) attrs := by
      rw [hread, List.forall₂_map_left_iff, List.forall₂_same]
      exact fun _ _ => rfl
    obtain ⟨attrs', hall', hattrs⟩ := List.perm_comp_forall₂ houtcomes hall
    have hread' : entryOutcomes s gs = attrs'.map .ok := by
      rw [← List.forall₂_eq_eq_eq, List.forall₂_map_right_iff]
      exact hall'
    have hplain' : isPlain (.record o gs) = true := by
      rw [← hplain]
      simp only [isPlain, Value.member?, isPlainRoot, Fields.get?_eq_of_perm hnodup hperm]
    refine ⟨attrs', ?_, hattrs.symm⟩
    unfold entries
    rw [if_pos hplain']
    exact gather_eq_ok_iff.mpr hread'
  · exact absurd h wrongKind_ne_ok

end Shape

/-- A field of two such ops is the same, or holds attributes in two orders. -/
inductive Value.FieldRearranged : Value → Value → Prop
  | same (v : Value) : FieldRearranged v v
  | attrs {o : Origin} {fs gs : List (String × Value)} (nodup : (Fields.names fs).Nodup)
    (perm : fs.Perm gs) : FieldRearranged (.record o fs) (.record o gs)

namespace Value.Rearranged

variable {v w : Value}

theorem isObject (h : Rearranged v w) : v.isObject = w.isObject := by
  cases h with
  | same => rfl
  | attrs => rfl

/-- Fields but the attributes are the same. -/
theorem field_of_ne (h : Rearranged v w) {name : String} (hname : name ≠ "attrs") :
    w.field name = v.field name := by
  cases h with
  | same => rfl
  | attrs =>
    simp [Value.field, Value.member?, Fields.get?, List.lookup_append, List.lookup_cons,
      beq_eq_false_iff_ne.mpr hname]

theorem field_attrs (h : Rearranged v w) : FieldRearranged (v.field "attrs") (w.field "attrs") := by
  cases h with
  | same => exact .same _
  | @attrs o o' before after fs gs nodup perm =>
    simp only [Value.field, Value.member?, Fields.get?, List.lookup_append]
    cases before.lookup "attrs" with
    | none => exact .attrs nodup perm
    | some held => exact .same held

end Value.Rearranged

/-- Attributes in two orders are read as such. -/
theorem attrsShape_rearranged {v w : Value} (h : Value.FieldRearranged v w) {attrs : Fields OpValue}
    (hread : attrsShape v = .ok attrs) : ∃ attrs', attrsShape w = .ok attrs' ∧
      (attrs' = attrs ∨ (Fields.names attrs).Nodup ∧ attrs.Perm attrs') := by
  cases h with
  | same => exact ⟨attrs, hread, .inl rfl⟩
  | attrs nodup perm =>
    obtain ⟨hnodup, attrs', hread', hperm⟩ := entries_perm nodup perm hread
    exact ⟨attrs', hread', .inr ⟨hnodup, hperm⟩⟩

/-- **Ops that differ in the order of attributes are read as such.** -/
theorem TxOp.exists_rearranged {v w : Value} {op : TxOp} (h : v.Rearranged w)
    (hread : opShape v = .ok op) : ∃ op', opShape w = .ok op' ∧ op.Rearranged op' := by
  obtain ⟨hobject, hop⟩ := object_eq_ok_iff.mp hread
  have hobject' : w.isObject = true := h.isObject ▸ hobject
  have hfield : ∀ {α : Type} {s : Shape α} {name : String}, name ≠ "attrs" →
      field name s w = field name s v := by
    intro α s name hname
    rw [field, field, h.field_of_ne hname]
  have htag : w.field "op" = v.field "op" := h.field_of_ne (by decide)
  have hsame : ∀ {shape : Shape TxOp}, shape v = .ok op → (∀ r, shape v = .ok r → shape w = .ok r) →
      ∃ op', shape w = .ok op' ∧ op.Rearranged op' := fun hv hkept => ⟨op, hkept op hv, .same op⟩
  simp only [opShape, object, hobject', if_true, htag]
  split at hop
  · obtain ⟨⟨tempId, attrs⟩, hparts, rfl⟩ := map_eq_ok_iff.mp hop
    obtain ⟨htempId, hattrs⟩ := both_eq_ok_iff.mp hparts
    obtain ⟨attrs', hattrs', hrel⟩ := attrsShape_rearranged h.field_attrs (field_eq_ok_iff.mp hattrs)
    have hread' : createShape w = .ok (.create tempId attrs') := by
      refine map_eq_ok_iff.mpr ⟨(tempId, attrs'), both_eq_ok_iff.mpr ⟨?_, ?_⟩, rfl⟩
      · rw [hfield (by decide)]
        exact htempId
      · exact field_eq_ok_iff.mpr hattrs'
    refine ⟨_, hread', ?_⟩
    rcases hrel with rfl | ⟨hnodup, hperm⟩
    · exact .same _
    · exact .create hnodup hperm
  · refine hsame hop fun r hr => ?_
    rw [assertShape, hfield (by decide), hfield (by decide), hfield (by decide)]
    exact hr
  · refine hsame hop fun r hr => ?_
    rw [retractShape, hfield (by decide), hfield (by decide)]
    exact hr
  · exact absurd hop (by simp)

/-- The same of a batch. -/
theorem opsShape_rearranged {vs ws : List Value} {ops : List TxOp}
    (h : List.Forall₂ Value.Rearranged vs ws) (hread : opsShape (.list vs) = .ok ops) :
    ∃ ops', opsShape (.list ws) = .ok ops' ∧ List.Forall₂ TxOp.Rearranged ops ops' := by
  have hall := list_eq_ok_iff.mp hread
  suffices hsuffices : ∃ ops', List.Forall₂ (fun w op => opShape w = .ok op) ws ops' ∧
      List.Forall₂ TxOp.Rearranged ops ops' by
    obtain ⟨ops', hall', hrel⟩ := hsuffices
    exact ⟨ops', list_eq_ok_iff.mpr hall', hrel⟩
  clear hread
  induction h generalizing ops with
  | nil =>
    cases hall
    exact ⟨[], .nil, .nil⟩
  | cons hfirst _ ih =>
    cases hall with
    | cons hop hall =>
      obtain ⟨op', hop', hrel⟩ := TxOp.exists_rearranged hfirst hop
      obtain ⟨ops', hall', hrels⟩ := ih hall
      exact ⟨op' :: ops', .cons hop' hall', .cons hrel hrels⟩

namespace Draft

variable {d d' d'' e : Draft}

/-! ## 3. Drafts that read the same -/

/-- Two drafts with the same entities, in which every attribute of every entity reads the same. -/
structure SameReads (d d' : Draft) : Prop where
  dense : d.Dense
  dense' : d'.Dense
  reads : ∀ e attr, d.read e attr = d'.read e attr
  tempIds : d.tempIds = d'.tempIds
  nextId : d.nextId = d'.nextId

namespace SameReads

theorem refl (h : d.Dense) : SameReads d d := ⟨h, h, fun _ _ => rfl, rfl, rfl⟩

theorem symm (h : SameReads d d') : SameReads d' d :=
  ⟨h.dense', h.dense, fun e attr => (h.reads e attr).symm, h.tempIds.symm, h.nextId.symm⟩

theorem trans (h : SameReads d d') (h' : SameReads d' d'') : SameReads d d'' :=
  ⟨h.dense, h'.dense', fun e attr => (h.reads e attr).trans (h'.reads e attr),
    h.tempIds.trans h'.tempIds, h.nextId.trans h'.nextId⟩

theorem ids (h : SameReads d d') : d.entities.map (·.1) = d'.entities.map (·.1) := by
  have hlength : d.entities.length = d'.entities.length := by
    have hd := h.dense.nextId
    have hd' := h.dense'.nextId
    exact Nat.succ.inj (hd.symm.trans (h.nextId.trans hd'))
  rw [h.dense.ids, h.dense'.ids, hlength]

theorem has (h : SameReads d d') (id : EntityId) : d.has id = d'.has id := by
  rw [Bool.eq_iff_iff, has_iff_mem, has_iff_mem, h.ids]

/-- Such drafts show the same texts, so references lead to the same entities. -/
theorem sameTexts (h : SameReads d d') : SameTexts d d' := by
  refine ⟨?_, h.tempIds, h.nextId⟩
  have htexts : ∀ id, Attrs.texts (d.attrsOf id) = Attrs.texts (d'.attrsOf id) := by
    intro id
    funext name
    exact congrArg (Option.map _) (h.reads id name)
  rw [← h.dense.entities_eq, ← h.dense'.entities_eq, h.ids]
  simp only [List.map_map]
  refine List.map_congr_left fun f _ => ?_
  exact congrArg (Prod.mk f.1) (htexts f.1)

/-- The same attributes in some order, where no name stands twice. -/
theorem attrs_perm (h : SameReads d d') (hd : d.Tidy) (hd' : d'.Tidy) :
    List.Forall₂ (fun x y => x.1 = y.1 ∧ x.2.Perm y.2) d.entities d'.entities := by
  rw [← h.dense.entities_eq, ← h.dense'.entities_eq, h.ids, List.forall₂_map_left_iff,
    List.forall₂_map_right_iff, List.forall₂_same]
  intro id _
  exact ⟨rfl, Fields.perm_of_get?_eq (hd.nodup_attrsOf id) (hd'.nodup_attrsOf id) (h.reads id)⟩

theorem put (h : SameReads d d') (w : Put) : SameReads (d.put w) (d'.put w) where
  dense := h.dense.setAttrs _ _
  dense' := h.dense'.setAttrs _ _
  reads e attr := by rw [read_put, read_put, h.has, h.reads]
  tempIds := h.tempIds
  nextId := h.nextId

/-- **Writes under two names commute**, as far as reading goes. -/
theorem put_put (h : d.Dense) {w v : Put} (hne : w.name ≠ v.name) :
    SameReads ((d.put w).put v) ((d.put v).put w) where
  dense := (h.setAttrs _ _).setAttrs _ _
  dense' := (h.setAttrs _ _).setAttrs _ _
  reads e attr := by
    have hhas : ∀ u : Put, (d.put u).has e = d.has e := fun u => has_setAttrs d _ _ e
    simp only [read_put, hhas]
    by_cases hw : w.name = attr
    · have hv : v.name ≠ attr := fun hv => hne (hw.trans hv.symm)
      simp [hv]
    · simp [hw]
  tempIds := rfl
  nextId := rfl

theorem write (h : SameReads d d') {id : EntityId} {name : String} {value : AttrValue}
    (hw : d.write id name value = .ok e) :
    ∃ e', d'.write id name value = .ok e' ∧ SameReads e e' := by
  obtain ⟨hdb, hcheck, rfl⟩ := write_eq_ok hw
  refine ⟨d'.put ⟨id, name, value⟩, ?_, h.put ⟨id, name, value⟩⟩
  unfold Draft.write
  rw [if_neg hdb]
  split
  · next hconfig =>
    rw [← h.sameTexts.checkName, hcheck hconfig]
    rfl
  · rfl

theorem remove (h : SameReads d d') {id : EntityId} {name : String}
    (hr : d.remove id name = .ok e) : ∃ e', d'.remove id name = .ok e' ∧ SameReads e e' := by
  obtain ⟨hdb, rfl⟩ := remove_eq_ok hr
  refine ⟨_, remove_eq_ok_iff.mpr ⟨hdb, rfl⟩, h.dense.setAttrs _ _, h.dense'.setAttrs _ _, ?_,
    h.tempIds, h.nextId⟩
  intro x attr
  have herase : ∀ c : Draft, Fields.get? (Fields.erase (c.attrsOf id) name) attr
      = if attr = name then none else c.read id attr := fun c => Fields.get?_erase _ _ _
  rw [read_setAttrs, read_setAttrs, herase, herase, h.has, h.reads, h.reads]

theorem fill (h : SameReads d d') {id : EntityId} {attrs : Fields OpValue}
    (hfill : d.fill id attrs = .ok e) : ∃ e', d'.fill id attrs = .ok e' ∧ SameReads e e' := by
  induction attrs generalizing d d' with
  | nil =>
    obtain rfl := Except.ok.inj hfill
    exact ⟨d', rfl, h⟩
  | cons f rest ih =>
    obtain ⟨name, value⟩ := f
    by_cases hname : name = configId
    · rw [Draft.fill, if_pos hname] at hfill ⊢
      exact ih h hfill
    · obtain ⟨a, d₁, ha, hwrite, hrest⟩ := (fill_cons_eq_ok_iff hname).mp hfill
      obtain ⟨d₁', hwrite', h₁⟩ := h.write hwrite
      obtain ⟨e', hrest', he⟩ := ih h₁ hrest
      refine ⟨e', (fill_cons_eq_ok_iff hname).mpr ⟨a, d₁', ?_, hwrite', hrest'⟩, he⟩
      rw [← h.sameTexts.resolveValue, ha]

end SameReads

/-! ## 4. One create in another order -/

/-- Two neighbours change places: neither write moves a name, so both values are resolved to what they
were. -/
theorem fill_swap {id : EntityId} {f g : String × OpValue} {rest : Fields OpValue}
    (hdense : d.Dense) (hne : f.1 ≠ g.1) (hf : f.2.IsSteady) (hg : g.2.IsSteady)
    (h : d.fill id (g :: f :: rest) = .ok e) :
    ∃ e', d.fill id (f :: g :: rest) = .ok e' ∧ SameReads e e' := by
  obtain ⟨fname, fvalue⟩ := f
  obtain ⟨gname, gvalue⟩ := g
  by_cases hfname : fname = configId
  · obtain ⟨e', he', hrel⟩ := (SameReads.refl hdense).fill h
    exact ⟨e', by simpa [fill, hfname] using he', hrel⟩
  by_cases hgname : gname = configId
  · obtain ⟨e', he', hrel⟩ := (SameReads.refl hdense).fill h
    exact ⟨e', by simpa [fill, hgname] using he', hrel⟩
  obtain ⟨b, d₁, hb, hwrite, h⟩ := (fill_cons_eq_ok_iff hgname).mp h
  obtain ⟨a, d₂, ha, hwrite', h⟩ := (fill_cons_eq_ok_iff hfname).mp h
  obtain ⟨hgdb, rfl⟩ := (write_eq_ok_iff hgname).mp hwrite
  obtain ⟨hfdb, rfl⟩ := (write_eq_ok_iff hfname).mp hwrite'
  have hsame : SameNames d d := ⟨hdense, rfl, rfl⟩
  rw [(hsame.put id hgname b).resolveValue hf] at ha
  obtain ⟨e', he', hrel⟩ := (SameReads.put_put hdense (w := ⟨id, gname, b⟩) (v := ⟨id, fname, a⟩)
    (Ne.symm hne)).fill h
  refine ⟨e', ?_, hrel⟩
  refine (fill_cons_eq_ok_iff hfname).mpr ⟨a, _, ha, (write_eq_ok_iff hfname).mpr ⟨hfdb, rfl⟩, ?_⟩
  refine (fill_cons_eq_ok_iff hgname).mpr ⟨b, _, ?_, (write_eq_ok_iff hgname).mpr ⟨hgdb, rfl⟩, he'⟩
  rw [(hsame.put id hfname a).resolveValue hg, hb]

/-- **Filling in the attributes of a create in another order** comes to a draft that reads the same. -/
theorem fill_perm {id : EntityId} {attrs attrs' : Fields OpValue} (hperm : attrs.Perm attrs')
    {d e : Draft} (hdense : d.Dense) (hnodup : (Fields.names attrs).Nodup)
    (hsteady : ∀ f ∈ attrs, f.2.IsSteady) (h : d.fill id attrs = .ok e) :
    ∃ e', d.fill id attrs' = .ok e' ∧ SameReads e e' := by
  induction hperm generalizing d e with
  | nil => exact (SameReads.refl hdense).fill h
  | cons f _ ih =>
    obtain ⟨name, value⟩ := f
    obtain ⟨-, hrest⟩ := List.forall_mem_cons.mp hsteady
    have hnodup' := (List.nodup_cons.mp hnodup).2
    by_cases hname : name = configId
    · rw [fill, if_pos hname] at h ⊢
      exact ih hdense hnodup' hrest h
    · obtain ⟨a, d₁, ha, hwrite, h⟩ := (fill_cons_eq_ok_iff hname).mp h
      obtain ⟨_, rfl⟩ := (write_eq_ok_iff hname).mp hwrite
      obtain ⟨e', he', hrel⟩ := ih (hdense.setAttrs _ _) hnodup' hrest h
      exact ⟨e', (fill_cons_eq_ok_iff hname).mpr ⟨a, _, ha, hwrite, he'⟩, hrel⟩
  | swap f g rest =>
    obtain ⟨hg, hothers⟩ := List.forall_mem_cons.mp hsteady
    obtain ⟨hf, -⟩ := List.forall_mem_cons.mp hothers
    have hne : f.1 ≠ g.1 := by
      intro heq
      exact (List.nodup_cons.mp hnodup).1 (List.mem_map.mpr ⟨f, List.mem_cons_self, heq⟩)
    exact fill_swap hdense hne hf hg h
  | trans hperm _ ih ih' =>
    obtain ⟨e', he', hrel⟩ := ih hdense hnodup hsteady h
    have hnodup' := (hperm.map Prod.fst).nodup_iff.mp hnodup
    obtain ⟨e'', he'', hrel'⟩ := ih' hdense hnodup' (fun f hf => hsteady f (hperm.mem_iff.mpr hf)) he'
    exact ⟨e'', he'', hrel.trans hrel'⟩

/-! ## 5. Both passes -/

/-- Two tasks that differ at most in the order in which steady attributes are filled in. -/
inductive Task.Rearranged : Task → Task → Prop
  | same (task : Task) : Rearranged task task
  | fill (id : EntityId) {attrs attrs' : Fields OpValue} (nodup : (Fields.names attrs).Nodup)
    (perm : attrs.Perm attrs') (steady : ∀ f ∈ attrs, f.2.IsSteady) :
    Rearranged (.fill id attrs) (.fill id attrs')

theorem Task.Rearranged.symm {task task' : Task} (h : task.Rearranged task') :
    task'.Rearranged task := by
  cases h with
  | same => exact .same _
  | fill id nodup perm steady =>
    exact .fill id ((perm.map Prod.fst).nodup_iff.mp nodup) perm.symm fun f hf =>
      steady f (perm.mem_iff.mpr hf)

theorem allocate_perm {tempId : Option String} {attrs attrs' : Fields OpValue}
    (hnodup : (Fields.names attrs).Nodup) (hperm : attrs.Perm attrs') :
    d.allocate tempId attrs = d.allocate tempId attrs' := by
  have hget := Fields.get?_eq_of_perm hnodup hperm
  unfold allocate givenName Fields.has
  rw [hget, hget]

/-- The first pass over an op looks at nothing in the attributes but the config id, and whether there
is a `db/id`. -/
theorem prepare_rearranged {op op' : TxOp} (h : op.Rearranged op') (hsteady : op.IsSteady) :
    SameOutcome (fun p p' => p.1.Rearranged p'.1 ∧ p.2 = p'.2) (d.prepare op) (d.prepare op') := by
  cases h with
  | same =>
    cases d.prepare op with
    | error c => exact .error c
    | ok p => exact .ok ⟨.same p.1, rfl⟩
  | create nodup perm =>
    simp only [prepare]
    rw [← allocate_perm nodup perm]
    refine (SameOutcome.of_eq rfl).bind fun p p' hp => ?_
    subst hp
    exact .ok ⟨.fill p.1 nodup perm hsteady, rfl⟩

theorem prepareAll_rearranged {ops ops' : List TxOp} (h : List.Forall₂ TxOp.Rearranged ops ops')
    (hsteady : ∀ op ∈ ops, op.IsSteady) {d : Draft} (index : Nat) :
    SameOutcome (fun p p' => List.Forall₂ Task.Rearranged p.1 p'.1 ∧ p.2 = p'.2)
      (prepareAll index d ops) (prepareAll index d ops') := by
  induction h generalizing d index with
  | nil => exact .ok ⟨.nil, rfl⟩
  | cons hfirst _ ih =>
    obtain ⟨hop, hrest⟩ := List.forall_mem_cons.mp hsteady
    unfold prepareAll
    obtain ⟨c, hc, hc'⟩ | ⟨⟨task, d₁⟩, ⟨task', d₁'⟩, hp, hp', htask, hsame⟩ :=
      (prepare_rearranged hfirst hop (d := d)).error_or_ok
    · rw [hc, hc']
      exact .error _
    · obtain rfl : d₁ = d₁' := hsame
      rw [hp, hp']
      obtain ⟨r, hr, hr'⟩ | ⟨q, q', hq, hq', htasks, hsame'⟩ :=
        (ih hrest (d := d₁) (index + 1)).error_or_ok
      · simp only [hr, hr']
        exact .error r
      · simp only [hq, hq']
        exact .ok ⟨.cons htask htasks, hsame'⟩

/-- The second pass over an op that goes through with the attributes in one order does in the
other. -/
theorem perform_rearranged {task task' : Task} (h : SameReads d d') (htask : task.Rearranged task')
    (hperform : d.perform task = .ok e) :
    ∃ e', d'.perform task' = .ok e' ∧ SameReads e e' := by
  cases htask with
  | fill id nodup perm steady =>
    obtain ⟨e₁, he₁, hrel⟩ := fill_perm perm h.dense nodup steady hperform
    obtain ⟨e', he', hrel'⟩ := h.fill he₁
    exact ⟨e', he', hrel.trans hrel'⟩
  | same =>
    cases task with
    | fill id attrs => exact h.fill hperform
    | assert entity attr value =>
      obtain ⟨id, hid, hvalue⟩ := bind_eq_ok hperform
      obtain ⟨a, ha, hwrite⟩ := bind_eq_ok hvalue
      obtain ⟨e', hwrite', hrel⟩ := h.write hwrite
      refine ⟨e', ?_, hrel⟩
      rw [perform, ← h.sameTexts.resolve, hid, ok_bind, ← h.sameTexts.resolveValue, ha, ok_bind,
        hwrite']
    | retract entity attr =>
      obtain ⟨id, hid, hremove⟩ := bind_eq_ok hperform
      obtain ⟨e', hremove', hrel⟩ := h.remove hremove
      refine ⟨e', ?_, hrel⟩
      rw [perform, ← h.sameTexts.resolve, hid, ok_bind, hremove']

end Draft

/-- Two runs are refused at the same op, or come to related results. -/
inductive SameVerdict {α β : Type} (R : α → β → Prop) : Except Rejection α → Except Rejection β → Prop
  | refused {r r' : Rejection} (same_place : r.place = r'.place) :
    SameVerdict R (.error r) (.error r')
  | accepted {a : α} {b : β} (related : R a b) : SameVerdict R (.ok a) (.ok b)

namespace Draft

/-- **The second pass goes through in either order, or stops at the same op.** -/
theorem performAll_rearranged {tasks tasks' : List Task} {d d' : Draft}
    (htasks : List.Forall₂ Task.Rearranged tasks tasks') (h : SameReads d d') (index : Nat) :
    SameVerdict SameReads (performAll index d tasks) (performAll index d' tasks') := by
  induction htasks generalizing d d' index with
  | nil => exact .accepted h
  | @cons task task' _ _ hfirst _ ih =>
    unfold performAll
    cases hd : d.perform task with
    | ok e =>
      obtain ⟨e', he', hrel⟩ := perform_rearranged h hfirst hd
      rw [he']
      exact ih hrel (index + 1)
    | error c =>
      cases hd' : d'.perform task' with
      | ok e' =>
        obtain ⟨e, he, -⟩ := perform_rearranged h.symm hfirst.symm hd'
        rw [hd] at he
        cases he
      | error c' => exact .refused rfl

theorem run_rearranged {ops ops' : List TxOp} (h : List.Forall₂ TxOp.Rearranged ops ops')
    (hsteady : ∀ op ∈ ops, op.IsSteady) (hops : ∀ op ∈ ops, op.Valid) {d : Draft} (hdense : d.Dense) :
    SameVerdict SameReads (d.run ops) (d.run ops') := by
  unfold run
  obtain ⟨r, hr, hr'⟩ | ⟨⟨tasks, d₁⟩, ⟨tasks', d₁'⟩, hp, hp', htasks, hsame⟩ :=
    (prepareAll_rearranged h hsteady (d := d) 0).error_or_ok
  · rw [hr, hr']
    exact .refused rfl
  · obtain rfl : d₁ = d₁' := hsame
    have hdense₁ : d₁.Dense := (steps_of_prepareAll hops hp).1.dense hdense
    rw [hp, hp']
    exact performAll_rearranged htasks (.refl hdense₁) 0

end Draft

/-! ## 6. Whole batches -/

/-- Two graphs that differ at most in the order of the attributes of an entity. -/
structure Graph.Rearranged (g g' : Graph) : Prop where
  basisTx : g.basisTx = g'.basisTx
  nextId : g.nextId = g'.nextId
  entities : List.Forall₂ (fun x y => x.1 = y.1 ∧ x.2.Perm y.2) g.entities g'.entities
  tempIds : g.tempIds = g'.tempIds
  transactions : g.transactions = g'.transactions

theorem Graph.Rearranged.refl (g : Graph) : g.Rearranged g :=
  ⟨rfl, rfl, List.forall₂_same.mpr fun _ _ => ⟨rfl, .refl _⟩, rfl, rfl⟩

/-- What makes of a graph drafts that read the same makes of it graphs that differ in nothing else, and
have the same fingerprint. -/
theorem Graph.rearranged_commit {g : Graph} {d d' : Draft} {count : Nat} {provenance : Value}
    (h : Draft.SameReads d d') (hd : (g.commit d count provenance).Reachable)
    (hd' : (g.commit d' count provenance).Reachable) :
    (g.commit d count provenance).Rearranged (g.commit d' count provenance) ∧
      (g.commit d count provenance).fingerprint = (g.commit d' count provenance).fingerprint := by
  have htexts : Graph.SameTexts (g.commit d count provenance) (g.commit d' count provenance) :=
    ⟨rfl, h.nextId, h.sameTexts.entities, rfl⟩
  refine ⟨⟨rfl, h.nextId, ?_, h.tempIds, rfl⟩, ?_⟩
  · exact h.attrs_perm ⟨hd.tidy.nodup, hd.tidy.named⟩ ⟨hd'.tidy.nodup, hd'.tidy.named⟩
  · unfold fingerprint
    rw [htexts.canonicalText_eq hd hd']

theorem Batch.ofValue_list (items : List Value) :
    Batch.ofValue (.list items) = if isEmptyBatch (.list items) then .ok []
      else match opsShape (.list items) with
        | .ok ops => .ok ops
        | .error issues =>
          .error (.ofIssues issues fun _ => .rejected ⟨.malformed issues, .batch, none⟩) := rfl

/-- Batches that differ in the order of attributes are read as such. -/
theorem Batch.ofValue_rearranged {vs ws : List Value} {ops : List TxOp}
    (h : List.Forall₂ Value.Rearranged vs ws) (hread : Batch.ofValue (.list vs) = .ok ops) :
    ∃ ops', Batch.ofValue (.list ws) = .ok ops' ∧ List.Forall₂ TxOp.Rearranged ops ops' := by
  have hlength : isEmptyBatch (.list vs) = isEmptyBatch (.list ws) := by
    simp [isEmptyBatch, Value.field, Value.member?, h.length_eq]
  cases hempty : isEmptyBatch (.list vs) with
  | true =>
    obtain rfl := ofValue_of_isEmptyBatch hread hempty
    refine ⟨[], ?_, .nil⟩
    rw [Batch.ofValue_list, if_pos (hlength ▸ hempty)]
  | false =>
    rw [Batch.ofValue_list, if_neg (by simp [hempty])] at hread
    split at hread
    · next read hops =>
      obtain rfl := Except.ok.inj hread
      obtain ⟨ops', hops', hrel⟩ := opsShape_rearranged h hops
      refine ⟨ops', ?_, hrel⟩
      rw [Batch.ofValue_list, if_neg (by simp [← hlength, hempty]), hops']
    · cases hread

/-- **The order of attributes does not matter.**  Let two batches differ at most in the order in which
their creates list attributes, and let the values of these contain no lookup but by a config id.  Then
on every reachable graph, either both are refused, at the same op, or both are accepted; and then they
come to the same next id, names, log and attributes of every entity, and so to the same fingerprint. -/
theorem order_of_attributes_does_not_matter {g : Graph} {vs ws : List Value} {ops : List TxOp}
    (hg : g.Reachable) (h : List.Forall₂ Value.Rearranged vs ws)
    (hread : Batch.ofValue (.list vs) = .ok ops) (hsteady : ∀ op ∈ ops, op.IsSteady)
    (provenance : Value) :
    (∃ r r', g.applyOps (.list vs) provenance = .error (.rejected r) ∧
      g.applyOps (.list ws) provenance = .error (.rejected r') ∧ r.place = r'.place) ∨
    ∃ next next', g.applyOps (.list vs) provenance = .ok next ∧
      g.applyOps (.list ws) provenance = .ok next' ∧
      (next.getD g).Rearranged (next'.getD g) ∧
      (next.getD g).fingerprint = (next'.getD g).fingerprint := by
  obtain ⟨ops', hread', hrel⟩ := Batch.ofValue_rearranged h hread
  by_cases hempty : ops = []
  · subst hempty
    obtain rfl := List.forall₂_nil_left_iff.mp hrel
    exact .inr ⟨none, none, Graph.applyOps_eq_none_iff.mpr hread,
      Graph.applyOps_eq_none_iff.mpr hread', .refl g, rfl⟩
  · have hempty' : ops' ≠ [] := by
      rintro rfl
      exact hempty (List.forall₂_nil_right_iff.mp hrel)
    have hverdict := Draft.run_rearranged hrel hsteady (valid_of_ofValue hread) hg.dense_draft
    cases hrun : g.draft.run ops with
    | error r =>
      cases hrun' : g.draft.run ops' with
      | error r' =>
        rw [hrun, hrun'] at hverdict
        cases hverdict with
        | refused same_place =>
          exact .inl ⟨r, r', Graph.applyOps_of_refused hread hrun,
            Graph.applyOps_of_refused hread' hrun', same_place⟩
      | ok d' =>
        rw [hrun, hrun'] at hverdict
        cases hverdict
    | ok d =>
      cases hrun' : g.draft.run ops' with
      | error r' =>
        rw [hrun, hrun'] at hverdict
        cases hverdict
      | ok d' =>
        rw [hrun, hrun'] at hverdict
        cases hverdict with
        | accepted related =>
          have happly : g.applyOps (.list vs) provenance
              = .ok (some (g.commit d ops.length provenance)) :=
            Graph.applyOps_of_run hread hempty hrun
          have happly' : g.applyOps (.list ws) provenance
              = .ok (some (g.commit d' ops'.length provenance)) :=
            Graph.applyOps_of_run hread' hempty' hrun'
          rw [← hrel.length_eq] at happly'
          exact .inr ⟨_, _, happly, happly',
            Graph.rearranged_commit related (hg.step happly) (hg.step happly')⟩

/-- Two creates that refer to each other, one by a name that is bound later and one by a config id, and
to an entity that is there, their attributes in some order. -/
def neighbours (arrange : List (String × Value) → List (String × Value)) : List Value := [
  .record .host [("op", .str "create"), ("attrs", .record .host (arrange [
    (configId, .str "app/web"), ("peers", .list [.record .host [("ref", .str "db")]]),
    ("home", .record .host [("ref", .nat 1)])]))],
  .record .host [("op", .str "create"), ("tempId", .str "db"), ("attrs", .record .host (arrange [
    ("port", .nat 80), ("peer", .record .host [("ref", .record .host [
      ("attr", .str configId), ("value", .str "app/web")])])]))]]

/-- The ops of `neighbours`, in the order given. -/
def neighbourOps : List TxOp := [
  .create none [(configId, .str "app/web"), ("peers", .list [.ref (.tempId "db")]),
    ("home", .ref (.id 1))],
  .create (some "db") [("port", .num (Number.ofNat 80)),
    ("peer", .ref (.lookup configId (.str "app/web")))]]

/-- What they make of two entities with a config id each. -/
def neighbourGraph : Graph where
  basisTx := 2
  nextId := 5
  entities := [
    (1, [(configId, .str "app/a")]), (2, [(configId, .str "app/b")]),
    (3, [(configId, .str "app/web"), ("peers", .list [.ref 4]), ("home", .ref 1)]),
    (4, [("port", .num (Number.ofNat 80)), ("peer", .ref 3)])]
  tempIds := [("db", 4)]
  transactions := [⟨1, 2, .null⟩, ⟨2, 2, .null⟩]

theorem order_of_neighbours_does_not_matter :
    Session.namedGraph.applyOps (.list (neighbours id)) .null = .ok (some neighbourGraph) ∧
      ∃ next, Session.namedGraph.applyOps (.list (neighbours List.reverse)) .null = .ok next ∧
        neighbourGraph.Rearranged (next.getD Session.namedGraph) ∧
        neighbourGraph.fingerprint = (next.getD Session.namedGraph).fingerprint := by
  have hread : Batch.ofValue (.list (neighbours id)) = .ok neighbourOps := rfl
  have happly : Session.namedGraph.applyOps (.list (neighbours id)) .null
      = .ok (some neighbourGraph) := rfl
  have hrel : List.Forall₂ Value.Rearranged (neighbours id) (neighbours List.reverse) :=
    .cons (@Value.Rearranged.attrs _ _ [("op", .str "create")] _ _ _ (by decide)
        (List.reverse_perm _).symm)
      (.cons (@Value.Rearranged.attrs _ _ [("op", .str "create"), ("tempId", .str "db")] _ _ _
        (by decide) (List.reverse_perm _).symm) .nil)
  have hsteady : ∀ op ∈ neighbourOps, op.IsSteady := by
    simp only [neighbourOps, List.forall_mem_cons, TxOp.IsSteady, List.not_mem_nil,
      IsEmpty.forall_iff, implies_true, and_true]
    refine ⟨⟨.str _, ?_, .ref trivial⟩, .num _, .ref rfl⟩
    exact .list (List.forall_mem_singleton.mpr (.ref trivial))
  obtain ⟨r, -, hrefused, -⟩ | ⟨next, next', hnext, hnext', hsame, htext⟩ :=
    order_of_attributes_does_not_matter namedGraph_reachable hrel hread hsteady .null
  · rw [happly] at hrefused
    cases hrefused
  · obtain rfl := Except.ok.inj (happly.symm.trans hnext)
    exact ⟨happly, next', hnext', hsame, htext⟩

end ConfGraph
