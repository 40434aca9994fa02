import ConfGraph.Proofs.Graph.Step

/-!
# Transactions see texts only

A transaction looks at stored values by their canonical text alone: searches compare texts, and nothing
else reads a stored value.  So two drafts whose entities show the same texts under the same names take
the same way through every transaction, whatever order their attributes are in: they refuse alike, and
what they come to shows the same texts again.

* `SameOutcome`: two runs fail alike, or succeed with related results.
* `Draft.SameTexts`: two drafts show the same texts.
* `Draft.SameTexts.run`: they go through every transaction alike.
* `Graph.SameTexts.applyOps`: so do graphs with every batch.
-/

namespace ConfGraph

/-! ## 1. Outcomes side by side -/

/-- Two runs fail with the same error, or succeed with related results. -/
inductive SameOutcome {ε α β : Type} (R : α → β → Prop) : Except ε α → Except ε β → Prop
  | error (e : ε) : SameOutcome R (.error e) (.error e)
  | ok {a : α} {b : β} (related : R a b) : SameOutcome R (.ok a) (.ok b)

namespace SameOutcome

variable {ε α α' β β' : Type} {R : α → α' → Prop} {S : β → β' → Prop}

theorem of_eq {r r' : Except ε α} (h : r = r') : SameOutcome Eq r r' := by
  subst h
  cases r with
  | error e => exact .error e
  | ok a => exact .ok rfl

theorem error_or_ok {r : Except ε α} {r' : Except ε α'} (h : SameOutcome R r r') :
    (∃ e, r = .error e ∧ r' = .error e) ∨ ∃ a a', r = .ok a ∧ r' = .ok a' ∧ R a a' := by
  cases h with
  | error e => exact .inl ⟨e, rfl, rfl⟩
  | ok related => exact .inr ⟨_, _, rfl, rfl, related⟩

/-- **What goes on alike from related results is alike as a whole.** -/
theorem bind {r : Except ε α} {r' : Except ε α'} {f : α → Except ε β} {f' : α' → Except ε β'}
    (h : SameOutcome R r r') (hf : ∀ a a', R a a' → SameOutcome S (f a) (f' a')) :
    SameOutcome S (r >>= f) (r' >>= f') := by
  cases h with
  | error e => exact .error e
  | ok related => exact hf _ _ related

end SameOutcome

/-! ## 2. Texts -/

/-- The canonical text that an entity shows under a name. -/
def Attrs.texts (attrs : Attrs) (name : String) : Option (List Char) :=
  (Fields.get? attrs name).map fun a => a.toValue.canonical

theorem matchesSearch_eq (name : String) (value : Value) (attrs : Attrs) :
    matchesSearch name value attrs
      = ((Attrs.texts attrs name).or (inheritedText name) == some value.canonical) := by
  unfold matchesSearch searchText Attrs.texts
  cases Fields.get? attrs name with
  | none => rfl
  | some a => rfl

theorem texts_put (attrs : Attrs) (name : String) (a : AttrValue) :
    Attrs.texts (Fields.put attrs name a)
      = fun other => if other = name then some a.toValue.canonical else Attrs.texts attrs other := by
  funext other
  unfold Attrs.texts
  rw [Fields.get?_put]
  split
  · rfl
  · rfl

theorem texts_erase (attrs : Attrs) (name : String) :
    Attrs.texts (Fields.erase attrs name)
      = fun other => if other = name then none else Attrs.texts attrs other := by
  funext other
  unfold Attrs.texts
  rw [Fields.get?_erase]
  split
  · rfl
  · rfl

/-- An entity with the texts it shows. -/
def withTexts (e : EntityId × Attrs) : EntityId × (String → Option (List Char)) :=
  (e.1, Attrs.texts e.2)

theorem lookup_withTexts (entities : List (EntityId × Attrs)) (id : EntityId) :
    (entities.map withTexts).lookup id = (entities.lookup id).map Attrs.texts := by
  induction entities with
  | nil => rfl
  | cons e rest ih =>
    rw [List.map_cons, List.lookup_cons, List.lookup_cons, ih]
    by_cases h : id = e.1
    · simp [withTexts, h]
    · simp [withTexts, beq_eq_false_iff_ne.mpr h]

/-- A search is decided by texts. -/
theorem findIn_eq_of_texts {es es' : List (EntityId × Attrs)}
    (h : es.map withTexts = es'.map withTexts) (name : String) (value : Value) :
    findIn es name value = findIn es' name value := by
  have by_texts : ∀ es : List (EntityId × Attrs), findIn es name value
      = ((es.map withTexts).find? fun s =>
          (s.2 name).or (inheritedText name) == some value.canonical).map (·.1) := by
    intro es
    rw [List.find?_map, Option.map_map]
    unfold findIn
    congr 2
    funext e
    exact matchesSearch_eq name value e.2
  rw [by_texts, by_texts, h]

/-! ## 3. Drafts that show the same -/

namespace Draft

/-- Two drafts show the same texts. -/
structure SameTexts (d d' : Draft) : Prop where
  entities : d.entities.map withTexts = d'.entities.map withTexts
  tempIds : d.tempIds = d'.tempIds
  nextId : d.nextId = d'.nextId

namespace SameTexts

variable {d d' : Draft}

theorem findIn (h : SameTexts d d') (name : String) (value : Value) :
    findIn d.entities name value = ConfGraph.findIn d'.entities name value :=
  findIn_eq_of_texts h.entities name value

theorem lookup (h : SameTexts d d') (id : EntityId) :
    (d.entities.lookup id).map Attrs.texts = (d'.entities.lookup id).map Attrs.texts := by
  rw [← lookup_withTexts, ← lookup_withTexts, h.entities]

theorem has (h : SameTexts d d') (id : EntityId) : d.has id = d'.has id := by
  have hsome := congrArg Option.isSome (h.lookup id)
  rwa [Option.isSome_map, Option.isSome_map] at hsome

theorem texts_attrsOf (h : SameTexts d d') (id : EntityId) :
    Attrs.texts (d.attrsOf id) = Attrs.texts (d'.attrsOf id) := by
  have hlookup := h.lookup id
  unfold attrsOf
  cases hd : d.entities.lookup id with
  | none =>
    rw [hd] at hlookup
    rw [Option.map_eq_none_iff.mp hlookup.symm]
  | some attrs =>
    rw [hd] at hlookup
    obtain ⟨attrs', hd', htexts⟩ := Option.map_eq_some_iff.mp hlookup.symm
    rw [hd']
    exact htexts.symm

theorem fresh (h : SameTexts d d') (attrs : Attrs) :
    (d.fresh attrs).1 = (d'.fresh attrs).1 ∧ SameTexts (d.fresh attrs).2 (d'.fresh attrs).2 := by
  refine ⟨h.nextId, ⟨?_, h.tempIds, congrArg (· + 1) h.nextId⟩⟩
  simp only [Draft.fresh, List.map_append, h.entities, h.nextId]

/-- **A write of the same texts** keeps what is shown the same. -/
theorem setAttrs (h : SameTexts d d') (id : EntityId) {attrs attrs' : Attrs}
    (htexts : Attrs.texts attrs = Attrs.texts attrs') :
    SameTexts (d.setAttrs id attrs) (d'.setAttrs id attrs') := by
  have by_texts : ∀ (d : Draft) (attrs : Attrs), (d.setAttrs id attrs).entities.map withTexts
      = (d.entities.map withTexts).map fun s =>
          if s.1 = id then (id, Attrs.texts attrs) else s := by
    intro d attrs
    simp only [Draft.setAttrs, List.map_map]
    refine List.map_congr_left fun e _ => ?_
    by_cases hid : e.1 = id
    · simp [withTexts, hid]
    · simp [withTexts, hid]
  refine ⟨?_, h.tempIds, h.nextId⟩
  rw [by_texts, by_texts, h.entities, htexts]

/-! ## 4. First pass -/

theorem bind (h : SameTexts d d') (name : String) (id : EntityId) :
    SameOutcome SameTexts (d.bind name id) (d'.bind name id) := by
  unfold Draft.bind
  rw [h.tempIds]
  split
  · exact .ok ⟨h.entities, rfl, h.nextId⟩
  · split
    · exact .ok h
    · exact .error _

theorem place (h : SameTexts d d') (name : Option String) :
    (d.place name).1 = (d'.place name).1 ∧ SameTexts (d.place name).2 (d'.place name).2 := by
  cases name with
  | none => exact h.fresh []
  | some name =>
    unfold Draft.place
    simp only
    rw [h.findIn]
    split
    · exact ⟨rfl, h⟩
    · exact h.fresh _

/-- The same thing, beside drafts that show the same. -/
def WithSame {α : Type} (p p' : α × Draft) : Prop := p.1 = p'.1 ∧ SameTexts p.2 p'.2

theorem allocate (h : SameTexts d d') (tempId : Option String) (attrs : Fields OpValue) :
    SameOutcome WithSame (d.allocate tempId attrs) (d'.allocate tempId attrs) := by
  unfold Draft.allocate
  split
  · exact .error _
  · refine SameOutcome.bind (.of_eq rfl) fun name name' hname => ?_
    subst hname
    obtain ⟨hid, hplaced⟩ := h.place name
    cases tempId with
    | none => exact .ok ⟨hid, hplaced⟩
    | some t =>
      simp only
      rw [hid]
      exact (hplaced.bind t _).bind fun b b' hb => .ok ⟨rfl, hb⟩

theorem prepare (h : SameTexts d d') (op : TxOp) :
    SameOutcome WithSame (d.prepare op) (d'.prepare op) := by
  cases op with
  | create tempId attrs =>
    refine (h.allocate tempId attrs).bind fun p p' hp => ?_
    obtain ⟨hid, hsame⟩ := hp
    exact .ok ⟨congrArg (Task.fill · attrs) hid, hsame⟩
  | assert entity attr value => exact .ok ⟨rfl, h⟩
  | retract entity attr => exact .ok ⟨rfl, h⟩

theorem prepareAll (h : SameTexts d d') (ops : List TxOp) (index : Nat) :
    SameOutcome WithSame (Draft.prepareAll index d ops) (Draft.prepareAll index d' ops) := by
  induction ops generalizing d d' index with
  | nil => exact .ok ⟨rfl, h⟩
  | cons op rest ih =>
    unfold Draft.prepareAll
    obtain ⟨c, hc, hc'⟩ | ⟨⟨task, e⟩, ⟨task', e'⟩, hp, hp', htask, hsame⟩ :=
      (h.prepare op).error_or_ok
    · rw [hc, hc']
      exact .error _
    · obtain rfl : task = task' := htask
      rw [hp, hp']
      obtain ⟨r, hr, hr'⟩ | ⟨q, q', hq, hq', htasks, hsame'⟩ := (ih hsame (index + 1)).error_or_ok
      · simp only [hr, hr']
        exact .error r
      · simp only [hq, hq']
        exact .ok ⟨congrArg (task :: ·) htasks, hsame'⟩

/-! ## 5. Second pass -/

theorem resolve (h : SameTexts d d') (r : EntityRef) : d.resolve r = d'.resolve r := by
  cases r with
  | id n => simp only [Draft.resolve, h.has]
  | tempId name => simp only [Draft.resolve, h.tempIds]
  | lookup attr value => simp only [Draft.resolve, h.findIn]

mutual

/-- References lead to the same entities, at every depth of a value. -/
theorem resolveValue (h : SameTexts d d') : ∀ op : OpValue, d.resolveValue op = d'.resolveValue op
  | .str s => rfl
  | .num x => rfl
  | .bool b => rfl
  | .null => rfl
  | .list items => by rw [Draft.resolveValue, Draft.resolveValue, resolveItems h items]
  | .ref target => by rw [Draft.resolveValue, Draft.resolveValue, h.resolve]

theorem resolveItems (h : SameTexts d d') :
    ∀ ops : List OpValue, d.resolveItems ops = d'.resolveItems ops
  | [] => rfl
  | op :: rest => by
    rw [Draft.resolveItems, Draft.resolveItems, resolveValue h op, resolveItems h rest]

end

theorem checkName (h : SameTexts d d') (id : EntityId) (a : AttrValue) :
    d.checkName id a = d'.checkName id a := by
  unfold Draft.checkName
  split
  · rw [h.findIn]
  · rfl

theorem write (h : SameTexts d d') (id : EntityId) (name : String) (a : AttrValue) :
    SameOutcome SameTexts (d.write id name a) (d'.write id name a) := by
  have hput : Attrs.texts (Fields.put (d.attrsOf id) name a)
      = Attrs.texts (Fields.put (d'.attrsOf id) name a) := by
    rw [texts_put, texts_put, h.texts_attrsOf]
  have hset := h.setAttrs id hput
  unfold Draft.write
  split
  · exact .error _
  · split
    · rw [h.checkName]
      exact (SameOutcome.of_eq rfl).bind fun _ _ _ => .ok hset
    · exact .ok hset

theorem remove (h : SameTexts d d') (id : EntityId) (name : String) :
    SameOutcome SameTexts (d.remove id name) (d'.remove id name) := by
  have herase : Attrs.texts (Fields.erase (d.attrsOf id) name)
      = Attrs.texts (Fields.erase (d'.attrsOf id) name) := by
    rw [texts_erase, texts_erase, h.texts_attrsOf]
  unfold Draft.remove
  split
  · exact .error _
  · exact .ok (h.setAttrs id herase)

theorem fill (h : SameTexts d d') (id : EntityId) (attrs : Fields OpValue) :
    SameOutcome SameTexts (d.fill id attrs) (d'.fill id attrs) := by
  induction attrs generalizing d d' with
  | nil => exact .ok h
  | cons f rest ih =>
    unfold Draft.fill
    split
    · exact ih h
    · refine (SameOutcome.of_eq (h.resolveValue f.2)).bind fun a a' ha => ?_
      subst ha
      exact (h.write id f.1 a).bind fun e e' he => ih he

theorem perform (h : SameTexts d d') (task : Task) :
    SameOutcome SameTexts (d.perform task) (d'.perform task) := by
  cases task with
  | fill id attrs => exact h.fill id attrs
  | assert entity attr value =>
    refine (SameOutcome.of_eq (h.resolve entity)).bind fun id id' hid => ?_
    subst hid
    refine (SameOutcome.of_eq (h.resolveValue value)).bind fun a a' ha => ?_
    subst ha
    exact h.write id attr a
  | retract entity attr =>
    refine (SameOutcome.of_eq (h.resolve entity)).bind fun id id' hid => ?_
    subst hid
    exact h.remove id attr

theorem performAll (h : SameTexts d d') (tasks : List Task) (index : Nat) :
    SameOutcome SameTexts (Draft.performAll index d tasks) (Draft.performAll index d' tasks) := by
  induction tasks generalizing d d' index with
  | nil => exact .ok h
  | cons task rest ih =>
    unfold Draft.performAll
    obtain ⟨c, hc, hc'⟩ | ⟨e, e', he, he', hsame⟩ := (h.perform task).error_or_ok
    · rw [hc, hc']
      exact .error _
    · rw [he, he']
      exact ih hsame (index + 1)

/-- **Drafts that show the same go through every transaction alike.** -/
theorem run (h : SameTexts d d') (ops : List TxOp) :
    SameOutcome SameTexts (d.run ops) (d'.run ops) := by
  unfold Draft.run
  obtain ⟨r, hr, hr'⟩ | ⟨⟨tasks, e⟩, ⟨tasks', e'⟩, hp, hp', htasks, hsame⟩ :=
    (h.prepareAll ops 0).error_or_ok
  · rw [hr, hr']
    exact .error r
  · obtain rfl : tasks = tasks' := htasks
    rw [hp, hp']
    exact hsame.performAll tasks 0

end SameTexts

end Draft

/-! ## 6. Graphs that show the same -/

namespace Graph

/-- Two graphs show the same texts, in their entities and in their logs. -/
structure SameTexts (g g' : Graph) : Prop where
  basisTx : g.basisTx = g'.basisTx
  nextId : g.nextId = g'.nextId
  entities : g.entities.map withTexts = g'.entities.map withTexts
  transactions : (g.transactions.map fun r => (recordValue r).canonical)
    = g'.transactions.map fun r => (recordValue r).canonical

namespace SameTexts

variable {g g' : Graph}

theorem draft (h : SameTexts g g') : Draft.SameTexts g.draft g'.draft :=
  ⟨h.entities, rfl, h.nextId⟩

theorem commit (h : SameTexts g g') {d d' : Draft} (hd : Draft.SameTexts d d') (opCount : Nat)
    (provenance : Value) :
    SameTexts (g.commit d opCount provenance) (g'.commit d' opCount provenance) where
  basisTx := congrArg (· + 1) h.basisTx
  nextId := hd.nextId
  entities := hd.entities
  transactions := by
    simp only [Graph.commit, List.map_append, h.transactions, h.basisTx]

theorem transact (h : SameTexts g g') (ops : List TxOp) (provenance : Value) :
    SameOutcome SameTexts (g.transact ops provenance) (g'.transact ops provenance) := by
  unfold Graph.transact
  split
  · exact .ok h
  · obtain ⟨r, hr, hr'⟩ | ⟨d, d', hd, hd', hsame⟩ := (h.draft.run ops).error_or_ok
    · rw [hr, hr']
      exact .error r
    · rw [hd, hd']
      exact .ok (h.commit hsame _ _)

/-- **Graphs that show the same take every batch alike.** -/
theorem applyOps (h : SameTexts g g') (ops provenance : Value) :
    SameOutcome (Option.Rel SameTexts) (g.applyOps ops provenance)
      (g'.applyOps ops provenance) := by
  unfold Graph.applyOps
  split
  · exact .error _
  · exact .ok .none
  · next txOps _ _ =>
    obtain ⟨r, hr, hr'⟩ | ⟨k, k', hk, hk', hsame⟩ := (h.transact txOps provenance).error_or_ok
    · rw [hr, hr']
      exact .error _
    · rw [hk, hk']
      exact .ok (.some hsame)

end SameTexts

end Graph

end ConfGraph
