import ConfGraph.Proofs.Graph.Passes
import ConfGraph.Proofs.Graph.Renaming
import Mathlib.Data.Nat.Count
import Mathlib.Data.Finset.Card

/-!
# Which entities creates are given

The first pass looks a config id up among the entities so far, those of earlier creates included, and
hands out the next id if nobody has it.  So which op makes an entity can be told from the batch and
the names of the graph before it: a create that gives no config id does, and the first of those that
give a config id nobody has.  The ids of the new entities count these ops.

* `TxOp.makes`, `TxOp.newNames`: the ops that make entities, and the config ids that are new.
* `Draft.named?_of_prepare`: what an op makes of the names.
* `Draft.entity_of_makes`: the op that makes an entity is given the next id, counted from the start.
* `Draft.entity_of_create`: any create is given the holder of its name, or what such an op has made.
* `creates_are_given_their_entities`: a whole batch.
-/

namespace ConfGraph

/-! ## 1. Ops that make entities -/

namespace TxOp

/-- The config id that a create gives. -/
def givenName? : TxOp → Option String
  | .create _ attrs =>
    match Fields.get? attrs configId with
    | some (.str name) => some name
    | _ => none
  | .assert .. => none
  | .retract .. => none

/-- Whether an op is a create that gives no config id. -/
def isUnnamed : TxOp → Bool
  | .create _ attrs => !Fields.has attrs configId
  | .assert .. => false
  | .retract .. => false

/-- Whether the op at a position makes an entity, where `holder` tells who has a config id before: it
gives no config id, or one that nobody has and no op before it gives. -/
def makes (holder : String → Option EntityId) (ops : List TxOp) (i : Nat) : Bool :=
  ops[i]?.any fun op =>
    op.isUnnamed || op.givenName?.any fun name =>
      (holder name).isNone && !(ops.take i).any fun earlier => earlier.givenName? == some name

/-- The config ids that creates give and nobody has. -/
def newNames (holder : String → Option EntityId) (ops : List TxOp) : Finset String :=
  ((ops.filterMap givenName?).filter fun name => (holder name).isNone).toFinset

/-- The config id that the op at a position gives. -/
def nameAt? (ops : List TxOp) (i : Nat) : Option String := ops[i]?.bind givenName?

variable {holder holder' : String → Option EntityId} {op : TxOp} {rest ops : List TxOp}

/-- An op where it stands first. -/
theorem makes_zero : makes holder (op :: rest) 0
    = (op.isUnnamed || op.givenName?.any fun name => (holder name).isNone) := by
  simp [makes]

/-- The ops behind an op see the names that it gives as taken. -/
theorem makes_succ
    (h : ∀ name, (holder' name).isNone = ((holder name).isNone && op.givenName? != some name))
    (rest : List TxOp) (i : Nat) : makes holder (op :: rest) (i + 1) = makes holder' rest i := by
  simp [makes, h, bne, Bool.and_assoc]

theorem mem_newNames {name : String} : name ∈ newNames holder ops ↔
    (∃ op ∈ ops, op.givenName? = some name) ∧ holder name = none := by
  simp [newNames]

/-- The name that an op gives is new once, however many ops behind it give it again. -/
theorem card_newNames_cons
    (h : ∀ name, (holder' name).isNone = ((holder name).isNone && op.givenName? != some name)) :
    (newNames holder (op :: rest)).card
      = (if (op.givenName?.any fun name => (holder name).isNone) = true then 1 else 0)
        + (newNames holder' rest).card := by
  cases hgiven : op.givenName? with
  | none =>
    have hsame : newNames holder (op :: rest) = newNames holder' rest := by
      ext name
      simp [mem_newNames, ← Option.isNone_iff_eq_none, h, hgiven]
    rw [hsame]
    simp
  | some given =>
    by_cases hnew : holder given = none
    · have hinsert : newNames holder (op :: rest) = insert given (newNames holder' rest) := by
        ext name
        by_cases hname : given = name
        · simp [mem_newNames, ← hname, hgiven, hnew]
        · simp [mem_newNames, ← Option.isNone_iff_eq_none, h, hgiven, hname, Ne.symm hname]
      have hnot : given ∉ newNames holder' rest := by
        simp [mem_newNames, ← Option.isNone_iff_eq_none, h, hgiven]
      rw [hinsert, Finset.card_insert_of_notMem hnot, Nat.add_comm]
      simp [hnew]
    · have hsame : newNames holder (op :: rest) = newNames holder' rest := by
        ext name
        by_cases hname : given = name
        · simp [mem_newNames, ← Option.isNone_iff_eq_none, h, hgiven, ← hname,
            Option.isSome_iff_ne_none.mpr hnew]
        · simp [mem_newNames, ← Option.isNone_iff_eq_none, h, hgiven, hname]
      rw [hsame]
      simp [hnew]

theorem isUnnamed_of_givenName? {name : String} (h : op.givenName? = some name) :
    op.isUnnamed = false := by
  cases op with
  | create tempId attrs =>
    cases hget : Fields.get? attrs configId with
    | none => simp [givenName?, hget] at h
    | some given => simp [isUnnamed, Fields.has, hget]
  | assert => rfl
  | retract => rfl

end TxOp

namespace Draft

variable {d d' : Draft}

/-! ## 2. Names in the first pass -/

theorem givenName_eq_ok (tempId : Option String) {attrs : Fields OpValue} {name : Option String}
    (h : givenName attrs = .ok name) :
    (TxOp.create tempId attrs).givenName? = name ∧
      (TxOp.create tempId attrs).isUnnamed = name.isNone := by
  unfold givenName at h
  cases hget : Fields.get? attrs configId with
  | none =>
    rw [hget] at h
    obtain rfl := Except.ok.inj h
    simp [TxOp.givenName?, TxOp.isUnnamed, Fields.has, hget]
  | some given =>
    rw [hget] at h
    cases given with
    | str s =>
      obtain rfl := Except.ok.inj h
      simp [TxOp.givenName?, TxOp.isUnnamed, Fields.has, hget]
    | _ => cases h

/-- **What an op makes of the names**: the one that it gives is taken afterwards. -/
theorem named?_of_prepare {op : TxOp} {task : Task} (h : d.prepare op = .ok (task, d'))
    (s : String) : (d'.named? s).isNone = ((d.named? s).isNone && op.givenName? != some s) := by
  cases op with
  | create tempId attrs =>
    obtain ⟨id, name, -, hname, hplaced, -⟩ := prepare_create h
    rw [hplaced.named? s, (givenName_eq_ok tempId hname).1]
    by_cases hs : name = some s
    · simp [hs]
    · simp [hs]
  | assert entity attr value =>
    obtain ⟨-, rfl⟩ := prepare_assert h
    simp [TxOp.givenName?]
  | retract entity attr =>
    obtain ⟨-, rfl⟩ := prepare_retract h
    simp [TxOp.givenName?]

/-! ## 3. Ids in the first pass -/

/-- An op counts the next id on if it makes an entity, and is then given the one before. -/
theorem nextId_of_prepare {op : TxOp} {task : Task} (h : d.prepare op = .ok (task, d'))
    (rest : List TxOp) :
    d'.nextId = d.nextId + (if TxOp.makes d.named? (op :: rest) 0 = true then 1 else 0) ∧
      (TxOp.makes d.named? (op :: rest) 0 = true → ∃ attrs, task = .fill d.nextId attrs) := by
  rw [TxOp.makes_zero]
  cases op with
  | create tempId attrs =>
    obtain ⟨id, name, rfl, hname, hplaced, -⟩ := prepare_create h
    obtain ⟨hgiven, hunnamed⟩ := givenName_eq_ok tempId hname
    rw [hgiven, hunnamed]
    cases hplaced with
    | held holder entities nextId => simp [holder, nextId]
    | made is_new entities nextId =>
      refine ⟨?_, fun _ => ⟨attrs, rfl⟩⟩
      cases name with
      | none => simp [nextId]
      | some s => simp [nextId, is_new s rfl]
  | assert entity attr value =>
    obtain ⟨-, rfl⟩ := prepare_assert h
    simp [TxOp.givenName?, TxOp.isUnnamed]
  | retract entity attr =>
    obtain ⟨-, rfl⟩ := prepare_retract h
    simp [TxOp.givenName?, TxOp.isUnnamed]

/-- **The op that makes an entity is given the next id**, counted on from the start by the ops before
it that make one. -/
theorem entity_of_makes {ops : List TxOp} {index : Nat} {d : Draft} {tasks : List Task}
    (h : prepareAll index d ops = .ok (tasks, d')) {i : Nat}
    (hi : TxOp.makes d.named? ops i = true) : ∃ attrs, tasks[i]?
      = some (.fill (d.nextId + Nat.count (fun k => TxOp.makes d.named? ops k = true) i) attrs) := by
  induction ops generalizing index d tasks i with
  | nil => simp [TxOp.makes] at hi
  | cons op rest ih =>
    obtain ⟨task, d₁, tasks', hfirst, hrest, rfl⟩ := prepareAll_cons_eq_ok_iff.mp h
    obtain ⟨hnext, hmade⟩ := nextId_of_prepare hfirst rest
    cases i with
    | zero =>
      obtain ⟨attrs, rfl⟩ := hmade hi
      exact ⟨attrs, by simp⟩
    | succ i =>
      have hsucc := TxOp.makes_succ (named?_of_prepare hfirst) rest
      rw [hsucc] at hi
      obtain ⟨attrs, htask⟩ := ih hrest hi
      refine ⟨attrs, ?_⟩
      rw [List.getElem?_cons_succ, htask, hnext, Nat.count_succ', Nat.add_assoc,
        Nat.add_comm (ite _ _ _)]
      simp only [hsucc]

/-- **The next id** counts the creates without a config id and the config ids that are new. -/
theorem nextId_of_prepareAll {ops : List TxOp} {index : Nat} {d : Draft} {tasks : List Task}
    (h : prepareAll index d ops = .ok (tasks, d')) :
    d'.nextId = d.nextId + ops.countP TxOp.isUnnamed + (TxOp.newNames d.named? ops).card := by
  induction ops generalizing index d tasks with
  | nil =>
    obtain ⟨-, rfl⟩ := prepareAll_nil_eq_ok_iff.mp h
    simp [TxOp.newNames]
  | cons op rest ih =>
    obtain ⟨task, d₁, tasks', hfirst, hrest, rfl⟩ := prepareAll_cons_eq_ok_iff.mp h
    have hnext := (nextId_of_prepare hfirst rest).1
    rw [TxOp.makes_zero] at hnext
    rw [ih hrest, hnext, TxOp.card_newNames_cons (named?_of_prepare hfirst), List.countP_cons]
    cases hgiven : op.givenName? with
    | none =>
      simp only [Option.any_none, Bool.or_false, Bool.false_eq_true, if_false]
      ac_rfl
    | some name =>
      simp only [TxOp.isUnnamed_of_givenName? hgiven, Bool.false_or]
      simp
      ac_rfl

/-! ## 4. The entity of any create -/

/-- The first op that gives a new config id makes an entity. -/
theorem exists_makes {ops : List TxOp} {i : Nat} {name : String}
    (hi : TxOp.nameAt? ops i = some name) (hnew : d.named? name = none) :
    ∃ k, TxOp.makes d.named? ops k = true ∧ TxOp.nameAt? ops k = some name := by
  have hex : ∃ k, TxOp.nameAt? ops k = some name := ⟨i, hi⟩
  have hfirst := Nat.find_spec hex
  have hbefore : ∀ op ∈ ops.take (Nat.find hex), op.givenName? ≠ some name := by
    intro op hop hgiven
    obtain ⟨k, hk, hget⟩ := List.mem_take_iff_getElem.mp hop
    refine Nat.find_min hex (m := k) (by omega) ?_
    rw [TxOp.nameAt?, List.getElem?_eq_getElem (by omega), hget]
    exact hgiven
  refine ⟨Nat.find hex, ?_, hfirst⟩
  generalize Nat.find hex = k at hfirst hbefore
  obtain ⟨op, hop, hgiven⟩ := Option.bind_eq_some_iff.mp hfirst
  simp only [TxOp.makes, hop, hgiven, hnew, Option.any_some, Option.isNone_none, Bool.true_and,
    Bool.or_eq_true, Bool.not_eq_true', List.any_eq_false, beq_iff_eq]
  exact .inr hbefore

theorem fill_of_nameAt? {ops : List TxOp} {tasks : List Task}
    (h : List.Forall₂ (Found d) ops tasks) {i : Nat} {name : String}
    (hname : TxOp.nameAt? ops i = some name) :
    ∃ id attrs, tasks[i]? = some (.fill id attrs) ∧ d.named? name = some id := by
  obtain ⟨op, hop, hgiven⟩ := Option.bind_eq_some_iff.mp hname
  obtain ⟨task, htask, hfound⟩ := found_at h hop
  cases hfound with
  | @create tempId attrs id given hgiven' is_entity is_named is_bound =>
    refine ⟨id, attrs, htask, is_named name ?_⟩
    rw [← (givenName_eq_ok tempId hgiven').1, hgiven]
  | assert => cases hgiven
  | retract => cases hgiven

/-- **A create is given the holder of its name, or what an op that makes an entity has made**: itself,
or the first that gives the same name. -/
theorem entity_of_create {ops : List TxOp} {index : Nat} {tasks : List Task}
    (h : prepareAll index d ops = .ok (tasks, d')) {i : Nat} {id : EntityId}
    {attrs : Fields OpValue} (hi : tasks[i]? = some (.fill id attrs)) :
    (∃ name, TxOp.nameAt? ops i = some name ∧ d.named? name = some id) ∨
      ∃ k, TxOp.makes d.named? ops k = true ∧
        id = d.nextId + Nat.count (fun k => TxOp.makes d.named? ops k = true) k ∧
        (k = i ∨ ∃ name, TxOp.nameAt? ops i = some name ∧ TxOp.nameAt? ops k = some name) := by
  obtain ⟨hfound, hgrows⟩ := found_of_prepareAll h
  obtain ⟨op, hop, @⟨tempId, _, _, name, hname, -, hnamed, -⟩⟩ := found_for hfound hi
  obtain ⟨hgiven, hunnamed⟩ := givenName_eq_ok tempId hname
  cases name with
  | none =>
    have hmakes : TxOp.makes d.named? ops i = true := by simp [TxOp.makes, hop, hunnamed]
    obtain ⟨attrs', htask⟩ := entity_of_makes h hmakes
    obtain ⟨rfl, -⟩ := Task.fill.inj (Option.some.inj (hi.symm.trans htask))
    exact .inr ⟨i, hmakes, rfl, .inl rfl⟩
  | some name =>
    have hat : TxOp.nameAt? ops i = some name := by simp [TxOp.nameAt?, hop, hgiven]
    have hid := hnamed name rfl
    cases hholder : d.named? name with
    | some holder =>
      obtain rfl := Option.some.inj ((hgrows.named name holder hholder).symm.trans hid)
      exact .inl ⟨name, hat, hholder⟩
    | none =>
      obtain ⟨k, hmakes, hk⟩ := exists_makes hat hholder
      obtain ⟨attrs', htask⟩ := entity_of_makes h hmakes
      obtain ⟨id', _, htask', hid'⟩ := fill_of_nameAt? hfound hk
      obtain ⟨rfl, -⟩ := Task.fill.inj (Option.some.inj (htask.symm.trans htask'))
      exact .inr ⟨k, hmakes, Option.some.inj (hid.symm.trans hid'), .inr ⟨name, hat, hk⟩⟩

/-! ## 5. Names of the transaction -/

/-- **A name that no create carries is bound to nothing new.** -/
theorem tempIds_of_prepareAll {ops : List TxOp} {index : Nat} {d : Draft} {tasks : List Task}
    (h : prepareAll index d ops = .ok (tasks, d')) {t : String}
    (ht : ∀ op ∈ ops, op.tempId? ≠ some t) : d'.tempIds.lookup t = d.tempIds.lookup t := by
  induction ops generalizing index d tasks with
  | nil =>
    obtain ⟨-, rfl⟩ := prepareAll_nil_eq_ok_iff.mp h
    rfl
  | cons op rest ih =>
    obtain ⟨task, d₁, tasks', hfirst, hrest, rfl⟩ := prepareAll_cons_eq_ok_iff.mp h
    obtain ⟨hop, hothers⟩ := List.forall_mem_cons.mp ht
    rw [ih hrest hothers]
    cases op with
    | create tempId attrs =>
      obtain ⟨id, name, -, -, -, hbinds⟩ := prepare_create hfirst
      exact hbinds.other t hop
    | assert entity attr value =>
      obtain ⟨-, rfl⟩ := prepare_assert hfirst
      rfl
    | retract entity attr =>
      obtain ⟨-, rfl⟩ := prepare_retract hfirst
      rfl

end Draft

/-! ## 6. A whole batch -/

namespace Graph

variable {g g' : Graph}

/-- Which entities the creates of a batch are given when it makes `g'` of `g`. -/
structure Allocates (g : Graph) (ops : List TxOp) (g' : Graph) : Prop where
  /-- Every create is given an entity, which is there afterwards. -/
  given : ∀ i tempId attrs, ops[i]? = some (.create tempId attrs) →
    ∃ e, g.entityOf? ops i = some e ∧ g'.has e = true
  /-- A create that gives the config id of an entity is given this entity. -/
  held : ∀ i name e, TxOp.nameAt? ops i = some name →
    g.attr (.id e) configId = some (.str name) → g.entityOf? ops i = some e
  /-- No other create is given an entity of the graph before. -/
  fresh : ∀ i e, g.entityOf? ops i = some e → g.has e = true →
    ∃ name, TxOp.nameAt? ops i = some name ∧ g.attr (.id e) configId = some (.str name)
  /-- Two creates are given one entity just when they give one config id. -/
  shared : ∀ i j e, i ≠ j → g.entityOf? ops i = some e →
    (g.entityOf? ops j = some e ↔
      ∃ name, TxOp.nameAt? ops i = some name ∧ TxOp.nameAt? ops j = some name)
  /-- The ops that make entities are given the ids from the next one on, in their order. -/
  order : ∀ i, TxOp.makes g.named? ops i = true → g.entityOf? ops i
    = some (g.nextId + Nat.count (fun k => TxOp.makes g.named? ops k = true) i)
  /-- The next id counts the creates without a config id and the config ids that nobody has. -/
  nextId : g'.nextId
    = g.nextId + ops.countP TxOp.isUnnamed + (TxOp.newNames g.named? ops).card
  /-- A name that creates carry stands for the entity that each of them is given. -/
  bound : ∀ i t attrs, ops[i]? = some (.create (some t) attrs) → g'.tempId? t = g.entityOf? ops i
  /-- A name that no create carries stands for nothing. -/
  unbound : ∀ t, (∀ op ∈ ops, op.tempId? ≠ some t) → g'.tempId? t = none

/-- Who has a config id is read off as it is searched for. -/
theorem Reachable.named?_eq_some_iff (h : g.Reachable) {name : String} {e : EntityId} :
    g.named? name = some e ↔ g.attr (.id e) configId = some (.str name) :=
  h.named.findIn_eq_some_iff.trans (attr_id_eq_some_iff h (by decide)).symm

section

variable {ops : List TxOp} {tasks : List Draft.Task} {d d' : Draft}
  (hprepare : Draft.prepareAll 0 g.draft ops = .ok (tasks, d))

include hprepare

theorem entityOf?_eq_some_iff {i : Nat} {e : EntityId} :
    g.entityOf? ops i = some e ↔ ∃ attrs, tasks[i]? = some (.fill e attrs) := by
  unfold entityOf?
  rw [hprepare]
  simp only
  split
  · next id attrs htask => simp [htask]
  · next hnot =>
    constructor
    · intro h
      cases h
    · rintro ⟨attrs, htask⟩
      exact absurd htask (hnot e attrs)

/-- Two creates that are given one entity give one config id. -/
theorem same_name_of_same_entity (hg : g.Reachable) {i j : Nat} {e : EntityId} (hne : i ≠ j)
    (hi : g.entityOf? ops i = some e) (hj : g.entityOf? ops j = some e) :
    ∃ name, TxOp.nameAt? ops i = some name ∧ TxOp.nameAt? ops j = some name := by
  obtain ⟨attrs, hi⟩ := (entityOf?_eq_some_iff hprepare).mp hi
  obtain ⟨attrs', hj⟩ := (entityOf?_eq_some_iff hprepare).mp hj
  -- An entity of the graph is below the next id, and one that an op makes is not.
  have hbelow : ∀ {name : String}, g.draft.named? name = some e → e < g.nextId := fun hname =>
    (hg.dense_draft.has_iff.mp (Draft.has_of_findIn hname)).2
  rcases Draft.entity_of_create hprepare hi with ⟨name, hname, hholder⟩ | ⟨k, hk, hid, hk'⟩
  · rcases Draft.entity_of_create hprepare hj with ⟨name', hname', hholder'⟩ | ⟨k, hk, hid, -⟩
    · have hread := hg.named?_eq_some_iff.mp hholder
      rw [hg.named?_eq_some_iff.mp hholder'] at hread
      obtain rfl : name' = name := AttrValue.str.inj (Option.some.inj hread)
      exact ⟨name', hname, hname'⟩
    · have hlt := hbelow hholder
      rw [hid] at hlt
      exact absurd hlt (Nat.not_lt.mpr (Nat.le_add_right _ _))
  · rcases Draft.entity_of_create hprepare hj with ⟨name', hname', hholder'⟩ | ⟨l, hl, hid', hl'⟩
    · have hlt := hbelow hholder'
      rw [hid] at hlt
      exact absurd hlt (Nat.not_lt.mpr (Nat.le_add_right _ _))
    · obtain rfl : k = l := Nat.count_injective hk hl (Nat.add_left_cancel (hid.symm.trans hid'))
      obtain rfl | ⟨name, hname, hkname⟩ := hk'
      · obtain rfl | ⟨name, hname, hkname⟩ := hl'
        · exact absurd rfl hne
        · exact ⟨name, hkname, hname⟩
      · obtain rfl | ⟨name', hname', hkname'⟩ := hl'
        · exact ⟨name, hname, hkname⟩
        · obtain rfl := Option.some.inj (hkname.symm.trans hkname')
          exact ⟨name, hname, hname'⟩

end

end Graph

/-- **Which entities creates are given.**  Let a batch that is not empty be applied to a reachable
graph.

* A create that gives a config id which an entity of the graph has is given this entity, and no other
  create is given an entity of the graph.
* Two creates are given one entity just when they give one config id.
* The ops that make entities, which are the creates without a config id and the first to give each
  config id that nobody has, are given the ids from the next one on, in the order of the batch; and
  the next id afterwards counts them.
* A name of the transaction stands for the entity of every create that carries it, and no other name
  stands for anything, whatever earlier transactions have bound. -/
theorem creates_are_given_their_entities {g g' : Graph} {batch provenance : Value}
    {ops : List TxOp} (hg : g.Reachable) (hread : Batch.ofValue batch = .ok ops)
    (happly : g.applyOps batch provenance = .ok (some g')) :
    (∀ name e, g.named? name = some e ↔ g.attr (.id e) configId = some (.str name)) ∧
      g.Allocates ops g' := by
  refine ⟨fun name e => hg.named?_eq_some_iff, ?_⟩
  obtain ⟨ops', hread', -, d', hrun, rfl⟩ := Graph.applyOps_eq_some happly
  obtain rfl := Except.ok.inj (hread.symm.trans hread')
  obtain ⟨tasks, d, hprepare, hperform⟩ := Draft.run_eq_ok_iff.mp hrun
  obtain ⟨hfound, hgrows⟩ := Draft.found_of_prepareAll hprepare
  obtain ⟨htempIds, hnextId, hhas⟩ := Draft.names_of_performAll hperform
  have hentity := fun i e => Graph.entityOf?_eq_some_iff hprepare (i := i) (e := e)
  constructor
  case given =>
    intro i tempId attrs hi
    obtain ⟨_, htask, @⟨_, _, id, _, -, hid, -, -⟩⟩ := Draft.found_at hfound hi
    exact ⟨id, (hentity i id).mpr ⟨attrs, htask⟩, (hhas id).trans hid⟩
  case held =>
    intro i name e hname hattr
    obtain ⟨id, attrs, htask, hid⟩ := Draft.fill_of_nameAt? hfound hname
    have hholder := hgrows.named name e (hg.named?_eq_some_iff.mpr hattr)
    obtain rfl := Option.some.inj (hholder.symm.trans hid)
    exact (hentity i e).mpr ⟨attrs, htask⟩
  case fresh =>
    intro i e he hhas
    obtain ⟨attrs, htask⟩ := (hentity i e).mp he
    rcases Draft.entity_of_create hprepare htask with ⟨name, hname, hholder⟩ | ⟨k, -, hid, -⟩
    · exact ⟨name, hname, hg.named?_eq_some_iff.mp hholder⟩
    · have hlt := (hg.dense.has_iff.mp hhas).2
      rw [hid] at hlt
      exact absurd hlt (Nat.not_lt.mpr (Nat.le_add_right _ _))
  case shared =>
    intro i j e hne hi
    refine ⟨Graph.same_name_of_same_entity hprepare hg hne hi, fun ⟨name, hname, hname'⟩ => ?_⟩
    obtain ⟨_, htask⟩ := (hentity i e).mp hi
    obtain ⟨id, _, htask', hid⟩ := Draft.fill_of_nameAt? hfound hname
    obtain ⟨rfl, -⟩ := Draft.Task.fill.inj (Option.some.inj (htask.symm.trans htask'))
    obtain ⟨id', attrs, htask'', hid'⟩ := Draft.fill_of_nameAt? hfound hname'
    obtain rfl := Option.some.inj (hid.symm.trans hid')
    exact (hentity j e).mpr ⟨attrs, htask''⟩
  case order =>
    intro i hi
    obtain ⟨attrs, htask⟩ := Draft.entity_of_makes hprepare hi
    exact (hentity i _).mpr ⟨attrs, htask⟩
  case nextId => exact hnextId.trans (Draft.nextId_of_prepareAll hprepare)
  case bound =>
    intro i t attrs hi
    obtain ⟨_, htask, @⟨_, _, id, _, -, -, -, hbound⟩⟩ := Draft.found_at hfound hi
    rw [(hentity i id).mpr ⟨attrs, htask⟩, ← hbound t rfl, ← htempIds]
    rfl
  case unbound =>
    intro t ht
    have hlookup := Draft.tempIds_of_prepareAll hprepare ht
    rw [← htempIds] at hlookup
    exact hlookup

/-- Creates of every kind: one that gives the config id of an entity, two that give a new one, two
without; and the entity of the second loses its config id, which changes none of this. -/
def mixedOps : List TxOp := [
  .create none [("port", .str "80")],
  .create (some "new") [(configId, .str "app/c")],
  .retract (.tempId "new") configId,
  .create (some "held") [(configId, .str "app/b")],
  .create none [],
  .create (some "new") [("port", .str "81"), (configId, .str "app/c")]]

/-- What `mixedOps` makes of two entities with a config id each. -/
def mixedGraph : Graph where
  basisTx := 2
  nextId := 6
  entities := [
    (1, [(configId, .str "app/a")]), (2, [(configId, .str "app/b")]), (3, [("port", .str "80")]),
    (4, [("port", .str "81")]), (5, [])]
  tempIds := [("new", 4), ("held", 2)]
  transactions := [⟨1, 2, .null⟩, ⟨2, 6, .null⟩]

theorem creates_of_mixedOps_are_given_their_entities :
    Session.namedGraph.Reachable ∧
      Session.namedGraph.entityOf? mixedOps 3 = some 2 ∧
      Session.namedGraph.entityOf? mixedOps 4 = some 5 ∧
      Session.namedGraph.entityOf? mixedOps 5 = some 4 ∧
      mixedGraph.tempId? "new" = some 4 ∧ mixedGraph.tempId? "old" = none ∧
      mixedGraph.nextId = Session.namedGraph.nextId + 2 + 1 := by
  have hread : Batch.ofValue (.list (mixedOps.map TxOp.toValue)) = .ok mixedOps := rfl
  have happly : Session.namedGraph.applyOps (.list (mixedOps.map TxOp.toValue)) .null
      = .ok (some mixedGraph) := rfl
  obtain ⟨-, given, held, fresh, shared, order, nextId, bound, unbound⟩ :=
    creates_are_given_their_entities namedGraph_reachable hread happly
  have hsecond : Session.namedGraph.entityOf? mixedOps 1 = some 4 := order 1 (by decide)
  refine ⟨namedGraph_reachable, held 3 "app/b" 2 rfl rfl, order 4 (by decide), ?_, ?_, ?_, nextId⟩
  · exact (shared 1 5 4 (by decide) hsecond).mpr ⟨"app/c", rfl, rfl⟩
  · rw [bound 1 "new" _ rfl]
    exact hsecond
  · exact unbound "old" (by decide)

end ConfGraph
