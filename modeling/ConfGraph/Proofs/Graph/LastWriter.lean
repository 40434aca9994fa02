import ConfGraph.Proofs.Graph.Allocation

/-!
# The last writer wins, and nothing else changes

One entity can be named in four ways, a lookup finds what the ops before it have left, and the config
id of a create is written in another pass than the rest.  But each op writes to one entity, and what
it resolves it resolves in the draft that it finds.  So it is enough to say once what one op does to
one attribute: it writes it, and then the value is what the op gives, or it leaves it alone.

* `Draft.Writes`: what an op writes, and the draft in force just before.
* `Draft.leaves_of_writes`, `Draft.read_of_not_writes`: the two cases of one op.
* `Draft.read_of_untouched`: ops that all leave an attribute alone.
* `Draft.leaves_of_last`: the last op that writes it.
* `Draft.read_of_prepareAll`: what the first pass does to attributes.
* `Graph.Writes`: the same of the op at a position of a batch.
* `last_writer_wins`: every attribute of every entity after a batch.
-/

namespace ConfGraph

namespace Draft

variable {d d' : Draft}

/-! ## 1. Reading after one write -/

theorem read_setAttrs (d : Draft) (id : EntityId) (attrs : Attrs) (e : EntityId) (attr : String) :
    (d.setAttrs id attrs).read e attr
      = if e = id ∧ d.has id = true then Fields.get? attrs attr else d.read e attr := by
  unfold read
  rw [attrsOf_setAttrs]
  split
  · rfl
  · rfl

theorem read_write_self {id : EntityId} {name : String} {value : AttrValue} (hid : d.has id = true)
    (h : d.write id name value = .ok d') : d'.read id name = some value := by
  obtain ⟨-, -, rfl⟩ := write_eq_ok h
  rw [read_setAttrs, if_pos ⟨rfl, hid⟩, Fields.get?_put_self]

theorem read_write_of_ne {id : EntityId} {name : String} {value : AttrValue}
    (h : d.write id name value = .ok d') {e : EntityId} {attr : String}
    (hne : e ≠ id ∨ attr ≠ name) : d'.read e attr = d.read e attr := by
  obtain ⟨-, -, rfl⟩ := write_eq_ok h
  rw [read_setAttrs]
  split
  · next he =>
    obtain ⟨rfl, -⟩ := he
    rw [Fields.get?_put_of_ne _ _ (hne.resolve_left fun h => h rfl)]
    rfl
  · rfl

theorem read_remove_self {id : EntityId} {name : String} (hid : d.has id = true)
    (h : d.remove id name = .ok d') : d'.read id name = none := by
  obtain ⟨-, rfl⟩ := remove_eq_ok h
  rw [read_setAttrs, if_pos ⟨rfl, hid⟩, Fields.get?_erase_self]

theorem read_remove_of_ne {id : EntityId} {name : String} (h : d.remove id name = .ok d')
    {e : EntityId} {attr : String} (hne : e ≠ id ∨ attr ≠ name) :
    d'.read e attr = d.read e attr := by
  obtain ⟨-, rfl⟩ := remove_eq_ok h
  rw [read_setAttrs]
  split
  · next he =>
    obtain ⟨rfl, -⟩ := he
    rw [Fields.get?_erase_of_ne _ (hne.resolve_left fun h => h rfl)]
    rfl
  · rfl

/-! ## 2. Reading after the attributes of a create -/

theorem fill_cons_eq_ok_iff {id : EntityId} {name : String} {value : OpValue}
    {rest : Fields OpValue} (hname : name ≠ configId) :
    d.fill id ((name, value) :: rest) = .ok d' ↔ ∃ x d₁, d.resolveValue value = .ok x ∧
      d.write id name x = .ok d₁ ∧ d₁.fill id rest = .ok d' := by
  rw [fill, if_neg hname]
  constructor
  · intro h
    obtain ⟨x, hx, h⟩ := bind_eq_ok h
    obtain ⟨d₁, hwrite, h⟩ := bind_eq_ok h
    exact ⟨x, d₁, hx, hwrite, h⟩
  · rintro ⟨x, d₁, hx, hwrite, h⟩
    rw [hx, ok_bind, hwrite, ok_bind, h]

theorem fill_append_eq_ok_iff {id : EntityId} {xs ys : Fields OpValue} {d : Draft} :
    d.fill id (xs ++ ys) = .ok d' ↔ ∃ d₁, d.fill id xs = .ok d₁ ∧ d₁.fill id ys = .ok d' := by
  induction xs generalizing d with
  | nil => simp [fill]
  | cons f rest ih =>
    obtain ⟨name, value⟩ := f
    by_cases hname : name = configId
    · simp only [List.cons_append, fill, if_pos hname]
      exact ih
    · simp only [List.cons_append, fill_cons_eq_ok_iff hname, ih]
      constructor
      · rintro ⟨x, d₁, hx, hwrite, d₂, hrest, hys⟩
        exact ⟨d₂, ⟨x, d₁, hx, hwrite, hrest⟩, hys⟩
      · rintro ⟨d₂, ⟨x, d₁, hx, hwrite, hrest⟩, hys⟩
        exact ⟨x, d₁, hx, hwrite, d₂, hrest, hys⟩

/-- A create leaves other entities alone, what it does not name, and its config id, which it was made
with. -/
theorem read_fill_of_not_mem {id : EntityId} {attrs : Fields OpValue} {d : Draft}
    (h : d.fill id attrs = .ok d') {e : EntityId} {attr : String}
    (hnot : e ≠ id ∨ attr = configId ∨ attr ∉ Fields.names attrs) :
    d'.read e attr = d.read e attr := by
  induction attrs generalizing d with
  | nil =>
    obtain rfl := Except.ok.inj h
    rfl
  | cons f rest ih =>
    obtain ⟨name, value⟩ := f
    have hrest : e ≠ id ∨ attr = configId ∨ attr ∉ Fields.names rest :=
      hnot.imp_right fun h => h.imp_right fun hmem hin => hmem (List.mem_cons_of_mem _ hin)
    by_cases hname : name = configId
    · rw [fill, if_pos hname] at h
      exact ih h hrest
    · obtain ⟨x, d₁, -, hwrite, h⟩ := (fill_cons_eq_ok_iff hname).mp h
      rw [ih h hrest]
      refine read_write_of_ne hwrite (hnot.imp_right ?_)
      rintro (rfl | hmem)
      · exact Ne.symm hname
      · rintro rfl
        exact hmem List.mem_cons_self

theorem exists_last_of_mem_names {α : Type} {fs : Fields α} {name : String}
    (h : name ∈ Fields.names fs) :
    ∃ earlier a later, fs = earlier ++ (name, a) :: later ∧ name ∉ Fields.names later := by
  induction fs with
  | nil => cases h
  | cons f rest ih =>
    by_cases hrest : name ∈ Fields.names rest
    · obtain ⟨earlier, a, later, rfl, hlater⟩ := ih hrest
      exact ⟨f :: earlier, a, later, rfl, hlater⟩
    · obtain rfl : name = f.1 := (List.mem_cons.mp h).resolve_right hrest
      exact ⟨[], f.2, rest, rfl, hrest⟩

/-! ## 3. One op -/

/-- What an op writes to which attribute of which entity, nothing if it removes it, and the draft in
force just before: the attributes of a create are written one after the other. -/
inductive Writes (d : Draft) : Task → EntityId → String → Option OpValue → Draft → Prop
  | create {id : EntityId} {earlier later : Fields OpValue} {attr : String} {value : OpValue}
    {before : Draft} (is_last : attr ∉ Fields.names later) (ne_configId : attr ≠ configId)
    (so_far : d.fill id earlier = .ok before) :
    Writes d (.fill id (earlier ++ (attr, value) :: later)) id attr (some value) before
  | assert {entity : EntityRef} {attr : String} {value : OpValue} {id : EntityId}
    (address : d.resolve entity = .ok id) :
    Writes d (.assert entity attr value) id attr (some value) d
  | retract {entity : EntityRef} {attr : String} {id : EntityId}
    (address : d.resolve entity = .ok id) : Writes d (.retract entity attr) id attr none d

/-- What a write leaves: the value with its references resolved in the draft before, or nothing. -/
inductive Leaves (before : Draft) : Option OpValue → Option AttrValue → Prop
  | value {v : OpValue} {a : AttrValue} (resolved : before.resolveValue v = .ok a) :
    Leaves before (some v) (some a)
  | nothing : Leaves before none none

/-- Every op that goes through writes what it names. -/
theorem writes_of_fill {id : EntityId} {attrs : Fields OpValue} (h : d.fill id attrs = .ok d')
    {attr : String} (hattr : attr ∈ Fields.names attrs) (hname : attr ≠ configId) :
    ∃ value before, d.Writes (.fill id attrs) id attr (some value) before := by
  obtain ⟨earlier, value, later, rfl, hlast⟩ := exists_last_of_mem_names hattr
  obtain ⟨before, hsofar, -⟩ := fill_append_eq_ok_iff.mp h
  exact ⟨value, before, .create hlast hname hsofar⟩

/-- **What an op writes is what it leaves.** -/
theorem leaves_of_writes {task : Task} {e : EntityId} {attr : String} {given : Option OpValue}
    {before : Draft} (hwrites : d.Writes task e attr given before) (he : d.has e = true)
    (h : d.perform task = .ok d') : before.Leaves given (d'.read e attr) := by
  cases hwrites with
  | create is_last ne_configId so_far =>
    obtain ⟨before', hsofar', h⟩ := fill_append_eq_ok_iff.mp h
    obtain rfl := Except.ok.inj (so_far.symm.trans hsofar')
    obtain ⟨x, d₁, hx, hwrite, hlater⟩ := (fill_cons_eq_ok_iff ne_configId).mp h
    have hbefore : before.has e = true :=
      fill_keeps (P := fun x => x.has e = true)
        (fun x id attrs hx => (has_setAttrs x id attrs e).trans hx) so_far he
    rw [read_fill_of_not_mem hlater (.inr (.inr is_last)), read_write_self hbefore hwrite]
    exact .value hx
  | assert address =>
    obtain ⟨id, hid, h⟩ := bind_eq_ok h
    obtain rfl := Except.ok.inj (address.symm.trans hid)
    obtain ⟨x, hx, hwrite⟩ := bind_eq_ok h
    rw [read_write_self he hwrite]
    exact .value hx
  | retract address =>
    obtain ⟨id, hid, hremove⟩ := bind_eq_ok h
    obtain rfl := Except.ok.inj (address.symm.trans hid)
    rw [read_remove_self he hremove]
    exact .nothing

/-- Ops write to entities. -/
theorem has_of_writes {task : Task} (hd : d.Grounded)
    (hfill : ∀ id attrs, task = .fill id attrs → d.has id = true) {e : EntityId} {attr : String}
    {given : Option OpValue} {before : Draft} (h : d.Writes task e attr given before) :
    d.has e = true := by
  cases h with
  | create => exact hfill _ _ rfl
  | assert address => exact hd.resolve address
  | retract address => exact hd.resolve address

/-- **What an op does not write it leaves alone.** -/
theorem read_of_not_writes {task : Task} {e : EntityId} {attr : String}
    (hnot : ∀ given before, ¬ d.Writes task e attr given before)
    (h : d.perform task = .ok d') : d'.read e attr = d.read e attr := by
  cases task with
  | fill id attrs =>
    refine read_fill_of_not_mem h ?_
    by_contra hall
    push Not at hall
    obtain ⟨rfl, hname, hattr⟩ := hall
    obtain ⟨value, before, hwrites⟩ := writes_of_fill h hattr hname
    exact hnot _ _ hwrites
  | assert entity name value =>
    obtain ⟨id, hid, h⟩ := bind_eq_ok h
    obtain ⟨x, -, hwrite⟩ := bind_eq_ok h
    refine read_write_of_ne hwrite ?_
    by_contra hall
    push Not at hall
    obtain ⟨rfl, rfl⟩ := hall
    exact hnot _ _ (.assert hid)
  | retract entity name =>
    obtain ⟨id, hid, hremove⟩ := bind_eq_ok h
    refine read_remove_of_ne hremove ?_
    by_contra hall
    push Not at hall
    obtain ⟨rfl, rfl⟩ := hall
    exact hnot _ _ (.retract hid)

/-- **What no op writes all of them leave alone.** -/
theorem read_of_untouched {tasks : List Task} {index : Nat} {d : Draft} {e : EntityId}
    {attr : String} (h : performAll index d tasks = .ok d')
    (hnot : ∀ i task dᵢ, tasks[i]? = some task → performAll index d (tasks.take i) = .ok dᵢ →
      ∀ given before, ¬ dᵢ.Writes task e attr given before) : d'.read e attr = d.read e attr := by
  induction tasks generalizing index d with
  | nil =>
    obtain rfl := Except.ok.inj h
    rfl
  | cons task rest ih =>
    obtain ⟨d₁, hfirst, hrest⟩ := performAll_cons_eq_ok_iff.mp h
    have hothers := ih hrest fun i task' dᵢ htask hbefore =>
      hnot (i + 1) task' dᵢ htask (performAll_cons_eq_ok_iff.mpr ⟨d₁, hfirst, hbefore⟩)
    rw [hothers]
    exact read_of_not_writes (hnot 0 task d rfl rfl) hfirst

/-- Every op of the second pass finds a draft in force, and the ops behind it go on from what it
leaves. -/
theorem performAll_at {tasks : List Task} (h : performAll 0 d tasks = .ok d') {i : Nat} {task : Task}
    (hi : tasks[i]? = some task) : ∃ dᵢ d₁, performAll 0 d (tasks.take i) = .ok dᵢ ∧
      dᵢ.perform task = .ok d₁ ∧ performAll 0 d (tasks.take (i + 1)) = .ok d₁ ∧
      performAll (i + 1) d₁ (tasks.drop (i + 1)) = .ok d' := by
  obtain ⟨hlt, rfl⟩ := List.getElem?_eq_some_iff.mp hi
  have hsplit : tasks = tasks.take i ++ tasks[i] :: tasks.drop (i + 1) := by simp
  have hlength : 0 + (tasks.take i).length = i := by
    rw [List.length_take]
    omega
  have h₀ := h
  rw [hsplit] at h₀
  obtain ⟨dᵢ, hbefore, h₁⟩ := performAll_append_eq_ok_iff.mp h₀
  rw [hlength] at h₁
  obtain ⟨d₁, hperform, hafter⟩ := performAll_cons_eq_ok_iff.mp h₁
  refine ⟨dᵢ, d₁, hbefore, hperform, ?_, hafter⟩
  rw [← List.take_append_getElem hlt]
  exact performAll_append_eq_ok_iff.mpr
    ⟨dᵢ, hbefore, performAll_cons_eq_ok_iff.mpr ⟨d₁, hperform, rfl⟩⟩

theorem performAll_take_add {tasks : List Task} {n j : Nat} {d₁ dⱼ : Draft}
    (hn : n ≤ tasks.length) (h : performAll 0 d (tasks.take n) = .ok d₁)
    (h' : performAll n d₁ ((tasks.drop n).take j) = .ok dⱼ) :
    performAll 0 d (tasks.take (n + j)) = .ok dⱼ := by
  have hlength : 0 + (tasks.take n).length = n := by
    rw [List.length_take]
    omega
  rw [List.take_add, performAll_append_eq_ok_iff, hlength]
  exact ⟨d₁, h, h'⟩

/-- **The last op of the second pass that writes an attribute** leaves what it is given. -/
theorem leaves_of_last {tasks : List Task} (hd : d.Grounded) (htasks : ∀ task ∈ tasks, task.Valid)
    (hfills : ∀ id attrs, .fill id attrs ∈ tasks → d.has id = true)
    (h : performAll 0 d tasks = .ok d') {i : Nat} {task : Task} {dᵢ before : Draft} {e : EntityId}
    {attr : String} {given : Option OpValue} (hi : tasks[i]? = some task)
    (hbefore : performAll 0 d (tasks.take i) = .ok dᵢ)
    (hwrites : dᵢ.Writes task e attr given before)
    (hlast : ∀ j task' dⱼ given' before', i < j → tasks[j]? = some task' →
      performAll 0 d (tasks.take j) = .ok dⱼ → ¬ dⱼ.Writes task' e attr given' before') :
    before.Leaves given (d'.read e attr) := by
  obtain ⟨_, d₁, hbefore', hperform, hupto, hafter⟩ := performAll_at h hi
  obtain rfl := Except.ok.inj (hbefore.symm.trans hbefore')
  have hgrounded : dᵢ.Grounded :=
    (steps_of_performAll (fun t ht => htasks t (List.mem_of_mem_take ht)) hbefore).grounded hd
  have hentity : dᵢ.has e = true := by
    refine has_of_writes hgrounded (fun id attrs hfill => ?_) hwrites
    rw [(names_of_performAll hbefore).2.2 id]
    exact hfills id attrs (hfill ▸ List.mem_of_getElem? hi)
  have hkept : d'.read e attr = d₁.read e attr := by
    refine read_of_untouched hafter fun j task' dⱼ hj hbeforeⱼ given' before' => ?_
    have hlt := (List.getElem?_eq_some_iff.mp hi).1
    rw [List.getElem?_drop] at hj
    exact hlast (i + 1 + j) task' dⱼ given' before' (by omega) hj
      (performAll_take_add hlt hupto hbeforeⱼ)
  rw [hkept]
  exact leaves_of_writes hwrites hentity hperform

/-! ## 4. The first pass -/

/-- Who is found by a config id has it. -/
theorem read_of_named? (hdense : d.Dense) (hnamed : d.Named) {name : String} {e : EntityId}
    (h : d.named? name = some e) : d.read e configId = some (.str name) := by
  obtain ⟨attrs, hmem, hget⟩ := hnamed.findIn_eq_some_iff.mp h
  rw [read, hdense.attrsOf_of_mem hmem]
  exact hget

/-- **What the first pass adds is config ids**, each to an entity that a create makes with it. -/
theorem read_of_prepareAll {ops : List TxOp} {index : Nat} {d : Draft} {tasks : List Task}
    {e : EntityId} {attr : String} {a : AttrValue}
    (h : prepareAll index d ops = .ok (tasks, d')) (hread : d'.read e attr = some a) :
    d.read e attr = some a ∨ (attr = configId ∧ ∃ i name attrs,
      TxOp.makes d.named? ops i = true ∧ tasks[i]? = some (.fill e attrs) ∧
      TxOp.nameAt? ops i = some name) := by
  induction ops generalizing index d tasks with
  | nil =>
    obtain ⟨-, rfl⟩ := prepareAll_nil_eq_ok_iff.mp h
    exact .inl hread
  | cons op rest ih =>
    obtain ⟨task, d₁, tasks', hfirst, hrest, rfl⟩ := prepareAll_cons_eq_ok_iff.mp h
    obtain hread | ⟨hattr, i, name, attrs, hmakes, htask, hname⟩ := ih hrest
    · clear ih
      cases op with
      | create tempId attrs =>
        obtain ⟨id, name, rfl, hgiven, hplaced, -⟩ := prepare_create hfirst
        obtain hsame | ⟨-, rfl, is_new, hsame⟩ := hplaced.read e attr
        · rw [← hsame]
          exact .inl hread
        · right
          rw [hsame] at hread
          cases name with
          | none => cases hread
          | some name =>
            have hattr : attr = configId := by
              by_contra hne
              simp [initial, Fields.get?_cons, hne] at hread
            obtain ⟨hname, -⟩ := givenName_eq_ok tempId hgiven
            refine ⟨hattr, 0, name, attrs, ?_, rfl, hname⟩
            rw [TxOp.makes_zero, hname, Option.any_some, is_new name rfl]
            simp
      | assert entity attr value =>
        obtain ⟨-, rfl⟩ := prepare_assert hfirst
        exact .inl hread
      | retract entity attr =>
        obtain ⟨-, rfl⟩ := prepare_retract hfirst
        exact .inl hread
    · rw [← TxOp.makes_succ (named?_of_prepare hfirst)] at hmakes
      exact .inr ⟨hattr, i + 1, name, attrs, hmakes, htask, hname⟩

end Draft

/-! ## 5. A whole batch -/

/-- The attributes that an op names. -/
def TxOp.attrNames : TxOp → List String
  | .create _ attrs => Fields.names attrs
  | .assert _ attr _ => [attr]
  | .retract _ attr => [attr]

namespace Graph

variable {g g' : Graph}

/-- The draft in force when the second pass comes to the op at a position. -/
def before? (g : Graph) (ops : List TxOp) (i : Nat) : Option Draft :=
  match Draft.prepareAll 0 g.draft ops with
  | .ok (tasks, d) => (Draft.performAll 0 d (tasks.take i)).toOption
  | .error _ => none

/-- What the op at a position of a batch writes to an attribute of an entity, nothing if it removes
it, and the draft in force just before.  The attributes of a create are written one after the other,
all but its config id. -/
inductive Writes (g : Graph) (ops : List TxOp) (i : Nat) (e : EntityId) (attr : String) :
    Option OpValue → Draft → Prop
  | create {tempId : Option String} {earlier later : Fields OpValue} {value : OpValue}
    {d before : Draft} (op : ops[i]? = some (.create tempId (earlier ++ (attr, value) :: later)))
    (is_last : attr ∉ Fields.names later) (ne_configId : attr ≠ configId)
    (address : g.entityOf? ops i = some e) (in_force : g.before? ops i = some d)
    (so_far : d.fill e earlier = .ok before) : Writes g ops i e attr (some value) before
  | assert {entity : EntityRef} {value : OpValue} {d : Draft}
    (op : ops[i]? = some (.assert entity attr value)) (in_force : g.before? ops i = some d)
    (address : d.resolve entity = .ok e) : Writes g ops i e attr (some value) d
  | retract {entity : EntityRef} {d : Draft} (op : ops[i]? = some (.retract entity attr))
    (in_force : g.before? ops i = some d) (address : d.resolve entity = .ok e) :
    Writes g ops i e attr none d

/-- Ops write only what they name. -/
theorem not_writes_of_not_named {ops : List TxOp} {i j : Nat} {attr : String}
    (h : ∀ op ∈ ops.drop i, attr ∉ op.attrNames) (hj : i ≤ j) (e : EntityId)
    (given : Option OpValue) (before : Draft) : ¬ g.Writes ops j e attr given before := by
  intro hwrites
  have hdrop : ∀ {op}, ops[j]? = some op → op ∈ ops.drop i := fun hop =>
    List.mem_of_getElem? (i := j - i) (by rwa [List.getElem?_drop, Nat.add_sub_cancel' hj])
  cases hwrites with
  | create op => exact h _ (hdrop op) (by simp [TxOp.attrNames, Fields.names])
  | assert op => exact h _ (hdrop op) List.mem_cons_self
  | retract op => exact h _ (hdrop op) List.mem_cons_self

/-- The entity is made by a create that gives it a config id, which it then has before all ops. -/
def MadeAs (g : Graph) (ops : List TxOp) (e : EntityId) (name : String) : Prop :=
  ∃ i, TxOp.makes g.named? ops i = true ∧ g.entityOf? ops i = some e ∧
    TxOp.nameAt? ops i = some name

/-- In `g'` an attribute of an entity is what the last op of a batch that writes it makes of it, and
what it is in `g` if none does. -/
structure LastWriteStands (g : Graph) (ops : List TxOp) (g' : Graph) (e : EntityId)
    (attr : String) : Prop where
  /-- Every op finds a draft in force. -/
  in_force : ∀ i < ops.length, ∃ d, g.before? ops i = some d
  /-- A create writes every attribute that it names, but its config id. -/
  created : ∀ i tempId attrs, ops[i]? = some (.create tempId attrs) →
    g.entityOf? ops i = some e → attr ∈ Fields.names attrs → attr ≠ configId →
    ∃ value before, g.Writes ops i e attr (some value) before
  /-- The last op that writes the attribute leaves what it is given. -/
  last : ∀ i given before, g.Writes ops i e attr given before →
    (∀ j given' before', i < j → ¬ g.Writes ops j e attr given' before') →
    before.Leaves given (g'.attr (.id e) attr)
  /-- A config id that no op writes is the one with which a create makes the entity. -/
  named : attr = configId → (∀ i given before, ¬ g.Writes ops i e attr given before) →
    ∀ name, g.MadeAs ops e name → g'.attr (.id e) attr = some (.str name)
  /-- Any other attribute that no op writes is what it was, undefined for a new entity. -/
  untouched : (∀ i given before, ¬ g.Writes ops i e attr given before) →
    (∀ name, attr = configId → ¬ g.MadeAs ops e name) →
    g'.attr (.id e) attr = g.attr (.id e) attr ∧ (g.has e = false → g'.attr (.id e) attr = none)

theorem attr_eq_read (g : Graph) (e : EntityId) {attr : String} (hattr : attr ≠ dbId) :
    g.attr (.id e) attr = g.draft.read e attr := by
  unfold Graph.attr entity? has Draft.read Draft.attrsOf draft
  cases hlookup : g.entities.lookup e with
  | none => simp [hlookup]
  | some attrs => simp [hattr, hlookup]

section

variable {ops : List TxOp} {tasks : List Draft.Task} {d d' : Draft}
  (hprepare : Draft.prepareAll 0 g.draft ops = .ok (tasks, d))

include hprepare

theorem before?_eq_some_iff {i : Nat} {dᵢ : Draft} :
    g.before? ops i = some dᵢ ↔ Draft.performAll 0 d (tasks.take i) = .ok dᵢ := by
  unfold before?
  rw [hprepare]
  simp only
  cases Draft.performAll 0 d (tasks.take i) with
  | error r => simp [Except.toOption]
  | ok x => simp [Except.toOption]

/-- What the op at a position writes, its task writes. -/
theorem writes_iff (i : Nat) (e : EntityId) (attr : String) (given : Option OpValue)
    (before : Draft) : g.Writes ops i e attr given before ↔ ∃ task dᵢ, tasks[i]? = some task ∧
      Draft.performAll 0 d (tasks.take i) = .ok dᵢ ∧ dᵢ.Writes task e attr given before := by
  have hfound := (Draft.found_of_prepareAll hprepare).1
  constructor
  · intro h
    cases h with
    | create op is_last ne_configId address in_force so_far =>
      obtain ⟨attrs, htask⟩ := (entityOf?_eq_some_iff hprepare).mp address
      obtain ⟨_, hop, @⟨tempId, _, _, _, -, -, -, -⟩⟩ := Draft.found_for hfound htask
      obtain ⟨-, rfl⟩ := TxOp.create.inj (Option.some.inj (hop.symm.trans op))
      exact ⟨_, _, htask, (before?_eq_some_iff hprepare).mp in_force,
        .create is_last ne_configId so_far⟩
    | assert op in_force address =>
      obtain ⟨_, htask, ⟨_, _, _⟩⟩ := Draft.found_at hfound op
      exact ⟨_, _, htask, (before?_eq_some_iff hprepare).mp in_force, .assert address⟩
    | retract op in_force address =>
      obtain ⟨_, htask, ⟨_, _⟩⟩ := Draft.found_at hfound op
      exact ⟨_, _, htask, (before?_eq_some_iff hprepare).mp in_force, .retract address⟩
  · rintro ⟨task, dᵢ, htask, hbefore, hwrites⟩
    have in_force := (before?_eq_some_iff hprepare).mpr hbefore
    obtain ⟨_, hop, hfound⟩ := Draft.found_for hfound htask
    cases hwrites with
    | create is_last ne_configId so_far =>
      cases hfound
      have address := (entityOf?_eq_some_iff hprepare).mpr ⟨_, htask⟩
      exact .create hop is_last ne_configId address in_force so_far
    | assert address =>
      cases hfound
      exact .assert hop in_force address
    | retract address =>
      cases hfound
      exact .retract hop in_force address

end

end Graph

/-- **The last writer wins, and nothing else changes.**  Let a batch be applied to a reachable graph,
and take any entity and any attribute but `db/id`.

* If ops of the batch write the attribute, then afterwards it is what the last of them gives, with
  its references resolved in the draft in force just before, or nothing if the last one removes it.
* If none does, it is what it was, and undefined if the entity is new; but an entity that a create
  makes with a config id has this config id.

An op writes an attribute if it addresses the entity when its turn comes and names the attribute; a
create writes all that it names but its config id. -/
theorem last_writer_wins {g : Graph} {batch provenance : Value} {ops : List TxOp}
    {next : Option Graph} (hg : g.Reachable) (hread : Batch.ofValue batch = .ok ops)
    (happly : g.applyOps batch provenance = .ok next) (e : EntityId) (attr : String)
    (hattr : attr ≠ dbId) : g.LastWriteStands ops (next.getD g) e attr := by
  obtain ⟨d', hrun, hentities⟩ := Graph.run_of_applyOps hread happly
  obtain ⟨tasks, d, hprepare, hperform⟩ := Draft.run_eq_ok_iff.mp hrun
  obtain ⟨hfound, hgrows⟩ := Draft.found_of_prepareAll hprepare
  have hops := valid_of_ofValue hread
  obtain ⟨hsteps, htasks⟩ := Draft.steps_of_prepareAll hops hprepare
  have hgrounded : d.Grounded := hsteps.grounded hg.grounded_draft
  have hwrites := fun i given before =>
    Graph.writes_iff hprepare i e attr given before
  have hafter : (next.getD g).attr (.id e) attr = d'.read e attr := by
    rw [Graph.attr_eq_read _ e hattr, Draft.read, Draft.attrsOf, Graph.draft, hentities]
    rfl
  -- What no op writes is what the first pass has left.
  have hfirst : (∀ i given before, ¬ g.Writes ops i e attr given before) →
      (next.getD g).attr (.id e) attr = d.read e attr := by
    intro hnot
    rw [hafter]
    refine Draft.read_of_untouched hperform fun i task dᵢ htask hbefore given before hw => ?_
    exact hnot i given before ((hwrites i given before).mpr ⟨task, dᵢ, htask, hbefore, hw⟩)
  constructor
  case in_force =>
    intro i hi
    have hlt : i < tasks.length := hfound.length_eq ▸ hi
    obtain ⟨dᵢ, -, hbefore, -⟩ := Draft.performAll_at hperform (List.getElem?_eq_getElem hlt)
    exact ⟨dᵢ, (Graph.before?_eq_some_iff hprepare).mpr hbefore⟩
  case created =>
    intro i tempId attrs hop he hmem hname
    obtain ⟨attrs', htask⟩ := (Graph.entityOf?_eq_some_iff hprepare).mp he
    obtain ⟨_, hop', hf⟩ := Draft.found_for hfound htask
    obtain rfl := Option.some.inj (hop.symm.trans hop')
    cases hf
    obtain ⟨dᵢ, d₁, hbefore, hfill, -⟩ := Draft.performAll_at hperform htask
    obtain ⟨value, before, hw⟩ := Draft.writes_of_fill hfill hmem hname
    exact ⟨value, before, (hwrites i _ _).mpr ⟨_, dᵢ, htask, hbefore, hw⟩⟩
  case last =>
    intro i given before hw hlast
    obtain ⟨task, dᵢ, htask, hbefore, hw⟩ := (hwrites i given before).mp hw
    rw [hafter]
    refine Draft.leaves_of_last hgrounded htasks (fun id attrs hmem => ?_) hperform htask hbefore hw ?_
    · obtain ⟨j, hj⟩ := List.mem_iff_getElem?.mp hmem
      obtain ⟨_, -, @⟨_, _, _, _, -, is_entity, -, -⟩⟩ := Draft.found_for hfound hj
      exact is_entity
    · intro j task' dⱼ given' before' hj htask' hbefore' hw'
      exact hlast j given' before' hj ((hwrites j _ _).mpr ⟨task', dⱼ, htask', hbefore', hw'⟩)
  case named =>
    rintro rfl hnot name ⟨i, hmakes, he, hname⟩
    rw [hfirst hnot]
    obtain ⟨_, htask⟩ := (Graph.entityOf?_eq_some_iff hprepare).mp he
    obtain ⟨_, _, htask', hnamed⟩ := Draft.fill_of_nameAt? hfound hname
    obtain ⟨rfl, -⟩ := Draft.Task.fill.inj (Option.some.inj (htask.symm.trans htask'))
    exact Draft.read_of_named? (hsteps.dense hg.dense_draft) (hsteps.named hg.named_draft) hnamed
  case untouched =>
    intro hnot hmade
    have hsame : (next.getD g).attr (.id e) attr = g.attr (.id e) attr := by
      rw [hfirst hnot, Graph.attr_eq_read g e hattr]
      ext a
      constructor
      · intro ha
        refine (Draft.read_of_prepareAll hprepare ha).resolve_right ?_
        rintro ⟨hname, i, name, attrs, hmakes, htask, hat⟩
        have he := (Graph.entityOf?_eq_some_iff hprepare).mpr ⟨attrs, htask⟩
        exact hmade name hname ⟨i, hmakes, he, hat⟩
      · exact hgrows.read e attr a
    refine ⟨hsame, fun hnone => ?_⟩
    rw [hsame, Graph.attr_eq_read g e hattr]
    exact Draft.read_of_not_has (d := g.draft) hnone attr

/-- The first entity is given its own reference, found by a config id that it then loses; and a later
create makes an entity with another one. -/
def handoverOps : List TxOp := [
  .create none [(configId, .str "app/a"), ("self", .str "none"), ("next", .ref (.tempId "next"))],
  .assert (.lookup configId (.str "app/a")) "self" (.ref (.lookup configId (.str "app/a"))),
  .assert (.id 1) configId (.str "app/c"),
  .create (some "next") [(configId, .str "app/d")]]

/-- What `handoverOps` makes of two entities with a config id each. -/
def handedOverGraph : Graph where
  basisTx := 2
  nextId := 4
  entities := [
    (1, [(configId, .str "app/c"), ("self", .ref 1), ("next", .ref 3)]),
    (2, [(configId, .str "app/b")]), (3, [(configId, .str "app/d")])]
  tempIds := [("next", 3)]
  transactions := [⟨1, 2, .null⟩, ⟨2, 4, .null⟩]

theorem last_writer_wins_in_handoverOps :
    Session.namedGraph.Reachable ∧ handedOverGraph.attr (.id 1) "self" = some (.ref 1) ∧
      handedOverGraph.attr (.id 3) configId = some (.str "app/d") := by
  have hread : Batch.ofValue (.list (handoverOps.map TxOp.toValue)) = .ok handoverOps := rfl
  have happly : Session.namedGraph.applyOps (.list (handoverOps.map TxOp.toValue)) .null
      = .ok (some handedOverGraph) := rfl
  refine ⟨namedGraph_reachable, ?_, ?_⟩
  · have hself := last_writer_wins namedGraph_reachable hread happly 1 "self" (by decide)
    have hlast := hself.last 1 _ _ (.assert rfl rfl rfl) ?_
    · generalize hleft : Graph.attr _ _ _ = left at hlast
      cases hlast with
      | value resolved =>
        obtain rfl := Except.ok.inj resolved
        exact hleft
    · intro j given before hj
      exact Graph.not_writes_of_not_named (i := 2) (by decide) hj 1 given before
  · have hname := last_writer_wins namedGraph_reachable hread happly 3 configId (by decide)
    refine hname.named rfl ?_ "app/d" ⟨3, by decide, rfl, rfl⟩
    intro i given before hwrites
    cases hwrites with
    | create _ _ hne => exact hne rfl
    | assert op in_force address =>
      have hmem := List.mem_of_getElem? op
      simp only [handoverOps, List.mem_cons, reduceCtorEq, TxOp.assert.injEq, List.not_mem_nil,
        or_false, false_or] at hmem
      obtain ⟨-, hname, -⟩ | ⟨rfl, -, -⟩ := hmem
      · exact absurd hname (by decide)
      · simp only [Draft.resolve] at address
        split at address
        · cases address
        · cases address
    | retract op =>
      have hmem := List.mem_of_getElem? op
      simp [handoverOps] at hmem

end ConfGraph
