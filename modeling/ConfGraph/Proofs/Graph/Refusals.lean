import ConfGraph.Proofs.Graph.Passes
import ConfGraph.Proofs.Graph.Written
import ConfGraph.Proofs.Shape.Ending

/-!
# What is refused, and how

A value that is handed over as a batch is read, and then applied in two passes.  Reading it refuses
the batch as a whole, and either pass refuses one of its ops, at its position; beyond that nothing can
go wrong once a batch has been read.  But three things come before the report of a reading: `null` has
no length to look at, anything of length zero counts as the empty batch, list or not, and a length that
cannot be compared with a number ends the reading.

* `goesOn_opsShape`: a reading goes on to its report if lengths have numbers.
* `Reason.IsOfOp`: the reasons for which an op is refused.
* `Draft.refused_of_prepareAll`, `Draft.refused_of_performAll`: where, in either pass.
* `Graph.AppliesOrRefuses`: what a value comes to when it is applied.
* `values_are_applied_or_refused`: so for every JSON value.
-/

namespace ConfGraph

open Shape

/-! ## 1. Readings of ops go on -/

mutual

theorem goesOn_attrValueShape : ∀ v : Value, GoesOn (attrValueShape v)
  | v => by
    unfold attrValueShape
    split
    · next items =>
      have hitems := (goesOn_gather (goesOn_attrValueOutcomes 0 items)).map AttrValue.list
      exact goesOn_oneOf (List.forall_mem_singleton.mpr hitems)
    · refine goesOn_oneOf ?_
      simp only [List.forall_mem_cons, List.not_mem_nil, IsEmpty.forall_iff, implies_true, and_true]
      refine ⟨(goesOn_text v).map _, (goesOn_number v).map _, (goesOn_boolean v).map _,
        (goesOn_null v).map _, goesOn_object ?_⟩
      exact ((goesOn_positive _).under "ref").map _

theorem goesOn_attrValueOutcomes : ∀ (i : Nat) (items : List Value),
    ∀ r ∈ attrValueOutcomes i items, GoesOn r
  | _, [] => fun _ hr => absurd hr List.not_mem_nil
  | i, v :: rest => List.forall_mem_cons.mpr
    ⟨(goesOn_attrValueShape v).under _, goesOn_attrValueOutcomes (i + 1) rest⟩

end

theorem goesOn_entityRefShape {v : Value} (h : v.Measurable) : GoesOn (entityRefShape v) := by
  refine goesOn_oneOf ?_
  simp only [List.forall_mem_cons, List.not_mem_nil, IsEmpty.forall_iff, implies_true, and_true]
  refine ⟨(goesOn_positive v).map _, (goesOn_nonEmptyText h).map _, goesOn_object ?_⟩
  have hattr := (goesOn_nonEmptyText (h.field "attr")).under "attr"
  have hvalue := (goesOn_attrValueShape (v.field "value")).under "value"
  exact (hattr.both hvalue).map _

mutual

/-- **The reading of a value in an op goes on**, at any depth. -/
theorem goesOn_opValueShape : ∀ v : Value, v.Measurable → GoesOn (opValueShape v)
  | v, h => by
    unfold opValueShape
    split
    · next items =>
      have hitems := (goesOn_gather (goesOn_opValueOutcomes 0 items h)).map OpValue.list
      exact goesOn_oneOf (List.forall_mem_singleton.mpr hitems)
    · refine goesOn_oneOf ?_
      simp only [List.forall_mem_cons, List.not_mem_nil, IsEmpty.forall_iff, implies_true, and_true]
      refine ⟨(goesOn_text v).map _, (goesOn_number v).map _, (goesOn_boolean v).map _,
        (goesOn_null v).map _, goesOn_object ?_⟩
      exact ((goesOn_entityRefShape (h.field "ref")).under "ref").map _

theorem goesOn_opValueOutcomes : ∀ (i : Nat) (items : List Value), AllMeasurable items →
    ∀ r ∈ opValueOutcomes i items, GoesOn r
  | _, [], _ => fun _ hr => absurd hr List.not_mem_nil
  | i, v :: rest, h => List.forall_mem_cons.mpr
    ⟨(goesOn_opValueShape v h.1).under _, goesOn_opValueOutcomes (i + 1) rest h.2⟩

end

theorem goesOn_opShape {v : Value} (h : v.Measurable) : GoesOn (opShape v) := by
  have hentity := (goesOn_entityRefShape (h.field "entity")).under "entity"
  have hattr := (goesOn_nonEmptyText (h.field "attr")).under "attr"
  have hvalue := (goesOn_opValueShape _ (h.field "value")).under "value"
  refine goesOn_object ?_
  split
  · have htempId := (goesOn_optional (goesOn_nonEmptyText (h.field "tempId"))).under "tempId"
    refine (htempId.both (GoesOn.under (goesOn_entries fun f hf => ?_) "attrs")).map _
    exact goesOn_opValueShape f.2 ((h.field "attrs").of_mem_fields hf)
  · exact (hentity.both (hattr.both hvalue)).map _
  · exact (hentity.both hattr).map _
  · exact GoesOn.under (goesOn_error rfl) "op"

/-- **The reading of a batch goes on to its report** if every length in it has a number. -/
theorem goesOn_opsShape {v : Value} (h : v.Measurable) : GoesOn (opsShape v) := by
  refine goesOn_list fun items hitems w hw => ?_
  subst hitems
  exact goesOn_opShape (AllMeasurable.of_mem h hw)

/-! ## 2. Reasons for which ops are refused -/

/-- A reason that is found in an op: neither that the batch is no list of ops, nor one in the words of
somebody else. -/
def Reason.IsOfOp : Reason → Prop
  | malformed _ => False
  | stated _ => False
  | dbIdWritten | dbIdRemoved | configIdNoText => True
  | configIdTaken .. | tempIdTwice _ | noEntity _ | noMatch .. | tempIdUnbound _ => True

theorem not_prefix_append {s t u : String} (h : ¬ s.toList <+: u.toList) :
    ¬ (s ++ t).toList <+: u.toList := by
  rw [String.toList_append]
  exact fun hprefix => h ((List.prefix_append _ _).trans hprefix)

theorem ne_of_not_prefix {s u : String} (h : ¬ s.toList <+: u.toList) : s ≠ u := by
  rintro rfl
  exact h List.prefix_rfl

/-- No op is refused because its create was given no entity: every message begins otherwise. -/
theorem Reason.IsOfOp.message_ne {r : Reason} (h : r.IsOfOp) :
    r.message ≠ "create op has no allocated entity" := by
  refine ne_of_not_prefix ?_
  unfold message
  cases r with
  | malformed issues => exact absurd h id
  | stated words => exact absurd h id
  | dbIdWritten => decide
  | dbIdRemoved => decide
  | configIdNoText => decide
  | configIdTaken => exact not_prefix_append (not_prefix_append (not_prefix_append (by decide)))
  | tempIdTwice => exact not_prefix_append (not_prefix_append (by decide))
  | noEntity => exact not_prefix_append (not_prefix_append (by decide))
  | noMatch => exact not_prefix_append (not_prefix_append (not_prefix_append (by decide)))
  | tempIdUnbound => exact not_prefix_append (not_prefix_append (by decide))

namespace Draft

variable {d : Draft} {c : Complaint}

theorem bind_eq_error {ε α β : Type} {r : Except ε α} {f : α → Except ε β} {e : ε}
    (h : (r >>= f) = .error e) : r = .error e ∨ ∃ a, r = .ok a ∧ f a = .error e := by
  cases r with
  | error e' =>
    obtain rfl : e' = e := Except.error.inj h
    exact .inl rfl
  | ok a => exact .inr ⟨a, rfl, h⟩

theorem isOfOp_of_resolve {r : EntityRef} (h : d.resolve r = .error c) : c.reason.IsOfOp := by
  cases r with
  | id n =>
    simp only [resolve] at h
    split at h
    · cases h
    · obtain rfl := Except.error.inj h
      trivial
  | tempId name =>
    simp only [resolve] at h
    split at h
    · cases h
    · obtain rfl := Except.error.inj h
      trivial
  | lookup attr value =>
    simp only [resolve] at h
    split at h
    · cases h
    · obtain rfl := Except.error.inj h
      trivial

mutual

theorem isOfOp_of_resolveValue : ∀ {v : OpValue}, d.resolveValue v = .error c → c.reason.IsOfOp
  | .str _, h => nomatch h
  | .num _, h => nomatch h
  | .bool _, h => nomatch h
  | .null, h => nomatch h
  | .list _, h => isOfOp_of_resolveItems (Shape.map_eq_error_iff.mp h)
  | .ref _, h => isOfOp_of_resolve (Shape.map_eq_error_iff.mp h)

theorem isOfOp_of_resolveItems : ∀ {items : List OpValue}, d.resolveItems items = .error c →
    c.reason.IsOfOp
  | [], h => nomatch h
  | v :: rest, h => by
    unfold resolveItems at h
    split at h
    · next c' hfirst =>
      rw [Except.error.inj h] at hfirst
      exact isOfOp_of_resolveValue hfirst
    · split at h
      · next c' hrest =>
        rw [Except.error.inj h] at hrest
        exact isOfOp_of_resolveItems hrest
      · cases h

end

theorem isOfOp_of_checkName {id : EntityId} {a : AttrValue} (h : d.checkName id a = .error c) :
    c.reason.IsOfOp := by
  unfold checkName at h
  split at h
  · split at h
    · split at h
      · cases h
      · obtain rfl := Except.error.inj h
        trivial
    · cases h
  · obtain rfl := Except.error.inj h
    trivial

theorem isOfOp_of_write {id : EntityId} {name : String} {a : AttrValue}
    (h : d.write id name a = .error c) : c.reason.IsOfOp := by
  unfold write at h
  split at h
  · obtain rfl := Except.error.inj h
    trivial
  · by_cases hname : name = configId
    · rw [if_pos hname] at h
      obtain h | ⟨_, -, h⟩ := bind_eq_error h
      · exact isOfOp_of_checkName h
      · cases h
    · rw [if_neg hname] at h
      cases h

theorem isOfOp_of_fill {id : EntityId} {attrs : Fields OpValue} {d : Draft}
    (h : d.fill id attrs = .error c) : c.reason.IsOfOp := by
  induction attrs generalizing d with
  | nil => cases h
  | cons f rest ih =>
    unfold fill at h
    split at h
    · exact ih h
    · obtain h | ⟨a, -, h⟩ := bind_eq_error h
      · exact isOfOp_of_resolveValue h
      · obtain h | ⟨d₁, -, h⟩ := bind_eq_error h
        · exact isOfOp_of_write h
        · exact ih h

theorem isOfOp_of_perform {task : Task} (h : d.perform task = .error c) : c.reason.IsOfOp := by
  cases task with
  | fill id attrs => exact isOfOp_of_fill h
  | assert entity attr value =>
    obtain h | ⟨id, -, h⟩ := bind_eq_error h
    · exact isOfOp_of_resolve h
    · obtain h | ⟨a, -, h⟩ := bind_eq_error h
      · exact isOfOp_of_resolveValue h
      · exact isOfOp_of_write h
  | retract entity attr =>
    obtain h | ⟨id, -, h⟩ := bind_eq_error h
    · exact isOfOp_of_resolve h
    · unfold remove at h
      split at h
      · obtain rfl := Except.error.inj h
        trivial
      · cases h

theorem isOfOp_of_bind {name : String} {id : EntityId} (h : d.bind name id = .error c) :
    c.reason.IsOfOp := by
  unfold bind at h
  split at h
  · cases h
  · split at h
    · cases h
    · obtain rfl := Except.error.inj h
      trivial

theorem isOfOp_of_givenName {attrs : Fields OpValue} (h : givenName attrs = .error c) :
    c.reason.IsOfOp := by
  unfold givenName at h
  split at h
  · cases h
  · cases h
  · obtain rfl := Except.error.inj h
    trivial

theorem isOfOp_of_prepare {op : TxOp} (h : d.prepare op = .error c) : c.reason.IsOfOp := by
  cases op with
  | create tempId attrs =>
    obtain h | ⟨_, -, h⟩ := bind_eq_error h
    · unfold allocate at h
      split at h
      · obtain rfl := Except.error.inj h
        trivial
      · obtain h | ⟨name, -, h⟩ := bind_eq_error h
        · exact isOfOp_of_givenName h
        · cases tempId with
          | none => cases h
          | some t =>
            obtain h | ⟨d₁, -, h⟩ := bind_eq_error h
            · exact isOfOp_of_bind h
            · cases h
    · cases h
  | assert => cases h
  | retract => cases h

/-! ## 3. Where a pass is refused -/

/-- A refusal of the op at a position, counted from `index`, for a reason found in it. -/
def RefusedFrom (index count : Nat) (r : Rejection) : Prop :=
  ∃ i < count, r.place = .op (index + i) ∧ r.reason.IsOfOp

theorem RefusedFrom.succ {index count : Nat} {r : Rejection}
    (h : RefusedFrom (index + 1) count r) : RefusedFrom index (count + 1) r := by
  obtain ⟨i, hi, hplace, hreason⟩ := h
  refine ⟨i + 1, Nat.succ_lt_succ hi, ?_, hreason⟩
  rw [hplace]
  congr 1
  omega

/-- **The first pass refuses one of the ops**, at its position. -/
theorem refused_of_prepareAll {ops : List TxOp} {index : Nat} {d : Draft} {r : Rejection}
    (h : prepareAll index d ops = .error r) : RefusedFrom index ops.length r := by
  induction ops generalizing index d with
  | nil => cases h
  | cons op rest ih =>
    unfold prepareAll at h
    split at h
    · next c hfirst =>
      obtain rfl := Except.error.inj h
      exact ⟨0, Nat.succ_pos _, rfl, isOfOp_of_prepare hfirst⟩
    · split at h
      · next r' hrest =>
        obtain rfl := Except.error.inj h
        exact (ih hrest).succ
      · cases h

/-- **The second pass refuses one of the ops**, at its position. -/
theorem refused_of_performAll {tasks : List Task} {index : Nat} {d : Draft} {r : Rejection}
    (h : performAll index d tasks = .error r) : RefusedFrom index tasks.length r := by
  induction tasks generalizing index d with
  | nil => cases h
  | cons task rest ih =>
    unfold performAll at h
    split at h
    · next c hfirst =>
      obtain rfl := Except.error.inj h
      exact ⟨0, Nat.succ_pos _, rfl, isOfOp_of_perform hfirst⟩
    · exact (ih h).succ

/-- **Both passes refuse one of the ops**, at its position. -/
theorem refused_of_run {ops : List TxOp} {r : Rejection} (h : d.run ops = .error r) :
    (∃ i < ops.length, r.place = .op i) ∧ r.reason.IsOfOp := by
  have hrefused : RefusedFrom 0 ops.length r := by
    unfold run at h
    split at h
    · next r' hprepare =>
      obtain rfl := Except.error.inj h
      exact refused_of_prepareAll hprepare
    · next tasks d₁ hprepare =>
      rw [(found_of_prepareAll hprepare).1.length_eq]
      exact refused_of_performAll h
  obtain ⟨i, hi, hplace, hreason⟩ := hrefused
  exact ⟨⟨i, hi, by rw [hplace, Nat.zero_add]⟩, hreason⟩

end Draft

/-! ## 4. Any value -/

namespace Graph

variable {g : Graph} {v provenance : Value}

/-- What a value comes to when it is applied to a graph as a batch. -/
structure AppliesOrRefuses (g : Graph) (v provenance : Value) : Prop where
  /-- A value is read as a batch if it is a list all of whose items are ops. -/
  batch : (∃ ops, opsShape v = .ok ops) ↔
    ∃ items, v = .list items ∧ ∀ w ∈ items, ∃ op, opShape w = .ok op
  /-- A batch makes a graph, or is refused at one of its ops for a reason that is found there. -/
  applied : ∀ ops, opsShape v = .ok ops → (∃ next, g.applyOps v provenance = .ok next) ∨
    ∃ r, g.applyOps v provenance = .error (.rejected r) ∧ (∃ i < ops.length, r.place = .op i) ∧
      r.reason.IsOfOp ∧ r.reason.message ≠ "create op has no allocated entity"
  /-- When the second pass over a batch begins, every create has its entity. -/
  allocated : ∀ (ops : List TxOp) (tasks : List Draft.Task) (d : Draft), opsShape v = .ok ops →
    Draft.prepareAll 0 g.draft ops = .ok (tasks, d) → ∀ (i : Nat) tempId attrs,
    ops[i]? = some (.create tempId attrs) → ∃ e, tasks[i]? = some (.fill e attrs)
  /-- What is no batch is refused as a whole, with a report, if the reading goes on to it. -/
  refused : ∀ issues, opsShape v = .error issues → v ≠ .null → isEmptyBatch v = false →
    Issue.anyEnds issues = false →
    g.applyOps v provenance = .error (.rejected ⟨.malformed issues, .batch, none⟩)
  /-- It does if every length in the value has a number. -/
  reported : v.Measurable → ∀ issues, opsShape v = .error issues → Issue.anyEnds issues = false
  /-- If it does not, that is no refusal. -/
  ended : ∀ issues, opsShape v = .error issues → v ≠ .null → isEmptyBatch v = false →
    Issue.anyEnds issues = true → g.applyOps v provenance = .error .noPrimitive
  /-- Nor is what comes of `null`. -/
  null : v = .null → g.applyOps v provenance = .error (.noFieldOf "null" "length")
  /-- What has length zero changes nothing, be it a list or not. -/
  empty : v ≠ .null → isEmptyBatch v = true → g.applyOps v provenance = .ok none

theorem applyOps_of_error {f : Fault} (h : Batch.ofValue v = .error f) :
    g.applyOps v provenance = .error f := by
  unfold applyOps
  rw [h]

/-- A batch that is read makes a graph, or is refused as its ops are. -/
theorem applyOps_of_read {ops : List TxOp} (h : Batch.ofValue v = .ok ops) :
    (∃ next, g.applyOps v provenance = .ok next) ∨
      ∃ r, g.applyOps v provenance = .error (.rejected r) ∧ (∃ i < ops.length, r.place = .op i) ∧
        r.reason.IsOfOp ∧ r.reason.message ≠ "create op has no allocated entity" := by
  cases ops with
  | nil => exact .inl ⟨none, applyOps_eq_none_iff.mpr h⟩
  | cons op rest =>
    cases hrun : g.draft.run (op :: rest) with
    | ok d => exact .inl ⟨_, applyOps_of_run h (List.cons_ne_nil op rest) hrun⟩
    | error r =>
      obtain ⟨hplace, hreason⟩ := Draft.refused_of_run hrun
      exact .inr ⟨r, applyOps_of_refused h hrun, hplace, hreason, hreason.message_ne⟩

end Graph

/-- **A list is read just when each of its items is.** -/
theorem exists_list_eq_ok_iff {α : Type} {s : Shape α} {items : List Value} :
    (∃ as, Shape.list s (.list items) = .ok as) ↔ ∀ w ∈ items, ∃ a, s w = .ok a := by
  simp only [list_eq_ok_iff]
  induction items with
  | nil => exact ⟨fun _ _ hw => absurd hw List.not_mem_nil, fun _ => ⟨[], .nil⟩⟩
  | cons w rest ih =>
    rw [List.forall_mem_cons, ← ih]
    constructor
    · rintro ⟨as, h⟩
      cases h with
      | cons hfirst hrest => exact ⟨⟨_, hfirst⟩, _, hrest⟩
    · rintro ⟨⟨a, hfirst⟩, as, hrest⟩
      exact ⟨a :: as, .cons hfirst hrest⟩

/-- What a JSON value other than `null` is read as. -/
theorem Batch.ofValue_of_isJson {v : Value} (hv : v.IsJson) (hnull : v ≠ .null) :
    Batch.ofValue v = if isEmptyBatch v then .ok []
      else match opsShape v with
        | .ok ops => .ok ops
        | .error issues =>
          .error (.ofIssues issues fun _ => .rejected ⟨.malformed issues, .batch, none⟩) := by
  cases v with
  | undefined => exact absurd hv id
  | hole => exact absurd hv id
  | null => exact absurd rfl hnull
  | _ => rfl

/-- **Values are applied or refused.**  Let a JSON value be applied to a graph as a batch.

* If it is a list all of whose items are ops, it makes a graph, or one of the ops is refused at its
  position, for a reason that is found there.  That a create was given no entity is never the reason.
* If not, it is refused as a whole, with the issues of its reading, but for three kinds of values.
  `null` has no length to look at; what has length zero is accepted as the empty batch; and a length
  somewhere inside that has no number ends the reading.  Neither the first nor the last is a refusal.

Lists are no longer than doubles can count. -/
theorem values_are_applied_or_refused (g : Graph) {v : Value} (hv : v.IsJson)
    (hsize : ∀ items, v = .list items → items.length < Number.smallBound) (provenance : Value) :
    g.AppliesOrRefuses v provenance := by
  constructor
  case batch =>
    constructor
    · rintro ⟨ops, hops⟩
      obtain ⟨items, rfl, -⟩ := exists_items_of_list hops
      exact ⟨items, rfl, exists_list_eq_ok_iff.mp ⟨ops, hops⟩⟩
    · rintro ⟨items, rfl, hitems⟩
      exact exists_list_eq_ok_iff.mpr hitems
  case applied =>
    intro ops hops
    obtain ⟨items, rfl, -⟩ := exists_items_of_list hops
    exact Graph.applyOps_of_read (ofValue_of_opsShape hops (hsize items rfl))
  case allocated =>
    intro ops tasks d _ hprepare i tempId attrs hi
    obtain ⟨task, htask, hfound⟩ := Draft.found_at (Draft.found_of_prepareAll hprepare).1 hi
    cases hfound
    exact ⟨_, htask⟩
  case refused =>
    intro issues hissues hnull hempty hends
    refine Graph.applyOps_of_error ?_
    rw [Batch.ofValue_of_isJson hv hnull, hempty, hissues]
    simp [Fault.ofIssues, hends]
  case reported => exact goesOn_opsShape
  case ended =>
    intro issues hissues hnull hempty hends
    refine Graph.applyOps_of_error ?_
    rw [Batch.ofValue_of_isJson hv hnull, hempty, hissues]
    simp [Fault.ofIssues, hends]
  case null =>
    rintro rfl
    rfl
  case empty =>
    intro hnull hempty
    refine Graph.applyOps_eq_none_iff.mpr ?_
    rw [Batch.ofValue_of_isJson hv hnull, if_pos hempty]

/-- A removal of an attribute of something that the batch gives no name to. -/
def strayOps : Value := .list [
  .record .host [("op", .str "create"), ("attrs", .record .host [])],
  .record .host [("op", .str "retract"), ("entity", .str "gone"), ("attr", .str "port")]]

/-- A batch with something among its ops that is none. -/
def jumbledOps : Value := .list [
  .record .host [("op", .str "create"), ("attrs", .record .host [])], .str "drop"]

theorem strayOps_and_jumbledOps_are_refused :
    strayOps.IsJson ∧ jumbledOps.IsJson ∧
      (∃ r, Graph.empty.applyOps strayOps .null = .error (.rejected r) ∧
        ∃ i < 2, r.place = .op i) ∧
      Graph.empty.applyOps jumbledOps .null
        = .error (.rejected ⟨.malformed [⟨["1"], .kind "object" "string"⟩], .batch, none⟩) := by
  have hstray : strayOps.IsJson := ⟨⟨trivial, trivial, trivial⟩, ⟨trivial, trivial, trivial, trivial⟩,
    trivial⟩
  have hjumbled : jumbledOps.IsJson := ⟨⟨trivial, trivial, trivial⟩, trivial, trivial⟩
  have hsize : ∀ {v w : Value} {items}, Value.list [v, w] = .list items →
      items.length < Number.smallBound := by
    intro v w items h
    obtain rfl := Value.list.inj h
    exact (by decide : 2 < Number.smallBound)
  refine ⟨hstray, hjumbled, ?_, ?_⟩
  · obtain ⟨next, hnext⟩ | ⟨r, hr, hplace, -⟩ :=
      (values_are_applied_or_refused .empty hstray (fun _ h => hsize h) .null).applied _ rfl
    · cases hnext
    · exact ⟨r, hr, hplace⟩
  · exact (values_are_applied_or_refused .empty hjumbled (fun _ h => hsize h) .null).refused _ rfl
      nofun rfl rfl

/-- **Not all that is no batch is refused.**  `null` comes to a plain error, and the empty text is
accepted, although neither is a list of ops. -/
theorem null_and_empty_text_are_not_refused :
    Graph.empty.Reachable ∧ Value.null.IsJson ∧ (Value.str "").IsJson ∧
      (∀ ops, opsShape .null ≠ .ok ops) ∧ (∀ ops, opsShape (.str "") ≠ .ok ops) ∧
      (∀ r, Graph.empty.applyOps .null .null ≠ .error (.rejected r)) ∧
      Graph.empty.applyOps .null .null = .error (.typeError
        "Cannot read properties of null (reading 'length')") ∧
      Graph.empty.applyOps (.str "") .null = .ok none := by
  refine ⟨.empty, trivial, trivial, nofun, nofun, nofun, rfl, rfl⟩

end ConfGraph
