import ConfGraph.Engine.Build
import ConfGraph.Proofs.Graph.Written

/-!
# Reading is a projection

Ops come from outside with fields that nobody asked for, and those of a config file are read twice: once
with the file, and once when they are applied.  The first reading drops what the second would drop, and
nothing that decides an alternative.  So it does not matter how often ops are read, nor whether they were
read before they are applied.

* `opsShape_of_opsShape`: ops that were read are read again as they are.
* `Initializer.ReadFrom`, `Initializer.inputShape_input`: initializers that were read, written as in a
  config file, are read again as they are.
* `Engine.applyInitializer_of_opsShape_eq`: a step that applies ops does not tell whether they were read.
* `reading_is_a_projection`: all of this.
-/

namespace ConfGraph

open Shape

variable {v w : Value} {ops : List TxOp}

/-! ## 1. Ops -/

/-- **Ops that were read are read again as they are.** -/
theorem opsShape_of_opsShape (h : opsShape v = .ok ops) :
    opsShape (.list (ops.map TxOp.toValue)) = .ok ops :=
  gather_eq_ok_iff.mpr (itemOutcomes_toValue (valid_of_opsShape h) 0)

/-! ## 2. The form of config files -/

namespace Initializer

variable {α : Type} {name other : String} {s : Shape α} {a : α} {init : Initializer}

theorem single_eq_ok (h : single name s v = .ok a) : s (v.field name) = .ok a := by
  unfold single closed at h
  have h := (object_eq_ok_iff.mp h).2
  split at h
  · exact field_eq_ok_iff.mp h
  · cases h
  · cases h

/-- The only field is read. -/
theorem single_self (h : s w = .ok a) : single name s (.record .host [(name, w)]) = .ok a := by
  have hfield : (Value.record .host [(name, w)]).field name = w := by
    simp [Value.field, Value.member?, Fields.get?_cons]
  have hextra : extraNames [name] (.record .host [(name, w)]) = [] := by
    simp [extraNames, Value.fields?]
  unfold single closed
  refine object_eq_ok_iff.mpr ⟨rfl, ?_⟩
  rw [hextra]
  refine field_eq_ok_iff.mpr ?_
  rwa [hfield]

/-- A record with a field of another name is not read, and leaves the choice open. -/
theorem settles_single_of_ne (hne : name ≠ other) (h : settles (s .undefined) = false) :
    settles (single name s (.record .host [(other, w)])) = false := by
  have hfield : (Value.record .host [(other, w)]).field name = .undefined := by
    simp [Value.field, Value.member?, Fields.get?_cons, hne]
  have hextra : extraNames [name] (.record .host [(other, w)]) = [other] := by
    simp [extraNames, Value.fields?, hne.symm]
  cases hread : s .undefined with
  | ok a => simp [hread] at h
  | error is =>
    have hissues : Issue.anyEnds (is.map (Issue.under name)) = false := by
      rw [hread] at h
      rw [Issue.anyEnds, List.any_map]
      exact h
    have hread : field name s (.record .host [(other, w)]) = .error (is.map (Issue.under name)) := by
      rw [field, hfield, hread]
      rfl
    unfold single closed object
    simpa [hextra, hread, Value.isObject, settles, Issue.anyEnds] using hissues

/-- **What an initializer is read from**: the one field of a record that names it, or `null`. -/
inductive ReadFrom (v : Value) : Initializer → Prop
  | function {ref : String} (read : nonEmptyText (v.field "fn") = .ok ref) : ReadFrom v (.function ref)
  | module {id : String} (read : nonEmptyText (v.field "module") = .ok id) : ReadFrom v (.module id)
  | file {path : String} (read : nonEmptyText (v.field "file") = .ok path) : ReadFrom v (.file path)
  | ops {ops : List TxOp} (read : opsShape (v.field "ops") = .ok ops) : ReadFrom v (batch ops)
  | script {source : String} (read : text (v.field "script") = .ok source) :
    ReadFrom v (.script source)
  | none (read : v = .null) : ReadFrom v .none

theorem readFrom_of_inputShape (h : inputShape v = .ok init) : ReadFrom v init := by
  have hmem := oneOf_mem h
  simp only [List.mem_cons, List.not_mem_nil, or_false] at hmem
  rcases hmem with h | h | h | h | h | h
  · obtain ⟨u, hread, rfl⟩ := map_eq_ok_iff.mp h.symm
    refine .none ?_
    unfold Shape.null at hread
    split at hread
    · rfl
    · cases hread
  · obtain ⟨ref, hread, rfl⟩ := map_eq_ok_iff.mp h.symm
    exact .function (single_eq_ok hread)
  · obtain ⟨id, hread, rfl⟩ := map_eq_ok_iff.mp h.symm
    exact .module (single_eq_ok hread)
  · obtain ⟨path, hread, rfl⟩ := map_eq_ok_iff.mp h.symm
    exact .file (single_eq_ok hread)
  · obtain ⟨ops, hread, rfl⟩ := map_eq_ok_iff.mp h.symm
    exact .ops (single_eq_ok hread)
  · obtain ⟨source, hread, rfl⟩ := map_eq_ok_iff.mp h.symm
    exact .script (single_eq_ok hread)

/-- **An initializer that was read is read again as it is.**  The alternatives before its own look for a
field of another name. -/
theorem inputShape_input (h : ReadFrom v init) : inputShape init.input = .ok init := by
  have hnull : ∀ fields, settles ((Shape.null (.record .host fields)).map fun _ => Initializer.none)
      = false := fun _ => rfl
  have hname : settles (nonEmptyText .undefined) = false := rfl
  have hops : settles (opsShape .undefined) = false := rfl
  cases h with
  | none => rfl
  | function read =>
    unfold inputShape input
    rw [single_self (nonEmptyText_str (nonEmptyText_eq_ok read).2)]
    refine oneOf_of_read [_] ?_
    simp [hnull]
  | module read =>
    unfold inputShape input
    rw [single_self (nonEmptyText_str (nonEmptyText_eq_ok read).2)]
    refine oneOf_of_read [_, _] ?_
    simp [hnull, settles_single_of_ne _ hname]
  | file read =>
    unfold inputShape input
    rw [single_self (nonEmptyText_str (nonEmptyText_eq_ok read).2)]
    refine oneOf_of_read [_, _, _] ?_
    simp [hnull, settles_single_of_ne _ hname]
  | ops read =>
    unfold inputShape batch input
    rw [single_self (opsShape_of_opsShape read)]
    refine oneOf_of_read [_, _, _, _] ?_
    simp [hnull, settles_single_of_ne _ hname]
  | @script source read =>
    have htext : text (.str source) = .ok source := rfl
    unfold inputShape input
    rw [single_self htext]
    refine oneOf_of_read [_, _, _, _, _] ?_
    simp [hnull, settles_single_of_ne _ hname, settles_single_of_ne _ hops]

theorem parse_eq_ok_iff : parse v = .ok init ↔ inputShape v = .ok init := by
  unfold parse
  cases inputShape v with
  | ok i => simp
  | error issues => simp

end Initializer

/-! ## 3. Steps of a build -/

namespace Engine

/-- Two steps that do the same and are told alike are applied alike. -/
theorem applyWith_congr {e : Setup} {nest : Nest} {c : Content} {init init' : Initializer}
    (hcheck : init.checkDescribable = init'.checkDescribable)
    (hdescription : init.description = init'.description)
    (hdispatch : dispatch e nest init = dispatch e nest init') :
    applyWith e nest c init = applyWith e nest c init' := by
  have hend : noteEnd init = noteEnd init' := by
    funext r
    simp only [noteEnd, hdescription]
  simp only [applyWith, hcheck, hdescription, hdispatch, hend]

/-- **A step that applies ops does not tell whether they were read before.** -/
theorem applyInitializer_of_opsShape_eq (hv : opsShape v = .ok ops) (hw : opsShape w = .ok ops)
    (e : Setup) (c : Content) :
    applyInitializer e c (.ops v) = applyInitializer e c (.ops w) := by
  have hlength := field_length_of_opsShape_eq hv hw
  have hbatch := ofValue_of_opsShape_eq hv hw
  obtain ⟨items, rfl, -⟩ := exists_items_of_list hv
  obtain ⟨items', rfl, -⟩ := exists_items_of_list hw
  refine applyWith_congr ?_ ?_ ?_
  · simp only [Initializer.checkDescribable, hlength]
  · simp only [Initializer.description, Initializer.lengthText, hlength]
  · simp only [dispatch, Session.applyOps, hbatch]

end Engine

/-! ## 4. Main result -/

open Engine (applyInitializer)

/-- **Reading is a projection.**

* Ops that were read, written out, are read again as they are; and for every graph, applying what they
  were read from comes to the same as applying them.
* An initializer that was read, written as in a config file, is read again as it is, and applied alike;
  and one with ops is applied as if its ops had not been read. -/
theorem reading_is_a_projection :
    (∀ v ops, opsShape v = .ok ops →
      opsShape (.list (ops.map TxOp.toValue)) = .ok ops ∧
        ∀ (g : Graph) (provenance : Value),
          g.applyOps v provenance = g.applyOps (.list (ops.map TxOp.toValue)) provenance) ∧
    ∀ v init, Initializer.parse v = .ok init →
      Initializer.parse init.input = .ok init ∧
        (∀ again, Initializer.parse init.input = .ok again →
          ∀ e c, applyInitializer e c again = applyInitializer e c init) ∧
        ∀ b, init = .ops b →
          ∀ e c, applyInitializer e c (.ops (v.field "ops")) = applyInitializer e c init := by
  refine ⟨fun v ops hops => ⟨opsShape_of_opsShape hops, fun g provenance => ?_⟩, fun v init hinit => ?_⟩
  · exact applyOps_of_opsShape_eq hops (opsShape_of_opsShape hops) g provenance
  · have hfrom := Initializer.readFrom_of_inputShape (Initializer.parse_eq_ok_iff.mp hinit)
    have hagain : Initializer.parse init.input = .ok init :=
      Initializer.parse_eq_ok_iff.mpr (Initializer.inputShape_input hfrom)
    refine ⟨hagain, fun again h e c => ?_, ?_⟩
    · rw [Except.ok.inj (h.symm.trans hagain)]
    · rintro b rfl e c
      cases hfrom with
      | ops read => exact Engine.applyInitializer_of_opsShape_eq read (opsShape_of_opsShape read) e c

/-- Ops with fields that nobody asked for, at every level. -/
def looseOps : Value := .list [
  .record .host [("op", .str "create"), ("tempId", .str "a"), ("note", .bool true),
    ("attrs", .record .host [("__proto__", .null), ("constructor", .str "mine"),
      ("next", .record .host [("why", .null), ("ref", .record .host [("attr", .str "config/id"),
        ("value", .list [.str "app/a"]), ("ref", .str "b")])])])],
  .record .host [("entity", .str "a"), ("op", .str "retract"), ("attr", .str "port"), ("value", .null)]]

/-- What is left of them. -/
def strictOps : List TxOp := [
  .create (some "a") [("constructor", .str "mine"),
    ("next", .ref (.lookup "config/id" (.list [.str "app/a"])))],
  .retract (.tempId "a") "port"]

theorem looseOps_are_strictOps :
    opsShape looseOps = .ok strictOps ∧
      opsShape (.list (strictOps.map TxOp.toValue)) = .ok strictOps ∧
      (Graph.empty.applyOps looseOps .null
        = Graph.empty.applyOps (.list (strictOps.map TxOp.toValue)) .null) ∧
      Initializer.parse (.record .host [("ops", looseOps)]) = .ok (.batch strictOps) ∧
      Initializer.parse (Initializer.batch strictOps).input = .ok (.batch strictOps) ∧
      ∀ e c, applyInitializer e c (.ops looseOps) = applyInitializer e c (.batch strictOps) := by
  have hread : opsShape looseOps = .ok strictOps := rfl
  have hparse : Initializer.parse (.record .host [("ops", looseOps)]) = .ok (.batch strictOps) := rfl
  obtain ⟨hops, hinit⟩ := reading_is_a_projection
  obtain ⟨hagain, hsame⟩ := hops _ _ hread
  obtain ⟨hback, -, happlied⟩ := hinit _ _ hparse
  exact ⟨hread, hagain, hsame .empty .null, hparse, hback, happlied _ rfl⟩

end ConfGraph
