import ConfGraph.Proofs.Graph.OneByOne
import Mathlib.Order.Bounds.Basic

/-!
# Searching and reading

A search goes through the entities in order of creation and compares texts; reading an attribute goes
to one entity and looks for what was written there.  Ids ascend in order of creation, so the first
hit is the least one.  What the two see of an entity is not the same: a search also hits what every
record answers to without having it (`inheritedText`), and where the text looked for is none of
these, searching and reading agree.

* `FindsLeast`: a search has found the least entity, or there is none.
* `findsLeast_findIn`: so does a search among ids that ascend.
* `matchesSearch_iff`: a search stops at what was written, unless it looks for what is inherited.
* `search_and_read_agree`: searching, addresses and references in ops, in every reachable graph.
* `search_finds_what_is_inherited`: the one way in which they part.
-/

namespace ConfGraph

/-! ## 1. The first hit -/

/-- What is found is the least entity that carries something, and nothing is found exactly when none
does. -/
structure FindsLeast (found : Option EntityId) (carries : EntityId → Prop) : Prop where
  some_iff : ∀ e, found = some e ↔ IsLeast {e | carries e} e
  none_iff : found = none ↔ ∀ e, ¬ carries e

/-- It is enough that a hit is least and that without one nobody carries it. -/
theorem FindsLeast.of_cases {found : Option EntityId} {carries : EntityId → Prop}
    (hit : ∀ e, found = some e → IsLeast {e | carries e} e)
    (miss : found = none → ∀ e, ¬ carries e) : FindsLeast found carries := by
  cases found with
  | none =>
    refine ⟨fun e => ⟨nofun, fun hleast => ?_⟩, ⟨miss, fun _ => rfl⟩⟩
    exact absurd hleast.1 (miss rfl e)
  | some found =>
    have hfound := hit found rfl
    refine ⟨fun e => ⟨hit e, fun hleast => ?_⟩, ⟨nofun, fun hnone => ?_⟩⟩
    · rw [hfound.unique hleast]
    · exact absurd hfound.1 (hnone found)

theorem FindsLeast.congr {found : Option EntityId} {carries carries' : EntityId → Prop}
    (h : FindsLeast found carries) (hsame : ∀ e, carries e ↔ carries' e) :
    FindsLeast found carries' := by
  obtain rfl : carries = carries' := funext fun e => propext (hsame e)
  exact h

/-- **Among ids that ascend the first hit is the least.** -/
theorem findsLeast_findIn {entities : List (EntityId × Attrs)}
    (hascend : (entities.map (·.1)).Pairwise (· < ·)) (name : String) (value : Value) :
    FindsLeast (findIn entities name value) fun e =>
      ∃ attrs, (e, attrs) ∈ entities ∧ matchesSearch name value attrs = true := by
  refine .of_cases (fun e hfind => ⟨Draft.findIn_mem hfind, ?_⟩) fun hfind e => ?_
  · rintro e' ⟨attrs', hmem', hmatch'⟩
    obtain ⟨hit, hhit, rfl⟩ := Option.map_eq_some_iff.mp hfind
    obtain ⟨-, before, after, rfl, hbefore⟩ := List.find?_eq_some_iff_append.mp hhit
    rw [List.map_append, List.map_cons, List.pairwise_append] at hascend
    rcases List.mem_append.mp hmem' with hmem' | hmem'
    · have hmiss := hbefore _ hmem'
      rw [hmatch'] at hmiss
      exact nomatch hmiss
    · rcases List.mem_cons.mp hmem' with rfl | hmem'
      · exact le_rfl
      · exact ((List.pairwise_cons.mp hascend.2.1).1 e' (List.mem_map_of_mem hmem')).le
  · rintro ⟨attrs, hmem, hmatch⟩
    exact Draft.findIn_eq_none_iff.mp hfind _ hmem hmatch

/-! ## 2. What a search stops at -/

/-- **A search stops at what was written**, if what every record answers to is not what it looks
for. -/
theorem matchesSearch_iff {name : String} {v : AttrValue}
    (hplain : inheritedText name ≠ some v.toValue.canonical) (attrs : Attrs) :
    matchesSearch name v.toValue attrs = true ↔
      ∃ w, Fields.get? attrs name = some w ∧ w.toValue.same v.toValue = true := by
  unfold matchesSearch searchText Value.same
  cases Fields.get? attrs name with
  | none => simpa using hplain
  | some w => simp

namespace Draft

variable {d : Draft}

/-- An entity has a value of an attribute, or one with the same text. -/
def Carries (d : Draft) (name : String) (v : AttrValue) (e : EntityId) : Prop :=
  ∃ w, Fields.get? (d.attrsOf e) name = some w ∧ w.toValue.same v.toValue = true

theorem Dense.ascend (h : d.Dense) : (d.entities.map (·.1)).Pairwise (· < ·) := by
  rw [h.ids]
  exact List.pairwise_lt_range'

/-- What holds of the attributes of some entity with an id holds of what is read under the id, unless
it holds where there is nothing. -/
theorem Dense.exists_attrs_iff (h : d.Dense) {P : Attrs → Prop} (hnothing : ¬ P []) (e : EntityId) :
    (∃ attrs, (e, attrs) ∈ d.entities ∧ P attrs) ↔ P (d.attrsOf e) := by
  constructor
  · rintro ⟨attrs, hmem, hattrs⟩
    rwa [h.attrsOf_of_mem hmem]
  · intro hattrs
    obtain hmem | hnone := attrsOf_cases d e
    · exact ⟨_, hmem, hattrs⟩
    · rw [hnone] at hattrs
      exact absurd hattrs hnothing

/-- **A search within a transaction** finds the least entity that carries the value. -/
theorem Dense.findsLeast (h : d.Dense) {name : String} {v : AttrValue}
    (hplain : inheritedText name ≠ some v.toValue.canonical) :
    FindsLeast (findIn d.entities name v.toValue) (d.Carries name v) := by
  refine (findsLeast_findIn h.ascend name v.toValue).congr fun e => ?_
  simp only [matchesSearch_iff hplain]
  exact h.exists_attrs_iff (by simp) e

/-- A reference to whatever carries a value is resolved by that search. -/
theorem resolve_lookup (d : Draft) (name : String) (v : AttrValue) :
    d.resolve (.lookup name v)
      = (findIn d.entities name v.toValue).elim (.error ⟨.noMatch name v, none⟩) .ok := by
  simp only [resolve]
  cases findIn d.entities name v.toValue with
  | none => rfl
  | some e => rfl

end Draft

namespace Graph

variable {g : Graph}

/-- An entity is read to have a value of an attribute, or one with the same text. -/
def Carries (g : Graph) (name : String) (v : AttrValue) (e : EntityId) : Prop :=
  ∃ w, g.attr (.id e) name = some w ∧ w.toValue.same v.toValue = true

theorem carries_iff (h : g.Reachable) {name : String} (hname : name ≠ dbId) (v : AttrValue)
    (e : EntityId) : g.draft.Carries name v e ↔ g.Carries name v e := by
  refine exists_congr fun w => and_congr_left fun _ => ?_
  rw [attr_id_eq_some_iff h hname]
  exact (h.dense_draft.exists_attrs_iff (P := (Fields.get? · name = some w)) (by simp) e).symm

/-- What an id of an entity leads to is found at any other address of that entity. -/
theorem attrs_of_entity? {a : Address} {e : EntityId} (ha : g.entity? a = some e)
    (he : g.has e = true) : g.attrs a = g.attrs (.id e) := by
  have hid : g.entity? (.id e) = some e := by simp [entity?, he]
  unfold attrs
  rw [ha, hid]

theorem attr_of_entity? {a : Address} {e : EntityId} (ha : g.entity? a = some e)
    (he : g.has e = true) (key : String) : g.attr a key = g.attr (.id e) key := by
  have hid : g.entity? (.id e) = some e := by simp [entity?, he]
  unfold attr
  rw [ha, hid]

/-- **An address by a value** leads where the search for the value leads. -/
theorem lookup_reads_found (g : Graph) (name : String) (value : Value) :
    (∀ key, g.attr (.lookup name value) key
        = (g.find name value).bind fun e => g.attr (.id e) key) ∧
      g.attrs (.lookup name value) = (g.find name value).bind fun e => g.attrs (.id e) := by
  cases hfind : g.find name value with
  | none =>
    have hentity : g.entity? (.lookup name value) = none := hfind
    exact ⟨fun key => by simp [attr, hentity], by simp [attrs, hentity]⟩
  | some e =>
    have hentity : g.entity? (.lookup name value) = some e := hfind
    have hhas : g.has e = true := Draft.has_of_findIn (d := g.draft) hfind
    exact ⟨attr_of_entity? hentity hhas, attrs_of_entity? hentity hhas⟩

end Graph

/-! ## 3. Searching and reading -/

/-- **Searching and reading agree**, in every reachable graph, for every attribute but `db/id` and
every value whose text is not what every record answers under that name.

* A search finds the least entity that is read to carry the value, and none exactly when none is.
* An address by attribute and value leads to what the search finds, whether one attribute is read or
  all.
* A reference by attribute and value in an op does the same in whatever draft a transaction on the
  graph has come to, or else is refused. -/
theorem search_and_read_agree {g : Graph} (h : g.Reachable) {name : String} (hname : name ≠ dbId)
    {v : AttrValue} (hplain : inheritedText name ≠ some v.toValue.canonical) :
    FindsLeast (g.find name v.toValue) (g.Carries name v) ∧
      ((∀ key, g.attr (.lookup name v.toValue) key
          = (g.find name v.toValue).bind fun e => g.attr (.id e) key) ∧
        g.attrs (.lookup name v.toValue)
          = (g.find name v.toValue).bind fun e => g.attrs (.id e)) ∧
      ∀ d, Draft.Steps g.draft d → ∃ found, FindsLeast found (d.Carries name v) ∧
        d.resolve (.lookup name v) = found.elim (.error ⟨.noMatch name v, none⟩) .ok := by
  refine ⟨?_, g.lookup_reads_found name v.toValue, fun d hsteps => ?_⟩
  · exact (h.dense_draft.findsLeast hplain).congr fun e => Graph.carries_iff h hname v e
  · have hdense : d.Dense :=
      Draft.invariant_of_steps (fun _ _ hd hstep => hstep.dense hd) hsteps h.dense_draft
    exact ⟨_, hdense.findsLeast hplain, d.resolve_lookup name v⟩

/-- An entity without attributes, and one with an attribute of a name that every record answers to. -/
def answeringOps : Value := .list [
  .record .host [("op", .str "create"), ("attrs", .record .host [])],
  .record .host [("op", .str "create"), ("attrs", .record .host [])],
  .record .host [("op", .str "assert"), ("entity", .nat 2), ("attr", .str "constructor"),
    ("value", .str "mine")]]

/-- What `answeringOps` makes of the empty graph. -/
def answeringGraph : Graph where
  basisTx := 1
  nextId := 3
  entities := [(1, []), (2, [("constructor", .str "mine")])]
  tempIds := []
  transactions := [⟨1, 3, .null⟩]

theorem answeringGraph_reachable : answeringGraph.Reachable :=
  @Graph.Reachable.step Graph.empty answeringGraph answeringOps .null .empty rfl

theorem search_and_read_in_answeringGraph :
    answeringGraph.find "constructor" (.str "mine") = some 2 ∧
      IsLeast {e | answeringGraph.Carries "constructor" (.str "mine") e} 2 := by
  have hfind : answeringGraph.find "constructor" (.str "mine") = some 2 := by decide +kernel
  have hname : "constructor" ≠ dbId := by decide
  have hagree := search_and_read_agree answeringGraph_reachable hname (v := .str "mine")
    (by decide +kernel)
  exact ⟨hfind, (hagree.1.some_iff 2).mp hfind⟩

/-- **A search finds what is inherited.**  No entity has a `constructor` that is `null`, and none of
them is read to have one, but the search for it stops at the first entity that has no `constructor`
of its own. -/
theorem search_finds_what_is_inherited :
    answeringGraph.Reachable ∧ "constructor" ≠ dbId ∧
      answeringGraph.find "constructor" AttrValue.null.toValue = some 1 ∧
      ¬ FindsLeast (answeringGraph.find "constructor" AttrValue.null.toValue)
        (answeringGraph.Carries "constructor" .null) := by
  have hfind : answeringGraph.find "constructor" AttrValue.null.toValue = some 1 := by
    decide +kernel
  refine ⟨answeringGraph_reachable, by decide, hfind, fun hleast => ?_⟩
  obtain ⟨w, hw, -⟩ := ((hleast.some_iff 1).mp hfind).1
  have hread : answeringGraph.attr (.id 1) "constructor" = none := by rfl
  rw [hread] at hw
  exact nomatch hw

end ConfGraph
