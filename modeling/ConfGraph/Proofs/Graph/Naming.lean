import ConfGraph.Proofs.Graph.Entity
import ConfGraph.Proofs.Text.Quoted

/-!
# Config ids name entities

Users name an entity by its config id.  The store guards the name at two places, when a create is
given its entity and when the attribute is written, and the table changes between the two.  Both
look for a holder by its canonical text, which tells texts apart because quoted texts are read back.

* `Draft.Named`: a config id is a text, and no two entities have the same.
* `Draft.Named.findIn_eq_some_iff`: the search for a config id finds its one holder.
* `Graph.Reachable.named`: in a reachable graph names are kept apart.
-/

namespace ConfGraph

namespace Draft

variable {d d' : Draft}

/-! ## 1. The search for a config id -/

/-- A config id is a text, and no two entities have the same. -/
structure Named (d : Draft) : Prop where
  texts : ∀ e ∈ d.entities, ∀ f ∈ e.2, f.1 = configId → ∃ s, f.2 = .str s
  unique : ∀ e ∈ d.entities, ∀ e' ∈ d.entities, ∀ s, Fields.get? e.2 configId = some (.str s) →
    Fields.get? e'.2 configId = some (.str s) → e.1 = e'.1

theorem inheritedText_configId : inheritedText configId = none := by decide

/-- **The search compares texts**, and quoted texts are told apart. -/
theorem matchesSearch_configId {attrs : Attrs} {s : String}
    (texts : ∀ f ∈ attrs, f.1 = configId → ∃ s, f.2 = .str s) :
    matchesSearch configId (.str s) attrs = true ↔ Fields.get? attrs configId = some (.str s) := by
  unfold matchesSearch searchText
  cases h : Fields.get? attrs configId with
  | none => simp [inheritedText_configId]
  | some a =>
    obtain ⟨t, rfl⟩ := texts _ (Fields.mem_of_get? h) rfl
    constructor
    · intro hsame
      have hquote : Text.quote t = Text.quote s := by
        simpa [AttrValue.toValue, Value.canonical] using hsame
      rw [Text.quote_injective hquote]
    · intro hsame
      obtain rfl := AttrValue.str.inj (Option.some.inj hsame)
      simp [AttrValue.toValue]

theorem findIn_eq_none_iff {entities : List (EntityId × Attrs)} {name : String} {value : Value} :
    findIn entities name value = none ↔
      ∀ e ∈ entities, ¬ matchesSearch name value e.2 = true := by
  simp [findIn]

theorem Named.findIn_eq_none_iff (h : d.Named) {s : String} :
    findIn d.entities configId (.str s) = none ↔
      ∀ e ∈ d.entities, Fields.get? e.2 configId ≠ some (.str s) := by
  rw [Draft.findIn_eq_none_iff]
  exact forall₂_congr fun e he => not_congr (matchesSearch_configId (h.texts e he))

/-- **The search for a config id finds its one holder.** -/
theorem Named.findIn_eq_some_iff (h : d.Named) {s : String} {id : EntityId} :
    findIn d.entities configId (.str s) = some id ↔
      ∃ attrs, (id, attrs) ∈ d.entities ∧ Fields.get? attrs configId = some (.str s) := by
  constructor
  · intro hfind
    obtain ⟨attrs, hmem, hmatch⟩ := findIn_mem hfind
    exact ⟨attrs, hmem, (matchesSearch_configId (h.texts _ hmem)).mp hmatch⟩
  · rintro ⟨attrs, hmem, hget⟩
    cases hfind : findIn d.entities configId (.str s) with
    | none => exact absurd hget (h.findIn_eq_none_iff.mp hfind _ hmem)
    | some holder =>
      obtain ⟨attrs', hmem', hmatch⟩ := findIn_mem hfind
      have hget' := (matchesSearch_configId (h.texts _ hmem')).mp hmatch
      exact congrArg some (h.unique _ hmem' _ hmem s hget' hget)

/-- A config id that may be written is a text that no other entity has. -/
theorem Named.checkName (h : d.Named) {id : EntityId} {a : AttrValue}
    (hcheck : d.checkName id a = .ok ()) :
    ∃ s, a = .str s ∧ ∀ e ∈ d.entities, Fields.get? e.2 configId = some (.str s) → e.1 = id := by
  unfold Draft.checkName at hcheck
  split at hcheck
  · next s =>
    refine ⟨s, rfl, fun e he hget => ?_⟩
    rw [h.findIn_eq_some_iff.mpr ⟨e.2, he, hget⟩] at hcheck
    simp only at hcheck
    split at hcheck
    · next hid => exact hid
    · exact nomatch hcheck
  · exact nomatch hcheck

/-! ## 2. Every step keeps names apart -/

theorem Named.unique_fresh (h : d.Named) {attrs : Attrs}
    (hnew : ∀ e ∈ d.entities, ∀ s, Fields.get? attrs configId = some (.str s) →
      Fields.get? e.2 configId ≠ some (.str s)) :
    ∀ e ∈ (d.fresh attrs).2.entities, ∀ e' ∈ (d.fresh attrs).2.entities, ∀ s,
      Fields.get? e.2 configId = some (.str s) → Fields.get? e'.2 configId = some (.str s) →
        e.1 = e'.1 := by
  intro e he e' he' s hs hs'
  rcases List.mem_append.mp he with he | he
  · rcases List.mem_append.mp he' with he' | he'
    · exact h.unique e he e' he' s hs hs'
    · rw [List.mem_singleton.mp he'] at hs'
      exact absurd hs (hnew e he s hs')
  · rcases List.mem_append.mp he' with he' | he'
    · rw [List.mem_singleton.mp he] at hs
      exact absurd hs' (hnew e' he' s hs)
    · rw [List.mem_singleton.mp he, List.mem_singleton.mp he']

/-- A write keeps names apart if what it leaves at its entity is no other entity's name. -/
theorem Named.unique_setAttrs (h : d.Named) {id : EntityId} {attrs : Attrs}
    (hattrs : ∀ e ∈ d.entities, ∀ s, Fields.get? attrs configId = some (.str s) →
      Fields.get? e.2 configId = some (.str s) → e.1 = id) :
    ∀ e ∈ (d.setAttrs id attrs).entities, ∀ e' ∈ (d.setAttrs id attrs).entities, ∀ s,
      Fields.get? e.2 configId = some (.str s) → Fields.get? e'.2 configId = some (.str s) →
        e.1 = e'.1 := by
  intro e he e' he' s hs hs'
  obtain ⟨rfl, -⟩ | ⟨he, -⟩ := mem_setAttrs he
  · obtain ⟨rfl, -⟩ | ⟨he', -⟩ := mem_setAttrs he'
    · rfl
    · exact (hattrs e' he' s hs hs').symm
  · obtain ⟨rfl, -⟩ | ⟨he', -⟩ := mem_setAttrs he'
    · exact hattrs e he s hs' hs
    · exact h.unique e he e' he' s hs hs'

/-- What an entity has already is no other entity's name. -/
theorem Named.unique_attrsOf (h : d.Named) {id : EntityId} {e : EntityId × Attrs}
    (he : e ∈ d.entities) {s : String}
    (hs : Fields.get? (d.attrsOf id) configId = some (.str s))
    (hs' : Fields.get? e.2 configId = some (.str s)) : e.1 = id := by
  obtain hmem | hnone := attrsOf_cases d id
  · exact h.unique e he _ hmem s hs' hs
  · rw [hnone] at hs
    exact nomatch hs

theorem Step.named (h : Step d d') (hd : d.Named) : d'.Named where
  texts := by
    refine h.forall_attr hd.texts (fun s _ => ⟨s, rfl⟩) fun _ _ _ _ is_free hname => ?_
    obtain ⟨s, hs, -⟩ := hd.checkName (is_free hname)
    exact ⟨s, hs⟩
  unique := by
    cases h with
    | create => exact hd.unique_fresh fun _ _ _ hnone => nomatch hnone
    | createNamed name is_new =>
      refine hd.unique_fresh fun e he s hs => ?_
      have hname : s = name := by
        simpa [Fields.get?_cons] using hs.symm
      exact hname ▸ hd.findIn_eq_none_iff.mp is_new e he
    | bind => exact hd.unique
    | put id name _ _ _ _ is_free =>
      refine hd.unique_setAttrs fun e he s hs hs' => ?_
      rw [Fields.get?_put] at hs
      split at hs
      · next hname =>
        obtain ⟨t, ht, hholder⟩ := hd.checkName (is_free hname.symm)
        rw [ht] at hs
        exact hholder e he (hs ▸ hs')
      · exact hd.unique_attrsOf he hs hs'
    | erase id name _ =>
      refine hd.unique_setAttrs fun e he s hs hs' => ?_
      rw [Fields.get?_erase] at hs
      split at hs
      · exact nomatch hs
      · exact hd.unique_attrsOf he hs hs'

theorem Steps.named (h : Steps d d') (hd : d.Named) : d'.Named :=
  invariant_of_steps (fun _ _ hx hstep => hstep.named hx) h hd

end Draft

/-! ## 3. Reachable graphs -/

namespace Graph

variable {g : Graph}

theorem Reachable.named (h : g.Reachable) : g.finished.Named :=
  h.invariant ⟨nofun, nofun⟩ (fun _ hg => ⟨hg.texts, hg.unique⟩) fun _ _ hd hstep => hstep.named hd

/-- Where ids do not repeat, an entity's attributes are found under its id. -/
theorem lookup_eq_some_iff (h : g.Reachable) {id : EntityId} {attrs : Attrs} :
    g.entities.lookup id = some attrs ↔ (id, attrs) ∈ g.entities := by
  constructor
  · exact Draft.lookup_mem
  · intro hmem
    obtain ⟨attrs', hlookup⟩ := Option.isSome_iff_exists.mp
      (Draft.lookup_isSome_iff.mpr (List.mem_map.mpr ⟨_, hmem, rfl⟩))
    have hsame := List.inj_on_of_nodup_map h.dense.nodup hmem (Draft.lookup_mem hlookup) rfl
    rw [hlookup, ← (Prod.mk.inj hsame).2]

/-- Reading an attribute of an entity by its id. -/
theorem attr_id_eq_some_iff (h : g.Reachable) {id : EntityId} {name : String} {a : AttrValue}
    (hname : name ≠ dbId) :
    g.attr (.id id) name = some a ↔
      ∃ attrs, (id, attrs) ∈ g.entities ∧ Fields.get? attrs name = some a := by
  simp only [← lookup_eq_some_iff h]
  unfold attr entity? has
  cases hlookup : g.entities.lookup id with
  | none => simp [hlookup]
  | some attrs => simp [hname, hlookup]

end Graph

end ConfGraph
