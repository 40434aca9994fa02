import ConfGraph.Proofs.Graph.Entity
import ConfGraph.Proofs.Graph.Growth

/-!
# Ids and the log

A run applies batches to the empty graph, one after the other.  The ids of the entities are the
numbers from one on, in order of creation, whatever the batches mixed; and the log is told by the
batches alone: one record for each batch that is not empty, numbered from one on, with the length of
the batch and the name of whoever contributed it.

* `batchLength`, `nonEmptyBatches`: what a run was given.
* `Graph.transactions_of_applyAll`: the log after some batches is the log before, and theirs.
* `dense_ids_and_gapless_log`: every graph of a run, and every later one.
-/

namespace ConfGraph

/-- The number of items of a batch. -/
def batchLength : Value → Nat
  | .list items => items.length
  | _ => 0

/-- The batches that do not count as empty. -/
def nonEmptyBatches (batches : List (Value × Value)) : List (Value × Value) :=
  batches.filter fun batch => !isEmptyBatch batch.1

/-! ## 1. One batch -/

/-- Reading looks at every item. -/
theorem length_of_opsShape {v : Value} {ops : List TxOp} (h : opsShape v = .ok ops) :
    ops.length = batchLength v := by
  obtain ⟨items, rfl, hitems⟩ := Shape.exists_items_of_list h
  exact hitems.length_eq.symm

theorem ofValue_of_isEmptyBatch {v : Value} {ops : List TxOp} (h : Batch.ofValue v = .ok ops)
    (hempty : isEmptyBatch v = true) : ops = [] := by
  unfold Batch.ofValue at h
  split at h
  · exact nomatch h
  · exact nomatch h
  · exact nomatch h
  · rw [if_pos hempty] at h
    exact (Except.ok.inj h).symm

/-- A batch that does not count as empty holds as many ops as it has items, and that is not none. -/
theorem ofValue_of_not_isEmptyBatch {v : Value} {ops : List TxOp} (h : Batch.ofValue v = .ok ops)
    (hempty : isEmptyBatch v = false) : ops ≠ [] ∧ ops.length = batchLength v := by
  unfold Batch.ofValue at h
  split at h
  · cases h
  · cases h
  · cases h
  · rw [hempty, if_neg Bool.false_ne_true] at h
    split at h
    · next ops' hread =>
      obtain rfl := Except.ok.inj h
      refine ⟨?_, length_of_opsShape hread⟩
      rintro rfl
      obtain ⟨items, rfl, hitems⟩ := Shape.exists_items_of_list hread
      cases hitems
      exact absurd hempty (by decide)
    · cases h

namespace Graph

variable {g g' : Graph}

/-- **What an accepted batch adds to the log**: nothing if it counts as empty, and then the graph stays
the very same; else one record. -/
theorem log_of_applyOps {ops provenance : Value} {next : Option Graph}
    (h : g.applyOps ops provenance = .ok next) :
    if isEmptyBatch ops then next = none
    else ∃ g₁, next = some g₁ ∧ g₁.basisTx = g.basisTx + 1 ∧
      g₁.transactions = g.transactions ++ [⟨g.basisTx + 1, batchLength ops, provenance⟩] := by
  cases next with
  | none =>
    obtain hread : Batch.ofValue ops = .ok [] := by
      unfold applyOps at h
      split at h
      · exact nomatch h
      · assumption
      · split at h
        · exact nomatch h
        · exact nomatch h
    cases hempty : isEmptyBatch ops with
    | true => rfl
    | false => exact absurd rfl (ofValue_of_not_isEmptyBatch hread hempty).1
  | some g₁ =>
    obtain ⟨txOps, hread, hne, d, -, rfl⟩ := applyOps_eq_some h
    cases hempty : isEmptyBatch ops with
    | true => exact absurd (ofValue_of_isEmptyBatch hread hempty) hne
    | false =>
      refine ⟨_, rfl, rfl, ?_⟩
      rw [← (ofValue_of_not_isEmptyBatch hread hempty).2]
      rfl

/-! ## 2. Batches one after the other -/

/-- **The log after some batches** is the log before, and a record for each batch that is not empty,
numbered on from where the log stood. -/
theorem transactions_of_applyAll {batches : List (Value × Value)}
    (h : g.applyAll batches = .ok g') :
    g'.basisTx = g.basisTx + (nonEmptyBatches batches).length ∧
      g'.transactions = g.transactions ++
        (nonEmptyBatches batches).mapIdx fun k batch =>
          ⟨g.basisTx + k + 1, batchLength batch.1, batch.2⟩ := by
  induction batches generalizing g with
  | nil =>
    obtain rfl := Except.ok.inj h
    exact ⟨rfl, (List.append_nil _).symm⟩
  | cons batch rest ih =>
    obtain ⟨ops, provenance⟩ := batch
    unfold applyAll at h
    split at h
    · exact nomatch h
    · next next happly =>
      obtain ⟨hbasis, hlog⟩ := ih h
      have hfirst := log_of_applyOps happly
      cases hempty : isEmptyBatch ops with
      | true =>
        rw [hempty, if_pos rfl] at hfirst
        subst hfirst
        simpa [nonEmptyBatches, hempty] using ⟨hbasis, hlog⟩
      | false =>
        rw [hempty, if_neg Bool.false_ne_true] at hfirst
        obtain ⟨g₁, rfl, hbasis₁, hlog₁⟩ := hfirst
        have hkept : nonEmptyBatches ((ops, provenance) :: rest)
            = (ops, provenance) :: nonEmptyBatches rest := by
          simp [nonEmptyBatches, hempty]
        rw [Option.getD_some] at hbasis hlog
        refine ⟨?_, ?_⟩
        · rw [hbasis, hbasis₁, hkept, List.length_cons]
          omega
        · rw [hlog, hlog₁, hbasis₁, hkept, List.mapIdx_cons, List.append_assoc]
          simp [Nat.add_assoc, Nat.add_comm 1]

end Graph

/-! ## 3. Runs -/

/-- **Ids without a gap and a log without a gap.**  Let a run have come to a graph, and go on to a
later one.

* The ids of the graph's entities are the numbers below the next id, in order, and no entity has an
  attribute under the name of its id.
* The graph counts its records, and these are told by the batches: the record at each position has
  the number of the position, and length and contributor of the batch at that position among those
  that are not empty.
* The later graph has the same records first, and all entities.
* Every batch that the graph accepts makes a graph of one transaction more, unless it is empty: then
  the graph stays the very same. -/
theorem dense_ids_and_gapless_log {batches later : List (Value × Value)} {g g' : Graph}
    (hrun : Graph.empty.applyAll batches = .ok g) (hlater : g.applyAll later = .ok g') :
    (0 < g.nextId ∧ g.entityIds = List.range' 1 (g.nextId - 1) ∧
      ∀ e ∈ g.entities, dbId ∉ Fields.names e.2) ∧
    (g.basisTx = g.transactions.length ∧
      g.transactions = (nonEmptyBatches batches).mapIdx fun k batch =>
        ⟨k + 1, batchLength batch.1, batch.2⟩) ∧
    (g.transactions <+: g'.transactions ∧ ∀ id ∈ g.entityIds, id ∈ g'.entityIds) ∧
    (∀ provenance, g.applyOps (.list []) provenance = .ok none) ∧
    ∀ ops provenance next, g.applyOps ops provenance = .ok next →
      if isEmptyBatch ops then next = none
      else ∃ g₁, next = some g₁ ∧ g₁.basisTx = g.basisTx + 1 := by
  have hreachable : g.Reachable := Graph.Grows.reachable ⟨batches, hrun⟩ .empty
  have hgrows : g.Grows g' := ⟨later, hlater⟩
  obtain ⟨hbasis, hlog⟩ := Graph.transactions_of_applyAll hrun
  have hnext : g.nextId = g.entities.length + 1 := hreachable.dense.nextId
  refine ⟨⟨?_, ?_, fun e he => hreachable.tidy.dbId_not_mem he⟩, ⟨?_, ?_⟩,
    ⟨hgrows.transactions_prefix, hgrows.entity_stays⟩, fun _ => rfl, fun ops provenance next h => ?_⟩
  · exact hnext ▸ Nat.succ_pos _
  · rw [hnext, Nat.add_sub_cancel]
    exact hreachable.dense.ids
  · rw [hbasis, hlog]
    simp [Graph.empty]
  · rw [hlog]
    simp [Graph.empty]
  · have hfirst := Graph.log_of_applyOps h
    cases hempty : isEmptyBatch ops with
    | true => simpa [hempty] using hfirst
    | false =>
      rw [hempty, if_neg Bool.false_ne_true] at hfirst
      obtain ⟨g₁, hg₁, hbasis₁, -⟩ := hfirst
      exact ⟨g₁, hg₁, hbasis₁⟩

/-- Two batches with an empty one between them; the second takes an attribute away again. -/
theorem ids_and_log_of_mutualGraph :
    Graph.empty.applyAll [(mutualOps, .null), (.list [], .null)] = .ok mutualGraph ∧
      mutualGraph.entityIds = [1, 2] ∧ mutualGraph.transactions = [⟨1, 4, .null⟩] ∧
      ∃ g', mutualGraph.applyAll [(.list [.record .host [("op", .str "retract"), ("entity", .nat 2),
          ("attr", .str "self")]], .str "later")] = .ok g' ∧
        mutualGraph.transactions <+: g'.transactions := by
  have hrun : Graph.empty.applyAll [(mutualOps, .null), (.list [], .null)] = .ok mutualGraph := rfl
  have hlater : mutualGraph.applyAll [(.list [.record .host [("op", .str "retract"),
      ("entity", .nat 2), ("attr", .str "self")]], .str "later")]
      = .ok ⟨2, 3, [(1, [("peer", .ref 2)]), (2, [("peers", .list [.list [.ref 1]])])], [],
          [⟨1, 4, .null⟩, ⟨2, 1, .str "later"⟩]⟩ := rfl
  obtain ⟨⟨-, hids, -⟩, ⟨-, hlog⟩, ⟨hearlier, -⟩, -⟩ := dense_ids_and_gapless_log hrun hlater
  exact ⟨hrun, hids, hlog, _, hlater, hearlier⟩

end ConfGraph
