import ConfGraph.Proofs.Script.Offering

/-!
# What stands in cells

Lists and records stand in cells, which lead to the cells of their parts.  Reading back what stands
behind a datum walks through these cells and remembers what it has found.  Where cells lead to cells
made before them only, the walk never comes back to a cell that it is still in, so what is read back is
what was put there.

* `Heap.Stands`: a datum stands for a value in a heap.
* `Heap.Stands.extends`, `Heap.Stands.unique`: it goes on to do so, and for no other value.
* `Heap.Stands.value`: what stands for a value is read back as that value.
-/

namespace ConfGraph.Script.Heap

variable {h h' : Heap}

/-! ## 1. What stands in a heap -/

/-- A datum is no cell, or one that is made before a position. -/
def Before (id : CellId) : Datum → Prop
  | .cell j => j < id
  | _ => True

/-- **A datum stands for a value.**  A cell leads to cells before it only: to its parts, and to the
ancestor of records, on which nothing has been written. -/
inductive Stands (h : Heap) : Datum → Value → Prop
  | undefined : Stands h .undefined .undefined
  | null : Stands h .null .null
  | bool (b : Bool) : Stands h (.bool b) (.bool b)
  | num (x : Float) : Stands h (.num x) (.num x)
  | str (s : String) : Stands h (.str s) (.str s)
  | ancestor {id : CellId} {r : Realm} (hget : h.get? id = some (Heap.ancestor r .object)) :
    Stands h (.cell id) (.record (originOf id) [])
  | list {id : CellId} {r : Realm} {parts : List (Datum × Value)}
    (hget : h.get? id = some (listCell r (parts.map (·.1)))) (before : ∀ p ∈ parts, Before id p.1)
    (stand : ∀ p ∈ parts, Stands h p.1 p.2) : Stands h (.cell id) (.list (parts.map (·.2)))
  | record {id : CellId} {r : Realm} {parts : List (String × Datum × Value)}
    (hget : h.get? id = some (recordCell r (parts.map fun p => (p.1, p.2.1))))
    (before : ∀ p ∈ parts, Before id p.2.1) (stand : ∀ p ∈ parts, Stands h p.2.1 p.2.2)
    (hroot : h.get? (r.root .object) = some (Heap.ancestor r .object)) (root_before : r.root .object < id) :
    Stands h (.cell id) (.record (originOf (r.root .object)) (parts.map fun p => (p.1, p.2.2)))

theorem Before.mono {id id' : CellId} {d : Datum} (hd : Before id d) (hle : id ≤ id') :
    Before id' d := by
  cases d with
  | cell j => exact Nat.lt_of_lt_of_le hd hle
  | _ => trivial

/-- What stands for a value goes on to do so when cells are added. -/
theorem Stands.extends {d : Datum} {v : Value} (hd : h.Stands d v) (hh : h.Extends h') :
    h'.Stands d v := by
  induction hd with
  | undefined => exact .undefined
  | null => exact .null
  | bool b => exact .bool b
  | num x => exact .num x
  | str s => exact .str s
  | ancestor hget => exact .ancestor (hh _ _ hget)
  | list hget before _ ih => exact .list (hh _ _ hget) before ih
  | record hget before _ hroot root_before ih =>
    exact .record (hh _ _ hget) before ih (hh _ _ hroot) root_before

/-- The items of a list are told from its cell. -/
theorem listCell_inj {r r' : Realm} {ds ds' : List Datum} (heq : listCell r ds = listCell r' ds') :
    ds = ds' := by
  have hitems : ds.zipIdx.map (fun i => (i.2, i.1)) = ds'.zipIdx.map (fun i => (i.2, i.1)) := by
    simp only [listCell, Cell.mk.injEq, Body.list.injEq] at heq
    exact heq.1.2
  have hback : ∀ ds : List Datum, (ds.zipIdx.map fun i => (i.2, i.1)).map (·.2) = ds := by
    simp [Function.comp_def]
  rw [← hback ds, hitems, hback]

theorem map_eq_map_of_key {α β γ : Type} {key : α → β} {f : α → γ} {ps qs : List α}
    (hkeys : ps.map key = qs.map key) (heq : ∀ p ∈ ps, ∀ q ∈ qs, key p = key q → f p = f q) :
    ps.map f = qs.map f := by
  induction ps generalizing qs with
  | nil =>
    obtain rfl : qs = [] := by simpa using hkeys.symm
    rfl
  | cons p rest ih =>
    cases qs with
    | nil => cases hkeys
    | cons q others =>
      obtain ⟨hfirst, hrest⟩ := List.cons.inj hkeys
      rw [List.map_cons, List.map_cons, heq p List.mem_cons_self q List.mem_cons_self hfirst,
        ih hrest fun p hp q hq => heq p (List.mem_cons_of_mem _ hp) q (List.mem_cons_of_mem _ hq)]

/-- **A datum stands for one value only.** -/
theorem Stands.unique {d : Datum} {v v' : Value} (hv : h.Stands d v) (hv' : h.Stands d v') :
    v = v' := by
  induction hv generalizing v' with
  | undefined => cases hv'; rfl
  | null => cases hv'; rfl
  | bool b => cases hv'; rfl
  | num x => cases hv'; rfl
  | str s => cases hv'; rfl
  | ancestor hget =>
    cases hv' with
    | ancestor => rfl
    | list hget' => cases (Option.some.inj (hget.symm.trans hget'))
    | record hget' => cases congrArg Cell.home (Option.some.inj (hget.symm.trans hget'))
  | list hget _ _ ih =>
    cases hv' with
    | ancestor hget' => cases (Option.some.inj (hget'.symm.trans hget))
    | list hget' _ stand' =>
      have hparts := listCell_inj (Option.some.inj (hget.symm.trans hget'))
      refine congrArg Value.list (map_eq_map_of_key hparts fun p hp q hq hpq => ?_)
      exact ih p hp (hpq ▸ stand' q hq)
    | record hget' => cases (Option.some.inj (hget.symm.trans hget'))
  | record hget _ _ _ _ ih =>
    cases hv' with
    | ancestor hget' => cases congrArg Cell.home (Option.some.inj (hget'.symm.trans hget))
    | list hget' => cases (Option.some.inj (hget.symm.trans hget'))
    | record hget' _ stand' =>
      have hcells := Option.some.inj (hget.symm.trans hget')
      simp only [recordCell, Cell.mk.injEq, Option.some.injEq] at hcells
      obtain ⟨-, hparts, hroot, -⟩ := hcells
      rw [hroot]
      refine congrArg (Value.record _) (map_eq_map_of_key hparts fun p hp q hq hpq => ?_)
      obtain ⟨hname, hdatum⟩ := Prod.mk.inj hpq
      exact Prod.ext hname (ih p hp (hdatum ▸ stand' q hq))

/-! ## 2. Reading back -/

/-- All values in a collection are those for which their cells stand. -/
def Right (h : Heap) (seen : Seen) : Prop :=
  ∀ id w, seen.get? id = some w → ∀ v, h.Stands (.cell id) v → w = v

/-- A walk has found nothing wrong, and cut nothing short. -/
structure Walk.Right (h : Heap) (w : Walk) : Prop where
  whole : h.Right w.whole
  here : h.Right w.here
  isWhole : w.isWhole = true

/-- One part of a cell on a walk through the parts. -/
def visit (h : Heap) (depth : Nat) (path : List CellId) (w : Walk) : Datum → Walk
  | .cell part =>
    if w.here.contains part then w
    else
      let (v, isWhole, whole) := h.valueAt depth path part w.whole
      ⟨whole, w.here.insert part v, w.isWhole && isWhole⟩
  | _ => w

/-- A cell that is not on the path and has not been found before. -/
theorem valueAt_of_new {depth : Nat} {path : List CellId} {id : CellId} {whole : Seen} {cell : Cell}
    (hget : h.get? id = some cell) (hpath : id ∉ path) (hwhole : whole.get? id = none) :
    h.valueAt (depth + 1) path id whole =
      let w := (h.parts id cell).foldl (h.visit depth (id :: path)) ⟨whole, ∅, true⟩
      let v := h.cellValue w.here.value id cell
      (v, w.isWhole, if w.isWhole then w.whole.insert id v else w.whole) := by
  have hcount : ¬ path.count id ≥ rounds := by
    rw [List.count_eq_zero.mpr hpath]
    decide
  rw [valueAt, hwhole, hget]
  simp only [if_neg hcount]
  rfl

/-- A cell is read back as a value, wherever it is come to by cells made after it. -/
def ReadBack (h : Heap) (id : CellId) (v : Value) : Prop :=
  ∀ depth path whole, id < depth → (∀ j ∈ path, id < j) → h.Right whole →
    ∃ whole', h.valueAt depth path id whole = (v, true, whole') ∧ h.Right whole'

theorem Right.insert {seen : Seen} (hseen : h.Right seen) {id : CellId} {v : Value}
    (hv : h.Stands (.cell id) v) : h.Right (seen.insert id v) := by
  intro id' w hget v' hv'
  rw [Std.TreeMap.get?_eq_getElem?, Std.TreeMap.getElem?_insert] at hget
  split at hget
  · next hid =>
    obtain rfl := Option.some.inj hget
    obtain rfl := Nat.compare_eq_eq.mp hid
    exact hv.unique hv'
  · exact hseen id' w hget v' hv'

/-- What a walk has found of a part is the value for which it stands. -/
theorem Right.value {seen : Seen} (hseen : h.Right seen) {d : Datum} {v : Value} (hv : h.Stands d v)
    (hthere : ∀ id, d = .cell id → seen.contains id = true) : seen.value d = v := by
  have hcell : ∀ id, d = .cell id → seen.value d = v := by
    rintro id rfl
    obtain ⟨w, hw⟩ := Option.isSome_iff_exists.mp
      (Std.TreeMap.isSome_getElem?_eq_contains.trans (hthere id rfl))
    have hfound : seen.get? id = some w := hw
    rw [Seen.value, hfound, Option.getD_some]
    exact hseen id w hfound v hv
  cases hv with
  | ancestor => exact hcell _ rfl
  | list => exact hcell _ rfl
  | record => exact hcell _ rfl
  | _ => rfl

/-- A part can be read back on a walk that has come to it by some path. -/
def Readable (h : Heap) (depth : Nat) (path : List CellId) (id : CellId) : Prop :=
  (∃ v, h.Stands (.cell id) v ∧ h.ReadBack id v) ∧ id < depth ∧ ∀ j ∈ path, id < j

/-- A walk goes right from one part on, loses nothing that it has found, and finds that part. -/
theorem visit_right {depth : Nat} {path : List CellId} {w : Walk} (hw : w.Right h) {d : Datum}
    (hd : ∀ id, d = .cell id → h.Readable depth path id) :
    (h.visit depth path w d).Right h ∧
      (∀ id, w.here.contains id = true → (h.visit depth path w d).here.contains id = true) ∧
      ∀ id, d = .cell id → (h.visit depth path w d).here.contains id = true := by
  cases d with
  | cell part =>
    obtain ⟨⟨v, hstands, hread⟩, hdepth, hpath⟩ := hd part rfl
    by_cases hthere : w.here.contains part = true
    · have hvisit : h.visit depth path w (.cell part) = w := if_pos hthere
      rw [hvisit]
      refine ⟨hw, fun _ hid => hid, fun id hid => ?_⟩
      obtain rfl := Datum.cell.inj hid
      exact hthere
    · obtain ⟨whole, hvalue, hwhole⟩ := hread depth path w.whole hdepth hpath hw.whole
      have hvisit : h.visit depth path w (.cell part)
          = ⟨whole, w.here.insert part v, w.isWhole && true⟩ := by
        rw [visit, if_neg hthere, hvalue]
      rw [hvisit]
      refine ⟨⟨hwhole, hw.here.insert hstands, by rw [hw.isWhole]; rfl⟩, fun id hid => ?_,
        fun id hid => ?_⟩
      · rw [Std.TreeMap.contains_insert, hid, Bool.or_true]
      · obtain rfl := Datum.cell.inj hid
        exact Std.TreeMap.contains_insert_self
  | _ =>
    refine ⟨hw, fun _ hid => hid, fun _ hid => ?_⟩
    cases hid

/-- **A walk through parts that can be read back** goes right and finds them all. -/
theorem walk_right (depth : Nat) (path : List CellId) : ∀ (ds : List Datum) (w : Walk),
    w.Right h → (∀ id, .cell id ∈ ds → h.Readable depth path id) →
    (ds.foldl (h.visit depth path) w).Right h ∧
      (∀ id, w.here.contains id = true →
        (ds.foldl (h.visit depth path) w).here.contains id = true) ∧
      ∀ id, .cell id ∈ ds → (ds.foldl (h.visit depth path) w).here.contains id = true
  | [], w, hw, _ => ⟨hw, fun _ hid => hid, fun _ hid => nomatch hid⟩
  | d :: rest, w, hw, hds => by
    obtain ⟨hright, hkept, hfirst⟩ := visit_right hw (d := d) fun id hid =>
      hds id (hid ▸ List.mem_cons_self)
    obtain ⟨hright', hkept', hrest⟩ := walk_right depth path rest (h.visit depth path w d) hright
      fun id hid => hds id (List.mem_cons_of_mem _ hid)
    refine ⟨hright', fun id hid => hkept' id (hkept id hid), fun id hid => ?_⟩
    rcases List.mem_cons.mp hid with hid | hid
    · exact hkept' id (hfirst id hid.symm)
    · exact hrest id hid

/-- **A cell is read back** if all its parts are, which are made before it. -/
theorem readBack_of_parts {id : CellId} {cell : Cell} {v : Value} (hget : h.get? id = some cell)
    (hv : h.Stands (.cell id) v)
    (hparts : ∀ part, .cell part ∈ h.parts id cell →
      part < id ∧ ∃ w, h.Stands (.cell part) w ∧ h.ReadBack part w)
    (hvalue : ∀ behind : Datum → Value,
      (∀ d ∈ h.parts id cell, ∀ w, h.Stands d w → behind d = w) →
      h.cellValue behind id cell = v) : h.ReadBack id v := by
  intro depth path whole hdepth hpath hwhole
  obtain ⟨depth, rfl⟩ : ∃ n, depth = n + 1 := Nat.exists_eq_add_one_of_ne_zero (Nat.ne_zero_of_lt hdepth)
  cases hfound : whole.get? id with
  | some w =>
    refine ⟨whole, ?_, hwhole⟩
    rw [valueAt, hfound, hwhole id w hfound v hv]
  | none =>
    have hnew : id ∉ path := fun hmem => Nat.lt_irrefl id (hpath id hmem)
    have hempty : h.Right ∅ := fun id w hget => by simp at hget
    obtain ⟨hright, -, hthere⟩ := walk_right depth (id :: path) (h.parts id cell) ⟨whole, ∅, true⟩
      ⟨hwhole, hempty, rfl⟩ fun part hpart => by
        obtain ⟨hlt, hread⟩ := hparts part hpart
        refine ⟨hread, Nat.lt_of_lt_of_le hlt (Nat.lt_succ_iff.mp hdepth), fun j hj => ?_⟩
        rcases List.mem_cons.mp hj with rfl | hj
        · exact hlt
        · exact Nat.lt_trans hlt (hpath j hj)
    have hback := hvalue _ fun d hd w hw =>
      hright.here.value hw fun part hpart => hthere part (hpart ▸ hd)
    rw [valueAt_of_new hget hnew hfound]
    dsimp only
    rw [hback, hright.isWhole]
    exact ⟨_, rfl, hright.whole.insert hv⟩

theorem spread_zipIdx : ∀ (vs : List Value) (i : Nat),
    spread i vs.length ((vs.zipIdx i).map fun x => (x.2, x.1)) = vs
  | [], _ => rfl
  | v :: rest, i => by
    rw [List.zipIdx_cons, List.map_cons, List.length_cons, spread, if_pos rfl,
      spread_zipIdx rest (i + 1)]

/-- The value of a list, by what is behind its items. -/
theorem cellValue_list (id : CellId) (r : Realm) {parts : List (Datum × Value)}
    {behind : Datum → Value} (hbehind : ∀ p ∈ parts, behind p.1 = p.2) :
    h.cellValue behind id (listCell r (parts.map (·.1))) = .list (parts.map (·.2)) := by
  have hvalues : (parts.map (·.1)).map behind = parts.map (·.2) := by
    rw [List.map_map]
    exact List.map_congr_left hbehind
  have hmap : ∀ ds : List Datum, (ds.zipIdx.map fun i => (i.2, i.1)).map
      (fun i => (i.1, behind i.2)) = (ds.map behind).zipIdx.map fun i => (i.2, i.1) := by
    intro ds
    rw [List.zipIdx_map, List.map_map, List.map_map]
    rfl
  have hitems := hmap (parts.map (·.1))
  rw [hvalues] at hitems
  have hspread := spread_zipIdx (parts.map (·.2)) 0
  rw [List.length_map] at hspread
  show Value.list (spread 0 (parts.map (·.1)).length _) = _
  rw [hitems, List.length_map, hspread]

/-- The value of a record whose ancestor is as it was made, by what is behind its fields. -/
theorem cellValue_record {r : Realm} (hroot : h.get? (r.root .object) = some (ancestor r .object))
    (id : CellId) {parts : List (String × Datum × Value)} {behind : Datum → Value}
    (hbehind : ∀ p ∈ parts, behind p.2.1 = p.2.2) :
    h.cellValue behind id (recordCell r (parts.map fun p => (p.1, p.2.1)))
      = .record (originOf (r.root .object)) (parts.map fun p => (p.1, p.2.2)) := by
  have hplain : (h.isPlainAncestor (r.root .object)
      && (h.get? (r.root .object)).any (·.home == some .object)) = true := by
    simp [isPlainAncestor, hroot, Heap.ancestor, Family.above?]
  have hfields : (parts.map fun p => (p.1, p.2.1)).map (fun f => (f.1, behind f.2))
      = parts.map fun p => (p.1, p.2.2) := by
    rw [List.map_map]
    exact List.map_congr_left fun p hp => congrArg (Prod.mk p.1) (hbehind p hp)
  rw [← hfields]
  exact if_pos hplain

/-- The ancestor of records has no parts. -/
theorem readBack_ancestor {id : CellId} {r : Realm} (hget : h.get? id = some (ancestor r .object)) :
    h.ReadBack id (.record (originOf id) []) := by
  refine readBack_of_parts hget (.ancestor hget) (fun part hpart => ?_) fun behind _ => rfl
  exact absurd hpart List.not_mem_nil

/-- **What stands for a value is read back**, one case for each way of standing for one. -/
theorem Stands.readBack {d : Datum} {v : Value} (hd : h.Stands d v) :
    ∀ id, d = .cell id → h.ReadBack id v := by
  induction hd with
  | ancestor hget =>
    rintro _ ⟨⟩
    exact readBack_ancestor hget
  | @list id r parts hget before stand ih =>
    rintro _ ⟨⟩
    have hdata : h.parts id (listCell r (parts.map (·.1))) = parts.map (·.1) := by
      simp [Heap.parts, listCell, Function.comp_def]
    refine readBack_of_parts hget (.list hget before stand) (fun part hpart => ?_)
      fun behind hbehind => cellValue_list id r fun p hp => ?_
    · rw [hdata] at hpart
      obtain ⟨p, hp, hpart⟩ := List.mem_map.mp hpart
      have hbefore := before p hp
      rw [hpart] at hbefore
      exact ⟨hbefore, p.2, hpart ▸ stand p hp, ih p hp part hpart⟩
    · rw [hdata] at hbehind
      exact hbehind p.1 (List.mem_map_of_mem hp) p.2 (stand p hp)
  | @record id r parts hget before stand hroot root_before ih =>
    rintro _ ⟨⟩
    let cell : Cell := recordCell r (parts.map fun p => (p.1, p.2.1))
    have hdata : h.parts id cell = parts.map (fun p => p.2.1) ++ [.cell (r.root .object)] := by
      simp [cell, Heap.parts, recordCell, Function.comp_def]
    refine readBack_of_parts hget (.record hget before stand hroot root_before) (fun part hpart => ?_)
      fun behind hbehind => cellValue_record hroot id fun p hp => ?_
    · rw [hdata] at hpart
      rcases List.mem_append.mp hpart with hpart | hpart
      · obtain ⟨p, hp, hpart⟩ := List.mem_map.mp hpart
        have hbefore := before p hp
        rw [hpart] at hbefore
        exact ⟨hbefore, p.2.2, hpart ▸ stand p hp, ih p hp part hpart⟩
      · obtain rfl := Datum.cell.inj (List.mem_singleton.mp hpart)
        exact ⟨root_before, _, .ancestor hroot, readBack_ancestor hroot⟩
    · refine hbehind _ ?_ _ (stand p hp)
      rw [hdata]
      exact List.mem_append_left _ (List.mem_map_of_mem hp)
  | _ => exact fun _ h => nomatch h

/-- **What stands for a value is read back as that value.** -/
theorem Stands.value {d : Datum} {v : Value} (hd : h.Stands d v) : h.value d = v := by
  have hcell : ∀ id, d = .cell id → h.value d = v := by
    rintro id rfl
    have hlt : id < rounds * h.cells.size + 1 := by
      have : id < h.cells.size := by
        cases hd with
        | ancestor hget => exact lt_size_of_get? hget
        | list hget => exact lt_size_of_get? hget
        | record hget => exact lt_size_of_get? hget
      exact Nat.lt_succ_of_lt (Nat.lt_of_lt_of_le this (Nat.le_mul_of_pos_left _ (by decide)))
    have hempty : h.Right ∅ := fun id w hget => by simp at hget
    obtain ⟨whole, hvalue, -⟩ := hd.readBack id rfl _ [] ∅ hlt (by simp) hempty
    exact congrArg (·.1) hvalue
  cases hd with
  | ancestor => exact hcell _ rfl
  | list => exact hcell _ rfl
  | record => exact hcell _ rfl
  | _ => rfl

end ConfGraph.Script.Heap
