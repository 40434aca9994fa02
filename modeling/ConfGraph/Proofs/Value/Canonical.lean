import ConfGraph.Proofs.Text.Quoted
import ConfGraph.Proofs.Value.Alike

/-!
# Canonical text tells the value

Canonical text is decoded in one way only.  Its first character tells the kind of the value; a quoted
text ends by itself and a number by the first character that is none of a numeral's; a list and a
record end by their bracket, which stands where no item begins.  So the texts of two values, whatever
stands after them, agree only if the values are alike and the rest is the same.

* `Value.join_append_inj`: items between commas up to a closing bracket.
* `Value.canonical_append_inj`: a canonical text tells where it ends, and the value.
* `Value.canonical_eq_iff`: canonical texts agree exactly for values that are alike.
* `canonical_text_tells_the_value`: the same of texts as they are compared, with what likeness means of
  lists and of records.
-/

namespace ConfGraph.Value

/-! ## 1. Items between commas -/

/-- What may stand after the text of a value: nothing, a comma or a closing bracket. -/
def Closes (r : List Char) : Prop := ∀ c ∈ r.head?, c = ',' ∨ c = ']' ∨ c = '\x7d'

theorem closes_nil : Closes [] := nofun

theorem closes_comma (r : List Char) : Closes (',' :: r) := by
  intro c hc
  exact .inl (Option.some.inj hc).symm

theorem closes_bracket {close : Char} (h : close = ']' ∨ close = '\x7d') (r : List Char) :
    Closes (close :: r) := by
  intro c hc
  obtain rfl := Option.some.inj hc
  exact .inr h

theorem Closes.not_isNumeral {r : List Char} (h : Closes r) :
    ∀ c ∈ r.head?, Decimal.isNumeral c = false := by
  intro c hc
  rcases h c hc with rfl | rfl | rfl
  · decide
  · decide
  · decide

theorem joinWith_cons (sep a : List Char) (rest : List (List Char)) :
    joinWith sep (a :: rest) = a ++ rest.flatMap fun b => sep ++ b := by
  induction rest generalizing a with
  | nil => simp [joinWith]
  | cons b rest ih =>
    have hstep : joinWith sep (a :: b :: rest) = a ++ sep ++ joinWith sep (b :: rest) := rfl
    rw [hstep, ih, List.flatMap_cons, List.append_assoc, List.append_assoc]

section

variable {α : Type} {R : α → α → Prop} {enc : α → List Char} {close : Char} {r t : List Char}

/-- The items after the first, each after a comma. -/
def tail (enc : α → List Char) (as : List α) : List Char := as.flatMap fun a => ',' :: enc a

theorem closes_tail (hclose : close = ']' ∨ close = '\x7d') (as : List α) (r : List Char) :
    Closes (tail enc as ++ close :: r) := by
  cases as with
  | nil => exact closes_bracket hclose r
  | cons a rest => exact closes_comma _

theorem tail_append_inj (hclose : close = ']' ∨ close = '\x7d') {as bs : List α}
    (hinj : ∀ a ∈ as, ∀ b ∈ bs, ∀ r t, Closes r → Closes t → enc a ++ r = enc b ++ t →
      R a b ∧ r = t)
    (h : tail enc as ++ close :: r = tail enc bs ++ close :: t) :
    List.Forall₂ R as bs ∧ r = t := by
  have hcomma : close ≠ ',' := by
    rcases hclose with rfl | rfl
    · decide
    · decide
  induction as generalizing bs with
  | nil =>
    cases bs with
    | nil => exact ⟨.nil, (List.cons.inj h).2⟩
    | cons b bs => exact absurd (List.cons.inj h).1 hcomma
  | cons a as ih =>
    cases bs with
    | nil => exact absurd (List.cons.inj h).1.symm hcomma
    | cons b bs =>
      have hsplit : enc a ++ (tail enc as ++ close :: r) = enc b ++ (tail enc bs ++ close :: t) := by
        simpa [tail] using h
      obtain ⟨hab, hrest⟩ := hinj a List.mem_cons_self b List.mem_cons_self _ _
        (closes_tail hclose as r) (closes_tail hclose bs t) hsplit
      obtain ⟨hall, hrt⟩ := ih (fun a' ha' b' hb' =>
        hinj a' (List.mem_cons_of_mem a ha') b' (List.mem_cons_of_mem b hb')) hrest
      exact ⟨.cons hab hall, hrt⟩

/-- Some item does not begin like the closing bracket. -/
def Opens (enc : α → List Char) (close : Char) (a : α) : Prop :=
  ∃ c cs, enc a = c :: cs ∧ c ≠ close

theorem ne_join_of_opens {a : α} (hopen : Opens enc close a) (rest : List Char) :
    close :: r ≠ enc a ++ rest := by
  obtain ⟨c, cs, hc, hne⟩ := hopen
  intro h
  rw [hc] at h
  exact hne (List.cons.inj h).1.symm

/-- **Items between commas up to a closing bracket** are told apart if each of them is, and none begins
like the bracket. -/
theorem join_append_inj (hclose : close = ']' ∨ close = '\x7d') {as bs : List α}
    (hinj : ∀ a ∈ as, ∀ b ∈ bs, ∀ r t, Closes r → Closes t → enc a ++ r = enc b ++ t →
      R a b ∧ r = t)
    (has : ∀ a ∈ as, Opens enc close a) (hbs : ∀ b ∈ bs, Opens enc close b)
    (h : joinWith [','] (as.map enc) ++ close :: r = joinWith [','] (bs.map enc) ++ close :: t) :
    List.Forall₂ R as bs ∧ r = t := by
  cases as with
  | nil =>
    cases bs with
    | nil => exact ⟨.nil, (List.cons.inj h).2⟩
    | cons b bs =>
      rw [List.map_cons, joinWith_cons, List.append_assoc] at h
      exact absurd h (ne_join_of_opens (hbs b List.mem_cons_self) _)
  | cons a as =>
    cases bs with
    | nil =>
      rw [List.map_cons, joinWith_cons, List.append_assoc] at h
      exact absurd h.symm (ne_join_of_opens (has a List.mem_cons_self) _)
    | cons b bs =>
      have hsplit : enc a ++ (tail enc as ++ close :: r) = enc b ++ (tail enc bs ++ close :: t) := by
        simpa [joinWith_cons, List.flatMap_map, tail] using h
      obtain ⟨hab, hrest⟩ := hinj a List.mem_cons_self b List.mem_cons_self _ _
        (closes_tail hclose as r) (closes_tail hclose bs t) hsplit
      obtain ⟨hall, hrt⟩ := tail_append_inj hclose (fun a' ha' b' hb' =>
        hinj a' (List.mem_cons_of_mem a ha') b' (List.mem_cons_of_mem b hb')) hrest
      exact ⟨.cons hab hall, hrt⟩

end

/-! ## 2. First characters -/

/-- The kind of a value, as a number. -/
def kindIndex : Value → Nat
  | .null => 0
  | .bool _ => 1
  | .num _ => 2
  | .str _ => 3
  | .list _ => 4
  | .record .. => 5
  | _ => 6

/-- The kind that a first character tells. -/
def leadIndex (c : Char) : Nat :=
  if Decimal.isNumeral c then 2
  else if c = 'n' then 0
  else if c = 't' ∨ c = 'f' then 1
  else if c = '"' then 3
  else if c = '[' then 4
  else if c = '\x7b' then 5
  else 6

/-- **The first character of a canonical text tells the kind of the value.** -/
theorem Proper.lead {v : Value} (h : v.Proper) :
    ∃ c cs, v.canonical = c :: cs ∧ leadIndex c = v.kindIndex := by
  cases h with
  | null => exact ⟨'n', ['u', 'l', 'l'], rfl, by decide⟩
  | bool b =>
    cases b with
    | false => exact ⟨'f', ['a', 'l', 's', 'e'], rfl, by decide⟩
    | true => exact ⟨'t', ['r', 'u', 'e'], rfl, by decide⟩
  | @num x finite =>
    have hnumeral := Number.isNumeral_text x
    have htext : (Value.num x).canonical = Number.text x := if_pos finite
    cases hcs : Number.text x with
    | nil => exact absurd hcs (Number.text_ne_nil x)
    | cons c cs =>
      rw [hcs] at hnumeral htext
      exact ⟨c, cs, htext, if_pos (hnumeral c List.mem_cons_self)⟩
  | str s =>
    have htext := Text.quote_eq s
    exact ⟨'"', _, htext, rfl⟩
  | list => exact ⟨'[', _, rfl, rfl⟩
  | record => exact ⟨'\x7b', _, rfl, rfl⟩

theorem kindIndex_eq {v w : Value} (hv : v.Proper) (hw : w.Proper) {r t : List Char}
    (h : v.canonical ++ r = w.canonical ++ t) : v.kindIndex = w.kindIndex := by
  obtain ⟨c, cs, hc, hkind⟩ := hv.lead
  obtain ⟨c', cs', hc', hkind'⟩ := hw.lead
  rw [hc, hc'] at h
  rw [← hkind, ← hkind', (List.cons.inj h).1]

theorem Proper.opens {v : Value} (h : v.Proper) : Opens canonical ']' v := by
  obtain ⟨c, cs, hc, hkind⟩ := h.lead
  refine ⟨c, cs, hc, ?_⟩
  rintro rfl
  cases h <;> exact nomatch hkind

/-! ## 3. Entries -/

/-- The text of an entry of a record. -/
def entryCanonical (f : String × Value) : List Char := entryText (f.1, f.2.canonical)

theorem canonical_record (origin : Origin) (fields : List (String × Value)) :
    (record origin fields).canonical
      = '\x7b' :: (joinWith [','] ((sortByName fields).map entryCanonical) ++ ['\x7d']) := by
  rw [canonical, canonicalFields_eq_map, sortByName_map, List.map_map]
  rfl

theorem opens_entry (f : String × Value) : Opens entryCanonical '\x7d' f :=
  ⟨'"', _, rfl, by decide⟩

/-- An entry tells where it ends, if what it holds does. -/
theorem entry_append_inj {f g : String × Value} {r t : List Char}
    (hvalue : ∀ r t, Closes r → Closes t → f.2.canonical ++ r = g.2.canonical ++ t →
      Alike f.2 g.2 ∧ r = t)
    (hr : Closes r) (ht : Closes t) (h : entryCanonical f ++ r = entryCanonical g ++ t) :
    (f.1 = g.1 ∧ Alike f.2 g.2) ∧ r = t := by
  unfold entryCanonical entryText at h
  rw [List.append_assoc, List.append_assoc] at h
  obtain ⟨hname, hrest⟩ := Text.quote_append_inj h
  obtain ⟨halike, hrt⟩ := hvalue r t hr ht (List.cons.inj hrest).2
  exact ⟨⟨hname, halike⟩, hrt⟩

theorem rel_get?_cons {α : Type} {R : α → α → Prop} {n : String} {a b : α} {fs gs : Fields α}
    {name : String} (hfirst : R a b)
    (hrest : Option.Rel R (Fields.get? fs name) (Fields.get? gs name)) :
    Option.Rel R (Fields.get? ((n, a) :: fs) name) (Fields.get? ((n, b) :: gs) name) := by
  rw [Fields.get?_cons, Fields.get?_cons]
  split
  · exact .some hfirst
  · exact hrest

theorem rel_get?_of_forall₂ {R : Value → Value → Prop} {fs gs : List (String × Value)}
    (h : List.Forall₂ (fun f g => f.1 = g.1 ∧ R f.2 g.2) fs gs) (name : String) :
    Option.Rel R (Fields.get? fs name) (Fields.get? gs name) := by
  induction h with
  | nil => exact .none
  | @cons f g _ _ hfirst _ ih =>
    obtain ⟨n, v⟩ := f
    obtain ⟨m, w⟩ := g
    obtain ⟨rfl, hvalue⟩ : n = m ∧ R v w := hfirst
    exact rel_get?_cons hvalue ih

theorem get?_sortByName {fields : List (String × Value)} (h : (Fields.names fields).Nodup)
    (name : String) : Fields.get? (sortByName fields) name = Fields.get? fields name :=
  (Fields.get?_eq_of_perm h (sortByName_perm fields).symm name).symm

/-! ## 4. Values -/

/-- **A canonical text tells where it ends, and the value**, up to likeness. -/
theorem canonical_append_inj {v w : Value} {r t : List Char} (hv : v.Proper) (hw : w.Proper)
    (hr : Closes r) (ht : Closes t) (h : v.canonical ++ r = w.canonical ++ t) :
    Alike v w ∧ r = t := by
  have hkind := kindIndex_eq hv hw h
  induction hv generalizing w r t with
  | null =>
    cases hw with
    | null => exact ⟨.null, List.append_cancel_left h⟩
    | _ => simp [kindIndex] at hkind
  | bool b =>
    cases hw with
    | bool b' =>
      cases b with
      | false =>
        cases b' with
        | false => exact ⟨.bool false, List.append_cancel_left h⟩
        | true => simp [canonical] at h
      | true =>
        cases b' with
        | false => simp [canonical] at h
        | true => exact ⟨.bool true, List.append_cancel_left h⟩
    | _ => simp [kindIndex] at hkind
  | num finite =>
    cases hw with
    | num finite' =>
      simp only [canonical, numberJson, finite, finite', if_true] at h
      obtain ⟨htext, hrt⟩ := Number.text_append_inj hr.not_isNumeral ht.not_isNumeral h
      exact ⟨.num (Number.text_injective finite finite' htext), hrt⟩
    | _ => simp [kindIndex] at hkind
  | str s =>
    cases hw with
    | str s' =>
      obtain ⟨rfl, hrt⟩ := Text.quote_append_inj h
      exact ⟨.str s, hrt⟩
    | _ => simp [kindIndex] at hkind
  | @list vs items_proper ih =>
    cases hw with
    | @list ws items_proper' =>
      have hitems : joinWith [','] (vs.map canonical) ++ ']' :: r
          = joinWith [','] (ws.map canonical) ++ ']' :: t := by
        simpa [canonical] using h
      obtain ⟨hall, hrt⟩ := join_append_inj (R := Alike) (.inl rfl)
        (fun v hv w hw r t hr ht heq =>
          ih v hv (items_proper' w hw) hr ht heq
            (kindIndex_eq (items_proper v hv) (items_proper' w hw) heq))
        (fun v hv => (items_proper v hv).opens) (fun w hw => (items_proper' w hw).opens) hitems
      exact ⟨.list hall, hrt⟩
    | _ => simp [kindIndex] at hkind
  | @record origin fs nodup fields_proper ih =>
    cases hw with
    | @record origin' gs nodup' fields_proper' =>
      have hentries : joinWith [','] ((sortByName fs).map entryCanonical) ++ '\x7d' :: r
          = joinWith [','] ((sortByName gs).map entryCanonical) ++ '\x7d' :: t := by
        rw [canonical_record, canonical_record] at h
        simpa using h
      have hmem := fun f hf => (sortByName_perm fs).subset (a := f) hf
      have hmem' := fun g hg => (sortByName_perm gs).subset (a := g) hg
      obtain ⟨hall, hrt⟩ := join_append_inj (R := fun f g => f.1 = g.1 ∧ Alike f.2 g.2)
        (.inr rfl)
        (fun f hf g hg r t hr ht heq => entry_append_inj
          (fun r t hr ht heq => ih f (hmem f hf) (fields_proper' g (hmem' g hg)) hr ht heq
            (kindIndex_eq (fields_proper f (hmem f hf)) (fields_proper' g (hmem' g hg)) heq))
          hr ht heq)
        (fun f _ => opens_entry f) (fun g _ => opens_entry g) hentries
      refine ⟨.record fun name => ?_, hrt⟩
      rw [← get?_sortByName nodup, ← get?_sortByName nodup']
      exact rel_get?_of_forall₂ hall name
    | _ => simp [kindIndex] at hkind

/-- **Canonical texts agree exactly for values that are alike.** -/
theorem canonical_eq_iff {v w : Value} (hv : v.Proper) (hw : w.Proper) :
    v.canonical = w.canonical ↔ Alike v w := by
  refine ⟨fun h => ?_, canonical_eq_of_alike hv hw⟩
  have happend : v.canonical ++ [] = w.canonical ++ [] := by rw [h]
  exact (canonical_append_inj hv hw closes_nil closes_nil happend).1

/-! ## 5. What likeness means -/

theorem alike_list_iff {vs ws : List Value} :
    Alike (list vs) (list ws) ↔ List.Forall₂ Alike vs ws := by
  constructor
  · rintro ⟨⟩
    assumption
  · exact .list

/-- **Records are alike** if the fields of one, put in some other order, pair off with those of the
other, name by name. -/
theorem alike_record_iff {o o' : Origin} {fs gs : List (String × Value)}
    (hfs : (Fields.names fs).Nodup) (hgs : (Fields.names gs).Nodup) :
    Alike (record o fs) (record o' gs) ↔
      ∃ gs', gs'.Perm gs ∧ List.Forall₂ (fun f g => f.1 = g.1 ∧ Alike f.2 g.2) fs gs' := by
  constructor
  · intro h
    have partner : ∀ f ∈ fs, ∃ w, Fields.get? gs f.1 = some w ∧ Alike f.2 w := by
      intro f hf
      have hrel := h.get? f.1
      rw [Fields.get?_of_mem hfs hf] at hrel
      generalize Fields.get? gs f.1 = held at hrel
      cases hrel with
      | some halike => exact ⟨_, rfl, halike⟩
    have found : ∀ f ∈ fs, (f.1, (Fields.get? gs f.1).getD f.2) ∈ gs := by
      intro f hf
      obtain ⟨w, hw, -⟩ := partner f hf
      rw [hw]
      exact Fields.mem_of_get? hw
    refine ⟨fs.map fun f => (f.1, (Fields.get? gs f.1).getD f.2), ?_, ?_⟩
    · have hnodup : (Fields.names (fs.map fun f => (f.1, (Fields.get? gs f.1).getD f.2))).Nodup := by
        rw [Fields.names, List.map_map]
        exact hfs
      refine (List.perm_ext_iff_of_nodup (.of_map Prod.fst hnodup) (.of_map Prod.fst hgs)).mpr
        fun g => ⟨fun hg => ?_, fun hg => ?_⟩
      · obtain ⟨f, hf, rfl⟩ := List.mem_map.mp hg
        exact found f hf
      · have hget := Fields.get?_of_mem hgs hg
        have hrel := h.get? g.1
        rw [hget] at hrel
        cases hfirst : Fields.get? fs g.1 with
        | none =>
          rw [hfirst] at hrel
          cases hrel
        | some v =>
          refine List.mem_map.mpr ⟨(g.1, v), Fields.mem_of_get? hfirst, ?_⟩
          rw [hget]
          rfl
    · rw [List.forall₂_map_right_iff, List.forall₂_same]
      intro f hf
      obtain ⟨w, hw, halike⟩ := partner f hf
      rw [hw]
      exact ⟨rfl, halike⟩
  · rintro ⟨gs', hperm, hall⟩
    refine .record fun name => ?_
    rw [Fields.get?_eq_of_perm hgs hperm.symm name]
    exact rel_get?_of_forall₂ hall name

theorem canonicalText_eq_iff {v w : Value} (hv : v.Proper) (hw : w.Proper) :
    v.canonicalText = w.canonicalText ↔ Alike v w :=
  String.ofList_inj.trans (canonical_eq_iff hv hw)

end Value

/-- **Canonical text tells the value.**  The canonical texts of two JSON values, whatever the names of
their fields are, agree exactly if the values are equal up to the order of fields, at any depth, and the
sign of zeros; and this is what it means that two values are the same.

So the order of a list always matters: the texts of two lists agree exactly if those of their items do,
position by position.  And that of fields never does: the texts of two records agree exactly if the
fields of one can be put in an order in which they have the names and the texts of the other's. -/
theorem canonical_text_tells_the_value {v w : Value} (hv : v.Proper) (hw : w.Proper) :
    (v.canonicalText = w.canonicalText ↔ v.Alike w) ∧
      (v.same w = true ↔ v.Alike w) ∧
      (∀ vs ws, v = .list vs → w = .list ws →
        (v.canonicalText = w.canonicalText ↔
          List.Forall₂ (fun a b => a.canonicalText = b.canonicalText) vs ws)) ∧
      ∀ o o' fs gs, v = .record o fs → w = .record o' gs →
        (v.canonicalText = w.canonicalText ↔ ∃ gs', gs'.Perm gs ∧
          List.Forall₂ (fun f g => f.1 = g.1 ∧ f.2.canonicalText = g.2.canonicalText) fs gs') := by
  have htext := Value.canonicalText_eq_iff hv hw
  refine ⟨htext, ?_, ?_, ?_⟩
  · rw [← Value.canonical_eq_iff hv hw]
    exact beq_iff_eq
  · rintro vs ws rfl rfl
    cases hv with
    | list items_proper =>
      cases hw with
      | list items_proper' =>
        have hitem := fun a ha b hb =>
          Value.canonicalText_eq_iff (items_proper a ha) (items_proper' b hb)
        rw [htext, Value.alike_list_iff]
        constructor
        · intro h
          exact Value.forall₂_imp_of_mem h fun a ha b hb => (hitem a ha b hb).mpr
        · intro h
          exact Value.forall₂_imp_of_mem h fun a ha b hb => (hitem a ha b hb).mp
  · rintro o o' fs gs rfl rfl
    cases hv with
    | record _ nodup fields_proper =>
      cases hw with
      | record _ nodup' fields_proper' =>
        have hfield := fun f hf g hg =>
          Value.canonicalText_eq_iff (fields_proper f hf) (fields_proper' g hg)
        rw [htext, Value.alike_record_iff nodup nodup']
        constructor
        · rintro ⟨gs', hperm, hall⟩
          refine ⟨gs', hperm, Value.forall₂_imp_of_mem hall fun f hf g hg h => ?_⟩
          exact ⟨h.1, (hfield f hf g (hperm.subset hg)).mpr h.2⟩
        · rintro ⟨gs', hperm, hall⟩
          refine ⟨gs', hperm, Value.forall₂_imp_of_mem hall fun f hf g hg h => ?_⟩
          exact ⟨h.1, (hfield f hf g (hperm.subset hg)).mp h.2⟩

/-- A record with `__proto__` and digits for names, at two depths. -/
def protoFirst : Value :=
  .record .host [("__proto__", .list [.num (.ofBits 0), .str "__proto__"]), ("10", .null),
    ("9", .record .script [("__proto__", .list []), ("", .bool true)])]

/-- The same with the fields of both records in other orders, and minus zero for zero. -/
def protoLast : Value :=
  .record .script [("9", .record .host [("", .bool true), ("__proto__", .list [])]), ("10", .null),
    ("__proto__", .list [.num (.ofBits 0x8000000000000000), .str "__proto__"])]

theorem protoFirst_proper : protoFirst.Proper := by
  have hzero : (Value.num (.ofBits 0)).Proper := .num rfl
  have hnil : (Value.list []).Proper := .list (List.forall_mem_nil _)
  refine .record .host (by decide) ?_
  simp only [List.forall_mem_cons, List.not_mem_nil, IsEmpty.forall_iff, implies_true, and_true]
  refine ⟨.list ?_, .null, .record .script (by decide) ?_⟩
  · exact List.forall_mem_cons.mpr ⟨hzero, List.forall_mem_singleton.mpr (.str _)⟩
  · exact List.forall_mem_cons.mpr ⟨hnil, List.forall_mem_singleton.mpr (.bool true)⟩

theorem protoLast_proper : protoLast.Proper := by
  have hminus : (Value.num (.ofBits 0x8000000000000000)).Proper := .num rfl
  have hnil : (Value.list []).Proper := .list (List.forall_mem_nil _)
  refine .record .script (by decide) ?_
  simp only [List.forall_mem_cons, List.not_mem_nil, IsEmpty.forall_iff, implies_true, and_true]
  refine ⟨.record .host (by decide) ?_, .null, .list ?_⟩
  · exact List.forall_mem_cons.mpr ⟨.bool true, List.forall_mem_singleton.mpr hnil⟩
  · exact List.forall_mem_cons.mpr ⟨hminus, List.forall_mem_singleton.mpr (.str _)⟩

theorem canonical_text_of_protoFirst_and_of_lists :
    protoFirst.canonicalText = protoLast.canonicalText ∧
      (Value.list [protoFirst, .null]).canonicalText
        ≠ (Value.list [.null, protoFirst]).canonicalText := by
  have halike : protoFirst.Alike protoLast := by
    refine (Value.alike_record_iff (by decide) (by decide)).mpr ⟨_, List.reverse_perm _, ?_⟩
    have hlist : Value.Alike (.list [.num (.ofBits 0), .str "__proto__"])
        (.list [.num (.ofBits 0x8000000000000000), .str "__proto__"]) :=
      .list (.cons (.num (.inr ⟨rfl, rfl⟩)) (.cons (.str _) .nil))
    refine .cons ⟨rfl, hlist⟩ (.cons ⟨rfl, .null⟩ (.cons ⟨rfl, ?_⟩ .nil))
    refine (Value.alike_record_iff (by decide) (by decide)).mpr ⟨_, List.reverse_perm _, ?_⟩
    exact .cons ⟨rfl, .list .nil⟩ (.cons ⟨rfl, .bool true⟩ .nil)
  have hlist : (Value.list [protoFirst, .null]).Proper :=
    .list (List.forall_mem_cons.mpr ⟨protoFirst_proper, List.forall_mem_singleton.mpr .null⟩)
  have hlist' : (Value.list [.null, protoFirst]).Proper :=
    .list (List.forall_mem_cons.mpr ⟨.null, List.forall_mem_singleton.mpr protoFirst_proper⟩)
  refine ⟨(canonical_text_tells_the_value protoFirst_proper protoLast_proper).1.mpr halike, ?_⟩
  intro h
  cases (canonical_text_tells_the_value hlist hlist').1.mp h with
  | list items_alike =>
    cases items_alike with
    | cons first_alike _ => cases first_alike

end ConfGraph
