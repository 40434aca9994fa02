import ConfGraph.Script.Global

/-!
# Functions that all scripts share

All scripts see the very same functions of the host.  A heap makes each of them once and keeps it under
a key; whoever sets up the globals of another script finds it there.  What scripts do to such a function
in between does not make it another one, so the globals of every script hold the function that they are
said to hold.

* `Heap.Calls`: a cell is a given function.
* `Heap.Offers`: what is kept under the name of a function of the host is that function.
* `Heap.Onward`: heaps one of which comes out of the other by adding cells.
* `Heap.onward_globalData`, `Heap.offered`: setting up globals, and a function among them.
-/

namespace ConfGraph.Script

namespace Heap

variable {h h' h'' : Heap} {name : String} {c : Callable}

/-! ## 1. Heaps that go on -/

/-- A cell is a function that does something given. -/
def Calls (h : Heap) (id : CellId) (c : Callable) : Prop :=
  ∃ cell face, h.get? id = some cell ∧ cell.body = .function c face

/-- **What a heap keeps under the name of a function of the host** is that function. -/
def Offers (h : Heap) (name : String) (c : Callable) : Prop :=
  ∀ id, h.known.lookup s!"host {name}" = some id → h.Calls id c

/-- All cells of a heap are in another one, as they are. -/
def Extends (h h' : Heap) : Prop := ∀ id cell, h.get? id = some cell → h'.get? id = some cell

/-- **A heap comes out of another one by adding cells**, and offers a function as before. -/
structure Onward (name : String) (c : Callable) (h h' : Heap) : Prop where
  cells : h.Extends h'
  offers : h.Offers name c → h'.Offers name c

theorem Extends.trans (hh : h.Extends h') (hh' : h'.Extends h'') : h.Extends h'' :=
  fun id cell hget => hh' id cell (hh id cell hget)

theorem Extends.calls (hh : h.Extends h') {id : CellId} (hid : h.Calls id c) : h'.Calls id c := by
  obtain ⟨cell, face, hget, hbody⟩ := hid
  exact ⟨cell, face, hh id cell hget, hbody⟩

theorem onward_refl (h : Heap) : Onward name c h h := ⟨fun _ _ hget => hget, fun ho => ho⟩

theorem Onward.trans (hh : Onward name c h h') (hh' : Onward name c h' h'') :
    Onward name c h h'' :=
  ⟨hh.cells.trans hh'.cells, fun ho => hh'.offers (hh.offers ho)⟩

/-- Cells that are added under no key. -/
theorem Extends.onward (hh : h.Extends h') (hknown : h'.known = h.known) : Onward name c h h' := by
  refine ⟨hh, fun ho id hid => ?_⟩
  rw [hknown] at hid
  exact hh.calls (ho id hid)

theorem lt_size_of_get? {id : CellId} {cell : Cell} (hget : h.get? id = some cell) :
    id < h.cells.size := (Array.getElem?_eq_some_iff.mp hget).1

/-- Adding cells loses none. -/
theorem Extends.size_le (hh : h.Extends h') : h.cells.size ≤ h'.cells.size := by
  refine Nat.le_of_not_lt fun hlast => ?_
  exact Nat.lt_irrefl _ (lt_size_of_get? (hh h'.cells.size _ (Array.getElem?_eq_getElem hlast)))

/-! ## 2. Adding cells -/

theorem extends_make (h : Heap) (cell : Cell) : h.Extends (h.make cell).2 := by
  intro id cell' hget
  have hne : id ≠ h.cells.size := Nat.ne_of_lt (lt_size_of_get? hget)
  simpa [make, get?, Array.getElem?_push, hne] using hget

theorem get?_make_self (h : Heap) (cell : Cell) : (h.make cell).2.get? h.cells.size = some cell := by
  simp [make, get?]

theorem onward_make (h : Heap) (cell : Cell) : Onward name c h (h.make cell).2 :=
  (extends_make h cell).onward rfl

/-- A heap with ancestors of some families more. -/
def withAncestors (h : Heap) (r : Realm) (families : List Family) : Heap :=
  { h with cells := families.foldl (fun cells f => cells.push (ancestor r f)) h.cells }

theorem extends_withAncestors (r : Realm) : ∀ (families : List Family) (h : Heap),
    h.Extends (h.withAncestors r families)
  | [], _ => fun _ _ hget => hget
  | f :: rest, h =>
    (extends_make h (ancestor r f)).trans (extends_withAncestors r rest (h.make (ancestor r f)).2)

theorem makeRealm_eq (h : Heap) :
    h.makeRealm = (h.cells.size, h.withAncestors h.cells.size Family.all) := rfl

theorem extends_makeRealm (h : Heap) : h.Extends h.makeRealm.2 := by
  rw [makeRealm_eq]
  exact extends_withAncestors _ _ h

/-- The ancestor of records is the first of a realm. -/
theorem get?_makeRealm_object (h : Heap) :
    h.makeRealm.2.get? (h.makeRealm.1.root .object) = some (ancestor h.makeRealm.1 .object) := by
  let r : Realm := h.cells.size
  obtain ⟨rest, hall⟩ : ∃ rest, Family.all = .object :: rest := ⟨_, rfl⟩
  have hfirst : h.withAncestors r (.object :: rest)
      = (h.make (ancestor r .object)).2.withAncestors r rest := rfl
  rw [makeRealm_eq, hall, hfirst]
  exact extends_withAncestors r rest _ _ _ (get?_make_self h (ancestor r .object))

/-- A cell that is kept under another key. -/
theorem onward_intern (h : Heap) {key : String} (hkey : key ≠ s!"host {name}") (cell : Cell) :
    Onward name c h (h.intern key cell).2 := by
  unfold intern
  split
  · exact onward_refl h
  · refine ⟨extends_make h cell, fun ho id hid => ?_⟩
    have hlater : List.lookup s!"host {name}" ((key, h.cells.size) :: h.known) = some id := hid
    rw [List.lookup_cons, beq_eq_false_iff_ne.mpr hkey.symm] at hlater
    exact (extends_make h cell).calls (ho id hlater)

/-- **A function of the host under its own name**: it is made, or it is there already. -/
theorem onward_intern_self (h : Heap) (r : Realm) (face : Face) :
    Onward name c h (h.intern s!"host {name}" (functionCell r c face)).2 ∧
      (h.Offers name c → (h.intern s!"host {name}" (functionCell r c face)).2.Calls
        (h.intern s!"host {name}" (functionCell r c face)).1 c) := by
  unfold intern
  split
  · next id hid => exact ⟨onward_refl h, fun ho => ho id hid⟩
  · have hmade : (h.make (functionCell r c face)).2.Calls h.cells.size c :=
      ⟨_, face, get?_make_self h _, rfl⟩
    refine ⟨⟨extends_make h _, fun _ id hid => ?_⟩, fun _ => hmade⟩
    have hfirst : List.lookup s!"host {name}" ((s!"host {name}", h.cells.size) :: h.known) = some id :=
      hid
    rw [List.lookup_cons_self] at hfirst
    obtain rfl := Option.some.inj hfirst
    exact hmade

/-! ## 3. Globals -/

/-- The functions of the host among some globals that have a name are one and the same. -/
def OneUnder (name : String) (c : Callable) (globals : Fields Global) : Prop :=
  ∀ g ∈ globals, ∀ c' face, g.2 = .function c' face → face.name = name → c' = c

/-- Keys that start with another letter are other keys. -/
theorem key_ne_of_head {key : String} (hkey : key.toList.head? ≠ some 'h') :
    key ≠ s!"host {name}" := by
  rintro rfl
  exact hkey (by simp [toString])

theorem onward_consoleFunctions : ∀ (names : List String) (h : Heap),
    Onward name c h (h.consoleFunctions names).2
  | [], h => onward_refl h
  | _ :: rest, h =>
    (onward_intern h (key_ne_of_head (by simp [toString])) _).trans (onward_consoleFunctions rest _)

theorem onward_consoleCell (h : Heap) : Onward name c h h.consoleCell.2 := by
  unfold consoleCell
  generalize Shelf.console.members.map (·.1) = names
  have hmade : Onward name c h (h.consoleFunctions names).2 := onward_consoleFunctions names h
  generalize h.consoleFunctions names = p at hmade ⊢
  obtain ⟨ds, h'⟩ := p
  exact hmade.trans (onward_intern h' (key_ne_of_head (by simp)) _)

theorem dslKey_ne (f : DslFunction) : dslKey f ≠ s!"host {name}" := by
  refine key_ne_of_head ?_
  unfold dslKey
  split <;> simp [toString]

/-- **Setting up one global.** -/
theorem onward_globalDatum (h : Heap) {g : Global}
    (hg : ∀ c' face, g = .function c' face → face.name = name → c' = c) :
    Onward name c h (h.globalDatum g).2 := by
  cases g with
  | console =>
    have hmade : Onward name c h h.consoleCell.2 := onward_consoleCell h
    unfold globalDatum
    generalize h.consoleCell = p at hmade ⊢
    exact hmade
  | function c' face =>
    by_cases hname : face.name = name
    · obtain rfl := hg c' face rfl hname
      subst hname
      exact (onward_intern_self h hostRealm face).1
    · refine onward_intern h (fun hkey => hname ?_) _
      simpa [toString] using hkey
  | dsl f => exact onward_intern h (dslKey_ne f) _
  | text s => exact onward_refl h

/-- **Setting up globals** adds cells and offers what was offered. -/
theorem onward_globalData : ∀ (globals : Fields Global), OneUnder name c globals → ∀ h : Heap,
    Onward name c h (h.globalData globals).2
  | [], _, h => onward_refl h
  | g :: rest, hglobals, h =>
    (onward_globalDatum h (hglobals g List.mem_cons_self)).trans
      (onward_globalData rest (fun g' hg' => hglobals g' (List.mem_cons_of_mem _ hg')) _)

/-- **A function among the globals** is found under its name, as the function that it is. -/
theorem offered {word : String} {face : Face} (hface : face.name = name) :
    ∀ (globals : Fields Global), OneUnder name c globals →
      Fields.get? globals word = some (.function c face) → ∀ h : Heap, h.Offers name c →
        ∃ id, Fields.get? (h.globalData globals).1 word = some (.cell id) ∧
          (h.globalData globals).2.Calls id c
  | [], _, hget, _, _ => nomatch hget
  | (first, g) :: rest, hglobals, hget, h, ho => by
    have hrest : OneUnder name c rest := fun g' hg' => hglobals g' (List.mem_cons_of_mem _ hg')
    have honward := onward_globalDatum h (hglobals (first, g) List.mem_cons_self)
    have hlater := onward_globalData rest hrest (h.globalDatum g).2
    have hdata : (h.globalData ((first, g) :: rest))
        = ((first, (h.globalDatum g).1) :: ((h.globalDatum g).2.globalData rest).1,
            ((h.globalDatum g).2.globalData rest).2) := rfl
    rw [hdata]
    simp only [Fields.get?_cons] at hget ⊢
    by_cases hword : word = first
    · rw [if_pos hword] at hget ⊢
      obtain rfl : g = .function c face := Option.some.inj hget
      subst hface
      exact ⟨_, rfl, hlater.cells.calls ((onward_intern_self h hostRealm face).2 ho)⟩
    · rw [if_neg hword] at hget ⊢
      exact offered hface rest hrest hget _ (honward.offers ho)

end Heap

end ConfGraph.Script
