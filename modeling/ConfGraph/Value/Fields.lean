/-!
# Ordered fields

The fields of a record: names with what they hold, each name once, in property order.  Names that
are array indices come first, in ascending order; the others follow in order of first writing.
Writing to a name that is present keeps its place.

* `get?_put_self`, `get?_put_of_ne`: reading after writing.
* `get?_erase_self`, `get?_erase_of_ne`: reading after removing.
* `get?_ofList`: the last of several values for a name stays.
-/

namespace ConfGraph

/-- Names with what they hold, in property order. -/
abbrev Fields (α : Type) := List (String × α)

namespace Fields

variable {α β : Type}

/-! ## 1. Array indices -/

/-- The value of a decimal numeral without leading zeros. -/
def numeral? (s : String) : Option Nat :=
  match s.toList with
  | [] => none
  | ['0'] => some 0
  | '0' :: _ => none
  | cs => if cs.all Char.isDigit then some (cs.foldl (fun n c => 10 * n + (c.toNat - 48)) 0) else none

/-- The largest array index. -/
def lastIndex : Nat := 4294967294

/-- The array index that a name spells. -/
def index? (s : String) : Option Nat := (numeral? s).filter (· ≤ lastIndex)

/-- Whether a name that is not present yet goes before the name `there`. -/
def goesBefore (name there : String) : Bool :=
  match index? name, index? there with
  | some i, some j => i < j
  | some _, none => true
  | none, _ => false

/-! ## 2. Reading and writing -/

/-- What a name holds. -/
def get? (fs : Fields α) (name : String) : Option α := fs.lookup name

/-- Whether a name is present. -/
def has (fs : Fields α) (name : String) : Bool := (get? fs name).isSome

/-- Puts a name that is not present at its place. -/
def insert (fs : Fields α) (name : String) (a : α) : Fields α :=
  match fs with
  | [] => [(name, a)]
  | f :: rest => if goesBefore name f.1 then (name, a) :: f :: rest else f :: insert rest name a

/-- Changes what a present name holds. -/
def replace (fs : Fields α) (name : String) (a : α) : Fields α :=
  fs.map fun f => if f.1 == name then (name, a) else f

/-- Writes a name: in its old place if it is present, else at its place in property order. -/
def put (fs : Fields α) (name : String) (a : α) : Fields α :=
  if has fs name then replace fs name a else insert fs name a

/-- Removes a name. -/
def erase (fs : Fields α) (name : String) : Fields α := fs.filter fun f => f.1 != name

/-- Writes the entries of a list one after the other. -/
def ofList (entries : List (String × α)) : Fields α :=
  entries.foldl (fun fs f => put fs f.1 f.2) []

/-- Writes the fields of `gs` over those of `fs`. -/
def putAll (fs gs : Fields α) : Fields α := gs.foldl (fun fs f => put fs f.1 f.2) fs

/-- The names, in property order. -/
def names (fs : Fields α) : List String := fs.map (·.1)

/-! ## 3. Reading after writing -/

@[simp] theorem get?_nil (name : String) : get? ([] : Fields α) name = none := rfl

theorem get?_cons (f : String × α) (fs : Fields α) (name : String) :
    get? (f :: fs) name = if name = f.1 then some f.2 else get? fs name := by
  obtain ⟨n, a⟩ := f
  simp only [get?, List.lookup_cons]
  by_cases h : name = n
  · simp [h]
  · simp [h, beq_eq_false_iff_ne.mpr h]

theorem get?_insert (fs : Fields α) (name : String) (a : α) (other : String)
    (h : get? fs name = none) :
    get? (insert fs name a) other = if other = name then some a else get? fs other := by
  induction fs with
  | nil => simp [insert, get?_cons]
  | cons f rest ih =>
    have hf : name ≠ f.1 ∧ get? rest name = none := by
      rw [get?_cons] at h
      split at h <;> simp_all
    unfold insert
    split
    · rw [get?_cons]
    · rw [get?_cons, ih hf.2, get?_cons]
      by_cases ho : other = f.1
      · have : other ≠ name := fun e => hf.1 (e ▸ ho)
        simp [ho] at this ⊢
        intro e; exact absurd e this
      · simp [ho]

theorem get?_replace (fs : Fields α) (name : String) (a : α) (other : String) :
    get? (replace fs name a) other
      = if other = name then (get? fs name).map (fun _ => a) else get? fs other := by
  induction fs with
  | nil => simp [replace]
  | cons f rest ih =>
    simp only [replace, List.map_cons] at ih ⊢
    rw [get?_cons, get?_cons, get?_cons, ih]
    by_cases hf : f.1 = name
    · subst hf; by_cases ho : other = f.1 <;> simp [ho]
    · by_cases ho : other = name
      · subst ho
        have : ¬ other = f.1 := fun e => hf e.symm
        simp [hf, this]
      · simp [hf, ho]

/-- **Reading after writing.** -/
theorem get?_put (fs : Fields α) (name : String) (a : α) (other : String) :
    get? (put fs name a) other = if other = name then some a else get? fs other := by
  unfold put has
  cases h : get? fs name with
  | none => simpa using get?_insert fs name a other h
  | some b => simp [get?_replace, h]

@[simp] theorem get?_put_self (fs : Fields α) (name : String) (a : α) :
    get? (put fs name a) name = some a := by simp [get?_put]

theorem get?_put_of_ne (fs : Fields α) {name other : String} (a : α) (h : other ≠ name) :
    get? (put fs name a) other = get? fs other := by simp [get?_put, h]

/-- **Reading after removing.** -/
theorem get?_erase (fs : Fields α) (name other : String) :
    get? (erase fs name) other = if other = name then none else get? fs other := by
  induction fs with
  | nil => simp [erase]
  | cons f rest ih =>
    simp only [erase, List.filter_cons] at ih ⊢
    by_cases hf : f.1 = name
    · subst hf
      simp only [bne_self_eq_false, Bool.false_eq_true, if_false, ih, get?_cons]
      by_cases ho : other = f.1 <;> simp [ho]
    · simp only [bne_iff_ne, ne_eq, hf, not_false_eq_true, if_true, get?_cons, ih]
      by_cases ho : other = name
      · subst ho
        have : ¬ other = f.1 := fun e => hf e.symm
        simp [this]
      · simp [ho]

@[simp] theorem get?_erase_self (fs : Fields α) (name : String) :
    get? (erase fs name) name = none := by simp [get?_erase]

theorem get?_erase_of_ne (fs : Fields α) {name other : String} (h : other ≠ name) :
    get? (erase fs name) other = get? fs other := by simp [get?_erase, h]

theorem get?_putAll (gs fs : Fields α) (name : String) :
    get? (putAll fs gs) name = (get? gs.reverse name).or (get? fs name) := by
  induction gs generalizing fs with
  | nil => simp [putAll]
  | cons g gs ih =>
    simp only [putAll, List.foldl_cons] at ih ⊢
    rw [ih, get?_put]
    simp only [get?, List.reverse_cons, List.lookup_append, Option.or_assoc]
    congr 1
    rw [List.lookup_cons]
    by_cases h : name = g.1
    · simp [h]
    · simp [h, beq_eq_false_iff_ne.mpr h]

/-- **The last value given for a name stays.** -/
theorem get?_ofList (entries : List (String × α)) (name : String) :
    get? (ofList entries) name = get? entries.reverse name := by
  have := get?_putAll entries [] name
  simpa [putAll, ofList] using this

end Fields

end ConfGraph
