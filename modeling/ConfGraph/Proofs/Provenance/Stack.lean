import ConfGraph.Proofs.Decimal.Notation
import ConfGraph.Proofs.Text.Splitting
import ConfGraph.Provenance.Frame

/-!
# Stack texts are read back

A frame is written as a line, and a stack text has a line for each frame.  A file name may hold anything
that a place is made of; still the place is found, since a place has two colons and the text from any
colon of the file name on has more.  A function name is told by the blank and the parenthesis after it,
and holds no blank itself.

A frame without a function has no parentheses, and the reading does not miss them: a blank and a
parenthesis inside its file name are taken for the end of a function name.

* `Frame.Tellable`: frames that fit on a line.
* `Frame.located?_append`: the place after a file name is found.
* `Frame.tear?`: where a file name is torn for lack of a function name.
* `Frame.ofLine?_render`: how the line of a frame is read.
* `Frame.stack_text_is_reread`: how a stack text is read, and when it is read back.
-/

namespace ConfGraph.Frame

open Number (natText)

variable {cs done file rest closing : List Char} {line column : Nat} {place : Nat × Nat} {f : Frame}

/-! ## 1. Frames and stack texts -/

/-- **A frame that a line can tell**: its function, if it has one, has a name without white space, such
as identifiers joined by dots, and its file has a name that stays on one line. -/
structure Tellable (f : Frame) : Prop where
  fn_ne_empty : ∀ fn ∈ f.fn, fn ≠ ""
  fn_not_blank : ∀ fn ∈ f.fn, ∀ c ∈ fn.toList, Text.isBlank c = false
  file_ne_empty : f.file ≠ ""
  file_one_line : ∀ c ∈ f.file.toList, Text.isLineEnd c = false

theorem tellable_iff : f.Tellable ↔
    (∀ fn ∈ f.fn, fn ≠ "" ∧ fn.toList.any Text.isBlank = false) ∧
      f.file ≠ "" ∧ f.file.toList.any Text.isLineEnd = false := by
  simp only [List.any_eq_false, Bool.not_eq_true]
  constructor
  · intro h
    exact ⟨fun fn hfn => ⟨h.fn_ne_empty fn hfn, h.fn_not_blank fn hfn⟩, h.file_ne_empty, h.file_one_line⟩
  · rintro ⟨hfn, hne, hline⟩
    exact ⟨fun fn h => (hfn fn h).1, fun fn h => (hfn fn h).2, hne, hline⟩

instance (f : Frame) : Decidable f.Tellable := decidable_of_iff' _ tellable_iff

/-- The stack text of frames: a first line, and a line for each. -/
def stackText (fs : List Frame) : String :=
  String.intercalate "\n" ("Error" :: fs.map fun f => String.ofList f.render)

/-- A frame without a function whose file name has a blank and a parenthesis inside. -/
def Torn (f : Frame) : Prop :=
  f.fn = none ∧ ∃ before after, before ≠ "" ∧ after ≠ "" ∧ f.file = before ++ " (" ++ after

/-! ## 2. Places -/

theorem toNat_digitChar {d : Nat} (h : d < 10) : (digitChar d).toNat - 48 = d := by
  have all : ∀ e : Fin 10, (digitChar e.val).toNat - 48 = e.val := by decide
  exact all ⟨d, h⟩

theorem foldl_natText (n : Nat) : (natText n).foldl (fun n c => 10 * n + (c.toNat - 48)) 0 = n := by
  unfold natText
  split
  · next h => rw [h]; rfl
  · rw [List.foldl_map]
    calc (digitsOf n).foldl (fun n d => 10 * n + ((digitChar d).toNat - 48)) 0
        = ofDigits (digitsOf n) := List.foldl_ext _ _ _ fun _ d hd => by
          rw [toNat_digitChar (digitsOf_lt n d hd)]
      _ = n := ofDigits_digitsOf n

/-- **A number is read back**, if no digit follows. -/
theorem number?_natText (n : Nat) (h : ∀ c ∈ rest.head?, c.isDigit = false) :
    number? (natText n ++ rest) = some (n, rest) := by
  have hdigits := Decimal.isDigit_natText n
  have hrest : rest.takeWhile Char.isDigit = [] ∧ rest.dropWhile Char.isDigit = rest := by
    cases rest with
    | nil => exact ⟨rfl, rfl⟩
    | cons c rest => simp [h c rfl]
  unfold number?
  rw [List.takeWhile_append_of_pos hdigits, List.dropWhile_append_of_pos hdigits, hrest.1, hrest.2,
    List.append_nil]
  simp [Decimal.natText_ne_nil, foldl_natText]

/-- A line and a column, as they stand after a file name. -/
def placed (line column : Nat) : List Char := ':' :: natText line ++ ':' :: natText column

theorem placeText_eq (f : Frame) : f.placeText = f.file.toList ++ placed f.line f.column := by
  simp [placeText, placed]

/-- A place is made of digits and colons. -/
theorem not_mem_placed {c : Char} (hdigit : c.isDigit = false) (hcolon : c ≠ ':') :
    c ∉ placed line column := by
  have hnumber : ∀ n, c ∉ natText n := fun n h =>
    Bool.false_ne_true (hdigit.symm.trans (Decimal.isDigit_natText n c h))
  simp [placed, hnumber, hcolon]

/-- What may stand after a place. -/
def Closes (closing : List Char) : Prop := closing = [] ∨ closing = [')']

/-- **A place is read back.** -/
theorem place?_placed (h : Closes closing) :
    place? (placed line column ++ closing) = some (line, column) := by
  have hcolumn : number? (natText column ++ closing) = some (column, closing) := by
    refine number?_natText column fun c hc => ?_
    rcases h with rfl | rfl
    · cases hc
    · rw [← Option.some.inj hc]
      rfl
  have hline : number? (natText line ++ ':' :: (natText column ++ closing))
      = some (line, ':' :: (natText column ++ closing)) := number?_natText line fun c hc => by
    rw [← Option.some.inj hc]
    rfl
  have hplaced : placed line column ++ closing
      = ':' :: (natText line ++ ':' :: (natText column ++ closing)) := by
    simp [placed]
  rw [hplaced, place?, hline]
  simp only [hcolumn]
  rcases h with rfl | rfl <;> rfl

theorem count_colon_of_isDigit (h : ∀ c ∈ cs, c.isDigit = true) : cs.count ':' = 0 :=
  List.count_eq_zero.mpr fun hmem => absurd (h ':' hmem) (by decide)

/-- Numbers have no colons. -/
theorem count_colon_of_number? {n : Nat} (h : number? cs = some (n, rest)) :
    cs.count ':' = rest.count ':' := by
  unfold number? at h
  dsimp only at h
  split at h
  · cases h
  · obtain ⟨-, rfl⟩ := Prod.mk.inj (Option.some.inj h)
    conv_lhs => rw [← List.takeWhile_append_dropWhile (p := Char.isDigit) (l := cs)]
    rw [List.count_append, count_colon_of_isDigit fun c hc => List.mem_takeWhile_imp hc, Nat.zero_add]

/-- **A place has two colons**, the first of them in front. -/
theorem count_colon_of_place? (h : place? cs = some place) :
    cs.head? = some ':' ∧ cs.count ':' = 2 := by
  unfold place? at h
  split at h
  · split at h
    · next hline =>
      have hline := count_colon_of_number? hline
      split at h
      · next hcolumn =>
        have hcolumn := count_colon_of_number? hcolumn
        refine ⟨rfl, ?_⟩
        rw [List.count_cons_self, hline, List.count_cons_self, hcolumn]
        rfl
      · next hcolumn =>
        have hcolumn := count_colon_of_number? hcolumn
        refine ⟨rfl, ?_⟩
        rw [List.count_cons_self, hline, List.count_cons_self, hcolumn]
        rfl
      · cases h
    · cases h
  · cases h

theorem count_colon_placed (line column : Nat) : (placed line column).count ':' = 2 := by
  have hline := count_colon_of_isDigit (Decimal.isDigit_natText line)
  have hcolumn := count_colon_of_isDigit (Decimal.isDigit_natText column)
  simp [placed, hline, hcolumn]

theorem place?_eq_none (h : cs.count ':' ≠ 2) : place? cs = none :=
  Option.eq_none_iff_forall_ne_some.mpr fun _ hplace => h (count_colon_of_place? hplace).2

/-- A file name with a colon in front makes no place of what follows: there is a colon too many. -/
theorem place?_cons_append (c : Char) (file closing : List Char) :
    place? (c :: file ++ (placed line column ++ closing)) = none := by
  refine Option.eq_none_iff_forall_ne_some.mpr fun place h => ?_
  obtain ⟨hhead, hcount⟩ := count_colon_of_place? h
  obtain rfl := Option.some.inj hhead
  simp only [List.cons_append, List.count_cons_self, List.count_append, count_colon_placed] at hcount
  omega

/-! ## 3. Files -/

/-- **The place after a file name is found**, whatever the name is made of. -/
theorem located?_append (hclosing : Closes closing) (hfile : ∀ c ∈ file, Text.isLineEnd c = false)
    (hne : done ≠ [] ∨ file ≠ []) : located? done (file ++ (placed line column ++ closing))
      = some (String.ofList (done.reverse ++ file), line, column) := by
  induction file generalizing done with
  | nil =>
    have hdone : done ≠ [] := hne.resolve_right (fun h => h rfl)
    unfold located?
    simp [hdone, place?_placed hclosing]
  | cons c file ih =>
    obtain ⟨hc, hfile⟩ := List.forall_mem_cons.mp hfile
    rw [located?.eq_def, place?_cons_append, ite_self]
    simp [hc, ih hfile (.inl (List.cons_ne_nil c done))]

/-- Without two colons there is no place. -/
theorem located?_eq_none (h : cs.count ':' < 2) : located? done cs = none := by
  induction cs generalizing done with
  | nil => simp [located?, place?]
  | cons c cs ih =>
    have hplace : place? (c :: cs) = none := place?_eq_none (by omega)
    have hcount : cs.count ':' < 2 := by
      have := List.count_le_count_cons (a := ':') (b := c) (l := cs)
      omega
    rw [located?.eq_def, hplace, ite_self]
    simp [ih hcount]

/-- A place is no file name followed by a place. -/
theorem located?_placed (line column : Nat) : located? [] (placed line column) = none := by
  have hcount := count_colon_placed line column
  have hplaced : placed line column = ':' :: (natText line ++ ':' :: natText column) := rfl
  rw [hplaced, List.count_cons_self] at hcount
  rw [hplaced, located?.eq_def]
  simp [located?_eq_none (show (natText line ++ ':' :: natText column).count ':' < 2 by omega)]

/-! ## 4. Functions -/

/-- **A function name is found** if it holds no white space and the parenthesis after it opens on a
located file. -/
theorem called?_append {name : List Char} {path : String}
    (hrest : located? [] rest = some (path, line, column)) (hname : ∀ c ∈ name, Text.isBlank c = false)
    (hne : done ≠ [] ∨ name ≠ []) :
    called? done (name ++ ' ' :: '(' :: rest)
      = some ⟨some (String.ofList (done.reverse ++ name)), path, line, column⟩ := by
  induction name generalizing done with
  | nil =>
    have hdone : done ≠ [] := hne.resolve_right (fun h => h rfl)
    unfold called?
    simp [hdone, afterName?, hrest]
  | cons c name ih =>
    obtain ⟨hc, hname⟩ := List.forall_mem_cons.mp hname
    have hspace : c ≠ ' ' := by
      rintro rfl
      exact absurd hc (by decide)
    have hend : Text.isLineEnd c = false := by
      cases h : Text.isLineEnd c with
      | false => rfl
      | true => exact (Text.isBlank_of_isLineEnd h).symm.trans hc
    have hafter : afterName? (c :: (name ++ ' ' :: '(' :: rest)) = none := by
      unfold afterName?
      split
      · next h => exact absurd (List.cons.inj h).1 hspace
      · rfl
    rw [List.cons_append, called?.eq_def, hafter, ite_self]
    simp [hend, ih hname (.inl (List.cons_ne_nil c done))]

/-- What stands after a blank and a parenthesis in front, if anything does. -/
def opened? : List Char → Option (List Char)
  | ' ' :: '(' :: c :: rest => some (c :: rest)
  | _ => none

/-- **Where a file name is torn**: before the first blank and parenthesis that have something on both
sides.  `done` holds what is before, last character first. -/
def tear? (done cs : List Char) : Option (List Char × List Char) :=
  match (if done.isEmpty then none else opened? cs) with
  | some after => some (done.reverse, after)
  | none =>
    match cs with
    | [] => none
    | c :: rest => tear? (c :: done) rest

/-- A frame as its line is read: without a function, the part of the file name before the tear is taken
for one. -/
def reread (f : Frame) : Frame :=
  match f.fn, tear? [] f.file.toList with
  | none, some (before, after) =>
    ⟨some (String.ofList before), String.ofList after, f.line, f.column⟩
  | _, _ => f

/-- Without a blank there is no function name. -/
theorem called?_eq_none (h : ' ' ∉ cs) : called? done cs = none := by
  induction cs generalizing done with
  | nil => simp [called?, afterName?]
  | cons c cs ih =>
    have hafter : afterName? (c :: cs) = none := by
      unfold afterName?
      split
      · next heq => exact absurd ((List.cons.inj heq).1 ▸ List.mem_cons_self) h
      · rfl
    rw [called?.eq_def, hafter, ite_self]
    simp [ih fun hmem => h (List.mem_cons_of_mem c hmem)]

/-- After a file name without parentheses, what opens in it opens on a file. -/
theorem afterName?_append (hcs : ∀ c ∈ cs, Text.isLineEnd c = false) :
    afterName? (cs ++ placed line column)
      = (opened? cs).map fun after => (String.ofList after, line, column) := by
  rcases cs with _ | ⟨c, _ | ⟨d, after⟩⟩
  · rfl
  · simp [placed, afterName?, opened?]
  · by_cases hopens : c = ' ' ∧ d = '('
    · obtain ⟨rfl, rfl⟩ := hopens
      cases after with
      | nil => exact located?_placed line column
      | cons e after =>
        have hafter : ∀ c ∈ e :: after, Text.isLineEnd c = false := fun c hc =>
          hcs c (List.mem_cons_of_mem _ (List.mem_cons_of_mem _ hc))
        have hfound : located? [] (e :: after ++ (placed line column ++ []))
            = some (String.ofList (e :: after), line, column) :=
          located?_append (.inl rfl) hafter (.inr (List.cons_ne_nil e after))
        rw [List.append_nil] at hfound
        exact hfound
    · have hafter : afterName? (c :: d :: after ++ placed line column) = none := by
        unfold afterName?
        split
        · next heq => simp_all
        · rfl
      have hopened : opened? (c :: d :: after) = none := by
        unfold opened?
        split
        · next heq => simp_all
        · rfl
      rw [hafter, hopened]
      rfl

/-- **Without a function, a file name is torn if it can be.** -/
theorem called?_placed (hcs : ∀ c ∈ cs, Text.isLineEnd c = false) :
    called? done (cs ++ placed line column) = (tear? done cs).map fun (before, after) =>
      ⟨some (String.ofList before), String.ofList after, line, column⟩ := by
  induction cs generalizing done with
  | nil =>
    rw [List.nil_append, called?_eq_none (not_mem_placed rfl (by decide))]
    simp [tear?, opened?]
  | cons c cs ih =>
    have hc := (List.forall_mem_cons.mp hcs).1
    have hrest := @ih (c :: done) (List.forall_mem_cons.mp hcs).2
    rw [called?.eq_def, tear?.eq_def, afterName?_append hcs]
    cases done with
    | nil => simp [hc, hrest]
    | cons e done =>
      cases hopened : opened? (c :: cs) with
      | none => simp [hc, hrest]
      | some after => simp

/-- **What tears a file name.** -/
theorem opened?_eq_some_iff {after : List Char} :
    opened? cs = some after ↔ cs = ' ' :: '(' :: after ∧ after ≠ [] := by
  constructor
  · intro h
    unfold opened? at h
    split at h
    · cases h
      exact ⟨rfl, List.cons_ne_nil _ _⟩
    · cases h
  · rintro ⟨rfl, hne⟩
    obtain ⟨c, rest, rfl⟩ := List.exists_cons_of_ne_nil hne
    rfl

/-- **A file name is torn** if and only if it has a blank and a parenthesis inside. -/
theorem tear?_isSome_iff : (tear? done cs).isSome ↔
    ∃ before after, done ++ before ≠ [] ∧ after ≠ [] ∧ cs = before ++ ' ' :: '(' :: after := by
  induction cs generalizing done with
  | nil => simp [tear?, opened?]
  | cons c cs ih =>
    rw [tear?.eq_def]
    cases hhere : (if done.isEmpty then none else opened? (c :: cs)) with
    | some after =>
      cases done with
      | nil => cases hhere
      | cons e done =>
        obtain ⟨hcs, hafter⟩ := opened?_eq_some_iff.mp hhere
        exact ⟨fun _ => ⟨[], after, by simp, hafter, hcs⟩, fun _ => rfl⟩
    | none =>
      refine ih.trans ⟨?_, ?_⟩
      · rintro ⟨before, after, -, hafter, rfl⟩
        exact ⟨c :: before, after, by simp, hafter, rfl⟩
      · rintro ⟨before, after, hbefore, hafter, hcs⟩
        cases before with
        | nil =>
          have hdone : done.isEmpty = false := by simpa using hbefore
          rw [hdone, opened?_eq_some_iff.mpr ⟨hcs, hafter⟩] at hhere
          cases hhere
        | cons d before => exact ⟨before, after, by simp, hafter, (List.cons.inj hcs).2⟩

/-! ## 5. Lines -/

theorem reread_of_fn {fn : String} (h : f.fn = some fn) : f.reread = f := by
  simp [reread, h]

theorem torn_iff (h : f.fn = none) : f.Torn ↔ (tear? [] f.file.toList).isSome := by
  rw [tear?_isSome_iff]
  constructor
  · rintro ⟨-, before, after, hbefore, hafter, hfile⟩
    refine ⟨before.toList, after.toList, ?_, ?_, ?_⟩
    · exact fun hnil => hbefore (String.toList_eq_nil_iff.mp hnil)
    · exact fun hnil => hafter (String.toList_eq_nil_iff.mp hnil)
    · rw [hfile, String.toList_append, String.toList_append, List.append_assoc]
      rfl
  · rintro ⟨before, after, hbefore, hafter, hfile⟩
    refine ⟨h, String.ofList before, String.ofList after, ?_, ?_, String.toList_inj.mp ?_⟩
    · simpa using hbefore
    · simpa using hafter
    · simp [hfile]

/-- **Frames that are not torn are read back.** -/
theorem reread_eq_self_iff : f.reread = f ↔ ¬ f.Torn := by
  cases hfn : f.fn with
  | some fn => simp [reread_of_fn hfn, Torn, hfn]
  | none =>
    rw [torn_iff hfn]
    cases htear : tear? [] f.file.toList with
    | none => simp [reread, htear]
    | some parts =>
      have hread : f.reread.fn ≠ f.fn := by simp [reread, hfn, htear]
      simpa using fun heq => hread (congrArg fn heq)

theorem ofLine?_indented (call : List Char) : ofLine? ("    at ".toList ++ call) = ofCall? call := rfl

theorem render_of_fn {fn : String} (h : f.fn = some fn) :
    f.render = "    at ".toList ++ (fn.toList ++ ' ' :: '(' :: (f.placeText ++ [')'])) := by
  unfold render
  rw [h]
  simp

theorem render_of_none (h : f.fn = none) :
    f.render = "    at ".toList ++ (f.file.toList ++ placed f.line f.column) := by
  rw [← placeText_eq]
  unfold render
  rw [h]

/-- **The line of a frame is read** as the frame, but for a torn file name. -/
theorem ofLine?_render (h : f.Tellable) : ofLine? f.render = some f.reread := by
  have hfile : f.file.toList ≠ [] := fun hnil => h.file_ne_empty (String.toList_eq_nil_iff.mp hnil)
  have hlocated : ∀ closing, Closes closing →
      located? [] (f.file.toList ++ (placed f.line f.column ++ closing))
        = some (f.file, f.line, f.column) := by
    intro closing hclosing
    rw [located?_append hclosing h.file_one_line (.inr hfile), List.reverse_nil, List.nil_append,
      String.ofList_toList]
  cases hfn : f.fn with
  | some fn =>
    have hname : fn.toList ≠ [] := fun hnil =>
      h.fn_ne_empty fn hfn (String.toList_eq_nil_iff.mp hnil)
    have hfound : called? [] (fn.toList ++ ' ' :: '('
          :: (f.file.toList ++ (placed f.line f.column ++ [')'])))
        = some ⟨some (String.ofList fn.toList), f.file, f.line, f.column⟩ :=
      called?_append (hlocated [')'] (.inr rfl)) (h.fn_not_blank fn hfn) (.inr hname)
    rw [render_of_fn hfn, ofLine?_indented, ofCall?, placeText_eq, List.append_assoc, hfound,
      reread_of_fn hfn, String.ofList_toList, ← hfn]
  | none =>
    have hfound := hlocated [] (.inl rfl)
    rw [List.append_nil] at hfound
    rw [render_of_none hfn, ofLine?_indented, ofCall?, called?_placed h.file_one_line]
    cases htear : tear? [] f.file.toList with
    | some parts => simp [reread, hfn, htear]
    | none =>
      have hread : f.reread = f := by simp [reread, htear]
      rw [Option.map_none, hread]
      simp only [hfound, Option.map_some, ← hfn]

/-- A line holds no line feed. -/
theorem not_mem_render (h : f.Tellable) : '\n' ∉ f.render := by
  have hfile : '\n' ∉ f.file.toList := fun hmem => absurd (h.file_one_line _ hmem) (by decide)
  have hplaced : '\n' ∉ placed f.line f.column := not_mem_placed rfl (by decide)
  cases hfn : f.fn with
  | some fn =>
    have hname : '\n' ∉ fn.toList := fun hmem => absurd (h.fn_not_blank fn hfn _ hmem) (by decide)
    rw [render_of_fn hfn, placeText_eq]
    simp [hname, hfile, hplaced]
  | none =>
    rw [render_of_none hfn]
    simp [hfile, hplaced]

theorem ofStack_stackText {fs : List Frame} (h : ∀ f ∈ fs, f.Tellable) :
    ofStack (stackText fs) = fs.map reread := by
  have hlines : Text.splitAt '\n' (stackText fs).toList = "Error".toList :: fs.map render := by
    have hparts : ("Error" :: fs.map fun f => String.ofList f.render).map String.toList
        = "Error".toList :: fs.map render := by
      simp [Function.comp_def]
    rw [stackText, String.toList_intercalate, hparts]
    refine Text.splitAt_joined (List.cons_ne_nil _ _) (List.forall_mem_cons.mpr ⟨by decide, ?_⟩)
    exact List.forall_mem_map.mpr fun f hf => not_mem_render (h f hf)
  have hfirst : ofLine? "Error".toList = none := by decide
  rw [ofStack, hlines, List.filterMap_cons_none hfirst, List.filterMap_map, ← List.filterMap_eq_map]
  exact List.filterMap_congr fun f hf => ofLine?_render (h f hf)

theorem isScript_iff : f.isScript ↔ ∃ name, f.file = scriptMark ++ name := by
  rw [isScript, List.isPrefixOf_iff_prefix]
  constructor
  · rintro ⟨name, hname⟩
    exact ⟨String.ofList name, String.toList_inj.mp (by simp [← hname])⟩
  · rintro ⟨name, hname⟩
    exact ⟨name.toList, by simp [hname]⟩

/-- **How a stack text is read.**  The stack text of frames that lines can tell

* is read as a frame for each, in order, a torn file name apart;
* is read back if and only if no frame is torn.

Then the frames of scripts in it are those whose file starts with the mark of scripts. -/
theorem stack_text_is_reread {fs : List Frame} (h : ∀ f ∈ fs, f.Tellable) :
    ofStack (stackText fs) = fs.map reread ∧
      (ofStack (stackText fs) = fs ↔ ∀ f ∈ fs, ¬ f.Torn) ∧
      ((∀ f ∈ fs, ¬ f.Torn) → (ofStack (stackText fs)).filter isScript = fs.filter isScript) ∧
      ∀ f : Frame, f.isScript ↔ ∃ name, f.file = scriptMark ++ name := by
  have hback : ofStack (stackText fs) = fs ↔ ∀ f ∈ fs, ¬ f.Torn := by
    have hmap : fs.map reread = fs.map id ↔ ∀ f ∈ fs, f.reread = f := List.map_eq_map_iff
    rw [List.map_id] at hmap
    rw [ofStack_stackText h, hmap]
    exact forall₂_congr fun _ _ => reread_eq_self_iff
  refine ⟨ofStack_stackText h, hback, fun hwhole => ?_, fun f => isScript_iff⟩
  rw [hback.mpr hwhole]

/-- File names with parentheses and with what looks like a place, which the reading keeps: in a frame with
a function, and at the end of a name. -/
def parenthesized : List Frame :=
  [⟨some "Script.run", "/srv/x (copy)/a:1:2).js", 149, 12⟩, ⟨none, "cfgscript:module:a:7 (", 3, 1⟩]

theorem parenthesized_is_reread :
    (∀ f ∈ parenthesized, f.Tellable) ∧ (∀ f ∈ parenthesized, ¬ f.Torn) ∧
      ofStack (stackText parenthesized) = parenthesized ∧
      (ofStack (stackText parenthesized)).filter isScript = [⟨none, "cfgscript:module:a:7 (", 3, 1⟩] := by
  have htellable : ∀ f ∈ parenthesized, f.Tellable := by decide +kernel
  have hsame : ∀ f ∈ parenthesized, f.reread = f := by decide +kernel
  have hwhole : ∀ f ∈ parenthesized, ¬ f.Torn := fun f hf => reread_eq_self_iff.mp (hsame f hf)
  obtain ⟨-, hback, hscript, -⟩ := stack_text_is_reread htellable
  refine ⟨htellable, hwhole, hback.mpr hwhole, (hscript hwhole).trans ?_⟩
  decide +kernel

/-- A frame of a script that lies in a copied directory. -/
def copied : Frame := ⟨none, "cfgscript:/srv/x (copy)/a.js", 3, 1⟩

/-- **A line can tell it, and it is not read back**: it comes back with a function, in a file of no
script. -/
theorem copied_is_torn :
    copied.Tellable ∧ copied.isScript = true ∧
      ofStack (stackText [copied]) = [⟨some "cfgscript:/srv/x", "copy)/a.js", 3, 1⟩] ∧
      (ofStack (stackText [copied])).filter isScript = [] := by
  decide +kernel

end ConfGraph.Frame
