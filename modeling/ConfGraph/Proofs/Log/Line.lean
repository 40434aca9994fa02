import ConfGraph.Log.Basic
import ConfGraph.Proofs.Text.Quoted
import ConfGraph.Proofs.Value.Printed

/-!
# Log lines

The fields of a record are written in one line, whatever they hold: what could end the line stands
between quotes and is escaped there.  If all of them hold texts the line can be read back.  A name ends
at the equals sign.  A value in quotes tells where it ends; one without holds neither a quote nor a
space, so it is not taken for the other kind, and ends at the next space.

* `IsName`: names of fields that can be told from the rest of a line.
* `FieldValue.IsData`: JSON values, errors, and nothing at all.
* `entries?`: reads the entries of a line.
* `entriesWithin?_line`: a line is read back.
* `log_lines_cannot_be_forged`: both, for all records.
-/

namespace ConfGraph.Log

open Text (Plain)

/-! ## 1. Names and values -/

/-- A name of a field: no white space, no equals sign and no double quote. -/
def IsName (name : String) : Prop := ∀ c ∈ name.toList, Text.isBlank c = false ∧ c ≠ '=' ∧ c ≠ '"'

instance (name : String) : Decidable (IsName name) := List.decidableBAll _ name.toList

/-- What callers put into fields: JSON values, errors, and nothing. -/
def FieldValue.IsData : FieldValue → Prop
  | .error _ => True
  | .value v => v.IsJson ∨ v = .undefined

/-- A field that holds a text. -/
def textField (entry : String × String) : String × FieldValue := (entry.1, .value (.str entry.2))

/-- The line of fields that hold texts. -/
def textLine (entries : List (String × String)) : String := formatFields (entries.map textField)

theorem needsQuotes_eq_false_iff {c : Char} :
    needsQuotes c = false ↔ Text.isBlank c = false ∧ c ≠ '=' ∧ c ≠ '"' := by
  simp [needsQuotes, and_assoc]

/-! ## 2. One line -/

/-- Text that is told from the rest of a line ends no line. -/
theorem not_mem_of_needsQuotes {cs : List Char} (h : ∀ c ∈ cs, needsQuotes c = false) :
    '\n' ∉ cs ∧ '\r' ∉ cs :=
  ⟨fun hmem => absurd (h _ hmem) (by decide), fun hmem => absurd (h _ hmem) (by decide)⟩

theorem not_mem_of_plain {cs : List Char} (h : Plain cs) : '\n' ∉ cs ∧ '\r' ∉ cs :=
  ⟨h.not_mem (by decide), h.not_mem (by decide)⟩

/-- **No value ends the line.** -/
theorem FieldValue.IsData.one_line {v : FieldValue} (h : v.IsData) : '\n' ∉ v.text ∧ '\r' ∉ v.text := by
  cases v with
  | error message => exact not_mem_of_plain (Text.plain_quote message)
  | value v =>
    rcases h with h | rfl
    · cases v with
      | str s =>
        rw [FieldValue.text]
        split
        · exact not_mem_of_plain (Text.plain_quote s)
        · next hnone => exact not_mem_of_needsQuotes (by simpa using hnone)
      | _ =>
        obtain ⟨text, htext⟩ := Value.exists_json? h
        rw [FieldValue.text, Value.settled_of_isJson h, htext]
        · exact not_mem_of_plain (Value.plain_json? htext)
        · exact nofun
    · exact not_mem_of_plain (by decide)

theorem fieldText_one_line {f : String × FieldValue} (hname : IsName f.1) (h : f.2.IsData) :
    '\n' ∉ fieldText f ∧ '\r' ∉ fieldText f := by
  obtain ⟨hfeed, hreturn⟩ := not_mem_of_needsQuotes fun c hc => needsQuotes_eq_false_iff.mpr (hname c hc)
  obtain ⟨hfeed', hreturn'⟩ := FieldValue.IsData.one_line h
  simp [fieldText, hfeed, hreturn, hfeed', hreturn']

/-- What is in none of the parts and not between them is not in the whole. -/
theorem not_mem_joinWith {c : Char} {sep : List Char} (hsep : c ∉ sep) {parts : List (List Char)}
    (h : ∀ part ∈ parts, c ∉ part) : c ∉ Value.joinWith sep parts := by
  cases parts with
  | nil => exact List.not_mem_nil
  | cons part rest =>
    obtain ⟨hpart, hrest⟩ := List.forall_mem_cons.mp h
    rw [Value.joinWith_cons, List.mem_append, not_or]
    refine ⟨hpart, fun hmem => ?_⟩
    obtain ⟨other, hother, hmem⟩ := List.mem_flatMap.mp hmem
    exact (List.mem_append.mp hmem).elim hsep (hrest other hother)

/-! ## 3. Reading a line back -/

/-- A name, up to the first equals sign, and what stands after that. -/
def name? (cs : List Char) : Option (String × List Char) :=
  match cs.dropWhile (· != '=') with
  | [] => none
  | _ :: rest => some (String.ofList (cs.takeWhile (· != '=')), rest)

/-- A value, and what stands after it: a quoted text if a quote is first, and else all up to the next
space or the end. -/
def value? : List Char → Option (String × List Char)
  | '"' :: rest => Json.quoted? (rest.length + 1) [] rest
  | cs => some (String.ofList (cs.takeWhile (· != ' ')), cs.dropWhile (· != ' '))

/-- Entries with one space between them, at most so many. -/
def entriesWithin? : Nat → List Char → Option (List (String × String))
  | 0, _ => none
  | fuel + 1, cs =>
    match name? cs with
    | none => none
    | some (name, cs) =>
      match value? cs with
      | none => none
      | some (value, []) => some [(name, value)]
      | some (value, ' ' :: rest) => (entriesWithin? fuel rest).map ((name, value) :: ·)
      | some _ => none

/-- **The entries of a line.** -/
def entries? (line : String) : Option (List (String × String)) :=
  if line = "" then some [] else entriesWithin? (line.length + 1) line.toList

/-- What may stand after a value: nothing or a space. -/
def Ends (rest : List Char) : Prop := ∀ c ∈ rest.head?, c = ' '

/-- **A name is read back.** -/
theorem name?_append {name : String} (h : IsName name) (rest : List Char) :
    name? (name.toList ++ '=' :: rest) = some (name, rest) := by
  have hname : ∀ c ∈ name.toList, (c != '=') = true := fun c hc => bne_iff_ne.mpr (h c hc).2.1
  unfold name?
  rw [List.dropWhile_append_of_pos hname, List.takeWhile_append_of_pos hname]
  simp

/-- What stands without quotes ends at the next space. -/
theorem span_of_ends {cs rest : List Char} (h : ∀ c ∈ cs, (c != ' ') = true) (hrest : Ends rest) :
    (cs ++ rest).takeWhile (· != ' ') = cs ∧ (cs ++ rest).dropWhile (· != ' ') = rest := by
  rw [List.takeWhile_append_of_pos h, List.dropWhile_append_of_pos h]
  cases rest with
  | nil => simp
  | cons c rest =>
    obtain rfl := hrest c rfl
    simp

/-- **A text is read back**, in quotes or without. -/
theorem value?_text (s : String) {rest : List Char} (hrest : Ends rest) :
    value? (FieldValue.text (.value (.str s)) ++ rest) = some (s, rest) := by
  rw [FieldValue.text]
  split
  · have hlength := Text.length_le_flatMap_escape s.toList
    have hquoted := Text.quoted?_quote s rest ((Text.quote s ++ rest).tail.length + 1) (by
      simp only [Text.quote_eq, List.cons_append, List.tail_cons, List.length_append]
      omega)
    exact hquoted
  · next hnone =>
    have hplain : ∀ c ∈ s.toList, needsQuotes c = false := by simpa using hnone
    have hspace : ∀ c ∈ s.toList, (c != ' ') = true := by
      intro c hc
      refine bne_iff_ne.mpr ?_
      rintro rfl
      exact absurd (hplain _ hc) (by decide)
    obtain ⟨htake, hdrop⟩ := span_of_ends hspace hrest
    have hfirst : ∀ after, s.toList ++ rest ≠ '"' :: after := by
      intro after hquote
      cases hs : s.toList with
      | nil =>
        rw [hs, List.nil_append] at hquote
        exact absurd (hrest '"' (by rw [hquote]; rfl)) (by decide)
      | cons c cs =>
        rw [hs] at hquote
        obtain rfl := (List.cons.inj hquote).1
        exact absurd (hplain _ (by rw [hs]; exact List.mem_cons_self)) (by decide)
    unfold value?
    split
    · next after hquote => exact absurd hquote (hfirst after)
    · rw [htake, hdrop, String.ofList_toList]

/-! ## 4. Whole lines -/

/-- The text of several entries, with a space between them. -/
def entriesText (entries : List (String × String)) : List Char :=
  Value.joinWith [' '] (entries.map fun e => fieldText (textField e))

theorem toList_textLine (entries : List (String × String)) :
    (textLine entries).toList = entriesText entries := by
  simp [textLine, formatFields, entriesText, Function.comp_def]

/-- The text of an entry in front of what may stand after it. -/
theorem value?_fieldText {entry : String × String} (h : IsName entry.1) {rest : List Char}
    (hrest : Ends rest) :
    name? (fieldText (textField entry) ++ rest)
        = some (entry.1, FieldValue.text (.value (.str entry.2)) ++ rest) ∧
      value? (FieldValue.text (.value (.str entry.2)) ++ rest) = some (entry.2, rest) := by
  refine ⟨?_, value?_text entry.2 hrest⟩
  rw [fieldText, textField, List.append_assoc, List.cons_append]
  exact name?_append h _

/-- **A line is read back**, entry by entry. -/
theorem entriesWithin?_line : ∀ {entries : List (String × String)}, (∀ e ∈ entries, IsName e.1) →
    entries ≠ [] → ∀ fuel, entries.length ≤ fuel →
      entriesWithin? fuel (entriesText entries) = some entries
  | [], _, hne, _, _ => absurd rfl hne
  | [entry], h, _, fuel + 1, _ => by
    have hends : Ends [] := nofun
    obtain ⟨hname, hvalue⟩ := value?_fieldText (h entry List.mem_cons_self) hends
    simp only [List.append_nil] at hname hvalue
    have htext : entriesText [entry] = fieldText (textField entry) := rfl
    rw [htext]
    simp only [entriesWithin?, hname, hvalue]
  | entry :: next :: rest, h, _, fuel + 1, hfuel => by
    have hrest : entriesWithin? fuel (entriesText (next :: rest)) = some (next :: rest) :=
      entriesWithin?_line (fun e he => h e (List.mem_cons_of_mem _ he)) (List.cons_ne_nil _ _) fuel
        (Nat.le_of_succ_le_succ hfuel)
    have hends : Ends (' ' :: entriesText (next :: rest)) := fun c hc => (Option.some.inj hc).symm
    obtain ⟨hname, hvalue⟩ := value?_fieldText (h entry List.mem_cons_self) hends
    have htext : entriesText (entry :: next :: rest)
        = fieldText (textField entry) ++ ' ' :: entriesText (next :: rest) := by
      simp [entriesText, Value.joinWith]
    rw [htext]
    simp only [entriesWithin?, hname, hvalue, hrest, Option.map_some]

theorem length_le_entriesText (entries : List (String × String)) :
    entries.length ≤ (entriesText entries).length := by
  cases entries with
  | nil => exact Nat.zero_le _
  | cons entry rest =>
    have hpos : ∀ e : String × String, 1 ≤ (fieldText (textField e)).length := fun e => by
      rw [fieldText, List.length_append, List.length_cons]
      omega
    have hrest : ∀ rest : List (String × String), rest.length
        ≤ (rest.flatMap fun e => [' '] ++ fieldText (textField e)).length := by
      intro rest
      induction rest with
      | nil => exact Nat.le_refl 0
      | cons e rest ih =>
        simp only [List.flatMap_cons, List.length_append, List.length_cons]
        omega
    have hfirst := hpos entry
    have hafter := hrest rest
    rw [entriesText, List.map_cons, Value.joinWith_cons, List.flatMap_map, List.length_append,
      List.length_cons]
    omega

/-- The empty line is that of no entries. -/
theorem entriesText_eq_nil_iff {entries : List (String × String)} :
    entriesText entries = [] ↔ entries = [] := by
  constructor
  · intro h
    have hlength := length_le_entriesText entries
    rw [h] at hlength
    exact List.length_eq_zero_iff.mp (Nat.le_zero.mp hlength)
  · rintro rfl
    rfl

theorem entries?_textLine {entries : List (String × String)} (h : ∀ e ∈ entries, IsName e.1) :
    entries? (textLine entries) = some entries := by
  have hempty : textLine entries = "" ↔ entries = [] := by
    rw [← entriesText_eq_nil_iff, ← toList_textLine, String.toList_eq_nil_iff]
  unfold entries?
  split
  · next hline => rw [hempty.mp hline]
  · next hline =>
    have hlength := length_le_entriesText entries
    rw [← String.length_toList, toList_textLine]
    exact entriesWithin?_line h (fun hnil => hline (hempty.mpr hnil)) _ (Nat.le_succ_of_le hlength)

/-- **Log lines cannot be forged by what fields hold.**

* The fields of a record with any data are written in one line.
* The line of a record whose fields hold texts can be read back, as its entries in order.
* So no two such records have the same line. -/
theorem log_lines_cannot_be_forged :
    (∀ fields : List (String × FieldValue), (∀ f ∈ fields, IsName f.1) → (∀ f ∈ fields, f.2.IsData) →
      '\n' ∉ (formatFields fields).toList ∧ '\r' ∉ (formatFields fields).toList) ∧
    (∀ entries : List (String × String), (∀ e ∈ entries, IsName e.1) →
      entries? (textLine entries) = some entries) ∧
    ∀ entries entries' : List (String × String), (∀ e ∈ entries, IsName e.1) →
      (∀ e ∈ entries', IsName e.1) → textLine entries = textLine entries' → entries = entries' := by
  refine ⟨fun fields hnames hdata => ?_, fun entries h => entries?_textLine h,
    fun entries entries' h h' heq => ?_⟩
  · have hfields : ∀ part ∈ fields.map fieldText, '\n' ∉ part ∧ '\r' ∉ part := by
      intro part hpart
      obtain ⟨f, hf, rfl⟩ := List.mem_map.mp hpart
      exact fieldText_one_line (hnames f hf) (hdata f hf)
    rw [formatFields, String.toList_ofList]
    exact ⟨not_mem_joinWith (by decide) fun part hpart => (hfields part hpart).1,
      not_mem_joinWith (by decide) fun part hpart => (hfields part hpart).2⟩
  · have hread := entries?_textLine h
    rw [heq, entries?_textLine h'] at hread
    exact (Option.some.inj hread).symm

/-- A text that looks like more than one line of more than one entry. -/
def imitation : String := "ok\nlevel=\"error\" user=root"

/-- It stays in its line and in its place, as a text, as the message of an error and inside a list. -/
theorem imitation_stays_in_place :
    '\n' ∉ (formatFields [("msg", .value (.str imitation)), ("error", .error imitation),
      ("args", .value (.list [.str imitation, .null])), ("missing", .value .undefined)]).toList ∧
    entries? (textLine [("msg", imitation), ("", ""), ("event", "a=b")])
      = some [("msg", imitation), ("", ""), ("event", "a=b")] ∧
    textLine [("event", "a user=root")] ≠ textLine [("event", "a"), ("user", "root")] := by
  obtain ⟨hline, hread, hinjective⟩ := log_lines_cannot_be_forged
  refine ⟨(hline _ (by decide) ?_).1, hread _ (by decide), fun heq => ?_⟩
  · simp [FieldValue.IsData, Value.IsJson, Value.AllJson]
  · have hsame := hinjective [("event", "a user=root")] [("event", "a"), ("user", "root")] (by decide)
      (by decide) heq
    simp at hsame

end ConfGraph.Log
