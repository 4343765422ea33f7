import Mathlib.Tactic.SplitIfs
import VectorQuery.Proofs.Token.Numeral
import VectorQuery.Value.Written

/-! Written values are told apart. In front of a delimiter a value is told apart from every
other value and from what follows it, whatever the spacing and the layout of floats, so
that no value is lost in writing. -/
namespace VectorQuery

/-- What may follow a value: nothing, a blank, a comma or a closing bracket. -/
def Delimited (text : List Char) : Prop :=
  ∀ character ∈ text.head?, character ∈ [' ', ',', ')', ']', '}']

theorem delimited_nil : Delimited [] := by
  simp [Delimited]

theorem delimited_cons {character : Char} (delimiter : character ∈ [' ', ',', ')', ']', '}'])
    (rest : List Char) : Delimited (character :: rest) := by
  simpa [Delimited] using delimiter

theorem Delimited.ends {text : List Char} (delimited : Delimited text) {kind : Char → Bool}
    (others : [' ', ',', ')', ']', '}'].any kind = false) : Text.Ends kind text := by
  intro character first
  have other := List.any_eq_false.mp others character (delimited character first)
  simpa using other

/-- In front of a delimiter, the text of the item is that of no other good item. -/
def Unique {α : Type} (write : α → List Char) (good : α → Prop) (item : α) : Prop :=
  ∀ ⦃item'⦄, good item' → ∀ ⦃rest rest'⦄, Delimited rest → Delimited rest' →
    write item ++ rest = write item' ++ rest' → item = item' ∧ rest = rest'

section
variable {α : Type} {write : α → List Char} {good : α → Prop} {gap : List Char} {closing : Char}

/-- What follows the first of several items. -/
def behindItem (write : α → List Char) (gap : List Char) (closing : Char) (others : List α)
    (rest : List Char) : List Char :=
  match others with
  | [] => closing :: rest
  | other :: others =>
    ',' :: (gap ++ ((',' :: gap).intercalate ((other :: others).map write) ++ closing :: rest))

theorem items_cons (item : α) (others : List α) (rest : List Char) :
    (',' :: gap).intercalate ((item :: others).map write) ++ closing :: rest =
      write item ++ behindItem write gap closing others rest := by
  cases others <;> simp [behindItem]

theorem behindItem_delimited (closes : closing ∈ [' ', ',', ')', ']', '}']) (others : List α)
    (rest : List Char) : Delimited (behindItem write gap closing others rest) := by
  cases others
  · exact delimited_cons closes rest
  · exact delimited_cons (by decide) _

theorem items_unique (closes : closing ∈ [' ', ',', ')', ']', '}']) (noComma : closing ≠ ',')
    (opens : ∀ item, good item → ∀ rest rest', write item ++ rest ≠ closing :: rest')
    {items items' : List α} {rest rest' : List Char}
    (each : ∀ item ∈ items, Unique write good item)
    (good' : ∀ item ∈ items, good item) (good'' : ∀ item ∈ items', good item)
    (same : (',' :: gap).intercalate (items.map write) ++ closing :: rest =
      (',' :: gap).intercalate (items'.map write) ++ closing :: rest') :
    items = items' ∧ rest = rest' := by
  induction items generalizing items' with
  | nil =>
    cases items' with
    | nil => simpa using same
    | cons item' others' =>
      rw [items_cons] at same
      exact absurd same.symm (opens item' (good'' item' (by simp)) _ _)
  | cons item others ih =>
    cases items' with
    | nil =>
      rw [items_cons] at same
      exact absurd same (opens item (good' item (by simp)) _ _)
    | cons item' others' =>
      rw [items_cons, items_cons] at same
      obtain ⟨rfl, behind⟩ := each item (by simp) (good'' item' (by simp))
        (behindItem_delimited closes _ _) (behindItem_delimited closes _ _) same
      cases others with
      | nil =>
        cases others' with
        | nil => simpa [behindItem] using behind
        | cons _ _ => exact absurd (List.cons.inj behind).1 noComma
      | cons _ _ =>
        cases others' with
        | nil => exact absurd (List.cons.inj behind).1.symm noComma
        | cons _ _ =>
          have inner := List.append_cancel_left (List.cons.inj behind).2
          obtain ⟨equal, rfl⟩ := ih (fun item inside => each item (by simp [inside]))
            (fun item inside => good' item (by simp [inside]))
            (fun item inside => good'' item (by simp [inside])) inner
          exact ⟨congrArg _ equal, rfl⟩

end

namespace Numeral

/-- The characters of integers, and the first ones of all numbers. -/
def isIntegral (character : Char) : Bool :=
  character.isDigit || character == '-'

/-- The characters of numbers. -/
def isNumeric (character : Char) : Bool :=
  isIntegral character || character == '.' || character == 'e' || character == 'E' ||
    character == '+'

theorem isIntegral_of_isDigit {character : Char} (digit : character.isDigit = true) :
    isIntegral character = true := by
  simp [isIntegral, digit]

theorem isNumeric_of_isIntegral {character : Char} (integral : isIntegral character = true) :
    isNumeric character = true := by
  simp [isNumeric, integral]

theorem isNumeric_of_isDigit {character : Char} (digit : character.isDigit = true) :
    isNumeric character = true :=
  isNumeric_of_isIntegral (isIntegral_of_isDigit digit)

theorem signed_integral (negative : Bool) {digits : List Char} (written : IsFraction digits) :
    (∃ first others, signed negative digits = first :: others) ∧
      ∀ character ∈ signed negative digits, isIntegral character = true := by
  have all (character : Char) (inside : character ∈ digits) : isIntegral character = true :=
    isIntegral_of_isDigit (written.2 character inside)
  cases negative with
  | true => exact ⟨⟨_, _, rfl⟩, List.forall_mem_cons.mpr ⟨rfl, all⟩⟩
  | false => exact ⟨List.exists_cons_of_ne_nil written.1, all⟩

theorem isNumeric_places {places : List Char} (written : IsPlaces places) :
    ∀ character ∈ places, isNumeric character = true := by
  rcases written with rfl | ⟨fraction, rfl, -, all⟩
  · exact fun _ inside => absurd inside (List.not_mem_nil)
  · exact List.forall_mem_cons.mpr
      ⟨rfl, fun digit inside => isNumeric_of_isDigit (all digit inside)⟩

theorem isNumeric_power {power : List Char} (written : IsPower power) :
    ∀ character ∈ power, isNumeric character = true := by
  rcases written with rfl | ⟨mark, sign, digits, rfl, known, signs, -, all⟩
  · exact fun _ inside => absurd inside (List.not_mem_nil)
  · have marked : isNumeric mark = true := by rcases known with rfl | rfl <;> rfl
    have signed : ∀ character ∈ sign, isNumeric character = true := by
      rcases signs with rfl | rfl | rfl
      · exact fun _ inside => absurd inside (List.not_mem_nil)
      · exact List.forall_mem_cons.mpr ⟨rfl, by simp⟩
      · exact List.forall_mem_cons.mpr ⟨rfl, by simp⟩
    refine List.forall_mem_cons.mpr ⟨marked, List.forall_mem_append.mpr ⟨signed, ?_⟩⟩
    exact fun digit inside => isNumeric_of_isDigit (all digit inside)

/-- A number with a point or an exponent is no integer. -/
theorem exists_not_integral {places power : List Char} (written : IsPlaces places)
    (last : IsPower power) (filled : places ≠ [] ∨ power ≠ []) :
    ∃ character ∈ places ++ power, isIntegral character = false := by
  rcases filled with filled | filled
  · obtain ⟨fraction, rfl, -⟩ := written.resolve_left filled
    exact ⟨'.', by simp, rfl⟩
  · obtain ⟨mark, sign, digits, rfl, rfl | rfl, -⟩ := last.resolve_left filled
    · exact ⟨'e', by simp, rfl⟩
    · exact ⟨'E', by simp, rfl⟩

theorem isIntegral_writeInteger (number : Int64) :
    ∀ character ∈ writeInteger number, isIntegral character = true := by
  obtain ⟨negative, digits, written, text⟩ := writeInteger_eq number
  exact text ▸ (signed_integral negative written.isFraction).2

theorem write_not_integral (layout : Binary64.Layout) {number : Binary64}
    (finite : number.isFinite = true) :
    ∃ character ∈ layout.write number, isIntegral character = false := by
  obtain ⟨negative, whole, places, power, -, behind, last, filled, text⟩ := write_eq layout finite
  obtain ⟨character, inside, other⟩ := exists_not_integral behind last filled
  exact ⟨character, text ▸ List.mem_append_right _ inside, other⟩

end Numeral

namespace Value
open Numeral

mutual
/-- Every float within is a number. -/
def isFinite : Value → Bool
  | .float number => number.isFinite
  | .array items => areFinite items
  | .object entries => entriesFinite entries
  | _ => true

def areFinite : List Value → Bool
  | [] => true
  | item :: rest => isFinite item && areFinite rest

def entriesFinite : List (String × Value) → Bool
  | [] => true
  | (_, value) :: rest => isFinite value && entriesFinite rest
end

theorem areFinite_iff {items : List Value} :
    areFinite items = true ↔ ∀ item ∈ items, item.isFinite = true := by
  induction items with
  | nil => simp [areFinite]
  | cons item rest ih => simp [areFinite, ih]

theorem entriesFinite_iff {entries : List (String × Value)} :
    entriesFinite entries = true ↔ ∀ entry ∈ entries, entry.2.isFinite = true := by
  induction entries with
  | nil => simp [entriesFinite]
  | cons entry rest ih =>
    obtain ⟨key, value⟩ := entry
    simp [entriesFinite, ih]

/-- What a value starts with says of it. -/
inductive Mark where
  | null
  | boolean (truth : Bool)
  | number
  | text
  | array
  | object
deriving DecidableEq

def Mark.ofCharacter (character : Char) : Mark :=
  if character = 'n' then .null
  else if character = 't' then .boolean true
  else if character = 'f' then .boolean false
  else if character = '"' then .text
  else if character = '[' then .array
  else if character = '{' then .object
  else .number

def mark : Value → Mark
  | .null => .null
  | .boolean truth => .boolean truth
  | .integer _ | .float _ => .number
  | .text _ => .text
  | .array _ => .array
  | .object _ => .object

theorem mark_of_isIntegral {character : Char} (integral : isIntegral character = true) :
    Mark.ofCharacter character = .number := by
  unfold Mark.ofCharacter
  split_ifs with null yes no quote bracket brace <;> first
    | rfl
    | (subst character; contradiction)

theorem eq_null_of_mark {value : Value} (mark : value.mark = .null) : value = .null := by
  cases value <;> first | rfl | contradiction

theorem eq_boolean_of_mark {value : Value} {truth : Bool} (mark : value.mark = .boolean truth) :
    value = .boolean truth := by
  cases value <;> first | contradiction | exact congrArg _ (Mark.boolean.inj mark)

theorem eq_text_of_mark {value : Value} (mark : value.mark = .text) :
    ∃ content, value = .text content := by
  cases value <;> first | contradiction | exact ⟨_, rfl⟩

theorem eq_array_of_mark {value : Value} (mark : value.mark = .array) :
    ∃ items, value = .array items := by
  cases value <;> first | contradiction | exact ⟨_, rfl⟩

theorem eq_object_of_mark {value : Value} (mark : value.mark = .object) :
    ∃ entries, value = .object entries := by
  cases value <;> first | contradiction | exact ⟨_, rfl⟩

namespace Form

/-- White space may follow a comma or a colon, and a finite float is a number under some
layout. -/
structure Legible (form : Form) : Prop where
  separator : ∃ gap, form.separator.toList = ',' :: gap ∧ gap.all Text.isBlank = true
  colon : ∃ gap, form.colon.toList = ':' :: gap ∧ gap.all Text.isBlank = true
  float : ∃ layout : Binary64.Layout, ∀ number, number.isFinite = true →
    (form.float number).toList = layout.write number

theorem literalForm_legible : literalForm.Legible where
  separator := ⟨[' '], rfl, rfl⟩
  colon := ⟨[' '], rfl, rfl⟩
  float := ⟨Binary64.plain, fun _ _ => String.toList_ofList⟩

theorem jsonForm_legible : jsonForm.Legible where
  separator := ⟨[], rfl, rfl⟩
  colon := ⟨[], rfl, rfl⟩
  float := ⟨Binary64.compact, fun number finite => by simp [jsonForm, finite]⟩

/-- The characters of a written value. -/
def characters (form : Form) (value : Value) : List Char :=
  (write form value).toList

def entryCharacters (form : Form) (entry : String × Value) : List Char :=
  (Text.quoted entry.1).toList ++ (form.colon.toList ++ form.characters entry.2)

section
variable (form : Form)

theorem writeItems_toList (items : List Value) :
    (writeItems form items).map String.toList = items.map form.characters := by
  induction items with
  | nil => rfl
  | cons item rest ih => simp [writeItems, ih, characters]

theorem writeEntries_toList (entries : List (String × Value)) :
    (writeEntries form entries).map String.toList = entries.map form.entryCharacters := by
  induction entries with
  | nil => rfl
  | cons entry rest ih =>
    obtain ⟨key, value⟩ := entry
    simp [writeEntries, ih, entryCharacters, characters]

theorem characters_null : form.characters .null = "null".toList := by
  rw [characters, write]

theorem characters_boolean (truth : Bool) :
    form.characters (.boolean truth) = (if truth then "true" else "false").toList := by
  cases truth <;> rw [characters, write] <;> rfl

theorem characters_integer (number : Int64) :
    form.characters (.integer number) = writeInteger number := by
  simp [characters, write]

theorem characters_float (number : Binary64) :
    form.characters (.float number) = (form.float number).toList := by
  simp [characters, write]

theorem characters_text (content : String) :
    form.characters (.text content) = (Text.quoted content).toList := by
  simp [characters, write]

theorem characters_array (items : List Value) : form.characters (.array items) =
    '[' :: (form.separator.toList.intercalate (items.map form.characters) ++ [']']) := by
  simp [characters, write, ← writeItems_toList]

theorem characters_object (entries : List (String × Value)) : form.characters (.object entries) =
    '{' :: (form.separator.toList.intercalate (entries.map form.entryCharacters) ++ ['}']) := by
  simp [characters, write, ← writeEntries_toList]

end

/-! What is told apart in any legible form. -/

section
variable {form : Form}

theorem Legible.number_parts (legible : form.Legible) {value : Value}
    (numeral : value.mark = .number) (finite : value.isFinite = true) :
    ∃ negative whole places power, IsWhole whole ∧ IsPlaces places ∧ IsPower power ∧
      form.characters value = signed negative whole ++ (places ++ power) := by
  cases value with
  | integer number =>
    obtain ⟨negative, digits, written, text⟩ := writeInteger_eq number
    refine ⟨negative, digits, [], [], written, .inl rfl, .inl rfl, ?_⟩
    simpa [characters_integer] using text
  | float number =>
    obtain ⟨layout, writes⟩ := legible.float
    obtain ⟨negative, whole, places, power, before, behind, last, -, text⟩ := write_eq layout finite
    exact ⟨negative, whole, places, power, before, behind, last,
      by rw [characters_float, writes number finite, text]⟩
  | null | boolean _ | text _ | array _ | object _ => contradiction

theorem Legible.number_run (legible : form.Legible) {value : Value} (numeral : value.mark = .number)
    (finite : value.isFinite = true) :
    (∃ first others, form.characters value = first :: others ∧ isIntegral first = true) ∧
      ∀ character ∈ form.characters value, isNumeric character = true := by
  obtain ⟨negative, whole, places, power, before, behind, last, text⟩ :=
    legible.number_parts numeral finite
  obtain ⟨⟨first, others, split⟩, integral⟩ := signed_integral negative before.isFraction
  have signs (character : Char) (inside : character ∈ signed negative whole) :
      isNumeric character = true := isNumeric_of_isIntegral (integral character inside)
  refine ⟨⟨first, others ++ (places ++ power), by rw [text, split, List.cons_append],
    integral first (by simp [split])⟩, ?_⟩
  rw [text, List.forall_mem_append, List.forall_mem_append]
  exact ⟨signs, isNumeric_places behind, isNumeric_power last⟩

theorem Legible.characters_head (legible : form.Legible) (value : Value)
    (finite : value.isFinite = true) :
    ∃ character others, form.characters value = character :: others ∧
      Mark.ofCharacter character = value.mark := by
  by_cases number : value.mark = .number
  · obtain ⟨⟨first, others, text, integral⟩, -⟩ := legible.number_run number finite
    exact ⟨first, others, text, by rw [number, mark_of_isIntegral integral]⟩
  · cases value with
    | null => exact ⟨'n', _, characters_null form, rfl⟩
    | boolean truth =>
      cases truth
      · exact ⟨'f', _, characters_boolean form false, rfl⟩
      · exact ⟨'t', _, characters_boolean form true, rfl⟩
    | integer _ => exact absurd rfl number
    | float _ => exact absurd rfl number
    | text content =>
      exact ⟨'"', _, (characters_text form content).trans (Text.quoted_toList content), rfl⟩
    | array items => exact ⟨'[', _, characters_array form items, rfl⟩
    | object entries => exact ⟨'{', _, characters_object form entries, rfl⟩

theorem Legible.mark_unique (legible : form.Legible) {value value' : Value}
    (finite : value.isFinite = true) (finite' : value'.isFinite = true) {rest rest' : List Char}
    (same : form.characters value ++ rest = form.characters value' ++ rest') :
    value.mark = value'.mark := by
  obtain ⟨character, others, text, mark⟩ := legible.characters_head value finite
  obtain ⟨character', others', text', mark'⟩ := legible.characters_head value' finite'
  rw [text, text'] at same
  rw [← mark, ← mark', (List.cons.inj same).1]

/-- A float has a point or an exponent and an integer has neither; each reads back. -/
theorem Legible.number_injective (legible : form.Legible) {value value' : Value}
    (numeral : value.mark = .number) (numeral' : value'.mark = .number)
    (finite : value.isFinite = true) (finite' : value'.isFinite = true)
    (same : form.characters value = form.characters value') : value = value' := by
  obtain ⟨layout, writes⟩ := legible.float
  have differ (number : Int64) {number' : Binary64} (finite : number'.isFinite = true) :
      writeInteger number ≠ layout.write number' := by
    intro equal
    obtain ⟨character, inside, other⟩ := write_not_integral layout finite
    have integral := isIntegral_writeInteger number character (equal ▸ inside)
    simp [integral] at other
  cases value <;> cases value' <;> try contradiction
  case integer.integer number number' =>
    rw [characters_integer, characters_integer] at same
    have read := readInteger?_writeInteger number
    rw [same, readInteger?_writeInteger] at read
    rw [Option.some.inj read]
  case integer.float number number' =>
    rw [characters_integer, characters_float, writes number' finite'] at same
    exact absurd same (differ number finite')
  case float.integer number number' =>
    rw [characters_integer, characters_float, writes number finite] at same
    exact absurd same.symm (differ number' finite)
  case float.float number number' =>
    rw [characters_float, characters_float, writes number finite, writes number' finite'] at same
    have read := Binary64.read?_write layout finite
    rw [same, Binary64.read?_write layout finite'] at read
    rw [Option.some.inj read]

theorem Legible.number_unique (legible : form.Legible) {value value' : Value}
    (numeral : value.mark = .number) (numeral' : value'.mark = .number)
    (finite : value.isFinite = true) (finite' : value'.isFinite = true) {rest rest' : List Char}
    (delimited : Delimited rest) (delimited' : Delimited rest')
    (same : form.characters value ++ rest = form.characters value' ++ rest') :
    value = value' ∧ rest = rest' := by
  obtain ⟨text, behind⟩ := Text.run_unique (legible.number_run numeral finite).2
    (legible.number_run numeral' finite').2 (delimited.ends rfl) (delimited'.ends rfl) same
  exact ⟨legible.number_injective numeral numeral' finite finite' text, behind⟩

theorem entry_unique {entry : String × Value}
    (inner : Unique form.characters (·.isFinite = true) entry.2) :
    Unique form.entryCharacters (·.2.isFinite = true) entry := by
  intro entry' finite' rest rest' delimited delimited' same
  obtain ⟨key, value⟩ := entry
  obtain ⟨key', value'⟩ := entry'
  simp only [entryCharacters, List.append_assoc] at same
  obtain ⟨rfl, behind⟩ := Text.quoted_unique same
  obtain ⟨rfl, rfl⟩ := inner finite' delimited delimited' (List.append_cancel_left behind)
  exact ⟨rfl, rfl⟩

theorem Legible.no_item_closes (legible : form.Legible) (value : Value)
    (finite : value.isFinite = true) {closing : Char}
    (number : Mark.ofCharacter closing = .number) (other : isIntegral closing = false)
    (rest rest' : List Char) : form.characters value ++ rest ≠ closing :: rest' := by
  intro same
  obtain ⟨character, others, text, mark⟩ := legible.characters_head value finite
  have numeral : value.mark = .number := by
    rw [text] at same
    rw [← mark, (List.cons.inj same).1, number]
  obtain ⟨⟨first, tail, split, integral⟩, -⟩ := legible.number_run numeral finite
  rw [split] at same
  simp [(List.cons.inj same).1, other] at integral

theorem no_entry_closes (entry : String × Value) (rest rest' : List Char) :
    form.entryCharacters entry ++ rest ≠ '}' :: rest' := by
  simp [entryCharacters, Text.quoted_toList]

mutual
/-- No two values are written alike. -/
theorem Legible.unique (legible : form.Legible) : ∀ value : Value, value.isFinite = true →
    Unique form.characters (·.isFinite = true) value
  | .integer number, finite => by
    intro value' finite' rest rest' delimited delimited' same
    have mark := (legible.mark_unique finite finite' same).symm
    exact legible.number_unique rfl mark finite finite' delimited delimited' same
  | .float number, finite => by
    intro value' finite' rest rest' delimited delimited' same
    have mark := (legible.mark_unique finite finite' same).symm
    exact legible.number_unique rfl mark finite finite' delimited delimited' same
  | .null, finite => by
    intro value' finite' rest rest' _ _ same
    obtain rfl := eq_null_of_mark (legible.mark_unique finite finite' same).symm
    exact ⟨rfl, List.append_cancel_left same⟩
  | .boolean truth, finite => by
    intro value' finite' rest rest' _ _ same
    obtain rfl := eq_boolean_of_mark (legible.mark_unique finite finite' same).symm
    exact ⟨rfl, List.append_cancel_left same⟩
  | .text content, finite => by
    intro value' finite' rest rest' _ _ same
    obtain ⟨content', rfl⟩ := eq_text_of_mark (legible.mark_unique finite finite' same).symm
    rw [characters_text, characters_text] at same
    obtain ⟨rfl, rfl⟩ := Text.quoted_unique same
    exact ⟨rfl, rfl⟩
  | .array items, finite => by
    intro value' finite' rest rest' _ _ same
    obtain ⟨items', rfl⟩ := eq_array_of_mark (legible.mark_unique finite finite' same).symm
    obtain ⟨gap, separator, -⟩ := legible.separator
    simp only [characters_array, separator, List.cons_append, List.append_assoc, List.cons.injEq,
      List.nil_append, true_and] at same
    obtain ⟨rfl, rfl⟩ := items_unique (by decide) (by decide)
      (fun item finite => legible.no_item_closes item finite (by decide) (by decide))
      (legible.unique_items items finite) (areFinite_iff.mp finite) (areFinite_iff.mp finite') same
    exact ⟨rfl, rfl⟩
  | .object entries, finite => by
    intro value' finite' rest rest' _ _ same
    obtain ⟨entries', rfl⟩ := eq_object_of_mark (legible.mark_unique finite finite' same).symm
    obtain ⟨gap, separator, -⟩ := legible.separator
    simp only [characters_object, separator, List.cons_append, List.append_assoc, List.cons.injEq,
      List.nil_append, true_and] at same
    obtain ⟨rfl, rfl⟩ := items_unique (by decide) (by decide)
      (fun entry _ => no_entry_closes entry)
      (fun entry inside => entry_unique (legible.unique_entries entries finite entry inside))
      (entriesFinite_iff.mp finite) (entriesFinite_iff.mp finite') same
    exact ⟨rfl, rfl⟩

theorem Legible.unique_items (legible : form.Legible) : ∀ items : List Value,
    areFinite items = true → ∀ item ∈ items, Unique form.characters (·.isFinite = true) item
  | [], _, _, inside => absurd inside (List.not_mem_nil)
  | item :: rest, finite, other, inside => by
    simp only [areFinite, Bool.and_eq_true] at finite
    rcases List.mem_cons.mp inside with same | inside
    · rw [same]
      exact legible.unique item finite.1
    · exact legible.unique_items rest finite.2 other inside

theorem Legible.unique_entries (legible : form.Legible) : ∀ entries : List (String × Value),
    entriesFinite entries = true →
      ∀ entry ∈ entries, Unique form.characters (·.isFinite = true) entry.2
  | [], _, _, inside => absurd inside (List.not_mem_nil)
  | (key, value) :: rest, finite, other, inside => by
    simp only [entriesFinite, Bool.and_eq_true] at finite
    rcases List.mem_cons.mp inside with same | inside
    · rw [same]
      exact legible.unique value finite.1
    · exact legible.unique_entries rest finite.2 other inside
end

end

end Form

end Value

end VectorQuery
