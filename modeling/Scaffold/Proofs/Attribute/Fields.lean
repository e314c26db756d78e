import Scaffold.Attribute.Record
import Scaffold.Proofs.Document.Reading
import Scaffold.Proofs.Text.ClassName

/-!
# The fields of attribute records

What counts as an identifier, which keys of a JSON document count as fields, and which values the
readers of the fields accept.  Messages name every key by a text, but no key other than a text is
named like a field.
-/

namespace Scaffold

open Scaffold.Document (Entries Recognises Value)

/-! ## Names -/

/-- A letter or an underscore, letters, digits and underscores, and at most a line feed behind. -/
def Text.IsIdentifier (name : String) : Prop :=
  ∃ first rest lineEnd, name.toList = first :: (rest ++ lineEnd) ∧
    isIdentifierStart first = true ∧ (∀ c ∈ rest, isIdentifierPart c = true) ∧
      (lineEnd = [] ∨ lineEnd = ['\n'])

theorem Text.isIdentifier_iff (name : String) : isIdentifier name = true ↔ IsIdentifier name := by
  have plain (first : Char) (rest : List Char) (start : isIdentifierStart first = true)
      (parts : ∀ c ∈ rest, isIdentifierPart c = true) :
      isIdentifierText (first :: rest) = true := by
    rw [isIdentifierText, Bool.and_eq_true, List.all_eq_true]
    exact ⟨start, parts⟩
  have cut : ∀ {text : List Char}, isIdentifierText text = true → ∃ first rest,
      text = first :: rest ∧ isIdentifierStart first = true ∧
        ∀ c ∈ rest, isIdentifierPart c = true := by
    intro text identifier
    cases text with
    | nil => cases identifier
    | cons first rest =>
        rw [isIdentifierText, Bool.and_eq_true, List.all_eq_true] at identifier
        exact ⟨first, rest, rfl, identifier⟩
  rw [isIdentifier, IsIdentifier, withoutLineEnd]
  split_ifs with ended
  · have last : name.toList.getLast? = some '\n' := by simpa using ended
    obtain ⟨front, shape⟩ := List.getLast?_eq_some_iff.mp last
    rw [shape, List.dropLast_concat]
    constructor
    · intro identifier
      obtain ⟨first, rest, rfl, start, parts⟩ := cut identifier
      exact ⟨first, rest, ['\n'], rfl, start, parts, .inr rfl⟩
    · rintro ⟨first, rest, lineEnd, same, start, parts, rfl | rfl⟩
      · rw [List.append_nil] at same
        have among : '\n' ∈ first :: rest := by
          rw [← same]
          simp
        rcases List.mem_cons.mp among with rfl | inside
        · exact absurd start (by decide)
        · exact absurd (parts _ inside) (by decide)
      · have front' : front = first :: rest := by
          rw [← List.cons_append] at same
          exact (List.append_inj' same rfl).1
        rw [front']
        exact plain first rest start parts
  · constructor
    · intro identifier
      obtain ⟨first, rest, shape, start, parts⟩ := cut identifier
      exact ⟨first, rest, [], by rw [shape, List.append_nil], start, parts, .inl rfl⟩
    · rintro ⟨first, rest, lineEnd, shape, start, parts, rfl | rfl⟩
      · rw [shape, List.append_nil]
        exact plain first rest start parts
      · refine absurd ?_ ended
        rw [shape, ← List.cons_append, List.getLast?_concat]
        rfl

/-- The codes of an ill-formed text are shown with a mark for each half of a pair. -/
theorem Text.mem_shownCodes {codes : List Nat} (without : ofCodes? codes = none) :
    '\ufffd' ∈ (shownCodes codes).toList := by
  obtain ⟨code, among, half⟩ := ofCodes?_eq_none_iff.mp without
  rw [shownCodes, String.toList_ofList, List.mem_map]
  exact ⟨code, among, by rw [shownCode, if_pos half]⟩

theorem Text.not_isIdentifier_shownCodes
    {codes : List Nat} (without : ofCodes? codes = none) : ¬ IsIdentifier (shownCodes codes) := by
  rintro ⟨first, rest, lineEnd, shape, start, parts, ended⟩
  have mark := mem_shownCodes without
  rw [shape, List.mem_cons, List.mem_append] at mark
  rcases mark with rfl | inside | behind
  · exact absurd start (by decide)
  · exact absurd (parts _ inside) (by decide)
  · rcases ended with rfl | rfl
    · cases behind
    · exact absurd (List.mem_singleton.mp behind) (by decide)

/-! ## Fields -/

namespace ColumnType

theorem ofName?_eq_some_iff {spelling : String} {type : ColumnType} :
    ofName? spelling = some type ↔ spelling = type.name := by
  constructor
  · intro found
    have named := List.find?_some found
    exact (eq_of_beq named).symm
  · rintro rfl
    have all : ∀ type ∈ all, ofName? type.name = some type := by decide
    exact all type (mem_all type)

theorem isIdentifier_impliedName?
    {type : ColumnType} {name : String} (implied : type.impliedName? = some name) :
    Text.isIdentifier name = true := by
  have all : ∀ type ∈ all, ∀ name ∈ type.impliedName?, Text.isIdentifier name = true := by decide
  exact all type (mem_all type) name implied

theorem isAlpha_of_allows
    {type : ColumnType} {field : String} (allowed : type.allows field = true) :
    ∀ c ∈ field.toList, c.isAlpha = true := by
  have all : ∀ type ∈ all, ∀ field ∈ "name" :: "type" :: type.optionalFields,
      field.toList.all Char.isAlpha = true := by
    decide
  refine List.all_eq_true.mp (all type (mem_all type) field ?_)
  simpa [allows, or_assoc] using allowed

end ColumnType

namespace Attribute

/-- A text holds a character that is no letter. -/
def HasMark (text : String) : Prop :=
  ∃ c ∈ text.toList, c.isAlpha = false

theorem hasMark_writtenInt (value : Int) : HasMark (Decimal.writtenInt value) := by
  obtain ⟨digit, rest, digits⟩ := List.exists_cons_of_ne_nil
    (Nat.toDigits_ne_nil : Nat.toDigits 10 value.natAbs ≠ [])
  have isDigit : digit.isDigit = true := by
    refine @Nat.isDigit_of_mem_toDigits 10 value.natAbs digit (by decide) (by decide) ?_
    rw [digits]
    exact List.mem_cons_self
  have alphanum : digit.isAlphanum = true := by rw [Char.isAlphanum, isDigit, Bool.or_true]
  refine ⟨digit, ?_, ?_⟩
  · rw [Decimal.writtenInt, String.toList_ofList, Decimal.naturalDigits, digits]
    simp
  · exact @Text.forall_ascii (fun c => c.isDigit = true → c.isAlpha = false) (by decide +kernel)
      digit (Text.toNat_lt_of_isAlphanum alphanum) isDigit

/-- A finite number is written with a point or with a signed exponent. -/
theorem hasMark_writtenDouble (negative : Bool) (significand : Nat) (exponent : Int) :
    HasMark (Decimal.writtenDouble (.finite negative significand exponent)) := by
  have marked : ∃ c ∈ (if significand = 0 then "0.0".toList else
      Decimal.plainStyle.digits significand exponent), c.isAlpha = false := by
    split_ifs
    · exact ⟨'.', by decide, by decide⟩
    · rw [Decimal.Style.digits]
      split
      dsimp only
      split_ifs
      · refine ⟨'.', ?_, by decide⟩
        rw [Decimal.positional]
        split_ifs
        · simp
        · simp
      · rw [Decimal.scientific.eq_def]
        dsimp only
        split_ifs
        · exact ⟨'-', by simp, by decide⟩
        · exact ⟨'+', by simp, by decide⟩
  obtain ⟨c, among, mark⟩ := marked
  refine ⟨c, ?_, mark⟩
  rw [Decimal.writtenDouble, Decimal.Style.write, String.toList_ofList]
  exact List.mem_append_right _ among

/-- A key of a JSON document is one of the words that are allowed only if it is their text. -/
theorem allows_keyText_iff_of_letters
    {allows : String → Bool}
    (letters : ∀ field, allows field = true → ∀ c ∈ field.toList, c.isAlpha = true)
    (words : ∀ word ∈ ["None", "True", "False", "inf", "nan"], allows word = false)
    {key : Value} (json : key.IsJson) :
    allows key.keyText = true ↔ ∃ field, key = .text field ∧ allows field = true := by
  have marked {field : String} (mark : HasMark field) : allows field = false := by
    obtain ⟨c, among, noLetter⟩ := mark
    by_contra allowed
    rw [letters field (by simpa using allowed) c among] at noLetter
    cases noLetter
  have refused (no : allows key.keyText = false) (other : ∀ field, key ≠ .text field) :
      allows key.keyText = true ↔ ∃ field, key = .text field ∧ allows field = true := by
    simp [no, other]
  cases json with
  | text field => simp [Value.keyText]
  | null => exact refused (words "None" (by simp)) (by simp)
  | bool value =>
      refine refused ?_ (by simp)
      cases value with
      | false => exact words "False" (by simp)
      | true => exact words "True" (by simp)
  | int value => exact refused (marked (hasMark_writtenInt value)) (by simp)
  | double value =>
      refine refused ?_ (by simp)
      cases value with
      | finite negative significand exponent =>
          exact marked (hasMark_writtenDouble negative significand exponent)
      | infinite negative =>
          cases negative with
          | false => exact words "inf" (by simp)
          | true => exact marked ⟨'-', by decide, by decide⟩
      | nan => exact words "nan" (by simp)
  | illFormed without =>
      refine refused ?_ (by simp)
      exact marked ⟨'\ufffd', Text.mem_shownCodes without, by decide⟩
  | list each =>
      refine refused ?_ (by simp)
      exact marked ⟨'[', by simp [Value.keyText, Value.describe], by decide⟩
  | mapping keys values distinct =>
      refine refused ?_ (by simp)
      exact marked ⟨'\x7b', by simp [Value.keyText, Value.describe], by decide⟩

/-- A key of a JSON document counts as an allowed field only if it is the text of the field. -/
theorem allows_keyText_iff {type : ColumnType} {key : Value} (json : key.IsJson) :
    type.allows key.keyText = true ↔ ∃ field, key = .text field ∧ type.allows field = true := by
  refine allows_keyText_iff_of_letters (fun _ => ColumnType.isAlpha_of_allows) ?_ json
  have all : ∀ type ∈ ColumnType.all, ∀ word ∈ ["None", "True", "False", "inf", "nan"],
      type.allows word = false := by
    decide
  exact all type (ColumnType.mem_all type)

/-! ## The readers -/

/-- A scalar as a value of a document. -/
def scalarValue : Php.Scalar → Value
  | .null => .null
  | .bool value => .bool value
  | .int value => .int value
  | .double value => .double value
  | .text value => .text value

/-- Every key of a mapping is a text. -/
def HasTextKeys (entries : Entries) : Prop :=
  ∀ entry ∈ entries, ∃ key, entry.1 = .text key

theorem recognises_scalar : Recognises readScalar (fun _ => True) scalarValue := by
  intro value json result
  cases json <;> cases result <;> simp [readScalar, scalarValue, eq_comm]

theorem readTexts_eq_ok_iff
    {values : List Value} (json : ∀ value ∈ values, value.IsJson) (texts : List String) :
    readTexts values = .ok texts ↔ texts.map .text = values := by
  induction values generalizing texts with
  | nil => simp [readTexts, eq_comm]
  | cons value rest hypothesis =>
      have first := Document.recognises_text (json value (by simp))
      have further := hypothesis fun other member => json other (by simp [member])
      rw [readTexts]
      cases texts with
      | nil =>
          cases Document.readText false value with
          | error fault => simp
          | ok text => cases readTexts rest <;> simp [Except.map]
      | cons text texts =>
          rw [List.map_cons, List.cons.injEq, ← further texts, ← true_and (Value.text text = value),
            ← first text]
          cases Document.readText false value with
          | error fault => simp
          | ok read => cases readTexts rest <;> simp [Except.map]

theorem isEmpty_repeated_iff (options : List String) :
    (repeated options).isEmpty = true ↔ options.Nodup := by
  have cleared (texts : List String) : texts.eraseDups = [] ↔ texts = [] := by
    cases texts with
    | nil => simp
    | cons text rest => simp [List.eraseDups_cons]
  have sorted (texts : List String) :
      texts.mergeSort (fun x y => x ≤ y) = [] ↔ texts = [] := by
    rw [← List.length_eq_zero_iff, List.length_mergeSort, List.length_eq_zero_iff]
  rw [repeated, List.isEmpty_iff, sorted, cleared, List.filter_eq_nil_iff,
    List.nodup_iff_count]
  constructor
  · intro few text
    by_cases member : text ∈ options
    · simpa using few text member
    · rw [List.count_eq_zero.mpr member]
      exact Nat.zero_le 1
  · intro few text _
    simpa using few text

theorem recognises_options :
    Recognises readOptions List.Nodup fun options => .list (options.map .text) := by
  intro value json result
  cases json with
  | list each =>
      rename_i items
      rw [readOptions, Document.itemsOf?, Value.list.injEq, ← readTexts_eq_ok_iff each]
      dsimp only
      cases readTexts items with
      | error fault => simp
      | ok options =>
          dsimp only
          split_ifs with none
          · have distinct := (isEmpty_repeated_iff options).mp none
            simp only [Except.ok.injEq]
            constructor
            · rintro rfl
              exact ⟨distinct, rfl⟩
            · exact And.right
          · simp only [Except.ok.injEq, false_iff, not_and]
            rintro distinct rfl
            exact none ((isEmpty_repeated_iff options).mpr distinct)
  | _ => simp [readOptions, Document.itemsOf?]

theorem ofName?_action_eq_some_iff {spelling : String} {action : ReferentialAction} :
    ReferentialAction.ofName? spelling = some action ↔ action.name = spelling := by
  constructor
  · intro found
    have named := List.find?_some found
    exact eq_of_beq named
  · rintro rfl
    cases action <;> decide

theorem recognises_action :
    Recognises readAction (fun _ => True) fun action => .text action.name := by
  intro value json result
  rw [true_and, ← Document.textOf_eq_ok_iff json, readAction]
  cases Document.textOf value with
  | error fault => simp
  | ok spelling =>
      rw [Except.ok.injEq, eq_comm (b := result.name), ← ofName?_action_eq_some_iff]
      dsimp only
      cases ReferentialAction.ofName? spelling <;> simp

theorem recognises_relationship : Recognises readRelationship HasTextKeys .mapping := by
  intro value json result
  cases json with
  | mapping keys values distinct =>
      rename_i entries
      have json : ∀ key ∈ entries.map (·.1), key.IsJson := by
        intro key member
        obtain ⟨entry, among, rfl⟩ := List.mem_map.mp member
        exact keys entry among
      rw [readRelationship, Value.mapping.injEq]
      cases read : readTexts (entries.map (·.1)) with
      | error fault =>
          simp only [reduceCtorEq, false_iff, not_and]
          rintro texts rfl
          have written : ((result.map (·.1)).map Value.keyText).map Value.text =
              result.map (·.1) := by
            rw [List.map_map, List.map_map]
            apply List.map_congr_left
            intro entry member
            obtain ⟨key, same⟩ := texts entry member
            simp [same, Value.keyText]
          rw [(readTexts_eq_ok_iff json _).mpr written] at read
          cases read
      | ok texts =>
          have isText : HasTextKeys entries := by
            intro entry member
            have among : entry.1 ∈ texts.map Value.text := by
              rw [(readTexts_eq_ok_iff json texts).mp read]
              exact List.mem_map_of_mem member
            obtain ⟨key, _, same⟩ := List.mem_map.mp among
            exact ⟨key, same.symm⟩
          simp only [Except.ok.injEq, Document.withTextKeys_eq isText distinct]
          constructor
          · rintro rfl
            exact ⟨isText, rfl⟩
          · exact fun fits => fits.2.symm
  | _ => simp [readRelationship]

end Attribute

end Scaffold
