import Mathlib.Data.List.TakeWhile
import Scaffold.Module.Review
import Scaffold.Proofs.Disk.Location
import Scaffold.Text.WordCharacter

/-!
# Class names and tables

A class name is its own spelling, and its table consists of small words.  Both are made of
characters that may stand in the name of any file.
-/

namespace Scaffold

open Scaffold.Disk (IsPlainName)

namespace Text

/-- What holds of the first 128 characters holds of every one below 128. -/
theorem forall_ascii
    {holds : Char → Prop} (checked : ∀ code : Fin 128, holds (Char.ofNat code)) {c : Char}
    (ascii : c.toNat < 128) : holds c := by
  have here := checked ⟨c.toNat, ascii⟩
  rwa [Char.ofNat_toNat] at here

theorem isAlphanum_eq (c : Char) : c.isAlphanum = (c.isUpper || c.isLower || c.isDigit) :=
  rfl

theorem toNat_lt_of_isAlphanum {c : Char} (alphanum : c.isAlphanum = true) : c.toNat < 128 := by
  have spelled : c.isAlphanum =
      (decide ('A'.val ≤ c.val ∧ c.val ≤ 'Z'.val) ||
        (decide ('a'.val ≤ c.val) && decide (c.val ≤ 'z'.val)) ||
        (decide ('0'.val ≤ c.val) && decide (c.val ≤ '9'.val))) := rfl
  rw [spelled] at alphanum
  simp [UInt32.le_iff_toNat_le] at alphanum
  rw [← Char.toNat_val]
  have letters := alphanum
  simp only [← Char.toNat_val] at letters
  omega

/-- Letters and digits in either case, and the underscore. -/
def IsNameCharacter (c : Char) : Prop :=
  c.isAlphanum = true ∨ c = '_'

instance (c : Char) : Decidable (IsNameCharacter c) :=
  inferInstanceAs (Decidable (_ ∨ _))

theorem IsNameCharacter.toNat_lt {c : Char} (named : IsNameCharacter c) : c.toNat < 128 := by
  rcases named with alphanum | rfl
  · exact toNat_lt_of_isAlphanum alphanum
  · decide

theorem IsNameCharacter.isUnicodeWordCharacter {c : Char} (named : IsNameCharacter c) :
    Text.isUnicodeWordCharacter c = true :=
  @forall_ascii (fun c => IsNameCharacter c → Text.isUnicodeWordCharacter c = true)
    (by decide +kernel) c named.toNat_lt named

theorem toLower_isAlphanum {c : Char} (alphanum : c.isAlphanum = true) :
    c.toLower.isAlphanum = true :=
  @forall_ascii (fun c => c.isAlphanum = true → c.toLower.isAlphanum = true)
    (by decide +kernel) c (toNat_lt_of_isAlphanum alphanum) alphanum

theorem toUpper_isAlphanum {c : Char} (alphanum : c.isAlphanum = true) :
    c.toUpper.isAlphanum = true :=
  @forall_ascii (fun c => c.isAlphanum = true → c.toUpper.isAlphanum = true)
    (by decide +kernel) c (toNat_lt_of_isAlphanum alphanum) alphanum

theorem toUpper_of_isUpper {c : Char} (upper : c.isUpper = true) : c.toUpper = c := by
  have alphanum : c.isAlphanum = true := by simp [isAlphanum_eq, upper]
  exact @forall_ascii (fun c => c.isUpper = true → c.toUpper = c)
    (by decide +kernel) c (toNat_lt_of_isAlphanum alphanum) upper

/-! ## Words -/

theorem pieces_atSeparator
    {text : List Char} (word : ∀ c ∈ text, isWordCharacter c = true) :
    pieces atSeparator text = [text] := by
  induction text with
  | nil => rfl
  | cons here rest hypothesis =>
      have isWord := word here List.mem_cons_self
      have uncut : startsAfter atSeparator here rest = false := by
        cases rest <;> rfl
      rw [pieces, hypothesis fun c member => word c (List.mem_cons_of_mem _ member)]
      simp [isWord, uncut, consFirst]

/-- Letters and digits alone are one word. -/
theorem studlyCharacters_of_alphanum
    {text : List Char} (alphanum : ∀ c ∈ text, isWordCharacter c = true) :
    studlyCharacters text = capitalised text := by
  rw [studlyCharacters, words, pieces_atSeparator alphanum]
  cases text <;> simp [capitalised]

/-- A class name starts with a capital, and letters and digits follow. -/
theorem exists_of_isClassName {name : String} (className : isClassName name = true) :
    ∃ first rest, name.toList = first :: rest ∧ first.isUpper = true ∧
      ∀ c ∈ name.toList, c.isAlphanum = true := by
  rw [isClassName] at className
  split at className
  · rename_i first rest shape
    rw [Bool.and_eq_true, List.all_eq_true] at className
    refine ⟨first, rest, shape, className.1, fun c member => ?_⟩
    rw [shape, List.mem_cons] at member
    rcases member with rfl | other
    · simp [isAlphanum_eq, className.1]
    · exact className.2 c other
  · cases className

theorem studlyCase_of_isClassName {name : String} (className : isClassName name = true) :
    studlyCase name = name := by
  obtain ⟨first, rest, shape, upper, alphanum⟩ := exists_of_isClassName className
  have whole : words atSeparator name.toList = [name.toList] := by
    rw [words, pieces_atSeparator alphanum]
    simp [shape]
  rw [studlyCase, studlyCharacters, whole, ← String.toList_inj]
  simp [shape, capitalised, toUpper_of_isUpper upper]

theorem mem_of_mem_words
    {cut : Char → Char → Option Char → Bool} {text word : List Char} {c : Char}
    (member : word ∈ words cut text) (within : c ∈ word) :
    c ∈ text ∧ isWordCharacter c = true := by
  have among : c ∈ (words cut text).flatten := List.mem_flatten.mpr ⟨word, member, within⟩
  rwa [flatten_words, List.mem_filter] at among

theorem isAlphanum_of_mem_studlyCase {text : String} {c : Char}
    (member : c ∈ (studlyCase text).toList) : c.isAlphanum = true := by
  rw [studlyCase, String.toList_ofList, studlyCharacters, List.mem_flatten] at member
  obtain ⟨part, among, within⟩ := member
  obtain ⟨word, isWord, rfl⟩ := List.mem_map.mp among
  have alphanum : ∀ letter ∈ word, letter.isAlphanum = true := fun letter inWord =>
    (mem_of_mem_words isWord inWord).2
  cases word with
  | nil => cases within
  | cons first rest =>
      rcases List.mem_cons.mp within with rfl | later
      · exact toUpper_isAlphanum (alphanum first List.mem_cons_self)
      · exact alphanum c (List.mem_cons_of_mem _ later)

/-- The spelling of a class is its own spelling. -/
theorem studlyCase_studlyCase (text : String) : studlyCase (studlyCase text) = studlyCase text := by
  have twice {c : Char} (alphanum : c.isAlphanum = true) : c.toUpper.toUpper = c.toUpper :=
    @forall_ascii (fun c => c.toUpper.toUpper = c.toUpper) (by decide +kernel) c
      (toNat_lt_of_isAlphanum alphanum)
  have alphanum := fun c => @isAlphanum_of_mem_studlyCase text c
  rw [studlyCase, studlyCharacters_of_alphanum alphanum, ← String.toList_inj, String.toList_ofList]
  rw [studlyCase, String.toList_ofList, studlyCharacters]
  cases shape : words atSeparator text.toList with
  | nil => rfl
  | cons word rest =>
      have isWord : word ∈ words atSeparator text.toList := by simp [shape]
      cases word with
      | nil => simp [words] at isWord
      | cons first letters =>
          have isAlphanum := (mem_of_mem_words isWord List.mem_cons_self).2
          simp [capitalised, twice isAlphanum]

theorem mem_of_mem_intercalate
    {α : Type} {separator c : α} {parts : List (List α)}
    (member : c ∈ [separator].intercalate parts) : c = separator ∨ ∃ part ∈ parts, c ∈ part := by
  induction parts with
  | nil => cases member
  | cons part rest hypothesis =>
      by_cases last : rest = []
      · rw [last, List.intercalate_singleton] at member
        exact .inr ⟨part, List.mem_cons_self, member⟩
      · rw [List.intercalate_cons_of_ne_nil last, List.mem_append, List.mem_append,
          List.mem_singleton] at member
        rcases member with (first | same) | later
        · exact .inr ⟨part, List.mem_cons_self, first⟩
        · exact .inl same
        · rcases hypothesis later with same | ⟨other, among, within⟩
          · exact .inl same
          · exact .inr ⟨other, List.mem_cons_of_mem _ among, within⟩

theorem mem_intercalate_of_mem
    {separator c : Char} {parts : List (List Char)} {part : List Char} (among : part ∈ parts)
    (within : c ∈ part) :
    c ∈ [separator].intercalate parts := by
  induction parts with
  | nil => cases among
  | cons first rest hypothesis =>
      by_cases last : rest = []
      · rw [last, List.mem_singleton] at among
        rw [last, List.intercalate_singleton, ← among]
        exact within
      · rw [List.intercalate_cons_of_ne_nil last, List.mem_append, List.mem_append]
        rcases List.mem_cons.mp among with rfl | later
        · exact .inl (.inl within)
        · exact .inr (hypothesis later)

/-- A table is spelled with small letters, digits and underscores. -/
theorem isNameCharacter_of_mem_snakeCase
    {text : String} {c : Char} (member : c ∈ (snakeCase text).toList) : IsNameCharacter c := by
  rw [snakeCase, String.toList_ofList, joinLowered] at member
  rcases mem_of_mem_intercalate member with rfl | ⟨part, among, within⟩
  · exact .inr rfl
  · obtain ⟨word, isWord, rfl⟩ := List.mem_map.mp among
    obtain ⟨original, inWord, rfl⟩ := List.mem_map.mp within
    exact .inl (toLower_isAlphanum (mem_of_mem_words isWord inWord).2)

theorem snakeCase_ne_empty {text : String} {c : Char} (member : c ∈ text.toList)
    (word : isWordCharacter c = true) : snakeCase text ≠ "" := by
  have among : c ∈ (words atHump text.toList).flatten := by
    rw [flatten_words, List.mem_filter]
    exact ⟨member, word⟩
  obtain ⟨part, isWord, within⟩ := List.mem_flatten.mp among
  have joined : c.toLower ∈ joinLowered '_' (words atHump text.toList) :=
    mem_intercalate_of_mem (List.mem_map.mpr ⟨part, isWord, rfl⟩) (List.mem_map.mpr ⟨c, within, rfl⟩)
  intro empty
  rw [snakeCase, String.ofList_eq_empty_iff] at empty
  rw [empty] at joined
  cases joined

/-! ## Tables -/

/-- A text has a letter or a digit. -/
def HasWord (text : List Char) : Prop :=
  ∃ c ∈ text, isWordCharacter c = true

instance (text : List Char) : Decidable (HasWord text) :=
  decidable_of_iff (text.any isWordCharacter = true) List.any_eq_true

theorem HasWord.append_left {text : List Char} (has : HasWord text) (before : List Char) :
    HasWord (before ++ text) := by
  obtain ⟨c, member, word⟩ := has
  exact ⟨c, List.mem_append_right _ member, word⟩

theorem HasWord.append_right {text : List Char} (has : HasWord text) (behind : List Char) :
    HasWord (text ++ behind) := by
  obtain ⟨c, member, word⟩ := has
  exact ⟨c, List.mem_append_left _ member, word⟩

theorem isWordCharacter_of_isUpper {c : Char} (upper : c.isUpper = true) :
    isWordCharacter c = true := by
  simp [isWordCharacter, isAlphanum_eq, upper]

theorem isWordCharacter_of_isSmallOrDigit {c : Char} (small : isSmallOrDigit c = true) :
    isWordCharacter c = true := by
  rw [isSmallOrDigit, Bool.or_eq_true] at small
  rcases small with lower | digit
  · simp [isWordCharacter, isAlphanum_eq, lower]
  · simp [isWordCharacter, isAlphanum_eq, digit]

theorem hasWord_of_takeWhile
    {accept : Char → Bool} (words : ∀ c, accept c = true → isWordCharacter c = true)
    {text run behind : List Char} (split : splitRun accept text = (run, behind)) (some : run ≠ []) :
    HasWord run := by
  obtain ⟨c, rest, rfl⟩ := List.exists_cons_of_ne_nil some
  refine ⟨c, List.mem_cons_self, words c ?_⟩
  have taken : c ∈ text.takeWhile accept := by
    rw [(Prod.mk.inj split).1]
    exact List.mem_cons_self
  exact List.mem_takeWhile_imp taken

theorem hasWord_of_lastWord?
    {reversed word before : List Char} (found : lastWord? reversed = some (word, before)) :
    HasWord word.reverse := by
  suffices forward : HasWord word by
    obtain ⟨c, member, isWord⟩ := forward
    exact ⟨c, List.mem_reverse.mpr member, isWord⟩
  have words := fun c => isWordCharacter_of_isSmallOrDigit (c := c)
  unfold lastWord? at found
  split at found
  · split at found
    · cases found
    · rename_i capitals
      cases found
      refine hasWord_of_takeWhile (fun c => isWordCharacter_of_isUpper) (rfl : splitRun _ reversed = _) ?_
      exact fun empty => capitals _ (Prod.ext empty rfl)
  · split_ifs at found
    · cases found
      exact (hasWord_of_takeWhile words ‹_› (by rintro rfl; simp_all)).append_right _
    · cases found
      exact hasWord_of_takeWhile words ‹_› (by rintro rfl; simp_all)
  · cases found
    exact hasWord_of_takeWhile words ‹_› (by rintro rfl; simp_all)

theorem hasWord_irregularPlural? :
    ∀ noun ∈ irregularNouns, HasWord noun.2.toList ∧ HasWord (capitalised noun.2.toList) := by
  decide +kernel

theorem hasWord_pluralWord {word : List Char} (has : HasWord word) : HasWord (pluralWord word) := by
  unfold pluralWord
  dsimp only
  split
  · rename_i plural found
    obtain ⟨noun, member, rfl⟩ := Option.map_eq_some_iff.mp found
    have checked := hasWord_irregularPlural? noun (List.mem_of_find?_eq_some member)
    rw [matchCapital]
    split_ifs
    · exact checked.2
    · exact checked.1
  · split_ifs
    · exact has
    · exact has.append_right _
    · exact (by decide : HasWord "ies".toList).append_left _
    · exact (by decide : HasWord "ves".toList).append_left _
    · exact (by decide : HasWord "ves".toList).append_left _
    · exact has.append_right _
    · exact has.append_right _

theorem hasWord_plural {name : String} (has : HasWord name.toList) :
    HasWord (plural name).toList := by
  unfold plural inflectLastWord
  split
  · exact has
  · rename_i word before found
    rw [String.toList_ofList]
    exact (hasWord_pluralWord (hasWord_of_lastWord? found)).append_left _

/-- The table of a class is a word of name characters. -/
theorem tableName_spec {name : String} (className : isClassName (studlyCase name) = true) :
    tableName name ≠ "" ∧ ∀ c ∈ (tableName name).toList, IsNameCharacter c := by
  obtain ⟨first, rest, shape, upper, _⟩ := exists_of_isClassName className
  have has : HasWord (studlyCase name).toList :=
    ⟨first, by simp [shape], isWordCharacter_of_isUpper upper⟩
  obtain ⟨c, member, word⟩ := hasWord_plural has
  exact ⟨snakeCase_ne_empty member word, fun c => isNameCharacter_of_mem_snakeCase⟩

end Text

/-- A class name may name a folder. -/
theorem isPlainName_of_isClassName {name : String} (className : isClassName name = true) :
    IsPlainName name := by
  obtain ⟨first, rest, shape, upper, alphanum⟩ := Text.exists_of_isClassName className
  have notDot : first ≠ '.' := by
    rintro rfl
    simp at upper
  refine ⟨?_, fun inside => absurd (alphanum '/' inside) (by decide), ?_, ?_⟩
  · rintro rfl
    cases shape
  · rintro rfl
    exact notDot (List.cons.inj shape).1.symm
  · rintro rfl
    exact notDot (List.cons.inj shape).1.symm

end Scaffold
