import Scaffold.Proofs.Php.Binding

/-!
# Lists are read back

A reader of code takes a string literal up to its closing apostrophe and every other scalar as a
word, and finds the items of a list between the commas.  From a written list it reads the items that
were written, each with its kind: a number is no text of digits, and a keyword no text with its
letters.  Integers are read by their digits, so they may have any size.
-/

namespace Scaffold.Php

/-! ## The reader -/

/-- Read a string literal: its text, and what follows the literal. -/
def readString : List Char → Option (String × List Char)
  | '\'' :: rest => (readQuoted rest).map fun (text, rest) => (String.ofList text, rest)
  | _ => none

/-- A character of a scalar that is no string literal. -/
def isScalarPart (c : Char) : Bool :=
  isNamePart c || c == '-'

/-- The scalar that a keyword stands for, in letters of either case. -/
def keyword? (word : List Char) : Option Scalar :=
  match word.map Char.toLower with
  | ['n', 'u', 'l', 'l'] => some .null
  | ['t', 'r', 'u', 'e'] => some (.bool true)
  | ['f', 'a', 'l', 's', 'e'] => some (.bool false)
  | _ => none

/-- The scalar that a word spells. -/
def wordScalar? (word : List Char) : Option Scalar :=
  ((Decimal.integerOf? word).map .int).or (keyword? word)

/-- Read a scalar: its value, and what follows it. -/
def readScalar (text : List Char) : Option (Scalar × List Char) :=
  ((readString text).map fun (found, rest) => (.text found, rest)).or
    ((wordScalar? (text.takeWhile isScalarPart)).map (·, text.dropWhile isScalarPart))

/-- What follows the blanks that a text starts with. -/
def behindBlanks (text : List Char) : List Char :=
  text.dropWhile Char.isWhitespace

theorem suffix_of_readQuoted {text found rest : List Char}
    (reads : readQuoted text = some (found, rest)) : rest <:+ text := by
  fun_induction readQuoted text generalizing found with
  | case1 => cases reads
  | case2 following =>
      cases reads
      exact List.suffix_cons _ _
  | case3 following hypothesis | case4 following hypothesis =>
      obtain ⟨_, inner, same⟩ := Option.map_eq_some_iff.mp reads
      cases same
      exact ((hypothesis inner).trans (List.suffix_cons _ _)).trans (List.suffix_cons _ _)
  | case5 c following _ _ _ hypothesis =>
      obtain ⟨_, inner, same⟩ := Option.map_eq_some_iff.mp reads
      cases same
      exact (hypothesis inner).trans (List.suffix_cons _ _)

theorem suffix_of_readString {text rest : List Char} {found : String}
    (reads : readString text = some (found, rest)) : rest <:+ text := by
  rw [readString.eq_def] at reads
  split at reads
  · obtain ⟨_, inner, same⟩ := Option.map_eq_some_iff.mp reads
    cases same
    exact (suffix_of_readQuoted inner).trans (List.suffix_cons _ _)
  · cases reads

theorem suffix_of_readScalar {text rest : List Char} {item : Scalar}
    (reads : readScalar text = some (item, rest)) : rest <:+ text := by
  rcases Option.or_eq_some_iff.mp reads with quoted | ⟨_, word⟩
  · obtain ⟨_, inner, same⟩ := Option.map_eq_some_iff.mp quoted
    cases same
    exact suffix_of_readString inner
  · obtain ⟨_, _, same⟩ := Option.map_eq_some_iff.mp word
    cases same
    exact List.dropWhile_suffix _

theorem behindBlanks_suffix (text : List Char) : behindBlanks text <:+ text :=
  List.dropWhile_suffix Char.isWhitespace

/-- Read the items of a list up to its closing bracket, and what follows the list. -/
def readItems : List Char → Option (List Scalar × List Char)
  | ']' :: rest => some ([], rest)
  | text =>
      match _ : readScalar text with
      | none => none
      | some (item, behind) =>
          match _ : behindBlanks behind with
          | ']' :: rest => some ([item], rest)
          | ',' :: next =>
              (readItems (behindBlanks next)).map fun (items, rest) => (item :: items, rest)
          | _ => none
termination_by text => text.length
decreasing_by
  rename_i read mark
  have behindItem := (suffix_of_readScalar read).length_le
  have behindMark := (behindBlanks_suffix behind).length_le
  have behindComma := (behindBlanks_suffix next).length_le
  rw [mark, List.length_cons] at behindMark
  omega

/-- Read a list literal: its items, and what follows the list. -/
def readList : List Char → Option (List Scalar × List Char)
  | '[' :: rest => readItems (behindBlanks rest)
  | _ => none

/-! ## What is read from written literals -/

theorem readString_string (text : String) (rest : List Char) :
    readString ((string text).toList ++ rest) = some (text, rest) := by
  rw [toList_string, List.cons_append, List.append_assoc, List.singleton_append, readString,
    readQuoted_flatMap_escaped, Option.map_some]
  dsimp only
  rw [String.ofList_toList]

theorem readString_cons_of_ne {c : Char} {rest : List Char} (noQuote : c ≠ '\'') :
    readString (c :: rest) = none := by
  rw [readString.eq_def]
  split
  · rename_i quoted
    exact absurd (List.cons.inj quoted).1 noQuote
  · rfl

/-- A word is read up to the first character that is no part of it. -/
theorem readScalar_word {word rest : List Char} {item : Scalar}
    (spells : wordScalar? word = some item) (parts : ∀ c ∈ word, isScalarPart c = true)
    (stops : ∀ c ∈ rest.head?, isScalarPart c = false) :
    readScalar (word ++ rest) = some (item, rest) := by
  have noneBehind : rest.takeWhile isScalarPart = [] ∧ rest.dropWhile isScalarPart = rest := by
    cases rest with
    | nil => exact ⟨rfl, rfl⟩
    | cons c others =>
        have stopsHere : ¬ isScalarPart c = true := Bool.not_eq_true _ ▸ stops c rfl
        exact ⟨List.takeWhile_cons_of_neg stopsHere, List.dropWhile_cons_of_neg stopsHere⟩
  have noString : readString (word ++ rest) = none := by
    cases word with
    | nil => cases spells
    | cons c others =>
        apply readString_cons_of_ne
        rintro rfl
        exact absurd (parts '\'' List.mem_cons_self) (by decide)
  rw [readScalar, noString, List.takeWhile_append_of_pos parts,
    List.dropWhile_append_of_pos parts, noneBehind.1, noneBehind.2, List.append_nil, spells]
  rfl

theorem isScalarPart_writtenInt (value : Int) :
    ∀ c ∈ (Decimal.writtenInt value).toList, isScalarPart c = true := by
  rw [Decimal.writtenInt, String.toList_ofList, List.forall_mem_append]
  constructor
  · split_ifs <;> exact List.all_iff_forall_prop.mp (by decide)
  · intro c member
    have digit : c.isDigit = true := Decimal.isDigit_of_mem_naturalDigits member
    simp [isScalarPart, isNamePart, Char.isAlphanum, digit]

/-- The literal of a scalar is read back, whatever follows it that is no part of a word. -/
theorem readScalar_literal {item : Scalar} (exactly : ∀ number, item ≠ .double number)
    {rest : List Char} (stops : ∀ c ∈ rest.head?, isScalarPart c = false) :
    readScalar (item.literal.toList ++ rest) = some (item, rest) := by
  cases item with
  | null => exact readScalar_word rfl (List.all_iff_forall_prop.mp (by decide)) stops
  | bool value =>
      cases value <;>
        exact readScalar_word rfl (List.all_iff_forall_prop.mp (by decide)) stops
  | int value =>
      have spells : wordScalar? (Decimal.writtenInt value).toList = some (.int value) := by
        rw [wordScalar?, Decimal.integerOf?_writtenInt]
        rfl
      exact readScalar_word spells (isScalarPart_writtenInt value) stops
  | double number => exact absurd rfl (exactly number)
  | text value =>
      change readScalar ((string value).toList ++ rest) = _
      rw [readScalar, readString_string]
      rfl

/-- A scalar starts with an apostrophe or with a part of a word. -/
theorem head_of_readScalar {text : List Char} {found : Scalar × List Char}
    (reads : readScalar text = some found) :
    ∀ c ∈ text.head?, c = '\'' ∨ isScalarPart c = true := by
  intro c head
  cases text with
  | nil => cases head
  | cons first rest =>
      cases head
      by_contra neither
      obtain ⟨noQuote, noPart⟩ := not_or.mp neither
      rw [readScalar, readString_cons_of_ne noQuote, List.takeWhile_cons_of_neg noPart] at reads
      cases reads

theorem behindBlanks_of_readScalar {text : List Char} {found : Scalar × List Char}
    (reads : readScalar text = some found) : behindBlanks text = text := by
  have first := head_of_readScalar reads
  cases text with
  | nil => rfl
  | cons c rest =>
      apply List.dropWhile_cons_of_neg
      intro blank
      rw [Char.isWhitespace] at blank
      simp only [Bool.or_eq_true, decide_eq_true_eq] at blank
      rcases blank with ((rfl | rfl) | rfl) | rfl <;> exact absurd (first _ rfl) (by decide)

/-- How the reading of items goes on behind one of them. -/
theorem readItems_of_readScalar {text behind : List Char} {item : Scalar}
    (reads : readScalar text = some (item, behind)) :
    readItems text =
      match behindBlanks behind with
      | ']' :: rest => some ([item], rest)
      | ',' :: next =>
          (readItems (behindBlanks next)).map fun (items, rest) => (item :: items, rest)
      | _ => none := by
  have first := head_of_readScalar reads
  rw [readItems.eq_def]
  split
  · exact absurd (first ']' rfl) (by decide)
  · split
    · rename_i fails
      rw [fails] at reads
      cases reads
    · rename_i succeeds
      rw [reads] at succeeds
      cases succeeds
      split
      · rename_i closed
        rw [closed]
        rfl
      · rename_i separated
        rw [separated]
        rfl
      · rename_i notClosed notSeparated
        split
        · rename_i closed
          exact absurd closed (notClosed _)
        · rename_i separated
          exact absurd separated (notSeparated _)
        · rfl

/-- What stands behind an item of a list, by the items after it. -/
def behindItem (rest : List Char) : List Scalar → List Char
  | [] => ']' :: rest
  | others => ',' :: ' ' :: ((", ".intercalate (others.map Scalar.literal)).toList ++ ']' :: rest)

theorem readScalar_intercalate {item : Scalar} (exactly : ∀ number, item ≠ .double number)
    (others : List Scalar) (rest : List Char) :
    readScalar ((", ".intercalate ((item :: others).map Scalar.literal)).toList ++ ']' :: rest) =
      some (item, behindItem rest others) := by
  have stops : ∀ c ∈ (behindItem rest others).head?, isScalarPart c = false := by
    cases others <;> rintro _ ⟨⟩ <;> decide
  rw [← readScalar_literal exactly stops]
  cases others with
  | nil => rw [List.map_singleton, String.intercalate_singleton, behindItem]
  | cons second others =>
      rw [List.map_cons, List.map_cons, String.intercalate_cons_cons, ← List.map_cons,
        String.toList_append, String.toList_append, List.append_assoc, List.append_assoc]
      rfl

/-- The items between the brackets are read back, whatever follows the list. -/
theorem readItems_intercalate {items : List Scalar}
    (exactly : ∀ item ∈ items, ∀ number, item ≠ .double number) (rest : List Char) :
    readItems ((", ".intercalate (items.map Scalar.literal)).toList ++ ']' :: rest) =
      some (items, rest) := by
  induction items with
  | nil =>
      rw [List.map_nil, String.intercalate_nil]
      exact readItems.eq_1 rest
  | cons item others hypothesis =>
      obtain ⟨exactItem, exactOthers⟩ := List.forall_mem_cons.mp exactly
      rw [readItems_of_readScalar (readScalar_intercalate exactItem others rest)]
      cases others with
      | nil => rfl
      | cons second others =>
          have next := readScalar_intercalate (exactOthers second List.mem_cons_self) others rest
          have blank (text : List Char) : behindBlanks (' ' :: text) = behindBlanks text :=
            List.dropWhile_cons_of_pos rfl
          change (readItems (behindBlanks (' ' :: _))).map _ = _
          rw [blank, behindBlanks_of_readScalar next, hypothesis exactOthers]
          rfl

theorem readList_array {items : List Scalar}
    (exactly : ∀ item ∈ items, ∀ number, item ≠ .double number) (rest : List Char) :
    readList ((array items).toList ++ rest) = some (items, rest) := by
  rw [toList_array, List.cons_append, List.append_assoc, List.singleton_append, readList]
  cases items with
  | nil => exact readItems.eq_1 rest
  | cons item others =>
      have first := readScalar_intercalate (exactly item List.mem_cons_self) others rest
      rw [behindBlanks_of_readScalar first, readItems_intercalate exactly]

end Scaffold.Php
