import Mathlib.Data.List.Chain
import Scaffold.Proofs.Text.Correspondence

/-!
# Spellings keep letters and digits

The four spellings of a name change the case of its letters and the separators between its words.
No letter and no digit is lost or added by them, and each of them is a normal form: what is spelled
in one way stays as it is when it is spelled in this way again.
-/

namespace Scaffold.Text

/-- The letters and digits of a text in small letters, one after the other. -/
def keptCharacters (text : String) : List Char :=
  lowered (text.toList.filter Char.isAlphanum)

/-- Small letters and digits, with single separators between them. -/
structure IsSeparated (separator : Char) (text : List Char) : Prop where
  characters : ∀ c ∈ text, isSmallOrDigit c = true ∨ c = separator
  notFirst : text.head? ≠ some separator
  notLast : text.getLast? ≠ some separator
  single : text.IsChain fun here next => here = separator → next ≠ separator

/-! ## Words that are joined -/

section

variable {cut : Char → Char → Option Char → Bool} {separator : Char}
variable {parts : List (List Char)} {part rest text : List Char}

/--
A cut falls in front of letters and digits only, and neighbours that it leaves together it leaves
together in small letters too.
-/
structure KeepsLowered (cut : Char → Char → Option Char → Bool) : Prop where
  within : ∀ here next after, cut here next after = true → isWordCharacter next = true
  lowered : ∀ here next after later, isWordCharacter here = true → isWordCharacter next = true →
    cut here next after = false → cut here.toLower next.toLower later = false

/-- A word that is not cut apart, wherever it stands. -/
structure IsWhole (cut : Char → Char → Option Char → Bool) (part : List Char) : Prop where
  some : part ≠ []
  characters : ∀ c ∈ part, isWordCharacter c = true
  uncut : part.IsChain fun here next => ∀ after, cut here next after = false

theorem keepsLowered_atHump : KeepsLowered atHump where
  within here next after isCut := by
    apply isWordCharacter_of_isUpper
    exact (Bool.and_eq_true_iff.mp isCut).1
  lowered here next after later _ _ _ := by
    rw [atHump, isUpper_toLower, Bool.false_and]

theorem isDigit_toLower {c : Char} (alphanum : isWordCharacter c = true) :
    c.toLower.isDigit = c.isDigit :=
  @forall_ascii (fun c => c.toLower.isDigit = c.isDigit) (by decide +kernel) c
    (toNat_lt_of_isAlphanum alphanum)

theorem keepsLowered_atHumpOrDigit : KeepsLowered atHumpOrDigit where
  within here next after isCut := by
    rw [atHumpOrDigit, Bool.or_eq_true, Bool.and_eq_true] at isCut
    cases isCut with
    | inl hump => exact keepsLowered_atHump.within here next after hump
    | inr change => exact change.1
  lowered here next after later isWord isWordToo uncut := by
    have together : here.isDigit = next.isDigit := by
      rw [atHumpOrDigit, Bool.or_eq_false_iff, isWordToo, Bool.true_and] at uncut
      simpa using uncut.2
    rw [atHumpOrDigit, atHump, isUpper_toLower, isDigit_toLower isWord, isDigit_toLower isWordToo,
      together]
    simp

/-- Neighbours in a piece are letters or digits that are not cut apart. -/
theorem isChain_of_mem_pieces (member : part ∈ pieces cut text) :
    part.IsChain fun here next => isWordCharacter here = true ∧ isWordCharacter next = true ∧
      ∃ after, cut here next after = false := by
  induction text generalizing part with
  | nil =>
      rw [List.mem_singleton.mp member]
      exact .nil
  | cons here others hypothesis =>
      rw [pieces] at member
      split_ifs at member with separates starts
      · rcases List.mem_cons.mp member with rfl | later
        · exact .nil
        · exact hypothesis later
      · rcases List.mem_cons.mp member with rfl | later
        · exact .singleton here
        · exact hypothesis later
      · have isWord : isWordCharacter here = true := by simpa using separates
        cases others with
        | nil =>
            rw [List.mem_singleton.mp member]
            exact .singleton here
        | cons next following =>
            cases isWordToo : isWordCharacter next with
            | false =>
                rw [pieces, isWordToo] at member hypothesis
                rcases List.mem_cons.mp member with rfl | later
                · exact .singleton here
                · exact hypothesis (List.mem_cons_of_mem _ later)
            | true =>
                obtain ⟨piece, more, shape⟩ := exists_pieces_cons cut isWordToo following
                rw [shape] at member hypothesis
                rcases List.mem_cons.mp member with rfl | later
                · have together : cut here next following.head? = false := by
                    simpa [startsAfter] using starts
                  apply List.IsChain.cons_cons ⟨isWord, isWordToo, _, together⟩
                  exact hypothesis List.mem_cons_self
                · exact hypothesis (List.mem_cons_of_mem _ later)

/-- The words of a text are not cut apart in small letters. -/
theorem isWhole_lowered (keeps : KeepsLowered cut) (member : part ∈ words cut text) :
    IsWhole cut (lowered part) where
  some := by
    have some := (List.mem_filter.mp member).2
    simpa [lowered] using some
  characters := by
    intro c within
    obtain ⟨original, isIn, rfl⟩ := List.mem_map.mp within
    exact toLower_isAlphanum (mem_of_mem_words member isIn).2
  uncut := by
    rw [lowered, List.isChain_map]
    apply (isChain_of_mem_pieces (List.mem_filter.mp member).1).imp
    rintro here next ⟨isWord, isWordToo, after, uncut⟩ later
    exact keeps.lowered here next after later isWord isWordToo uncut

/-- A whole word stands in one piece with what follows it up to the next cut. -/
theorem pieces_append (whole : IsWhole cut part)
    (ends : ∀ here, startsAfter cut here rest = false) {first : List Char}
    {others : List (List Char)} (shape : pieces cut rest = first :: others) :
    pieces cut (part ++ rest) = (part ++ first) :: others := by
  obtain ⟨-, characters, uncut⟩ := whole
  induction part with
  | nil => exact shape
  | cons here more hypothesis =>
      obtain ⟨isWord, areWords⟩ := List.forall_mem_cons.mp characters
      have together : startsAfter cut here (more ++ rest) = false := by
        cases more with
        | nil => exact ends here
        | cons next following => exact (List.isChain_cons_cons.mp uncut).1 _
      rw [List.cons_append, pieces, isWord, together, hypothesis areWords uncut.of_cons]
      rfl

/-- Whole words that are joined by a separator are found again. -/
theorem words_intercalate (keeps : KeepsLowered cut) (separates : isWordCharacter separator = false)
    (whole : ∀ part ∈ parts, IsWhole cut part) :
    words cut ([separator].intercalate parts) = parts := by
  induction parts with
  | nil => rfl
  | cons part others hypothesis =>
      obtain ⟨isWhole, areWhole⟩ := List.forall_mem_cons.mp whole
      have some : part.isEmpty = false := by simpa using isWhole.some
      by_cases last : others = []
      · rw [last, List.intercalate_singleton, words, ← List.append_nil part,
          pieces_append isWhole (fun _ => rfl) rfl, List.append_nil]
        simp [some]
      · have ends (here : Char) (following : List Char) :
            startsAfter cut here (separator :: following) = false := by
          rw [startsAfter, ← Bool.not_eq_true]
          intro isCut
          rw [keeps.within _ _ _ isCut] at separates
          cases separates
        have shape (following : List Char) :
            pieces cut (separator :: following) = [] :: pieces cut following := by
          rw [pieces, separates]
          rfl
        rw [List.intercalate_cons_of_ne_nil last, List.append_assoc, List.singleton_append, words,
          pieces_append isWhole (fun here => ends here _) (shape _), List.append_nil,
          List.filter_cons, some, ← words, hypothesis areWhole]
        rfl

/-- Joined words are found again in small letters. -/
theorem words_joinLowered (keeps : KeepsLowered cut)
    (separates : isWordCharacter separator = false) (text : List Char) :
    words cut (joinLowered separator (words cut text)) = (words cut text).map lowered := by
  apply words_intercalate keeps separates
  intro part member
  obtain ⟨word, isWord, rfl⟩ := List.mem_map.mp member
  exact isWhole_lowered keeps isWord

theorem joinLowered_words_joinLowered (keeps : KeepsLowered cut)
    (separates : isWordCharacter separator = false) (text : List Char) :
    joinLowered separator (words cut (joinLowered separator (words cut text))) =
      joinLowered separator (words cut text) := by
  have again : ((words cut text).map lowered).map lowered = (words cut text).map lowered := by
    rw [List.map_map]
    exact List.map_congr_left fun word _ => lowered_lowered word
  rw [words_joinLowered keeps separates, joinLowered, again, joinLowered]

/-- Nothing but the separators stands between joined parts. -/
theorem filter_intercalate (clean : ∀ part ∈ parts, separator ∉ part) :
    ([separator].intercalate parts).filter (· ≠ separator) = parts.flatten := by
  induction parts with
  | nil => rfl
  | cons part others hypothesis =>
      obtain ⟨isClean, areClean⟩ := List.forall_mem_cons.mp clean
      have kept : part.filter (· ≠ separator) = part := by
        apply List.filter_eq_self.mpr
        intro c member
        simpa using ne_of_mem_of_not_mem member isClean
      by_cases last : others = []
      · rw [last, List.intercalate_singleton, kept, List.flatten_singleton]
      · rw [List.intercalate_cons_of_ne_nil last, List.filter_append, List.filter_append, kept,
          hypothesis areClean]
        simp

theorem lowered_flatten (parts : List (List Char)) :
    (parts.map lowered).flatten = lowered parts.flatten :=
  List.map_flatten.symm

/-- Without its separators, a text of joined words has the letters and digits of the words. -/
theorem filter_joinLowered (separates : isSmallOrDigit separator = false) (text : List Char) :
    (joinLowered separator (words cut text)).filter (· ≠ separator) =
      lowered (text.filter isWordCharacter) := by
  rw [joinLowered, filter_intercalate, lowered_flatten, flatten_words]
  intro part member within
  obtain ⟨word, isWord, rfl⟩ := List.mem_map.mp member
  obtain ⟨original, isIn, rfl⟩ := List.mem_map.mp within
  rw [isSmallOrDigit_toLower (mem_of_mem_words isWord isIn).2] at separates
  cases separates

theorem isSeparated_of_small (separates : isSmallOrDigit separator = false)
    (small : ∀ c ∈ text, isSmallOrDigit c = true) : IsSeparated separator text := by
  have notWithin : separator ∉ text := by
    intro within
    rw [small separator within] at separates
    cases separates
  refine ⟨fun c member => .inl (small c member), ?_, ?_, ?_⟩
  · exact fun isFirst => notWithin (List.mem_of_head? isFirst)
  · exact fun isLast => notWithin (List.mem_of_getLast? isLast)
  · apply List.Pairwise.isChain
    apply List.pairwise_of_forall_mem_list
    rintro _ isHere _ _ rfl
    exact absurd isHere notWithin

theorem isSeparated_intercalate (separates : isSmallOrDigit separator = false)
    (small : ∀ part ∈ parts, part ≠ [] ∧ ∀ c ∈ part, isSmallOrDigit c = true) :
    IsSeparated separator ([separator].intercalate parts) := by
  induction parts with
  | nil => exact isSeparated_of_small separates (List.forall_mem_nil _)
  | cons part others hypothesis =>
      obtain ⟨⟨some, areSmall⟩, othersSmall⟩ := List.forall_mem_cons.mp small
      have alone := isSeparated_of_small separates areSmall
      by_cases last : others = []
      · rw [last, List.intercalate_singleton]
        exact alone
      · have joined := hypothesis othersSmall
        have someJoined : [separator].intercalate others ≠ [] := by
          obtain ⟨next, more, rfl⟩ := List.exists_cons_of_ne_nil last
          obtain ⟨c, isIn⟩ := List.exists_mem_of_ne_nil _ (othersSmall next List.mem_cons_self).1
          exact List.ne_nil_of_mem (mem_intercalate_of_mem List.mem_cons_self isIn)
        rw [List.intercalate_cons_of_ne_nil last]
        refine ⟨?_, ?_, ?_, ?_⟩
        · intro c member
          rcases List.mem_append.mp member with before | later
          · rcases List.mem_append.mp before with isIn | isSeparator
            · exact .inl (areSmall c isIn)
            · exact .inr (List.mem_singleton.mp isSeparator)
          · exact joined.characters c later
        · rw [List.append_assoc, List.head?_append_of_ne_nil _ some]
          exact alone.notFirst
        · rw [List.getLast?_append_of_ne_nil _ someJoined]
          exact joined.notLast
        · rw [List.isChain_append, List.isChain_append]
          refine ⟨⟨alone.single, .singleton _, ?_⟩, joined.single, ?_⟩
          · rintro _ isLast _ _ rfl
            exact absurd isLast alone.notLast
          · rintro _ _ _ isFirst - rfl
            exact joined.notFirst isFirst

theorem isSeparated_joinLowered (separates : isSmallOrDigit separator = false)
    (text : List Char) : IsSeparated separator (joinLowered separator (words cut text)) := by
  apply isSeparated_intercalate separates
  intro part member
  obtain ⟨word, isWord, rfl⟩ := List.mem_map.mp member
  constructor
  · have some := (List.mem_filter.mp isWord).2
    simpa [lowered] using some
  · intro c within
    obtain ⟨original, isIn, rfl⟩ := List.mem_map.mp within
    exact isSmallOrDigit_toLower (mem_of_mem_words isWord isIn).2

end

/-! ## Words that are written together -/

theorem toLower_toLower (c : Char) : c.toLower.toLower = c.toLower :=
  toLower_of_isUpper_eq_false (isUpper_toLower c)

theorem lowered_uncapitalised (word : List Char) : lowered (uncapitalised word) = lowered word := by
  cases word with
  | nil => rfl
  | cons first rest => exact congrArg (· :: lowered rest) (toLower_toLower first)

theorem lowered_studlyCharacters (text : List Char) :
    lowered (studlyCharacters text) = lowered (text.filter isWordCharacter) := by
  have letters : ((words atSeparator text).map capitalised).map lowered =
      (words atSeparator text).map lowered := by
    rw [List.map_map]
    exact List.map_congr_left fun word _ => lowered_capitalised_eq word
  rw [studlyCharacters, ← lowered_flatten, letters, lowered_flatten, flatten_words]

theorem isAlphanum_of_mem_studlyCharacters (text : List Char) :
    ∀ c ∈ studlyCharacters text, c.isAlphanum = true := by
  intro c member
  have spelled : c ∈ (studlyCase (String.ofList text)).toList := by
    rw [studlyCase, String.toList_ofList, String.toList_ofList]
    exact member
  exact isAlphanum_of_mem_studlyCase spelled

theorem isAlphanum_of_mem_uncapitalised {word : List Char}
    (alphanum : ∀ c ∈ word, c.isAlphanum = true) :
    ∀ c ∈ uncapitalised word, c.isAlphanum = true := by
  cases word with
  | nil => exact alphanum
  | cons first rest =>
      obtain ⟨isFirst, areRest⟩ := List.forall_mem_cons.mp alphanum
      exact List.forall_mem_cons.mpr ⟨toLower_isAlphanum isFirst, areRest⟩

/-- The spelling of a variable is its own spelling. -/
theorem camelCase_camelCase (text : String) : camelCase (camelCase text) = camelCase text := by
  have alphanum := isAlphanum_of_mem_uncapitalised (isAlphanum_of_mem_studlyCharacters text.toList)
  have again (word : List Char) :
      uncapitalised (capitalised (uncapitalised word)) = uncapitalised word := by
    cases word with
    | nil => rfl
    | cons first rest =>
        exact congrArg (· :: rest) ((toLower_toUpper_eq _).trans (toLower_toLower first))
  rw [camelCase, camelCase, String.toList_ofList, studlyCharacters_of_alphanum alphanum, again]

/--
Every spelling of a text has its letters and digits in their order: those in small letters once the
separators are taken out, the others once they are put into small letters.  Spellings in small
letters have single separators, and between words only.  Spelling a text again in the way in which
it is spelled changes nothing.
-/
theorem spellings_keep_characters (text : String) :
    (snakeCase text).toList.filter (· ≠ '_') = keptCharacters text ∧
      (kebabCase text).toList.filter (· ≠ '-') = keptCharacters text ∧
      lowered (studlyCase text).toList = keptCharacters text ∧
      lowered (camelCase text).toList = keptCharacters text ∧
      IsSeparated '_' (snakeCase text).toList ∧ IsSeparated '-' (kebabCase text).toList ∧
      snakeCase (snakeCase text) = snakeCase text ∧ kebabCase (kebabCase text) = kebabCase text ∧
      studlyCase (studlyCase text) = studlyCase text ∧
      camelCase (camelCase text) = camelCase text := by
  have underscore : isSmallOrDigit '_' = false := by decide
  have hyphen : isSmallOrDigit '-' = false := by decide
  have snake : (snakeCase text).toList = joinLowered '_' (words atHump text.toList) :=
    String.toList_ofList
  have kebab : (kebabCase text).toList = joinLowered '-' (words atHumpOrDigit text.toList) :=
    String.toList_ofList
  have studly : (studlyCase text).toList = studlyCharacters text.toList := String.toList_ofList
  have camel : (camelCase text).toList = uncapitalised (studlyCharacters text.toList) :=
    String.toList_ofList
  refine ⟨?_, ?_, ?_, ?_, ?_, ?_, ?_, ?_, ?_, ?_⟩
  · rw [snake]
    exact filter_joinLowered underscore _
  · rw [kebab]
    exact filter_joinLowered hyphen _
  · rw [studly]
    exact lowered_studlyCharacters _
  · rw [camel, lowered_uncapitalised]
    exact lowered_studlyCharacters _
  · rw [snake]
    exact isSeparated_joinLowered underscore _
  · rw [kebab]
    exact isSeparated_joinLowered hyphen _
  · rw [snakeCase, snake, joinLowered_words_joinLowered keepsLowered_atHump (by decide), snakeCase]
  · rw [kebabCase, kebab, joinLowered_words_joinLowered keepsLowered_atHumpOrDigit (by decide),
      kebabCase]
  · exact studlyCase_studlyCase text
  · exact camelCase_camelCase text

end Scaffold.Text
