import Scaffold.Proofs.Text.Humps

/-!
# Entities and tables that name each other

An entity gives the name of its table, and a table the name of its entity, by the plural and the
singular of the last word.  The main statement says which pairs name each other: the words of the
table have to be found in the entity, and its last word has to be the plural of a noun from which
that noun is made again.  Two capitals at the end of an entity are taken for one word, so that the
plural of the second letter is made behind the first one.
-/

namespace Scaffold.Text

/-! ## A letter behind a letter -/

/-- Letters with their plurals behind another letter. -/
inductive LetterInflects (before letter : Char) : List Char → Prop where
  | sibilant (ends : letter ∈ ['x', 'z']) : LetterInflects before letter [letter, 'e', 's']
  | plain (even : letter ∉ ['s', 'u', 'i', 'x', 'z'])
      (notPair : [before, letter] ∉ [['s', 'h'], ['c', 'h'], ['f', 'e']])
      (vowel : letter ∈ ['y', 'o'] → before ∈ ['a', 'e', 'i', 'o', 'u'])
      (double : letter = 'f' → before = 'f') :
      LetterInflects before letter [letter, 's']

section

variable {before letter : Char} {ending : List Char}

theorem length_irregularNouns :
    ∀ pair ∈ irregularNouns, 3 ≤ pair.1.toList.length ∧
      (pair.2.toList.length ≤ 3 → pair.2.toList.getLast? ≠ some 's') := by
  decide +kernel

theorem irregularPlural?_of_length {noun : List Char} (short : noun.length < 3) :
    irregularPlural? noun = none := by
  rw [Option.eq_none_iff_forall_ne_some]
  intro plural found
  obtain ⟨pair, member, rfl, -⟩ := irregularPlural?_eq_some_iff.mp found
  have long := (length_irregularNouns pair member).1
  omega

theorem irregularSingular?_of_length {plural : List Char} (short : plural.length ≤ 3)
    (ends : plural.getLast? = some 's') : irregularSingular? plural = none := by
  rw [Option.eq_none_iff_forall_ne_some]
  intro noun found
  obtain ⟨pair, member, -, rfl⟩ := irregularSingular?_eq_some_iff.mp found
  exact (length_irregularNouns pair member).2 short ends

theorem pluralWord_pair_iff (small : lowered [before, letter] = [before, letter]) :
    pluralWord [before, letter] = [before, letter, 's'] ↔
      (letter = 's' → before = 'i') ∧ letter ∉ ['x', 'z'] ∧
        [before, letter] ∉ [['s', 'h'], ['c', 'h'], ['f', 'e']] ∧
          (letter ∈ ['y', 'o'] → before ∈ ['a', 'e', 'i', 'o', 'u']) ∧
            (letter = 'f' → before = 'f') := by
  rw [pluralWord, small, irregularPlural?_of_length (by simp)]
  clear small
  simp only [endsWithAny, consonantBeforeLast, dropEnd]
  simp [List.isSuffixOf, List.isPrefixOf]
  constructor
  · split_ifs <;> grind
  · intro conditions
    rw [if_neg, if_neg, if_neg, if_neg, if_neg, if_neg] <;> grind

theorem pluralWord_pair_of_sibilant (small : lowered [before, letter] = [before, letter])
    (sibilant : letter ∈ ['x', 'z']) :
    pluralWord [before, letter] = [before, letter, 'e', 's'] := by
  rw [pluralWord, small, irregularPlural?_of_length (by simp)]
  rcases List.mem_pair.mp sibilant with rfl | rfl
  · simp [endsWithAny, List.isSuffixOf, List.isPrefixOf]
  · simp [endsWithAny, List.isSuffixOf, List.isPrefixOf]

theorem singularWord_s_iff (small : lowered [letter] = [letter]) :
    singularWord [letter, 's'] = [letter] ↔ letter ∉ ['s', 'u', 'i'] := by
  have smallPlural : lowered [letter, 's'] = [letter, 's'] := congrArg (· ++ ['s']) small
  rw [singularWord, smallPlural, irregularSingular?_of_length (by simp) (by simp)]
  simp [endsWithAny, List.isSuffixOf, List.isPrefixOf, dropEnd]
  grind

theorem singularWord_es_iff (small : lowered [letter] = [letter]) :
    singularWord [letter, 'e', 's'] = [letter] ↔ letter ∈ ['x', 'z'] := by
  have smallPlural : lowered [letter, 'e', 's'] = [letter, 'e', 's'] :=
    congrArg (· ++ ['e', 's']) small
  rw [singularWord, smallPlural, irregularSingular?_of_length (by simp) (by simp)]
  simp [endsWithAny, List.isSuffixOf, List.isPrefixOf, dropEnd]
  grind

theorem LetterInflects.exists_ending {plural : List Char}
    (inflects : LetterInflects before letter plural) :
    ∃ ending, (ending = ['s'] ∨ ending = ['e', 's']) ∧ plural = letter :: ending := by
  cases inflects with
  | sibilant _ => exact ⟨_, .inr rfl, rfl⟩
  | plain _ _ _ _ => exact ⟨_, .inl rfl, rfl⟩

/-- A letter and its plural belong together behind another letter when each gives the other one. -/
theorem letterInflects_iff (small : lowered [before, letter] = [before, letter])
    (either : ending = ['s'] ∨ ending = ['e', 's']) :
    LetterInflects before letter (letter :: ending) ↔
      pluralWord [before, letter] = [before, letter] ++ ending ∧
        singularWord (letter :: ending) = [letter] := by
  have smallLetter : lowered [letter] = [letter] := by
    rw [lowered, List.map_cons] at small
    exact (List.cons.inj small).2
  rcases either with rfl | rfl
  · rw [singularWord_s_iff smallLetter, List.cons_append, List.singleton_append,
      pluralWord_pair_iff small]
    constructor
    · intro inflects
      cases inflects with
      | plain even notPair vowel double => grind
    · rintro ⟨⟨_, notSibilant, notPair, vowel, double⟩, even⟩
      exact .plain (by grind) notPair vowel double
  · rw [singularWord_es_iff smallLetter]
    constructor
    · intro inflects
      cases inflects with
      | sibilant ends => exact ⟨pluralWord_pair_of_sibilant small ends, ends⟩
    · exact fun given => .sibilant given.2

end

/-! ## Capitals at the end of a class -/

section

variable {start plural : List Char} {last : Char}

/-- No irregular plural is that of a last letter alone. -/
theorem singularWord_irregularNouns :
    ∀ pair ∈ irregularNouns, ∀ start plural : List Char, ∀ last : Char,
      pair.1.toList = start ++ [last] → pair.2.toList = start ++ plural →
        singularWord plural ≠ [last] := by
  have checked : ∀ pair ∈ irregularNouns, pair.1.toList.dropLast.isPrefixOf pair.2.toList = true →
      singularWord (pair.2.toList.drop pair.1.toList.dropLast.length) ≠
        pair.1.toList.drop pair.1.toList.dropLast.length := by
    decide +kernel
  intro pair member start plural last noun isPlural
  have here := checked pair member
  rw [noun, isPlural, List.dropLast_concat, List.drop_left, List.drop_left] at here
  exact here (List.isPrefixOf_iff_prefix.mpr (List.prefix_append start plural))

theorem eq_of_endsWithAny {letter : Char} {ending : String} (single : ending.toList = [letter])
    (ends : endsWithAny (start ++ [last]) [ending] = true) : last = letter := by
  obtain ⟨_, member, before, same⟩ := endsWithAny_iff.mp ends
  rw [List.mem_singleton.mp member, single] at same
  exact (List.cons.inj (List.append_inj' same rfl).2).1.symm

theorem dropEnd_concat (start : List Char) (last : Char) : dropEnd (start ++ [last]) 1 = start :=
  dropEnd_append start [last]

/-- A plural of capitals that is one of the last letter alone only adds to them, or replaces `f`. -/
theorem pluralWord_capitals
    (forth : lowered (pluralWord (start ++ [last])) = lowered start ++ plural)
    (back : singularWord plural = [last.toLower]) :
    (∃ ending, (ending = ['s'] ∨ ending = ['e', 's']) ∧ plural = last.toLower :: ending ∧
      pluralWord (start ++ [last]) = start ++ [last] ++ ending) ∨
    plural = "ves".toList ∧ last.toLower = 'f' ∧
      pluralWord (start ++ [last]) = start ++ "ves".toList := by
  have low : lowered (start ++ [last]) = lowered start ++ [last.toLower] := lowered_append _ _
  rw [lowered_pluralWord, low, pluralWord, ← low, lowered_lowered, low] at forth
  rw [pluralWord, low]
  cases irregular : irregularPlural? (lowered start ++ [last.toLower]) with
  | some other =>
      obtain ⟨pair, member, noun, rfl⟩ := irregularPlural?_eq_some_iff.mp irregular
      rw [irregular] at forth
      dsimp only at forth
      rw [matchCapital_of_small (by rw [← low, lowered_lowered])] at forth
      exact absurd back (singularWord_irregularNouns pair member _ _ _ noun forth)
  | none =>
      rw [irregular] at forth
      dsimp only at forth ⊢
      have added {ending : List Char}
          (same : lowered start ++ [last.toLower] ++ ending = lowered start ++ plural) :
          plural = last.toLower :: ending := by
        rw [List.append_assoc, List.append_right_inj] at same
        exact same.symm
      split_ifs at forth ⊢ with isPlural sibilant consonantY fe single consonantO
      · have isS : last.toLower = 's' := eq_of_endsWithAny rfl (Bool.and_eq_true_iff.mp isPlural).1
        rw [← List.append_cancel_left forth, isS] at back
        exact absurd back (by decide)
      · exact .inl ⟨"es".toList, .inr rfl, added forth, rfl⟩
      · rw [dropEnd_concat, List.append_right_inj] at forth
        have whole : singularWord "ies".toList = "ie".toList := by decide
        rw [← forth, whole] at back
        have lengths := congrArg List.length back
        simp at lengths
      · obtain ⟨_, member, stem, ends⟩ := endsWithAny_iff.mp fe
        rw [List.mem_singleton.mp member] at ends
        have before : stem ++ ['f'] = lowered start :=
          (List.append_inj' ((List.append_assoc stem ['f'] ['e']).trans ends) rfl).1
        have dropped : dropEnd (stem ++ "fe".toList) 2 = stem := dropEnd_append stem "fe".toList
        rw [← ends, dropped, ← before, List.append_assoc, List.append_right_inj] at forth
        cases forth
      · have isF : last.toLower = 'f' := eq_of_endsWithAny rfl (Bool.and_eq_true_iff.mp single).1
        rw [dropEnd_concat, List.append_right_inj] at forth
        exact .inr ⟨forth.symm, isF, by rw [dropEnd_concat]⟩
      · exact .inl ⟨"es".toList, .inr rfl, added forth, rfl⟩
      · exact .inl ⟨"s".toList, .inl rfl, added forth, rfl⟩

end

/-! ## Pairs that name each other -/

/-- An entity and a table name each other by their words. -/
inductive Corresponds : String → String → Prop where
  /-- The last word of the entity is found as a whole: it is longer than its capital, or no capital
  stands before it.  The plural of `f` has no capital, so that it cannot be told from a word before
  it. -/
  | word {parts : List (List Char)} {noun plural : List Char}
      (areWords : ∀ part ∈ parts ++ [noun], IsWord part) (inflects : Inflects noun plural)
      (apart : StayApart (parts ++ [plural]))
      (whole : 2 ≤ noun.length ∨ ∀ part ∈ parts.getLast?, 2 ≤ part.length)
      (keepsCapital : noun = ['f'] → parts = []) :
      Corresponds (String.ofList (classCharacters (parts ++ [noun])))
        (String.ofList (tableCharacters (parts ++ [plural])))
  /-- The last two words of the entity are single letters, which are found together. -/
  | letters {parts : List (List Char)} {before letter : Char} {plural : List Char}
      (areWords : ∀ part ∈ parts ++ [[before], [letter]], IsWord part)
      (inflects : LetterInflects before letter plural)
      (apart : StayApart (parts ++ [[before], plural])) :
      Corresponds (String.ofList (classCharacters (parts ++ [[before], [letter]])))
        (String.ofList (tableCharacters (parts ++ [[before], plural])))

section

variable {parts : List (List Char)} {noun plural : List Char} {entity table : String}

theorem tableCharacters_concat (parts : List (List Char)) (last : List Char) :
    tableCharacters (parts ++ [last]) = (parts.map (· ++ ['_'])).flatten ++ last := by
  induction parts with
  | nil => exact List.intercalate_singleton
  | cons part rest hypothesis =>
      rw [List.cons_append, tableCharacters_cons part (by simp), hypothesis]
      simp

theorem classCharacters_concat (parts : List (List Char)) (last : List Char) :
    classCharacters (parts ++ [last]) = classCharacters parts ++ capitalised last := by
  rw [classCharacters_append, classCharacters_cons]
  exact congrArg _ (List.append_nil _)

theorem classCharacters_filter (parts : List (List Char)) :
    classCharacters (parts.filter (!·.isEmpty)) = classCharacters parts := by
  induction parts with
  | nil => rfl
  | cons part rest hypothesis =>
      cases part with
      | nil => exact hypothesis
      | cons first others => exact congrArg (capitalised (first :: others) ++ ·) hypothesis

/-- The model of a table has the words of the table, the last one in the singular. -/
theorem modelName_tableCharacters (areWords : ∀ part ∈ parts, IsWord part)
    (isWord : IsWord plural) :
    modelName (String.ofList (tableCharacters (parts ++ [plural]))) =
      String.ofList (classCharacters (parts ++ [singularWord plural])) := by
  have reversed : (String.ofList (tableCharacters (parts ++ [plural]))).toList.reverse =
      plural.reverse ++ (parts.map (· ++ ['_'])).flatten.reverse := by
    rw [String.toList_ofList, tableCharacters_concat, List.reverse_append]
  have some : plural.reverse ≠ [] := by simpa using isWord.ne_nil
  have small : ∀ c ∈ plural.reverse, isSmallOrDigit c = true := fun c member =>
    isWord.isSmallOrDigit c (List.mem_reverse.mp member)
  have separated : ∀ c ∈ (parts.map (· ++ ['_'])).flatten.reverse.head?, c = '_' := by
    rcases List.eq_nil_or_concat parts with rfl | ⟨rest, last, rfl⟩
    · simp
    · simp
  have notFeed : ∀ c ∈ (plural.reverse ++ (parts.map (· ++ ['_'])).flatten.reverse).head?,
      c ≠ '\n' := by
    obtain ⟨first, others, shape⟩ := List.exists_cons_of_ne_nil some
    rw [shape, List.cons_append, List.head?_cons]
    rintro _ ⟨⟩ rfl
    exact absurd (small '\n' (by rw [shape]; exact List.mem_cons_self)) (by decide)
  have isSingular : (singular (String.ofList (tableCharacters (parts ++ [plural])))).toList =
      tableCharacters (parts ++ [singularWord plural]) := by
    have found := lastWord?_of_small some small fun c member => by
      rw [separated c member]
      decide
    rw [singular, inflectLastWord_eq (by rw [reversed]; exact notFeed) (by rw [reversed, found]),
      tableCharacters_concat, List.reverse_reverse, List.reverse_reverse]
  have alphanum : ∀ part ∈ parts ++ [singularWord plural], ∀ c ∈ part, isWordCharacter c = true := by
    intro part member c within
    rcases List.mem_append.mp member with earlier | last
    · exact (areWords part earlier).isWordCharacter c within
    · rw [List.mem_singleton.mp last] at within
      exact (isWord.singularWord (List.ne_nil_of_mem within)).isWordCharacter c within
  rw [modelName, studlyCase, isSingular, studlyCharacters,
    words_atSeparator_tableCharacters alphanum]
  exact congrArg String.ofList (classCharacters_filter _)

/-- Behind a word with more than its capital, a class does not end in a capital. -/
theorem isUpper_eq_false_of_getLast (areWords : ∀ part ∈ parts, IsWord part)
    (long : ∀ part ∈ parts.getLast?, 2 ≤ part.length) :
    ∀ c ∈ (classCharacters parts).reverse.head?, c.isUpper = false := by
  rcases List.eq_nil_or_concat parts with rfl | ⟨rest, last, rfl⟩
  · simp [classCharacters]
  · obtain ⟨first, others, shape, upper, small, -⟩ :=
      (areWords last (by simp)).capitalised_eq
    rcases List.eq_nil_or_concat others with rfl | ⟨middle, final, rfl⟩
    · have twice := long last (by simp)
      rw [← length_capitalised, shape] at twice
      simp at twice
    · rw [List.concat_eq_append, classCharacters_concat, shape]
      have smallFinal := isUpper_eq_false_of_isSmallOrDigit (small final (by simp))
      simpa using smallFinal

/-- The last word of a class is the last one of its words, if no other capital touches it. -/
theorem lastWord?_classCharacters (areWords : ∀ part ∈ parts ++ [noun], IsWord part)
    (whole : 2 ≤ noun.length ∨ ∀ part ∈ parts.getLast?, 2 ≤ part.length) :
    lastWord? (classCharacters (parts ++ [noun])).reverse =
      some ((capitalised noun).reverse, (classCharacters parts).reverse) := by
  obtain ⟨areParts, isNoun⟩ := List.forall_mem_append.mp areWords
  obtain ⟨first, rest, shape, upper, small, -⟩ := (isNoun noun List.mem_cons_self).capitalised_eq
  rw [classCharacters_concat, List.reverse_append, shape, List.reverse_cons, List.append_assoc,
    List.singleton_append]
  by_cases alone : rest = []
  · subst alone
    have notLong : ¬ 2 ≤ noun.length := by
      rw [← length_capitalised, shape]
      simp
    have isCapital : ∀ c ∈ [first], c.isUpper = true := by simpa using upper
    exact lastWord?_of_capitals (List.cons_ne_nil first []) isCapital
      (isUpper_eq_false_of_getLast areParts (whole.resolve_left notLong))
  · exact lastWord?_of_capital (by simpa using alone)
      (fun c member => small c (List.mem_reverse.mp member)) upper

theorem isClassName_classCharacters (areWords : ∀ part ∈ parts, IsWord part) (some : parts ≠ []) :
    isClassName (String.ofList (classCharacters parts)) = true := by
  have alphanum := isWordCharacter_of_mem_classCharacters areWords
  obtain ⟨part, rest, rfl⟩ := List.exists_cons_of_ne_nil some
  obtain ⟨first, others, shape, upper, -⟩ := (areWords part List.mem_cons_self).capitalised_eq
  rw [classCharacters_cons, shape, List.cons_append] at alphanum ⊢
  rw [isClassName, String.toList_ofList]
  dsimp only
  rw [upper, Bool.true_and, List.all_eq_true]
  exact fun c member => alphanum c (List.mem_cons_of_mem _ member)

theorem toList_plural {word before : List Char}
    (alphanum : ∀ c ∈ entity.toList, isWordCharacter c = true)
    (found : lastWord? entity.toList.reverse = some (word, before)) :
    (Text.plural entity).toList = before.reverse ++ pluralWord word.reverse := by
  refine inflectLastWord_eq ?_ found
  rintro c member rfl
  have among := List.mem_reverse.mp (List.mem_of_head? member)
  exact absurd (alphanum '\n' among) (by decide)

/-- Capitals at the end of a class are one word, of which the plural is made. -/
theorem toList_plural_of_capitals {before capitals : List Char}
    (alphanum : ∀ c ∈ entity.toList, isWordCharacter c = true)
    (split : entity.toList = before ++ capitals) (some : capitals ≠ [])
    (upper : ∀ c ∈ capitals, c.isUpper = true)
    (stops : ∀ c ∈ before.reverse.head?, c.isUpper = false) :
    (Text.plural entity).toList = before ++ pluralWord capitals := by
  have found : lastWord? entity.toList.reverse = .some (capitals.reverse, before.reverse) := by
    rw [split, List.reverse_append]
    exact lastWord?_of_capitals (by simpa using some)
      (fun c member => upper c (List.mem_reverse.mp member)) stops
  rw [toList_plural alphanum found, List.reverse_reverse, List.reverse_reverse]

/-- The plural of a class whose last word is found as a whole. -/
theorem toList_plural_of_whole (areWords : ∀ part ∈ parts ++ [noun], IsWord part)
    (whole : 2 ≤ noun.length ∨ ∀ part ∈ parts.getLast?, 2 ≤ part.length) :
    (Text.plural (String.ofList (classCharacters (parts ++ [noun])))).toList =
      classCharacters parts ++ pluralWord (capitalised noun) := by
  have alphanum := isWordCharacter_of_mem_classCharacters areWords
  have found := lastWord?_classCharacters areWords whole
  rw [toList_plural (by rwa [String.toList_ofList]) (by rw [String.toList_ofList, found]),
    List.reverse_reverse, List.reverse_reverse]

/-- A class of words has the table of the words in its plural. -/
theorem tableName_eq_of_plural {words : List (List Char)} {capitals : List Char}
    (areWords : ∀ part ∈ words, IsWord part) (some : words ≠ [])
    (isPlural : (Text.plural (String.ofList (classCharacters words))).toList = capitals) :
    tableName (String.ofList (classCharacters words)) =
      String.ofList (joinLowered '_' (Text.words atHump capitals)) := by
  rw [tableName, studlyCase_of_isClassName (isClassName_classCharacters areWords some), snakeCase,
    isPlural]

theorem joinLowered_words {words : List (List Char)} (areWords : ∀ part ∈ words, IsWord part)
    (some : words ≠ []) (apart : StayApart words) :
    joinLowered '_' (Text.words atHump (classCharacters words)) = tableCharacters words := by
  rw [joinLowered, (map_lowered_words_iff areWords some).mpr apart, tableCharacters]

/-- A word before a single letter is longer than its capital. -/
theorem long_of_stayApart {letter : Char} {rest : List (List Char)}
    (apart : StayApart (parts ++ [letter] :: rest)) : ∀ part ∈ parts.getLast?, 2 ≤ part.length := by
  intro part last
  have here := (List.isChain_append.mp apart).2.2 part last [letter] rfl
  exact here.resolve_right (by simp)

/-- The plural behind two letters at the end of a class is that of the last letter. -/
theorem toList_plural_of_letters {before letter : Char} {ending : List Char}
    (areWords : ∀ part ∈ parts ++ [[before], [letter]], IsWord part)
    (long : ∀ part ∈ parts.getLast?, 2 ≤ part.length)
    (forth : pluralWord [before, letter] = [before, letter] ++ ending)
    (back : singularWord (letter :: ending) = [letter]) :
    (Text.plural (String.ofList (classCharacters (parts ++ [[before], [letter]])))).toList =
      classCharacters (parts ++ [[before], letter :: ending]) := by
  have alphanum := isWordCharacter_of_mem_classCharacters areWords
  obtain ⟨areParts, areLetters⟩ := List.forall_mem_append.mp areWords
  have upper {c : Char} (isWord : IsWord [c]) : c.toUpper.isUpper = true := isUpper_toUpper isWord.1
  have capitals : ∀ c ∈ [before.toUpper, letter.toUpper], c.isUpper = true := by
    rw [List.forall_mem_cons, List.forall_mem_singleton]
    exact ⟨upper (areLetters _ List.mem_cons_self), upper (areLetters _ (by simp))⟩
  have split : classCharacters (parts ++ [[before], [letter]]) =
      classCharacters parts ++ [before.toUpper, letter.toUpper] :=
    classCharacters_append parts _
  have lowBefore : lowered [before.toUpper] = [before] :=
    lowered_capitalised (areLetters [before] List.mem_cons_self).lowered
  have lowLetter : lowered [letter.toUpper] = [letter] :=
    lowered_capitalised (areLetters [letter] (by simp)).lowered
  have lowLast : letter.toUpper.toLower = letter := List.singleton_inj.mp lowLetter
  have forthUpper : lowered (pluralWord ([before.toUpper] ++ [letter.toUpper])) =
      lowered [before.toUpper] ++ letter :: ending := by
    rw [lowered_pluralWord, lowered_append, lowBefore, lowLetter]
    exact forth
  have added : pluralWord [before.toUpper, letter.toUpper] =
      [before.toUpper, letter.toUpper] ++ ending := by
    rcases pluralWord_capitals forthUpper (by rw [lowLast]; exact back) with
      ⟨other, -, same, made⟩ | ⟨same, isF, -⟩
    · rw [(List.cons.inj same).2]
      exact made
    · rw [isF, (List.cons.inj same).1] at lowLast
      exact absurd lowLast (by decide)
  have spelled : classCharacters [[before], letter :: ending] =
      [before.toUpper, letter.toUpper] ++ ending := by
    simp [classCharacters, capitalised]
  rw [toList_plural_of_capitals (by rwa [String.toList_ofList])
    (by rw [String.toList_ofList, split]) (List.cons_ne_nil _ _) capitals
    (isUpper_eq_false_of_getLast areParts long), added, classCharacters_append, spelled]

/-- A plural that replaces two letters gives back only one of them. -/
theorem ne_fe (forth : pluralWord noun = plural) (back : singularWord plural = noun) :
    noun ≠ ['f', 'e'] := by
  rintro rfl
  rw [← forth] at back
  exact absurd back (by decide)

theorem Corresponds.names (corresponds : Corresponds entity table) :
    tableName entity = table ∧ modelName table = entity := by
  cases corresponds with
  | @word parts noun plural areWords inflects apart whole keepsCapital =>
      obtain ⟨areParts, isNoun⟩ := List.forall_mem_append.mp areWords
      have isNoun := isNoun noun List.mem_cons_self
      obtain ⟨forth, back⟩ := (inflects_iff isNoun.lowered).mp inflects
      have isPlural : IsWord plural := forth ▸ isNoun.pluralWord
      refine ⟨?_, by rw [modelName_tableCharacters areParts isPlural, back]⟩
      rw [tableName_eq_of_plural areWords (by simp) (toList_plural_of_whole areWords whole)]
      by_cases notF : noun = ['f']
      · obtain rfl := keepsCapital notF
        rw [notF] at forth ⊢
        rw [← forth]
        decide
      · rw [pluralWord_capitalised isNoun notF (ne_fe forth back), forth, ← classCharacters_concat,
          joinLowered_words _ (by simp) apart]
        exact List.forall_mem_append.mpr ⟨areParts, by simpa using isPlural⟩
  | @letters parts before letter plural areWords inflects apart =>
      obtain ⟨areParts, areLetters⟩ := List.forall_mem_append.mp areWords
      obtain ⟨ending, either, rfl⟩ := inflects.exists_ending
      have isBefore : IsWord [before] := areLetters _ List.mem_cons_self
      have isLetter : IsWord [letter] := areLetters _ (by simp)
      have small : lowered [before, letter] = [before, letter] := by
        rw [← List.singleton_append, lowered_append, isBefore.lowered, isLetter.lowered]
      obtain ⟨forth, back⟩ := (letterInflects_iff small either).mp inflects
      have areSmall : ending.all isSmallOrDigit = true := by
        rcases either with rfl | rfl
        · rfl
        · rfl
      have isPlural : IsWord (letter :: ending) :=
        isLetter.append (List.all_eq_true.mp areSmall)
      have areEarlier : ∀ part ∈ parts ++ [[before]], IsWord part :=
        List.forall_mem_append.mpr ⟨areParts, by simpa using isBefore⟩
      have model := modelName_tableCharacters areEarlier isPlural
      rw [back, List.append_assoc, List.append_assoc] at model
      refine ⟨?_, model⟩
      rw [tableName_eq_of_plural areWords (by simp)
        (toList_plural_of_letters areWords (long_of_stayApart apart) forth back),
        joinLowered_words _ (by simp) apart]
      exact List.forall_mem_append.mpr ⟨areParts, by simpa using ⟨isBefore, isPlural⟩⟩

end

end Scaffold.Text
