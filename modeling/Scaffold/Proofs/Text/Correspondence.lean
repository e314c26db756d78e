import Scaffold.Proofs.Text.TableName

/-!
# Names that are found again

If the model of the table of an entity is the entity again, then entity and table have the same
words, apart from the last one.  For the humps of the plural of a class are words, of which only the
first one may start with a small letter.
-/

namespace Scaffold.Text

/-! ## The plural of a class -/

section

variable {text rest : List Char} {first : Char} {entity : String}

theorem IsWord.exists_eq_singleton (isWord : IsWord text) (short : ¬ 2 ≤ text.length) :
    ∃ letter, text = [letter] := by
  have some := List.length_pos_iff_ne_nil.mpr isWord.ne_nil
  exact List.length_eq_one_iff.mp (by omega)

/-- Every hump but the first one starts with a capital. -/
theorem exists_upper_of_mem_tail (alphanum : ∀ c ∈ text, isWordCharacter c = true) :
    ∀ piece ∈ (pieces atHump text).tail,
      ∃ capital others, piece = capital :: others ∧ capital.isUpper = true := by
  induction text with
  | nil => simp [pieces]
  | cons here rest hypothesis =>
      obtain ⟨isWord, areWords⟩ := List.forall_mem_cons.mp alphanum
      have later := hypothesis areWords
      rw [pieces, isWord]
      cases cut : startsAfter atHump here rest with
      | false => cases shape : pieces atHump rest <;> simp_all [consFirst]
      | true =>
          cases rest with
          | nil => cases cut
          | cons next following =>
              have upper : next.isUpper = true := (Bool.and_eq_true_iff.mp cut).1
              obtain ⟨piece, others, shape⟩ :=
                exists_pieces_cons atHump (areWords next List.mem_cons_self) following
              rw [shape] at later ⊢
              exact List.forall_mem_cons.mpr ⟨⟨next, piece, rfl, upper⟩, later⟩

theorem isSmallOrDigit_toLower {c : Char} (alphanum : isWordCharacter c = true) :
    isSmallOrDigit c.toLower = true :=
  @forall_ascii (fun c => isWordCharacter c = true → isSmallOrDigit c.toLower = true)
    (by decide +kernel) c (toNat_lt_of_isAlphanum alphanum) alphanum

theorem isLower_toLower {c : Char} (upper : c.isUpper = true) : c.toLower.isLower = true :=
  @forall_ascii (fun c => c.isUpper = true → c.toLower.isLower = true) (by decide +kernel) c
    (toNat_lt_of_isAlphanum (isWordCharacter_of_isUpper upper)) upper

theorem isWordCharacter_of_toLower {c : Char} (alphanum : isWordCharacter c.toLower = true) :
    isWordCharacter c = true := by
  by_cases upper : c.isUpper = true
  · exact isWordCharacter_of_isUpper upper
  · rwa [toLower_of_isUpper_eq_false (by simpa using upper)] at alphanum

/-- A capital with letters and digits is a word in small letters. -/
theorem isWord_lowered (upper : first.isUpper = true)
    (alphanum : ∀ c ∈ rest, isWordCharacter c = true) : IsWord (lowered (first :: rest)) := by
  refine ⟨isLower_toLower upper, fun c member => ?_⟩
  obtain ⟨original, within, rfl⟩ := List.mem_map.mp member
  exact isSmallOrDigit_toLower (alphanum original within)

/-- A text starts with a run of accepted characters, which may be empty. -/
theorem exists_run (accept : Char → Bool) (text : List Char) :
    ∃ run before, text = run ++ before ∧ (∀ c ∈ run, accept c = true) ∧
      ∀ c ∈ before.head?, accept c = false := by
  refine ⟨_, _, List.takeWhile_append_dropWhile.symm, fun c => List.mem_takeWhile_imp, ?_⟩
  intro c isHead
  have stops := List.head?_dropWhile_not accept text
  rw [isHead] at stops
  exact stops

/-- The last word of a class starts with a capital. -/
theorem exists_lastWord? (className : isClassName entity = true) :
    ∃ capital rest before,
      lastWord? entity.toList.reverse = some ((capital :: rest).reverse, before) ∧
      entity.toList = before.reverse ++ capital :: rest ∧ capital.isUpper = true := by
  obtain ⟨first, others, shape, upper, alphanum⟩ := exists_of_isClassName className
  have classified : ∀ c ∈ entity.toList.reverse, isSmallOrDigit c = false → c.isUpper = true := by
    intro c member notSmall
    have isWord := alphanum c (List.mem_reverse.mp member)
    rw [isAlphanum_eq, Bool.or_assoc, ← isSmallOrDigit, notSmall, Bool.or_false] at isWord
    exact isWord
  have spelled {word before : List Char} (split : entity.toList.reverse = word.reverse ++ before) :
      entity.toList = before.reverse ++ word := by
    rw [← List.reverse_reverse entity.toList, split, List.reverse_append, List.reverse_reverse]
  obtain ⟨run, before, split, small, stops⟩ := exists_run isSmallOrDigit entity.toList.reverse
  by_cases some : run = []
  · -- The class ends in a capital, so that its last word is a run of capitals.
    subst some
    obtain ⟨capitals, before, splitToo, areCapitals, stopsToo⟩ :=
      exists_run Char.isUpper entity.toList.reverse
    rcases List.eq_nil_or_concat capitals with rfl | ⟨start, capital, rfl⟩
    · obtain ⟨last, rest, ends⟩ : ∃ last rest, entity.toList.reverse = last :: rest :=
        List.exists_cons_of_ne_nil (by simp [shape])
      rw [List.nil_append, ends] at split splitToo
      have isCapital := classified last (by simp [ends]) (stops last (by simp [← split]))
      rw [stopsToo last (by simp [← splitToo])] at isCapital
      cases isCapital
    · rw [List.concat_eq_append] at splitToo areCapitals
      have split : entity.toList.reverse = (capital :: start.reverse).reverse ++ before := by
        rw [splitToo, List.reverse_cons, List.reverse_reverse]
      refine ⟨capital, start.reverse, before, ?_, spelled split, areCapitals capital (by simp)⟩
      rw [split, List.reverse_cons, List.reverse_reverse]
      exact lastWord?_of_capitals (by simp) areCapitals stopsToo
  · cases before with
    | nil =>
        rw [List.append_nil] at split
        have isSmall := small first (by simp [← split, shape])
        rw [isSmallOrDigit_eq_false_of_isUpper upper] at isSmall
        cases isSmall
    | cons capital before =>
        have upper : capital.isUpper = true :=
          classified capital (by simp [split]) (stops capital rfl)
        have split : entity.toList.reverse = (capital :: run.reverse).reverse ++ before := by
          rw [split, List.reverse_cons, List.reverse_reverse, List.append_assoc]
          rfl
        refine ⟨capital, run.reverse, before, ?_, spelled split, upper⟩
        rw [split, List.reverse_cons, List.reverse_reverse, List.append_assoc]
        exact lastWord?_of_capital some small upper

theorem isWordCharacter_of_isWord_lowered (isWord : IsWord (lowered text)) :
    ∀ c ∈ text, isWordCharacter c = true := fun c member =>
  isWordCharacter_of_toLower (isWord.isWordCharacter c.toLower (List.mem_map_of_mem member))

/-- The humps of a word with some capitals are words. -/
theorem isWord_of_mem_pieces (isWord : IsWord (lowered text)) :
    ∀ piece ∈ pieces atHump text, IsWord (lowered piece) := by
  have alphanum := isWordCharacter_of_isWord_lowered isWord
  have flatten : (pieces atHump text).flatten = text := by
    rw [flatten_pieces, List.filter_eq_self.mpr alphanum]
  have behind := exists_upper_of_mem_tail alphanum
  cases text with
  | nil => exact isWord.elim
  | cons first rest =>
      obtain ⟨piece, others, cut⟩ :=
        exists_pieces_cons atHump (alphanum first List.mem_cons_self) rest
      rw [cut] at flatten behind ⊢
      refine List.forall_mem_cons.mpr ⟨?_, fun other member => ?_⟩
      · have start : first :: piece <+: first :: rest := ⟨others.flatten, flatten⟩
        exact isWord.of_isPrefix (start.map Char.toLower) (List.cons_ne_nil _ _)
      · obtain ⟨capital, tail, rfl, upper⟩ := behind other member
        refine isWord_lowered upper fun c within => alphanum c ?_
        rw [← flatten, List.mem_flatten]
        exact ⟨_, List.mem_cons_of_mem _ member, List.mem_cons_of_mem _ within⟩

/-- The plural of a class is made behind what stands before its last word. -/
theorem exists_toList_plural (className : isClassName entity = true) :
    ∃ before capital rest, entity.toList = before ++ capital :: rest ∧ capital.isUpper = true ∧
      (plural entity).toList = before ++ pluralWord (capital :: rest) := by
  obtain ⟨_, _, _, _, alphanum⟩ := exists_of_isClassName className
  obtain ⟨capital, rest, before, found, shape, upper⟩ := exists_lastWord? className
  refine ⟨before.reverse, capital, rest, shape, upper, ?_⟩
  rw [toList_plural alphanum found, List.reverse_reverse]

/-- The plural of a class is a word, apart from its capitals. -/
theorem isWord_lowered_plural (className : isClassName entity = true) :
    IsWord (lowered (plural entity).toList) := by
  obtain ⟨first, others, shape, upperFirst, alphanum⟩ := exists_of_isClassName className
  obtain ⟨before, capital, rest, split, upper, made⟩ := exists_toList_plural className
  rw [split] at alphanum
  obtain ⟨areBefore, areWord⟩ := List.forall_mem_append.mp alphanum
  have isWord : IsWord (pluralWord (lowered (capital :: rest))) :=
    (isWord_lowered upper (List.forall_mem_cons.mp areWord).2).pluralWord
  rw [made, lowered_append, lowered_pluralWord]
  cases before with
  | nil => exact isWord
  | cons start middle =>
      rw [split, List.cons_append] at shape
      rw [← (List.cons.inj shape).1] at upperFirst
      exact (isWord_lowered upperFirst (List.forall_mem_cons.mp areBefore).2).append
        isWord.isSmallOrDigit

/-- A plural is the word itself, or ends in a small letter. -/
theorem pluralWord_eq_or_getLast? (word : List Char) :
    pluralWord word = word ∨ ∃ c ∈ (pluralWord word).getLast?, c.isUpper = false := by
  have listed : ∀ pair ∈ irregularNouns,
      pair.2.toList.getLast?.any (!·.isUpper) = true ∧
        (capitalised pair.2.toList).getLast?.any (!·.isUpper) = true := by
    decide +kernel
  have isSmall {text : List Char} (ends : text.getLast?.any (!·.isUpper) = true) :
      ∃ c ∈ text.getLast?, c.isUpper = false := by
    obtain ⟨c, found, small⟩ := Option.any_eq_true .. |>.mp ends
    exact ⟨c, found, by simpa using small⟩
  rw [pluralWord]
  cases irregular : irregularPlural? (lowered word) with
  | some plural =>
      obtain ⟨pair, member, -, rfl⟩ := irregularPlural?_eq_some_iff.mp irregular
      refine .inr ?_
      dsimp only
      rw [matchCapital]
      split_ifs
      · exact isSmall (listed pair member).2
      · exact isSmall (listed pair member).1
  | none =>
      dsimp only
      split_ifs <;> simp

/-- Only one word has nothing left in the singular. -/
theorem eq_of_singularWord_eq_nil {word : List Char} (isWord : IsWord word)
    (none : singularWord word = []) : word = ['s'] := by
  have listed : ∀ pair ∈ irregularNouns, pair.1.toList ≠ [] := by decide +kernel
  have short (count : Nat) (gone : dropEnd word count = []) : word.length ≤ count := by
    have length := congrArg List.length gone
    rw [dropEnd, List.length_take, List.length_nil] at length
    omega
  rw [singularWord, isWord.lowered] at none
  cases irregular : irregularSingular? word with
  | some noun =>
      obtain ⟨pair, member, rfl, -⟩ := irregularSingular?_eq_some_iff.mp irregular
      rw [irregular] at none
      dsimp only at none
      rw [matchCapital_of_small isWord.lowered] at none
      exact absurd none (listed pair member)
  | none =>
      rw [irregular] at none
      dsimp only at none
      split_ifs at none with ies ves oes sibilant single
      · simp at none
      · simp at none
      · have long := of_decide_eq_true (Bool.and_eq_true_iff.mp oes).2
        have atMost := short 2 none
        omega
      · have long := length_of_endsWithAny sibilant 3 (by decide)
        have atMost := short 2 none
        omega
      · rw [← dropEnd_append_ending (Bool.and_eq_true_iff.mp single).1]
        exact congrArg (· ++ "s".toList) none
      · exact absurd none isWord.ne_nil

/-- The words of a class are found again in small letters. -/
theorem lowered_classCharacters {parts : List (List Char)} (areWords : ∀ part ∈ parts, IsWord part) :
    lowered (classCharacters parts) = parts.flatten := by
  rw [classCharacters, lowered, List.map_flatten]
  exact congrArg List.flatten (lowered_map_capitalised areWords)

end

/-! ## The words of a table -/

/-- The words of the table of a class, apart from the last one, and the last one. -/
structure HasTableWords (entity : String) (earlier : List (List Char)) (last : List Char) :
    Prop where
  /-- The words are the humps of the plural, in small letters. -/
  found : (words atHump (plural entity).toList).map lowered = earlier ++ [last]
  areWords : ∀ part ∈ earlier ++ [last], IsWord part
  flatten : lowered (plural entity).toList = earlier.flatten ++ last
  /-- The last word is a hump that starts with a capital, unless it is the only one. -/
  startsUpper : earlier ≠ [] → ∃ start capital rest,
    (plural entity).toList = start ++ capital :: rest ∧ capital.isUpper = true ∧
      lowered (capital :: rest) = last

section

variable {entity : String} {earlier : List (List Char)} {noun last : List Char}

theorem exists_hasTableWords (className : isClassName entity = true) :
    ∃ earlier last, HasTableWords entity earlier last := by
  have isWord := isWord_lowered_plural className
  have alphanum := isWordCharacter_of_isWord_lowered isWord
  have areWords := isWord_of_mem_pieces isWord
  have behind := exists_upper_of_mem_tail alphanum
  have some : (plural entity).toList ≠ [] := by
    intro none
    rw [none] at isWord
    exact isWord
  have flatten : (pieces atHump (plural entity).toList).flatten = (plural entity).toList := by
    rw [flatten_pieces, List.filter_eq_self.mpr alphanum]
  rcases List.eq_nil_or_concat (pieces atHump (plural entity).toList) with none | ⟨heads, piece, cut⟩
  · rw [none] at flatten
    exact absurd flatten.symm some
  · rw [List.concat_eq_append] at cut
    rw [cut] at flatten areWords behind
    refine ⟨heads.map lowered, lowered piece, ?_, ?_, ?_, ?_⟩
    · rw [words_eq_pieces atHump some alphanum, cut, List.map_append, List.map_singleton]
    · rw [← List.map_singleton, ← List.map_append]
      exact List.forall_mem_map.mpr areWords
    · rw [← flatten, List.flatten_concat, lowered_append, lowered, List.map_flatten]
      rfl
    · intro several
      have several : heads ≠ [] := fun none => several (congrArg _ none)
      have later : piece ∈ (heads ++ [piece]).tail := by
        simp [List.tail_append_of_ne_nil several]
      obtain ⟨capital, rest, rfl, upper⟩ := behind piece later
      refine ⟨heads.flatten, capital, rest, ?_, upper, rfl⟩
      rw [← flatten, List.flatten_concat]

namespace HasTableWords

theorem tableName (has : HasTableWords entity earlier last) (className : isClassName entity = true) :
    tableName entity = String.ofList (tableCharacters (earlier ++ [last])) := by
  rw [Text.tableName, studlyCase_of_isClassName className, snakeCase, joinLowered, has.found,
    tableCharacters]

/-- If the plural is the class of the words of the table, then these stay apart. -/
theorem stayApart (has : HasTableWords entity earlier last)
    (made : (plural entity).toList = classCharacters (earlier ++ [last])) :
    StayApart (earlier ++ [last]) := by
  rw [← map_lowered_words_iff has.areWords (by simp), ← made]
  exact has.found

/-- The last word of a table with several words is not left behind without a capital. -/
theorem eq_nil_of_ves (has : HasTableWords entity earlier last) {start : List Char}
    (made : (plural entity).toList = start ++ "ves".toList) (same : last = "ves".toList) :
    earlier = [] := by
  by_contra several
  obtain ⟨other, capital, rest, shape, upper, isLast⟩ := has.startsUpper several
  have lengths : (capital :: rest).length = "ves".toList.length := by
    rw [← same, ← isLast, lowered, List.length_map]
  rw [made] at shape
  rw [← (List.cons.inj (List.append_inj' shape lengths.symm).2).1] at upper
  exact absurd upper (by decide)

/-- The last word of a table has a singular when the entity is found again. -/
theorem singularWord_ne_nil (has : HasTableWords entity earlier last)
    (className : isClassName entity = true)
    (spelled : entity.toList = classCharacters (earlier ++ [singularWord last])) :
    singularWord last ≠ [] := by
  intro none
  obtain ⟨areEarlier, isLast⟩ := List.forall_mem_append.mp has.areWords
  have single := eq_of_singularWord_eq_nil (isLast last List.mem_cons_self) none
  obtain ⟨before, first, letters, shape, -, made⟩ := exists_toList_plural className
  rw [none, classCharacters_concat, capitalised, List.append_nil] at spelled
  have several : earlier ≠ [] := by
    rintro rfl
    rw [spelled] at shape
    cases before <;> cases shape
  have flatten := has.flatten
  rcases pluralWord_eq_or_getLast? (first :: letters) with same | ⟨c, isLast, small⟩
  · rw [made, same, ← shape, spelled, lowered_classCharacters areEarlier, single] at flatten
    simp at flatten
  · obtain ⟨start, capital, rest, split, upper, lowLast⟩ := has.startsUpper several
    have alone : rest = [] := by
      rw [single] at lowLast
      exact List.map_eq_nil_iff.mp (List.cons.inj lowLast).2
    have ends : (before ++ pluralWord (first :: letters)).getLast? = some capital := by
      rw [← made, split, alone, List.getLast?_concat]
    rw [List.getLast?_append, isLast, Option.some_or] at ends
    rw [Option.some_inj.mp ends, upper] at small
    cases small

end HasTableWords

/-- Two letters at the end of an entity that is found again give the plural of the last one. -/
theorem corresponds_of_letters {parts : List (List Char)} {before letter : Char}
    (has : HasTableWords (String.ofList (classCharacters (parts ++ [[before], [letter]])))
      (parts ++ [[before]]) last)
    (isLetter : IsWord [letter]) (back : singularWord last = [letter]) :
    Corresponds (String.ofList (classCharacters (parts ++ [[before], [letter]])))
      (String.ofList (tableCharacters (parts ++ [[before], last]))) := by
  obtain ⟨areEarlier, isLast⟩ := List.forall_mem_append.mp has.areWords
  obtain ⟨areParts, isBefore⟩ := List.forall_mem_append.mp areEarlier
  have isBefore : IsWord [before] := isBefore _ List.mem_cons_self
  have areWords : ∀ part ∈ parts ++ [[before], [letter]], IsWord part :=
    List.forall_mem_append.mpr ⟨areParts, by simpa using ⟨isBefore, isLetter⟩⟩
  have lowBefore : lowered [before.toUpper] = [before] := lowered_capitalised isBefore.lowered
  have lowLetter : lowered [letter.toUpper] = [letter] := lowered_capitalised isLetter.lowered
  -- All capitals at the end are one word, also those before the two letters.
  obtain ⟨run, rest, reversed, areCapitals, stops⟩ :=
    exists_run Char.isUpper (classCharacters parts).reverse
  have split : classCharacters parts = rest.reverse ++ run.reverse := by
    rw [← List.reverse_reverse (classCharacters parts), reversed, List.reverse_append]
  have whole : classCharacters (parts ++ [[before], [letter]]) =
      rest.reverse ++ (run.reverse ++ [before.toUpper] ++ [letter.toUpper]) := by
    rw [classCharacters_append, split, List.append_assoc, List.append_assoc]
    rfl
  have capitals : ∀ c ∈ run.reverse ++ [before.toUpper] ++ [letter.toUpper], c.isUpper = true := by
    rw [List.append_assoc]
    refine List.forall_mem_append.mpr
      ⟨fun c member => areCapitals c (List.mem_reverse.mp member), ?_⟩
    rw [List.singleton_append, List.forall_mem_cons, List.forall_mem_singleton]
    exact ⟨isUpper_toUpper isBefore.1, isUpper_toUpper isLetter.1⟩
  have made := toList_plural_of_capitals
    (by rw [String.toList_ofList]; exact isWordCharacter_of_mem_classCharacters areWords)
    ((String.toList_ofList).trans whole) (by simp) capitals (by rwa [List.reverse_reverse])
  have forth : lowered (pluralWord (run.reverse ++ [before.toUpper] ++ [letter.toUpper])) =
      lowered (run.reverse ++ [before.toUpper]) ++ last := by
    have flatten := has.flatten
    rw [made, lowered_append, List.flatten_concat, ← lowered_classCharacters areParts, split,
      lowered_append rest.reverse] at flatten
    rw [lowered_append run.reverse, lowBefore]
    refine List.append_cancel_left (flatten.trans ?_)
    simp only [List.append_assoc]
  have lowLast : letter.toUpper.toLower = letter := List.singleton_inj.mp lowLetter
  rcases pluralWord_capitals forth (by rw [lowLast]; exact back) with
    ⟨ending, either, same, added⟩ | ⟨same, -, added⟩
  · have apart : StayApart (parts ++ [[before]] ++ [last]) := by
      refine has.stayApart ?_
      rw [made, added, classCharacters_concat, classCharacters_concat, split, same, lowLast]
      simp [capitalised]
    rw [List.append_assoc] at apart
    refine .letters areWords ?_ apart
    have alone : run = [] := by
      by_contra some
      obtain ⟨capital, others, rfl⟩ := List.exists_cons_of_ne_nil some
      have small := isUpper_eq_false_of_getLast areParts (long_of_stayApart apart) capital
        (by rw [reversed]; rfl)
      rw [areCapitals capital List.mem_cons_self] at small
      cases small
    have forthLetter : pluralWord [before, letter] = [before, letter] ++ ending := by
      rw [alone, List.reverse_nil, List.nil_append, lowered_pluralWord, lowered_append, lowBefore,
        lowLetter, same, lowLast] at forth
      exact forth
    have small : lowered [before, letter] = [before, letter] := by
      rw [← List.singleton_append, lowered_append, isBefore.lowered, isLetter.lowered]
    rw [same, lowLast] at back ⊢
    exact (letterInflects_iff small either).mpr ⟨forthLetter, back⟩
  · rw [added, ← List.append_assoc] at made
    exact absurd (has.eq_nil_of_ves made same) (by simp)

/-- An entity that is found again has the words of its table, and the last one in the singular. -/
theorem corresponds_of_hasTableWords
    (has : HasTableWords (String.ofList (classCharacters (earlier ++ [noun]))) earlier last)
    (isNoun : IsWord noun) (back : singularWord last = noun) :
    Corresponds (String.ofList (classCharacters (earlier ++ [noun])))
      (String.ofList (tableCharacters (earlier ++ [last]))) := by
  obtain ⟨areEarlier, isLast⟩ := List.forall_mem_append.mp has.areWords
  have areWords : ∀ part ∈ earlier ++ [noun], IsWord part :=
    List.forall_mem_append.mpr ⟨areEarlier, by simpa using isNoun⟩
  by_cases whole : 2 ≤ noun.length ∨ ∀ part ∈ earlier.getLast?, 2 ≤ part.length
  · have made := toList_plural_of_whole areWords whole
    have forth : pluralWord noun = last := by
      have flatten := has.flatten
      rw [made, lowered_append, lowered_classCharacters areEarlier, lowered_pluralWord,
        lowered_capitalised isNoun.lowered] at flatten
      exact List.append_cancel_left flatten
    have keepsCapital : noun = ['f'] → earlier = [] := by
      rintro rfl
      exact has.eq_nil_of_ves made (forth.symm.trans (by decide))
    refine .word areWords ((inflects_iff isNoun.lowered).mpr ⟨forth, back⟩) ?_ whole keepsCapital
    by_cases isF : noun = ['f']
    · rw [keepsCapital isF]
      exact List.isChain_singleton _
    · rw [pluralWord_capitalised isNoun isF (ne_fe forth back), forth,
        ← classCharacters_concat] at made
      exact has.stayApart made
  · rw [not_or] at whole
    obtain ⟨letter, rfl⟩ := isNoun.exists_eq_singleton whole.1
    rcases List.eq_nil_or_concat earlier with rfl | ⟨parts, word, rfl⟩
    · exact absurd (fun _ member => by cases member) whole.2
    · rw [List.concat_eq_append] at has whole areEarlier ⊢
      have isWord := areEarlier word (by simp)
      obtain ⟨before, rfl⟩ := isWord.exists_eq_singleton (by simpa using whole.2)
      rw [List.append_assoc] at has ⊢
      rw [List.append_assoc]
      exact corresponds_of_letters has isNoun back

/-- An entity and a table name each other by their words, and in no other way. -/
theorem corresponds_iff (className : isClassName entity = true) {table : String} :
    Corresponds entity table ↔ Text.tableName entity = table ∧ modelName table = entity := by
  constructor
  · exact Corresponds.names
  · rintro ⟨rfl, model⟩
    obtain ⟨earlier, last, has⟩ := exists_hasTableWords className
    obtain ⟨areEarlier, isLast⟩ := List.forall_mem_append.mp has.areWords
    have isLast := isLast last List.mem_cons_self
    rw [has.tableName className] at model ⊢
    rw [modelName_tableCharacters areEarlier isLast] at model
    have spelled := congrArg String.toList model
    rw [String.toList_ofList] at spelled
    have isNoun := isLast.singularWord (has.singularWord_ne_nil className spelled.symm)
    rw [← model] at has ⊢
    exact corresponds_of_hasTableWords has isNoun rfl

end

end Scaffold.Text
