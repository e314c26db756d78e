import Mathlib.Data.List.Chain
import Scaffold.Proofs.Text.Inflection

/-!
# Words of classes and tables

The words of a table are written in a class with a capital each, and nothing between them.  They are
found again as the humps of the class if they stay apart, that is, if no two capitals meet where no
small letter follows.
-/

namespace Scaffold.Text

/-- A word of a table: a small letter, with small letters and digits behind it. -/
def IsWord : List Char → Prop
  | [] => False
  | first :: rest => first.isLower = true ∧ ∀ c ∈ rest, isSmallOrDigit c = true

instance : DecidablePred IsWord
  | [] => inferInstanceAs (Decidable False)
  | first :: rest =>
      decidable_of_iff (first.isLower = true ∧ rest.all isSmallOrDigit = true)
        (and_congr_right' List.all_eq_true)

/-- Two words are told apart: the first one has a small letter in a class, or the second one does. -/
def AreApart (word next : List Char) : Prop :=
  2 ≤ word.length ∨ next.tail.head?.any Char.isLower = true

/-- Every word is told apart from the next one. -/
def StayApart (parts : List (List Char)) : Prop :=
  parts.IsChain AreApart

/-- The characters of a class with given words. -/
def classCharacters (parts : List (List Char)) : List Char :=
  (parts.map capitalised).flatten

/-- The characters of a table with given words. -/
def tableCharacters (parts : List (List Char)) : List Char :=
  ['_'].intercalate parts

/-! ## Characters of words -/

section

variable {word : List Char} {c : Char}

theorem isSmallOrDigit_of_isLower (lower : c.isLower = true) : isSmallOrDigit c = true := by
  rw [isSmallOrDigit, lower, Bool.true_or]

theorem isUpper_eq_false_of_isSmallOrDigit (small : isSmallOrDigit c = true) :
    c.isUpper = false :=
  @forall_ascii (fun c => isSmallOrDigit c = true → c.isUpper = false) (by decide +kernel) c
    (toNat_lt_of_isAlphanum (isWordCharacter_of_isSmallOrDigit small)) small

theorem isSmallOrDigit_eq_false_of_isUpper (upper : c.isUpper = true) :
    isSmallOrDigit c = false := by
  by_contra small
  rw [isUpper_eq_false_of_isSmallOrDigit (by simpa using small)] at upper
  cases upper

theorem isUpper_toUpper (lower : c.isLower = true) : c.toUpper.isUpper = true := by
  have alphanum : c.isAlphanum = true := by simp [isAlphanum_eq, lower]
  exact @forall_ascii (fun c => c.isLower = true → c.toUpper.isUpper = true) (by decide +kernel) c
    (toNat_lt_of_isAlphanum alphanum) lower

namespace IsWord

theorem ne_nil (isWord : IsWord word) : word ≠ [] := by
  rintro rfl
  exact isWord

theorem isSmallOrDigit (isWord : IsWord word) : ∀ c ∈ word, Text.isSmallOrDigit c = true := by
  cases word with
  | nil => exact isWord.elim
  | cons first rest =>
      exact List.forall_mem_cons.mpr ⟨isSmallOrDigit_of_isLower isWord.1, isWord.2⟩

theorem isWordCharacter (isWord : IsWord word) : ∀ c ∈ word, Text.isWordCharacter c = true :=
  fun c member => isWordCharacter_of_isSmallOrDigit (isWord.isSmallOrDigit c member)

theorem lowered (isWord : IsWord word) : lowered word = word :=
  lowered_eq_self fun c member =>
    isUpper_eq_false_of_isSmallOrDigit (isWord.isSmallOrDigit c member)

/-- A word in a class is a capital with small letters and digits behind it. -/
theorem capitalised_eq (isWord : IsWord word) :
    ∃ first rest, capitalised word = first :: rest ∧ first.isUpper = true ∧
      (∀ c ∈ rest, Text.isSmallOrDigit c = true) ∧ word.tail = rest := by
  cases word with
  | nil => exact isWord.elim
  | cons first rest => exact ⟨_, _, rfl, isUpper_toUpper isWord.1, isWord.2, rfl⟩

theorem append (isWord : IsWord word) {ending : List Char}
    (small : ∀ c ∈ ending, Text.isSmallOrDigit c = true) : IsWord (word ++ ending) := by
  cases word with
  | nil => exact isWord.elim
  | cons first rest => exact ⟨isWord.1, List.forall_mem_append.mpr ⟨isWord.2, small⟩⟩

theorem of_isPrefix (isWord : IsWord word) {part : List Char} (isStart : part <+: word)
    (some : part ≠ []) : IsWord part := by
  obtain ⟨rest, rfl⟩ := isStart
  cases part with
  | nil => exact absurd rfl some
  | cons first others => exact ⟨isWord.1, (List.forall_mem_append.mp isWord.2).1⟩

/-- Characters at the end of a word may be replaced by another word. -/
theorem dropEnd_append (isWord : IsWord word) (count : Nat) {ending : List Char}
    (isEnding : IsWord ending) : IsWord (dropEnd word count ++ ending) := by
  by_cases none : dropEnd word count = []
  · rw [none]
    exact isEnding
  · exact (isWord.of_isPrefix (List.take_prefix _ _) none).append isEnding.isSmallOrDigit

/-- The plural of a word is a word. -/
theorem pluralWord (isWord : IsWord word) : IsWord (pluralWord word) := by
  have listed : ∀ pair ∈ irregularNouns, IsWord pair.2.toList := by decide +kernel
  have es : ∀ c ∈ "es".toList, Text.isSmallOrDigit c = true := List.all_eq_true.mp (by decide)
  have s : ∀ c ∈ "s".toList, Text.isSmallOrDigit c = true := List.all_eq_true.mp (by decide)
  have ies : IsWord "ies".toList := by decide
  have ves : IsWord "ves".toList := by decide
  rw [Text.pluralWord, isWord.lowered]
  cases irregular : irregularPlural? word with
  | some plural =>
      obtain ⟨pair, member, -, rfl⟩ := irregularPlural?_eq_some_iff.mp irregular
      dsimp only
      rw [matchCapital_of_small isWord.lowered]
      exact listed pair member
  | none =>
      dsimp only
      split_ifs
      · exact isWord
      · exact isWord.append es
      · exact isWord.dropEnd_append 1 ies
      · exact isWord.dropEnd_append 2 ves
      · exact isWord.dropEnd_append 1 ves
      · exact isWord.append es
      · exact isWord.append s

/-- The singular of a word is a word, unless nothing is left. -/
theorem singularWord (isWord : IsWord word) (some : singularWord word ≠ []) :
    IsWord (singularWord word) := by
  have listed : ∀ pair ∈ irregularNouns, IsWord pair.1.toList := by decide +kernel
  have y : IsWord "y".toList := by decide
  have f : IsWord "f".toList := by decide
  rw [Text.singularWord, isWord.lowered] at some ⊢
  cases irregular : irregularSingular? word with
  | some noun =>
      obtain ⟨pair, member, rfl, -⟩ := irregularSingular?_eq_some_iff.mp irregular
      dsimp only
      rw [matchCapital_of_small isWord.lowered]
      exact listed pair member
  | none =>
      rw [irregular] at some
      dsimp only at some ⊢
      split_ifs at some ⊢
      · exact isWord.dropEnd_append 3 y
      · exact isWord.dropEnd_append 3 f
      · exact isWord.of_isPrefix (List.take_prefix _ _) some
      · exact isWord.of_isPrefix (List.take_prefix _ _) some
      · exact isWord.of_isPrefix (List.take_prefix _ _) some
      · exact isWord

end IsWord

/-! ## Capitals and plurals -/

theorem capitalised_append (some : word ≠ []) (ending : List Char) :
    capitalised (word ++ ending) = capitalised word ++ ending := by
  cases word with
  | nil => exact absurd rfl some
  | cons first rest => rfl

theorem length_capitalised (word : List Char) : (capitalised word).length = word.length := by
  cases word <;> rfl

theorem dropEnd_capitalised (word : List Char) (count : Nat) :
    dropEnd (capitalised word) count = capitalised (dropEnd word count) := by
  rw [dropEnd, dropEnd, length_capitalised]
  cases word with
  | nil => rw [capitalised, List.take_nil, capitalised]
  | cons first rest => cases (first :: rest).length - count <;> rfl

/-- A noun keeps its capital in the plural, unless the plural replaces all of it. -/
theorem pluralWord_capitalised (isWord : IsWord word) (notF : word ≠ ['f'])
    (notFe : word ≠ ['f', 'e']) :
    pluralWord (capitalised word) = capitalised (pluralWord word) := by
  rw [pluralWord, pluralWord, lowered_capitalised isWord.lowered, isWord.lowered]
  cases irregular : irregularPlural? word with
  | some plural =>
      dsimp only
      rw [matchCapital_of_small isWord.lowered, matchCapital]
      obtain ⟨first, rest, shape, upper, -⟩ := isWord.capitalised_eq
      rw [shape, List.head?_cons, Option.any_some, upper, if_pos rfl]
  | none =>
      dsimp only
      split_ifs with isPlural sibilant consonantY fe single consonantO
      · rfl
      · rw [capitalised_append isWord.ne_nil]
      · have long := length_of_consonantBeforeLast (Bool.and_eq_true_iff.mp consonantY).2
        have some : dropEnd word 1 ≠ [] := by
          rw [← List.length_pos_iff_ne_nil, dropEnd, List.length_take]
          omega
        rw [dropEnd_capitalised, capitalised_append some]
      · have some : dropEnd word 2 ≠ [] := fun none =>
          notFe (by rw [← Text.dropEnd_append_ending fe]; exact congrArg (· ++ "fe".toList) none)
        rw [dropEnd_capitalised, capitalised_append some]
      · have ends := (Bool.and_eq_true_iff.mp single).1
        have some : dropEnd word 1 ≠ [] := fun none =>
          notF (by rw [← Text.dropEnd_append_ending ends]; exact congrArg (· ++ "f".toList) none)
        rw [dropEnd_capitalised, capitalised_append some]
      · rw [capitalised_append isWord.ne_nil]
      · rw [capitalised_append isWord.ne_nil]

end

/-! ## Humps of a class -/

section

variable {word run following : List Char} {parts : List (List Char)} {first next : Char}

/-- No hump starts inside a run of small letters and digits. -/
theorem pieces_atHump_of_small (some : run ≠ [])
    (small : ∀ c ∈ run, isSmallOrDigit c = true) : pieces atHump run = [run] := by
  induction run with
  | nil => exact absurd rfl some
  | cons here rest hypothesis =>
      obtain ⟨isSmall, smallRest⟩ := List.forall_mem_cons.mp small
      rw [pieces, isWordCharacter_of_isSmallOrDigit isSmall]
      cases rest with
      | nil => rfl
      | cons other others =>
          have uncut : startsAfter atHump here (other :: others) = false := by
            rw [startsAfter, atHump,
              isUpper_eq_false_of_isSmallOrDigit (smallRest other List.mem_cons_self),
              Bool.false_and]
          rw [uncut, hypothesis (by simp) smallRest]
          rfl

/-- A hump starts at a capital behind a run of small letters and digits. -/
theorem pieces_atHump_append (some : run ≠ []) (small : ∀ c ∈ run, isSmallOrDigit c = true)
    (upper : next.isUpper = true) :
    pieces atHump (run ++ next :: following) = run :: pieces atHump (next :: following) := by
  induction run with
  | nil => exact absurd rfl some
  | cons here rest hypothesis =>
      obtain ⟨isSmall, smallRest⟩ := List.forall_mem_cons.mp small
      rw [List.cons_append, pieces, isWordCharacter_of_isSmallOrDigit isSmall]
      cases rest with
      | nil =>
          have cut : startsAfter atHump here (next :: following) = true := by
            rw [startsAfter, atHump, upper, ← isSmallOrDigit, isSmall, Bool.true_or, Bool.and_true]
          rw [List.nil_append, cut]
          rfl
      | cons other others =>
          have uncut : startsAfter atHump here (other :: (others ++ next :: following)) = false := by
            rw [startsAfter, atHump,
              isUpper_eq_false_of_isSmallOrDigit (smallRest other List.mem_cons_self),
              Bool.false_and]
          rw [hypothesis (by simp) smallRest, List.cons_append, uncut]
          rfl

theorem pieces_atHump_capitalised (isWord : IsWord word) :
    pieces atHump (capitalised word) = [capitalised word] := by
  obtain ⟨first, rest, shape, upper, small, -⟩ := isWord.capitalised_eq
  rw [shape, pieces, isWordCharacter_of_isUpper upper]
  cases rest with
  | nil => rfl
  | cons other others =>
      have uncut : startsAfter atHump first (other :: others) = false := by
        rw [startsAfter, atHump,
          isUpper_eq_false_of_isSmallOrDigit (small other List.mem_cons_self), Bool.false_and]
      rw [uncut, pieces_atHump_of_small (by simp) small]
      rfl

/-- The first piece of a text starts as the text does. -/
theorem exists_pieces_cons (cut : Char → Char → Option Char → Bool) {here : Char}
    (isWord : isWordCharacter here = true) (rest : List Char) :
    ∃ piece others, pieces cut (here :: rest) = (here :: piece) :: others := by
  rw [pieces, isWord]
  cases startsAfter cut here rest with
  | true => exact ⟨_, _, rfl⟩
  | false => cases pieces cut rest <;> exact ⟨_, _, rfl⟩

theorem pieces_atHump_of_apart (isWord : IsWord word) (upper : next.isUpper = true)
    (apart : 2 ≤ word.length ∨ following.head?.any Char.isLower = true) :
    pieces atHump (capitalised word ++ next :: following) =
      capitalised word :: pieces atHump (next :: following) := by
  obtain ⟨first, rest, shape, upperFirst, small, tail⟩ := isWord.capitalised_eq
  rw [shape, List.cons_append, pieces, isWordCharacter_of_isUpper upperFirst]
  cases rest with
  | nil =>
      have single : ¬ 2 ≤ word.length := by
        rw [← length_capitalised, shape]
        simp
      have cut : startsAfter atHump first (next :: following) = true := by
        rw [startsAfter, atHump, upper, upperFirst, apart.resolve_left single]
        simp
      rw [List.nil_append, cut]
      rfl
  | cons other others =>
      have uncut : startsAfter atHump first (other :: (others ++ next :: following)) = false := by
        rw [startsAfter, atHump,
          isUpper_eq_false_of_isSmallOrDigit (small other List.mem_cons_self), Bool.false_and]
      rw [pieces_atHump_append (by simp) small upper, List.cons_append, uncut]
      rfl

/-- Words that are not told apart have no hump between them. -/
theorem apart_of_pieces_atHump (isWord : IsWord word) (upper : next.isUpper = true)
    {others : List (List Char)}
    (cut : pieces atHump (capitalised word ++ next :: following) = capitalised word :: others) :
    2 ≤ word.length ∨ following.head?.any Char.isLower = true := by
  obtain ⟨first, rest, shape, upperFirst, small, tail⟩ := isWord.capitalised_eq
  by_contra together
  rw [not_or, not_le, Bool.not_eq_true] at together
  have single : rest = [] := by
    rw [← List.length_eq_zero_iff]
    have short := together.1
    rw [← length_capitalised, shape, List.length_cons] at short
    omega
  have notSmall := isSmallOrDigit_eq_false_of_isUpper upperFirst
  rw [isSmallOrDigit] at notSmall
  have uncut : startsAfter atHump first (next :: following) = false := by
    rw [startsAfter, atHump, notSmall, together.2, Bool.and_false, Bool.false_or, Bool.and_false]
  obtain ⟨piece, pieces_, whole⟩ :=
    exists_pieces_cons atHump (isWordCharacter_of_isUpper upper) following
  rw [shape, single, List.cons_append, pieces, isWordCharacter_of_isUpper upperFirst,
    List.nil_append, uncut, whole] at cut
  simp [consFirst] at cut

theorem classCharacters_cons (word : List Char) (parts : List (List Char)) :
    classCharacters (word :: parts) = capitalised word ++ classCharacters parts :=
  rfl

theorem classCharacters_append (left right : List (List Char)) :
    classCharacters (left ++ right) = classCharacters left ++ classCharacters right := by
  rw [classCharacters, List.map_append, List.flatten_append]
  rfl

/-- What follows a capital in a class of words is small just when the first word goes on so. -/
theorem any_isLower_tail (isWord : IsWord word) (areWords : ∀ part ∈ parts, IsWord part)
    (shape : classCharacters (word :: parts) = next :: following) :
    next.isUpper = true ∧ following.head?.any Char.isLower = word.tail.head?.any Char.isLower := by
  obtain ⟨first, rest, shapeWord, upper, small, tail⟩ := isWord.capitalised_eq
  rw [classCharacters_cons, shapeWord, List.cons_append] at shape
  obtain ⟨rfl, rfl⟩ := List.cons.inj shape
  refine ⟨upper, ?_⟩
  rw [tail]
  cases rest with
  | cons other others => rfl
  | nil =>
      cases parts with
      | nil => rfl
      | cons part others =>
          obtain ⟨capital, _, shapePart, upperToo, -⟩ :=
            (areWords part List.mem_cons_self).capitalised_eq
          have notSmall := isSmallOrDigit_eq_false_of_isUpper upperToo
          rw [isSmallOrDigit, Bool.or_eq_false_iff] at notSmall
          rw [List.nil_append, classCharacters_cons, shapePart]
          exact notSmall.1

/-- The humps of a class are its words exactly when these stay apart. -/
theorem pieces_atHump_classCharacters_iff (areWords : ∀ part ∈ parts, IsWord part)
    (some : parts ≠ []) :
    pieces atHump (classCharacters parts) = parts.map capitalised ↔ StayApart parts := by
  induction parts with
  | nil => exact absurd rfl some
  | cons word rest hypothesis =>
      obtain ⟨isWord, areRest⟩ := List.forall_mem_cons.mp areWords
      cases rest with
      | nil =>
          rw [classCharacters_cons]
          have cut : pieces atHump (capitalised word ++ []) = [capitalised word] := by
            rw [List.append_nil, pieces_atHump_capitalised isWord]
          exact iff_of_true cut (List.isChain_singleton _)
      | cons part others =>
          obtain ⟨isPart, areOthers⟩ := List.forall_mem_cons.mp areRest
          obtain ⟨next, following, shape⟩ : ∃ next following,
              classCharacters (part :: others) = next :: following := by
            obtain ⟨capital, _, shapePart, -⟩ := isPart.capitalised_eq
            rw [classCharacters_cons, shapePart]
            exact ⟨_, _, rfl⟩
          obtain ⟨upper, goesOn⟩ := any_isLower_tail isPart areOthers shape
          have later := hypothesis areRest (by simp)
          rw [classCharacters_cons, List.map_cons, StayApart, List.isChain_cons_cons, ← StayApart,
            ← later, AreApart, ← goesOn, shape]
          constructor
          · intro cut
            have apart := apart_of_pieces_atHump isWord upper cut
            rw [pieces_atHump_of_apart isWord upper apart] at cut
            exact ⟨apart, (List.cons.inj cut).2⟩
          · rintro ⟨apart, rest⟩
            rw [pieces_atHump_of_apart isWord upper apart, rest]

end

/-! ## Spellings -/

section

variable {parts others : List (List Char)} {text : List Char}

/-- A text of letters and digits has no empty piece. -/
theorem ne_nil_of_mem_pieces {cut : Char → Char → Option Char → Bool} (some : text ≠ [])
    (alphanum : ∀ c ∈ text, isWordCharacter c = true) : ∀ piece ∈ pieces cut text, piece ≠ [] := by
  induction text with
  | nil => exact absurd rfl some
  | cons here rest hypothesis =>
      obtain ⟨isWord, areWords⟩ := List.forall_mem_cons.mp alphanum
      rw [pieces, isWord]
      cases rest with
      | nil => simp [startsAfter, pieces, consFirst]
      | cons next following =>
          have others := hypothesis (by simp) areWords
          cases startsAfter cut here (next :: following) with
          | true => exact List.forall_mem_cons.mpr ⟨by simp, others⟩
          | false =>
              cases shape : pieces cut (next :: following) with
              | nil => simp [consFirst]
              | cons piece pieces =>
                  rw [shape] at others
                  exact List.forall_mem_cons.mpr ⟨by simp, (List.forall_mem_cons.mp others).2⟩

theorem words_eq_pieces (cut : Char → Char → Option Char → Bool) (some : text ≠ [])
    (alphanum : ∀ c ∈ text, isWordCharacter c = true) : words cut text = pieces cut text := by
  rw [words, List.filter_eq_self]
  intro piece member
  simpa using ne_nil_of_mem_pieces some alphanum piece member

theorem isWordCharacter_of_mem_classCharacters (areWords : ∀ part ∈ parts, IsWord part) :
    ∀ c ∈ classCharacters parts, isWordCharacter c = true := by
  intro c member
  obtain ⟨_, among, within⟩ := List.mem_flatten.mp member
  obtain ⟨part, isPart, rfl⟩ := List.mem_map.mp among
  obtain ⟨first, rest, shape, upper, small, -⟩ := (areWords part isPart).capitalised_eq
  rw [shape] at within
  rcases List.mem_cons.mp within with rfl | later
  · exact isWordCharacter_of_isUpper upper
  · exact isWordCharacter_of_isSmallOrDigit (small c later)

theorem classCharacters_ne_nil (areWords : ∀ part ∈ parts, IsWord part) (some : parts ≠ []) :
    classCharacters parts ≠ [] := by
  obtain ⟨part, rest, rfl⟩ := List.exists_cons_of_ne_nil some
  obtain ⟨first, others, shape, -⟩ := (areWords part List.mem_cons_self).capitalised_eq
  rw [classCharacters_cons, shape]
  exact List.cons_ne_nil _ _

theorem tableCharacters_cons (part : List Char) (some : parts ≠ []) :
    tableCharacters (part :: parts) = part ++ '_' :: tableCharacters parts := by
  rw [tableCharacters, List.intercalate_cons_of_ne_nil some, List.append_assoc]
  rfl

theorem pieces_atSeparator_append (alphanum : ∀ c ∈ text, isWordCharacter c = true)
    (rest : List Char) :
    pieces atSeparator (text ++ '_' :: rest) = text :: pieces atSeparator rest := by
  induction text with
  | nil => rfl
  | cons here others hypothesis =>
      obtain ⟨isWord, areWords⟩ := List.forall_mem_cons.mp alphanum
      have uncut : startsAfter atSeparator here (others ++ '_' :: rest) = false := by
        cases others <;> rfl
      rw [List.cons_append, pieces, isWord, uncut, hypothesis areWords]
      rfl

/-- Parts that are joined as in a table are found again at the separators. -/
theorem words_atSeparator_tableCharacters
    (alphanum : ∀ part ∈ parts, ∀ c ∈ part, isWordCharacter c = true) :
    words atSeparator (tableCharacters parts) = parts.filter (!·.isEmpty) := by
  induction parts with
  | nil => rfl
  | cons part rest hypothesis =>
      obtain ⟨isPart, areRest⟩ := List.forall_mem_cons.mp alphanum
      by_cases last : rest = []
      · subst last
        have alone : tableCharacters [part] = part := List.intercalate_singleton
        rw [alone, words, pieces_atSeparator isPart]
      · rw [tableCharacters_cons part last, words, pieces_atSeparator_append isPart,
          List.filter_cons, List.filter_cons, ← hypothesis areRest, words]

theorem lowered_map_capitalised (areWords : ∀ part ∈ parts, IsWord part) :
    (parts.map capitalised).map lowered = parts := by
  rw [List.map_map]
  exact (List.map_congr_left fun part member =>
    lowered_capitalised (areWords part member).lowered).trans (List.map_id parts)

/-- The humps of a class, in small letters, are its words exactly when these stay apart. -/
theorem map_lowered_words_iff (areWords : ∀ part ∈ parts, IsWord part) (some : parts ≠ []) :
    (words atHump (classCharacters parts)).map lowered = parts ↔ StayApart parts := by
  have alphanum := isWordCharacter_of_mem_classCharacters areWords
  rw [← pieces_atHump_classCharacters_iff areWords some,
    ← words_eq_pieces atHump (classCharacters_ne_nil areWords some) alphanum]
  constructor
  · intro same
    rw [List.eq_iff_flatten_eq]
    constructor
    · rw [flatten_words, List.filter_eq_self.mpr alphanum]
      rfl
    · have long : List.length ∘ lowered = List.length := funext fun part => List.length_map _
      have longToo : List.length ∘ capitalised = List.length := funext length_capitalised
      calc (words atHump (classCharacters parts)).map List.length
          = ((words atHump (classCharacters parts)).map lowered).map List.length := by
            rw [List.map_map, long]
        _ = (parts.map capitalised).map List.length := by rw [same, List.map_map, longToo]
  · intro same
    rw [same, lowered_map_capitalised areWords]

end

/-! ## Last words -/

section

variable {run before : List Char} {capital : Char}

theorem splitRun_append {accept : Char → Bool} (accepted : ∀ c ∈ run, accept c = true)
    (stops : ∀ c ∈ before.head?, accept c = false) :
    splitRun accept (run ++ before) = (run, before) := by
  rw [splitRun, List.takeWhile_append_of_pos accepted, List.dropWhile_append_of_pos accepted]
  cases before with
  | nil => simp
  | cons first rest =>
      have refused : accept first = false := stops first rfl
      simp [refused]

theorem lastWord?_of_small (some : run ≠ []) (small : ∀ c ∈ run, isSmallOrDigit c = true)
    (stops : ∀ c ∈ before.head?, isSmallOrDigit c = false ∧ c.isUpper = false) :
    lastWord? (run ++ before) = .some (run, before) := by
  obtain ⟨first, rest, rfl⟩ := List.exists_cons_of_ne_nil some
  rw [lastWord?, splitRun_append small fun c member => (stops c member).1]
  cases before with
  | nil => rfl
  | cons stop others =>
      have notUpper : stop.isUpper = false := (stops stop rfl).2
      simp [notUpper]

/-- A capital before small letters and digits belongs to their word. -/
theorem lastWord?_of_capital (some : run ≠ []) (small : ∀ c ∈ run, isSmallOrDigit c = true)
    (upper : capital.isUpper = true) :
    lastWord? (run ++ capital :: before) = .some (run ++ [capital], before) := by
  obtain ⟨first, rest, rfl⟩ := List.exists_cons_of_ne_nil some
  have stops : ∀ c ∈ (capital :: before).head?, isSmallOrDigit c = false := by
    rintro c ⟨⟩
    exact isSmallOrDigit_eq_false_of_isUpper upper
  rw [lastWord?, splitRun_append small stops]
  simp [upper]

theorem lastWord?_of_capitals (some : run ≠ []) (upper : ∀ c ∈ run, c.isUpper = true)
    (stops : ∀ c ∈ before.head?, c.isUpper = false) :
    lastWord? (run ++ before) = .some (run, before) := by
  obtain ⟨first, rest, rfl⟩ := List.exists_cons_of_ne_nil some
  have notSmall := isSmallOrDigit_eq_false_of_isUpper (upper first List.mem_cons_self)
  have none : splitRun isSmallOrDigit (first :: rest ++ before) = ([], first :: rest ++ before) := by
    simp [splitRun, notSmall]
  rw [lastWord?, none, splitRun_append upper stops]

theorem inflectLastWord_eq {inflect : List Char → List Char} {name : String} {word : List Char}
    (notFeed : ∀ c ∈ name.toList.reverse.head?, c ≠ '\n')
    (found : lastWord? name.toList.reverse = some (word, before)) :
    (inflectLastWord inflect name).toList = before.reverse ++ inflect word.reverse := by
  have kept : dropLineEnd name.toList.reverse = name.toList.reverse := by
    unfold dropLineEnd
    split
    · rename_i shape
      exact absurd rfl (notFeed '\n' (by rw [shape]; rfl))
    · rfl
  rw [inflectLastWord, kept, found, String.toList_ofList]

end

end Scaffold.Text
