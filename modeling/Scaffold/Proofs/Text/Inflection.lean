import Scaffold.Proofs.Text.ClassName

/-!
# Nouns and their plurals

A noun and a plural belong together when the plural of the noun is the plural and its singular is the
noun again.  They do by the table of irregular nouns, or by an ending that no rule for the singular
takes away by mistake.
-/

namespace Scaffold.Text

/-! ## Endings -/

section

variable {word ending : List Char} {endings : List String}

theorem endsWithAny_iff :
    endsWithAny word endings = true ↔ ∃ other ∈ endings, other.toList <:+ word := by
  simp [endsWithAny]

theorem endsWithAny_append_of_suffix (word : List Char)
    (suffix : ∃ other ∈ endings, other.toList <:+ ending) :
    endsWithAny (word ++ ending) endings = true := by
  obtain ⟨other, member, ends⟩ := suffix
  exact endsWithAny_iff.mpr ⟨other, member, ends.trans (List.suffix_append _ _)⟩

/-- A word ends longer when more is added to it. -/
theorem endsWithAny_append_of_refines (ends : endsWithAny word endings = true)
    (ending : List Char) (others : List String)
    (refines : ∀ known ∈ endings, ∃ other ∈ others, other.toList <:+ known.toList ++ ending) :
    endsWithAny (word ++ ending) others = true := by
  obtain ⟨known, member, before, rfl⟩ := endsWithAny_iff.mp ends
  rw [List.append_assoc]
  exact endsWithAny_append_of_suffix before (refines known member)

theorem endsWithAny_eq_false_of_append (none : endsWithAny (word ++ ending) endings = false)
    (others : List String)
    (refines : ∀ known ∈ others, ∃ other ∈ endings, other.toList <:+ known.toList ++ ending) :
    endsWithAny word others = false := by
  by_contra ends
  rw [endsWithAny_append_of_refines (by simpa using ends) ending endings refines] at none
  cases none

theorem endsWithAny_pair (word : List Char) (first second : String) :
    endsWithAny word [first, second] = (endsWithAny word [first] || endsWithAny word [second]) := by
  simp [endsWithAny]

theorem endsWithAny_append_list (word : List Char) (left right : List String) :
    endsWithAny word (left ++ right) = (endsWithAny word left || endsWithAny word right) :=
  List.any_append

/-- A longer ending is excluded with the ending of what stands before. -/
theorem endsWithAny_append_eq_false (none : endsWithAny word endings = false)
    (ending : List Char) (others : List String)
    (refines : ∀ other ∈ others, ∃ known ∈ endings, known.toList ++ ending <:+ other.toList) :
    endsWithAny (word ++ ending) others = false := by
  rw [← Bool.not_eq_true, endsWithAny_iff] at none ⊢
  rintro ⟨other, member, suffix⟩
  obtain ⟨known, isKnown, longer⟩ := refines other member
  obtain ⟨before, same⟩ := longer.trans suffix
  rw [← List.append_assoc, List.append_left_inj] at same
  exact none ⟨known, isKnown, before, same⟩

theorem endsWithAny_eq_false_of_refines (none : endsWithAny word endings = false)
    (others : List String)
    (refines : ∀ other ∈ others, ∃ known ∈ endings, known.toList <:+ other.toList) :
    endsWithAny word others = false := by
  have longer : endsWithAny (word ++ []) others = false :=
    endsWithAny_append_eq_false none [] others (by simpa using refines)
  rwa [List.append_nil] at longer

/-- A word that has one ending has no other one, unless one of the two ends in the other. -/
theorem endsWithAny_eq_false_of_apart (some : endsWithAny word endings = true)
    (others : List String)
    (apart : ∀ known ∈ endings, ∀ other ∈ others,
      ¬ known.toList <:+ other.toList ∧ ¬ other.toList <:+ known.toList) :
    endsWithAny word others = false := by
  rw [← Bool.not_eq_true, endsWithAny_iff]
  rintro ⟨other, member, suffix⟩
  obtain ⟨known, isKnown, end_⟩ := endsWithAny_iff.mp some
  rcases List.suffix_or_suffix_of_suffix end_ suffix with longer | longer
  · exact (apart known isKnown other member).1 longer
  · exact (apart known isKnown other member).2 longer

@[simp]
theorem dropEnd_append (word ending : List Char) :
    dropEnd (word ++ ending) ending.length = word := by
  rw [dropEnd, List.length_append, Nat.add_sub_cancel, List.take_left]

theorem dropEnd_append_ending {other : String} (ends : endsWithAny word [other] = true) :
    dropEnd word other.toList.length ++ other.toList = word := by
  obtain ⟨_, member, before, rfl⟩ := endsWithAny_iff.mp ends
  rw [List.mem_singleton.mp member, dropEnd_append]

theorem length_of_endsWithAny (ends : endsWithAny word endings = true) (least : Nat)
    (long : ∀ other ∈ endings, least ≤ other.toList.length) : least ≤ word.length := by
  obtain ⟨other, member, suffix⟩ := endsWithAny_iff.mp ends
  exact (long other member).trans suffix.length_le

end

/-! ## Small letters -/

section

variable {c : Char} {word replacement : List Char}

theorem toLower_of_isUpper_eq_false (small : c.isUpper = false) : c.toLower = c :=
  dif_neg (of_decide_eq_false small)

theorem isUpper_toLower (c : Char) : c.toLower.isUpper = false := by
  cases upper : c.isUpper with
  | true =>
      have alphanum : c.isAlphanum = true := by simp [isAlphanum_eq, upper]
      exact @forall_ascii (fun c => c.toLower.isUpper = false) (by decide +kernel) c
        (toNat_lt_of_isAlphanum alphanum)
  | false => rw [toLower_of_isUpper_eq_false upper, upper]

theorem toLower_toUpper (small : c.isUpper = false) : c.toUpper.toLower = c := by
  cases lower : c.isLower with
  | true =>
      have alphanum : c.isAlphanum = true := by simp [isAlphanum_eq, lower]
      exact @forall_ascii (fun c => c.isUpper = false → c.toUpper.toLower = c) (by decide +kernel) c
        (toNat_lt_of_isAlphanum alphanum) small
  | false =>
      have outside : ¬ ('a'.val ≤ c.val ∧ c.val ≤ 'z'.val) := by
        rintro ⟨above, below⟩
        have inside : c.isLower = true :=
          Bool.and_eq_true_iff.mpr ⟨decide_eq_true above, decide_eq_true below⟩
        rw [lower] at inside
        cases inside
      have same : c.toUpper = c := dif_neg outside
      rw [same, toLower_of_isUpper_eq_false small]

theorem toLower_toUpper_eq (c : Char) : c.toUpper.toLower = c.toLower := by
  cases upper : c.isUpper with
  | true => rw [toUpper_of_isUpper upper]
  | false => rw [toLower_toUpper upper, toLower_of_isUpper_eq_false upper]

/-- A text has no capitals when it is the same in small letters. -/
theorem isUpper_eq_false_of_mem (small : lowered word = word) (member : c ∈ word) :
    c.isUpper = false := by
  rw [← small] at member
  obtain ⟨original, -, rfl⟩ := List.mem_map.mp member
  exact isUpper_toLower original

theorem lowered_eq_self (small : ∀ c ∈ word, c.isUpper = false) : lowered word = word := by
  rw [lowered, List.map_congr_left fun c member => toLower_of_isUpper_eq_false (small c member)]
  exact List.map_id word

theorem lowered_lowered (text : List Char) : lowered (lowered text) = lowered text := by
  rw [lowered, lowered, List.map_map]
  exact List.map_congr_left fun c _ => toLower_of_isUpper_eq_false (isUpper_toLower c)

theorem lowered_append (left right : List Char) :
    lowered (left ++ right) = lowered left ++ lowered right :=
  List.map_append

theorem lowered_dropEnd (word : List Char) (count : Nat) :
    lowered (dropEnd word count) = dropEnd (lowered word) count := by
  simp [lowered, dropEnd]

/-- The capital that a word is given is gone in small letters. -/
theorem lowered_capitalised_eq (word : List Char) : lowered (capitalised word) = lowered word := by
  cases word with
  | nil => rfl
  | cons first rest => exact congrArg (· :: lowered rest) (toLower_toUpper_eq first)

theorem lowered_capitalised (small : lowered word = word) :
    lowered (capitalised word) = word :=
  (lowered_capitalised_eq word).trans small

theorem matchCapital_of_small (small : lowered word = word) :
    matchCapital word replacement = replacement := by
  cases word with
  | nil => rfl
  | cons first rest =>
      rw [matchCapital, List.head?_cons, Option.any_some,
        isUpper_eq_false_of_mem small List.mem_cons_self]
      rfl

theorem lowered_matchCapital (small : lowered replacement = replacement) :
    lowered (matchCapital word replacement) = replacement := by
  rw [matchCapital]
  split_ifs
  · exact lowered_capitalised small
  · exact small

end

/-! ## The table of irregular nouns -/

/-- The table lists small words, and every noun and every plural once. -/
theorem irregularNouns_spec :
    ∀ pair ∈ irregularNouns, irregularPlural? pair.1.toList = some pair.2.toList ∧
      irregularSingular? pair.2.toList = some pair.1.toList ∧
        lowered pair.1.toList = pair.1.toList ∧ lowered pair.2.toList = pair.2.toList := by
  decide +kernel

theorem irregularPlural?_eq_some_iff {noun plural : List Char} :
    irregularPlural? noun = some plural ↔
      ∃ pair ∈ irregularNouns, pair.1.toList = noun ∧ pair.2.toList = plural := by
  constructor
  · intro found
    obtain ⟨pair, first, rfl⟩ := Option.map_eq_some_iff.mp found
    exact ⟨pair, List.mem_of_find?_eq_some first, by simpa using List.find?_some first, rfl⟩
  · rintro ⟨pair, member, rfl, rfl⟩
    exact (irregularNouns_spec pair member).1

theorem irregularSingular?_eq_some_iff {noun plural : List Char} :
    irregularSingular? plural = some noun ↔
      ∃ pair ∈ irregularNouns, pair.1.toList = noun ∧ pair.2.toList = plural := by
  constructor
  · intro found
    obtain ⟨pair, first, rfl⟩ := Option.map_eq_some_iff.mp found
    exact ⟨pair, List.mem_of_find?_eq_some first, rfl, by simpa using List.find?_some first⟩
  · rintro ⟨pair, member, rfl, rfl⟩
    exact (irregularNouns_spec pair member).2.1

theorem lowered_pluralWord (word : List Char) :
    lowered (pluralWord word) = pluralWord (lowered word) := by
  rw [pluralWord, pluralWord, lowered_lowered]
  cases irregular : irregularPlural? (lowered word) with
  | some plural =>
      obtain ⟨pair, member, -, rfl⟩ := irregularPlural?_eq_some_iff.mp irregular
      have small := (irregularNouns_spec pair member).2.2.2
      dsimp only
      rw [lowered_matchCapital small, matchCapital_of_small (lowered_lowered word)]
  | none =>
      dsimp only
      split_ifs
      all_goals simp only [lowered_append, lowered_dropEnd]
      all_goals rfl

/-! ## Nouns with their plurals -/

/-- The endings of a noun that does not take a plain `s`, or from whose plural more is taken away. -/
def unevenEndings : List String :=
  ["s", "u", "i", "sh", "ch", "x", "z", "fe", "ve", "sse", "use", "xe", "ze", "che", "she"]

/-- Nouns with the plurals that follow from their endings. -/
inductive InflectsByEnding : List Char → List Char → Prop where
  | sibilant {noun : List Char}
      (ends : endsWithAny noun ["sh", "ch", "x", "z", "ss", "us"] = true) :
      InflectsByEnding noun (noun ++ "es".toList)
  | consonantY {noun : List Char} (ends : endsWithAny noun ["y"] = true)
      (consonant : consonantBeforeLast noun = true) :
      InflectsByEnding noun (dropEnd noun 1 ++ "ies".toList)
  | single {noun : List Char} (ends : endsWithAny noun ["f"] = true)
      (notDouble : endsWithAny noun ["ff"] = false) :
      InflectsByEnding noun (dropEnd noun 1 ++ "ves".toList)
  | consonantO {noun : List Char} (ends : endsWithAny noun ["o"] = true)
      (consonant : consonantBeforeLast noun = true) :
      InflectsByEnding noun (noun ++ "es".toList)
  | plain {noun : List Char} (even : endsWithAny noun unevenEndings = false)
      (vowel : endsWithAny noun ["y", "o"] = true → consonantBeforeLast noun = false)
      (double : endsWithAny noun ["f"] = true → endsWithAny noun ["ff"] = true)
      (short : endsWithAny noun ["ie", "oe"] = true → noun.length = 2) :
      InflectsByEnding noun (noun ++ "s".toList)

/-- A noun and its plural, neither of which the table gives to another word. -/
inductive Inflects (noun plural : List Char) : Prop where
  | irregular (listed : irregularPlural? noun = some plural)
  | regular (notNoun : irregularPlural? noun = none) (notPlural : irregularSingular? plural = none)
      (byEnding : InflectsByEnding noun plural)

section

variable {noun plural : List Char}

theorem length_of_consonantBeforeLast (consonant : consonantBeforeLast noun = true) :
    2 ≤ noun.length := by
  rw [consonantBeforeLast] at consonant
  split at consonant
  · rename_i last before rest shape
    have lengths := congrArg List.length shape
    rw [List.length_reverse, List.length_cons, List.length_cons] at lengths
    omega
  · cases consonant

/-- A sibilant noun that ends in `s` is no plural. -/
theorem not_isPlural_of_sibilant
    (ends : endsWithAny noun ["sh", "ch", "x", "z", "ss", "us"] = true) :
    (endsWithAny noun ["s"] && !endsWithAny noun ["ss", "us", "is"]) = false := by
  have either := ends
  rw [show ["sh", "ch", "x", "z", "ss", "us"] = ["sh", "ch", "x", "z"] ++ ["ss", "us"] from rfl,
    endsWithAny_append_list, Bool.or_eq_true] at either
  rcases either with other | hissing
  · rw [endsWithAny_eq_false_of_apart other ["s"] (by decide), Bool.false_and]
  · have more : endsWithAny noun (["ss", "us"] ++ ["is"]) = true := by
      rw [endsWithAny_append_list, hissing, Bool.true_or]
    rw [show ["ss", "us", "is"] = ["ss", "us"] ++ ["is"] from rfl, more, Bool.not_true,
      Bool.and_false]

theorem InflectsByEnding.pluralWord_eq (inflects : InflectsByEnding noun plural)
    (small : lowered noun = noun) (regular : irregularPlural? noun = none) :
    pluralWord noun = plural := by
  rw [pluralWord, small, regular]
  dsimp only
  cases inflects with
  | sibilant ends =>
      simp [not_isPlural_of_sibilant ends, ends]
  | consonantY ends consonant =>
      have no := endsWithAny_eq_false_of_apart ends
      simp [no ["s"] (by decide), no ["sh", "ch", "x", "z", "ss", "us"] (by decide), ends, consonant]
  | single ends notDouble =>
      have no := endsWithAny_eq_false_of_apart ends
      simp [no ["s"] (by decide), no ["sh", "ch", "x", "z", "ss", "us"] (by decide),
        no ["y"] (by decide), no ["fe"] (by decide), ends, notDouble]
  | consonantO ends consonant =>
      have no := endsWithAny_eq_false_of_apart ends
      simp [no ["s"] (by decide), no ["sh", "ch", "x", "z", "ss", "us"] (by decide),
        no ["y"] (by decide), no ["fe"] (by decide), no ["f"] (by decide), ends, consonant]
  | plain even vowel double short =>
      have no := endsWithAny_eq_false_of_refines even
      have noPlural : (endsWithAny noun ["s"] && !endsWithAny noun ["ss", "us", "is"]) = false := by
        rw [no ["s"] (by decide), Bool.false_and]
      have noY : (endsWithAny noun ["y"] && consonantBeforeLast noun) = false := by
        rw [endsWithAny_pair] at vowel
        cases ends : endsWithAny noun ["y"] <;> simp_all
      have noO : (endsWithAny noun ["o"] && consonantBeforeLast noun) = false := by
        rw [endsWithAny_pair] at vowel
        cases ends : endsWithAny noun ["o"] <;> simp_all
      have noF : (endsWithAny noun ["f"] && !endsWithAny noun ["ff"]) = false := by
        cases ends : endsWithAny noun ["f"] <;> simp_all
      rw [noPlural, no ["sh", "ch", "x", "z", "ss", "us"] (by decide), noY, no ["fe"] (by decide),
        noF, noO]
      rfl

theorem singularWord_ves {stem : List Char}
    (small : lowered (stem ++ "ves".toList) = stem ++ "ves".toList)
    (regular : irregularSingular? (stem ++ "ves".toList) = none) :
    singularWord (stem ++ "ves".toList) = stem ++ "f".toList := by
  have ves : endsWithAny (stem ++ "ves".toList) ["ves"] = true :=
    endsWithAny_append_of_suffix stem (by decide)
  have no := endsWithAny_eq_false_of_apart ves
  rw [singularWord, small, regular]
  dsimp only
  rw [no ["ies"] (by decide), ves]
  exact congrArg (· ++ "f".toList) (dropEnd_append stem "ves".toList)

theorem InflectsByEnding.singularWord_eq (inflects : InflectsByEnding noun plural)
    (small : lowered plural = plural) (regular : irregularSingular? plural = none) :
    singularWord plural = noun := by
  cases inflects with
  | sibilant ends =>
      rw [singularWord, small, regular]
      dsimp only
      have none : endsWithAny noun ["i", "v", "o"] = false :=
        endsWithAny_eq_false_of_apart ends _ (by decide)
      have no := endsWithAny_append_eq_false none "es".toList
      have es := endsWithAny_append_of_refines ends "es".toList
        ["sses", "uses", "xes", "zes", "ches", "shes"] (by decide)
      rw [no ["ies"] (by decide), no ["ves"] (by decide), no ["oes"] (by decide), es]
      exact dropEnd_append noun "es".toList
  | consonantY ends consonant =>
      rw [singularWord, small, regular]
      dsimp only
      have long := length_of_consonantBeforeLast consonant
      have ies : endsWithAny (dropEnd noun 1 ++ "ies".toList) ["ies"] = true :=
        endsWithAny_append_of_suffix _ (by decide)
      have longer : (dropEnd noun 1 ++ "ies".toList).length > 3 := by
        simp [dropEnd]
        omega
      rw [ies, decide_eq_true longer]
      show dropEnd (dropEnd noun 1 ++ "ies".toList) "ies".toList.length ++ "y".toList = noun
      rw [dropEnd_append]
      exact dropEnd_append_ending ends
  | single ends notDouble =>
      exact (singularWord_ves small regular).trans (dropEnd_append_ending ends)
  | consonantO ends consonant =>
      rw [singularWord, small, regular]
      dsimp only
      have long := length_of_consonantBeforeLast consonant
      have oes : endsWithAny (noun ++ "es".toList) ["oes"] = true := by
        rw [← dropEnd_append_ending ends, List.append_assoc]
        exact endsWithAny_append_of_suffix _ (by decide)
      have longer : (noun ++ "es".toList).length > 3 := by
        simp
        omega
      have no := endsWithAny_eq_false_of_apart oes
      rw [no ["ies"] (by decide), no ["ves"] (by decide), oes, decide_eq_true longer]
      exact dropEnd_append noun "es".toList
  | plain even vowel double short =>
      rw [singularWord, small, regular]
      dsimp only
      have no := endsWithAny_append_eq_false even "s".toList
      have s : endsWithAny (noun ++ "s".toList) ["s"] = true :=
        endsWithAny_append_of_suffix _ (by decide)
      have brief (other : String) (vowels : other ∈ ["ies", "oes"]) :
          (endsWithAny (noun ++ "s".toList) [other] &&
            decide ((noun ++ "s".toList).length > 3)) = false := by
        have refines : ∀ other ∈ ["ies", "oes"], ∀ same ∈ [other], ∃ known ∈ ["ie", "oe"],
            known.toList ++ "s".toList <:+ same.toList := by
          decide
        cases ends : endsWithAny noun ["ie", "oe"] with
        | true => simp [short ends]
        | false =>
            rw [endsWithAny_append_eq_false ends _ _ (refines other vowels), Bool.false_and]
      rw [brief "ies" (by decide), no ["ves"] (by decide), brief "oes" (by decide),
        no ["sses", "uses", "xes", "zes", "ches", "shes"] (by decide), s,
        no ["ss", "us", "is"] (by decide)]
      exact dropEnd_append noun "s".toList

/-- From a plural in `s` some letters are taken away. -/
theorem length_singularWord_lt (small : lowered noun = noun)
    (regular : irregularSingular? noun = none)
    (isPlural : (endsWithAny noun ["s"] && !endsWithAny noun ["ss", "us", "is"]) = true) :
    (singularWord noun).length < noun.length := by
  have long := length_of_endsWithAny (Bool.and_eq_true_iff.mp isPlural).1 1 (by decide)
  rw [singularWord, small, regular]
  dsimp only
  split_ifs with ies ves oes es
  · simp [dropEnd] at ies ⊢
    omega
  · have longer := length_of_endsWithAny ves 3 (by decide)
    simp [dropEnd]
    omega
  · simp [dropEnd]
    omega
  · simp [dropEnd]
    omega
  · simp [dropEnd]
    omega

/-- A noun that takes a plain `s` has no ending from which more is taken away. -/
theorem endsWithAny_unevenEndings
    (notSibilant : endsWithAny noun ["sh", "ch", "x", "z", "ss", "us"] = false)
    (notFe : endsWithAny noun ["fe"] = false)
    (small : lowered (noun ++ "s".toList) = noun ++ "s".toList)
    (regular : irregularSingular? (noun ++ "s".toList) = none)
    (back : singularWord (noun ++ "s".toList) = noun) :
    endsWithAny noun unevenEndings = false ∧
      (endsWithAny noun ["ie", "oe"] = true → noun.length = 2) := by
  have lengths := congrArg List.length back
  rw [singularWord, small, regular] at lengths
  dsimp only at lengths
  split_ifs at lengths with ies ves oes es s
  · simp [dropEnd] at ies lengths
    omega
  · have longer := length_of_endsWithAny ves 3 (by decide)
    simp [dropEnd] at longer lengths
    omega
  · simp [dropEnd] at oes lengths
    omega
  · have longer := length_of_endsWithAny es 3 (by decide)
    simp [dropEnd] at longer lengths
    omega
  · rw [Bool.not_eq_true] at ves es
    rw [Bool.and_eq_true, Bool.not_eq_true'] at s
    have groups : unevenEndings = ["s", "u", "i"] ++ (["sh", "ch", "x", "z"] ++
        (["fe"] ++ (["ve"] ++ ["sse", "use", "xe", "ze", "che", "she"]))) := rfl
    constructor
    · simp only [groups, endsWithAny_append_list, Bool.or_eq_false_iff]
      refine ⟨?_, ?_, notFe, ?_, ?_⟩
      · exact endsWithAny_eq_false_of_append s.2 _ (by decide)
      · exact endsWithAny_eq_false_of_refines notSibilant _ (by decide)
      · exact endsWithAny_eq_false_of_append ves _ (by decide)
      · exact endsWithAny_eq_false_of_append es _ (by decide)
    · intro ends
      have long := length_of_endsWithAny ends 2 (by decide)
      by_contra different
      have longer : (noun ++ "s".toList).length > 3 := by
        simp
        omega
      rw [decide_eq_true longer, Bool.and_true] at ies oes
      rw [endsWithAny_pair, Bool.or_eq_true] at ends
      rcases ends with ie | oe
      · exact ies (endsWithAny_append_of_refines ie "s".toList ["ies"] (by decide))
      · exact oes (endsWithAny_append_of_refines oe "s".toList ["oes"] (by decide))
  · simp at lengths

theorem InflectsByEnding.of_inverse (small : lowered noun = noun)
    (notNoun : irregularPlural? noun = none) (notPlural : irregularSingular? plural = none)
    (forth : pluralWord noun = plural) (back : singularWord plural = noun) :
    InflectsByEnding noun plural := by
  have smallPlural : lowered plural = plural := by
    rw [← forth, lowered_pluralWord, small]
  rw [pluralWord, small, notNoun] at forth
  dsimp only at forth
  split_ifs at forth with isPlural sibilant consonantY fe single consonantO
  all_goals subst forth
  · have shorter := length_singularWord_lt small notPlural isPlural
    rw [back] at shorter
    exact absurd shorter (lt_irrefl _)
  · exact .sibilant sibilant
  · rw [Bool.and_eq_true] at consonantY
    exact .consonantY consonantY.1 consonantY.2
  · rw [singularWord_ves smallPlural notPlural] at back
    have lengths := congrArg List.length (back.trans (dropEnd_append_ending fe).symm)
    simp at lengths
  · rw [Bool.and_eq_true, Bool.not_eq_true'] at single
    exact .single single.1 single.2
  · rw [Bool.and_eq_true] at consonantO
    exact .consonantO consonantO.1 consonantO.2
  · rw [Bool.not_eq_true] at isPlural sibilant consonantY fe single consonantO
    obtain ⟨even, short⟩ :=
      endsWithAny_unevenEndings sibilant fe smallPlural notPlural back
    refine .plain even ?_ ?_ short
    · rw [endsWithAny_pair]
      cases y : endsWithAny noun ["y"] <;> cases o : endsWithAny noun ["o"] <;> simp_all
    · cases f : endsWithAny noun ["f"] <;> simp_all

/-- A noun and a plural belong together when each is what is made of the other one. -/
theorem inflects_iff (small : lowered noun = noun) :
    Inflects noun plural ↔ pluralWord noun = plural ∧ singularWord plural = noun := by
  constructor
  · intro inflects
    have forth : pluralWord noun = plural := by
      cases inflects with
      | irregular listed =>
          rw [pluralWord, small, listed]
          exact matchCapital_of_small small
      | regular notNoun notPlural byEnding => exact byEnding.pluralWord_eq small notNoun
    have smallPlural : lowered plural = plural := by
      rw [← forth, lowered_pluralWord, small]
    refine ⟨forth, ?_⟩
    cases inflects with
    | irregular listed =>
        rw [singularWord, smallPlural,
          irregularSingular?_eq_some_iff.mpr (irregularPlural?_eq_some_iff.mp listed)]
        exact matchCapital_of_small smallPlural
    | regular notNoun notPlural byEnding => exact byEnding.singularWord_eq smallPlural notPlural
  · rintro ⟨forth, back⟩
    have smallPlural : lowered plural = plural := by
      rw [← forth, lowered_pluralWord, small]
    cases listed : irregularPlural? noun with
    | some other =>
        rw [pluralWord, small, listed] at forth
        dsimp only at forth
        rw [matchCapital_of_small small] at forth
        rw [← forth]
        exact .irregular listed
    | none =>
        cases listedToo : irregularSingular? plural with
        | some other =>
            rw [singularWord, smallPlural, listedToo] at back
            dsimp only at back
            rw [matchCapital_of_small smallPlural] at back
            rw [back] at listedToo
            have pairs := irregularSingular?_eq_some_iff.mp listedToo
            have known := irregularPlural?_eq_some_iff.mpr pairs
            rw [listed] at known
            cases known
        | none =>
            exact .regular listed listedToo (.of_inverse small listed listedToo forth back)

end

end Scaffold.Text
