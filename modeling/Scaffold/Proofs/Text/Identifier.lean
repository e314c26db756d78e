import Scaffold.Proofs.Attribute.Fields

/-!
# Whole identifiers

The check of a name overlooks a line feed at its end.  A whole identifier has none, and the accepted
names are exactly the whole identifiers and the whole identifiers with one line feed behind.
-/

namespace Scaffold.Text

/-- ASCII letters, digits and underscores, at least one of them and no digit first. -/
structure IsWholeIdentifier (name : String) : Prop where
  nonempty : name ≠ ""
  characters : ∀ c ∈ name.toList, isIdentifierPart c = true
  start : ∀ first ∈ name.toList.head?, first.isDigit = false

theorem isIdentifierStart_iff {c : Char} :
    isIdentifierStart c = true ↔ isIdentifierPart c = true ∧ c.isDigit = false := by
  have letter : c.isAlpha = true → c.isDigit = false := by
    intro alpha
    have alphanum : c.isAlphanum = true := by rw [Char.isAlphanum, alpha, Bool.true_or]
    exact @forall_ascii (fun c => c.isAlpha = true → c.isDigit = false)
      (by decide +kernel) c (toNat_lt_of_isAlphanum alphanum) alpha
  simp only [isIdentifierStart, isIdentifierPart, Char.isAlphanum, Bool.or_eq_true, beq_iff_eq]
  constructor
  · rintro (alpha | rfl)
    · exact ⟨.inl (.inl alpha), letter alpha⟩
    · exact ⟨.inr rfl, by decide⟩
  · rintro ⟨(alpha | digit) | under, noDigit⟩
    · exact .inl alpha
    · rw [digit] at noDigit
      cases noDigit
    · exact .inr under

theorem isWholeIdentifier_iff {name : String} :
    IsWholeIdentifier name ↔ ∃ first rest, name.toList = first :: rest ∧
      isIdentifierStart first = true ∧ ∀ c ∈ rest, isIdentifierPart c = true := by
  constructor
  · rintro ⟨nonempty, characters, start⟩
    cases shape : name.toList with
    | nil => exact absurd (String.toList_inj.mp shape) nonempty
    | cons first rest =>
        rw [shape] at characters start
        obtain ⟨part, parts⟩ := List.forall_mem_cons.mp characters
        exact ⟨first, rest, rfl, isIdentifierStart_iff.mpr ⟨part, start first rfl⟩, parts⟩
  · rintro ⟨first, rest, shape, start, parts⟩
    obtain ⟨part, noDigit⟩ := isIdentifierStart_iff.mp start
    refine ⟨?_, ?_, ?_⟩
    · rintro rfl
      cases shape
    · rw [shape]
      exact List.forall_mem_cons.mpr ⟨part, parts⟩
    · rw [shape]
      rintro _ ⟨⟩
      exact noDigit

/-- A name is accepted exactly when it is a whole identifier, but for one line feed at its end. -/
theorem isIdentifier_iff_whole {name : String} :
    isIdentifier name = true ↔
      IsWholeIdentifier name ∨ ∃ whole, IsWholeIdentifier whole ∧ name = whole ++ "\n" := by
  rw [isIdentifier_iff, IsIdentifier]
  constructor
  · rintro ⟨first, rest, lineEnd, shape, start, parts, rfl | rfl⟩
    · exact .inl (isWholeIdentifier_iff.mpr
        ⟨first, rest, by rw [shape, List.append_nil], start, parts⟩)
    · refine .inr ⟨String.ofList (first :: rest), isWholeIdentifier_iff.mpr ?_, ?_⟩
      · exact ⟨first, rest, String.toList_ofList, start, parts⟩
      · rw [← String.toList_inj, shape, String.toList_append, String.toList_ofList]
        rfl
  · rintro (whole | ⟨whole, isWhole, rfl⟩)
    · obtain ⟨first, rest, shape, start, parts⟩ := isWholeIdentifier_iff.mp whole
      exact ⟨first, rest, [], by rw [shape, List.append_nil], start, parts, .inl rfl⟩
    · obtain ⟨first, rest, shape, start, parts⟩ := isWholeIdentifier_iff.mp isWhole
      refine ⟨first, rest, ['\n'], ?_, start, parts, .inr rfl⟩
      rw [String.toList_append, shape]
      rfl

theorem IsWholeIdentifier.not_mem_lineFeed {name : String} (whole : IsWholeIdentifier name) :
    '\n' ∉ name.toList :=
  fun within => absurd (whole.characters _ within) (by decide)

/-- An accepted name is a whole identifier exactly when it has no line feed at its end. -/
theorem isWholeIdentifier_iff_of_isIdentifier {name : String} (accepted : isIdentifier name = true) :
    IsWholeIdentifier name ↔ name.toList.getLast? ≠ some '\n' := by
  refine ⟨fun whole ended => whole.not_mem_lineFeed (List.mem_of_getLast? ended), fun plain => ?_⟩
  rcases isIdentifier_iff_whole.mp accepted with whole | ⟨whole, -, rfl⟩
  · exact whole
  · refine absurd ?_ plain
    rw [String.toList_append]
    exact List.getLast?_concat

/-- The characters of an accepted name are those of identifiers, and line feeds. -/
theorem isIdentifierPart_or_eq_lineFeed {name : String} (accepted : isIdentifier name = true)
    {c : Char} (member : c ∈ name.toList) : isIdentifierPart c = true ∨ c = '\n' := by
  rcases isIdentifier_iff_whole.mp accepted with whole | ⟨whole, isWhole, rfl⟩
  · exact .inl (whole.characters c member)
  · rw [String.toList_append, List.mem_append] at member
    rcases member with within | ended
    · exact .inl (isWhole.characters c within)
    · exact .inr (List.mem_singleton.mp ended)

end Scaffold.Text
