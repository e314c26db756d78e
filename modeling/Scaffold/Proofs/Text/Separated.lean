import Mathlib.Data.String.Basic
import Scaffold.Proofs.Text.ClassName
import Scaffold.Text.Lines

/-!
# Texts of parts

A text is cut into its parts at every occurrence of a separator.  Parts that are joined come back
exactly when there are any and none of them has the separator within.  The lines of a text are its
parts between line feeds; lines that are joined and followed by a line feed have one behind each.
-/

namespace Scaffold.Text

/-- The parts of a text between the occurrences of a separator. -/
def parts (separator : Char) (text : String) : List String :=
  (text.toList.splitOn separator).map String.ofList

theorem not_mem_of_mem_splitOn
    {separator : Char} {text part : List Char} (member : part ∈ text.splitOn separator) :
    separator ∉ part := by
  induction text generalizing part with
  | nil =>
      rw [List.splitOn_nil, List.mem_singleton] at member
      rw [member]
      exact List.not_mem_nil
  | cons here rest hypothesis =>
      obtain ⟨first, further, cut⟩ := List.exists_cons_of_ne_nil (List.splitOn_ne_nil separator rest)
      rw [List.splitOn_cons_eq_if_modifyHead] at member
      split_ifs at member with same
      · rcases List.mem_cons.mp member with rfl | later
        · exact List.not_mem_nil
        · exact hypothesis later
      · rw [cut, List.modifyHead_cons] at member
        rcases List.mem_cons.mp member with rfl | later
        · have apart : separator ∉ first := hypothesis (by rw [cut]; exact List.mem_cons_self)
          exact fun within => (List.mem_cons.mp within).elim (fun is => same (by simp [is])) apart
        · exact hypothesis (by rw [cut]; exact List.mem_cons_of_mem _ later)

theorem parts_ne_nil (separator : Char) (text : String) : parts separator text ≠ [] :=
  fun none => List.splitOn_ne_nil separator text.toList (List.map_eq_nil_iff.mp none)

theorem not_mem_of_mem_parts
    {separator : Char} {text part : String} (member : part ∈ parts separator text) :
    separator ∉ part.toList := by
  obtain ⟨characters, among, rfl⟩ := List.mem_map.mp member
  rw [String.toList_ofList]
  exact not_mem_of_mem_splitOn among

theorem mem_of_mem_parts
    {separator c : Char} {text part : String} (member : part ∈ parts separator text)
    (within : c ∈ part.toList) : c ∈ text.toList := by
  obtain ⟨characters, among, rfl⟩ := List.mem_map.mp member
  rw [String.toList_ofList] at within
  have joined : [separator].intercalate (text.toList.splitOn separator) = text.toList :=
    List.intercalate_splitOn separator
  rw [← joined]
  exact mem_intercalate_of_mem among within

theorem parts_intercalate
    {separator : Char} {texts : List String} (nonempty : texts ≠ [])
    (clean : ∀ text ∈ texts, separator ∉ text.toList) :
    parts separator ((String.singleton separator).intercalate texts) = texts := by
  rw [parts, String.toList_intercalate, String.toList_singleton, List.splitOn_intercalate]
  · simp
  · simpa using clean
  · simpa using nonempty

/-- Joined texts are read back exactly when there are any and none has the separator within. -/
theorem parts_intercalate_eq_iff {separator : Char} {texts : List String} :
    parts separator ((String.singleton separator).intercalate texts) = texts ↔
      texts ≠ [] ∧ ∀ text ∈ texts, separator ∉ text.toList := by
  refine ⟨fun same => ?_, fun clean => parts_intercalate clean.1 clean.2⟩
  rw [← same]
  exact ⟨parts_ne_nil _ _, fun text member => not_mem_of_mem_parts member⟩

theorem parts_append_separator (separator : Char) (first second : String) :
    parts separator (first ++ String.singleton separator ++ second) =
      parts separator first ++ parts separator second := by
  have whole : (first ++ String.singleton separator ++ second).toList =
      first.toList ++ separator :: second.toList := by
    simp [String.toList_append]
  rw [parts, whole, List.splitOn_append_cons_self, List.map_append, parts, parts]

theorem parts_of_not_mem {separator : Char} {text : String} (clean : separator ∉ text.toList) :
    parts separator text = [text] := by
  rw [parts, List.splitOn_eq_singleton clean, List.map_singleton, String.ofList_toList]

/-- What stands in front without a separator belongs to the first part. -/
theorem parts_append_of_not_mem
    {separator : Char} {first second part : String} {rest : List String}
    (clean : separator ∉ first.toList) (cut : parts separator second = part :: rest) :
    parts separator (first ++ second) = (first ++ part) :: rest := by
  have split (text : List Char) (clean : separator ∉ text) :
      (text ++ second.toList).splitOn separator =
        (second.toList.splitOn separator).modifyHead (text ++ ·) := by
    induction text with
    | nil => exact (congrFun List.modifyHead_id _).symm
    | cons c text hypothesis =>
        obtain ⟨other, clean⟩ := not_or.mp (fun here => clean (List.mem_cons.mpr here))
        rw [List.cons_append, List.splitOn_cons_eq_if_modifyHead,
          if_neg (by simpa using Ne.symm other), hypothesis clean]
        cases second.toList.splitOn separator <;> rfl
  obtain ⟨start, others, shape, rfl, rfl⟩ := List.map_eq_cons_iff.mp cut
  rw [parts, String.toList_append, split _ clean, shape, List.modifyHead_cons, List.map_cons,
    String.ofList_append, String.ofList_toList]

/-- Texts with a separator behind each are parted one by one. -/
theorem parts_of_terminated {separator : Char} {text rest : String} {texts : List String}
    (whole : text.toList =
      (texts.map String.toList).flatMap (· ++ [separator]) ++ rest.toList) :
    parts separator text = texts.flatMap (parts separator) ++ parts separator rest := by
  have split (texts : List String) :
      ((texts.map String.toList).flatMap (· ++ [separator]) ++ rest.toList).splitOn separator =
        texts.flatMap (fun text => text.toList.splitOn separator) ++
          rest.toList.splitOn separator := by
    induction texts with
    | nil => rfl
    | cons text texts hypothesis =>
        rw [List.map_cons, List.flatMap_cons, List.flatMap_cons, List.append_assoc,
          List.append_assoc, List.singleton_append, List.splitOn_append_cons_self, hypothesis,
          List.append_assoc]
  rw [parts, whole, split, List.map_append, List.map_flatMap]
  rfl

/-! ## Lines -/

/-- The lines of a text are its parts between line feeds. -/
theorem lines_eq_parts (text : String) : lines text = parts '\n' text := by
  have split (characters : List Char) : splitLines characters = characters.splitOn '\n' := by
    induction characters with
    | nil => rfl
    | cons c rest hypothesis =>
        obtain ⟨line, others, cut⟩ := List.exists_cons_of_ne_nil (List.splitOn_ne_nil '\n' rest)
        rw [splitLines, hypothesis, List.splitOn_cons_eq_if_modifyHead, cut]
        rfl
  rw [lines, parts, split]

/-- Lines with a line feed behind each. -/
def terminated : List String → String
  | [] => ""
  | line :: rest => line ++ "\n" ++ terminated rest

theorem terminated_append (first second : List String) :
    terminated (first ++ second) = terminated first ++ terminated second := by
  induction first with
  | nil => simp [terminated]
  | cons line rest hypothesis => simp [terminated, hypothesis, String.append_assoc]

/-- Joined lines with a line feed at the end have one behind each. -/
theorem joinLines_append_lineEnd {lines : List String} (nonempty : lines ≠ []) :
    joinLines lines ++ "\n" = terminated lines := by
  induction lines with
  | nil => exact absurd rfl nonempty
  | cons line rest hypothesis =>
      cases rest with
      | nil => simp [joinLines, terminated]
      | cons next others =>
          rw [terminated, ← hypothesis (List.cons_ne_nil _ _), joinLines, joinLines,
            String.intercalate_cons_of_ne_nil (List.cons_ne_nil _ _)]
          simp only [String.append_assoc]

/-- Lines with a line feed behind each are the first lines of a text. -/
theorem parts_terminated_append
    {lines : List String} (clean : ∀ line ∈ lines, '\n' ∉ line.toList) (rest : String) :
    parts '\n' (terminated lines ++ rest) = lines ++ parts '\n' rest := by
  induction lines with
  | nil => rw [terminated, String.empty_append, List.nil_append]
  | cons line others hypothesis =>
      rw [List.forall_mem_cons] at clean
      have split := parts_append_separator '\n' line (terminated others ++ rest)
      rw [parts_of_not_mem clean.1, hypothesis clean.2, ← String.append_assoc] at split
      exact split

/-- Indenting a line adds blanks alone. -/
theorem mem_of_mem_indentLine {width : Nat} {line : String} {c : Char}
    (member : c ∈ (indentLine width line).toList) : c = ' ' ∨ c ∈ line.toList := by
  rw [indentLine] at member
  split_ifs at member with blank
  · exact .inr member
  · rw [String.toList_append, String.toList_ofList, List.mem_append] at member
    exact member.imp_left List.eq_of_mem_replicate

end Scaffold.Text
