import Scaffold.Proofs.Attribute.Allowance
import Scaffold.Proofs.Keyed
import Scaffold.Proofs.Php.Literal
import Scaffold.Proofs.Text.Identifier
import Scaffold.Proofs.Text.Separated
import Scaffold.Schema.Projection

/-!
# Reading the rules of a request

A request has one text of rules for a field, and the rule on membership one text of values.  Both
join their parts as they are, and do not mark a separator that stands within a part.  The main
statement says which attributes have rules that are read back, and which enumerations have a request
that admits just the values of their column.
-/

namespace Scaffold.Schema

/-! ## The attribute behind a field -/

/-- The attribute that gives the rules of a field: the last one of its name that has rules. -/
def requested? (attributes : List Attribute) (name : String) : Option Attribute :=
  (attributes.filter (isRequested (fillable attributes))).reverse.find? (·.name == name)

theorem mem_validationRules_iff {attributes : List Attribute} {table name rules : String} :
    (name, rules) ∈ validationRules attributes table ↔
      ∃ attr, requested? attributes name = some attr ∧
        "|".intercalate (requestRules table attr) = rules := by
  rw [validationRules, Keyed.mem_ofList_iff, ← List.map_reverse, List.find?_map, requested?,
    Option.map_map, Option.map_eq_some_iff]
  rfl

theorem mem_of_requested?
    {attributes : List Attribute} {name : String} {attr : Attribute}
    (requested : requested? attributes name = some attr) : attr ∈ attributes := by
  have member := List.mem_of_find?_eq_some requested
  rw [List.mem_reverse, List.mem_filter] at member
  exact member.1

/-! ## Rules -/

/-- The texts of an attribute that stand in the rules of its type as they are given. -/
def typeTexts (attr : Attribute) : List String :=
  match attr.type, attr.on with
  | .enum, _ => attr.options.getD []
  | .foreignId, some table => [table, attr.references.getD "id"]
  | _, _ => []

/-- The texts that stand in the rules of an attribute of a table as they are given. -/
def ruleTexts (table : String) (attr : Attribute) : List String :=
  typeTexts attr ++ if attr.unique == some true then [table] else []

theorem not_mem_writtenInt (value : Int) : '|' ∉ (Decimal.writtenInt value).toList :=
  fun member => absurd (Decimal.isNumberCharacter_writtenInt value '|' member) (by decide)

theorem not_mem_name {attr : Attribute} (accepted : attr.IsAccepted) : '|' ∉ attr.name.toList := by
  intro member
  rcases Text.isIdentifierPart_or_eq_lineFeed accepted.isIdentifier member with part | same
  · exact absurd part (by decide)
  · exact absurd same (by decide)

theorem mem_joined_iff {options : List String} :
    '|' ∈ (",".intercalate options).toList ↔ ∃ option ∈ options, '|' ∈ option.toList := by
  rw [String.toList_intercalate]
  change '|' ∈ [','].intercalate _ ↔ _
  constructor
  · intro member
    rcases Text.mem_of_mem_intercalate member with same | ⟨part, among, within⟩
    · exact absurd same (by decide)
    · obtain ⟨option, isOption, rfl⟩ := List.mem_map.mp among
      exact ⟨option, isOption, within⟩
  · rintro ⟨option, isOption, within⟩
    exact Text.mem_intercalate_of_mem (List.mem_map_of_mem isOption) within

/-- The rules of a type have the separator within exactly where a given text has. -/
theorem clean_typeRules_iff {attr : Attribute} :
    (∀ rule ∈ typeRules attr, '|' ∉ rule.toList) ↔ ∀ text ∈ typeTexts attr, '|' ∉ text.toList := by
  rw [typeRules.eq_def, typeTexts.eq_def]
  cases type : attr.type with
  | string | char => simp [not_mem_writtenInt]
  | enum =>
      simp only [List.forall_mem_singleton, String.toList_append, List.mem_append, mem_joined_iff]
      simp
  | foreignId =>
      cases attr.on with
      | none => simp
      | some table => simp
  | _ => simp

theorem not_mem_presenceRule (attr : Attribute) : '|' ∉ (presenceRule attr).toList := by
  rw [presenceRule]
  split_ifs <;> decide

/-- Rules are read back exactly when no text that stands in them has the separator within. -/
theorem parts_rules_eq_iff {attr : Attribute} (accepted : attr.IsAccepted) (table : String) :
    Text.parts '|' ("|".intercalate (requestRules table attr)) = requestRules table attr ↔
      ∀ text ∈ ruleTexts table attr, '|' ∉ text.toList := by
  have nonempty : requestRules table attr ≠ [] := List.cons_ne_nil _ _
  change Text.parts '|' ((String.singleton '|').intercalate _) = _ ↔ _
  rw [Text.parts_intercalate_eq_iff, and_iff_right nonempty, requestRules, List.cons_append,
    List.forall_mem_cons, and_iff_right (not_mem_presenceRule attr), List.forall_mem_append,
    clean_typeRules_iff, ruleTexts, List.forall_mem_append]
  split_ifs <;> simp [not_mem_name accepted]

/-! ## Enumerations -/

/-- The arguments of a rule, if it has the given name. -/
def argumentsOf? (name rule : String) : Option (List String) :=
  (rule.toList.dropPrefix? (name ++ ":").toList).map fun rest =>
    Text.parts ',' (String.ofList rest)

/-- The values that a text of rules admits: the arguments of its first rule on membership. -/
def admitted? (rules : String) : Option (List String) :=
  (Text.parts '|' rules).findSome? (argumentsOf? "in")

/-- There are options, and none has one of the separators within. -/
def Separable (options : List String) : Prop :=
  options ≠ [] ∧ ∀ option ∈ options, '|' ∉ option.toList ∧ ',' ∉ option.toList

instance : DecidablePred Separable :=
  fun options => inferInstanceAs (Decidable (options ≠ [] ∧ ∀ option ∈ options, _ ∧ _))

theorem argumentsOf?_membership (values : String) :
    argumentsOf? "in" ("in:" ++ values) = some (Text.parts ',' values) := by
  have whole : ("in:" ++ values).toList = ("in" ++ ":").toList ++ values.toList :=
    String.toList_append
  rw [argumentsOf?, whole, List.dropPrefix?_append_of_beq _ (beq_self_eq_true _), Option.map_some,
    String.ofList_toList]

theorem argumentsOf?_presenceRule (attr : Attribute) :
    argumentsOf? "in" (presenceRule attr) = none := by
  rw [presenceRule]
  split_ifs <;> rfl

/-- No admitted value has a separator within. -/
theorem separable_of_admitted?
    {rules : String} {values : List String} (admitted : admitted? rules = some values) :
    Separable values := by
  obtain ⟨rule, isRule, read⟩ := List.exists_of_findSome?_eq_some admitted
  obtain ⟨rest, dropped, rfl⟩ := Option.map_eq_some_iff.mp read
  obtain ⟨front, whole, -⟩ := List.dropPrefix?_eq_some_iff.mp dropped
  refine ⟨Text.parts_ne_nil _ _, fun value isValue => ⟨fun bar => ?_, ?_⟩⟩
  · have within := Text.mem_of_mem_parts isValue bar
    rw [String.toList_ofList] at within
    refine Text.not_mem_of_mem_parts isRule ?_
    rw [whole]
    exact List.mem_append_right _ within
  · exact Text.not_mem_of_mem_parts isValue

/-- The rules of an accepted enumeration say whether it must be there, and what it may be. -/
theorem requestRules_of_enum {attr : Attribute} (accepted : attr.IsAccepted)
    (enum : attr.type = .enum) (table : String) :
    ∃ options, attr.options = some options ∧ ruleTexts table attr = options ∧
      requestRules table attr = [presenceRule attr, "in:" ++ ",".intercalate options] := by
  have optionsField : ("options", attr.options.map fun options => .list (options.map .text)) ∈
      attr.values := by
    simp [Attribute.values]
  have required := accepted.isSome_of_required optionsField
    (by rw [enum]; exact List.mem_singleton_self _)
  have unique : attr.unique = none := by
    have uniqueField : ("unique", attr.unique.map .bool) ∈ attr.values := by
      simp [Attribute.values]
    have banned := accepted.allows_of_isSome uniqueField
    rw [enum] at banned
    cases given : attr.unique with
    | none => rfl
    | some value =>
        have allowed : ColumnType.enum.allows "unique" = true := banned (by rw [given]; rfl)
        exact absurd allowed (by decide)
  obtain ⟨options, given⟩ := Option.isSome_iff_exists.mp (by simpa using required)
  refine ⟨options, given, ?_, ?_⟩
  · simp [ruleTexts, typeTexts, enum, given, unique]
  · simp [requestRules, typeRules, enum, given, unique]

/-- The options of an enumeration that stand apart are the admitted values. -/
theorem admitted?_of_separable {attr : Attribute} (accepted : attr.IsAccepted)
    (enum : attr.type = .enum) (table : String) {options : List String}
    (given : attr.options = some options) (apart : Separable options) :
    admitted? ("|".intercalate (requestRules table attr)) = some options := by
  obtain ⟨own, same, texts, rules⟩ := requestRules_of_enum accepted enum table
  obtain rfl : own = options := Option.some.inj (same.symm.trans given)
  have back := (parts_rules_eq_iff accepted table).mpr
    (by rw [texts]; exact fun option member => (apart.2 option member).1)
  have values : Text.parts ',' (",".intercalate own) = own :=
    Text.parts_intercalate apart.1 fun option member => (apart.2 option member).2
  rw [admitted?, back, rules, List.findSome?_cons, argumentsOf?_presenceRule, List.findSome?_cons,
    argumentsOf?_membership, values]

/--
Every text of rules is that of the last attribute of its name that has rules.  It is read back as
the list of these rules exactly when no text that stands in them as it is given has a `|` within,
and the rule on membership of an enumeration is read back as its options, or as the same values in
some order, exactly when there are any and none has a `|` or a `,` within.
-/
theorem validationRules_reads_back
    {attributes : List Attribute} (accepted : ∀ attr ∈ attributes, attr.IsAccepted)
    {table name rules : String} (member : (name, rules) ∈ validationRules attributes table) :
    ∃ attr, requested? attributes name = some attr ∧
      (Text.parts '|' rules = requestRules table attr ↔
        ∀ text ∈ ruleTexts table attr, '|' ∉ text.toList) ∧
      (attr.type = .enum → ∃ options, attr.options = some options ∧
        (admitted? rules = some options ↔ Separable options) ∧
        ((∃ values, admitted? rules = some values ∧ ∀ value, value ∈ values ↔ value ∈ options) ↔
          Separable options)) := by
  obtain ⟨attr, requested, rfl⟩ := mem_validationRules_iff.mp member
  have isAccepted := accepted attr (mem_of_requested? requested)
  refine ⟨attr, requested, parts_rules_eq_iff isAccepted table, fun enum => ?_⟩
  obtain ⟨options, given, -⟩ := requestRules_of_enum isAccepted enum table
  have back := admitted?_of_separable isAccepted enum table given
  refine ⟨options, given, ⟨separable_of_admitted?, back⟩, ?_, fun apart => ?_⟩
  · rintro ⟨values, admitted, same⟩
    obtain ⟨nonempty, apart⟩ := separable_of_admitted? admitted
    obtain ⟨value, isValue⟩ := List.exists_mem_of_ne_nil _ nonempty
    exact ⟨List.ne_nil_of_mem ((same value).mp isValue),
      fun option isOption => apart option ((same option).mpr isOption)⟩
  · exact ⟨options, back apart, fun _ => Iff.rfl⟩

/-- The entries of an enumeration. -/
def enumEntries (name : String) (options : List String) : Document.Entries :=
  [(.text "name", .text name), (.text "type", .text "enum"),
    (.text "options", .list (options.map .text))]

/-- The attribute of an enumeration. -/
def enumAttribute (name : String) (options : List String) : Attribute where
  name
  type := .enum
  options := some options

/-- Different options, and at least one, make an enumeration under every name that is accepted. -/
theorem isAccepted_enumAttribute
    {name : String} (identifier : Text.isIdentifier name = true) {options : List String}
    (nonempty : options ≠ []) (distinct : options.Nodup) :
    (enumAttribute name options).IsAccepted := by
  have given : Attribute.givenName? (enumEntries name options) = some name :=
    Attribute.givenName?_cons identifier _
  have json : (Document.Value.list (options.map .text)).IsJson := by
    refine .list fun item member => ?_
    obtain ⟨option, -, rfl⟩ := List.mem_map.mp member
    exact .text _
  have isRead : Document.readOptional Attribute.readOptions (some (.list (options.map .text))) =
      .ok (some options) := by
    change (Attribute.readOptions _).map some = _
    rw [(Attribute.recognises_options json options).mpr ⟨distinct, rfl⟩]
    rfl
  have found : (enumEntries name options).get? "options" = some (.list (options.map .text)) := rfl
  refine ⟨none, .mapping (enumEntries name options), Attribute.ofRecord_mapping_eq_ok_iff.mpr
    ⟨.enum, name, rfl, rfl, ?_, ⟨by rw [given]; rfl, if_pos identifier⟩, rfl, rfl,
      (Attribute.readValues_eq_ok_iff _).mpr ⟨⟨rfl, rfl⟩, rfl, rfl, rfl, rfl, rfl, rfl, rfl, ?_,
        rfl, rfl, rfl, rfl, rfl, rfl⟩⟩⟩
  · cases options with
    | nil => exact absurd rfl nonempty
    | cons first rest => rfl
  · rw [Attribute.readField, found, isRead]
    rfl

/-- The rules of a status are read back, and admit its two options. -/
theorem validationRules_reads_back_status :
    (∀ attr ∈ [enumAttribute "status" ["draft", "published"]], attr.IsAccepted) ∧
      ("status", "required|in:draft,published") ∈
        validationRules [enumAttribute "status" ["draft", "published"]] "posts" ∧
      ∃ attr, requested? [enumAttribute "status" ["draft", "published"]] "status" = some attr ∧
        Text.parts '|' "required|in:draft,published" = requestRules "posts" attr ∧
        admitted? "required|in:draft,published" = some ["draft", "published"] := by
  have accepted : ∀ attr ∈ [enumAttribute "status" ["draft", "published"]], attr.IsAccepted :=
    List.forall_mem_singleton.mpr (isAccepted_enumAttribute (by decide) (by decide) (by decide))
  have member : ("status", "required|in:draft,published") ∈
      validationRules [enumAttribute "status" ["draft", "published"]] "posts" := by decide
  obtain ⟨attr, requested, rules, enum⟩ := validationRules_reads_back accepted member
  obtain rfl : attr = enumAttribute "status" ["draft", "published"] :=
    (Option.some.inj requested).symm
  obtain ⟨options, given, values, -⟩ := enum rfl
  obtain rfl : options = ["draft", "published"] := (Option.some.inj given).symm
  exact ⟨accepted, member, _, requested, rules.mpr (by decide), values.mpr (by decide)⟩

/--
The request for a size with the option `a,b` admits `a` and `b` in its place, and the rules of a
size with the option `S|M` are not the ones that were joined.
-/
theorem validationRules_cuts_options :
    (enumAttribute "size" ["a,b", "c"]).IsAccepted ∧
      validationRules [enumAttribute "size" ["a,b", "c"]] "posts" =
        [("size", "required|in:a,b,c")] ∧
      admitted? "required|in:a,b,c" = some ["a", "b", "c"] ∧
      (enumAttribute "size" ["S|M", "L"]).IsAccepted ∧
      validationRules [enumAttribute "size" ["S|M", "L"]] "posts" =
        [("size", "required|in:S|M,L")] ∧
      Text.parts '|' "required|in:S|M,L" ≠
        requestRules "posts" (enumAttribute "size" ["S|M", "L"]) :=
  ⟨isAccepted_enumAttribute (by decide) (by decide) (by decide), by decide, by decide,
    isAccepted_enumAttribute (by decide) (by decide) (by decide), by decide, by decide⟩

end Scaffold.Schema
