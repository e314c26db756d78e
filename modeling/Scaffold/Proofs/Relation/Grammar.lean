import Scaffold.Proofs.Relation.Fields
import Scaffold.Proofs.Violation

/-!
# The grammar of relation records

A record of a JSON document is a relation exactly when it passes a list of checks: its name, its
kind, then each of its fields, each field that the kind requires, and each of its values.  The
relation then carries the values of the record as they are.  A record that does not pass is reported
at the field of the first check that fails.
-/

namespace Scaffold

open Scaffold.Document (Entries Recognises Value)

/-! ## Checks in order -/

/-- A condition on a record, and the field at which it is reported. -/
structure Check where
  field : String
  Holds : Prop

/-- The first check of a list that does not hold. -/
def Check.IsFirstFailing (checks : List Check) (check : Check) : Prop :=
  ∃ before after, checks = before ++ check :: after ∧ (∀ earlier ∈ before, earlier.Holds) ∧
    ¬ check.Holds

/-- A computation succeeds when all checks hold, and else reports the first that does not. -/
def Follows {α : Type} (checks : List Check) : Except Violation α → Prop
  | .ok _ => ∀ check ∈ checks, check.Holds
  | .error violation => ∃ check, Check.IsFirstFailing checks check ∧
      violation.field = some check.field

/-- There is one first check that fails. -/
theorem Check.IsFirstFailing.unique
    {checks : List Check} {check other : Check} (first : IsFirstFailing checks check)
    (firstToo : IsFirstFailing checks other) : check = other := by
  obtain ⟨before, after, rfl, hold, fails⟩ := first
  obtain ⟨beforeToo, afterToo, same, holdToo, failsToo⟩ := firstToo
  rcases List.append_eq_append_iff.mp same with ⟨between, rfl, rest⟩ | ⟨between, rfl, rest⟩
  · cases between with
    | nil => exact (List.cons.inj rest).1
    | cons head tail =>
        obtain ⟨rfl, -⟩ := List.cons.inj rest
        exact absurd (holdToo check (by simp)) fails
  · cases between with
    | nil => exact (List.cons.inj rest).1.symm
    | cons head tail =>
        obtain ⟨rfl, -⟩ := List.cons.inj rest
        exact absurd (hold other (by simp)) failsToo

namespace Follows

variable {α β : Type} {checks : List Check}

theorem exists_ok_iff {computation : Except Violation α} (follows : Follows checks computation) :
    (∃ value, computation = .ok value) ↔ ∀ check ∈ checks, check.Holds := by
  cases computation with
  | ok value =>
      rw [Follows] at follows
      exact ⟨fun _ => follows, fun _ => ⟨value, rfl⟩⟩
  | error violation =>
      obtain ⟨check, ⟨before, after, rfl, -, fails⟩, -⟩ := follows
      constructor
      · rintro ⟨_, ⟨⟩⟩
      · intro all
        exact absurd (all check (by simp)) fails

/-- A computation that makes one check. -/
theorem single
    {computation : Except Violation α} {field : String} {Holds : Prop}
    (accepts : (∃ value, computation = .ok value) ↔ Holds)
    (reports : StopsWith (·.field = some field) computation) :
    Follows [⟨field, Holds⟩] computation := by
  cases computation with
  | ok value =>
      rw [Follows, List.forall_mem_singleton]
      exact accepts.mp ⟨value, rfl⟩
  | error violation =>
      refine ⟨⟨field, Holds⟩, ⟨[], [], rfl, List.forall_mem_nil _, fun holds => ?_⟩,
        reports⟩
      obtain ⟨value, ⟨⟩⟩ := accepts.mpr holds

/-- Two computations in turn follow the checks of the first and then those of the second. -/
theorem bind
    {first : Except Violation α} {next : α → Except Violation β} {later : List Check}
    (follows : Follows checks first)
    (followsNext : ∀ value, first = .ok value → Follows later (next value)) :
    Follows (checks ++ later) (first >>= next) := by
  cases first with
  | error violation =>
      obtain ⟨check, ⟨before, after, rfl, hold, fails⟩, reported⟩ := follows
      exact ⟨check, ⟨before, after ++ later, by simp, hold, fails⟩, reported⟩
  | ok value =>
      have second := followsNext value rfl
      change Follows (checks ++ later) (next value)
      rw [Follows] at follows
      cases result : next value with
      | ok made =>
          rw [result, Follows] at second
          intro check member
          rcases List.mem_append.mp member with early | late
          · exact follows check early
          · exact second check late
      | error violation =>
          rw [result] at second
          obtain ⟨check, ⟨before, after, rfl, hold, fails⟩, reported⟩ := second
          refine ⟨check, ⟨checks ++ before, after, by simp, ?_, fails⟩, reported⟩
          intro earlier member
          rcases List.mem_append.mp member with early | late
          · exact follows earlier early
          · exact hold earlier late

/-- A search for the first item that fails a test follows the checks of all items. -/
theorem find?
    {γ : Type} {items : List γ} {test : γ → Bool} {check : γ → Check} {report : γ → Violation}
    (tests : ∀ item ∈ items, test item = true ↔ ¬ (check item).Holds)
    (reports : ∀ item, (report item).field = some (check item).field) :
    Follows (items.map check) (match items.find? test with
      | some item => .error (report item)
      | none => (.ok () : Except Violation Unit)) := by
  cases found : items.find? test with
  | none =>
      rw [Follows, List.forall_mem_map]
      intro item member
      exact not_not.mp fun fails =>
        List.find?_eq_none.mp found item member ((tests item member).mpr fails)
  | some item =>
      obtain ⟨failed, before, after, rfl, passed⟩ := List.find?_eq_some_iff_append.mp found
      refine ⟨check item, ⟨before.map check, after.map check, by simp, ?_,
        (tests item (by simp)).mp failed⟩, reports item⟩
      rw [List.forall_mem_map]
      intro earlier member
      refine not_not.mp fun fails => ?_
      have rejected := passed earlier member
      rw [(tests earlier (by simp [member])).mpr fails] at rejected
      cases rejected

end Follows

theorem RelationKind.ofName?_eq_some_iff {spelling : String} {kind : RelationKind} :
    ofName? spelling = some kind ↔ spelling = kind.name := by
  constructor
  · intro found
    have named := List.find?_some found
    exact (eq_of_beq named).symm
  · rintro rfl
    cases kind <;> rfl

/-- A key of a JSON document counts as an allowed field only if it is the text of the field. -/
theorem RelationKind.allows_keyText_iff {kind : RelationKind} {key : Value} (json : key.IsJson) :
    kind.allows key.keyText = true ↔ ∃ field, key = .text field ∧ kind.allows field = true := by
  refine Attribute.allows_keyText_iff_of_letters (fun field allowed => ?_) ?_ json
  · have letters : ∀ field ∈ "name" :: "type" :: kind.optionalFields,
        field.toList.all Char.isAlpha = true := by
      cases kind <;> decide
    refine List.all_eq_true.mp (letters field ?_)
    simpa [allows, or_assoc] using allowed
  · cases kind <;> decide

namespace Relation

/-! ## The grammar -/

/-- The fields of a relation that hold texts, in order, and whether the text may be empty. -/
def textFields : List (String × Bool) :=
  [("model", true), ("foreignKey", false), ("localKey", false), ("ownerKey", false),
    ("morphName", false), ("table", false), ("foreignPivotKey", false), ("relatedPivotKey", false)]

/-- A record names its relation by an identifier. -/
def IsNamed (record : Entries) : Prop :=
  ∃ name, Entries.get? record "name" = some (.text name) ∧ Text.IsIdentifier name

/-- A record says of which kind its relation is. -/
def IsOfKind (record : Entries) (kind : RelationKind) : Prop :=
  Entries.get? record "type" = some (.text kind.name)

/-- A key is the text of a field that a relation of a kind may carry. -/
def IsAllowed (kind : RelationKind) (key : Value) : Prop :=
  ∃ field, key = .text field ∧ kind.allows field = true

/-- A record has a field whose value is not null, no, zero or empty. -/
def HasTruthy (record : Entries) (field : String) : Prop :=
  ∃ value, Entries.get? record field = some value ∧ value.isTruthy = true

/-- The value of a field is absent or null, or else a text, which is not empty where it may not. -/
def IsTextAt (record : Entries) (field : String) (nonEmpty : Bool) : Prop :=
  ∀ value, Entries.given? record field = some value →
    ∃ text, (nonEmpty = true → text ≠ "") ∧ .text text = value

/-- A record is in the grammar of the relations of a kind. -/
structure InGrammar (record : Entries) (kind : RelationKind) : Prop where
  named : IsNamed record
  typed : IsOfKind record kind
  allowed : ∀ entry ∈ record, IsAllowed kind entry.1
  required : ∀ field ∈ kind.requiredFields, HasTruthy record field
  texts : ∀ field ∈ textFields, IsTextAt record field.1 field.2

/-- The checks of a record whose kind is known, in order. -/
def checksOfKind (record : Entries) (kind : RelationKind) : List Check :=
  record.map (fun entry => ⟨entry.1.keyText, IsAllowed kind entry.1⟩) ++
    (kind.requiredFields.map (fun field => ⟨field, HasTruthy record field⟩) ++
      textFields.map fun field => ⟨field.1, IsTextAt record field.1 field.2⟩)

/-- The kind that a record gives. -/
def kind? (record : Entries) : Option RelationKind :=
  match Entries.get? record "type" with
  | some (.text spelling) => RelationKind.ofName? spelling
  | _ => none

/-- The checks of a record in order. -/
def checks (record : Entries) : List Check :=
  [⟨"name", IsNamed record⟩] ++ ([⟨"type", ∃ kind, IsOfKind record kind⟩] ++
    (kind? record).elim [] (checksOfKind record))

/-- A record is reported at a field: what is no mapping at none, a mapping at its first failure. -/
def FailsAt (record : Value) (field : Option String) : Prop :=
  match record with
  | .mapping entries => ∃ check, Check.IsFirstFailing (checks entries) check ∧
      field = some check.field
  | _ => field = none

/-- A relation carries the values of a record unchanged, and no others. -/
structure CarriesValues (relation : Relation) (record : Entries) : Prop where
  name : Entries.get? record "name" = some (.text relation.name)
  typed : IsOfKind record relation.kind
  texts : ∀ field ∈ relation.texts, field.2.map .text = Entries.given? record field.1

theorem kind?_eq_some_iff {record : Entries} {kind : RelationKind} :
    kind? record = some kind ↔ IsOfKind record kind := by
  rw [kind?.eq_def, IsOfKind]
  cases Entries.get? record "type" with
  | none => simp
  | some value => cases value <;> simp [RelationKind.ofName?_eq_some_iff]

theorem forall_checks_iff {record : Entries} :
    (∀ check ∈ checks record, check.Holds) ↔ ∃ kind, InGrammar record kind := by
  simp only [checks, List.forall_mem_append, List.forall_mem_singleton]
  constructor
  · rintro ⟨named, ⟨kind, typed⟩, rest⟩
    rw [kind?_eq_some_iff.mpr typed, Option.elim, checksOfKind, List.forall_mem_append,
      List.forall_mem_append, List.forall_mem_map, List.forall_mem_map, List.forall_mem_map] at rest
    exact ⟨kind, named, typed, rest.1, rest.2.1, rest.2.2⟩
  · rintro ⟨kind, grammar⟩
    refine ⟨grammar.named, ⟨kind, grammar.typed⟩, ?_⟩
    rw [kind?_eq_some_iff.mpr grammar.typed, Option.elim, checksOfKind, List.forall_mem_append,
      List.forall_mem_append, List.forall_mem_map, List.forall_mem_map, List.forall_mem_map]
    exact ⟨grammar.allowed, grammar.required, grammar.texts⟩

/-! ## The readers -/

section Readers

variable {record : Entries} {place : Attribute.Place} {kind : RelationKind}

theorem readName_eq_ok_iff
    (values : ∀ entry ∈ record, entry.2.IsJson) {entity : Option String} {name : String} :
    readName entity record = .ok name ↔
      Entries.get? record "name" = some (.text name) ∧ Text.IsIdentifier name := by
  rw [readName.eq_def, Attribute.givenName?.eq_def, ← Text.isIdentifier_iff]
  cases found : Entries.get? record "name" with
  | none => simp
  | some value =>
      cases Entries.isJson_of_get? values found with
      | text own =>
          by_cases empty : own = ""
          · subst empty
            constructor
            · rintro ⟨⟩
            · rintro ⟨⟨⟩, identifier⟩
              cases identifier
          · have nonEmpty : own.isEmpty = false := by simpa using empty
            simp only [nonEmpty, Bool.false_eq_true, if_false, Option.some.injEq, Value.text.injEq]
            split_ifs with identifier
            · rw [Except.ok.injEq]
              exact ⟨fun same => ⟨same, same ▸ identifier⟩, And.left⟩
            · simp only [false_iff, not_and]
              rintro rfl
              exact identifier
      | illFormed without =>
          have refused := mt (Text.isIdentifier_iff _).mp (Text.not_isIdentifier_shownCodes without)
          simp [refused]
      | _ => simp

theorem follows_readName
    (values : ∀ entry ∈ record, entry.2.IsJson) (entity : Option String) :
    Follows [⟨"name", IsNamed record⟩] (readName entity record) := by
  refine .single ?_ ?_
  · simp only [readName_eq_ok_iff values, IsNamed]
  · fun_cases readName entity record <;> trivial

theorem readKind_eq_ok_iff : readKind place record = .ok kind ↔ IsOfKind record kind := by
  rw [← kind?_eq_some_iff, kind?.eq_def, readKind.eq_def]
  cases Entries.get? record "type" with
  | none => simp
  | some value =>
      cases value with
      | text spelling => cases found : RelationKind.ofName? spelling <;> simp [found]
      | _ => simp

theorem follows_readKind :
    Follows [⟨"type", ∃ kind, IsOfKind record kind⟩] (readKind place record) := by
  refine .single ?_ ?_
  · simp only [readKind_eq_ok_iff]
  · fun_cases readKind place record <;> trivial

theorem follows_checkAllowed (keys : ∀ entry ∈ record, entry.1.IsJson) :
    Follows (record.map fun entry => ⟨entry.1.keyText, IsAllowed kind entry.1⟩)
      (checkAllowed place kind record) := by
  have follows := @Follows.find? _ record (fun entry => !kind.allows entry.1.keyText)
    (fun entry => ⟨entry.1.keyText, IsAllowed kind entry.1⟩)
    (fun entry => place.violation (.relationFieldNotAllowed entry.1.keyText kind.name)
      (some entry.1.keyText))
    (fun entry member => by
      rw [IsAllowed, ← RelationKind.allows_keyText_iff (keys entry member)]
      simp)
    (fun _ => rfl)
  rw [checkAllowed]
  cases found : record.find? fun entry => !kind.allows entry.1.keyText with
  | none => rwa [found] at follows
  | some entry => rwa [found] at follows

theorem follows_checkRequired :
    Follows (kind.requiredFields.map fun field => ⟨field, HasTruthy record field⟩)
      (checkRequired place kind record) := by
  have follows := @Follows.find? _ kind.requiredFields
    (fun field => !((Entries.get? record field).getD .null).isTruthy)
    (fun field => ⟨field, HasTruthy record field⟩)
    (fun field => place.violation (.relationFieldRequired field kind.name) (some field))
    (fun field _ => by
      cases found : Entries.get? record field with
      | none => simp [HasTruthy, found, Value.isTruthy]
      | some value => simp [HasTruthy, found])
    (fun _ => rfl)
  rw [checkRequired]
  cases found : kind.requiredFields.find?
      fun field => !((Entries.get? record field).getD .null).isTruthy with
  | none => rwa [found] at follows
  | some field => rwa [found] at follows

theorem recognises_readText (nonEmpty : Bool) :
    Recognises (Document.readText nonEmpty) (fun text => nonEmpty = true → text ≠ "") .text := by
  cases nonEmpty with
  | false =>
      intro value json result
      simpa using Document.recognises_text json result
  | true =>
      intro value json result
      simpa using Document.recognises_nonEmptyText json result

theorem readField_eq_ok_iff
    {field : String} {nonEmpty : Bool} {result : Option String} :
    readField place record field nonEmpty = .ok result ↔
      Document.readOptional (Document.readText nonEmpty) (Entries.get? record field) =
        .ok result := by
  rw [readField]
  cases Document.readOptional (Document.readText nonEmpty) (Entries.get? record field) <;> simp

theorem exists_readField_iff
    (values : ∀ entry ∈ record, entry.2.IsJson) (field : String) (nonEmpty : Bool) :
    (∃ text, readField place record field nonEmpty = .ok text) ↔
      IsTextAt record field nonEmpty := by
  simp only [readField_eq_ok_iff]
  exact Document.exists_readOptional_iff (recognises_readText nonEmpty) values field

theorem follows_readField
    (values : ∀ entry ∈ record, entry.2.IsJson) (field : String) (nonEmpty : Bool) :
    Follows [⟨field, IsTextAt record field nonEmpty⟩] (readField place record field nonEmpty) := by
  refine .single (exists_readField_iff values field nonEmpty) ?_
  fun_cases readField place record field nonEmpty <;> trivial

theorem follows_readValues
    (values : ∀ entry ∈ record, entry.2.IsJson) (name : String) :
    Follows (textFields.map fun field => ⟨field.1, IsTextAt record field.1 field.2⟩)
      (readValues place name kind record) := by
  rw [readValues]
  repeat
    refine (follows_readField values _ _).bind fun _ _ => ?_
  exact List.forall_mem_nil _

end Readers

/-! ## Records -/

theorem follows_ofRecord
    {record : Entries} (keys : ∀ entry ∈ record, entry.1.IsJson)
    (values : ∀ entry ∈ record, entry.2.IsJson) (entity : Option String) :
    Follows (checks record) (ofRecord entity (.mapping record)) := by
  simp only [checks, ofRecord, Value.content]
  refine (follows_readName values entity).bind fun name _ => ?_
  refine follows_readKind.bind fun kind typed => ?_
  rw [kind?_eq_some_iff.mpr (readKind_eq_ok_iff.mp typed)]
  exact (follows_checkAllowed keys).bind fun _ _ =>
    follows_checkRequired.bind fun _ _ => follows_readValues values name

theorem carriesValues_of_ofRecord
    {record : Entries} (values : ∀ entry ∈ record, entry.2.IsJson) {entity : Option String}
    {relation : Relation} (accepted : ofRecord entity (.mapping record) = .ok relation) :
    CarriesValues relation record := by
  have carried {place : Attribute.Place} {field : String} {nonEmpty : Bool} {text : Option String}
      (read : readField place record field nonEmpty = .ok text) :
      text.map .text = Entries.given? record field :=
    ((Document.readOptional_eq_ok_iff (recognises_readText nonEmpty) values field text).mp
      (readField_eq_ok_iff.mp read)).2
  simp only [ofRecord, Value.content, readValues, bind_eq_ok_iff] at accepted
  obtain ⟨name, named, kind, typed, -, -, -, -, model, hasModel, foreignKey, hasForeignKey, localKey,
    hasLocalKey, ownerKey, hasOwnerKey, morphName, hasMorphName, table, hasTable, foreignPivotKey,
    hasForeignPivotKey, relatedPivotKey, hasRelatedPivotKey, made⟩ := accepted
  obtain rfl := Except.ok.inj made
  refine ⟨((readName_eq_ok_iff values).mp named).1, readKind_eq_ok_iff.mp typed, ?_⟩
  simp only [texts, List.forall_mem_cons, List.not_mem_nil, false_imp_iff, implies_true, and_true]
  exact ⟨carried hasModel, carried hasForeignKey, carried hasLocalKey, carried hasOwnerKey,
    carried hasMorphName, carried hasTable, carried hasForeignPivotKey, carried hasRelatedPivotKey⟩

/-! ## Placeholders -/

/-- Records that give the same values and break on the same key are read alike. -/
theorem ofRecord_congr
    {left right : Entries} (same : ∀ field, Entries.get? left field = Entries.get? right field)
    (keys : ∀ kind, (left.find? fun entry => !RelationKind.allows kind entry.1.keyText) =
      right.find? fun entry => !RelationKind.allows kind entry.1.keyText)
    (entity : Option String) :
    ofRecord entity (.mapping left) = ofRecord entity (.mapping right) := by
  simp only [ofRecord, Value.content, readName, Attribute.givenName?, readKind, checkAllowed,
    checkRequired, readValues, readField, same, keys]

theorem get?_insert_name
    {before after : Entries} {name : Value} (unnamed : Entries.has (before ++ after) "name" = false)
    (field : String) :
    Entries.get? (before ++ (.text "name", name) :: after) field =
      Entries.get? ((.text "name", name) :: (before ++ after)) field := by
  induction before with
  | nil => rfl
  | cons entry rest hypothesis =>
      obtain ⟨key, value⟩ := entry
      cases key with
      | text key =>
          have different : key ≠ "name" := by
            rintro rfl
            simp [Entries.has, Entries.get?] at unnamed
          have below : Entries.has (rest ++ after) "name" = false := by
            simpa [Entries.has, Entries.get?, different] using unnamed
          simp only [List.cons_append, Entries.get?, hypothesis below, beq_iff_eq]
          split_ifs with same isName
          · exact absurd (same.trans isName.symm) different
          · rfl
          · rfl
          · rfl
      | _ => exact hypothesis unnamed

/-- The name of a placeholder may stand anywhere in the record of its relation. -/
theorem ofPlaceholder_eq_ofRecord
    (entity : Option String) {attr : Attribute} {before after : Entries}
    (inline : attr.relationship.getD [] = before ++ after)
    (unnamed : Entries.has (before ++ after) "name" = false) :
    ofPlaceholder entity attr =
      ofRecord entity (.mapping (before ++ (.text "name", .text attr.name) :: after)) := by
  rw [ofPlaceholder, inline, if_neg (by simp [unnamed])]
  refine ofRecord_congr (fun field => (get?_insert_name unnamed field).symm) (fun kind => ?_) entity
  have allowed : kind.allows (Value.text "name").keyText = true := rfl
  simp [List.find?_append, allowed]

/-- A record of posts with a field that belongs to another kind, and without a model. -/
def postsRecord : Entries :=
  [(.text "type", .text "hasMany"), (.text "ownerKey", .null), (.text "name", .text "posts"),
    (.text "model", .text "")]

/-- A placeholder for posts. -/
def postsPlaceholder : Attribute :=
  { name := "posts", type := .relationship
    relationship := some [(.text "type", .text "hasMany"), (.text "model", .text "Post")] }

end Relation

end Scaffold
