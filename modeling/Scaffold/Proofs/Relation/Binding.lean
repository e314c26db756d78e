import Scaffold.Proofs.Php.Binding
import Scaffold.Proofs.Relation.Fields
import Scaffold.Relation.Method

/-!
# Relation calls bind what was declared

The call in the method of a relation gives each value that its record declares to the parameter that
is meant: by position as long as no optional one is left out, and by name from there on.  The
parameters of the method behind those that the call may bind are open.
-/

namespace Scaffold

open Scaffold.Document (Entries GivesText)

namespace RelationKind

/-- The leading parameters of the method that builds the relations of a kind. -/
def parameters : RelationKind → List String
  | belongsTo => ["related", "foreignKey", "ownerKey"]
  | hasOne | hasMany => ["related", "foreignKey", "localKey"]
  | morphOne | morphMany => ["related", "name"]
  | morphToMany => ["related", "name", "table", "foreignPivotKey", "relatedPivotKey"]
  | morphTo => ["name"]

/-- The parameters that a record can give a value for under their own name. -/
def keyParameters : List String :=
  ["foreignKey", "ownerKey", "localKey", "table", "foreignPivotKey", "relatedPivotKey"]

theorem nodup_parameters (kind : RelationKind) : kind.parameters.Nodup := by
  cases kind <;> decide

/-- A parameter is spelled as a name. -/
theorem isNamePart_of_mem_parameters
    {kind : RelationKind} {parameter : String} (known : parameter ∈ kind.parameters) :
    parameter ≠ "" ∧ ∀ c ∈ parameter.toList, Php.isNamePart c = true := by
  have names : ∀ kind ∈ all, ∀ parameter ∈ kind.parameters,
      parameter ≠ "" ∧ parameter.toList.all Php.isNamePart = true := by
    decide
  obtain ⟨given, parts⟩ := names kind (by cases kind <;> decide) parameter known
  exact ⟨given, List.all_eq_true.mp parts⟩

theorem model_mem_requiredFields {kind : RelationKind} (single : kind ≠ .morphTo) :
    "model" ∈ kind.requiredFields := by
  cases kind <;> first | decide | exact absurd rfl single

theorem morphName_mem_requiredFields {kind : RelationKind} (takesMorph : kind.takesMorph = true) :
    "morphName" ∈ kind.requiredFields := by
  cases kind <;> first | decide | cases takesMorph

end RelationKind

/-! ## What a call says -/

/-- What an argument means in a call. -/
def RelationArgument.meaning : RelationArgument → Php.Argument
  | .target found => ⟨none, .classReference found.classReference⟩
  | .text value => ⟨none, .text value⟩
  | .named parameter value => ⟨some parameter, .text value⟩

/-- The reference of any target that a registry finds is read as one. -/
theorem Registry.readArgument_classReference (registry : Registry) (model : String) :
    Php.readArgument (registry.resolve model).classReference =
      some ⟨none, .classReference (registry.resolve model).classReference⟩ := by
  have named : ∀ c ∈ (Text.studlyCase model).toList, Php.isNamePart c = true := by
    intro c member
    simp [Php.isNamePart, Text.isAlphanum_of_mem_studlyCase member]
  rw [resolve]
  split
  · exact Php.readArgument_shortClass named
  · split
    · exact Php.readArgument_fullClass _
    · split
      · exact Php.readArgument_fullClass _
      · exact Php.readArgument_shortClass named

namespace Relation

/-- The values that the call of a relation gives in any case. -/
def requiredValues (registry : Registry) (relation : Relation) : Keyed Php.Expression :=
  match relation.kind with
  | .morphTo => [("name", .text relation.morph)]
  | kind =>
      ("related", .classReference (registry.resolve (relation.model.getD "")).classReference) ::
        if kind.takesMorph then [("name", .text relation.morph)] else []

/-- The values of optional parameters that are given. -/
def givenValues (optional : List (String × Option String)) : Keyed Php.Expression :=
  optional.filterMap fun (parameter, value) => value.map fun text => (parameter, .text text)

/-- What the call of a relation binds. -/
def boundValues (registry : Registry) (relation : Relation) : Keyed Php.Expression :=
  relation.requiredValues registry ++ givenValues relation.optionalArguments

theorem parameters_eq (registry : Registry) (relation : Relation) :
    relation.kind.parameters = Keyed.keys (relation.requiredValues registry) ++
      relation.optionalArguments.map (·.1) := by
  cases kind : relation.kind <;>
    simp [requiredValues, optionalArguments, kind, RelationKind.parameters,
      RelationKind.takesMorph, Keyed.keys]

theorem keys_givenValues_sublist (optional : List (String × Option String)) :
    (Keyed.keys (givenValues optional)).Sublist (optional.map (·.1)) := by
  induction optional with
  | nil => exact .slnil
  | cons pair rest hypothesis =>
      obtain ⟨parameter, value⟩ := pair
      cases value with
      | none => exact hypothesis.cons parameter
      | some text => exact hypothesis.cons_cons parameter

theorem nodup_keys_boundValues (registry : Registry) (relation : Relation) :
    (Keyed.keys (relation.boundValues registry)).Nodup := by
  refine List.Nodup.sublist ?_ (relation.kind.nodup_parameters)
  rw [parameters_eq registry, boundValues, Keyed.keys, List.map_append]
  exact (List.Sublist.refl _).append (keys_givenValues_sublist _)

/-- The arguments of a method are those that are required, by position, and the optional ones. -/
theorem map_meaning_arguments (owner : Option String) (registry : Registry) (relation : Relation) :
    (RelationMethod.ofRelation owner registry relation).arguments.map RelationArgument.meaning =
      (relation.requiredValues registry).map (fun (_, value) => ⟨none, value⟩) ++
        (layoutArguments relation.optionalArguments).map RelationArgument.meaning := by
  cases kind : relation.kind <;>
    simp [RelationMethod.ofRelation, requiredValues, kind, RelationKind.takesMorph,
      RelationArgument.meaning, optionalArguments, layoutArguments]

theorem map_meaning_namedArguments (optional : List (String × Option String)) :
    (namedArguments optional).map RelationArgument.meaning =
      (givenValues optional).map fun (parameter, value) => ⟨some parameter, value⟩ := by
  rw [namedArguments, givenValues, List.map_filterMap, List.map_filterMap]
  apply List.filterMap_congr
  rintro ⟨parameter, value⟩ -
  cases value <;> rfl

/-- Optional values are bound to their own parameters, whichever of them are left out. -/
theorem bindNext_layoutArguments
    {parameters further : List String} {bound : Keyed Php.Expression}
    {optional : List (String × Option String)}
    (known : ∀ parameter ∈ optional.map (·.1), parameter ∈ parameters)
    (distinct : (Keyed.keys bound ++ optional.map (·.1)).Nodup) :
    Php.bindNext parameters (optional.map (·.1) ++ further) bound
        ((layoutArguments optional).map RelationArgument.meaning) =
      some (bound ++ givenValues optional) := by
  induction optional generalizing bound with
  | nil => simp [layoutArguments, Php.bindNext, Php.bindNamed, givenValues]
  | cons pair rest hypothesis =>
      obtain ⟨parameter, value⟩ := pair
      have knownLater : ∀ other ∈ rest.map (·.1), other ∈ parameters :=
        fun other member => known other (List.mem_cons_of_mem _ member)
      cases value with
      | some text =>
          have regrouped : Keyed.keys (bound ++ [(parameter, .text text)]) ++ rest.map (·.1) =
              Keyed.keys bound ++ ((parameter, some text) :: rest).map (·.1) := by
            simp [Keyed.keys]
          rw [layoutArguments, List.map_cons, List.map_cons, List.cons_append,
            RelationArgument.meaning, Php.bindNext, hypothesis knownLater (regrouped ▸ distinct)]
          simp [givenValues]
      | none =>
          -- From the first value that is left out, every later one is given by its name.
          have distinctLater : (Keyed.keys (bound ++ givenValues rest)).Nodup := by
            refine List.Nodup.sublist ?_ distinct
            rw [Keyed.keys, List.map_append]
            exact (List.Sublist.refl _).append ((keys_givenValues_sublist rest).cons parameter)
          have knownGiven : ∀ other ∈ Keyed.keys (givenValues rest), other ∈ parameters :=
            fun other member => knownLater other ((keys_givenValues_sublist rest).subset member)
          rw [layoutArguments, map_meaning_namedArguments, Php.bindNext_named,
            Php.bindNamed_eq_some knownGiven distinctLater]
          rfl

/-- The call of a relation binds its values, whatever parameters its method has behind them. -/
theorem bind_arguments
    (owner : Option String) (registry : Registry) (relation : Relation) {signature : List String}
    (leading : relation.kind.parameters <+: signature) :
    Php.bind signature
        ((RelationMethod.ofRelation owner registry relation).arguments.map
          RelationArgument.meaning) =
      some (relation.boundValues registry) := by
  obtain ⟨further, rfl⟩ := leading
  have distinct := relation.kind.nodup_parameters
  rw [parameters_eq registry] at distinct
  have whole : relation.kind.parameters ++ further =
      Keyed.keys (relation.requiredValues registry) ++
        (relation.optionalArguments.map (·.1) ++ further) := by
    rw [parameters_eq registry, List.append_assoc]
  have known : ∀ parameter ∈ relation.optionalArguments.map (·.1),
      parameter ∈ relation.kind.parameters ++ further := by
    intro parameter member
    rw [whole]
    exact List.mem_append_right _ (List.mem_append_left _ member)
  rw [Php.bind, map_meaning_arguments]
  calc
    _ = Php.bindNext (relation.kind.parameters ++ further)
          (Keyed.keys (relation.requiredValues registry) ++
            (relation.optionalArguments.map (·.1) ++ further)) []
          ((relation.requiredValues registry).map (fun (_, value) => ⟨none, value⟩) ++
            (layoutArguments relation.optionalArguments).map RelationArgument.meaning) := by
      rw [← whole]
    _ = Php.bindNext (relation.kind.parameters ++ further)
          (relation.optionalArguments.map (·.1) ++ further)
          ([] ++ relation.requiredValues registry)
          ((layoutArguments relation.optionalArguments).map RelationArgument.meaning) :=
      Php.bindNext_positional _ _ _
    _ = some (relation.boundValues registry) := by
      rw [List.nil_append, bindNext_layoutArguments known distinct, boundValues]

/-! ## The texts of a call -/

theorem mem_layoutArguments
    {optional : List (String × Option String)} {argument : RelationArgument}
    (member : argument ∈ layoutArguments optional) :
    (∃ text, argument = .text text) ∨
      ∃ parameter ∈ optional.map (·.1), ∃ text, argument = .named parameter text := by
  induction optional with
  | nil => cases member
  | cons pair rest hypothesis =>
      obtain ⟨parameter, value⟩ := pair
      cases value with
      | some text =>
          rcases List.mem_cons.mp member with rfl | later
          · exact .inl ⟨text, rfl⟩
          · rcases hypothesis later with plain | ⟨other, known, named⟩
            · exact .inl plain
            · exact .inr ⟨other, List.mem_cons_of_mem _ known, named⟩
      | none =>
          obtain ⟨⟨other, value⟩, among, present⟩ := List.mem_filterMap.mp member
          obtain ⟨text, -, rfl⟩ := Option.map_eq_some_iff.mp present
          exact .inr ⟨other, List.mem_cons_of_mem _ (List.mem_map_of_mem among), text, rfl⟩

/-- What an argument of a relation's call can be. -/
theorem mem_arguments
    {owner : Option String} {registry : Registry} {relation : Relation}
    {argument : RelationArgument}
    (member : argument ∈ (RelationMethod.ofRelation owner registry relation).arguments) :
    (∃ model, (RelationMethod.ofRelation owner registry relation).target =
        some (registry.resolve model) ∧ argument = .target (registry.resolve model)) ∨
      (∃ text, argument = .text text) ∨
        ∃ parameter ∈ relation.kind.parameters, ∃ text, argument = .named parameter text := by
  have laid (later : argument ∈ layoutArguments relation.optionalArguments) :
      (∃ text, argument = .text text) ∨
        ∃ parameter ∈ relation.kind.parameters, ∃ text, argument = .named parameter text := by
    rcases mem_layoutArguments later with plain | ⟨parameter, known, named⟩
    · exact .inl plain
    · refine .inr ⟨parameter, ?_, named⟩
      rw [parameters_eq registry]
      exact List.mem_append_right _ known
  cases kind : relation.kind <;>
    simp only [RelationMethod.ofRelation, kind, RelationKind.takesMorph, Bool.false_eq_true,
      if_false, if_true, List.nil_append, List.cons_append, List.mem_cons, List.not_mem_nil,
      or_false] at member laid ⊢
  case morphTo => exact .inr (.inl ⟨_, member⟩)
  case belongsTo | hasOne | hasMany =>
    rcases member with target | later
    · exact .inl ⟨_, rfl, target⟩
    · exact .inr (laid later)
  case morphOne | morphMany | morphToMany =>
    rcases member with target | morph | later
    · exact .inl ⟨_, rfl, target⟩
    · exact .inr (.inl ⟨_, morph⟩)
    · exact .inr (laid later)

/-- Every argument of a relation's call is read for what it means. -/
theorem readArgument_spelled
    {owner : Option String} {registry : Registry} {relation : Relation}
    {argument : RelationArgument}
    (member : argument ∈ (RelationMethod.ofRelation owner registry relation).arguments) :
    Php.readArgument argument.spelled = some argument.meaning := by
  rcases mem_arguments member with ⟨model, -, rfl⟩ | ⟨text, rfl⟩ | ⟨parameter, known, text, rfl⟩
  · exact registry.readArgument_classReference model
  · exact Php.readArgument_string text
  · exact Php.readArgument_named (RelationKind.isNamePart_of_mem_parameters known).2 text

/-- Every argument of a relation's call is one argument, if the reference of its target is. -/
theorem isArgument_spelled
    {owner : Option String} {registry : Registry} {relation : Relation}
    (reference : ∀ target, (RelationMethod.ofRelation owner registry relation).target = some target →
      Php.IsArgument target.classReference)
    {argument : RelationArgument}
    (member : argument ∈ (RelationMethod.ofRelation owner registry relation).arguments) :
    Php.IsArgument argument.spelled := by
  rcases mem_arguments member with
    ⟨model, target, rfl⟩ | ⟨text, rfl⟩ | ⟨parameter, known, text, rfl⟩
  · exact reference _ target
  · exact .string text
  · obtain ⟨some, name⟩ := RelationKind.isNamePart_of_mem_parameters known
    exact .named some name text

/-! ## What a record declares -/

section Declared

variable {registry : Registry} {relation : Relation} {record : Entries}

/-- The optional arguments of a kind are the keys that it allows. -/
theorem optionalArguments_eq_filter (relation : Relation) :
    relation.optionalArguments = relation.texts.filter fun field =>
      RelationKind.keyParameters.contains field.1 && relation.kind.allows field.1 := by
  obtain ⟨name, kind, model, foreignKey, localKey, ownerKey, morphName, table, foreignPivotKey,
    relatedPivotKey⟩ := relation
  cases kind <;> rfl

theorem mem_optionalArguments_iff {field : String × Option String} :
    field ∈ relation.optionalArguments ↔
      field ∈ relation.texts ∧ field.1 ∈ RelationKind.keyParameters ∧
        relation.kind.allows field.1 = true := by
  rw [optionalArguments_eq_filter, List.mem_filter, Bool.and_eq_true, List.contains_iff_mem]

theorem mem_givenValues_iff
    {optional : List (String × Option String)} {parameter : String} {value : Php.Expression} :
    (parameter, value) ∈ givenValues optional ↔
      ∃ text, (parameter, some text) ∈ optional ∧ value = .text text := by
  simp only [givenValues, List.mem_filterMap, Prod.exists, Option.map_eq_some_iff, Prod.mk.injEq]
  constructor
  · rintro ⟨_, _, among, text, rfl, rfl, rfl⟩
    exact ⟨text, among, rfl⟩
  · rintro ⟨text, among, rfl⟩
    exact ⟨parameter, some text, among, text, rfl, rfl, rfl⟩

/-- A required field holds a text that is not empty. -/
theorem IsReadFrom.exists_text_of_required
    (isRead : relation.IsReadFrom record) {field : String} {value : Option String}
    (among : (field, value) ∈ relation.texts) (required : field ∈ relation.kind.requiredFields) :
    ∃ text, value = some text ∧ text ≠ "" ∧ GivesText record field text := by
  obtain ⟨held, found, truthy⟩ := isRead.required field required
  have given : Entries.given? record field = some held := by
    refine Entries.given?_eq_some_iff.mpr ⟨found, ?_⟩
    rintro rfl
    cases truthy
  rcases isRead.carries field value among with ⟨-, absent⟩ | ⟨text, carried, other, same, decoded⟩
  · rw [absent] at given
    cases given
  · rw [given, Option.some.injEq] at same
    exact ⟨text, carried, Document.ne_empty_of_isTruthy truthy (same ▸ decoded), other,
      same ▸ given, decoded⟩

/-- A field that a record gives is allowed for the kind of the relation. -/
theorem IsReadFrom.allows_of_given
    (isRead : relation.IsReadFrom record) {field : String} {value : Document.Value}
    (given : Entries.given? record field = some value) : relation.kind.allows field = true := by
  obtain ⟨found, -⟩ := Entries.given?_eq_some_iff.mp given
  obtain ⟨entry, among, key⟩ := Entries.exists_key_of_get? found
  have allowed := isRead.allowed entry among
  rwa [key] at allowed

/-- What a call binds is what the record of its relation declares, and nothing else. -/
structure BindsDeclared (registry : Registry) (relation : Relation) (record : Entries)
    (bound : Keyed Php.Expression) : Prop where
  name : Attribute.givenName? record = some relation.name
  kind : Entries.get? record "type" = some (.text relation.kind.name)
  target : relation.kind ≠ .morphTo → ∃ model, GivesText record "model" model ∧
    Keyed.get? bound "related" =
      some (.classReference (registry.resolve model).classReference)
  noTarget : relation.kind = .morphTo → Keyed.get? bound "related" = none
  morph : relation.kind.takesMorph = true → ∃ name, GivesText record "morphName" name ∧
    Keyed.get? bound "name" = some (.text name)
  ownMorph : relation.kind = .morphTo → Entries.given? record "morphName" = none →
    Keyed.get? bound "name" = some (.text relation.name)
  chosenMorph : relation.kind = .morphTo → Entries.given? record "morphName" ≠ none →
    ∃ name, GivesText record "morphName" name ∧
      Keyed.get? bound "name" = some (.text (if name.isEmpty then relation.name else name))
  noMorph : relation.kind ≠ .morphTo → relation.kind.takesMorph = false →
    Keyed.get? bound "name" = none
  key : ∀ parameter ∈ RelationKind.keyParameters, Entries.given? record parameter ≠ none →
    ∃ text, GivesText record parameter text ∧ Keyed.get? bound parameter = some (.text text)
  other : ∀ parameter, parameter ≠ "related" → parameter ≠ "name" →
    (parameter ∈ RelationKind.keyParameters → Entries.given? record parameter = none) →
    Keyed.get? bound parameter = none

theorem get?_boundValues_iff {parameter : String} {value : Php.Expression} :
    Keyed.get? (relation.boundValues registry) parameter = some value ↔
      (parameter, value) ∈ relation.requiredValues registry ∨
        ∃ text, (parameter, some text) ∈ relation.texts ∧
          parameter ∈ RelationKind.keyParameters ∧ relation.kind.allows parameter = true ∧
          value = .text text := by
  rw [Keyed.get?_eq_some_iff (nodup_keys_boundValues registry relation), boundValues,
    List.mem_append, mem_givenValues_iff]
  simp only [mem_optionalArguments_iff, and_assoc]

theorem requiredValues_of_morphTo (morphTo : relation.kind = .morphTo) :
    relation.requiredValues registry = [("name", .text relation.morph)] := by
  rw [requiredValues, morphTo]

theorem requiredValues_of_ne_morphTo (single : relation.kind ≠ .morphTo) :
    relation.requiredValues registry =
      ("related", .classReference (registry.resolve (relation.model.getD "")).classReference) ::
        if relation.kind.takesMorph then [("name", .text relation.morph)] else [] := by
  rw [requiredValues.eq_def]
  split
  · contradiction
  · rfl

theorem eq_of_mem_keys_requiredValues {parameter : String}
    (member : parameter ∈ Keyed.keys (relation.requiredValues registry)) :
    parameter = "related" ∨ parameter = "name" := by
  by_cases morphTo : relation.kind = .morphTo
  · rw [requiredValues_of_morphTo morphTo] at member
    exact .inr (List.mem_singleton.mp member)
  · rw [requiredValues_of_ne_morphTo morphTo] at member
    rcases List.mem_cons.mp member with related | named
    · exact .inl related
    · split at named
      · exact .inr (List.mem_singleton.mp named)
      · cases named

/-- A parameter that neither the kind nor the record gives a value for is not bound. -/
theorem get?_boundValues_eq_none
    {parameter : String} (notRequired : parameter ∉ Keyed.keys (relation.requiredValues registry))
    (notGiven : ∀ text, (parameter, some text) ∈ relation.texts →
      parameter ∉ RelationKind.keyParameters) :
    Keyed.get? (relation.boundValues registry) parameter = none := by
  rw [Option.eq_none_iff_forall_ne_some]
  intro value found
  rcases get?_boundValues_iff.mp found with required | ⟨text, among, isKey, -⟩
  · exact notRequired (List.mem_map_of_mem required)
  · exact notGiven text among isKey

theorem exists_mem_texts
    (relation : Relation) {parameter : String} (isKey : parameter ∈ RelationKind.keyParameters) :
    ∃ value, (parameter, value) ∈ relation.texts := by
  have names : ∀ parameter ∈ RelationKind.keyParameters,
      parameter ∈ ["model", "foreignKey", "localKey", "ownerKey", "morphName", "table",
        "foreignPivotKey", "relatedPivotKey"] := by
    decide
  have among : parameter ∈ relation.texts.map (·.1) := names parameter isKey
  obtain ⟨⟨_, value⟩, member, rfl⟩ := List.mem_map.mp among
  exact ⟨value, member⟩

/-- A relation that was read from a record has a call that binds what the record declares. -/
theorem IsReadFrom.bindsDeclared (isRead : relation.IsReadFrom record) (registry : Registry) :
    relation.BindsDeclared registry record (relation.boundValues registry) := by
  have morphField : ("morphName", relation.morphName) ∈ relation.texts := by simp [texts]
  refine ⟨isRead.name, isRead.kind, ?target, ?noTarget, ?morph, ?ownMorph, ?chosenMorph, ?noMorph,
    ?key, ?other⟩
  case target =>
    intro single
    have modelField : ("model", relation.model) ∈ relation.texts := by simp [texts]
    obtain ⟨model, carried, -, given⟩ :=
      isRead.exists_text_of_required modelField (RelationKind.model_mem_requiredFields single)
    refine ⟨model, given, get?_boundValues_iff.mpr (.inl ?_)⟩
    rw [requiredValues_of_ne_morphTo single, carried]
    exact List.mem_cons_self
  case noTarget =>
    intro morphTo
    refine get?_boundValues_eq_none ?_ fun _ _ => by decide
    rw [requiredValues_of_morphTo morphTo]
    simp [Keyed.keys]
  case morph =>
    intro takesMorph
    have single : relation.kind ≠ .morphTo := by
      intro morphTo
      rw [morphTo] at takesMorph
      cases takesMorph
    obtain ⟨name, carried, notEmpty, given⟩ := isRead.exists_text_of_required morphField
      (RelationKind.morphName_mem_requiredFields takesMorph)
    refine ⟨name, given, get?_boundValues_iff.mpr (.inl ?_)⟩
    rw [requiredValues_of_ne_morphTo single, if_pos takesMorph, morph, carried]
    simp [notEmpty]
  case ownMorph =>
    intro morphTo absent
    refine get?_boundValues_iff.mpr (.inl ?_)
    rcases isRead.carries _ _ morphField with ⟨none, -⟩ | ⟨name, -, value, given, -⟩
    · rw [requiredValues_of_morphTo morphTo, morph, none]
      exact List.mem_cons_self
    · rw [absent] at given
      cases given
  case chosenMorph =>
    intro morphTo present
    rcases isRead.carries _ _ morphField with ⟨-, absent⟩ | ⟨name, carried, given⟩
    · exact absurd absent present
    · refine ⟨name, given, get?_boundValues_iff.mpr (.inl ?_)⟩
      rw [requiredValues_of_morphTo morphTo, morph, carried]
      exact List.mem_cons_self
  case noMorph =>
    intro single plain
    refine get?_boundValues_eq_none ?_ fun _ _ => by decide
    rw [requiredValues_of_ne_morphTo single, if_neg (by simp [plain])]
    simp [Keyed.keys]
  case key =>
    intro parameter isKey present
    obtain ⟨value, among⟩ := exists_mem_texts relation isKey
    rcases isRead.carries _ _ among with ⟨-, absent⟩ | ⟨text, carried, held, found, decoded⟩
    · exact absurd absent present
    · have allowed := isRead.allows_of_given found
      exact ⟨text, ⟨held, found, decoded⟩,
        get?_boundValues_iff.mpr (.inr ⟨text, carried ▸ among, isKey, allowed, rfl⟩)⟩
  case other =>
    intro parameter notRelated notName absent
    refine get?_boundValues_eq_none (fun member => ?_) fun text among isKey => ?_
    · exact (eq_of_mem_keys_requiredValues member).elim notRelated notName
    · rcases isRead.carries _ _ among with ⟨none, -⟩ | ⟨-, -, value, given, -⟩
      · cases none
      · rw [absent isKey] at given
        cases given

end Declared

end Relation

/-! ## The call in a method -/

namespace RelationMethod

/-- The arguments of the call in a method as they are written. -/
def spelledArguments (method : RelationMethod) : List String :=
  method.arguments.map (·.spelled)

/--
The statement of a method is one call, which binds values to parameters.  Where the reference of the
target is one argument, the arguments are also those that the text of the statement has.
-/
structure Calls (method : RelationMethod) (parameters : List String)
    (arguments : List Php.Argument) (bound : Keyed Php.Expression) : Prop where
  body : method.body = "return $this->" ++ method.relation.kind.name ++ "(" ++
    ", ".intercalate method.spelledArguments ++ ");"
  read : method.spelledArguments.map Php.readArgument = arguments.map some
  namedLast : arguments.Pairwise fun earlier later =>
    earlier.parameter.isSome = true → later.parameter.isSome = true
  noNull : ∀ argument ∈ arguments, argument.value ≠ .null
  binds : Php.bind parameters arguments = some bound
  cut : (∀ target, method.target = some target → Php.IsArgument target.classReference) →
    Php.readArguments ((", ".intercalate method.spelledArguments).toList ++ ");".toList) =
      some (method.spelledArguments, [';'])

theorem relation_ofRelation (owner : Option String) (registry : Registry) (relation : Relation) :
    (ofRelation owner registry relation).relation = relation := by
  cases kind : relation.kind <;> simp [ofRelation, kind]

/--
The method of an accepted relation calls the builder of its kind, and the call binds exactly what
the record declares, whatever registry the target is looked up in and whatever parameters the
builder has behind those that are known.
-/
theorem ofRelation_calls_declared {entity : Option String} {record : Document.Value}
    {relation : Relation} (accepted : Relation.ofRecord entity record = .ok relation)
    (owner : Option String) (registry : Registry) {signature : RelationKind → List String}
    (leading : ∀ kind, kind.parameters <+: signature kind) :
    ∃ entries arguments bound, record.content = .mapping entries ∧
      (ofRelation owner registry relation).relation = relation ∧
      (ofRelation owner registry relation).Calls (signature relation.kind) arguments bound ∧
      relation.BindsDeclared registry entries bound := by
  obtain ⟨entries, shape, isRead⟩ := Relation.exists_isReadFrom_of_ofRecord accepted
  have binds := Relation.bind_arguments owner registry relation (leading relation.kind)
  refine ⟨entries, _, relation.boundValues registry, shape, relation_ofRelation _ _ _,
    ⟨rfl, ?_, Php.pairwise_of_bindNext binds, ?_, binds, fun reference => ?_⟩,
    isRead.bindsDeclared registry⟩
  · rw [spelledArguments, List.map_map, List.map_map]
    exact List.map_congr_left fun argument member => Relation.readArgument_spelled member
  · intro argument member
    obtain ⟨source, -, rfl⟩ := List.mem_map.mp member
    cases source <;> exact nofun
  · refine Php.readArguments_intercalate (fun spelled member => ?_) [';']
    obtain ⟨argument, among, rfl⟩ := List.mem_map.mp member
    exact Relation.isArgument_spelled reference among

/-- The parameters of the builders of relations. -/
def builderParameters : RelationKind → List String
  | .belongsTo => ["related", "foreignKey", "ownerKey", "relation"]
  | .hasOne | .hasMany => ["related", "foreignKey", "localKey"]
  | .morphOne | .morphMany => ["related", "name", "type", "id", "localKey"]
  | .morphTo => ["name", "type", "id", "ownerKey"]
  | .morphToMany =>
      ["related", "name", "table", "foreignPivotKey", "relatedPivotKey", "parentKey", "relatedKey",
        "relation", "inverse"]

theorem parameters_prefix_builderParameters (kind : RelationKind) :
    kind.parameters <+: builderParameters kind := by
  cases kind <;> decide

/-- The entries of the tags of a post, with one of three optional keys. -/
def tagEntries : Entries :=
  [(.text "name", .text "tags"), (.text "type", .text "morphToMany"), (.text "model", .text "tag"),
    (.text "morphName", .text "taggable"), (.text "table", .null),
    (.text "foreignPivotKey", .text "taggable: 'id'")]

/-- The tags of a post. -/
def tagRelation : Relation :=
  { name := "tags", kind := .morphToMany, model := some "tag", morphName := some "taggable",
    foreignPivotKey := some "taggable: 'id'" }

/-- A module that has tags. -/
def tagRegistry : Registry :=
  { module := "Blog", siblings := ["Tag"] }

/-- The key behind the one that is left out is given by name, whatever its text looks like. -/
theorem ofRelation_calls_declared_tags :
    (ofRelation none tagRegistry tagRelation).body =
        "return $this->morphToMany(Tag::class, 'taggable', foreignPivotKey: 'taggable: \\'id\\'');" ∧
      ∃ arguments bound,
        (ofRelation none tagRegistry tagRelation).Calls (builderParameters .morphToMany) arguments
          bound ∧
        Keyed.get? bound "related" = some (.classReference "Tag::class") ∧
        Keyed.get? bound "foreignPivotKey" = some (.text "taggable: 'id'") ∧
        Keyed.get? bound "table" = none := by
  have accepted : Relation.ofRecord none (.mapping tagEntries) = .ok tagRelation := rfl
  obtain ⟨entries, arguments, bound, same, -, calls, declared⟩ :=
    ofRelation_calls_declared accepted none tagRegistry parameters_prefix_builderParameters
  obtain rfl : tagEntries = entries := Document.Value.mapping.inj same
  refine ⟨by decide, arguments, bound, calls, ?_, ?_, ?_⟩
  · obtain ⟨_, ⟨_, ⟨⟩, ⟨⟩⟩, related⟩ := declared.target (by decide)
    exact related
  · obtain ⟨_, ⟨_, ⟨⟩, ⟨⟩⟩, given⟩ := declared.key "foreignPivotKey" (by decide) nofun
    exact given
  · exact declared.other "table" (by decide) (by decide) fun _ => rfl

end RelationMethod

end Scaffold
