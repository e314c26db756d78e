import Scaffold.Proofs.Attribute.Allowance
import Scaffold.Proofs.Column.CallChain

/-!
# The clauses of a constraint

Beside the table that it constrains, a foreign key may name the referenced column and the actions on
deletion and on change.  The expression of an accepted record has a call for each clause that the
record gives, together with the calls that constrain the table.  Only a record that gives null for
the table loses its clauses: it is accepted, but there is no constraint to which they could belong.
-/

namespace Scaffold

open Scaffold.Document (Entries Value)

/-! ## Calls of an expression -/

/-- An expression, read as a chain of calls on the table, has a call. -/
def HasCall (expression : String) (call : Call) : Prop :=
  ∃ calls : List Call, (∀ call ∈ calls, call.IsReadable) ∧
    expression = "$table" ++ String.join (calls.map Call.text) ∧ call ∈ calls

namespace Attribute

theorem hasCall_expression_iff {attr : Attribute} {call : Call} :
    HasCall attr.expression call ↔ call ∈ attr.calls := by
  constructor
  · rintro ⟨calls, readable, same, member⟩
    rw [expression_eq, String.append_right_inj] at same
    rwa [Call.eq_of_join_eq (isReadable_calls attr) readable same]
  · intro member
    exact ⟨attr.calls, isReadable_calls attr, expression_eq attr, member⟩

/-- No type is named like a modifier, so a call of a modifier stands behind that of the type. -/
theorem hasCall_modifier_iff {attr : Attribute} {modifier : Modifier} {arguments : List String} :
    HasCall attr.expression ⟨modifier.method, arguments⟩ ↔
      attr.modifierArguments modifier = some arguments := by
  have apart : ∀ type ∈ ColumnType.all, ∀ modifier ∈ Modifier.all, modifier.method ≠ type.name := by
    decide
  rw [hasCall_expression_iff, calls, List.mem_cons, mem_modifierCalls_iff, or_iff_right]
  intro same
  exact apart attr.type (ColumnType.mem_all _) modifier modifier.mem_all (Call.mk.inj same).1

/-! ## Clauses of a record -/

/-- A record gives a text for a field, or nothing but perhaps null. -/
def GivesText (record : Entries) (field : String) : Option String → Prop
  | some text => ∃ value, Entries.given? record field = some value ∧ Document.textOf value = .ok text
  | none => Entries.given? record field = none

/-- The calls that constrain a table, with the referenced column if there is one. -/
def constraintCalls (type : ColumnType) (table : String) (column : Option String) : List Call :=
  match type with
  | .foreign =>
      [⟨"references", [Php.string (column.getD "id")]⟩, ⟨"on", [Php.string table]⟩]
  | _ => [⟨"constrained", Php.string table :: column.toList.map Php.string⟩]

/-- An expression constrains the table of a record, with every clause that the record gives. -/
structure KeepsClauses (expression : String) (type : ColumnType) (record : Entries) : Prop where
  constrains : ∃ table column, GivesText record "on" (some table) ∧
    GivesText record "references" column ∧
      ∀ call ∈ constraintCalls type table column, HasCall expression call
  acts : ∀ method ∈ ["onDelete", "onUpdate"], ∃ action, GivesText record method action ∧
    ∀ chosen ∈ action, HasCall expression ⟨method, [Php.string chosen]⟩

/-- An expression constrains no table and has no call of a clause. -/
def DropsClauses (expression : String) : Prop :=
  ∀ method ∈ ["references", "on", "constrained", "onDelete", "onUpdate"],
    ∀ arguments, ¬ HasCall expression ⟨method, arguments⟩

/-- A record names a referenced column or an action, null apart. -/
def GivesClause (record : Entries) : Prop :=
  ∃ field ∈ ["references", "onDelete", "onUpdate"], (Entries.given? record field).isSome = true

section Record

variable {record : Entries} {place : Place} {field : String}

/-- A value that is read as a text or from a text is given as one. -/
theorem givesText_of_readField
    {α : Type} {read : Value → Except Document.Fault α} {spell : α → String}
    (spelled : ∀ value source, read value = .ok source →
      Document.textOf value = .ok (spell source))
    {result : Option α} (isRead : readField place record field read = .ok result) :
    GivesText record field (result.map spell) := by
  have optional := readOptional_of_readField isRead
  cases found : Entries.given? record field with
  | none =>
      have absent : result = none := by
        rw [← Option.not_isSome_iff_eq_none, Document.isSome_of_readOptional optional]
        rintro ⟨value, here, notNull⟩
        rw [Entries.given?_eq_some_iff.mpr ⟨here, notNull⟩] at found
        cases found
      rw [absent]
      exact found
  | some value =>
      obtain ⟨here, notNull⟩ := Entries.given?_eq_some_iff.mp found
      have present : Document.readOptional read (some value) = (read value).map some := by
        cases value <;> first | rfl | exact absurd rfl notNull
      rw [here, present] at optional
      cases reads : read value with
      | error fault =>
          rw [reads] at optional
          cases optional
      | ok source =>
          rw [reads] at optional
          obtain rfl := Except.ok.inj optional
          exact ⟨value, found, spelled value source reads⟩

theorem textOf_of_readText
    {nonEmpty : Bool} {value : Value} {text : String}
    (isRead : Document.readText nonEmpty value = .ok text) : Document.textOf value = .ok text := by
  rw [Document.readText] at isRead
  cases whole : Document.textOf value with
  | error fault =>
      rw [whole] at isRead
      cases isRead
  | ok spelling =>
      rw [whole] at isRead
      dsimp only at isRead
      split_ifs at isRead
      rw [Except.ok.inj isRead]

theorem textOf_of_readAction
    {value : Value} {action : ReferentialAction} (isRead : readAction value = .ok action) :
    Document.textOf value = .ok action.name := by
  rw [readAction] at isRead
  cases whole : Document.textOf value with
  | error fault =>
      rw [whole] at isRead
      cases isRead
  | ok spelling =>
      rw [whole] at isRead
      dsimp only at isRead
      cases named : ReferentialAction.ofName? spelling with
      | none =>
          rw [named] at isRead
          cases isRead
      | some other =>
          rw [named] at isRead
          obtain rfl := Except.ok.inj isRead
          rw [ofName?_action_eq_some_iff.mp named]

end Record

/-- What an accepted record gives for a constraint is what its attribute has. -/
structure ReadsClauses (attr : Attribute) (record : Entries) : Prop where
  table : GivesText record "on" attr.on
  column : GivesText record "references" attr.references
  onDelete : GivesText record "onDelete" (attr.onDelete.map ReferentialAction.name)
  onUpdate : GivesText record "onUpdate" (attr.onUpdate.map ReferentialAction.name)
  required : attr.type = .foreign → attr.on.isSome = true
  /-- A foreign key for which the record has no table at all has no clause either. -/
  constraint : attr.type = .foreignId → Entries.has record "on" = false → ¬ GivesClause record

theorem readsClauses_of_ofRecord
    {entity : Option String} {record : Entries} {attr : Attribute}
    (accepted : ofRecord entity (.mapping record) = .ok attr) : ReadsClauses attr record := by
  obtain ⟨type, name, -, -, required, -, constraint, -, read⟩ :=
    ofRecord_mapping_eq_ok_iff.mp accepted
  obtain ⟨⟨rfl, rfl⟩, -, -, -, -, -, -, -, -, on, references, onDelete, onUpdate, -⟩ :=
    (readValues_eq_ok_iff _).mp read
  have text {result : Option String} {field : String} {place : Place}
      (isRead : readField place record field (Document.readText true) = .ok result) :
      GivesText record field result := by
    have gives : GivesText record field (result.map id) :=
      givesText_of_readField (fun _ _ => textOf_of_readText) isRead
    rwa [Option.map_id] at gives
  have action {result : Option ReferentialAction} {field : String} {place : Place}
      (isRead : readField place record field readAction = .ok result) :
      GivesText record field (result.map ReferentialAction.name) :=
    givesText_of_readField (fun _ _ => textOf_of_readAction) isRead
  refine ⟨text on, text references, action onDelete, action onUpdate, fun foreign => ?_,
    fun foreignId absent => ?_⟩
  · have isAccepted : attr.IsAccepted := ⟨entity, .mapping record, accepted⟩
    have among : ("on", attr.on.map .text) ∈ attr.values := by simp [values]
    have present := isAccepted.isSome_of_required among
      (by simp [foreign, ColumnType.requiredFields])
    simpa using present
  · rintro ⟨field, member, given⟩
    have without := (checkConstraint_eq_ok_iff _).mp constraint foreignId absent field member
    obtain ⟨value, found⟩ := Option.isSome_iff_exists.mp given
    rw [Entries.has, (Entries.given?_eq_some_iff.mp found).1] at without
    cases without

/-! ## Clauses of an expression -/

section Expression

variable {attr : Attribute}

theorem hasConstraint_iff (foreignKey : attr.type.isForeignKey = true) :
    attr.hasConstraint = true ↔ attr.type = .foreign ∨ attr.on.isSome = true := by
  have either : attr.type = .foreignId ∨ attr.type = .foreign := by
    cases type : attr.type <;> simp_all [ColumnType.isForeignKey]
  rcases either with foreignId | foreign
  · simp [hasConstraint, foreignId]
  · simp [hasConstraint, foreign]

/-- An attribute that has a table has the calls that constrain it. -/
theorem hasCall_constraintCalls
    (foreignKey : attr.type.isForeignKey = true) {table : String} (on : attr.on = some table) :
    ∀ call ∈ constraintCalls attr.type table attr.references, HasCall attr.expression call := by
  have has (modifier : Modifier) {arguments : List String}
      (given : attr.modifierArguments modifier = some arguments) :
      HasCall attr.expression ⟨modifier.method, arguments⟩ :=
    hasCall_modifier_iff.mpr given
  cases type : attr.type with
  | foreign =>
      have column := has .references (by rw [modifierArguments, if_pos type])
      have place := has .on (by rw [modifierArguments, if_pos type, on, Option.getD_some])
      intro call member
      rcases List.mem_pair.mp member with rfl | rfl
      · exact column
      · exact place
  | foreignId =>
      have constrained := has .constrained
        (by rw [modifierArguments, if_pos type, on, Option.map_some])
      intro call member
      rw [List.mem_singleton.mp member]
      exact constrained
  | _ =>
      rw [type] at foreignKey
      cases foreignKey

/-- Without a table a foreign key column has neither a constraint nor an action. -/
theorem dropsClauses_of_on_eq_none
    (foreignId : attr.type = .foreignId) (absent : attr.on = none) :
    DropsClauses attr.expression := by
  have unconstrained : attr.hasConstraint = false := by
    simp [hasConstraint, foreignId, absent]
  have none (modifier : Modifier) (without : attr.modifierArguments modifier = none)
      (arguments : List String) : ¬ HasCall attr.expression ⟨modifier.method, arguments⟩ := by
    rw [hasCall_modifier_iff, without]
    exact nofun
  intro method member
  simp only [List.mem_cons, List.not_mem_nil, or_false] at member
  rcases member with rfl | rfl | rfl | rfl | rfl
  · exact none .references (by simp [modifierArguments, foreignId])
  · exact none .on (by simp [modifierArguments, foreignId])
  · exact none .constrained (by simp [modifierArguments, absent])
  · exact none .onDelete (by simp [modifierArguments, unconstrained])
  · exact none .onUpdate (by simp [modifierArguments, unconstrained])

theorem keepsClauses_of_on_eq_some
    {record : Entries} (reads : ReadsClauses attr record)
    (foreignKey : attr.type.isForeignKey = true) {table : String} (on : attr.on = some table) :
    KeepsClauses attr.expression attr.type record := by
  have constrained : attr.hasConstraint = true :=
    (hasConstraint_iff foreignKey).mpr (.inr (by rw [on, Option.isSome_some]))
  have acts (modifier : Modifier) {action : Option ReferentialAction}
      (own : attr.modifierArguments modifier =
        action.map fun action => [Php.string action.name]) :
      ∀ chosen ∈ action.map ReferentialAction.name,
        HasCall attr.expression ⟨modifier.method, [Php.string chosen]⟩ := by
    intro chosen member
    obtain ⟨value, rfl, rfl⟩ := Option.map_eq_some_iff.mp member
    exact hasCall_modifier_iff.mpr own
  have gives := reads.table
  rw [on] at gives
  refine ⟨⟨table, attr.references, gives, reads.column, hasCall_constraintCalls foreignKey on⟩, ?_⟩
  intro method member
  rcases List.mem_pair.mp member with rfl | rfl
  · exact ⟨_, reads.onDelete, acts .onDelete (by rw [modifierArguments, if_pos constrained])⟩
  · exact ⟨_, reads.onUpdate, acts .onUpdate (by rw [modifierArguments, if_pos constrained])⟩

end Expression

/--
An accepted foreign key with clauses constrains the table of its record and has a call for every
clause, unless the record gives null for the table; then it has none of them.
-/
theorem expression_keeps_clauses
    {entity : Option String} {record : Value} {attr : Attribute}
    (accepted : ofRecord entity record = .ok attr) (foreignKey : attr.type.isForeignKey = true)
    {entries : Entries} (content : record.content = .mapping entries)
    (clauses : GivesClause entries) :
    (Entries.get? entries "on" ≠ some .null → KeepsClauses attr.expression attr.type entries) ∧
      (Entries.get? entries "on" = some .null →
        attr.type = .foreignId ∧ DropsClauses attr.expression) := by
  obtain ⟨others, same, accepted⟩ := exists_mapping_of_ofRecord accepted
  rw [content] at same
  obtain rfl := Value.mapping.inj same
  have reads := readsClauses_of_ofRecord accepted
  have type (other : attr.type ≠ .foreign) : attr.type = .foreignId := by
    cases shape : attr.type <;> simp_all [ColumnType.isForeignKey]
  constructor
  · intro notNull
    cases on : attr.on with
    | some table => exact keepsClauses_of_on_eq_some reads foreignKey on
    | none =>
        -- A record without a table would have been refused for its clauses.
        have foreignId := type fun foreign => by simpa [on] using reads.required foreign
        have ungiven := reads.table
        rw [on] at ungiven
        have missing : Entries.has entries "on" = false := by
          cases found : Entries.get? entries "on" with
          | none => rw [Entries.has, found, Option.isSome_none]
          | some value =>
              have present : value ≠ .null := fun null => notNull (null ▸ found)
              rw [GivesText, Entries.given?_eq_some_iff.mpr ⟨found, present⟩] at ungiven
              cases ungiven
        exact absurd clauses (reads.constraint foreignId missing)
  · intro null
    have absent : attr.on = none := by
      cases on : attr.on with
      | none => rfl
      | some table =>
          have gives := reads.table
          rw [on] at gives
          obtain ⟨value, given, -⟩ := gives
          obtain ⟨found, notNull⟩ := Entries.given?_eq_some_iff.mp given
          rw [null] at found
          exact absurd (Option.some.inj found).symm notNull
    have foreignId := type fun foreign => by simpa [absent] using reads.required foreign
    exact ⟨foreignId, dropsClauses_of_on_eq_none foreignId absent⟩

/-- The record of an author, deleted with the user that it refers to by another column. -/
def authorRecord : Entries :=
  [(.text "name", .text "author_id"), (.text "type", .text "foreignId"),
    (.text "on", .text "users"), (.text "references", .text "uuid"),
    (.text "onDelete", .text "cascade")]

/-- The expression of the author keeps the table, the column and the action. -/
theorem expression_keeps_clauses_author :
    GivesClause authorRecord ∧
      ∃ attr, ofRecord (some "Post") (.mapping authorRecord) = .ok attr ∧
        attr.expression =
          "$table->foreignId('author_id')->constrained('users', 'uuid')->onDelete('cascade')" ∧
        KeepsClauses attr.expression .foreignId authorRecord := by
  let attr : Attribute :=
    { name := "author_id", type := .foreignId, on := some "users", references := some "uuid",
      onDelete := some .cascade }
  have accepted : ofRecord (some "Post") (.mapping authorRecord) = .ok attr := by
    rfl
  have clauses : GivesClause authorRecord := ⟨"references", by simp, by rfl⟩
  have notNull : Entries.get? authorRecord "on" ≠ some .null := by
    simp [authorRecord, Entries.get?, Value.content]
  have kept := (expression_keeps_clauses accepted (by rfl) rfl clauses).1 notNull
  exact ⟨clauses, attr, accepted, by decide, kept⟩

/-- The record of an author that gives null for its table. -/
def tablelessRecord : Entries :=
  [(.text "name", .text "author_id"), (.text "type", .text "foreignId"), (.text "on", .null),
    (.text "onDelete", .text "cascade")]

/-- The action of a record whose table is null is lost. -/
theorem expression_loses_action :
    GivesClause tablelessRecord ∧
      ∃ attr, ofRecord (some "Post") (.mapping tablelessRecord) = .ok attr ∧
        attr.type = .foreignId ∧ attr.expression = "$table->foreignId('author_id')" ∧
        ¬ KeepsClauses attr.expression .foreignId tablelessRecord := by
  let attr : Attribute := { name := "author_id", type := .foreignId, onDelete := some .cascade }
  have accepted : ofRecord (some "Post") (.mapping tablelessRecord) = .ok attr := by
    rfl
  refine ⟨⟨"onDelete", by simp, by rfl⟩, attr, accepted, rfl, by decide, fun kept => ?_⟩
  obtain ⟨table, column, -, -, calls⟩ := kept.constrains
  have constrained := calls ⟨"constrained", _⟩ List.mem_cons_self
  have dropped : DropsClauses attr.expression := dropsClauses_of_on_eq_none rfl rfl
  exact dropped "constrained" (by simp) _ constrained

end Attribute

end Scaffold
