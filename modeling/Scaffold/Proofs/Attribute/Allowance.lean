import Scaffold.Proofs.Attribute.Grammar

/-!
# The fields of accepted attributes

An attribute that was read from a record carries no field but those that its type allows, and every
field that its type requires.  Unlike the grammar of records this does not hang on the kind of the
document: it also holds of documents with dates, bytes or sets.
-/

namespace Scaffold

open Scaffold.Document (Entries Fault Value)

namespace Document

theorem Entries.exists_key_of_get?
    {entries : Entries} {name : String} {value : Value}
    (found : Entries.get? entries name = some value) : ∃ entry ∈ entries, entry.1 = .text name := by
  fun_induction Entries.get? entries name with
  | case1 => cases found
  | case2 key whole rest same =>
      obtain rfl : key = name := by simpa using same
      exact ⟨_, List.mem_cons_self, rfl⟩
  | case3 key whole rest other hypothesis =>
      obtain ⟨entry, member, same⟩ := hypothesis found
      exact ⟨entry, List.mem_cons_of_mem _ member, same⟩
  | case4 entry rest other hypothesis =>
      obtain ⟨entry, member, same⟩ := hypothesis found
      exact ⟨entry, List.mem_cons_of_mem _ member, same⟩

/-- An optional value that is read was given, and a value that is given and not null is read. -/
theorem isSome_of_readOptional
    {α : Type} {read : Value → Except Fault α} {value : Option Value} {result : Option α}
    (isRead : readOptional read value = .ok result) :
    result.isSome = true ↔ ∃ given, value = some given ∧ given ≠ .null := by
  rw [readOptional.eq_def] at isRead
  cases value with
  | none =>
      obtain rfl := Except.ok.inj isRead
      simp
  | some given =>
      by_cases null : given = .null
      · subst null
        obtain rfl := Except.ok.inj isRead
        simp
      · have mapped : (read given).map some = .ok result := by
          cases given <;> first | exact isRead | exact absurd rfl null
        cases isGiven : read given with
        | error fault =>
            rw [isGiven] at mapped
            cases mapped
        | ok source =>
            rw [isGiven] at mapped
            obtain rfl := Except.ok.inj mapped
            simp [null]

end Document

namespace Attribute

/-- An attribute that some record is read into. -/
def IsAccepted (attr : Attribute) : Prop :=
  ∃ entity record, ofRecord entity record = .ok attr

theorem exists_mapping_of_ofRecord
    {entity : Option String} {record : Value} {attr : Attribute}
    (accepted : ofRecord entity record = .ok attr) :
    ∃ entries, record.content = .mapping entries ∧ ofRecord entity (.mapping entries) = .ok attr := by
  cases shape : record.content with
  | mapping entries =>
      rw [ofRecord, shape] at accepted
      exact ⟨entries, rfl, accepted⟩
  | _ =>
      rw [ofRecord, shape] at accepted
      cases accepted

theorem readOptional_of_readField
    {α : Type} {record : Entries} {place : Place} {field : String}
    {read : Value → Except Fault α} {result : Option α}
    (isRead : readField place record field read = .ok result) :
    Document.readOptional read (Entries.get? record field) = .ok result := by
  rw [readField] at isRead
  cases optional : Document.readOptional read (Entries.get? record field) with
  | error fault =>
      rw [optional] at isRead
      cases isRead
  | ok value =>
      rw [optional] at isRead
      rw [Except.ok.inj isRead]

section Fields

variable {attr : Attribute}

/-- The values of an accepted attribute are there exactly where the record gives one. -/
theorem IsAccepted.exists_record (accepted : attr.IsAccepted) :
    ∃ record : Entries,
      (∀ entry ∈ record, attr.type.allows entry.1.keyText = true) ∧
      (∀ field ∈ attr.type.requiredFields, isAbsent (Entries.get? record field) = false) ∧
      (attr.default.isSome = true → ∃ given, Entries.get? record "default" = some given) ∧
      ∀ field ∈ attr.values, field.2.isSome = true ↔
        ∃ given, Entries.get? record field.1 = some given ∧ given ≠ .null := by
  obtain ⟨entity, whole, accepted⟩ := accepted
  obtain ⟨record, -, accepted⟩ := exists_mapping_of_ofRecord accepted
  obtain ⟨type, name, -, allowed, required, -, -, -, read⟩ := ofRecord_mapping_eq_ok_iff.mp accepted
  obtain ⟨⟨rfl, rfl⟩, length, nullable, unique, default, after, total, places, options, on,
    references, onDelete, onUpdate, relationship, -⟩ := (readValues_eq_ok_iff _).mp read
  have given {α : Type} {place : Place} {field : String} {read : Value → Except Fault α}
      {result : Option α} {write : α → Value}
      (isRead : readField place record field read = .ok result) :
      (result.map write).isSome = true ↔
        ∃ given, Entries.get? record field = some given ∧ given ≠ .null := by
    rw [Option.isSome_map]
    exact Document.isSome_of_readOptional (readOptional_of_readField isRead)
  refine ⟨record, ?_, ?_, ?_, ?_⟩
  · rw [checkAllowed] at allowed
    cases found : record.find? fun entry => !attr.type.allows entry.1.keyText with
    | none => simpa using found
    | some entry =>
        rw [found] at allowed
        cases allowed
  · intro field member
    exact (isAbsent_eq_false_iff field).mpr ((checkRequired_eq_ok_iff _).mp required field member)
  · intro isGiven
    rw [readDefault] at default
    cases found : Entries.get? record "default" with
    | none =>
        rw [found] at default
        rw [← Except.ok.inj default] at isGiven
        cases isGiven
    | some value => exact ⟨value, rfl⟩
  · intro field member
    simp only [Attribute.values, List.mem_cons, List.not_mem_nil, or_false] at member
    rcases member with rfl | rfl | rfl | rfl | rfl | rfl | rfl | rfl | rfl | rfl | rfl | rfl
    · exact given length
    · exact given nullable
    · exact given unique
    · exact given after
    · exact given total
    · exact given places
    · exact given options
    · exact given on
    · exact given references
    · exact given onDelete
    · exact given onUpdate
    · exact given relationship

/-- An accepted attribute has a value of a field only if its type allows the field. -/
theorem IsAccepted.allows_of_isSome (accepted : attr.IsAccepted) {field : String × Option Value}
    (member : field ∈ attr.values) (isGiven : field.2.isSome = true) :
    attr.type.allows field.1 = true := by
  obtain ⟨record, allowed, -, -, values⟩ := accepted.exists_record
  obtain ⟨given, found, -⟩ := (values field member).mp isGiven
  obtain ⟨entry, among, key⟩ := Document.Entries.exists_key_of_get? found
  have spelled := allowed entry among
  rwa [key, Value.keyText] at spelled

/-- An accepted attribute has a value of every field that its type requires. -/
theorem IsAccepted.isSome_of_required (accepted : attr.IsAccepted) {field : String × Option Value}
    (member : field ∈ attr.values) (isRequired : field.1 ∈ attr.type.requiredFields) :
    field.2.isSome = true := by
  obtain ⟨record, -, required, -, values⟩ := accepted.exists_record
  have present := required field.1 isRequired
  rw [values field member]
  cases found : Entries.get? record field.1 with
  | none =>
      rw [found] at present
      cases present
  | some given =>
      refine ⟨given, rfl, ?_⟩
      rintro rfl
      rw [found] at present
      cases present

end Fields

/-- The name of an accepted attribute passes the check of names. -/
theorem IsAccepted.isIdentifier {attr : Attribute} (accepted : attr.IsAccepted) :
    Text.isIdentifier attr.name = true := by
  obtain ⟨entity, whole, accepted⟩ := accepted
  obtain ⟨record, -, accepted⟩ := exists_mapping_of_ofRecord accepted
  obtain ⟨type, name, -, -, -, ⟨-, named⟩, -, -, read⟩ := ofRecord_mapping_eq_ok_iff.mp accepted
  obtain ⟨⟨same, -⟩, -⟩ := (readValues_eq_ok_iff _).mp read
  rw [checkName] at named
  split_ifs at named with identifier
  rwa [same]

/-- A record that gives an identifier first has it as its name. -/
theorem givenName?_cons {name : String} (identifier : Text.isIdentifier name = true)
    (others : Entries) : givenName? ((.text "name", .text name) :: others) = some name := by
  have named : name.isEmpty = false := by
    rw [String.isEmpty_eq_false_iff]
    rintro rfl
    cases identifier
  rw [givenName?]
  exact if_neg (by simp [named])

end Attribute

end Scaffold
