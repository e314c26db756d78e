import Mathlib.Logic.Basic
import Scaffold.Document.Fault
import Scaffold.Proofs.Document.JsonRoundTrip

/-!
# Reading values without coercion

The values of a JSON document are null, truth values, numbers, texts, and lists and mappings of such
values.  On these values a reader accepts exactly the values of a shape, and what it reads can be
written back as the very value that was read: a truth value is no number, a number is no text, and a
double is no integer.
-/

namespace Scaffold

/-- A computation of two steps succeeds when both steps do. -/
theorem bind_eq_ok_iff
    {ε α β : Type} {first : Except ε α} {next : α → Except ε β} {result : β} :
    (first >>= next) = .ok result ↔ ∃ value, first = .ok value ∧ next value = .ok result := by
  cases first with
  | error error => simp [bind, Except.bind]
  | ok value => simp [bind, Except.bind]

namespace Document

/-! ## Values of a JSON document -/

/-- A value of a JSON document.  Any value may stand as a key, but no key stands twice. -/
inductive Value.IsJson : Value → Prop
  | null : IsJson .null
  | bool (value : Bool) : IsJson (.bool value)
  | int (value : Int) : IsJson (.int value)
  | double (value : Decimal.Double) : IsJson (.double value)
  | text (value : String) : IsJson (.text value)
  | illFormed {codes : List Nat} (without : Text.ofCodes? codes = none) : IsJson (.illFormed codes)
  | list {items : List Value} (each : ∀ item ∈ items, IsJson item) : IsJson (.list items)
  | mapping {entries : Entries} (keys : ∀ entry ∈ entries, IsJson entry.1)
      (values : ∀ entry ∈ entries, IsJson entry.2)
      (distinct : entries.Pairwise fun left right => left.1.sameKey right.1 = false) :
      IsJson (.mapping entries)

theorem Value.IsJson.content {value : Value} (json : value.IsJson) : value.content = value := by
  cases json <;> rfl

theorem Entries.mem_of_get?
    {entries : Entries} (values : ∀ entry ∈ entries, entry.2.IsJson) {name : String}
    {value : Value} (found : Entries.get? entries name = some value) :
    (.text name, value) ∈ entries := by
  fun_induction Entries.get? entries name with
  | case1 => cases found
  | case2 key whole rest same =>
      obtain rfl : key = name := by simpa using same
      obtain rfl : whole.content = value := Option.some.inj found
      have json : whole.IsJson := values (.text key, whole) (by simp)
      rw [json.content]
      exact List.mem_cons_self
  | case3 key whole rest other hypothesis =>
      apply List.mem_cons_of_mem
      exact hypothesis (fun entry member => values entry (by simp [member])) found
  | case4 entry rest other hypothesis =>
      apply List.mem_cons_of_mem
      exact hypothesis (fun entry member => values entry (by simp [member])) found

theorem Entries.isJson_of_get?
    {entries : Entries} (values : ∀ entry ∈ entries, entry.2.IsJson) {name : String}
    {value : Value} (found : Entries.get? entries name = some value) : value.IsJson :=
  values _ (mem_of_get? values found)

/-- The value of a text key, unless it is null. -/
def Entries.given? (entries : Entries) (name : String) : Option Value :=
  match Entries.get? entries name with
  | some .null => none
  | value => value

theorem Entries.given?_eq_some_iff {entries : Entries} {name : String} {value : Value} :
    Entries.given? entries name = some value ↔
      Entries.get? entries name = some value ∧ value ≠ .null := by
  rw [given?]
  split
  · rename_i found
    simp only [found, reduceCtorEq, Option.some.injEq, false_iff, not_and, not_not]
    exact Eq.symm
  · rename_i notNull
    constructor
    · intro found
      refine ⟨found, ?_⟩
      rintro rfl
      exact notNull found
    · exact And.left

/-! ## Readers -/

/-- A value is written from something fitting. -/
def IsWritten {α : Type} (Fits : α → Prop) (write : α → Value) (value : Value) : Prop :=
  ∃ source, Fits source ∧ write source = value

/--
A reader accepts the values of a JSON document that are written from something fitting, and it reads
what they are written from.
-/
def Recognises {α : Type} (read : Value → Except Fault α) (Fits : α → Prop) (write : α → Value) :
    Prop :=
  ∀ {value : Value}, value.IsJson → ∀ result,
    read value = .ok result ↔ Fits result ∧ write result = value

theorem recognises_bool : Recognises readBool (fun _ => True) .bool := by
  intro value json result
  cases json <;> simp [readBool, eq_comm]

theorem recognises_natural (least : Nat) :
    Recognises (readNatural least) (least ≤ ·) fun number : Nat => .int number := by
  intro value json result
  cases json with
  | int value =>
      rw [readNatural]
      split_ifs with enough
      · simp only [Except.ok.injEq, Value.int.injEq]
        omega
      · simp only [Value.int.injEq, false_iff]
        omega
  | _ => simp [readNatural]

theorem textOf_eq_ok_iff {value : Value} (json : value.IsJson) {text : String} :
    textOf value = .ok text ↔ .text text = value := by
  cases json <;> simp [textOf, eq_comm]

theorem recognises_text : Recognises (readText false) (fun _ => True) .text := by
  intro value json result
  rw [readText, true_and, ← textOf_eq_ok_iff json]
  cases textOf value <;> simp

theorem recognises_nonEmptyText : Recognises (readText true) (· ≠ "") .text := by
  intro value json result
  rw [readText, ← textOf_eq_ok_iff json]
  cases textOf value with
  | error fault => simp
  | ok text =>
      by_cases empty : text = ""
      · subst empty
        constructor
        · exact nofun
        · rintro ⟨nonEmpty, same⟩
          exact absurd (Except.ok.inj same).symm nonEmpty
      · have nonEmpty : text.isEmpty = false := by simpa using empty
        simp only [nonEmpty, Bool.and_false, Bool.false_eq_true, if_false, Except.ok.injEq]
        constructor
        · rintro rfl
          exact ⟨empty, rfl⟩
        · exact And.right

/-- An optional value is read unless it is absent or null. -/
theorem readOptional_eq_ok_iff
    {α : Type} {read : Value → Except Fault α} {Fits : α → Prop} {write : α → Value}
    (recognises : Recognises read Fits write) {entries : Entries}
    (values : ∀ entry ∈ entries, entry.2.IsJson) (name : String) (result : Option α) :
    readOptional read (Entries.get? entries name) = .ok result ↔
      (∀ value, result = some value → Fits value) ∧
        result.map write = Entries.given? entries name := by
  have absent : Entries.given? entries name = none →
      readOptional read (Entries.get? entries name) = .ok none := by
    rw [Entries.given?, readOptional.eq_def]
    cases Entries.get? entries name with
    | none => simp
    | some value => cases value <;> simp
  cases found : Entries.given? entries name with
  | none =>
      rw [absent found]
      cases result <;> simp
  | some value =>
      obtain ⟨got, notNull⟩ := Entries.given?_eq_some_iff.mp found
      have present : readOptional read (some value) = (read value).map some := by
        cases value <;> first | rfl | exact absurd rfl notNull
      have reads := recognises (Entries.isJson_of_get? values got)
      rw [got, present]
      cases result with
      | none => cases read value <;> simp [Except.map]
      | some result =>
          have same : (read value).map some = .ok (some result) ↔ read value = .ok result := by
            cases read value <;> simp [Except.map]
          rw [same, reads result]
          simp

theorem exists_readOptional_iff
    {α : Type} {read : Value → Except Fault α} {Fits : α → Prop} {write : α → Value}
    (recognises : Recognises read Fits write) {entries : Entries}
    (values : ∀ entry ∈ entries, entry.2.IsJson) (name : String) :
    (∃ result, readOptional read (Entries.get? entries name) = .ok result) ↔
      ∀ value, Entries.given? entries name = some value → IsWritten Fits write value := by
  simp only [readOptional_eq_ok_iff recognises values name]
  cases Entries.given? entries name with
  | none =>
      simp only [reduceCtorEq, false_imp_iff, implies_true, iff_true]
      exact ⟨none, nofun, rfl⟩
  | some value =>
      constructor
      · rintro ⟨result, fits, written⟩ _ ⟨⟩
        obtain ⟨source, rfl, same⟩ := Option.map_eq_some_iff.mp written
        exact ⟨source, fits source rfl, same⟩
      · intro shape
        obtain ⟨source, fits, same⟩ := shape value rfl
        refine ⟨some source, ?_, by rw [Option.map_some, same]⟩
        rintro _ ⟨⟩
        exact fits

/-- Entries under distinct texts keep their keys. -/
theorem withTextKeys_eq
    {entries : Entries} (texts : ∀ entry ∈ entries, ∃ key, entry.1 = .text key)
    (distinct : entries.Pairwise fun left right => left.1.sameKey right.1 = false) :
    withTextKeys entries = entries := by
  obtain ⟨pairs, rfl⟩ : ∃ pairs : List (String × Value), pairs.map Json.textEntry = entries := by
    clear distinct
    induction entries with
    | nil => exact ⟨[], rfl⟩
    | cons entry rest hypothesis =>
        obtain ⟨pairs, rfl⟩ := hypothesis fun entry member => texts entry (by simp [member])
        obtain ⟨key, isKey⟩ := texts entry (by simp)
        exact ⟨(key, entry.2) :: pairs, by simp [Json.textEntry, ← isKey]⟩
  have apart : (pairs.map (·.1)).Nodup := by
    rw [List.pairwise_map] at distinct
    rw [List.Nodup, List.pairwise_map]
    refine distinct.imp fun {left right} different same => ?_
    simp [Json.textEntry, Value.sameKey, Value.wholeKey?, same] at different
  have inserts (known : List (String × Value)) (more : List (String × Value))
      (fresh : ((known ++ more).map (·.1)).Nodup) :
      (more.map Json.textEntry).foldl
        (fun all entry => Entries.insert all (asTextKey entry.1) entry.2)
        (known.map Json.textEntry) = (known ++ more).map Json.textEntry := by
    induction more generalizing known with
    | nil => simp
    | cons pair rest hypothesis =>
        have new : pair.1 ∉ known.map (·.1) := by
          rw [List.map_append, List.nodup_append] at fresh
          intro member
          exact fresh.2.2 _ member pair.1 (by simp) rfl
        have inserted : Entries.insert (known.map Json.textEntry)
            (asTextKey (Json.textEntry pair).1) (Json.textEntry pair).2 =
              (known ++ [pair]).map Json.textEntry := Json.insert_new new pair.2
        rw [List.map_cons, List.foldl_cons, inserted]
        simpa using hypothesis (known ++ [pair]) (by simpa using fresh)
  exact inserts [] pairs apart

end Document

end Scaffold
