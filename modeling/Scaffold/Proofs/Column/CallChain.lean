import Scaffold.Column.Expression
import Scaffold.Proofs.Attribute.Fields
import Scaffold.Proofs.Php.ArgumentList

/-!
# The calls of a column expression

The expression of a column is a chain of calls: that of its type, and those of its modifiers in a
fixed order.  Each call is read back whatever texts stand in its arguments, so two expressions are
equal only if they have the same calls.
-/

namespace Scaffold

/-! ## Call chains -/

/-- A call of a chain. -/
structure Call where
  method : String
  arguments : List String

namespace Call

/-- The text of a call behind the calls before it. -/
def text (call : Call) : String :=
  Attribute.link call.method call.arguments

/-- A call whose method and arguments are read back. -/
structure IsReadable (call : Call) : Prop where
  method : '(' ∉ call.method.toList
  arguments : ∀ argument ∈ call.arguments, Php.IsArgument argument

theorem toList_text_append (call : Call) (rest : List Char) :
    call.text.toList ++ rest = '-' :: '>' :: (call.method.toList ++
      '(' :: ((", ".intercalate call.arguments).toList ++ ')' :: rest)) := by
  simp [text, Attribute.link]

theorem toList_join_cons (call : Call) (others : List Call) :
    (String.join ((call :: others).map text)).toList =
      '-' :: '>' :: (call.method.toList ++ '(' :: ((", ".intercalate call.arguments).toList ++
        ')' :: (String.join (others.map text)).toList)) := by
  rw [List.map_cons, String.join_cons, String.toList_append, toList_text_append]

/-- A method ends at the parenthesis behind it. -/
theorem method_append_inj
    {left right leftRest rightRest : List Char} (leftFree : '(' ∉ left) (rightFree : '(' ∉ right)
    (same : left ++ '(' :: leftRest = right ++ '(' :: rightRest) :
    left = right ∧ leftRest = rightRest := by
  have positions := congrArg (List.idxOf '(') same
  rw [List.idxOf_append_of_notMem leftFree, List.idxOf_append_of_notMem rightFree,
    List.idxOf_cons_self, List.idxOf_cons_self] at positions
  obtain ⟨sameMethod, sameRest⟩ := List.append_inj same positions
  exact ⟨sameMethod, List.tail_eq_of_cons_eq sameRest⟩

/-- A chain of readable calls has no other reading. -/
theorem eq_of_join_eq
    {left right : List Call} (leftReadable : ∀ call ∈ left, call.IsReadable)
    (rightReadable : ∀ call ∈ right, call.IsReadable)
    (same : String.join (left.map text) = String.join (right.map text)) : left = right := by
  induction left generalizing right with
  | nil =>
      cases right with
      | nil => rfl
      | cons call others =>
          rw [← String.toList_inj, toList_join_cons] at same
          cases same
  | cons call others hypothesis =>
      cases right with
      | nil =>
          rw [← String.toList_inj, toList_join_cons] at same
          cases same
      | cons other further =>
          obtain ⟨readable, othersReadable⟩ := List.forall_mem_cons.mp leftReadable
          obtain ⟨otherReadable, furtherReadable⟩ := List.forall_mem_cons.mp rightReadable
          rw [← String.toList_inj, toList_join_cons, toList_join_cons, List.cons.injEq,
            List.cons.injEq] at same
          -- A method ends at its parenthesis, from where on the arguments are read.
          obtain ⟨sameMethod, sameRest⟩ :=
            method_append_inj readable.method otherReadable.method same.2.2
          have read := congrArg Php.readArguments sameRest
          rw [Php.readArguments_intercalate readable.arguments,
            Php.readArguments_intercalate otherReadable.arguments, Option.some.injEq,
            Prod.mk.injEq, String.toList_inj] at read
          obtain ⟨sameArguments, sameOthers⟩ := read
          have sameCall : call = other := by
            cases call
            cases other
            rw [Call.mk.injEq]
            exact ⟨String.toList_inj.mp sameMethod, sameArguments⟩
          rw [sameCall, hypothesis othersReadable furtherReadable sameOthers]

end Call

/-! ## The calls of an attribute -/

/-- The calls that can follow the call of a type, in their order. -/
inductive Modifier where
  | references | on | nullable | unique | default | after | constrained | onDelete | onUpdate
  deriving DecidableEq

namespace Modifier

/-- The method of a modifier. -/
def method : Modifier → String
  | references => "references"
  | on => "on"
  | nullable => "nullable"
  | unique => "unique"
  | default => "default"
  | after => "after"
  | constrained => "constrained"
  | onDelete => "onDelete"
  | onUpdate => "onUpdate"

/-- Every modifier. -/
def all : List Modifier :=
  [references, on, nullable, unique, default, after, constrained, onDelete, onUpdate]

theorem mem_all (modifier : Modifier) : modifier ∈ all := by
  cases modifier <;> decide

theorem method_injective : Function.Injective method := by
  intro left right same
  have apart : ∀ left ∈ all, ∀ right ∈ all, left.method = right.method → left = right := by decide
  exact apart left (mem_all left) right (mem_all right) same

end Modifier

theorem ColumnType.name_injective : Function.Injective name := by
  intro left right same
  have found := ofName?_eq_some_iff.mpr same
  rw [ofName?_eq_some_iff.mpr rfl, Option.some.injEq] at found
  exact found

namespace Attribute

/-- The arguments of a modifier of an attribute, if its expression has the modifier. -/
def modifierArguments (attr : Attribute) : Modifier → Option (List String)
  | .references =>
      if attr.type = .foreign then some [Php.string (attr.references.getD "id")] else none
  | .on => if attr.type = .foreign then some [Php.string (attr.on.getD "")] else none
  | .nullable => if attr.nullable = some true then some [] else none
  | .unique => if attr.unique = some true then some [] else none
  | .default => attr.default.map fun value => [value.literal]
  | .after => (attr.after.filter (!·.isEmpty)).map fun column => [Php.string column]
  | .constrained =>
      if attr.type = .foreignId then
        attr.on.map fun table => Php.string table :: attr.references.toList.map Php.string
      else none
  | .onDelete =>
      if attr.hasConstraint then attr.onDelete.map fun action => [Php.string action.name] else none
  | .onUpdate =>
      if attr.hasConstraint then attr.onUpdate.map fun action => [Php.string action.name] else none

/-- The calls of those modifiers of a list that an attribute has. -/
def modifierCalls (attr : Attribute) (modifiers : List Modifier) : List Call :=
  modifiers.filterMap fun modifier => (attr.modifierArguments modifier).map (⟨modifier.method, ·⟩)

/-- The calls of a column expression. -/
def calls (attr : Attribute) : List Call :=
  ⟨attr.type.name, attr.columnArguments⟩ :: attr.modifierCalls Modifier.all

section Expression

variable (attr : Attribute)

theorem modifierCalls_append (first second : List Modifier) :
    attr.modifierCalls (first ++ second) =
      attr.modifierCalls first ++ attr.modifierCalls second := by
  rw [modifierCalls, List.filterMap_append]
  rfl

theorem tableCall_eq (method : String) (arguments : List String) :
    tableCall method arguments = "$table" ++ Call.text ⟨method, arguments⟩ := by
  have opening : "$table->" = "$table" ++ "->" := rfl
  simp only [tableCall, Call.text, link, opening, String.append_assoc]

theorem baseCall_eq :
    attr.baseCall = "$table" ++ (Call.text ⟨attr.type.name, attr.columnArguments⟩ ++
      String.join ((attr.modifierCalls [.references, .on]).map Call.text)) := by
  rw [baseCall, tableCall_eq]
  by_cases isForeign : attr.type = .foreign
  · simp [modifierCalls, modifierArguments, isForeign, Modifier.method, Call.text,
      String.append_assoc]
  · simp [modifierCalls, modifierArguments, isForeign]

theorem modifiers_eq :
    attr.modifiers =
      (attr.modifierCalls [.nullable, .unique, .default, .after]).map Call.text := by
  have each : attr.modifierCalls [.nullable, .unique, .default, .after] =
      attr.modifierCalls [.nullable] ++ attr.modifierCalls [.unique] ++
        attr.modifierCalls [.default] ++ attr.modifierCalls [.after] := by
    rw [← modifierCalls_append, ← modifierCalls_append, ← modifierCalls_append]
    rfl
  rw [modifiers, each, List.map_append, List.map_append, List.map_append]
  refine congrArg₂ (· ++ ·) (congrArg₂ (· ++ ·) (congrArg₂ (· ++ ·) ?nullable ?unique) ?default)
    ?after
  case nullable =>
    by_cases nullable : attr.nullable = some true <;>
      simp [modifierCalls, modifierArguments, nullable, Modifier.method, Call.text]
  case unique =>
    by_cases unique : attr.unique = some true <;>
      simp [modifierCalls, modifierArguments, unique, Modifier.method, Call.text]
  case default =>
    cases default : attr.default <;>
      simp [modifierCalls, modifierArguments, default, Modifier.method, Call.text]
  case after =>
    cases after : attr.after with
    | none => simp [modifierCalls, modifierArguments, after]
    | some column =>
        by_cases empty : column = "" <;>
          simp [modifierCalls, modifierArguments, after, empty, Option.filter, Modifier.method,
            Call.text]

theorem constrained_eq :
    attr.constrained = (attr.modifierCalls [.constrained]).map Call.text := by
  rw [constrained.eq_def]
  by_cases isForeignId : attr.type = .foreignId
  · rw [isForeignId]
    cases on : attr.on with
    | none => simp [modifierCalls, modifierArguments, on]
    | some table =>
        cases references : attr.references <;>
          simp [modifierCalls, modifierArguments, isForeignId, on, references, Modifier.method,
            Call.text]
  · simp [modifierCalls, modifierArguments, isForeignId]

theorem actions_eq :
    attr.actions = (attr.modifierCalls [.onDelete, .onUpdate]).map Call.text := by
  rw [actions]
  by_cases isConstraint : attr.hasConstraint = true
  · cases onDelete : attr.onDelete <;> cases onUpdate : attr.onUpdate <;>
      simp [modifierCalls, modifierArguments, isConstraint, onDelete, onUpdate, Modifier.method,
        Call.text]
  · simp [modifierCalls, modifierArguments, isConstraint]

theorem expression_eq :
    attr.expression = "$table" ++ String.join (attr.calls.map Call.text) := by
  have whole : attr.modifierCalls Modifier.all =
      attr.modifierCalls [.references, .on] ++
        (attr.modifierCalls [.nullable, .unique, .default, .after] ++
          attr.modifierCalls [.constrained] ++ attr.modifierCalls [.onDelete, .onUpdate]) := by
    rw [← modifierCalls_append, ← modifierCalls_append, ← modifierCalls_append]
    rfl
  rw [expression, baseCall_eq, modifiers_eq, constrained_eq, actions_eq, calls, whole]
  simp only [List.map_cons, List.map_append, String.join_cons, String.join_append,
    String.append_assoc]

end Expression

/-! ## Calls that are read back -/

theorem isArgument_columnArguments (attr : Attribute) :
    ∀ argument ∈ attr.columnArguments, Php.IsArgument argument := by
  have name : Php.IsArgument (Php.string attr.name) := .string _
  have maybe (absent : Bool) :
      ∀ argument ∈ if absent then [] else [Php.string attr.name], Php.IsArgument argument := by
    cases absent <;> simp [name]
  rw [columnArguments.eq_def]
  split
  · split <;> simp [name, Php.IsArgument.int]
  · split <;> simp [name, Php.IsArgument.int]
  · simp [name, numberArgument, Php.IsArgument.int]
  · simp [name, numberArgument, Php.IsArgument.int]
  · simp [name, numberArgument, Php.IsArgument.int]
  · simp [name, Php.stringArray, Php.IsArgument.array]
  · simp
  · simp
  · exact maybe _
  · exact maybe _
  · exact maybe _
  · simp [name]

theorem isArgument_modifierArguments
    {attr : Attribute} {modifier : Modifier} {arguments : List String}
    (given : attr.modifierArguments modifier = some arguments) :
    ∀ argument ∈ arguments, Php.IsArgument argument := by
  have string (texts : List String) :
      ∀ argument ∈ texts.map Php.string, Php.IsArgument argument := by
    simp [Php.IsArgument.string]
  cases modifier <;> rw [modifierArguments] at given
  case nullable | unique =>
    split_ifs at given
    obtain rfl := Option.some.inj given
    exact nofun
  case default =>
    obtain ⟨value, -, rfl⟩ := Option.map_eq_some_iff.mp given
    simp [Php.IsArgument.scalar]
  case references | on =>
    split_ifs at given
    obtain rfl := Option.some.inj given
    exact string [_]
  case after =>
    obtain ⟨column, -, rfl⟩ := Option.map_eq_some_iff.mp given
    exact string [column]
  case constrained =>
    split_ifs at given
    obtain ⟨table, -, rfl⟩ := Option.map_eq_some_iff.mp given
    exact string (table :: attr.references.toList)
  case onDelete | onUpdate =>
    split_ifs at given
    obtain ⟨action, -, rfl⟩ := Option.map_eq_some_iff.mp given
    exact string [action.name]

theorem isReadable_calls (attr : Attribute) : ∀ call ∈ attr.calls, call.IsReadable := by
  intro call member
  rcases List.mem_cons.mp member with rfl | later
  · have plain : ∀ type ∈ ColumnType.all, '(' ∉ type.name.toList := by decide
    exact ⟨plain attr.type (ColumnType.mem_all attr.type), isArgument_columnArguments attr⟩
  · obtain ⟨modifier, -, present⟩ := List.mem_filterMap.mp later
    obtain ⟨arguments, given, rfl⟩ := Option.map_eq_some_iff.mp present
    have plain : ∀ modifier ∈ Modifier.all, '(' ∉ modifier.method.toList := by decide
    exact ⟨plain modifier modifier.mem_all, isArgument_modifierArguments given⟩

/-- The calls of modifiers say which modifiers an attribute has, and with which arguments. -/
theorem mem_modifierCalls_iff {attr : Attribute} {modifier : Modifier} {arguments : List String} :
    ⟨modifier.method, arguments⟩ ∈ attr.modifierCalls Modifier.all ↔
      attr.modifierArguments modifier = some arguments := by
  simp only [modifierCalls, List.mem_filterMap, Option.map_eq_some_iff, Call.mk.injEq,
    Modifier.method_injective.eq_iff]
  constructor
  · rintro ⟨_, -, _, given, rfl, rfl⟩
    exact given
  · intro given
    exact ⟨modifier, Modifier.mem_all modifier, arguments, given, rfl, rfl⟩

/-- Expressions are equal exactly if they have the same calls with the same arguments. -/
theorem expression_eq_iff (left right : Attribute) :
    left.expression = right.expression ↔
      left.type = right.type ∧ left.columnArguments = right.columnArguments ∧
        left.modifierArguments = right.modifierArguments := by
  rw [expression_eq, expression_eq, String.append_right_inj]
  constructor
  · intro same
    have sameCalls := Call.eq_of_join_eq (isReadable_calls left) (isReadable_calls right) same
    rw [calls, calls, List.cons.injEq, Call.mk.injEq] at sameCalls
    obtain ⟨⟨sameName, sameArguments⟩, sameModifiers⟩ := sameCalls
    refine ⟨ColumnType.name_injective sameName, sameArguments, funext fun modifier => ?_⟩
    apply Option.ext
    intro arguments
    rw [← mem_modifierCalls_iff, sameModifiers, mem_modifierCalls_iff]
  · rintro ⟨sameType, sameArguments, sameModifiers⟩
    rw [calls, calls, modifierCalls, modifierCalls, sameType, sameArguments, sameModifiers]

end Attribute

end Scaffold
