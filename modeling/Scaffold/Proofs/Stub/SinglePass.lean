import Scaffold.Proofs.Ledger.Saving
import Scaffold.Proofs.Output.Rendering
import Scaffold.Proofs.Text.Humps
import Scaffold.Proofs.Text.Identifier

/-!
# Rendering in a single pass

A stub is cut at its leftmost placeholders, from left to right and without overlaps.  There is one
such cut, it does not depend on the values, and rendering puts the parts of the cut together again
with values in place of placeholders.  So nothing of a stub is lost and no value is looked at.
-/

namespace Scaffold.Stub

/-! ## Placeholders -/

/-- The placeholder of a key as it may be written: blanks may stand around the key. -/
inductive IsPlaceholder : String → List Char → Prop where
  | intro {leading trailing : List Char} {key : String}
      (blankBefore : ∀ c ∈ leading, Text.isBlank c = true)
      (identifier : Text.isIdentifierText key.toList = true)
      (blankBehind : ∀ c ∈ trailing, Text.isBlank c = true) :
      IsPlaceholder key
        (['\x7b', '\x7b'] ++ leading ++ key.toList ++ trailing ++ ['\x7d', '\x7d'])

/-- A placeholder stands at the start of a text. -/
def Opens (text : List Char) : Prop :=
  ∃ key written, IsPlaceholder key written ∧ written <+: text

theorem isBlank_eq_false_of_isIdentifierPart {c : Char} (part : Text.isIdentifierPart c = true) :
    Text.isBlank c = false := by
  have ascii : c.toNat < 128 := by
    rw [Text.isIdentifierPart, Bool.or_eq_true, beq_iff_eq] at part
    rcases part with alphanum | rfl
    · exact Text.toNat_lt_of_isAlphanum alphanum
    · decide
  exact @Text.forall_ascii
    (fun c => Text.isIdentifierPart c = true → Text.isBlank c = false) (by decide +kernel) c ascii
    part

theorem isIdentifierPart_eq_false_of_isBlank {c : Char} (blank : Text.isBlank c = true) :
    Text.isIdentifierPart c = false := by
  by_contra part
  rw [Bool.not_eq_false] at part
  rw [isBlank_eq_false_of_isIdentifierPart part] at blank
  cases blank

theorem isIdentifierText_iff {text : List Char} :
    Text.isIdentifierText text = true ↔
      text.head?.any Text.isIdentifierStart = true ∧
        ∀ c ∈ text, Text.isIdentifierPart c = true := by
  cases text with
  | nil => simp [Text.isIdentifierText]
  | cons first rest =>
      have part (start : Text.isIdentifierStart first = true) :
          Text.isIdentifierPart first = true :=
        (Text.isIdentifierStart_iff.mp start).1
      simp only [Text.isIdentifierText, Bool.and_eq_true, List.all_eq_true, List.head?_cons,
        Option.any_some, List.forall_mem_cons]
      constructor
      · rintro ⟨start, parts⟩
        exact ⟨start, part start, parts⟩
      · rintro ⟨start, -, parts⟩
        exact ⟨start, parts⟩

theorem isClosed_iff {text : List Char} :
    isClosed text = true ↔ ['\x7d', '\x7d'] <+: text := by
  constructor
  · intro closed
    unfold isClosed at closed
    split at closed
    · exact List.prefix_append ['\x7d', '\x7d'] _
    · cases closed
  · rintro ⟨rest, rfl⟩
    rfl

/-- The placeholder that is found at the start of a text stands there. -/
theorem isPlaceholder_of_slot?
    {text : List Char} {piece : Piece} (found : slot? text = some piece) :
    ∃ key written, piece = .slot key written ∧ IsPlaceholder key written ∧ written <+: text := by
  rw [slot?.eq_def] at found
  split at found
  · rename_i rest
    rw [slotBody?] at found
    split_ifs at found with accepted
    obtain rfl := Option.some.inj found
    simp only [Bool.and_eq_true, isClosed_iff] at accepted
    obtain ⟨start, after, closed⟩ := accepted
    refine ⟨_, _, rfl, ?_, after, ?_⟩
    · have identifier : Text.isIdentifierText (String.ofList
          ((rest.dropWhile Text.isBlank).takeWhile Text.isIdentifierPart)).toList = true := by
        rw [String.toList_ofList]
        exact isIdentifierText_iff.mpr ⟨start, fun c => List.mem_takeWhile_imp⟩
      have whole := @IsPlaceholder.intro (rest.takeWhile Text.isBlank)
        (((rest.dropWhile Text.isBlank).dropWhile Text.isIdentifierPart).takeWhile Text.isBlank) _
        (fun c => List.mem_takeWhile_imp) identifier (fun c => List.mem_takeWhile_imp)
      rwa [String.toList_ofList] at whole
    · simp only [List.append_assoc]
      rw [closed, List.takeWhile_append_dropWhile, List.takeWhile_append_dropWhile,
        List.takeWhile_append_dropWhile]
      rfl
  · cases found

/-- A placeholder at the start of a text is found, whatever follows it. -/
theorem IsPlaceholder.slot?_append
    {key : String} {written : List Char} (placeholder : IsPlaceholder key written)
    (rest : List Char) : slot? (written ++ rest) = some (.slot key written) := by
  obtain @⟨leading, trailing, key, blankBefore, identifier, blankBehind⟩ := placeholder
  obtain ⟨start, parts⟩ := isIdentifierText_iff.mp identifier
  have begins : ∀ c ∈ (key.toList ++ (trailing ++ '\x7d' :: '\x7d' :: rest)).head?,
      Text.isBlank c = false := by
    intro c first
    cases shape : key.toList with
    | nil => simp [shape] at start
    | cons letter others =>
        simp only [shape, List.cons_append, List.head?_cons, Option.mem_some_iff] at first
        exact isBlank_eq_false_of_isIdentifierPart (parts c (by simp [shape, first]))
  have ends : ∀ c ∈ (trailing ++ '\x7d' :: '\x7d' :: rest).head?,
      Text.isIdentifierPart c = false := by
    intro c first
    cases trailing with
    | nil =>
        obtain rfl := Option.some.inj first
        decide
    | cons blank others =>
        obtain rfl := Option.some.inj first
        exact isIdentifierPart_eq_false_of_isBlank (blankBehind _ List.mem_cons_self)
  have closes : ∀ c ∈ ('\x7d' :: '\x7d' :: rest).head?, Text.isBlank c = false := by
    rintro c ⟨⟩
    decide
  have blanks := Prod.mk.inj (Text.splitRun_append blankBefore begins)
  have letters := Prod.mk.inj (Text.splitRun_append parts ends)
  have others := Prod.mk.inj (Text.splitRun_append blankBehind closes)
  have shape : (['\x7b', '\x7b'] ++ leading ++ key.toList ++ trailing ++ ['\x7d', '\x7d']) ++ rest =
      '\x7b' :: '\x7b' ::
        (leading ++ (key.toList ++ (trailing ++ '\x7d' :: '\x7d' :: rest))) := by
    simp
  rw [shape, slot?, slotBody?]
  simp only [blanks.1, blanks.2, letters.1, letters.2, others.1, others.2, start, isClosed,
    Bool.and_self, if_true, String.ofList_toList]

theorem slot?_eq_none_iff {text : List Char} : slot? text = none ↔ ¬ Opens text := by
  constructor
  · rintro none ⟨key, written, placeholder, rest, rfl⟩
    rw [placeholder.slot?_append] at none
    cases none
  · intro closed
    cases found : slot? text with
    | none => rfl
    | some piece =>
        obtain ⟨key, written, -, placeholder, starts⟩ := isPlaceholder_of_slot? found
        exact absurd ⟨key, written, placeholder, starts⟩ closed

/-! ## Cuts -/

/-- A placeholder of a stub with the text that stands between it and the one before. -/
structure Slot where
  before : List Char
  key : String
  written : List Char
  deriving DecidableEq

/--
A text is cut at its leftmost placeholders: none starts within the text before one, be it that it
would end behind, and none starts within the rest.
-/
inductive IsCut : List Char → List Slot → List Char → Prop where
  | rest {text : List Char} (none : ∀ start behind, text = start ++ behind → ¬ Opens behind) :
      IsCut text [] text
  | slot {before written text rest : List Char} {key : String} {slots : List Slot}
      (placeholder : IsPlaceholder key written)
      (leftmost : ∀ start behind, before = start ++ behind → behind ≠ [] →
        ¬ Opens (behind ++ written ++ text))
      (later : IsCut text slots rest) :
      IsCut (before ++ written ++ text) (⟨before, key, written⟩ :: slots) rest

/-- The text of a cut, with a text in place of every placeholder. -/
def assemble (slots : List Slot) (rest : List Char) (fill : Slot → List Char) : List Char :=
  slots.flatMap (fun slot => slot.before ++ fill slot) ++ rest

/-- The parts of a cut are the text. -/
theorem IsCut.assemble_written
    {text rest : List Char} {slots : List Slot} (cut : IsCut text slots rest) :
    assemble slots rest Slot.written = text := by
  induction cut with
  | rest none => rfl
  | slot placeholder leftmost later hypothesis =>
      rw [assemble] at hypothesis ⊢
      rw [List.flatMap_cons, List.append_assoc, hypothesis]

/-- The placeholders among the pieces of a text, each with the characters before it. -/
def slotsOf : List Piece → List Slot × List Char
  | [] => ([], [])
  | .plain c :: pieces =>
      match slotsOf pieces with
      | ([], rest) => ([], c :: rest)
      | (slot :: slots, rest) => ({ slot with before := c :: slot.before } :: slots, rest)
  | .slot key written :: pieces => (⟨[], key, written⟩ :: (slotsOf pieces).1, (slotsOf pieces).2)

theorem cutFrom_eq_cut_drop (covered : Nat) (text : List Char) :
    cutFrom covered text = cut (text.drop covered) := by
  induction text generalizing covered with
  | nil => cases covered <;> rfl
  | cons c rest hypothesis =>
      cases covered with
      | zero => rfl
      | succ covered => exact hypothesis covered

theorem cut_cons_of_not_opens {c : Char} {rest : List Char} (closed : ¬ Opens (c :: rest)) :
    cut (c :: rest) = .plain c :: cut rest := by
  rw [cut, cutFrom, slot?_eq_none_iff.mpr closed]
  rfl

/-- Cutting goes on behind a placeholder. -/
theorem IsPlaceholder.cut_append
    {key : String} {written : List Char} (placeholder : IsPlaceholder key written)
    (rest : List Char) : cut (written ++ rest) = .slot key written :: cut rest := by
  have found := placeholder.slot?_append rest
  obtain ⟨first, others, rfl⟩ : ∃ first others, written = first :: others := by
    cases placeholder
    exact ⟨_, _, rfl⟩
  rw [List.cons_append] at found ⊢
  rw [cut, cutFrom, found]
  dsimp only [Piece.written]
  rw [cutFrom_eq_cut_drop, List.length_cons, Nat.add_sub_cancel, List.drop_left]

/-- No placeholder starts with a character in front of a cut. -/
theorem IsCut.cons
    {text : List Char} {pieces : List Piece} {c : Char}
    (cut : IsCut text (slotsOf pieces).1 (slotsOf pieces).2) (closed : ¬ Opens (c :: text)) :
    IsCut (c :: text) (slotsOf (.plain c :: pieces)).1 (slotsOf (.plain c :: pieces)).2 := by
  rw [slotsOf]
  generalize slotsOf pieces = found at cut
  obtain ⟨slots, rest⟩ := found
  cases cut with
  | rest none =>
      refine .rest fun start behind whole => ?_
      rcases List.cons_eq_append_iff.mp whole with ⟨-, rfl⟩ | ⟨others, -, later⟩
      · exact closed
      · exact none others behind later
  | slot placeholder leftmost later =>
      refine @IsCut.slot (c :: _) _ _ _ _ _ placeholder (fun start behind whole some => ?_) later
      rcases List.cons_eq_append_iff.mp whole with ⟨-, rfl⟩ | ⟨others, -, rest⟩
      · exact closed
      · exact leftmost others behind rest some

/-- The pieces of a text are a cut of it. -/
theorem isCut_slotsOf_cut (text : List Char) :
    IsCut text (slotsOf (cut text)).1 (slotsOf (cut text)).2 := by
  cases text with
  | nil =>
      refine .rest fun start behind whole => ?_
      obtain ⟨-, rfl⟩ := List.append_eq_nil_iff.mp whole.symm
      rintro ⟨key, written, placeholder, nothing⟩
      obtain rfl := List.prefix_nil.mp nothing
      cases placeholder
  | cons c rest =>
      cases found : slot? (c :: rest) with
      | none =>
          have closed := slot?_eq_none_iff.mp found
          rw [cut_cons_of_not_opens closed]
          exact (isCut_slotsOf_cut rest).cons closed
      | some piece =>
          obtain ⟨key, written, -, placeholder, later, whole⟩ := isPlaceholder_of_slot? found
          have shorter : later.length < (c :: rest).length := by
            rw [← whole, List.length_append]
            cases placeholder
            simp
          rw [← whole, placeholder.cut_append]
          exact @IsCut.slot [] _ _ _ _ _ placeholder
            (fun start behind nothing some =>
              absurd (List.append_eq_nil_iff.mp nothing.symm).2 some)
            (isCut_slotsOf_cut later)
termination_by text.length
decreasing_by
  · exact Nat.lt_succ_self _
  · exact shorter

/-- A text has one cut. -/
theorem IsCut.eq_slotsOf
    {text rest : List Char} {slots : List Slot} (isCut : IsCut text slots rest) :
    slotsOf (cut text) = (slots, rest) := by
  induction isCut with
  | @rest text none =>
      induction text with
      | nil => rfl
      | cons c text hypothesis =>
          have later := hypothesis fun start behind whole =>
            none (c :: start) behind (by rw [whole, List.cons_append])
          rw [cut_cons_of_not_opens (none [] _ rfl), slotsOf, later]
  | @slot before written text rest key slots placeholder leftmost later hypothesis =>
      -- The text before the placeholder is passed character by character.
      induction before with
      | nil => rw [List.nil_append, placeholder.cut_append, slotsOf, hypothesis]
      | cons c before inner =>
          have closed := leftmost [] (c :: before) rfl (List.cons_ne_nil _ _)
          have rest := inner fun start behind whole =>
            leftmost (c :: start) behind (by rw [whole, List.cons_append])
          rw [List.cons_append, List.cons_append] at closed ⊢
          rw [cut_cons_of_not_opens closed, slotsOf, rest]

/-! ## Filling a cut -/

/-- The value of a placeholder, or the placeholder as it is written if its key has none. -/
def Slot.filled (values : Keyed String) (slot : Slot) : List Char :=
  match Keyed.get? values slot.key with
  | some value => value.toList
  | none => slot.written

theorem flatMap_filled (values : Keyed String) (pieces : List Piece) :
    pieces.flatMap (Piece.filled values) =
      assemble (slotsOf pieces).1 (slotsOf pieces).2 (Slot.filled values) := by
  induction pieces with
  | nil => rfl
  | cons piece pieces hypothesis =>
      rw [List.flatMap_cons, hypothesis]
      cases piece with
      | plain c =>
          rw [slotsOf]
          rcases slotsOf pieces with ⟨_ | ⟨slot, slots⟩, rest⟩ <;>
            simp [assemble, Piece.filled, Slot.filled]
      | slot key written =>
          simp only [assemble, slotsOf, List.flatMap_cons, List.nil_append, List.append_assoc]
          rfl

/-- The keys without a value are those of placeholders of a cut. -/
theorem mem_filterMap_missingKey?_iff (values : Keyed String) (pieces : List Piece) (key : String) :
    key ∈ pieces.filterMap (Piece.missingKey? values) ↔
      (∃ slot ∈ (slotsOf pieces).1, slot.key = key) ∧ Keyed.get? values key = none := by
  have keys : pieces.filterMap (Piece.missingKey? values) =
      ((slotsOf pieces).1.map (·.key)).filter fun key => !Keyed.has values key := by
    induction pieces with
    | nil => rfl
    | cons piece pieces hypothesis =>
        cases piece with
        | plain c =>
            rw [List.filterMap_cons_none rfl, hypothesis, slotsOf]
            rcases slotsOf pieces with ⟨_ | ⟨slot, slots⟩, rest⟩ <;> rfl
        | slot key written =>
            rw [slotsOf, List.map_cons, List.filter_cons, ← hypothesis]
            cases has : Keyed.has values key <;> simp [Piece.missingKey?, has]
  rw [keys, List.mem_filter, List.mem_map]
  simp [Keyed.has]

namespace Shelf

/-- The warning that a key of a stub has no value. -/
def missingWarning (name key : String) : LogRecord :=
  ⟨.warning, .templates,
    "Stub '" ++ name ++ "': no value for placeholder '\x7b\x7b " ++ key ++ " \x7d\x7d'"⟩

/--
A stub has one cut at its leftmost placeholders, whatever it is rendered with.  What is rendered is
the text of the cut with every placeholder replaced by the value of its key, or kept if there is
none; and there is one warning for each key that has none, in alphabetical order.
-/
theorem render_fills_one_cut
    {shelf : Shelf} {name stub : String} (loaded : shelf.load name = .ok stub) :
    ∃ slots rest, IsCut stub.toList slots rest ∧
      (∀ others last, IsCut stub.toList others last → others = slots ∧ last = rest) ∧
      assemble slots rest Slot.written = stub.toList ∧
      ∀ values, ∃ missing : List String,
        shelf.render name values =
            .ok (String.ofList (assemble slots rest (Slot.filled values)),
              missing.map (missingWarning name)) ∧
          missing.Pairwise (· < ·) ∧
          ∀ key, key ∈ missing ↔
            (∃ slot ∈ slots, slot.key = key) ∧ Keyed.get? values key = none := by
  have isCut := isCut_slotsOf_cut stub.toList
  refine ⟨_, _, isCut, fun others last other => ?_, isCut.assemble_written, fun values => ?_⟩
  · rw [other.eq_slotsOf]
    exact ⟨rfl, rfl⟩
  · refine ⟨sortedTexts (missingKeys values stub), ?_, ?_, fun key => ?_⟩
    · rw [render_of_load loaded, fill, flatMap_filled]
      rfl
    · exact sortedTexts_pairwise_lt (nodup_distinct _)
    · rw [mem_sortedTexts, missingKeys, mem_distinct, mem_filterMap_missingKey?_iff]

/-- A stub with braces that do not pair, and with placeholders that touch. -/
def pageStub : String :=
  "\x7b\x7b\x7b a \x7d\x7d\x7b\x7b \x7b\x7bb\x7d\x7d\x7b\x7b\ta\n\x7d\x7d " ++
    "\x7d\x7d\x7b\x7b 1 \x7d\x7d\x7b\x7b c \x7d\x7d \x7b\x7b a"

/-- A shelf with a stub of one's own. -/
def pageShelf : Shelf where
  folder := some (.ofText "stubs")
  clean := false
  tree := { folders := [["stubs"]], files := [(["stubs", "page.stub"], .text pageStub)] }

/-- A value that looks like a placeholder, and joins the braces around it, is not looked at. -/
theorem render_fills_one_cut_page :
    pageShelf.load "page" = .ok pageStub ∧
      ∃ slots rest, IsCut pageStub.toList slots rest ∧
        slots.map (·.key) = ["a", "b", "a", "c"] ∧
        pageShelf.render "page" [("a", "\x7b\x7b b \x7d\x7d\x7b")] =
          .ok (String.ofList (assemble slots rest
              (Slot.filled [("a", "\x7b\x7b b \x7d\x7d\x7b")])),
            ["b", "c"].map (missingWarning "page")) := by
  have loaded : pageShelf.load "page" = .ok pageStub := by decide +kernel
  have keys : (slotsOf (cut pageStub.toList)).1.map (·.key) = ["a", "b", "a", "c"] := by
    decide +kernel
  obtain ⟨slots, rest, isCut, -, -, renders⟩ := render_fills_one_cut loaded
  obtain ⟨missing, rendered, sorted, missed⟩ := renders [("a", "\x7b\x7b b \x7d\x7d\x7b")]
  rw [isCut.eq_slotsOf] at keys
  have same (key : String) : key ∈ missing ↔ key ∈ ["b", "c"] := by
    rw [missed, ← List.mem_map, keys]
    by_cases given : "a" = key
    · subst given
      simp [Keyed.get?]
    · simp [Keyed.get?, given, Ne.symm given]
  have listed : missing = ["b", "c"] := by
    have apart : missing.Nodup := sorted.imp ne_of_lt
    exact ((List.perm_ext_iff_of_nodup apart (by decide)).mpr same).eq_of_pairwise
      (fun _ _ _ _ less more => absurd more less.asymm) sorted (by decide)
  rw [listed] at rendered
  exact ⟨loaded, slots, rest, isCut, keys, rendered⟩

end Shelf

end Scaffold.Stub
