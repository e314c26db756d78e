import Mathlib.Tactic.SplitIfs
import Scaffold.Document.JsonText

/-!
# Reading what was written

A text that is written with plain characters only is read back, whatever characters it has.  So are
the lists and mappings that are made of such texts, line by line.
-/

namespace Scaffold.Document.Json

/-! ## Characters -/

theorem hexDigit?_hexDigit {value : Nat} (digit : value < 16) :
    hexDigit? (hexDigit value) = some value := by
  have all : ∀ value < 16, hexDigit? (hexDigit value) = some value := by decide
  exact all value digit

/-- The digits of a numeric escape. -/
def codeDigits (code : Nat) : List Char :=
  [hexDigit (code / 4096 % 16), hexDigit (code / 256 % 16), hexDigit (code / 16 % 16),
    hexDigit (code % 16)]

theorem codeEscape_eq (code : Nat) : codeEscape code = '\\' :: 'u' :: codeDigits code :=
  rfl

theorem hexCode?_codeDigits {code : Nat} (fits : code < 0x10000) (rest : List Char) :
    hexCode? (codeDigits code ++ rest) = some (code, rest) := by
  have digit (n : Nat) : n % 16 < 16 := Nat.mod_lt n (by omega)
  simp only [codeDigits, List.cons_append, List.nil_append, hexCode?, hexDigit?_hexDigit (digit _)]
  congr 2
  omega

/-- A character is no half of a pair. -/
theorem toNat_valid (c : Char) : c.toNat < 0xd800 ∨ 0xdfff < c.toNat ∧ c.toNat < 0x110000 := by
  have valid := c.valid
  simp only [UInt32.isValidChar, Nat.isValidChar] at valid
  exact valid

/-- The numeric escape of a character is read back, be it one code or a pair. -/
theorem numericEscape?_escape (c : Char) (rest : List Char) :
    ∃ escape, numericEscape c = '\\' :: 'u' :: escape ∧
      numericEscape? (escape ++ rest) = some (c.toNat, rest) := by
  have valid := toNat_valid c
  rw [numericEscape]
  split_ifs with first
  · refine ⟨codeDigits c.toNat, rfl, ?_⟩
    have notHigh : isHighHalf c.toNat = false := by
      simp [isHighHalf]
      omega
    simp [numericEscape?, hexCode?_codeDigits first, notHigh]
  · refine ⟨codeDigits (0xd800 + (c.toNat - 0x10000) / 0x400) ++
      codeEscape (0xdc00 + (c.toNat - 0x10000) % 0x400), rfl, ?_⟩
    have high : isHighHalf (0xd800 + (c.toNat - 0x10000) / 0x400) = true := by
      simp [isHighHalf]
      omega
    have low : isLowHalf (0xdc00 + (c.toNat - 0x10000) % 0x400) = true := by
      simp [isLowHalf]
      omega
    rw [List.append_assoc, numericEscape?, hexCode?_codeDigits (by omega), codeEscape_eq]
    simp only [List.cons_append, high, Bool.not_true, Bool.false_eq_true, if_false]
    rw [hexCode?_codeDigits (by omega)]
    simp only [low, if_true]
    have value : 0x10000 + (0xd800 + (c.toNat - 0x10000) / 0x400 - 0xd800) * 0x400 +
        (0xdc00 + (c.toNat - 0x10000) % 0x400 - 0xdc00) = c.toNat := by
      omega
    rw [value]

/-- A written character is read in one step. -/
theorem readString_escaped (fuel : Nat) (reversed : List Nat) (c : Char) (rest : List Char) :
    readString (fuel + 1) reversed (escaped .ascii c ++ rest) =
      readString fuel (c.toNat :: reversed) rest := by
  rw [escaped.eq_def]
  split
  · rfl
  · rfl
  · rfl
  · rfl
  · rfl
  · rfl
  · rfl
  · rename_i notQuote notBackslash _ _ _ _ _
    split_ifs with plain
    · have notControl : (c < ' ' || c == '\\') = false := by
        simp only [Alphabet.isPlain, Bool.and_eq_true, decide_eq_true_eq] at plain
        simp only [Bool.or_eq_false_iff, decide_eq_false_iff_not, beq_eq_false_iff_ne]
        exact ⟨Char.not_lt.mpr plain.1, notBackslash⟩
      rw [List.singleton_append, readString]
      · rw [notControl]
        rfl
      · exact notQuote
      · exact fun _ same _ => notBackslash same
      · exact fun _ _ same _ => notBackslash same
    · obtain ⟨escape, shape, read⟩ := numericEscape?_escape c rest
      rw [shape, List.cons_append, List.cons_append, readString, read]

/-! ## Texts -/

theorem readString_text (fuel : Nat) (reversed : List Nat) (characters rest : List Char)
    (enough : characters.length < fuel) :
    readString fuel reversed (characters.flatMap (escaped .ascii) ++ '"' :: rest) =
      .ok (reversed.reverse ++ characters.map Char.toNat, rest) := by
  induction characters generalizing fuel reversed with
  | nil =>
      obtain ⟨less, rfl⟩ := Nat.exists_eq_add_of_lt enough
      simp [readString]
  | cons c others hypothesis =>
      obtain ⟨less, rfl⟩ := Nat.exists_eq_succ_of_ne_zero (Nat.ne_of_gt (Nat.zero_lt_of_lt enough))
      rw [List.flatMap_cons, List.append_assoc, readString_escaped,
        hypothesis _ _ (by simpa using enough)]
      simp

theorem ofCodes_text (text : String) :
    Value.ofCodes (text.toList.map Char.toNat) = .text text := by
  have noHalf : (text.toList.map Char.toNat).any Text.isHalf = false := by
    rw [List.any_eq_false]
    intro code member
    obtain ⟨c, _, rfl⟩ := List.mem_map.mp member
    have valid := toNat_valid c
    simp [Text.isHalf]
    omega
  have back : (text.toList.map Char.toNat).map Char.ofNat = text.toList := by
    simp [Function.comp_def]
  rw [Value.ofCodes, Text.ofCodes?, noHalf]
  simp [back]

theorem length_escaped_pos (c : Char) : 0 < (escaped .ascii c).length := by
  rw [escaped.eq_def]
  split
  · simp
  · simp
  · simp
  · simp
  · simp
  · simp
  · simp
  · split_ifs
    · simp
    · rw [numericEscape]
      split_ifs <;> simp [codeEscape]

theorem length_le_flatMap_escaped (characters : List Char) :
    characters.length ≤ (characters.flatMap (escaped .ascii)).length := by
  induction characters with
  | nil => simp
  | cons c rest hypothesis =>
      have positive := length_escaped_pos c
      simp only [List.flatMap_cons, List.length_append, List.length_cons]
      omega

/-! ## Values -/

/-- What is written for a value is read back as the value, and nothing of what follows. -/
structure Reads (value : Value) (written : List Char) : Prop where
  token : ∃ c rest, written = c :: rest ∧ isSpace c = false ∧ c ≠ ']' ∧ c ≠ '\x7d'
  reading : ∀ fuel rest, written.length ≤ fuel →
    readValue fuel (written ++ rest) = .ok (value, rest)
  lineFeeds : '\r' ∉ written

theorem Reads.skipSpace {value : Value} {written : List Char} (reads : Reads value written)
    (rest : List Char) : skipSpace (written ++ rest) = written ++ rest := by
  obtain ⟨c, others, rfl, notSpace, _⟩ := reads.token
  simp [Json.skipSpace, notSpace]

theorem mem_hexDigit_ne {value : Nat} (digit : value < 16) : hexDigit value ≠ '\r' := by
  have all : ∀ value < 16, hexDigit value ≠ '\r' := by decide
  exact all value digit

theorem return_not_mem_codeEscape (code : Nat) : '\r' ∉ codeEscape code := by
  have digit (n : Nat) : n % 16 < 16 := Nat.mod_lt n (by omega)
  have notReturn (n : Nat) : '\r' ≠ hexDigit (n % 16) := (mem_hexDigit_ne (digit n)).symm
  simp [codeEscape, notReturn]

theorem return_not_mem_escaped (c : Char) : '\r' ∉ escaped .ascii c := by
  rw [escaped.eq_def]
  split
  · decide
  · decide
  · decide
  · decide
  · decide
  · decide
  · decide
  · rename_i notReturn _ _ _
    split_ifs
    · simpa using fun same => notReturn same.symm
    · rw [numericEscape]
      split_ifs <;> simp [return_not_mem_codeEscape]

theorem reads_text (text : String) : Reads (.text text) (string .ascii text) where
  token := ⟨'"', _, rfl, by decide, by decide, by decide⟩
  reading fuel rest enough := by
    have more := length_le_flatMap_escaped text.toList
    simp only [string, List.length_append, List.length_cons] at enough
    obtain ⟨less, rfl⟩ := Nat.exists_eq_succ_of_ne_zero (by omega : fuel ≠ 0)
    rw [string, List.cons_append, List.cons_append, readValue, List.append_assoc,
      List.singleton_append,
      readString_text _ _ _ _ (by rw [List.length_append, List.length_cons]; omega)]
    simp [Except.map, ofCodes_text]
  lineFeeds := by
    simp [string, return_not_mem_escaped]

/-! ## Lists -/

theorem skipSpace_newLine (level : Nat) (text : List Char) :
    skipSpace (newLine level ++ text) = skipSpace text := by
  have blanks (count : Nat) : skipSpace (List.replicate count ' ' ++ text) = skipSpace text := by
    induction count with
    | zero => rfl
    | succ count hypothesis =>
        rw [List.replicate_succ, List.cons_append, skipSpace, List.dropWhile_cons_of_pos (by decide)]
        exact hypothesis
  rw [newLine, List.cons_append, skipSpace, List.dropWhile_cons_of_pos (by decide)]
  exact blanks _

theorem skipSpace_cons {c : Char} (token : isSpace c = false) (rest : List Char) :
    skipSpace (c :: rest) = c :: rest := by
  simp [skipSpace, token]

theorem return_not_mem_newLine (level : Nat) : '\r' ∉ newLine level := by
  simp [newLine]

/-- The blanks before a closing bracket or brace are skipped. -/
theorem skipSpace_close {c : Char} (token : isSpace c = false) (level : Nat) (rest : List Char) :
    skipSpace (newLine level ++ c :: rest) = c :: rest := by
  rw [skipSpace_newLine, skipSpace_cons token]

theorem readItems_laidOut
    (level outer : Nat) (items : List Value)
    (reads : ∀ item ∈ items, Reads item (laidOut .ascii level item)) (fuel : Nat)
    (reversed : List Value) {item : Value} (first : Reads item (laidOut .ascii level item))
    (enough : (laidOut .ascii level item ++ laidOutItems .ascii level items).length < fuel)
    (rest : List Char) :
    readItems fuel reversed (laidOut .ascii level item ++ (laidOutItems .ascii level items ++
      (newLine outer ++ ']' :: rest))) = .ok (reversed.reverse ++ item :: items, rest) := by
  induction items generalizing item reversed fuel with
  | nil =>
      obtain ⟨less, rfl⟩ := Nat.exists_eq_succ_of_ne_zero (Nat.ne_of_gt (Nat.zero_lt_of_lt enough))
      rw [laidOutItems, List.append_nil] at enough
      have close := skipSpace_close (c := ']') (by decide) outer rest
      rw [readItems, first.reading _ _ (by omega), laidOutItems, List.nil_append]
      simp only [close, List.reverse_cons]
  | cons next others hypothesis =>
      obtain ⟨less, rfl⟩ := Nat.exists_eq_succ_of_ne_zero (Nat.ne_of_gt (Nat.zero_lt_of_lt enough))
      have second := reads next (by simp)
      have behind := hypothesis (fun other member => reads other (by simp [member])) less
        (item :: reversed) second
      have comma (rest : List Char) : skipSpace (',' :: rest) = ',' :: rest :=
        skipSpace_cons (by decide) rest
      simp only [laidOutItems, List.length_append, List.length_cons] at enough behind
      rw [readItems, first.reading _ _ (by omega), laidOutItems]
      simp only [List.cons_append, List.append_assoc, comma]
      rw [skipSpace_newLine, second.skipSpace, behind (by omega)]
      simp

theorem return_not_mem_laidOutItems
    {level : Nat} {items : List Value}
    (reads : ∀ item ∈ items, Reads item (laidOut .ascii level item)) :
    '\r' ∉ laidOutItems .ascii level items := by
  induction items with
  | nil => simp [laidOutItems]
  | cons item rest hypothesis =>
      have others := hypothesis fun other member => reads other (by simp [member])
      have first := (reads item (by simp)).lineFeeds
      simp [laidOutItems, return_not_mem_newLine, first, others]

/-- A list whose items are read back is read back. -/
theorem reads_list
    (level : Nat) {items : List Value}
    (reads : ∀ item ∈ items, Reads item (laidOut .ascii (level + 1) item)) :
    Reads (.list items) (laidOut .ascii level (.list items)) := by
  cases items with
  | nil =>
      refine ⟨⟨'[', [']'], rfl, by decide, by decide, by decide⟩, fun fuel rest enough => ?_,
        by simp [laidOut]⟩
      obtain ⟨less, rfl⟩ := Nat.exists_eq_succ_of_ne_zero (by
        simp only [laidOut, List.length_cons] at enough
        omega : fuel ≠ 0)
      rfl
  | cons item others =>
      have first := reads item (by simp)
      have readsOthers : ∀ other ∈ others, Reads other (laidOut .ascii (level + 1) other) :=
        fun other member => reads other (by simp [member])
      refine ⟨⟨'[', _, rfl, by decide, by decide, by decide⟩, fun fuel rest enough => ?_, ?_⟩
      · simp only [laidOut, List.length_append, List.length_cons, List.length_nil] at enough
        obtain ⟨less, rfl⟩ := Nat.exists_eq_succ_of_ne_zero (by omega : fuel ≠ 0)
        have whole := readItems_laidOut (level + 1) level others readsOthers less [] first
          (by rw [List.length_append]; omega) rest
        obtain ⟨c, behind, shape, notSpace, notBracket, _⟩ := first.token
        rw [laidOut]
        simp only [List.cons_append, List.append_assoc, List.nil_append, readValue]
        rw [skipSpace_newLine, first.skipSpace]
        rw [shape] at whole ⊢
        simp only [List.cons_append] at whole ⊢
        split
        · rename_i same
          exact absurd (List.cons.inj same).1 notBracket
        · rw [whole]
          rfl
      · have noReturn := return_not_mem_laidOutItems readsOthers
        simp [laidOut, return_not_mem_newLine, first.lineFeeds, noReturn]

/-! ## Mappings -/

/-- An entry under a text. -/
def textEntry (pair : String × Value) : Value × Value :=
  (.text pair.1, pair.2)

theorem insert_new
    {known : List (String × Value)} {key : String} (fresh : key ∉ known.map (·.1))
    (value : Value) :
    Entries.insert (known.map textEntry) (.text key) value =
      (known ++ [(key, value)]).map textEntry := by
  induction known with
  | nil => rfl
  | cons pair rest hypothesis =>
      rw [List.map_cons, List.mem_cons, not_or] at fresh
      have different : (Value.text pair.1).sameKey (.text key) = false := by
        simpa [Value.sameKey, Value.wholeKey?] using Ne.symm fresh.1
      rw [List.map_cons, textEntry, Entries.insert, different]
      simp [hypothesis fresh.2, textEntry]

/-- A text is read up to its closing quote. -/
theorem readString_string (text : String) (rest : List Char) :
    readString ((text.toList.flatMap (escaped .ascii) ++ '"' :: rest).length + 1) []
      (text.toList.flatMap (escaped .ascii) ++ '"' :: rest) =
        .ok (text.toList.map Char.toNat, rest) := by
  have more := length_le_flatMap_escaped text.toList
  rw [readString_text _ _ _ _ (by rw [List.length_append, List.length_cons]; omega)]
  rfl

/-- What is read after entries: more of them, or the end of the mapping. -/
def afterEntry (fuel : Nat) (entries : List (String × Value)) (rest : List Char) :
    Except ReadError (Entries × List Char) :=
  match skipSpace rest with
  | ',' :: behind => readEntries fuel (entries.map textEntry) (skipSpace behind)
  | '\x7d' :: behind => .ok (entries.map textEntry, behind)
  | _ => .error .malformed

/-- One entry is read and added to those before it. -/
theorem readEntries_entry
    {fuel : Nat} {known : List (String × Value)} {key : String} {value : Value}
    {written : List Char} (reads : Reads value written) (fresh : key ∉ known.map (·.1))
    (enough : written.length ≤ fuel) (rest : List Char) :
    readEntries (fuel + 1) (known.map textEntry)
        (string .ascii key ++ (':' :: ' ' :: (written ++ rest))) =
      afterEntry fuel (known ++ [(key, value)]) rest := by
  have colon (rest : List Char) : skipSpace (':' :: rest) = ':' :: rest :=
    skipSpace_cons (by decide) rest
  have blank (rest : List Char) : skipSpace (' ' :: rest) = skipSpace rest := by
    rw [skipSpace, List.dropWhile_cons_of_pos (by decide)]
    rfl
  rw [string, List.cons_append, List.cons_append, readEntries, List.append_assoc,
    List.singleton_append, readString_string]
  simp only [colon, blank, reads.skipSpace, reads.reading fuel _ enough, ofCodes_text,
    insert_new fresh]
  rfl

theorem readEntries_laidOut
    (level outer : Nat) (entries : List (String × Value))
    (reads : ∀ entry ∈ entries, Reads entry.2 (laidOut .ascii level entry.2)) (fuel : Nat)
    (known : List (String × Value)) {key : String} {value : Value}
    (first : Reads value (laidOut .ascii level value))
    (distinct : (known.map (·.1) ++ key :: entries.map (·.1)).Nodup)
    (enough :
      (laidOut .ascii level value ++ laidOutEntries .ascii level (entries.map textEntry)).length <
        fuel)
    (rest : List Char) :
    readEntries fuel (known.map textEntry) (string .ascii key ++ (':' :: ' ' ::
      (laidOut .ascii level value ++ (laidOutEntries .ascii level (entries.map textEntry) ++
        (newLine outer ++ '\x7d' :: rest))))) =
      .ok ((known ++ (key, value) :: entries).map textEntry, rest) := by
  obtain ⟨less, rfl⟩ := Nat.exists_eq_succ_of_ne_zero (Nat.ne_of_gt (Nat.zero_lt_of_lt enough))
  rw [List.length_append] at enough
  induction entries generalizing key value known less with
  | nil =>
      have fresh : key ∉ known.map (·.1) := fun member =>
        (List.nodup_append.mp distinct).2.2 key member key (by simp) rfl
      have close := skipSpace_close (c := '\x7d') (by decide) outer rest
      rw [readEntries_entry first fresh (by omega), afterEntry, List.map_nil, laidOutEntries,
        List.nil_append, close]
      rfl
  | cons next others hypothesis =>
      have fresh : key ∉ known.map (·.1) := fun member =>
        (List.nodup_append.mp distinct).2.2 key member key (by simp) rfl
      have second := reads next (by simp)
      have comma (rest : List Char) : skipSpace (',' :: rest) = ',' :: rest :=
        skipSpace_cons (by decide) rest
      have quote (text : String) (rest : List Char) :
          skipSpace (string .ascii text ++ rest) = string .ascii text ++ rest :=
        (reads_text text).skipSpace rest
      rw [readEntries_entry first fresh (by omega), afterEntry]
      simp only [List.map_cons, laidOutEntries, textEntry, keyString, Value.keyText,
        List.length_append, List.length_cons] at enough ⊢
      obtain ⟨lesser, rfl⟩ := Nat.exists_eq_succ_of_ne_zero (by omega : less ≠ 0)
      have behind := hypothesis (fun other member => reads other (by simp [member]))
        (known ++ [(key, value)]) second (by simpa using distinct) lesser (by omega)
      simp only [List.cons_append, List.append_assoc, comma]
      rw [skipSpace_newLine, quote]
      simpa [textEntry] using behind

theorem return_not_mem_string (text : String) : '\r' ∉ string .ascii text :=
  (reads_text text).lineFeeds

theorem return_not_mem_laidOutEntries
    {level : Nat} {entries : List (String × Value)}
    (reads : ∀ entry ∈ entries, Reads entry.2 (laidOut .ascii level entry.2)) :
    '\r' ∉ laidOutEntries .ascii level (entries.map textEntry) := by
  induction entries with
  | nil => simp [laidOutEntries]
  | cons entry rest hypothesis =>
      have others := hypothesis fun other member => reads other (by simp [member])
      have first := (reads entry (by simp)).lineFeeds
      simp [laidOutEntries, textEntry, keyString, return_not_mem_string, return_not_mem_newLine,
        first, others]

/-- A mapping of distinct texts whose values are read back is read back. -/
theorem reads_mapping
    (level : Nat) (entries : List (String × Value)) (distinct : (entries.map (·.1)).Nodup)
    (reads : ∀ entry ∈ entries, Reads entry.2 (laidOut .ascii (level + 1) entry.2)) :
    Reads (.mapping (entries.map textEntry))
      (laidOut .ascii level (.mapping (entries.map textEntry))) := by
  cases entries with
  | nil =>
      refine ⟨⟨'\x7b', ['\x7d'], rfl, by decide, by decide, by decide⟩, fun fuel rest enough => ?_,
        by simp [laidOut]⟩
      obtain ⟨less, rfl⟩ := Nat.exists_eq_succ_of_ne_zero (by
        simp only [List.map_nil, laidOut, List.length_cons] at enough
        omega : fuel ≠ 0)
      rfl
  | cons entry others =>
      have first := reads entry (by simp)
      have readsOthers : ∀ other ∈ others, Reads other.2 (laidOut .ascii (level + 1) other.2) :=
        fun other member => reads other (by simp [member])
      refine ⟨⟨'\x7b', _, rfl, by decide, by decide, by decide⟩, fun fuel rest enough => ?_, ?_⟩
      · simp only [List.map_cons, textEntry, laidOut, keyString, List.length_append,
          List.length_cons, List.length_nil] at enough
        obtain ⟨less, rfl⟩ := Nat.exists_eq_succ_of_ne_zero (by omega : fuel ≠ 0)
        have whole := readEntries_laidOut (level + 1) level others readsOthers less [] first
          (by simpa using distinct) (by rw [List.length_append]; omega) rest
        have quote (rest : List Char) :
            skipSpace (string .ascii entry.1 ++ rest) = string .ascii entry.1 ++ rest :=
          (reads_text entry.1).skipSpace rest
        rw [List.map_cons, textEntry, laidOut]
        simp only [List.cons_append, List.append_assoc, List.nil_append, readValue, keyString,
          Value.keyText]
        rw [skipSpace_newLine, quote]
        simp only [string, List.cons_append] at whole ⊢
        rw [List.map_nil] at whole
        split
        · rename_i same
          exact absurd (List.cons.inj same).1 (by decide)
        · rw [whole]
          rfl
      · have noReturn := return_not_mem_laidOutEntries readsOthers
        simp [laidOut, textEntry, keyString, return_not_mem_string, return_not_mem_newLine,
          first.lineFeeds, noReturn]

/-! ## Whole texts -/

/-- A value whose written form is read back is the value of its JSON text. -/
theorem read_written {value : Value} (reads : Reads value (laidOut .ascii 0 value)) :
    read (written .ascii value) = .ok value := by
  rw [read, written, String.toList_ofList, reads.skipSpace]
  simp only [List.length_append, List.length_cons, List.length_nil]
  rw [reads.reading _ _ (by omega)]
  rfl

theorem return_not_mem_written {value : Value} (reads : Reads value (laidOut .ascii 0 value)) :
    '\r' ∉ (written .ascii value).toList := by
  simp [written, reads.lineFeeds]

end Scaffold.Document.Json
