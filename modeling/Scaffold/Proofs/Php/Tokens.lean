import Scaffold.Proofs.Php.Binding
import Scaffold.Proofs.Text.Separated

/-!
# Tokens of a file

A file is scanned character by character into words, string literals and marks; blanks and comments
give no token.  A word is a name with the qualifiers in front of it.  A text is scanned by its
pieces as long as no word goes on from one piece to the next.
-/

namespace Scaffold.Php

/-- A token of a file. -/
inductive Token where
  /-- A name, a keyword or a number, with the backslashes in it. -/
  | word (text : String)
  /-- A string literal. -/
  | literal
  /-- A character outside words and literals. -/
  | mark (c : Char)
  deriving DecidableEq, Repr

/-- A character of a name with its qualifiers. -/
def isWordPart (c : Char) : Bool :=
  isNamePart c || c == '\\'

/-- Where a scanner stands. -/
inductive Scanner where
  /-- Between two tokens. -/
  | code
  /-- Inside a word of which these characters are read. -/
  | word (start : List Char)
  /-- Behind a slash, which may open a comment. -/
  | slash
  /-- Inside a comment up to the end of the line. -/
  | line
  /-- Inside a comment that is to be closed. -/
  | block
  /-- Behind a star in a comment, which may close it. -/
  | star
  /-- Inside a string literal. -/
  | literal
  /-- Behind a backslash in a string literal. -/
  | escape
  deriving DecidableEq, Repr

namespace Scanner

/-- What a character does between two tokens. -/
def start (c : Char) : Scanner × List Token :=
  if isWordPart c then (.word [c], [])
  else if c == '/' then (.slash, [])
  else if c == '\'' then (.literal, [])
  else if c.isWhitespace then (.code, [])
  else (.code, [.mark c])

/-- What the next character does. -/
def next : Scanner → Char → Scanner × List Token
  | .code, c => start c
  | .word read, c =>
      if isWordPart c then (.word (read ++ [c]), [])
      else ((start c).1, .word (String.ofList read) :: (start c).2)
  | .slash, c =>
      if c == '/' then (.line, [])
      else if c == '*' then (.block, [])
      else ((start c).1, .mark '/' :: (start c).2)
  | .line, c => (if c == '\n' then .code else .line, [])
  | .block, c => (if c == '*' then .star else .block, [])
  | .star, c => (if c == '/' then .code else if c == '*' then .star else .block, [])
  | .literal, c =>
      if c == '\'' then (.code, [.literal]) else (if c == '\\' then .escape else .literal, [])
  | .escape, _ => (.literal, [])

/-- Scan characters: where the scanner stands behind them, and the tokens that are complete. -/
def run : Scanner → List Char → Scanner × List Token
  | scanner, [] => (scanner, [])
  | scanner, c :: rest =>
      (((scanner.next c).1.run rest).1, (scanner.next c).2 ++ ((scanner.next c).1.run rest).2)

/-- The token that the end of the file completes. -/
def pending : Scanner → List Token
  | .word read => [.word (String.ofList read)]
  | .slash => [.mark '/']
  | .code | .line | .block | .star | .literal | .escape => []

/-- A scanner goes on where it stands. -/
theorem run_trans {scanner middle last : Scanner} {first second : List Char}
    {found others : List Token} (runs : scanner.run first = (middle, found))
    (further : middle.run second = (last, others)) :
    scanner.run (first ++ second) = (last, found ++ others) := by
  induction first generalizing scanner found with
  | nil =>
      obtain ⟨rfl, rfl⟩ := Prod.mk.inj runs
      exact further
  | cons c rest hypothesis =>
      obtain ⟨stands, rfl⟩ := Prod.mk.inj runs
      rw [List.cons_append, run, hypothesis (Prod.ext stands rfl), List.append_assoc]

/-- Characters that leave a scanner where it stands give no token. -/
theorem run_of_next_eq {scanner : Scanner} {characters : List Char}
    (stays : ∀ c ∈ characters, scanner.next c = (scanner, [])) :
    scanner.run characters = (scanner, []) := by
  induction characters with
  | nil => rfl
  | cons c rest hypothesis =>
      rw [List.forall_mem_cons] at stays
      simp [run, stays.1, hypothesis stays.2]

/-- A word goes on as long as its characters do. -/
theorem run_word (read : List Char) {characters : List Char}
    (parts : ∀ c ∈ characters, isWordPart c = true) :
    (Scanner.word read).run characters = (.word (read ++ characters), []) := by
  induction characters generalizing read with
  | nil => simp [run]
  | cons c rest hypothesis =>
      rw [List.forall_mem_cons] at parts
      simp [run, next, parts.1, hypothesis (read ++ [c]) parts.2]

/-- A literal holds every text that is escaped in it. -/
theorem run_literal (text : List Char) :
    Scanner.literal.run (text.flatMap escaped) = (.literal, []) := by
  induction text with
  | nil => rfl
  | cons c rest hypothesis =>
      have one : Scanner.literal.run (escaped c) = (.literal, []) := by
        rw [escaped]
        split_ifs with isMark
        · rfl
        · simp only [Bool.or_eq_true, beq_iff_eq, not_or] at isMark
          simp [run, next, isMark.1, isMark.2]
      exact run_trans one hypothesis

/-- A comment that is not closed goes on to the next line. -/
theorem run_block {line : List Char} (unclosed : '/' ∉ line) :
    Scanner.block.run (line ++ ['\n']) = (.block, []) := by
  have stays : ∀ scanner, scanner = Scanner.block ∨ scanner = .star →
      scanner.run (line ++ ['\n']) = (.block, []) := by
    induction line with
    | nil => rintro _ (rfl | rfl) <;> rfl
    | cons c rest hypothesis =>
        rw [List.mem_cons, not_or, eq_comm] at unclosed
        intro scanner inside
        have further : scanner.next c = (.block, []) ∨ scanner.next c = (.star, []) := by
          rcases inside with rfl | rfl <;> by_cases isStar : c = '*' <;>
            simp [next, isStar, unclosed.1]
        rcases further with same | same <;>
          simp [run, same, hypothesis unclosed.2]
  exact stays .block (.inl rfl)

end Scanner

/-- The tokens of a text. -/
def tokens (text : String) : List Token :=
  (Scanner.code.run text.toList).2 ++ (Scanner.code.run text.toList).1.pending

/-! ## Pieces of a text -/

/-- A text gives tokens, whatever follows it. -/
def Spells (text : String) (tokens : List Token) : Prop :=
  Scanner.code.run text.toList = (.code, tokens)

instance (text : String) (tokens : List Token) : Decidable (Spells text tokens) :=
  inferInstanceAs (Decidable (_ = _))

/-- A text starts with a character that ends a word before it. -/
def EndsWord (text : String) : Prop :=
  ∃ c ∈ text.toList.head?, isWordPart c = false

instance : DecidablePred EndsWord := fun text =>
  decidable_of_iff (text.toList.head?.any (fun c => !isWordPart c) = true)
    (by simp [EndsWord, Option.any_eq_true])

/-- A text gives tokens as long as its last word does not go on behind it. -/
def IsPiece (text : String) (tokens : List Token) : Prop :=
  ∀ rest others, EndsWord rest → Spells rest others → Spells (text ++ rest) (tokens ++ others)

theorem Spells.tokens_eq {text : String} {found : List Token} (spells : Spells text found) :
    tokens text = found := by
  rw [tokens, show Scanner.code.run text.toList = _ from spells]
  exact List.append_nil found

theorem Spells.append {first second : String} {found others : List Token}
    (spells : Spells first found) (rest : Spells second others) :
    Spells (first ++ second) (found ++ others) := by
  rw [Spells, String.toList_append]
  exact Scanner.run_trans spells rest

theorem Spells.isPiece {text : String} {found : List Token} (spells : Spells text found) :
    IsPiece text found :=
  fun _ _ _ rest => spells.append rest

theorem Spells.append_isPiece {first second : String} {found others : List Token}
    (spells : Spells first found) (rest : IsPiece second others) :
    IsPiece (first ++ second) (found ++ others) := by
  intro text behind apart after
  rw [String.append_assoc, List.append_assoc]
  exact spells.append (rest text behind apart after)

theorem EndsWord.append {first : String} (ends : EndsWord first) (second : String) :
    EndsWord (first ++ second) := by
  obtain ⟨c, start, apart⟩ := ends
  refine ⟨c, ?_, apart⟩
  rw [String.toList_append, List.head?_append, Option.mem_def.mp start]
  rfl

theorem IsPiece.append {first second : String} {found others : List Token}
    (piece : IsPiece first found) (ends : EndsWord second) (rest : IsPiece second others) :
    IsPiece (first ++ second) (found ++ others) := by
  intro text behind apart spells
  rw [String.append_assoc, List.append_assoc]
  exact piece _ _ (ends.append text) (rest text behind apart spells)

/-- The token of a name, if it is not empty. -/
def wordOf (name : String) : List Token :=
  if name = "" then [] else [.word name]

theorem wordOf_of_ne {name : String} (nonempty : name ≠ "") : wordOf name = [.word name] :=
  if_neg nonempty

/-- A name is a word of its own. -/
theorem isPiece_name {name : String} (parts : ∀ c ∈ name.toList, isWordPart c = true) :
    IsPiece name (wordOf name) := by
  rintro rest others ⟨mark, start, apart⟩ spells
  cases shape : name.toList with
  | nil =>
      obtain rfl : name = "" := String.toList_inj.mp shape
      simpa [wordOf] using spells
  | cons c characters =>
      have nonempty : name ≠ "" := by
        rintro rfl
        cases shape
      obtain ⟨behind, cut⟩ : ∃ behind, rest.toList = mark :: behind :=
        ⟨_, List.eq_cons_of_mem_head? start⟩
      rw [shape, List.forall_mem_cons] at parts
      rw [Spells, cut, Scanner.run] at spells
      have whole : Scanner.code.run name.toList = (.word name.toList, []) := by
        have first : Scanner.code.next c = (.word [c], []) := by
          simp [Scanner.next, Scanner.start, parts.1]
        rw [shape, Scanner.run, first, Scanner.run_word [c] parts.2]
        rfl
      -- the mark behind the word completes it and is then read as in front of any token
      have stop : (Scanner.word name.toList).next mark =
          ((Scanner.code.next mark).1, .word name :: (Scanner.code.next mark).2) := by
        simp [Scanner.next, apart]
      have behindWord : (Scanner.word name.toList).run rest.toList =
          (.code, .word name :: others) := by
        obtain ⟨stands, rfl⟩ := Prod.mk.inj spells
        rw [cut, Scanner.run, stop]
        exact Prod.ext stands rfl
      have through := Scanner.run_trans whole behindWord
      rw [wordOf_of_ne nonempty, Spells, String.toList_append]
      exact through

theorem spells_string (text : String) : Spells (string text) [.literal] := by
  have opened : Scanner.code.run ['\''] = (.literal, []) := by decide +kernel
  have closed : Scanner.literal.run ['\''] = (.code, [.literal]) := by decide +kernel
  rw [Spells, toList_string]
  exact Scanner.run_trans opened (Scanner.run_trans (Scanner.run_literal _) closed)

/-- A text without the characters that a literal escapes stands in one as it is. -/
theorem string_eq_of_plain {text : String}
    (plain : ∀ c ∈ text.toList, c ≠ '\\' ∧ c ≠ '\'') : string text = "'" ++ text ++ "'" := by
  have same : text.toList.flatMap escaped = text.toList := by
    have one : ∀ c ∈ text.toList, escaped c = [c] := by
      intro c member
      simp [escaped, plain c member]
    rw [List.flatMap_congr one]
    exact List.flatMap_singleton' _
  rw [← String.toList_inj, toList_string, same]
  simp [String.toList_append]

/-- A comment up to the end of its line gives no token. -/
theorem spells_comment {text : String} (within : '\n' ∉ text.toList) :
    Spells ("//" ++ text ++ "\n") [] := by
  have stays : Scanner.line.run text.toList = (.line, []) := by
    refine Scanner.run_of_next_eq fun c member => ?_
    have other : c ≠ '\n' := fun same => within (same ▸ member)
    simp [Scanner.next, other]
  have opened : Scanner.code.run "//".toList = (.line, []) := by decide +kernel
  have closed : Scanner.line.run "\n".toList = (.code, []) := by decide +kernel
  rw [Spells, String.toList_append, String.toList_append]
  exact Scanner.run_trans (Scanner.run_trans opened stays) closed

/-- Lines that are scanned one by one. -/
theorem spells_terminated {lines : List String} {found : String → List Token}
    (each : ∀ line ∈ lines, Spells (line ++ "\n") (found line)) :
    Spells (Text.terminated lines) (lines.flatMap found) := by
  induction lines with
  | nil => rfl
  | cons line rest hypothesis =>
      rw [List.forall_mem_cons] at each
      exact each.1.append (hypothesis each.2)

/-- The lines of a comment that is to be closed give no token. -/
theorem Scanner.run_block_terminated {lines : List String}
    (unclosed : ∀ line ∈ lines, '/' ∉ line.toList) :
    Scanner.block.run (Text.terminated lines).toList = (.block, []) := by
  induction lines with
  | nil => rfl
  | cons line rest hypothesis =>
      rw [List.forall_mem_cons] at unclosed
      rw [Text.terminated, String.toList_append, String.toList_append]
      exact Scanner.run_trans (Scanner.run_block unclosed.1) (hypothesis unclosed.2)

end Scaffold.Php
