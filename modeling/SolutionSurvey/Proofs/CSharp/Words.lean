import SolutionSurvey.CSharp.Lexemes
import SolutionSurvey.Text.Alphabetic

/-!
# The characters of words

A word begins with a letter, an underscore, an at sign or an escape, and goes on with characters that
continue identifiers and with escapes.  None of these is white space.
-/

namespace SolutionSurvey

namespace Text

theorem isIdentifierContinuation_of_start {c : Char} (starts : isIdentifierStart c) :
    isIdentifierContinuation c := by
  unfold isIdentifierStart at starts
  unfold isIdentifierContinuation
  split
  case isTrue ascii => simp_all
  case isFalse notAscii => simp_all

theorem isAlphabetic_of_start {c : Char} (starts : isIdentifierStart c) :
    isAlphabetic c = !isLetterlikeSymbol c := by
  have noMark : ∀ code ∈ [0x2118, 0x212E],
      (alphabeticMarks.contains code || recentLetters.contains code) = false := by decide +kernel
  unfold isIdentifierStart at starts
  unfold isAlphabetic
  split
  case isTrue ascii =>
    rw [if_pos ascii] at starts
    have noSymbol : isLetterlikeSymbol c = false := by simp [isLetterlikeSymbol]; omega
    rw [starts, noSymbol, Bool.not_false]
  case isFalse notAscii =>
    rw [if_neg notAscii] at starts
    rw [starts, Bool.true_and, Bool.or_assoc]
    cases symbol : isLetterlikeSymbol c with
    | false => rfl
    | true =>
        simp only [isLetterlikeSymbol, Bool.or_eq_true, beq_iff_eq] at symbol
        rw [Bool.not_true, Bool.false_or]
        exact noMark c.toNat (by simpa using symbol)

/-- The code points of white space. -/
def blankCodes : List Nat :=
  [0x9, 0xA, 0xB, 0xC, 0xD, 0x20, 0x85, 0xA0, 0x1680, 0x2000, 0x2001, 0x2002, 0x2003, 0x2004, 0x2005,
    0x2006, 0x2007, 0x2008, 0x2009, 0x200A, 0x2028, 0x2029, 0x202F, 0x205F, 0x3000]

theorem mem_blankCodes_of_isBlank {c : Char} (blank : isBlank c) : c.toNat ∈ blankCodes := by
  have controls : ∀ {low high : Char}, low ≤ c → c ≤ high → low.toNat ≤ c.toNat ∧ c.toNat ≤ high.toNat :=
    fun above below => ⟨above, below⟩
  simp only [isBlank, Bool.or_eq_true, Bool.and_eq_true, decide_eq_true_eq, beq_iff_eq] at blank
  simp only [blankCodes, List.mem_cons, List.not_mem_nil, or_false]
  rcases blank with (((((((((control | rfl) | _) | _) | _) | range) | _) | _) | _) | _) | _
  · obtain ⟨above, below⟩ := controls control.1 control.2
    simp only [Char.reduceToNat] at above below
    omega
  · decide
  all_goals omega

theorem isIdentifierContinuation_of_isBlank {c : Char} (blank : isBlank c) :
    isIdentifierContinuation c = false := by
  have none : ∀ code ∈ blankCodes, isIdentifierContinuation (Char.ofNat code) = false := by
    decide +kernel
  have blankCode := none c.toNat (mem_blankCodes_of_isBlank blank)
  rwa [Char.ofNat_toNat] at blankCode

end Text

namespace CSharp.Lexeme

open Text

/-- A text that is one word as a whole. -/
def IsWord (text : List Char) : Prop := word text = some text.length

instance (text : List Char) : Decidable (IsWord text) :=
  inferInstanceAs (Decidable (word text = some text.length))

/-- A character that may stand behind the beginning of a word. -/
def continuesWord (c : Char) : Bool := isIdentifierContinuation c || c == '\\'

theorem isIdentifierContinuation_of_isHexDigit {c : Char} (digit : isHexDigit c) :
    isIdentifierContinuation c := by
  simp only [isHexDigit, isAsciiDigit, Bool.or_eq_true, Bool.and_eq_true, decide_eq_true_eq] at digit
  have ascii : c.toNat < 128 := by
    have bounded : c ≤ 'f' := by
      rcases digit with (decimal | lower) | upper
      · exact Char.le_trans decimal.2 (by decide)
      · exact lower.2
      · exact Char.le_trans upper.2 (by decide)
    exact Nat.lt_of_le_of_lt bounded (by decide)
  simp only [isIdentifierContinuation, if_pos ascii, isAsciiLetter, isAsciiDigit, Bool.or_eq_true,
    Bool.and_eq_true, decide_eq_true_eq]
  rcases digit with (decimal | lower) | upper
  · exact .inl (.inr decimal)
  · exact .inl (.inl (.inl ⟨lower.1, Char.le_trans lower.2 (by decide)⟩))
  · exact .inl (.inl (.inr ⟨upper.1, Char.le_trans upper.2 (by decide)⟩))

theorem continuesWord_of_hexDigits {digits : List Char} {count : Nat}
    (hex : (digits.take count).all isHexDigit) (letter : Char) (isLetter : continuesWord letter) :
    ∀ c ∈ ('\\' :: letter :: digits).take (count + 2), continuesWord c := by
  intro c membership
  simp only [List.take_succ_cons, List.mem_cons] at membership
  rcases membership with rfl | rfl | inDigits
  · decide
  · exact isLetter
  · have digit := List.all_eq_true.mp hex c inDigits
    simp [continuesWord, isIdentifierContinuation_of_isHexDigit digit]

theorem continuesWord_of_escaped {text : List Char} {length : Nat}
    (escaped : escapedCharacter text = some length) :
    ∀ c ∈ text.take length, continuesWord c := by
  unfold escapedCharacter at escaped
  split at escaped
  case h_1 rest =>
    split at escaped
    case isTrue hex =>
      obtain rfl := Option.some.inj escaped
      exact continuesWord_of_hexDigits (Bool.and_eq_true_iff.mp hex).2 'u' (by decide)
    case isFalse => cases escaped
  case h_2 rest =>
    split at escaped
    case isTrue hex =>
      obtain rfl := Option.some.inj escaped
      exact continuesWord_of_hexDigits (Bool.and_eq_true_iff.mp hex).2 'U' (by decide)
    case isFalse => cases escaped
  case h_3 => cases escaped

theorem exists_cons_of_escaped {text : List Char} {length : Nat}
    (escaped : escapedCharacter text = some length) : ∃ rest, text = '\\' :: rest := by
  unfold escapedCharacter at escaped
  split at escaped
  case h_1 rest => exact ⟨_, rfl⟩
  case h_2 rest => exact ⟨_, rfl⟩
  case h_3 => cases escaped

theorem continuesWord_of_wordTail {fuel : Nat} {text : List Char} :
    ∀ c ∈ text.take (wordTail fuel text), continuesWord c := by
  induction fuel generalizing text with
  | zero => simp [wordTail]
  | succ fuel inductionHypothesis =>
      cases text with
      | nil => simp
      | cons first rest =>
          rw [wordTail]
          split
          case isTrue continues =>
            rw [Nat.add_comm, List.take_succ_cons]
            have begins : continuesWord first := by simp [continuesWord, continues]
            exact List.forall_mem_cons.mpr ⟨begins, inductionHypothesis⟩
          case isFalse =>
            split
            case h_1 length escaped =>
              rw [List.take_add]
              exact List.forall_mem_append.mpr
                ⟨continuesWord_of_escaped escaped, inductionHypothesis⟩
            case h_2 => simp

theorem continuesWord_of_bareWord {text : List Char} {length : Nat}
    (read : bareWord text = some length) :
    (∀ c ∈ text.take length, continuesWord c) ∧
      ∃ first rest, text = first :: rest ∧
        (isIdentifierStart first ∨ first = '_' ∨ first = '\\') := by
  unfold bareWord at read
  split at read
  case h_1 => cases read
  case h_2 first rest =>
    split at read
    case isTrue starts =>
      obtain rfl := Option.some.inj read
      rw [Bool.or_eq_true, beq_iff_eq] at starts
      have continues : continuesWord first := by
        rcases starts with letter | rfl
        · simp [continuesWord, isIdentifierContinuation_of_start letter]
        · decide
      rw [Nat.add_comm, List.take_succ_cons]
      refine ⟨List.forall_mem_cons.mpr ⟨continues, continuesWord_of_wordTail⟩, first, rest, rfl, ?_⟩
      rcases starts with letter | underscore
      · exact .inl letter
      · exact .inr (.inl underscore)
    case isFalse =>
      obtain ⟨escape, escaped, rfl⟩ := Option.map_eq_some_iff.mp read
      obtain ⟨others, begun⟩ := exists_cons_of_escaped escaped
      refine ⟨?_, first, rest, rfl, .inr (.inr (List.cons.inj begun).1)⟩
      rw [List.take_add]
      exact List.forall_mem_append.mpr
        ⟨continuesWord_of_escaped escaped, continuesWord_of_wordTail⟩

/-- A word begins in one of four ways, and no sign and no white space follows. -/
theorem IsWord.exists_cons {text : List Char} (whole : IsWord text) :
    ∃ first rest, text = first :: rest ∧
      (isIdentifierStart first ∨ first = '_' ∨ first = '\\' ∨ first = '@') ∧
      ∀ c ∈ rest, continuesWord c := by
  unfold IsWord word at whole
  split at whole
  case h_1 rest =>
    obtain ⟨length, read, same⟩ := Option.map_eq_some_iff.mp whole
    have all : rest.take length = rest := List.take_of_length_le (by simp_all)
    have continues := (continuesWord_of_bareWord read).1
    rw [all] at continues
    exact ⟨'@', rest, rfl, .inr (.inr (.inr rfl)), continues⟩
  case h_2 =>
    obtain ⟨continues, first, rest, rfl, begins⟩ := continuesWord_of_bareWord whole
    rw [List.take_length] at continues
    refine ⟨first, rest, rfl, ?_, (List.forall_mem_cons.mp continues).2⟩
    rcases begins with letter | underscore | backslash
    · exact .inl letter
    · exact .inr (.inl underscore)
    · exact .inr (.inr (.inl backslash))

end CSharp.Lexeme

end SolutionSurvey
