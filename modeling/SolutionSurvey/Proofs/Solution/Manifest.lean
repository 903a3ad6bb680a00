import SolutionSurvey.Proofs.Text.Lines
import SolutionSurvey.Solution.Manifest

/-!
# Rows of manifests

A row is written with a type, a name, a path and a key, and with white space of any kind between
them; whatever follows the key does not count.  Rows are told apart from all other lines, and what a
row says can be read in one way only.  So a manifest lists the projects of its rows, in order.
-/

namespace SolutionSurvey.Manifest

/-! ### How rows are written -/

/-- White space around a sign. -/
structure Gap where
  before : List Char
  after : List Char
  blank_before : ∀ c ∈ before, Text.isBlank c
  blank_after : ∀ c ∈ after, Text.isBlank c

def Gap.around (gap : Gap) (sign : Char) : List Char := gap.before ++ sign :: gap.after

/-- A key in braces and quotes. -/
def braced (key : List Char) : List Char := '"' :: '{' :: key ++ ['}', '"']

def quoted (text : List Char) : List Char := '"' :: text ++ ['"']

/-- A row with all that may differ in how it is written. -/
structure Row where
  indent : List Char
  type : List Char
  name : String
  path : String
  key : List Char
  /-- Whatever follows the last quote. -/
  rest : List Char
  equals : Gap
  firstComma : Gap
  secondComma : Gap
  blank_indent : ∀ c ∈ indent, Text.isBlank c
  open_type : '}' ∉ type
  open_key : '}' ∉ key
  name_ne : name ≠ ""
  path_ne : path ≠ ""
  plain_name : '"' ∉ name.toList
  plain_path : '"' ∉ path.toList

namespace Row

def start : List Char := "Project(".toList

/-- A row up to its last quote. -/
def body (row : Row) : List Char :=
  row.indent ++ (start ++ (braced row.type ++ (')' :: (row.equals.around '=' ++
    (quoted row.name.toList ++ (row.firstComma.around ',' ++ (quoted row.path.toList ++
      (row.secondComma.around ',' ++ braced row.key))))))))

def line (row : Row) : String := String.ofList (row.body ++ row.rest)

/-- Only C# projects are listed. -/
def ListsProject (row : Row) : Prop := ".csproj".toList <:+ row.path.toList

def entry (row : Row) (directory : Path) : ProjectEntry :=
  ⟨row.name, directory.join ⟨withSlashes row.path⟩⟩

end Row

/-! ### What is passed on the way through a line -/

section Passing

variable {line rest : List Char}

theorem pass?_eq_some_iff {expected : List Char} :
    pass? expected line = some rest ↔ line = expected ++ rest := by
  unfold pass?
  constructor
  · intro passed
    split at passed
    · next starts =>
      obtain ⟨others, rfl⟩ := List.isPrefixOf_iff_prefix.mp starts
      rw [List.drop_left, Option.some.injEq] at passed
      rw [passed]
    · cases passed
  · rintro rfl
    rw [if_pos (List.isPrefixOf_iff_prefix.mpr (List.prefix_append expected rest)), List.drop_left]

/-- No white space is left to pass. -/
def StartsSolid (text : List Char) : Prop := ∀ c ∈ text.head?, Text.isBlank c = false

theorem startsSolid_cons {c : Char} (solid : Text.isBlank c = false) (text : List Char) :
    StartsSolid (c :: text) := by
  intro first isFirst
  obtain rfl := Option.some.inj isFirst
  exact solid

theorem startsSolid_passBlanks (text : List Char) : StartsSolid (passBlanks text) := by
  intro c isFirst
  have kept := List.head?_dropWhile_not Text.isBlank text
  rw [passBlanks] at isFirst
  rw [Option.mem_def.mp isFirst] at kept
  exact kept

theorem passBlanks_eq_iff :
    passBlanks line = rest ↔
      StartsSolid rest ∧ ∃ blanks, (∀ c ∈ blanks, Text.isBlank c) ∧ line = blanks ++ rest := by
  constructor
  · rintro rfl
    refine ⟨startsSolid_passBlanks line, line.takeWhile Text.isBlank, ?_, ?_⟩
    · exact fun c => List.mem_takeWhile_imp
    · exact List.takeWhile_append_dropWhile.symm
  · rintro ⟨solid, blanks, blank, rfl⟩
    rw [passBlanks, List.dropWhile_append_of_pos blank, List.dropWhile_eq_self_iff]
    intro some
    rw [solid _ (List.head?_eq_getElem? ▸ List.getElem?_eq_getElem some)]
    exact Bool.false_ne_true

theorem passKey?_eq_some_iff :
    passKey? line = some rest ↔ ∃ key, '}' ∉ key ∧ line = braced key ++ rest := by
  constructor
  · intro passed
    unfold passKey? at passed
    split at passed
    case h_1 others =>
      refine ⟨others.takeWhile (· != '}'), Text.not_mem_takeWhile_ne '}' others, ?_⟩
      have closed := pass?_eq_some_iff.mp passed
      rw [braced, List.append_assoc, ← closed, List.cons_append, List.cons_append,
        List.takeWhile_append_dropWhile]
    case h_2 => cases passed
  · rintro ⟨key, isOpen, rfl⟩
    have closed := (Text.takeWhile_and_dropWhile isOpen ('"' :: rest)).2
    simp only [braced, List.cons_append, List.append_assoc, List.nil_append, passKey?, closed]
    exact pass?_eq_some_iff.mpr rfl

theorem quoted?_eq_some_iff {text : String} :
    quoted? line = some (text, rest) ↔
      text ≠ "" ∧ '"' ∉ text.toList ∧ line = quoted text.toList ++ rest := by
  constructor
  · intro read
    unfold quoted? at read
    split at read
    case h_1 others =>
      have whole := List.takeWhile_append_dropWhile (l := others) (p := (· != '"'))
      dsimp only at read
      split at read
      case h_1 quote later found =>
        obtain ⟨some, same⟩ : ¬(others.takeWhile (· != '"')).isEmpty ∧
            (String.ofList (others.takeWhile (· != '"')), later) = (text, rest) := by
          split at read
          · cases read
          · next some => exact ⟨some, Option.some.inj read⟩
        obtain ⟨rfl, rfl⟩ := Prod.mk.inj same
        have isQuote : quote = '"' := by
          have kept := List.head?_dropWhile_not (· != '"') others
          rw [found] at kept
          simpa using kept
        subst isQuote
        refine ⟨by simpa using some, ?_, ?_⟩
        · rw [String.toList_ofList]
          exact Text.not_mem_takeWhile_ne '"' others
        · rw [String.toList_ofList, quoted, List.append_assoc, List.singleton_append, ← found,
            List.cons_append, whole]
      case h_2 => cases read
    case h_2 => cases read
  · rintro ⟨some, plain, rfl⟩
    obtain ⟨taken, left⟩ := Text.takeWhile_and_dropWhile plain rest
    simp only [quoted, List.cons_append, List.append_assoc, List.nil_append, quoted?, taken, left,
      String.ofList_toList]
    rw [if_neg (by simpa using some)]

theorem passSign?_eq_some_iff {sign : Char} (solid : Text.isBlank sign = false) :
    passSign? sign line = some rest ↔
      StartsSolid rest ∧ ∃ gap : Gap, line = gap.around sign ++ rest := by
  constructor
  · intro passed
    obtain ⟨others, isSign, last⟩ := Option.map_eq_some_iff.mp passed
    obtain ⟨_, before, blankBefore, written⟩ := passBlanks_eq_iff.mp (pass?_eq_some_iff.mp isSign)
    obtain ⟨solidRest, after, blankAfter, writtenAfter⟩ := passBlanks_eq_iff.mp last
    refine ⟨solidRest, ⟨before, after, blankBefore, blankAfter⟩, ?_⟩
    rw [written, writtenAfter, Gap.around]
    simp
  · rintro ⟨solidRest, gap, rfl⟩
    have first : passBlanks (gap.around sign ++ rest) = [sign] ++ (gap.after ++ rest) := by
      apply passBlanks_eq_iff.mpr
      refine ⟨startsSolid_cons solid _, gap.before, gap.blank_before, ?_⟩
      simp [Gap.around]
    have second : passBlanks (gap.after ++ rest) = rest :=
      passBlanks_eq_iff.mpr ⟨solidRest, gap.after, gap.blank_after, rfl⟩
    rw [passSign?, first, pass?_eq_some_iff.mpr rfl, Option.map_some, second]

end Passing

/-! ### What a row says -/

theorem startsSolid_quoted (text rest : List Char) : StartsSolid (quoted text ++ rest) :=
  startsSolid_cons (by decide) _

theorem startsSolid_braced (key rest : List Char) : StartsSolid (braced key ++ rest) :=
  startsSolid_cons (by decide) _

theorem Row.toList_line (row : Row) : row.line.toList = row.body ++ row.rest := String.toList_ofList

theorem Row.getLast?_body (row : Row) : row.body.getLast? = some '"' := by
  simp [Row.body, braced, List.getLast?_append, List.getLast?_cons]

/-- A line is read as a row just if it is written as one, and it says only one thing. -/
theorem row?_eq_some_iff {line name path : String} :
    row? line = some (name, path) ↔
      ∃ row : Row, row.line = line ∧ row.name = name ∧ row.path = path := by
  have equals : Text.isBlank '=' = false := by decide
  have comma : Text.isBlank ',' = false := by decide
  have solid (rest : List Char) : StartsSolid (Row.start ++ rest) := startsSolid_cons (by decide) _
  have starts : "Project(".toList = Row.start := rfl
  simp only [row?, starts, Option.bind_eq_bind, Option.bind_eq_some_iff, Prod.exists,
    pass?_eq_some_iff, passKey?_eq_some_iff, quoted?_eq_some_iff, passSign?_eq_some_iff equals,
    passSign?_eq_some_iff comma]
  constructor
  · rintro ⟨_, started, _, ⟨type, openType, rfl⟩, _, rfl, _, ⟨_, equals, rfl⟩, name, _,
      ⟨named, plainName, rfl⟩, _, ⟨_, firstComma, rfl⟩, path, _, ⟨pathed, plainPath, rfl⟩, _,
      ⟨_, secondComma, rfl⟩, rest, ⟨key, openKey, rfl⟩, said⟩
    obtain ⟨rfl, rfl⟩ := Prod.mk.inj (Option.some.inj said)
    obtain ⟨_, indent, blank, written⟩ := passBlanks_eq_iff.mp started
    refine ⟨⟨indent, type, name, path, key, rest, equals, firstComma, secondComma, blank, openType,
      openKey, named, pathed, plainName, plainPath⟩, ?_, rfl, rfl⟩
    apply String.toList_injective
    rw [written, Row.toList_line, Row.body]
    simp only [List.append_assoc, List.cons_append, List.nil_append]
  · rintro ⟨row, rfl, rfl, rfl⟩
    refine ⟨_, ?_, _, ⟨row.type, row.open_type, rfl⟩, _, rfl, _,
      ⟨startsSolid_quoted _ _, row.equals, rfl⟩, row.name, _, ⟨row.name_ne, row.plain_name, rfl⟩, _,
      ⟨startsSolid_quoted _ _, row.firstComma, rfl⟩, row.path, _,
      ⟨row.path_ne, row.plain_path, rfl⟩, _, ⟨startsSolid_braced _ _, row.secondComma, rfl⟩,
      row.rest, ⟨row.key, row.open_key, rfl⟩, rfl⟩
    apply passBlanks_eq_iff.mpr
    refine ⟨solid _, row.indent, row.blank_indent, ?_⟩
    rw [row.toList_line, Row.body]
    simp only [List.append_assoc, List.cons_append, List.nil_append]

/-- Slashes in place of backslashes leave the end of a project file's name alone. -/
theorem suffix_withSlashes_iff (path : String) :
    ".csproj".toList <:+ (withSlashes path).toList ↔ ".csproj".toList <:+ path.toList := by
  have kept : ∀ c, (if c = '\\' then '/' else c) ∈ ".csproj".toList →
      (if c = '\\' then '/' else c) = c := by
    intro c
    split
    · intro slash
      exact absurd slash (by decide)
    · exact fun _ => rfl
  rw [withSlashes, String.toList_map, List.suffix_map_iff]
  constructor
  · rintro ⟨last, isLast, same⟩
    have unchanged : last.map (fun c => if c = '\\' then '/' else c) = last := by
      rw [List.map_congr_left fun c membership => kept c (same ▸ List.mem_map_of_mem membership),
        List.map_id']
    rw [same, unchanged]
    exact isLast
  · intro isLast
    exact ⟨_, isLast, by decide⟩

theorem entryOf?_eq_some_iff {directory : Path} {line : String} {entry : ProjectEntry} :
    entryOf? directory line = some entry ↔
      ∃ row : Row, row.ListsProject ∧ row.line = line ∧ row.entry directory = entry := by
  simp only [entryOf?, Option.bind_eq_some_iff, Prod.exists, row?_eq_some_iff,
    Option.ite_none_right_eq_some, List.isSuffixOf_iff_suffix, suffix_withSlashes_iff]
  constructor
  · rintro ⟨_, _, ⟨row, written, rfl, rfl⟩, listed, said⟩
    exact ⟨row, listed, written, Option.some.inj said⟩
  · rintro ⟨row, listed, written, said⟩
    exact ⟨row.name, row.path, ⟨row, written, rfl, rfl⟩, listed, congrArg some said⟩

theorem entryOf?_eq_none_iff {directory : Path} {line : String} :
    entryOf? directory line = none ↔ ∀ row : Row, row.ListsProject → row.line ≠ line := by
  rw [Option.eq_none_iff_forall_ne_some]
  constructor
  · intro nothing row listed written
    exact nothing _ (entryOf?_eq_some_iff.mpr ⟨row, listed, written, rfl⟩)
  · intro noRow entry said
    obtain ⟨row, listed, written, _⟩ := entryOf?_eq_some_iff.mp said
    exact noRow row listed written

/-- A carriage return can only follow the last quote of a row, where nothing counts. -/
theorem entryOf?_return (directory : Path) (line : List Char) :
    entryOf? directory (String.ofList (line ++ ['\r'])) =
      entryOf? directory (String.ofList line) := by
  apply Option.ext
  intro entry
  rw [entryOf?_eq_some_iff, entryOf?_eq_some_iff]
  constructor
  · rintro ⟨row, listed, written, said⟩
    have same : row.body ++ row.rest = line ++ ['\r'] := String.ofList_injective written
    obtain empty | ⟨rest, last, isRest⟩ := row.rest.eq_nil_or_concat
    · have isLast := row.getLast?_body
      rw [empty, List.append_nil] at same
      rw [same, List.getLast?_concat] at isLast
      exact absurd isLast (by decide)
    · rw [isRest, List.concat_eq_append, ← List.append_assoc] at same
      obtain ⟨rfl, _⟩ := List.append_inj' same rfl
      exact ⟨{ row with rest }, listed, rfl, said⟩
  · rintro ⟨row, listed, written, said⟩
    refine ⟨{ row with rest := row.rest ++ ['\r'] }, listed, ?_, said⟩
    have same : row.body ++ row.rest = line := String.ofList_injective written
    rw [← same, List.append_assoc]
    rfl

theorem entryOf?_dropReturn (directory : Path) (line : List Char) :
    entryOf? directory (String.ofList (Text.dropReturn line)) =
      entryOf? directory (String.ofList line) := by
  obtain same | same := Text.eq_dropReturn_or line
  · rw [← same]
  · have returned := entryOf?_return directory (Text.dropReturn line)
    rw [← same] at returned
    exact returned.symm

/-! ### What a manifest lists -/

/-- The projects of rows, line by line; no other line counts. -/
inductive Lists (directory : Path) : List String → List ProjectEntry → Prop where
  | nothing : Lists directory [] []
  | row {lines found} (row : Row) (listed : row.ListsProject)
      (others : Lists directory lines found) :
      Lists directory (row.line :: lines) (row.entry directory :: found)
  | other {line lines found} (noRow : ∀ row : Row, row.ListsProject → row.line ≠ line)
      (others : Lists directory lines found) : Lists directory (line :: lines) found

theorem lists_iff {directory : Path} {lines : List String} {found : List ProjectEntry} :
    Lists directory lines found ↔ lines.filterMap (entryOf? directory) = found := by
  constructor
  · intro lists
    induction lists with
    | nothing => rfl
    | row row listed _ inductionHypothesis =>
        have said : entryOf? directory row.line = some (row.entry directory) :=
          entryOf?_eq_some_iff.mpr ⟨row, listed, rfl, rfl⟩
        rw [List.filterMap_cons_some said, inductionHypothesis]
    | other noRow _ inductionHypothesis =>
        rw [List.filterMap_cons_none (entryOf?_eq_none_iff.mpr noRow), inductionHypothesis]
  · rintro rfl
    induction lines with
    | nil => exact .nothing
    | cons line lines inductionHypothesis =>
        cases said : entryOf? directory line with
        | none =>
            rw [List.filterMap_cons_none said]
            exact .other (entryOf?_eq_none_iff.mp said) inductionHypothesis
        | some entry =>
            obtain ⟨row, listed, rfl, rfl⟩ := entryOf?_eq_some_iff.mp said
            rw [List.filterMap_cons_some said]
            exact .row row listed inductionHypothesis

/-! ### How manifests are written -/

/-- A line to write: the row of a project, or anything else. -/
inductive Line where
  | project (row : Row) (listed : row.ListsProject) (whole : '\n' ∉ row.line.toList)
  | other (text : String) (noRow : ∀ row : Row, row.ListsProject → row.line ≠ text)
      (whole : '\n' ∉ text.toList)

def Line.text : Line → String
  | project row _ _ => row.line
  | other text _ _ => text

def Line.entryFor? (directory : Path) : Line → Option ProjectEntry
  | project row _ _ => some (row.entry directory)
  | other _ _ _ => none

/-- Lines are ended with or without a carriage return. -/
inductive LineEnd where
  | feed
  | returnAndFeed

def LineEnd.text : LineEnd → String
  | feed => "\n"
  | returnAndFeed => "\r\n"

/-- Write lines, each with its end. -/
def write : List (Line × LineEnd) → String
  | [] => ""
  | (line, lineEnd) :: others => line.text ++ lineEnd.text ++ write others

theorem Line.whole (line : Line) : '\n' ∉ line.text.toList := by
  cases line with
  | project _ _ whole => exact whole
  | other _ _ whole => exact whole

theorem Line.entryOf?_text (directory : Path) (line : Line) :
    entryOf? directory line.text = line.entryFor? directory := by
  cases line with
  | project row listed _ => exact entryOf?_eq_some_iff.mpr ⟨row, listed, rfl, rfl⟩
  | other _ noRow _ => exact entryOf?_eq_none_iff.mpr noRow

theorem filterMap_cons_toList {α β : Type} (f : α → Option β) (first : α) (others : List α) :
    (first :: others).filterMap f = (f first).toList ++ others.filterMap f := by
  rw [List.filterMap_cons]
  cases f first with
  | none => rfl
  | some result => rfl

theorem entries_append {front : String} (ends : Text.EndsLine front) (back : String)
    (directory : Path) :
    entries (front ++ back) directory = entries front directory ++ entries back directory := by
  rw [entries, Text.lines_append ends, List.filterMap_append]
  rfl

theorem entries_feed {line : String} (whole : '\n' ∉ line.toList) (directory : Path) :
    entries (line ++ "\n") directory = (entryOf? directory line).toList := by
  have lines := Text.lines_line whole ""
  rw [String.append_empty] at lines
  rw [entries, lines, filterMap_cons_toList, entryOf?_dropReturn, String.ofList_toList]
  exact List.append_nil _

theorem entries_ended (directory : Path) (line : Line) (lineEnd : LineEnd) :
    entries (line.text ++ lineEnd.text) directory = (line.entryFor? directory).toList := by
  rw [← line.entryOf?_text]
  cases lineEnd with
  | feed => exact entries_feed line.whole directory
  | returnAndFeed =>
      have apart : LineEnd.returnAndFeed.text = "\r" ++ "\n" := rfl
      have whole : '\n' ∉ (line.text ++ "\r").toList := by
        simp [line.whole]
      have returned := entryOf?_return directory line.text.toList
      rw [String.ofList_append, String.ofList_toList] at returned
      rw [apart, ← String.append_assoc, entries_feed whole]
      exact congrArg Option.toList returned

theorem entries_unended (directory : Path) (line : Line) :
    entries line.text directory = (line.entryFor? directory).toList := by
  rw [← line.entryOf?_text, entries, Text.lines_of_no_feed line.whole]
  split
  · next empty =>
    rw [empty]
    rfl
  · rw [filterMap_cons_toList]
    exact List.append_nil _

theorem endsLine_ended (line : Line) (lineEnd : LineEnd) :
    Text.EndsLine (line.text ++ lineEnd.text) := by
  cases lineEnd with
  | feed => exact .inr ⟨line.text, rfl⟩
  | returnAndFeed => exact .inr ⟨line.text ++ "\r", by rw [String.append_assoc]; rfl⟩

theorem entries_write_append (directory : Path) (lines : List (Line × LineEnd)) (rest : String) :
    entries (write lines ++ rest) directory =
      lines.filterMap (·.1.entryFor? directory) ++ entries rest directory := by
  induction lines with
  | nil => rw [write, String.empty_append, List.filterMap_nil, List.nil_append]
  | cons ended others inductionHypothesis =>
      obtain ⟨line, lineEnd⟩ := ended
      rw [write, String.append_assoc, entries_append (endsLine_ended line lineEnd),
        entries_ended, inductionHypothesis, filterMap_cons_toList, List.append_assoc]

/-! ### Rows are read exactly -/

/-- How rows are read: nothing is lost, nothing else is taken for a row, and what is written is read
back. -/
structure ReadsRows (directory : Path) : Prop where
  exactly : ∀ text found, Lists directory (Text.lines text) found ↔ entries text directory = found
  readsBack : ∀ (lines : List (Line × LineEnd)) (last : Option Line),
    entries (write lines ++ (last.map Line.text).getD "") directory =
      (lines.map Prod.fst ++ last.toList).filterMap (·.entryFor? directory)
  joined : ∀ {front : String}, Text.EndsLine front → ∀ back,
    entries (front ++ back) directory = entries front directory ++ entries back directory

/-- A manifest lists the projects of its rows in order, however the rows are written and whatever
stands between them. -/
theorem reads_rows (directory : Path) : ReadsRows directory where
  exactly text found := lists_iff
  readsBack lines last := by
    rw [entries_write_append, List.filterMap_append, List.filterMap_map]
    cases last with
    | none => rfl
    | some last =>
        rw [Option.map_some, Option.getD_some, entries_unended, Option.toList_some,
          filterMap_cons_toList, List.filterMap_nil, List.append_nil]
        rfl
  joined ends back := entries_append ends back directory

example :
    entries "Global\r\n Project(\"\x7bA\x7d\")= \"N\" ,\"src\\N.csproj\", \"\x7b\x7d\" more" ⟨"/repo"⟩ =
      [⟨"N", ⟨"/repo/src/N.csproj"⟩⟩] := by decide +kernel

end SolutionSurvey.Manifest
