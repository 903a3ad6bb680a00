import SolutionSurvey.Proofs.Report.ShortHashes
import SolutionSurvey.Proofs.Text.Lines
import SolutionSurvey.Survey

/-!
# The lines of a report

As a plain text a report is a list of lines: a line for each thing that it tells of, in order, under
headings that say how many there are.  There is no text just if some hash cannot be cut, which does
not happen in the report of a survey.
-/

namespace SolutionSurvey

/-! ### Attempts on all elements of a list -/

section Attempts

variable {α β : Type} {attempt : α → Option β} {items : List α}

theorem mapM_eq_some_iff {results : List β} :
    items.mapM attempt = some results ↔ items.map attempt = results.map some := by
  induction items generalizing results with
  | nil => cases results <;> simp
  | cons item rest inductionHypothesis =>
      rw [List.mapM_cons, List.map_cons]
      cases first : attempt item with
      | none => cases results <;> simp
      | some result =>
          cases results with
          | nil => cases others : rest.mapM attempt <;> simp
          | cons head tail =>
              rw [List.map_cons, List.cons.injEq, ← inductionHypothesis]
              cases others : rest.mapM attempt <;> simp

theorem mapM_eq_none_iff :
    items.mapM attempt = none ↔ ∃ item ∈ items, attempt item = none := by
  induction items with
  | nil => simp
  | cons item rest inductionHypothesis =>
      rw [List.mapM_cons, List.exists_mem_cons_iff, ← inductionHypothesis]
      cases first : attempt item with
      | none => simp
      | some result => cases others : rest.mapM attempt <;> simp

end Attempts

/-! ### Texts on one line -/

namespace Text

def OneLine (text : String) : Prop := '\n' ∉ text.toList

@[simp]
theorem feed_notMem_toDigits (number : Nat) : '\n' ∉ Nat.toDigits 10 number := by
  intro membership
  have digit := Nat.isDigit_of_mem_toDigits (by decide) (by decide) membership
  exact absurd digit (by decide)

theorem oneLine_toString (number : Nat) : OneLine (toString number) := by
  simp [OneLine]

def ended (line : String) : String := line ++ "\n"

/-- A text of ended lines falls into these lines, and nothing is left behind the last one. -/
theorem pieces_join_ended {lines : List String} (whole : ∀ line ∈ lines, OneLine line) :
    pieces (· == '\n') (String.join (lines.map ended)).toList = lines.map String.toList ++ [[]] := by
  induction lines with
  | nil => rfl
  | cons line rest inductionHypothesis =>
      obtain ⟨wholeLine, wholeRest⟩ := List.forall_mem_cons.mp whole
      rw [List.map_cons, String.join_cons, ended, pieces_append_feed, pieces_of_no_feed wholeLine,
        inductionHypothesis wholeRest, List.map_cons, List.singleton_append, List.cons_append]

end Text

namespace Report

open Text (OneLine ended leftColumn rightColumn)

/-! ### What the lines say -/

def columns (project namespaceName file lines complexity duplicates : String) : String :=
  "  " ++ leftColumn 20 project ++ " " ++ leftColumn 28 namespaceName ++ " " ++
    leftColumn 24 file ++ " " ++ rightColumn 7 lines ++ " " ++ rightColumn 5 complexity ++ " " ++
    rightColumn 5 duplicates

def rowEntry (row : Row) : String :=
  let namespaceName :=
    match row.scope with
    | .projectTotal | .solutionTotal => ""
    | .file | .namespaceTotal => row.namespaceShown
  columns row.projectName namespaceName row.fileName (toString row.lineCount)
    (toString row.complexity) (toString row.duplicateLines)

def skippedEntries (paths : List String) : List String :=
  if paths.isEmpty then []
  else ("skipped (parse errors): " ++ toString paths.length) :: paths.map ("  " ++ ·)

def memberEntry (record : DuplicationRecord) : String :=
  "    " ++ record.filePath ++ ":" ++ toString record.startLine ++ " " ++ record.methodName ++ " (" ++
    toString record.lineCount ++ " lines)"

/-- What is shown of a hash. -/
def shownHash (hash : String) : String := (shortHash? hash).getD ""

def groupEntries (group : DuplicationGroup) : List String :=
  ("  " ++ group.key ++ " (" ++ shownHash group.hash ++ ")") :: group.members.map memberEntry

def relationEntry (relation : Relation) : String :=
  "  " ++ relation.source ++ " -> " ++ relation.target

def textLines (report : Report) : List String :=
  ["solution: " ++ report.solutionName,
    "files: " ++ toString report.totalFiles ++ "  lines: " ++ toString report.totalLines ++
      "  projects: " ++ toString report.projectTotals.length] ++
    skippedEntries report.skippedFiles ++
    ["", "metrics:", columns "project" "namespace" "file" "lines" "cc" "dup"] ++
    report.metrics.map rowEntry ++
    ["", "duplicates: " ++ toString report.groups.length ++ " groups"] ++
    report.groups.flatMap groupEntries ++
    ["", "dependencies: " ++ toString report.dependencies.length] ++
    report.dependencies.map relationEntry

/-- The texts of a report that are shown. -/
def shownTexts (report : Report) : List String :=
  report.solutionName :: report.skippedFiles ++
    report.metrics.flatMap (fun row => [row.projectName, row.namespaceShown, row.fileName]) ++
    report.groups.flatMap (fun group => group.key :: group.hash ::
      group.members.flatMap fun record => [record.filePath, record.methodName]) ++
    report.dependencies.flatMap fun relation => [relation.source, relation.target]

/-! ### The text and its lines -/

theorem rowLine_eq (row : Row) : rowLine row = ended (rowEntry row) := by
  rw [rowLine, rowEntry]
  cases row.scope <;> rfl

theorem memberLine_eq (record : DuplicationRecord) : memberLine record = ended (memberEntry record) := by
  have last : " lines)\n" = " lines)" ++ "\n" := by decide
  unfold memberLine memberEntry ended
  rw [last, ← String.append_assoc]

theorem skippedLines_eq (paths : List String) :
    skippedLines paths = (skippedEntries paths).map ended := by
  rw [skippedLines, skippedEntries]
  split
  · rfl
  · rw [List.map_cons, List.map_map]
    rfl

theorem groupLines?_eq_none_iff {group : DuplicationGroup} :
    groupLines? group = none ↔ shortHash? group.hash = none := by
  rw [groupLines?, Option.map_eq_none_iff]

theorem groupLines?_eq_some {group : DuplicationGroup} {lines : List String}
    (shown : groupLines? group = some lines) : lines = (groupEntries group).map ended := by
  obtain ⟨short, cut, rfl⟩ := Option.map_eq_some_iff.mp shown
  have last : ")\n" = ")" ++ "\n" := by decide
  have members : group.members.map memberLine = (group.members.map memberEntry).map ended := by
    rw [List.map_map]
    exact List.map_congr_left fun record _ => memberLine_eq record
  rw [groupEntries, shownHash, cut, Option.getD_some, List.map_cons, ← members, groupLine, ended,
    last, ← String.append_assoc]

theorem flatten_of_groupLines? {groups : List DuplicationGroup} {shown : List (List String)}
    (all : groups.mapM groupLines? = some shown) :
    shown.flatten = (groups.flatMap groupEntries).map ended := by
  have each := mapM_eq_some_iff.mp all
  clear all
  induction groups generalizing shown with
  | nil =>
      obtain rfl := List.map_eq_nil_iff.mp each.symm
      rfl
  | cons group rest inductionHypothesis =>
      obtain ⟨first, others, rfl, shownFirst, shownOthers⟩ := List.map_eq_cons_iff.mp each.symm
      rw [List.flatten_cons, List.flatMap_cons, List.map_append,
        groupLines?_eq_some shownFirst.symm, inductionHypothesis shownOthers.symm]

theorem toText?_eq_none_iff {report : Report} :
    report.toText? = none ↔ ∃ group ∈ report.groups, shortHash? group.hash = none := by
  simp only [toText?, lines?, Option.map_eq_none_iff, mapM_eq_none_iff, groupLines?_eq_none_iff]

theorem isSome_toText?_of_ascii {report : Report}
    (ascii : ∀ group ∈ report.groups, IsAscii group.hash) : report.toText?.isSome := by
  refine Option.isSome_iff_ne_none.mpr fun fails => ?_
  obtain ⟨group, isGroup, uncut⟩ := toText?_eq_none_iff.mp fails
  have cut := isSome_shortHash?_of_ascii (ascii group isGroup)
  rw [uncut] at cut
  cases cut

/-- The hashes in the report of a survey are fingerprints of blocks. -/
theorem exists_fingerprint_of_run {read : TreeReader} {tree : FileTree} {settings : Settings}
    {solution : Solution} {report : Report}
    (run : Survey.run read tree settings solution = .ok report) {group : DuplicationGroup}
    (membership : group ∈ report.groups) : ∃ text, group.hash = Text.fingerprint text := by
  rw [Survey.run] at run
  cases loaded : LoadedSources.load read tree settings solution.projects with
  | error failure =>
      rw [loaded] at run
      cases run
  | ok sources =>
      rw [loaded] at run
      cases run
      simp only [Survey.report] at membership
      split at membership
      · obtain ⟨text, hash⟩ := Duplication.exists_hashOf_of_mem_detect membership
        exact ⟨Text.compact text, hash⟩
      · cases membership

/-- The heading of the table stands behind an empty line. -/
theorem join_metricsHeading :
    String.join ["\nmetrics:\n", heading] = String.join
      (["", "metrics:", columns "project" "namespace" "file" "lines" "cc" "dup"].map ended) := by
  have first : "\nmetrics:\n" = "\n" ++ "metrics:" ++ "\n" := by decide
  have table : heading = ended (columns "project" "namespace" "file" "lines" "cc" "dup") := rfl
  simp only [first, table, List.map_cons, List.map_nil, String.join_cons, ended,
    String.append_assoc, String.empty_append]

theorem join_duplicatesHeading (count : String) :
    String.join ["\nduplicates: " ++ count ++ " groups\n"] =
      String.join (["", "duplicates: " ++ count ++ " groups"].map ended) := by
  have first : "\nduplicates: " = "\n" ++ "duplicates: " := by decide
  have last : " groups\n" = " groups" ++ "\n" := by decide
  simp only [first, last, List.map_cons, List.map_nil, String.join_cons, ended, String.append_assoc,
    String.empty_append]

theorem join_dependenciesHeading (count : String) :
    String.join ["\ndependencies: " ++ count ++ "\n"] =
      String.join (["", "dependencies: " ++ count].map ended) := by
  have first : "\ndependencies: " = "\n" ++ "dependencies: " := by decide
  simp only [first, List.map_cons, List.map_nil, String.join_cons, ended, String.append_assoc,
    String.empty_append]

/-- A text is made of the lines that are listed, each of them ended. -/
theorem toText?_eq_some {report : Report} {text : String} (rendered : report.toText? = some text) :
    text = String.join (report.textLines.map ended) := by
  obtain ⟨lines, listed, rfl⟩ := Option.map_eq_some_iff.mp rendered
  obtain ⟨shown, all, rfl⟩ := Option.map_eq_some_iff.mp listed
  have rows : report.metrics.map rowLine = (report.metrics.map rowEntry).map ended := by
    rw [List.map_map]
    exact List.map_congr_left fun row _ => rowLine_eq row
  have relations : report.dependencies.map relationLine =
      (report.dependencies.map relationEntry).map ended := by
    rw [List.map_map]
    rfl
  simp only [textLines, List.map_append, String.join_append, skippedLines_eq, rows,
    flatten_of_groupLines? all, relations, join_metricsHeading, join_duplicatesHeading,
    join_dependenciesHeading]
  rfl

/-! ### Every line is on one line -/

theorem oneLine_columns {project namespaceName file lines complexity duplicates : String}
    (wholeProject : OneLine project) (wholeNamespace : OneLine namespaceName)
    (wholeFile : OneLine file) (wholeLines : OneLine lines) (wholeComplexity : OneLine complexity)
    (wholeDuplicates : OneLine duplicates) :
    OneLine (columns project namespaceName file lines complexity duplicates) := by
  unfold columns leftColumn rightColumn Text.padding
  unfold OneLine at *
  simp [wholeProject, wholeNamespace, wholeFile, wholeLines, wholeComplexity, wholeDuplicates]

theorem oneLine_rowEntry {row : Row} (project : OneLine row.projectName)
    (namespaceName : OneLine row.namespaceShown) (file : OneLine row.fileName) :
    OneLine (rowEntry row) := by
  unfold rowEntry
  cases row.scope
  case projectTotal | solutionTotal =>
    exact oneLine_columns project List.not_mem_nil file (Text.oneLine_toString _)
      (Text.oneLine_toString _) (Text.oneLine_toString _)
  case file | namespaceTotal =>
    exact oneLine_columns project namespaceName file (Text.oneLine_toString _)
      (Text.oneLine_toString _) (Text.oneLine_toString _)

theorem oneLine_memberEntry {record : DuplicationRecord} (file : OneLine record.filePath)
    (method : OneLine record.methodName) : OneLine (memberEntry record) := by
  unfold memberEntry
  unfold OneLine at *
  simp [file, method]

theorem oneLine_relationEntry {relation : Relation} (source : OneLine relation.source)
    (target : OneLine relation.target) : OneLine (relationEntry relation) := by
  unfold relationEntry
  unfold OneLine at *
  simp [source, target]

theorem oneLine_shownHash {hash : String} (whole : OneLine hash) : OneLine (shownHash hash) := by
  rw [shownHash]
  cases cut : shortHash? hash with
  | none => exact List.not_mem_nil
  | some short => exact fun membership => whole ((shortHash?_eq_some cut).1.subset membership)

theorem oneLine_of_mem_skippedEntries {paths : List String} (whole : ∀ path ∈ paths, OneLine path) :
    ∀ line ∈ skippedEntries paths, OneLine line := by
  rw [skippedEntries]
  split
  · exact List.forall_mem_nil _
  · refine List.forall_mem_cons.mpr ⟨by simp [OneLine], List.forall_mem_map.mpr fun path isPath => ?_⟩
    have wholePath := whole path isPath
    unfold OneLine at *
    simp [wholePath]

theorem oneLine_of_mem_groupEntries {group : DuplicationGroup} (key : OneLine group.key)
    (hash : OneLine group.hash)
    (members : ∀ record ∈ group.members, OneLine record.filePath ∧ OneLine record.methodName) :
    ∀ line ∈ groupEntries group, OneLine line := by
  have short := oneLine_shownHash hash
  refine List.forall_mem_cons.mpr ⟨?_, List.forall_mem_map.mpr fun record isMember =>
    oneLine_memberEntry (members record isMember).1 (members record isMember).2⟩
  unfold OneLine at *
  simp [key, short]

theorem oneLine_of_mem_textLines {report : Report}
    (whole : ∀ shown ∈ report.shownTexts, OneLine shown) :
    ∀ line ∈ report.textLines, OneLine line := by
  simp only [shownTexts, List.cons_append, List.forall_mem_cons, List.forall_mem_append,
    List.forall_mem_flatMap] at whole
  obtain ⟨name, ⟨⟨skipped, rows⟩, groups⟩, relations⟩ := whole
  have skippedWhole := oneLine_of_mem_skippedEntries skipped
  have rowsWhole : ∀ line ∈ report.metrics.map rowEntry, OneLine line :=
    List.forall_mem_map.mpr fun row isRow =>
      oneLine_rowEntry (rows row isRow).1 (rows row isRow).2.1 (rows row isRow).2.2.1
  have groupsWhole : ∀ line ∈ report.groups.flatMap groupEntries, OneLine line :=
    List.forall_mem_flatMap.mpr fun group isGroup =>
      oneLine_of_mem_groupEntries (groups group isGroup).1 (groups group isGroup).2.1
        fun record isMember =>
          have texts := (groups group isGroup).2.2 record isMember
          ⟨texts.1, texts.2.1⟩
  have relationsWhole : ∀ line ∈ report.dependencies.map relationEntry, OneLine line :=
    List.forall_mem_map.mpr fun relation isRelation =>
      oneLine_relationEntry (relations relation isRelation).1 (relations relation isRelation).2.1
  have tableHeading : OneLine (columns "project" "namespace" "file" "lines" "cc" "dup") := by
    apply oneLine_columns <;> unfold OneLine <;> decide
  unfold OneLine at *
  simp only [textLines, List.forall_mem_append]
  refine ⟨⟨⟨⟨⟨⟨⟨?_, skippedWhole⟩, ?_⟩, rowsWhole⟩, ?_⟩, groupsWhole⟩, ?_⟩, relationsWhole⟩ <;>
    simp [name, tableHeading]

/-- What the text of a report shows to readers. -/
structure ShowsReport (report : Report) : Prop where
  /-- There is no text just if some hash has more than twelve bytes and its first twelve end inside a
  character. -/
  toText?_eq_none_iff : report.toText? = none ↔
    ∃ group ∈ report.groups,
      12 < group.hash.utf8ByteSize ∧ ¬ String.Pos.Raw.IsValid group.hash ⟨12⟩
  toText?_of_ascii : (∀ group ∈ report.groups, IsAscii group.hash) → report.toText?.isSome
  /-- The hashes in the report of a survey are fingerprints, so it has a text. -/
  toText?_of_run : ∀ read tree settings solution,
    Survey.run read tree settings solution = .ok report →
      (∀ group ∈ report.groups,
        (∃ text, group.hash = Text.fingerprint text) ∧ IsAscii group.hash) ∧
      report.toText?.isSome
  /-- The beginning of every hash is shown. -/
  hashes : ∀ text, report.toText? = some text → ∀ group ∈ report.groups,
    (shownHash group.hash).toList <+: group.hash.toList ∧
      (shownHash group.hash).utf8ByteSize = min 12 group.hash.utf8ByteSize
  /-- Unless a shown text holds the end of a line, everything is on a line of its own. -/
  lines : ∀ text, report.toText? = some text → (∀ shown ∈ report.shownTexts, OneLine shown) →
    Text.pieces (· == '\n') text.toList = report.textLines.map String.toList ++ [[]]

/-- A report is shown as a whole, unless one of its hashes cannot be cut. -/
theorem showsReport (report : Report) : ShowsReport report where
  toText?_eq_none_iff := by
    simp only [toText?_eq_none_iff, shortHash?_eq_none_iff]
  toText?_of_ascii := isSome_toText?_of_ascii
  toText?_of_run read tree settings solution run := by
    have ascii : ∀ group ∈ report.groups,
        (∃ text, group.hash = Text.fingerprint text) ∧ IsAscii group.hash := by
      intro group isGroup
      obtain ⟨text, hash⟩ := exists_fingerprint_of_run run isGroup
      exact ⟨⟨text, hash⟩, hash ▸ Text.isAscii_fingerprint text⟩
    exact ⟨ascii, isSome_toText?_of_ascii fun group isGroup => (ascii group isGroup).2⟩
  hashes text rendered group isGroup := by
    obtain ⟨short, cut⟩ : ∃ short, shortHash? group.hash = some short := by
      refine Option.ne_none_iff_exists'.mp fun fails => ?_
      have noText := toText?_eq_none_iff.mpr ⟨group, isGroup, fails⟩
      rw [rendered] at noText
      cases noText
    rw [shownHash, cut, Option.getD_some]
    exact shortHash?_eq_some cut
  lines text rendered whole := by
    rw [toText?_eq_some rendered]
    exact Text.pieces_join_ended (oneLine_of_mem_textLines whole)

end Report

end SolutionSurvey
