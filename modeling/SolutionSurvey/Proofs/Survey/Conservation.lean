import SolutionSurvey.Proofs.Collection.Alike
import SolutionSurvey.Proofs.Duplication.Groups
import SolutionSurvey.Proofs.Solution.Sources
import SolutionSurvey.Proofs.Survey.Arrangement

/-!
# The totals of a report

What the files of a solution amount to is found again on every level of the report: in the rows about
namespaces, projects and the solution, in the table of project names and in the figures of the
report itself.  The same goes for duplicated blocks, as long as the files that hold them are
displayed differently.
-/

namespace SolutionSurvey.Survey

/-- For each duplicated block just one of the loaded files is displayed as its path. -/
def BlocksApart (display : Path → Path) (sources : LoadedSources) (report : Report) : Prop :=
  ∀ record ∈ report.duplications,
    (sources.files.map fun file => (display file.path).text).count record.filePath = 1

/-- Nothing is lost or counted twice on the way from the files to the totals.  Duplicated blocks come
to the rows of files by the paths that are displayed, so this goes for them if no two files with
such blocks are displayed alike. -/
structure Conserves (display : Path → Path) (sources : LoadedSources) (report : Report) : Prop where
  filePaths : report.fileRows.map (·.filePath) =
    sources.files.map fun file => (display file.path).text
  totalFiles : report.totalFiles = report.fileRows.length
  loadedFiles : report.totalFiles = sources.files.length
  oneSolutionRow : (rowsAbout .solutionTotal report.metrics).length = 1
  lines : ∀ scope, lineTotal (rowsAbout scope report.metrics) = report.totalLines
  projectTotals : report.projectTotals.total = report.totalLines
  complexity : ∀ scope,
    complexityTotal (rowsAbout scope report.metrics) = complexityTotal report.fileRows
  solutionDuplicates :
    duplicateTotal (rowsAbout .solutionTotal report.metrics) = duplicateTotal report.fileRows
  fileDuplicates : ∀ row ∈ report.fileRows,
    row.duplicateLines = DuplicateLines.inFile report.duplications row.filePath
  duplications : duplicateTotal report.fileRows = sumOf (report.duplications.map (·.lineCount)) ↔
    BlocksApart display sources report
  landsOnce : (∀ record ∈ report.duplications,
      (report.fileRows.filter fun row => row.filePath == record.filePath).length = 1) ↔
    BlocksApart display sources report
  plain : (∀ file ∈ sources.files, display file.path = file.path) →
    BlocksApart display sources report

namespace Arranged

variable {solution : Solution} {sources : LoadedSources} {outcome : Report}
  {parts : List ProjectRows} {closing : Row}
  (arranged : Arranged solution sources outcome parts closing)

include arranged

theorem lineTotal_rowsAbout (scope : Scope) :
    lineTotal (rowsAbout scope outcome.metrics) = outcome.totalLines := by
  have level : lineTotal (rowsAbout scope outcome.metrics) = lineTotal outcome.fileRows :=
    arranged.sum_rowsAbout (·.lineCount)
      (fun part membership => (arranged.agree part membership).namespaceLines)
      (fun part membership => (arranged.agree part membership).wholeLines)
      arranged.closingLines scope
  rw [level, arranged.totalLines, arranged.closingLines, arranged.fileRows_eq]

theorem complexityTotal_rowsAbout (scope : Scope) :
    complexityTotal (rowsAbout scope outcome.metrics) = complexityTotal outcome.fileRows :=
  arranged.sum_rowsAbout (·.complexity)
    (fun part membership => (arranged.agree part membership).namespaceComplexity)
    (fun part membership => (arranged.agree part membership).wholeComplexity)
    arranged.closingComplexity scope

theorem totalFiles_eq_fileRows : outcome.totalFiles = outcome.fileRows.length := by
  rw [arranged.totalFiles, arranged.fileRows_eq]

section Whole

variable (whole : sources.stretches.flatMap sources.filesOf = sources.files)

include whole

/-- If the stretches make up all files, the file rows are about the files, in their order. -/
theorem filePaths : outcome.fileRows.map (·.filePath) = sources.files.map (·.path.text) := by
  have paths := congrArg List.flatten arranged.files
  rw [← List.flatMap_def, ← List.flatMap_def, ← List.map_flatMap, ← List.map_flatMap, whole] at paths
  rw [arranged.fileRows_eq, paths]

theorem totalFiles_eq_files : outcome.totalFiles = sources.files.length := by
  have counted := congrArg List.length (arranged.filePaths whole)
  rw [List.length_map, List.length_map] at counted
  rw [arranged.totalFiles_eq_fileRows, counted]

end Whole

end Arranged

section Report

variable {read : TreeReader} {settings : Settings} {solution : Solution} {sources : LoadedSources}

/-- Every duplicated block is about at least one line of one of the files. -/
theorem of_mem_duplications {record : DuplicationRecord}
    (membership : record ∈ (report read settings solution sources).duplications) :
    record.filePath ∈ sources.files.map (·.path.text) ∧ 0 < record.lineCount := by
  have found : record ∈ Duplication.flatten
      (if settings.findDuplicates then Duplication.detect sources.files else []) := membership
  split at found
  · obtain ⟨site, recorded⟩ := (Duplication.accountFor_detect sources.files).exists_site found
    exact Duplication.Site.of_record? recorded
  · cases found

end Report

/-! ### What is displayed -/

section Loaded

variable {read : TreeReader} {tree : FileTree} {settings : Settings} {solution : Solution}
  {sources : LoadedSources} (display : Path → Path)
  (done : LoadedSources.load read tree settings solution.projects = .ok sources)

include done

theorem flatMap_filesOf_shown :
    (sources.shown display).stretches.flatMap (sources.shown display).filesOf =
      (sources.shown display).files := by
  have files : ∀ stretch, (sources.shown display).filesOf stretch =
      (sources.filesOf stretch).map fun file => { file with path := display file.path } := by
    intro stretch
    rw [LoadedSources.filesOf, LoadedSources.filesOf, List.map_take, List.map_drop]
    rfl
  rw [List.flatMap_congr fun stretch _ => files stretch, ← List.map_flatMap]
  exact congrArg _ (LoadedSources.flatMap_filesOf done)

theorem arranged_shown :
    Arranged (solution.shown display) (sources.shown display)
      (report read settings (solution.shown display) (sources.shown display))
      (reportedRows read settings (solution.shown display) (sources.shown display))
      (closingRow read settings (solution.shown display) (sources.shown display)) := by
  apply arranged_of_aligned
  rw [Solution.shown, List.length_map, ← LoadedSources.length_stretches done]
  rfl

theorem conserves_report : Conserves display sources
    (report read settings (solution.shown display) (sources.shown display)) := by
  have arranged := arranged_shown display done
  have whole := flatMap_filesOf_shown display done
  have paths : _ = sources.files.map fun file => (display file.path).text :=
    (arranged.filePaths whole).trans List.map_map
  have known : ∀ record ∈
      (report read settings (solution.shown display) (sources.shown display)).duplications,
        record.filePath ∈ (report read settings (solution.shown display)
          (sources.shown display)).fileRows.map (·.filePath) := fun record membership =>
    (arranged.filePaths whole) ▸ (of_mem_duplications membership).1
  have entered := metrics_report read settings (solution.shown display) (sources.shown display)
  have solutionRow := arranged.rowsAbout_metrics .solutionTotal
  constructor
  case filePaths => exact paths
  case totalFiles => exact arranged.totalFiles_eq_fileRows
  case loadedFiles => exact (arranged.totalFiles_eq_files whole).trans (List.length_map ..)
  case oneSolutionRow => rw [solutionRow, List.length_singleton]
  case lines => exact arranged.lineTotal_rowsAbout
  case projectTotals => exact total_projectTotals _
  case complexity => exact arranged.complexityTotal_rowsAbout
  case solutionDuplicates =>
    rw [solutionRow, ← arranged.duplicateLines_closing, duplicateTotal_singleton]
  case fileDuplicates =>
    rw [Report.fileRows, entered]
    exact fun row => DuplicateLines.duplicateLines_of_file
  case duplications =>
    rw [BlocksApart, ← paths]
    rw [Report.fileRows, entered] at known ⊢
    exact DuplicateLines.duplicateTotal_fileRows_enter_iff known fun record membership =>
      (of_mem_duplications membership).2
  case landsOnce =>
    rw [BlocksApart, ← paths]
    refine forall₂_congr fun record _ => ?_
    rw [List.count, List.countP_map, List.countP_eq_length_filter]
    rfl
  case plain =>
    intro plain record membership
    have same : (sources.files.map fun file => (display file.path).text) =
        sources.files.map (·.path.text) :=
      List.map_congr_left fun file listed => congrArg Path.text (plain file listed)
    have among := known record membership
    rw [paths, same] at among
    rw [same]
    exact List.count_eq_one_of_mem (LoadedSources.texts_apart done) among

end Loaded

theorem runShown_eq_report {display : Path → Path} {read : TreeReader} {tree : FileTree}
    {settings : Settings} {solution : Solution} {sources : LoadedSources}
    (done : LoadedSources.load read tree settings solution.projects = .ok sources) :
    runShown display read tree settings solution =
      .ok (report read settings (solution.shown display) (sources.shown display)) := by
  rw [runShown, done]
  rfl

theorem shown_id {read : TreeReader} {tree : FileTree} {settings : Settings}
    {projects : List Project} {sources : LoadedSources}
    (done : LoadedSources.load read tree settings projects = .ok sources) :
    sources.shown id = sources := by
  obtain ⟨_, rfl⟩ := LoadedSources.ofOutcomes_eq_ok_iff.mp done
  have sorted : ∀ names : List String,
      ((names.mergeSort (weakly compare)).map fun name => (id (Path.mk name)).text).mergeSort
        (weakly compare) = names.mergeSort (weakly compare) := by
    intro names
    have plain : (names.mergeSort (weakly compare)).map (fun name => (id (Path.mk name)).text) =
        names.mergeSort (weakly compare) := List.map_id _
    rw [plain]
    exact List.mergeSort_of_pairwise (sorted_mergeSort names)
  rw [LoadedSources.shown, LoadedSources.gathered, sorted]
  exact congrArg (LoadedSources.mk · _ _) (List.map_id _)

/-- A survey displays paths as they are. -/
theorem runShown_id (read : TreeReader) (tree : FileTree) (settings : Settings)
    (solution : Solution) : runShown id read tree settings solution =
      run read tree settings solution := by
  have same : solution.shown id = solution :=
    congrArg (Solution.mk _ _ ·) (List.map_id solution.projects)
  cases loaded : LoadedSources.load read tree settings solution.projects with
  | error cause => rw [runShown, run, loaded]; rfl
  | ok sources => rw [runShown_eq_report loaded, run_eq_report loaded, same, shown_id loaded]

/-- Whenever a survey succeeds, all totals of its report conserve what the loaded files amount to,
however paths are displayed. -/
theorem conserves_of_runShown {display : Path → Path} {read : TreeReader} {tree : FileTree}
    {settings : Settings} {solution : Solution} {outcome : Report}
    (done : runShown display read tree settings solution = .ok outcome) :
    ∃ sources, LoadedSources.load read tree settings solution.projects = .ok sources ∧
      Conserves display sources outcome := by
  obtain ⟨sources, loaded, rfl⟩ := map_eq_ok_iff.mp done
  exact ⟨sources, loaded, conserves_report display loaded⟩

/-! ### Two projects of one name -/

section Twins

open Node (written sign)

def classText : String := "class A\x7bvoid M()\x7b\x7d\x7d"

def classTree : Node :=
  written "compilation_unit" [] 1 1 classText
    [ written "class_declaration" [] 1 1 classText
      [ sign 1 "class", written "identifier" ["name"] 1 1 "A" []
      , written "declaration_list" ["body"] 1 1 "\x7bvoid M()\x7b\x7d\x7d"
        [sign 1 "\x7b", Duplication.methodM 1 [] "" "\x7b\x7d", sign 1 "\x7d"] ] ]

/-- A reader that knows a single text. -/
def readClass : TreeReader := fun text => if text = classText then some classTree else none

def classFile (path : String) : SourceFile := ⟨"App", ⟨path⟩, classText, classTree⟩

def appDirectory (source : String) : Entry :=
  .directory [("App.csproj", .file (.text "")), (source, .file (.text classText))]

def appIn (directory : String) : Project := ⟨"App", ⟨directory ++ "/App.csproj"⟩, ⟨directory⟩⟩

def manifestRow (name path : String) : String :=
  "Project(\"\x7bA\x7d\") = \"" ++ name ++ "\", \"" ++ path ++ "\", \"\x7bB\x7d\"\n"

def twinsManifest : String :=
  manifestRow "App" "A\\App.csproj" ++ manifestRow "App" "B\\App.csproj"

def twinsTree : FileTree :=
  ⟨[ ("App.sln", .file (.text twinsManifest))
   , ("A", appDirectory "One.cs"), ("B", appDirectory "Two.cs") ]
  , by decide +kernel, by decide +kernel⟩

/-- Two projects that share their display name; each has a file with the same class. -/
def twins : Solution := ⟨"App", ⟨"App.sln"⟩, [appIn "A", appIn "B"]⟩

def twinsSources : LoadedSources :=
  ⟨[classFile "A/One.cs", classFile "B/Two.cs"], [⟨0, 1⟩, ⟨1, 1⟩], []⟩

theorem load_twins :
    LoadedSources.load readClass twinsTree .standard twins.projects = .ok twinsSources := by
  have inA : Sources.collect twinsTree .standard ⟨"A"⟩ = [⟨"A/One.cs"⟩] := by decide +kernel
  have inB : Sources.collect twinsTree .standard ⟨"B"⟩ = [⟨"B/Two.cs"⟩] := by decide +kernel
  have claimed : Ownership.claims twinsTree .standard twins.projects =
      [⟨0, ⟨"A/One.cs"⟩⟩, ⟨1, ⟨"B/Two.cs"⟩⟩] := by
    simp [Ownership.claims, twins, appIn, inA, inB]
  have owned : Ownership.claimAll (Ownership.depthIn twins.projects)
      [⟨0, ⟨"A/One.cs"⟩⟩, ⟨1, ⟨"B/Two.cs"⟩⟩] = [⟨0, ⟨"A/One.cs"⟩⟩, ⟨1, ⟨"B/Two.cs"⟩⟩] := by
    decide +kernel
  have sorted : Sorted Ownership.Owned.order [⟨0, ⟨"A/One.cs"⟩⟩, ⟨1, ⟨"B/Two.cs"⟩⟩] := by
    unfold Sorted
    decide +kernel
  exact LoadedSources.load_of_claims [(0, classFile "A/One.cs"), (1, classFile "B/Two.cs")]
    claimed owned sorted rfl

theorem run_twins : run readClass twinsTree .standard twins =
    .ok (report readClass .standard twins twinsSources) :=
  run_eq_report load_twins

/-! ### Names that are displayed alike -/

/-- A character that stands for a byte which is part of no character. -/
def standsForByte (c : Char) : Bool := 0xE080 ≤ c.toNat && c.toNat ≤ 0xE0FF

/-- All such bytes are displayed as the same mark. -/
def lossy (path : Path) : Path :=
  ⟨String.ofList (path.text.toList.map fun c => if standsForByte c then '\uFFFD' else c)⟩

theorem twins_conserve :
    runShown lossy readClass twinsTree .standard twins =
        .ok (report readClass .standard (twins.shown lossy) (twinsSources.shown lossy)) ∧
      ∃ sources, LoadedSources.load readClass twinsTree .standard twins.projects = .ok sources ∧
        Conserves lossy sources
          (report readClass .standard (twins.shown lossy) (twinsSources.shown lossy)) :=
  ⟨runShown_eq_report load_twins, conserves_of_runShown (runShown_eq_report load_twins)⟩

/-- Two files whose names are single bytes that are no text. -/
def strangersTree : FileTree :=
  ⟨[ ("A", .directory
      [ ("App.csproj", .file (.text "")), ("\uE0FE.cs", .file (.text classText))
      , ("\uE0FF.cs", .file (.text classText)) ]) ]
  , by decide +kernel, by decide +kernel⟩

def strangers : Solution := ⟨"App", ⟨"A/App.csproj"⟩, [appIn "A"]⟩

def strangersSources : LoadedSources :=
  ⟨[classFile "A/\uE0FE.cs", classFile "A/\uE0FF.cs"], [⟨0, 2⟩], []⟩

theorem load_strangers :
    LoadedSources.load readClass strangersTree .standard strangers.projects =
      .ok strangersSources := by
  have collected : Sources.collect strangersTree .standard ⟨"A"⟩ =
      [⟨"A/\uE0FE.cs"⟩, ⟨"A/\uE0FF.cs"⟩] :=
    Sources.collectWith_eq_of_sorted (by decide +kernel) (List.pairwise_pair.mpr (by decide +kernel))
  have claimed : Ownership.claims strangersTree .standard strangers.projects =
      [⟨0, ⟨"A/\uE0FE.cs"⟩⟩, ⟨0, ⟨"A/\uE0FF.cs"⟩⟩] := by
    simp [Ownership.claims, strangers, appIn, collected]
  have owned : Ownership.claimAll (Ownership.depthIn strangers.projects)
      [⟨0, ⟨"A/\uE0FE.cs"⟩⟩, ⟨0, ⟨"A/\uE0FF.cs"⟩⟩] =
        [⟨0, ⟨"A/\uE0FE.cs"⟩⟩, ⟨0, ⟨"A/\uE0FF.cs"⟩⟩] := by
    decide +kernel
  have sorted : Sorted Ownership.Owned.order
      [⟨0, ⟨"A/\uE0FE.cs"⟩⟩, ⟨0, ⟨"A/\uE0FF.cs"⟩⟩] := by
    unfold Sorted
    decide +kernel
  exact LoadedSources.load_of_claims
    [(0, classFile "A/\uE0FE.cs"), (0, classFile "A/\uE0FF.cs")] claimed owned sorted rfl

/-- The class is found twice in two files. -/
theorem flatten_detect_classFiles {first second : String} (ordered : (compare first second).isLE) :
    Duplication.flatten (Duplication.detect [classFile first, classFile second]) =
      [ ⟨Duplication.hashOf "\x7b\x7d", first, "M", 1, 1⟩
      , ⟨Duplication.hashOf "\x7b\x7d", second, "M", 1, 1⟩ ] := by
  have blocks : [classFile first, classFile second].flatMap Duplication.blocksIn =
      [ (Duplication.hashOf "\x7b\x7d", ⟨first, "M", 1, 1⟩)
      , (Duplication.hashOf "\x7b\x7d", ⟨second, "M", 1, 1⟩) ] := rfl
  have before : weakly Occurrence.order ⟨first, "M", 1, 1⟩ ⟨second, "M", 1, 1⟩ := by
    simpa [weakly, Occurrence.order] using ordered
  have sorted : [(⟨first, "M", 1, 1⟩ : Occurrence), ⟨second, "M", 1, 1⟩].mergeSort
      (weakly Occurrence.order) = _ := List.mergeSort_of_pairwise (List.pairwise_pair.mpr before)
  rw [Duplication.detect, blocks, Detector.groups_recordAll_pair, Duplication.flatten,
    List.flatMap_singleton, Detector.members_group, sorted]
  rfl

/-- Each of the two duplicated lines comes to both rows. -/
theorem strangers_not_conserved :
    (Solution.ofPath strangersTree ⟨"A/App.csproj"⟩).toOption = some strangers ∧
      ∃ outcome, runShown lossy readClass strangersTree .standard strangers = .ok outcome ∧
        duplicateTotal outcome.fileRows ≠ sumOf (outcome.duplications.map (·.lineCount)) := by
  have conserves := @conserves_report readClass strangersTree .standard strangers _ lossy
    load_strangers
  refine ⟨by decide +kernel, _, runShown_eq_report load_strangers, fun same => ?_⟩
  have apart := conserves.duplications.mp same
  have first : lossy ⟨"A/\uE0FE.cs"⟩ = ⟨"A/\uFFFD.cs"⟩ := by decide +kernel
  have second : lossy ⟨"A/\uE0FF.cs"⟩ = ⟨"A/\uFFFD.cs"⟩ := by decide +kernel
  have shown : (strangersSources.shown lossy).files =
      [classFile "A/\uFFFD.cs", classFile "A/\uFFFD.cs"] := by
    simp [LoadedSources.shown, strangersSources, classFile, first, second]
  have found : (report readClass .standard (strangers.shown lossy)
      (strangersSources.shown lossy)).duplications = _ :=
    (congrArg (Duplication.flatten ∘ Duplication.detect) shown).trans
      (flatten_detect_classFiles (by decide +kernel))
  have once := apart _ (found ▸ List.mem_cons_self)
  exact absurd once (by decide +kernel)

end Twins

end SolutionSurvey.Survey
