import SolutionSurvey.Proofs.Metrics.DuplicateLines

/-!
# The rows about one project

A project has a row for every file it owns, a row for every namespace of these and one for the
whole.  The totals of a project agree with its file rows, and entering duplicated lines leaves all
other figures as they are.
-/

namespace SolutionSurvey

structure ProjectRows where
  files : List Row
  namespaces : List Row
  whole : Row

namespace ProjectRows

def all (part : ProjectRows) : List Row := part.files ++ part.namespaces ++ [part.whole]

def filesIn (part : ProjectRows) (namespaceName : Option String) : List Row :=
  part.files.filter fun row => row.namespaceName == namespaceName

/-- The total of a project takes in its own file rows, those of a namespace its own part of them. -/
structure Agree (part : ProjectRows) : Prop where
  filesAbout : AllAbout .file part.files
  filesNamed : ∀ row ∈ part.files, row.projectName = part.whole.projectName
  namespacesAbout : AllAbout .namespaceTotal part.namespaces
  namespacesNamed : ∀ row ∈ part.namespaces, row.projectName = part.whole.projectName
  namespacesApart : (part.namespaces.map (·.namespaceName)).Nodup
  namespacesCover : ∀ row ∈ part.files, row.namespaceName ∈ part.namespaces.map (·.namespaceName)
  namespaceLines : ∀ row ∈ part.namespaces,
    row.lineCount = lineTotal (part.filesIn row.namespaceName)
  namespaceComplexity : ∀ row ∈ part.namespaces,
    row.complexity = complexityTotal (part.filesIn row.namespaceName)
  wholeAbout : part.whole.scope = .projectTotal
  wholeLines : part.whole.lineCount = lineTotal part.files
  wholeComplexity : part.whole.complexity = complexityTotal part.files

/-! ### What follows from agreement -/

namespace Agree

variable {part : ProjectRows} (agree : part.Agree)

include agree

/-- What the namespaces of a project amount to is what its files amount to. -/
theorem sum_namespaces (amount : Row → Nat)
    (own : ∀ row ∈ part.namespaces,
      amount row = sumOf ((part.filesIn row.namespaceName).map amount)) :
    sumOf (part.namespaces.map amount) = sumOf (part.files.map amount) := by
  rw [List.map_congr_left own]
  have parts := sumOf_parts agree.namespacesApart amount agree.namespacesCover
  rwa [List.map_map] at parts

theorem rowsAbout_all (scope : Scope) :
    rowsAbout scope part.all = match scope with
      | .file => part.files
      | .namespaceTotal => part.namespaces
      | .projectTotal => [part.whole]
      | .solutionTotal => [] := by
  have wholeAbout : AllAbout .projectTotal [part.whole] := by
    intro row membership
    rw [List.mem_singleton.mp membership, agree.wholeAbout]
  rw [all, rowsAbout_append, rowsAbout_append]
  cases scope with
  | file =>
      rw [agree.filesAbout.rowsAbout_eq, agree.namespacesAbout.rowsAbout_eq_nil (by decide),
        wholeAbout.rowsAbout_eq_nil (by decide), List.append_nil, List.append_nil]
  | namespaceTotal =>
      rw [agree.filesAbout.rowsAbout_eq_nil (by decide), agree.namespacesAbout.rowsAbout_eq,
        wholeAbout.rowsAbout_eq_nil (by decide), List.append_nil, List.nil_append]
  | projectTotal =>
      rw [agree.filesAbout.rowsAbout_eq_nil (by decide),
        agree.namespacesAbout.rowsAbout_eq_nil (by decide), wholeAbout.rowsAbout_eq,
        List.nil_append, List.nil_append]
  | solutionTotal =>
      rw [agree.filesAbout.rowsAbout_eq_nil (by decide),
        agree.namespacesAbout.rowsAbout_eq_nil (by decide), wholeAbout.rowsAbout_eq_nil (by decide),
        List.append_nil, List.append_nil]

end Agree

/-! ### The rows of several projects -/

/-- The rows about the projects of a name. -/
def partsNamed (name : String) (parts : List ProjectRows) : List ProjectRows :=
  parts.filter fun part => part.whole.projectName == name

/-- The file rows told by the name of a project are those of all projects of that name. -/
theorem filter_projectName_files {parts : List ProjectRows} (agree : ∀ part ∈ parts, part.Agree)
    (name : String) : ((parts.flatMap (·.files)).filter fun file => file.projectName == name) =
      (partsNamed name parts).flatMap (·.files) := by
  induction parts with
  | nil => rfl
  | cons head rest inductionHypothesis =>
      obtain ⟨agreeHead, agreeRest⟩ := List.forall_mem_cons.mp agree
      have further := inductionHypothesis agreeRest
      rw [List.flatMap_cons, List.filter_append, further]
      unfold partsNamed
      by_cases same : head.whole.projectName = name
      · have all : ∀ file ∈ head.files, (file.projectName == name) = true := by
          intro file membership
          rw [agreeHead.filesNamed file membership, same, BEq.rfl]
        rw [List.filter_eq_self.mpr all, List.filter_cons_of_pos (by simpa using same),
          List.flatMap_cons]
      · have noFile : ∀ file ∈ head.files, ¬(file.projectName == name) = true := by
          intro file membership
          simp [agreeHead.filesNamed file membership, same]
        rw [List.filter_eq_nil_iff.mpr noFile, List.filter_cons_of_neg (by simpa using same),
          List.nil_append]

/-! ### The rows that a project is measured to have -/

section OfRows

variable (name path : String) (rows : List Row)

def ofRows : ProjectRows where
  files := rows
  namespaces := ProjectMetrics.namespaceTotals name path rows
  whole := ProjectMetrics.projectTotal name path rows

theorem map_namespaceName_ofRows :
    (ofRows name path rows).namespaces.map (·.namespaceName) =
      ProjectMetrics.namespaceNames rows := by
  rw [ofRows, ProjectMetrics.namespaceTotals_eq_map, List.map_map]
  exact List.map_id _

variable {name path rows}

theorem eq_of_mem_namespaces_ofRows {row : Row}
    (membership : row ∈ (ofRows name path rows).namespaces) :
    row = ProjectMetrics.namespaceTotal name path rows row.namespaceName := by
  rw [ofRows, ProjectMetrics.namespaceTotals_eq_map] at membership
  obtain ⟨_, _, rfl⟩ := List.mem_map.mp membership
  rfl

theorem agree_ofRows (own : ∀ row ∈ rows, row.scope = .file ∧ row.projectName = name) :
    (ofRows name path rows).Agree where
  filesAbout row membership := (own row membership).1
  filesNamed row membership := (own row membership).2
  namespacesAbout := ProjectMetrics.namespaceTotals_allAbout name path rows
  namespacesNamed _ membership := by
    rw [eq_of_mem_namespaces_ofRows membership]
    rfl
  namespacesApart := by
    rw [map_namespaceName_ofRows]
    exact ProjectMetrics.namespaceNames_nodup rows
  namespacesCover row membership := by
    rw [map_namespaceName_ofRows]
    exact (ProjectMetrics.mem_namespaceNames rows).mpr ⟨row, membership, rfl⟩
  namespaceLines _ membership := congrArg Row.lineCount (eq_of_mem_namespaces_ofRows membership)
  namespaceComplexity _ membership :=
    congrArg Row.complexity (eq_of_mem_namespaces_ofRows membership)
  wholeAbout := rfl
  wholeLines := rfl
  wholeComplexity := rfl

end OfRows

/-! ### Duplicated lines are entered afterwards -/

section Entered

variable (duplications : List DuplicationRecord) (table : List Row)

def entered (part : ProjectRows) : ProjectRows where
  files := part.files.map (DuplicateLines.entered duplications table)
  namespaces := part.namespaces.map (DuplicateLines.entered duplications table)
  whole := DuplicateLines.entered duplications table part.whole

theorem all_entered (part : ProjectRows) :
    (part.entered duplications table).all =
      part.all.map (DuplicateLines.entered duplications table) := by
  simp [entered, all]

theorem entered_eq_of_perm {table others : List Row} (perm : table.Perm others)
    (part : ProjectRows) : part.entered duplications table = part.entered duplications others := by
  simp only [entered, DuplicateLines.entered_eq_of_perm perm]

theorem filesIn_entered (part : ProjectRows) (namespaceName : Option String) :
    (part.entered duplications table).filesIn namespaceName =
      (part.filesIn namespaceName).map (DuplicateLines.entered duplications table) := by
  rw [filesIn, entered, List.filter_map]
  rfl

theorem map_namespaceName_entered (part : ProjectRows) :
    (part.entered duplications table).namespaces.map (·.namespaceName) =
      part.namespaces.map (·.namespaceName) := by
  simp [entered, DuplicateLines.entered, Function.comp_def]

theorem Agree.entered {part : ProjectRows} (agree : part.Agree) :
    (part.entered duplications table).Agree where
  filesAbout := List.forall_mem_map.mpr agree.filesAbout
  filesNamed := List.forall_mem_map.mpr agree.filesNamed
  namespacesAbout := List.forall_mem_map.mpr agree.namespacesAbout
  namespacesNamed := List.forall_mem_map.mpr agree.namespacesNamed
  namespacesApart := by
    rw [map_namespaceName_entered]
    exact agree.namespacesApart
  namespacesCover := by
    rw [map_namespaceName_entered]
    exact List.forall_mem_map.mpr agree.namespacesCover
  namespaceLines := List.forall_mem_map.mpr fun row membership => by
    rw [filesIn_entered, DuplicateLines.lineTotal_map_entered]
    exact agree.namespaceLines row membership
  namespaceComplexity := List.forall_mem_map.mpr fun row membership => by
    rw [filesIn_entered, DuplicateLines.complexityTotal_map_entered]
    exact agree.namespaceComplexity row membership
  wholeAbout := agree.wholeAbout
  wholeLines := agree.wholeLines.trans (DuplicateLines.lineTotal_map_entered ..).symm
  wholeComplexity := agree.wholeComplexity.trans (DuplicateLines.complexityTotal_map_entered ..).symm

end Entered

end ProjectRows

end SolutionSurvey
