import SolutionSurvey.Proofs.Dependency.Session

/-!
# The ends of a relation

The target of a relation has been found in the catalog; its source is a declaration that was worked
on, whether it was collected or not.  So a relation dangles just if its source was not collected.
-/

namespace SolutionSurvey.Dependency.Session

open Round
open References (LeadsTo)

/-- The declarations from which relations go out are among those collected. -/
def SourcesCollected (files : List SourceFile) (references : List References) : Prop :=
  ∀ one ∈ references, ∀ relation, LeadsTo (Catalog.ofFiles files) one relation →
    Declared files one.declaration.qualifiedName

/-- No relation has an end outside of the catalog, unless its source was not collected. -/
structure EndsInCatalog (files : List SourceFile) (references : List References)
    (relations : List Relation) : Prop where
  target : ∀ relation ∈ relations, (Catalog.ofFiles files).contains relation.target
  both_iff : (∀ relation ∈ relations, (Catalog.ofFiles files).contains relation.source ∧
    (Catalog.ofFiles files).contains relation.target) ↔ SourcesCollected files references
  ofCollected : (∀ one ∈ references, ∃ file ∈ files, one ∈ References.inFile file) →
    SourcesCollected files references

theorem Round.Lists.endsInCatalog {files : List SourceFile} {references : List References}
    {relations : List Relation} (lists : Lists files references relations) :
    EndsInCatalog files references relations := by
  have target : ∀ relation ∈ relations, (Catalog.ofFiles files).contains relation.target := by
    intro relation listed
    exact Catalog.contains_ofFiles.mpr (lists.target relation listed).1
  refine ⟨target, ⟨?_, ?_⟩, ?_⟩
  · intro both one isOne relation leads
    have listed := (lists.mem_iff relation).mpr ⟨one, isOne, leads⟩
    rw [← leads.source]
    exact Catalog.contains_ofFiles.mp (both relation listed).1
  · intro collected relation listed
    obtain ⟨one, isOne, leads⟩ := (lists.mem_iff relation).mp listed
    refine ⟨?_, target relation listed⟩
    rw [leads.source]
    exact Catalog.contains_ofFiles.mpr (collected one isOne relation leads)
  · intro fromFiles one isOne _ _
    obtain ⟨file, listed, inFile⟩ := fromFiles one isOne
    exact declared_of_mem_referencesInFile listed inFile

/-- Whenever relations are taken from a session, their targets are in its catalog, and their sources
are just if they were collected. -/
theorem endsInCatalog_of_run {past later : List (Step × Answer)} {relations : List Relation}
    {last : Session} (run : Run start (past ++ (.relations, .relations relations) :: later) last) :
    ∃ files references known, since past = .resolving files references ∧
      Run start past (.resolving (Catalog.ofFiles files) known) ∧
      EndsInCatalog files references relations := by
  obtain ⟨before, _, reached, does, _⟩ := run.exists_step
  have holds := tracks_of_run reached
  have answers := (holds.does does).2
  generalize given : since past = round at holds answers
  cases holds with
  | collecting => cases answers
  | resolving lists =>
      obtain ⟨found, same, listed⟩ := answers
      cases same
      exact ⟨_, _, _, rfl, reached, listed.endsInCatalog⟩

/-- The classes worked on are those collected. -/
theorem derived_endsInCatalog :
    let past : List (Step × Answer) :=
      [(.collect [derived], .done), (.freeze, .frozen 2 false), (.resolve [derived], .done)]
    Run start (past ++ [(.relations, .relations [⟨"A", "B", "A.cs", 1⟩])]) start ∧
      ∃ files references known, since past = .resolving files references ∧
        Run start past (.resolving (Catalog.ofFiles files) known) ∧
        EndsInCatalog files references [⟨"A", "B", "A.cs", 1⟩] := by
  intro past
  have run : Run start (past ++ [(.relations, .relations [⟨"A", "B", "A.cs", 1⟩])]) start :=
    run_of_eq [.collect [derived], .freeze, .resolve [derived], .relations]
      [.done, .frozen 2 false, .done, .relations [⟨"A", "B", "A.cs", 1⟩]]
      (by decide +kernel) (by decide +kernel)
  exact ⟨run, endsInCatalog_of_run run⟩

/-- A class that was not collected is derived from one that was. -/
theorem stray_dangles :
    let resolver := resolving (Catalog.ofNames ["B"]) [⟨"A", "B", "A.cs", 1⟩]
    Run start
        [ (.collect [fileOf "B.cs" [bareClass "B"]], .done), (.freeze, .frozen 1 false)
        , (.resolve [fileOf "A.cs" [derivedClass "A" "B"]], .done) ] resolver ∧
      resolver.step .relations = (start, .relations [⟨"A", "B", "A.cs", 1⟩]) ∧
      ¬ (Catalog.ofNames ["B"]).contains "A" := by
  intro resolver
  have run : Run start _ resolver :=
    run_of_eq
      [ .collect [fileOf "B.cs" [bareClass "B"]], .freeze
      , .resolve [fileOf "A.cs" [derivedClass "A" "B"]] ]
      [.done, .frozen 1 false, .done] (by decide +kernel) (by decide +kernel)
  exact ⟨run, rfl, by decide⟩

end SolutionSurvey.Dependency.Session
