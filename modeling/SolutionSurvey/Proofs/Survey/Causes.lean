import SolutionSurvey.Proofs.Collection.Alike
import SolutionSurvey.Proofs.Survey.Arrangement
import SolutionSurvey.Proofs.Survey.Outcomes

/-!
# Why a survey fails

The sources are loaded at the same time.  A worker that is done with a source adds what came of it to
two lists that all workers share, one of failures and one of skipped files, so these lists come in any
order.  Still a survey fails for the same causes whatever the order is: one for each source that cannot
be loaded, unless the policy says to skip it.
-/

namespace SolutionSurvey

namespace LoadedSources

open Ownership (Owned)

/-! ### Workers that load sources -/

/-- What the workers have done so far. -/
structure Loading where
  /-- The sources that no worker is done with. -/
  waiting : List Owned
  failures : List Failure
  skipped : List String

namespace Loading

def start (sources : List Owned) : Loading := ⟨sources, [], []⟩

def Finished (loading : Loading) : Prop := loading.waiting = []

section Run

variable (come : Owned → Outcome)

/-- Some worker is done with its source. -/
inductive Step : Loading → Owned → Loading → Prop where
  | done {before after owned failures skipped} :
      Step ⟨before ++ owned :: after, failures, skipped⟩ owned
        ⟨before ++ after, failures ++ (come owned).failure?.toList,
          skipped ++ (come owned).skipped?.toList⟩

/-- The sources in the order in which workers are done with them. -/
inductive Run : Loading → List Owned → Loading → Prop where
  | stop {loading} : Run loading [] loading
  | step {first middle last owned order} :
      Step come first owned middle → Run middle order last → Run first (owned :: order) last

/-- Put together what the workers have left; the files stand in the order of their sources. -/
def conclude (projectCount : Nat) (sources : List Owned) (loading : Loading) :
    Except Failure LoadedSources :=
  match Failure.gather loading.failures with
  | some cause => .error cause
  | none =>
      let loaded := sources.filterMap fun owned => (come owned).file?
      .ok
        { files := loaded.map (·.2)
          stretches := (List.range projectCount).map (stretchOf loaded)
          skipped := loading.skipped.mergeSort (weakly compare) }

variable {come} {first second last : Loading} {owned : Owned} {order : List Owned}

theorem Step.waiting_perm (step : Step come first owned second) :
    first.waiting.Perm (owned :: second.waiting) := by
  cases step with
  | done => exact List.perm_middle

theorem Run.waiting_perm (run : Run come first order last) :
    first.waiting.Perm (order ++ last.waiting) := by
  induction run with
  | stop => exact List.Perm.refl _
  | step step _ inductionHypothesis => exact step.waiting_perm.trans (inductionHypothesis.cons _)

/-- A list to which every step adds what it brings holds in the end what all steps have brought. -/
theorem Run.collects {β : Type} {list : Loading → List β} {bring : Outcome → Option β}
    (adds : ∀ {first second owned}, Step come first owned second →
      list second = list first ++ (bring (come owned)).toList)
    (run : Run come first order last) :
    list last = list first ++ order.filterMap fun owned => bring (come owned) := by
  induction run with
  | stop => exact (List.append_nil _).symm
  | @step _ _ _ owned _ step _ inductionHypothesis =>
      rw [inductionHypothesis, adds step, List.append_assoc, List.filterMap_cons]
      cases bring (come owned) <;> rfl

theorem Run.failures_eq (run : Run come first order last) :
    last.failures = first.failures ++ order.filterMap fun owned => (come owned).failure? :=
  run.collects fun step => by cases step; rfl

theorem Run.skipped_eq (run : Run come first order last) :
    last.skipped = first.skipped ++ order.filterMap fun owned => (come owned).skipped? :=
  run.collects fun step => by cases step; rfl

variable (come) in
/-- The workers may be done in any order. -/
theorem exists_run (first : Loading) (perm : order.Perm first.waiting) :
    ∃ last, Run come first order last ∧ last.Finished := by
  induction order generalizing first with
  | nil => exact ⟨first, .stop, perm.nil_eq.symm⟩
  | cons owned order inductionHypothesis =>
      obtain ⟨waiting, failures, skipped⟩ := first
      obtain ⟨before, after, rfl⟩ := List.append_of_mem (perm.subset List.mem_cons_self)
      have rest : order.Perm (before ++ after) := (perm.trans List.perm_middle).cons_inv
      obtain ⟨last, run, finished⟩ := inductionHypothesis
        ⟨before ++ after, failures ++ (come owned).failure?.toList,
          skipped ++ (come owned).skipped?.toList⟩ rest
      exact ⟨last, .step .done run, finished⟩

variable {sources : List Owned} (run : Run come (start sources) order last)
  (finished : last.Finished)

include run finished

theorem perm_of_finished : order.Perm sources := by
  have all := run.waiting_perm
  rw [finished, List.append_nil] at all
  exact all.symm

theorem failures_perm :
    last.failures.Perm (sources.filterMap fun owned => (come owned).failure?) := by
  rw [run.failures_eq]
  exact (perm_of_finished run finished).filterMap _

theorem skipped_perm :
    last.skipped.Perm (sources.filterMap fun owned => (come owned).skipped?) := by
  rw [run.skipped_eq]
  exact (perm_of_finished run finished).filterMap _

theorem conclude_eq_ok_iff {projectCount : Nat} {result : LoadedSources} :
    conclude come projectCount sources last = .ok result ↔
      ofOutcomes projectCount (sources.map come) = .ok result := by
  have noFailure : Failure.gather last.failures = none ↔
      ∀ outcome ∈ sources.map come, outcome.failure? = none := by
    rw [Failure.gather_eq_none_iff, List.forall_mem_map, ← List.filterMap_eq_nil_iff]
    exact ⟨fun none => (none ▸ failures_perm run finished).nil_eq.symm,
      fun none => (none ▸ failures_perm run finished).eq_nil⟩
  have skipped : last.skipped.mergeSort (weakly compare) =
      ((sources.map come).filterMap Outcome.skipped?).mergeSort (weakly compare) := by
    rw [List.filterMap_map]
    exact mergeSort_eq_of_perm (skipped_perm run finished)
  rw [ofOutcomes_eq_ok_iff, ← noFailure, conclude]
  cases Failure.gather last.failures with
  | none => simp [gathered, skipped, List.filterMap_map, eq_comm]
  | some cause => simp

end Run

end Loading

/-! ### The causes of a failure -/

/-- A source cannot be loaded, and the policy does not say to skip it. -/
structure Stops (read : TreeReader) (tree : FileTree) (settings : Settings)
    (projects : List Project) (owned : Owned) (cause : Failure) : Prop where
  fails : SourceFile.load read tree (projectName projects owned.owner) owned.path = .error cause
  fatal : settings.brokenFiles = .skip → ∀ path flaw, cause ≠ .unparsable path flaw

theorem Outcome.failure?_ofFailure {brokenFiles : BrokenFiles} {known cause : Failure} :
    (ofFailure brokenFiles known).failure? = some cause ↔
      known = cause ∧ (brokenFiles = .skip → ∀ path flaw, cause ≠ .unparsable path flaw) := by
  cases known with
  | unparsable path flaw =>
      cases brokenFiles with
      | skip =>
          simp only [ofFailure, failure?, reduceCtorEq, false_iff, not_and]
          rintro rfl fatal
          exact fatal trivial path flaw rfl
      | abort => simp [ofFailure, failure?]
  | notFound path => simp +contextual [ofFailure, failure?, eq_comm]
  | noGrammar reason => simp +contextual [ofFailure, failure?, eq_comm]
  | several causes => simp +contextual [ofFailure, failure?, eq_comm]
  | access problem => simp +contextual [ofFailure, failure?, eq_comm]

section Stopping

variable {read : TreeReader} {tree : FileTree} {settings : Settings} {projects : List Project}
  {owned : Owned} {cause : Failure}

theorem failure?_outcome :
    (outcome read tree settings projects owned).failure? = some cause ↔
      Stops read tree settings projects owned cause := by
  unfold outcome
  cases loaded : SourceFile.load read tree (projectName projects owned.owner) owned.path with
  | ok file =>
      constructor
      · intro failed
        cases failed
      · intro stops
        cases loaded.symm.trans stops.fails
  | error known =>
      rw [Outcome.failure?_ofFailure]
      constructor
      · rintro ⟨rfl, fatal⟩
        exact ⟨loaded, fatal⟩
      · intro stops
        exact ⟨Except.error.inj (loaded.symm.trans stops.fails), stops.fatal⟩

variable (read tree settings projects) in
/-- The sources that stop a survey, each with its cause. -/
def stopping : List (Owned × Failure) :=
  (Ownership.assign tree settings projects).filterMap fun owned =>
    ((outcome read tree settings projects owned).failure?).map fun cause => (owned, cause)

theorem mem_stopping :
    (owned, cause) ∈ stopping read tree settings projects ↔
      owned ∈ Ownership.assign tree settings projects ∧
        Stops read tree settings projects owned cause := by
  simp only [stopping, List.mem_filterMap, Option.map_eq_some_iff, Prod.mk.injEq, failure?_outcome]
  constructor
  · rintro ⟨_, assigned, _, stops, rfl, rfl⟩
    exact ⟨assigned, stops⟩
  · rintro ⟨assigned, stops⟩
    exact ⟨owned, assigned, cause, stops, rfl, rfl⟩

theorem stopping_apart :
    ((stopping read tree settings projects).map (·.1.path.components)).Nodup := by
  have apart := List.pairwise_map.mp (Ownership.settles_assign.apart : List.Nodup
    ((Ownership.assign tree settings projects).map (·.path.components)))
  apply List.pairwise_map.mpr
  apply List.pairwise_filterMap.mpr
  apply apart.imp
  intro first second different entry isEntry other isOther
  obtain ⟨_, _, rfl⟩ := Option.map_eq_some_iff.mp isEntry
  obtain ⟨_, _, rfl⟩ := Option.map_eq_some_iff.mp isOther
  exact different

theorem map_stopping :
    (stopping read tree settings projects).map (·.2) =
      (Ownership.assign tree settings projects).filterMap fun owned =>
        (outcome read tree settings projects owned).failure? := by
  rw [stopping, List.map_filterMap]
  simp only [Option.map_map, Function.comp_def, Option.map_id_fun', id]

end Stopping

/-- What the sources that stop a survey do to it: one makes it fail with its own cause, several with
all of their causes, and without any it succeeds. -/
structure EndsFor {α : Type} (stopping : List (Owned × Failure)) (result : Except Failure α) :
    Prop where
  fails : (∃ cause, result = .error cause) ↔ ∃ entry, entry ∈ stopping
  alone : ∀ entry, stopping = [entry] → result = .error entry.2
  together : 2 ≤ stopping.length → ∃ causes,
    result = .error (.several causes) ∧ causes.Perm (stopping.map (·.2))

theorem gather_of_many {causes : List Failure} (many : 2 ≤ causes.length) :
    Failure.gather causes = some (.several causes) := by
  rcases causes with _ | ⟨first, _ | ⟨second, rest⟩⟩
  · simp at many
  · simp at many
  · rfl

/-- The causes may have been collected in any order. -/
theorem endsFor_of_gather {α : Type} {stopping : List (Owned × Failure)} {causes : List Failure}
    {result : Except Failure α} (perm : causes.Perm (stopping.map (·.2)))
    (failed : ∀ cause, Failure.gather causes = some cause → result = .error cause)
    (done : Failure.gather causes = none → ∃ value, result = .ok value) :
    EndsFor stopping result := by
  rcases stopping with _ | ⟨entry, _ | ⟨second, rest⟩⟩
  · obtain rfl := perm.eq_nil
    obtain ⟨value, rfl⟩ := done rfl
    exact ⟨by simp, by simp, by simp⟩
  · obtain rfl := List.perm_singleton.mp perm
    have stopped := failed entry.2 rfl
    exact ⟨by simp [stopped], by simp [stopped], by simp⟩
  · have many : 2 ≤ causes.length := by simp [perm.length_eq]
    have stopped := failed _ (gather_of_many many)
    exact ⟨by simp [stopped], by simp, fun _ => ⟨causes, stopped, perm⟩⟩

end LoadedSources

/-! ### The whole survey -/

namespace Survey

open LoadedSources (Loading Stops EndsFor stopping outcome)
open Ownership (assign)

section Workers

variable (read : TreeReader) (tree : FileTree) (settings : Settings) (solution : Solution)

/-- The workers are done with all sources of a solution, in this order. -/
def DoneInOrder (order : List Ownership.Owned) (last : Loading) : Prop :=
  Loading.Run (outcome read tree settings solution.projects)
    (.start (assign tree settings solution.projects)) order last ∧ last.Finished

/-- The survey that is made of what the workers have left. -/
def concluded (last : Loading) : Except Failure Report :=
  (last.conclude (outcome read tree settings solution.projects) solution.projects.length
    (assign tree settings solution.projects)).map (report read settings solution)

end Workers

/-- A survey fails for the sources that stop it, for each of them just once and for nothing else, and
in whichever order the workers are done. -/
structure FailsForCauses (read : TreeReader) (tree : FileTree) (settings : Settings)
    (solution : Solution) : Prop where
  sources : ∀ owned cause, (owned, cause) ∈ stopping read tree settings solution.projects ↔
    owned ∈ assign tree settings solution.projects ∧
      Stops read tree settings solution.projects owned cause
  once : ((stopping read tree settings solution.projects).map (·.1.path.components)).Nodup
  ends : EndsFor (stopping read tree settings solution.projects) (run read tree settings solution)
  spares : settings.brokenFiles = .skip → ∀ path flaw,
    .unparsable path flaw ∉ (stopping read tree settings solution.projects).map (·.2)
  anyOrder : ∀ order, (∃ last, DoneInOrder read tree settings solution order last) ↔
    order.Perm (assign tree settings solution.projects)
  endsInOrder : ∀ order last, DoneInOrder read tree settings solution order last →
    EndsFor (stopping read tree settings solution.projects)
      (concluded read tree settings solution last)
  sameReport : ∀ order last, DoneInOrder read tree settings solution order last → ∀ report,
    concluded read tree settings solution last = .ok report ↔
      run read tree settings solution = .ok report

section Result

variable {read : TreeReader} {tree : FileTree} {settings : Settings} {solution : Solution}
  {order : List Ownership.Owned} {last : Loading}

theorem endsFor_concluded (done : DoneInOrder read tree settings solution order last) :
    EndsFor (stopping read tree settings solution.projects)
      (concluded read tree settings solution last) := by
  have perm := Loading.failures_perm done.1 done.2
  rw [← LoadedSources.map_stopping] at perm
  apply LoadedSources.endsFor_of_gather perm
  · intro cause gathered
    simp [concluded, Loading.conclude, gathered, Except.map]
  · intro gathered
    simp [concluded, Loading.conclude, gathered, Except.map]

variable (read tree settings solution) in
theorem exists_doneInOrder (perm : order.Perm (assign tree settings solution.projects)) :
    ∃ last, DoneInOrder read tree settings solution order last :=
  Loading.exists_run _ (.start (assign tree settings solution.projects)) perm

theorem concluded_eq_run
    (done : DoneInOrder read tree settings solution (assign tree settings solution.projects) last) :
    concluded read tree settings solution last = run read tree settings solution := by
  have failures := done.1.failures_eq
  have skipped := done.1.skipped_eq
  rw [concluded, run, LoadedSources.load, LoadedSources.ofOutcomes, Loading.conclude, failures,
    skipped, List.filterMap_map, List.filterMap_map, List.filterMap_map]
  rfl

theorem concluded_eq_ok_iff (done : DoneInOrder read tree settings solution order last)
    {outcome : Report} :
    concluded read tree settings solution last = .ok outcome ↔
      run read tree settings solution = .ok outcome := by
  have loads : ∀ sources, last.conclude _ _ _ = .ok sources ↔
      LoadedSources.load read tree settings solution.projects = .ok sources :=
    fun _ => Loading.conclude_eq_ok_iff done.1 done.2
  simp only [concluded, run, map_eq_ok_iff, loads]

/-- What makes a survey fail is told by its sources alone. -/
theorem failsForCauses (read : TreeReader) (tree : FileTree) (settings : Settings)
    (solution : Solution) : FailsForCauses read tree settings solution where
  sources owned cause := LoadedSources.mem_stopping
  once := LoadedSources.stopping_apart
  ends := by
    obtain ⟨last, done⟩ := exists_doneInOrder read tree settings solution (List.Perm.refl _)
    exact concluded_eq_run done ▸ endsFor_concluded done
  spares skip path flaw membership := by
    obtain ⟨⟨owned, _⟩, stopping, rfl⟩ := List.mem_map.mp membership
    exact (LoadedSources.mem_stopping.mp stopping).2.fatal skip path flaw rfl
  anyOrder order := by
    constructor
    · rintro ⟨last, done⟩
      exact Loading.perm_of_finished done.1 done.2
    · exact exists_doneInOrder read tree settings solution
  endsInOrder order last done := endsFor_concluded done
  sameReport order last done report := concluded_eq_ok_iff done

end Result

end Survey

end SolutionSurvey
