import SolutionSurvey.Duplication
import SolutionSurvey.Proofs.Duplication.Detector

/-!
# Workers that record blocks

The methods of all files are worked on at the same time, each by a worker of its own that records
the blocks of its method in order.  To record one block is one step; between two steps any worker
may be next.  A run is a sequence of such steps, and it keeps the blocks of every worker in order.
-/

namespace SolutionSurvey.Duplication

abbrev HashedBlock := String × Occurrence

/-- Workers that share a detector. -/
structure Recording where
  detector : Detector
  /-- What each worker has still to record. -/
  workers : List (List HashedBlock)

/-- The blocks that each worker has to record, one worker for each method. -/
def workersOf (files : List SourceFile) : List (List HashedBlock) :=
  files.flatMap fun file => (methodsOf file).map (blocksOf file)

namespace Recording

def start (files : List SourceFile) : Recording := ⟨Detector.empty, workersOf files⟩

/-- One of the workers records the next one of its blocks. -/
def Step (first : Recording) (block : HashedBlock) (second : Recording) : Prop :=
  ∃ before rest after, first.workers = before ++ (block :: rest) :: after ∧
    second = ⟨first.detector.record block.1 block.2, before ++ rest :: after⟩

/-- The blocks that are recorded on the way from one state to another, in the order of the steps. -/
inductive Run : Recording → List HashedBlock → Recording → Prop where
  | stop {recording} : Run recording [] recording
  | step {first middle last block blocks} :
      Step first block middle → Run middle blocks last → Run first (block :: blocks) last

def Finished (recording : Recording) : Prop := ∀ worker ∈ recording.workers, worker = []

end Recording

/-! ### What a run keeps -/

theorem flatten_workersOf (files : List SourceFile) :
    (workersOf files).flatten = files.flatMap blocksIn := by
  induction files with
  | nil => rfl
  | cons head rest inductionHypothesis =>
      change ((methodsOf head).map (blocksOf head) ++ workersOf rest).flatten = _
      rw [List.flatten_append, inductionHypothesis, ← List.flatMap_def]
      rfl

namespace Recording

theorem Finished.flatten_eq {recording : Recording} (finished : recording.Finished) :
    recording.workers.flatten = [] :=
  List.flatten_eq_nil_iff.mpr finished

theorem Step.perm {first second : Recording} {block : HashedBlock} (step : Step first block second) :
    first.workers.flatten.Perm (block :: second.workers.flatten) := by
  obtain ⟨before, rest, after, workers, rfl⟩ := step
  rw [workers, List.flatten_append, List.flatten_cons, List.cons_append]
  refine List.perm_middle.trans (List.Perm.cons block ?_)
  rw [List.flatten_append, List.flatten_cons]

theorem Run.perm {first last : Recording} {blocks : List HashedBlock} (run : Run first blocks last) :
    first.workers.flatten.Perm (blocks ++ last.workers.flatten) := by
  induction run with
  | stop => rfl
  | step step _ inductionHypothesis => exact step.perm.trans (inductionHypothesis.cons _)

theorem Run.perm_of_finished {first last : Recording} {blocks : List HashedBlock}
    (run : Run first blocks last) (finished : last.Finished) :
    blocks.Perm first.workers.flatten := by
  have kept := run.perm
  rw [finished.flatten_eq, List.append_nil] at kept
  exact kept.symm

theorem Run.detector_eq {first last : Recording} {blocks : List HashedBlock}
    (run : Run first blocks last) : last.detector = first.detector.recordAll blocks := by
  induction run with
  | stop => rfl
  | step step _ inductionHypothesis =>
      obtain ⟨before, rest, after, _, rfl⟩ := step
      exact inductionHypothesis

theorem Run.tracks {files : List SourceFile} {blocks : List HashedBlock} {last : Recording}
    (run : Run (start files) blocks last) : Detector.Tracks last.detector blocks := by
  rw [run.detector_eq]
  exact Detector.tracks_empty.recordAll blocks

theorem Run.append {first middle last : Recording} {blocks more : List HashedBlock}
    (run : Run first blocks middle) (further : Run middle more last) :
    Run first (blocks ++ more) last := by
  induction run with
  | stop => exact further
  | step step _ inductionHypothesis => exact .step step (inductionHypothesis further)

/-! ### Runs that exist -/

/-- A worker may record a stretch of its blocks while all others wait. -/
theorem run_worker (detector : Detector) (before after : List (List HashedBlock))
    (blocks rest : List HashedBlock) :
    Run ⟨detector, before ++ (blocks ++ rest) :: after⟩ blocks
      ⟨detector.recordAll blocks, before ++ rest :: after⟩ := by
  induction blocks generalizing detector with
  | nil => exact .stop
  | cons block blocks inductionHypothesis =>
      exact .step ⟨before, blocks ++ rest, after, rfl, rfl⟩ (inductionHypothesis _)

theorem run_first (detector : Detector) (before between after : List (List HashedBlock))
    (own rest others remaining : List HashedBlock) :
    Run ⟨detector, before ++ (own ++ rest) :: (between ++ (others ++ remaining) :: after)⟩
      (own ++ others)
      ⟨detector.recordAll (own ++ others), before ++ rest :: (between ++ remaining :: after)⟩ := by
  have first := run_worker detector before (between ++ (others ++ remaining) :: after) own rest
  have second := run_worker (detector.recordAll own) (before ++ rest :: between) after others
    remaining
  rw [List.append_assoc, List.cons_append, List.append_assoc, List.cons_append,
    ← Detector.recordAll_append] at second
  exact first.append second

theorem run_second (detector : Detector) (before between after : List (List HashedBlock))
    (own rest others remaining : List HashedBlock) :
    Run ⟨detector, before ++ (own ++ rest) :: (between ++ (others ++ remaining) :: after)⟩
      (others ++ own)
      ⟨detector.recordAll (others ++ own), before ++ rest :: (between ++ remaining :: after)⟩ := by
  have second := run_worker detector (before ++ (own ++ rest) :: between) after others remaining
  have first := run_worker (detector.recordAll others) before (between ++ remaining :: after) own
    rest
  rw [List.append_assoc, List.cons_append, List.append_assoc, List.cons_append] at second
  rw [← Detector.recordAll_append] at first
  exact second.append first

theorem run_inOrder (detector : Detector) (done workers : List (List HashedBlock)) :
    Run ⟨detector, done ++ workers⟩ workers.flatten
      ⟨detector.recordAll workers.flatten, done ++ workers.map fun _ => []⟩ := by
  induction workers generalizing detector done with
  | nil => simpa [Detector.recordAll] using Run.stop
  | cons worker others inductionHypothesis =>
      have own := run_worker detector done others worker []
      have further := inductionHypothesis (detector.recordAll worker) (done ++ [[]])
      rw [List.append_nil] at own
      rw [List.append_assoc, List.append_assoc, ← Detector.recordAll_append] at further
      exact own.append further

theorem exists_finished (recording : Recording) :
    ∃ last, Run recording recording.workers.flatten last ∧ last.Finished :=
  ⟨_, run_inOrder recording.detector [] recording.workers, by simp [Finished]⟩

end Recording

end SolutionSurvey.Duplication
