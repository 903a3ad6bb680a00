import SolutionSurvey.Proofs.Collection.Rearrangement
import SolutionSurvey.Proofs.Duplication.Groups

/-!
# When the groups do not depend on the turns

Members are put in order by file, line and method.  Sorting keeps members that agree in these as
they were recorded, so the turns of the workers show if such members belong to different methods and
reach over different numbers of lines.  This is the only way in which they show.
-/

namespace SolutionSurvey

theorem Occurrence.eq_of_order_eq {left right : Occurrence} (tie : left.order right = .eq)
    (lines : left.lineCount = right.lineCount) : left = right := by
  obtain ⟨files, rest⟩ := Ordering.then_eq_eq.mp tie
  obtain ⟨starts, methods⟩ := Ordering.then_eq_eq.mp rest
  obtain ⟨file, method, start, count⟩ := left
  obtain ⟨otherFile, otherMethod, otherStart, otherCount⟩ := right
  obtain rfl : file = otherFile := Std.LawfulEqOrd.eq_of_compare files
  obtain rfl : start = otherStart := Std.LawfulEqOrd.eq_of_compare starts
  obtain rfl : method = otherMethod := Std.LawfulEqOrd.eq_of_compare methods
  obtain rfl : count = otherCount := lines
  rfl

namespace Duplication

/-- All ways to go through some files end with the same groups. -/
def Reproducible (files : List SourceFile) : Prop :=
  ∀ {steps last entries steps' last' entries'},
    (Recording.start files).Run steps last → last.Finished → entries.Perm last.detector →
    (Recording.start files).Run steps' last' → last'.Finished → entries'.Perm last'.detector →
    Detector.groups entries = Detector.groups entries'

/-- Blocks of different workers that share a hash, a file, a line and the name of the method reach
over equally many lines. -/
def Unambiguous (workers : List (List HashedBlock)) : Prop :=
  workers.Pairwise fun worker other => ∀ block ∈ worker, ∀ further ∈ other,
    block.1 = further.1 → block.2.order further.2 = .eq →
      block.2.lineCount = further.2.lineCount

def rivals (hash : String) (place : Occurrence) (blocks : List HashedBlock) : List HashedBlock :=
  blocks.filter fun block => block.1 == hash && place.order block.2 == .eq

theorem map_snd_rivals (hash : String) (place : Occurrence) (blocks : List HashedBlock) :
    (rivals hash place blocks).map (·.2) =
      tiedWith Occurrence.order place (Detector.placesWith hash blocks) := by
  rw [rivals, tiedWith, Detector.placesWith, List.filter_map, List.filter_filter]
  congr 1
  refine List.filter_congr fun block _ => ?_
  rw [Bool.and_comm]
  rfl

theorem rivals_append (hash : String) (place : Occurrence) (first second : List HashedBlock) :
    rivals hash place (first ++ second) = rivals hash place first ++ rivals hash place second :=
  List.filter_append first second

theorem rivals_pair {block further : HashedBlock} (sameHash : block.1 = further.1)
    (tie : block.2.order further.2 = .eq) :
    rivals block.1 block.2 [block, further] = [block, further] ∧
      rivals block.1 block.2 [further, block] = [further, block] := by
  have tieSelf : block.2.order block.2 = .eq := order_self block.2
  simp [rivals, sameHash, tie, tieSelf]

/-! ### What the groups show of the order of recording -/

/-- From the groups it can be seen in which order blocks were recorded that the sorting does not
tell apart. -/
theorem tiedWith_eq_of_groups_eq {detector other : Detector} {blocks further : List HashedBlock}
    (tracks : Detector.Tracks detector blocks) (tracksOther : Detector.Tracks other further)
    (perm : blocks.Perm further) {entries others : List (String × Sighting)}
    (listed : entries.Perm detector) (listedOther : others.Perm other)
    (same : Detector.groups entries = Detector.groups others) (hash : String) (place : Occurrence) :
    tiedWith Occurrence.order place (Detector.placesWith hash blocks) =
      tiedWith Occurrence.order place (Detector.placesWith hash further) := by
  by_cases several : 2 ≤ (Detector.placesWith hash blocks).length
  · let found := Detector.group hash (Detector.placesWith hash blocks)
    have grouped : found ∈ Detector.groups entries :=
      (tracks.mem_groups listed).mpr ⟨several, rfl⟩
    have regrouped : found = Detector.group hash (Detector.placesWith hash further) :=
      ((tracksOther.mem_groups listedOther).mp (same ▸ grouped)).2
    have members := congrArg DuplicationGroup.members regrouped
    rw [Detector.members_group, Detector.members_group] at members
    have sorted := List.map_injective_iff.mpr (DuplicationRecord.ofOccurrence_injective hash) members
    rw [← tiedWith_mergeSort, sorted, tiedWith_mergeSort]
  · -- There is no group for the hash, but a single occurrence has no order to show.
    rw [eq_of_perm_of_few (Detector.placesWith_perm perm hash) (by omega)]

/-- Nothing else can be seen from the groups. -/
theorem groups_eq_of_tiedWith_eq {detector other : Detector} {blocks further : List HashedBlock}
    (tracks : Detector.Tracks detector blocks) (tracksOther : Detector.Tracks other further)
    (perm : blocks.Perm further) {entries others : List (String × Sighting)}
    (listed : entries.Perm detector) (listedOther : others.Perm other)
    (agree : ∀ hash place, tiedWith Occurrence.order place (Detector.placesWith hash blocks) =
      tiedWith Occurrence.order place (Detector.placesWith hash further)) :
    Detector.groups entries = Detector.groups others := by
  have sameGroup : ∀ hash, Detector.group hash (Detector.placesWith hash blocks) =
      Detector.group hash (Detector.placesWith hash further) := by
    intro hash
    have sorted : (Detector.placesWith hash blocks).mergeSort (weakly Occurrence.order) =
        (Detector.placesWith hash further).mergeSort (weakly Occurrence.order) := by
      refine Sorted.eq_of_tiedWith_eq (sorted_mergeSort _) (sorted_mergeSort _) fun place => ?_
      rw [tiedWith_mergeSort, tiedWith_mergeSort, agree]
    unfold Detector.group
    rw [sorted]
  refine Ascending.eq_of_mem_iff (tracks.ascending_groups listed)
    (tracksOther.ascending_groups listedOther) fun found => ?_
  rw [tracks.mem_groups listed, tracksOther.mem_groups listedOther, sameGroup,
    (Detector.placesWith_perm perm found.hash).length_eq]

/-! ### Runs of workers that agree -/

namespace Recording

/-- Accepted blocks of different workers are one and the same. -/
def Agree (accept : HashedBlock → Bool) (workers : List (List HashedBlock)) : Prop :=
  workers.Pairwise fun worker other => ∀ block ∈ worker, ∀ further ∈ other,
    accept block → accept further → block = further

variable {accept : HashedBlock → Bool} {before after : List (List HashedBlock)}
  {block : HashedBlock} {rest : List HashedBlock}

theorem Agree.step (agree : Agree accept (before ++ (block :: rest) :: after)) :
    Agree accept (before ++ rest :: after) := by
  obtain ⟨agreeBefore, agreeLater, across⟩ := List.pairwise_append.mp agree
  obtain ⟨own, agreeAfter⟩ := List.pairwise_cons.mp agreeLater
  refine List.pairwise_append.mpr ⟨agreeBefore, List.pairwise_cons.mpr ⟨?_, agreeAfter⟩, ?_⟩
  · intro other inAfter found inRest
    exact own other inAfter found (List.mem_cons_of_mem block inRest)
  · intro worker inBefore other inLater found inWorker further inOther
    rcases List.mem_cons.mp inLater with rfl | inAfter
    · exact across worker inBefore _ List.mem_cons_self found inWorker further
        (List.mem_cons_of_mem block inOther)
    · exact across worker inBefore other (List.mem_cons_of_mem _ inAfter) found inWorker further
        inOther

/-- A block that is recorded out of turn is one of those whose turn it is. -/
theorem Agree.filter_flatten (agree : Agree accept (before ++ (block :: rest) :: after)) :
    (before ++ (block :: rest) :: after).flatten.filter accept =
      (block :: (before ++ rest :: after).flatten).filter accept := by
  by_cases accepted : accept block
  · have alike : ∀ further ∈ before.flatten.filter accept, further = block := by
      intro further membership
      obtain ⟨inFlatten, acceptedToo⟩ := List.mem_filter.mp membership
      obtain ⟨worker, inBefore, inWorker⟩ := List.mem_flatten.mp inFlatten
      exact (List.pairwise_append.mp agree).2.2 worker inBefore _ List.mem_cons_self further
        inWorker block List.mem_cons_self acceptedToo accepted
    -- Equal blocks in front of the recorded one may be exchanged with it.
    have repeated := List.eq_replicate_of_mem alike
    simp only [List.flatten_append, List.flatten_cons, List.cons_append, List.filter_append,
      List.filter_cons_of_pos accepted]
    rw [repeated, ← List.singleton_append, ← List.append_assoc, ← List.replicate_succ',
      List.replicate_succ, List.cons_append]
  · simp [accepted]

theorem Run.filter_eq {first last : Recording} {blocks : List HashedBlock}
    (run : Run first blocks last) (agree : Agree accept first.workers) :
    first.workers.flatten.filter accept = (blocks ++ last.workers.flatten).filter accept := by
  induction run with
  | stop => rfl
  | @step _ _ _ block _ step _ inductionHypothesis =>
      obtain ⟨before, rest, after, workers, rfl⟩ := step
      rw [workers] at agree ⊢
      rw [agree.filter_flatten, List.cons_append, List.filter_cons, List.filter_cons,
        inductionHypothesis agree.step]

end Recording

theorem Unambiguous.agree {workers : List (List HashedBlock)} (unambiguous : Unambiguous workers)
    (hash : String) (place : Occurrence) :
    Recording.Agree (fun block => block.1 == hash && place.order block.2 == .eq) workers := by
  refine unambiguous.imp ?_
  intro worker other tied block inWorker further inOther accepted acceptedToo
  simp only [Bool.and_eq_true, beq_iff_eq] at accepted acceptedToo
  have sameHash : block.1 = further.1 := accepted.1.trans acceptedToo.1.symm
  have tie : block.2.order further.2 = .eq :=
    Std.TransCmp.eq_trans (Std.OrientedCmp.eq_symm accepted.2) acceptedToo.2
  have lines := tied block inWorker further inOther sameHash tie
  exact Prod.ext sameHash (Occurrence.eq_of_order_eq tie lines)

/-! ### Runs in which two workers race -/

namespace Recording

/-- Two blocks of different workers may be recorded one right after the other, and that either way
round. -/
theorem exists_runs_either_way (detector : Detector) {workers : List (List HashedBlock)}
    {worker other : List HashedBlock} (apart : [worker, other].Sublist workers)
    {block further : HashedBlock} (inWorker : block ∈ worker) (inOther : further ∈ other) :
    ∃ earlier later last last',
      Run ⟨detector, workers⟩ (earlier ++ ([block, further] ++ later)) last ∧ last.Finished ∧
      Run ⟨detector, workers⟩ (earlier ++ ([further, block] ++ later)) last' ∧ last'.Finished := by
  obtain ⟨front, back, rfl, inFront, restApart⟩ := List.cons_sublist_iff.mp apart
  obtain ⟨before, behind, rfl⟩ := List.append_of_mem inFront
  obtain ⟨ahead, after, rfl⟩ := List.append_of_mem (List.singleton_sublist.mp restApart)
  obtain ⟨own, rest, rfl⟩ := List.append_of_mem inWorker
  obtain ⟨others, remaining, rfl⟩ := List.append_of_mem inOther
  have ready := run_first detector before (behind ++ ahead) after own (block :: rest) others
    (further :: remaining)
  have forwards := run_first (detector.recordAll (own ++ others)) before (behind ++ ahead) after
    [block] rest [further] remaining
  have backwards := run_second (detector.recordAll (own ++ others)) before (behind ++ ahead) after
    [block] rest [further] remaining
  obtain ⟨last, ending, finished⟩ := exists_finished
    ⟨_, before ++ rest :: ((behind ++ ahead) ++ remaining :: after)⟩
  obtain ⟨last', ending', finished'⟩ := exists_finished
    ⟨_, before ++ rest :: ((behind ++ ahead) ++ remaining :: after)⟩
  refine ⟨own ++ others, (before ++ rest :: ((behind ++ ahead) ++ remaining :: after)).flatten,
    last, last', ?_, finished, ?_, finished'⟩
  · simpa using ready.append (forwards.append ending)
  · simpa using ready.append (backwards.append ending')

end Recording

/-! ### Reproducible groups -/

/-- If the groups do not show which of two blocks came first, the blocks reach over equally many
lines or can be told apart. -/
theorem lineCount_eq_of_groups_eq {files : List SourceFile} {earlier later : List HashedBlock}
    {block further : HashedBlock} {last last' : Recording}
    (run : (Recording.start files).Run (earlier ++ ([block, further] ++ later)) last)
    (run' : (Recording.start files).Run (earlier ++ ([further, block] ++ later)) last')
    (same : Detector.groups last.detector = Detector.groups last'.detector)
    (sameHash : block.1 = further.1) (tie : block.2.order further.2 = .eq) :
    block.2.lineCount = further.2.lineCount := by
  have perm : (earlier ++ ([block, further] ++ later)).Perm (earlier ++ ([further, block] ++ later)) :=
    (List.Perm.swap further block later).append_left earlier
  obtain ⟨pair, swapped⟩ := rivals_pair sameHash tie
  have tied := tiedWith_eq_of_groups_eq run.tracks run'.tracks perm (.refl _) (.refl _) same
    block.1 block.2
  rw [← map_snd_rivals, ← map_snd_rivals, rivals_append, rivals_append, rivals_append,
    rivals_append, pair, swapped] at tied
  simp only [List.map_append, List.append_cancel_left_eq, List.map_cons, List.cons_append,
    List.cons.injEq] at tied
  exact congrArg Occurrence.lineCount tied.1

/-- The groups are the same after all runs just if no two methods of the same name have blocks on
one line that differ in white space only and reach over different numbers of lines. -/
theorem reproducible_iff_unambiguous (files : List SourceFile) :
    Reproducible files ↔ Unambiguous (workersOf files) := by
  constructor
  · intro reproducible
    refine List.pairwise_iff_forall_sublist.mpr ?_
    intro worker other apart block inWorker further inOther sameHash tie
    obtain ⟨earlier, later, last, last', run, finished, run', finished'⟩ :=
      Recording.exists_runs_either_way Detector.empty apart inWorker inOther
    have same := reproducible run finished (.refl _) run' finished' (.refl _)
    exact lineCount_eq_of_groups_eq run run' same sameHash tie
  · intro unambiguous steps last entries steps' last' entries' run finished listed run' finished'
      listed'
    have perm := (run.perm_of_finished finished).trans (run'.perm_of_finished finished').symm
    refine groups_eq_of_tiedWith_eq run.tracks run'.tracks perm listed listed' ?_
    intro hash place
    have agree : Recording.Agree _ (Recording.start files).workers := unambiguous.agree hash place
    have recorded := run.filter_eq agree
    have recorded' := run'.filter_eq agree
    rw [finished.flatten_eq, List.append_nil] at recorded
    rw [finished'.flatten_eq, List.append_nil] at recorded'
    rw [← map_snd_rivals, ← map_snd_rivals, rivals, rivals, ← recorded, ← recorded']

theorem overloads_not_reproducible :
    ([overloads].map (·.path)).Nodup ∧ ¬Reproducible [overloads] := by
  refine ⟨List.nodup_singleton _, fun reproducible => ?_⟩
  have same := reproducible overloads_run (overloads_finished _) (.refl _) overloads_run_backwards
    (overloads_finished _) (.refl _)
  have sameText : Text.compact "\x7b\x7d" = Text.compact "\x7b\n\x7d" := by decide
  have sameHash : firstBody.1 = secondBody.1 := congrArg Text.fingerprint sameText
  have tie : firstBody.2.order secondBody.2 = .eq := by
    change firstBody.2.order firstBody.2 = .eq
    exact order_self firstBody.2
  have lines : firstBody.2.lineCount = secondBody.2.lineCount :=
    @lineCount_eq_of_groups_eq [overloads] [] [] _ _ _ _ overloads_run overloads_run_backwards same
      sameHash tie
  exact absurd lines (by decide)

end Duplication

end SolutionSurvey
