import Mathlib.Data.List.DropRight
import SolutionSurvey.Dependency.Session
import SolutionSurvey.Proofs.Collection.Counting
import SolutionSurvey.Proofs.Dependency.Analysis

/-!
# What a session remembers

A session knows what it was given since it last started anew, and nothing else.  Its answers are
fixed by the set of files collected and the set of references worked on in this time: neither the
order in which they came nor the turns of the workers within one step can be told from them.
-/

namespace SolutionSurvey

/-- A relation goes out from some references that are looked up in a catalog. -/
structure References.LeadsTo (catalog : Catalog) (references : References) (relation : Relation) :
    Prop where
  mentioned : ∃ candidate ∈ references.candidates, ∃ name ∈ Resolution.namesIn candidate,
    Resolution.resolve? catalog references.imports references.declaration.namespaceName name =
      some relation.target
  other : relation.target ≠ relation.source
  source : relation.source = references.declaration.qualifiedName
  filePath : relation.filePath = references.declaration.filePath
  line : relation.line = references.declaration.line

namespace Dependency

open References (LeadsTo)

theorem mem_ofReferences_iff_leadsTo {catalog : Catalog} {references : References}
    {relation : Relation} :
    relation ∈ Relation.ofReferences catalog references ↔ LeadsTo catalog references relation := by
  rw [mem_ofReferences]
  constructor
  · intro ⟨⟨candidate, isCandidate, resolved⟩, other, source, filePath, line⟩
    exact ⟨⟨candidate, isCandidate, Resolution.mem_resolveAll.mp resolved⟩, source ▸ other, source,
      filePath, line⟩
  · intro leads
    obtain ⟨candidate, isCandidate, resolved⟩ := leads.mentioned
    exact ⟨⟨candidate, isCandidate, Resolution.mem_resolveAll.mpr resolved⟩,
      leads.source ▸ leads.other, leads.source, leads.filePath, leads.line⟩

theorem mem_flatMap_ofReferences {catalog : Catalog} {references : List References}
    {relation : Relation} :
    relation ∈ references.flatMap (Relation.ofReferences catalog) ↔
      ∃ one ∈ references, LeadsTo catalog one relation := by
  simp only [List.mem_flatMap, mem_ofReferences_iff_leadsTo]

theorem size_ofFiles (files : List SourceFile) :
    (Catalog.ofFiles files).size = {name | Declared files name}.ncard := by
  have inOrder : Ascending compare (Catalog.ofFiles files).names := Distinct.ascending_ofList _
  have listed : {name | Declared files name} = {name | name ∈ (Catalog.ofFiles files).names} := by
    ext name
    rw [Set.mem_ofPred_eq, Set.mem_ofPred_eq, ← Catalog.contains_ofFiles, Catalog.contains,
      List.contains_iff_mem]
  rw [listed, ncard_setOf_mem inOrder.nodup, Catalog.size]

theorem isEmpty_ofFiles (files : List SourceFile) :
    (Catalog.ofFiles files).isEmpty = true ↔ ∀ name, ¬ Declared files name := by
  rw [Catalog.isEmpty, List.isEmpty_iff, List.eq_nil_iff_forall_not_mem]
  apply forall_congr'
  intro name
  rw [← Catalog.contains_ofFiles, Catalog.contains, List.contains_iff_mem]

namespace Session

/-! ### Steps in which several workers take part -/

/-- A session takes a step.  The workers of a step add what they find in any order. -/
inductive Does : Session → Step → Session → Answer → Prop where
  | collect {names gathered : List String} {files : List SourceFile} :
      gathered.Perm (namesDeclaredIn files) →
      Does (collecting names) (.collect files) (collecting (names ++ gathered)) .done
  | resolve {catalog : Catalog} {relations gathered : List Relation} {files : List SourceFile} :
      gathered.Perm ((files.flatMap References.inFile).flatMap (Relation.ofReferences catalog)) →
      Does (resolving catalog relations) (.resolve files)
        (resolving catalog (gathered.foldl
          (fun known relation => Distinct.insert Relation.order relation known) relations)) .done
  | inOrder {session : Session} {step : Step} :
      Does session step (session.step step).1 (session.step step).2

/-- The steps on the way from one session to another, each with its answer. -/
inductive Run : Session → List (Step × Answer) → Session → Prop where
  | stop {session : Session} : Run session [] session
  | step {first middle last : Session} {step : Step} {answer : Answer}
      {rest : List (Step × Answer)} :
      Does first step middle answer → Run middle rest last → Run first ((step, answer) :: rest) last

/-! ### What a session was given -/

/-- The session has nothing left of what it was given before the step. -/
def startsAnew : Step × Answer → Bool
  | (.reset, _) | (_, .relations _) => true
  | _ => false

def freezes : Step × Answer → Bool
  | (_, .frozen _ _) => true
  | _ => false

def filesCollected : Step × Answer → List SourceFile
  | (.collect files, .done) => files
  | _ => []

def referencesResolved : Step × Answer → List References
  | (.resolve files, .done) => files.flatMap References.inFile
  | (.resolveOne references, .done) => [references]
  | _ => []

/-- What a session was given since it last started anew. -/
inductive Round where
  | collecting (files : List SourceFile)
  /-- The files collected before the catalog was fixed, and the references resolved since then. -/
  | resolving (files : List SourceFile) (references : List References)

namespace Round

/-- The steps after the last one with which the session started anew. -/
def sinceStart (trace : List (Step × Answer)) : List (Step × Answer) :=
  trace.rtakeWhile fun entry => !startsAnew entry

/-- The steps after the one that fixed the catalog. -/
def sinceFreeze (trace : List (Step × Answer)) : List (Step × Answer) :=
  trace.rtakeWhile fun entry => !freezes entry

/-- What the steps of a trace have given that is not forgotten. -/
def since (trace : List (Step × Answer)) : Round :=
  if (sinceStart trace).any freezes then
    resolving ((sinceStart trace).flatMap filesCollected)
      ((sinceFreeze trace).flatMap referencesResolved)
  else
    collecting ((sinceStart trace).flatMap filesCollected)

/-- The relations that go out from some references are listed, each of them once. -/
structure Lists (files : List SourceFile) (references : List References)
    (relations : List Relation) : Prop where
  inOrder : Ascending Relation.order relations
  mem_iff : ∀ relation, relation ∈ relations ↔
    ∃ one ∈ references, LeadsTo (Catalog.ofFiles files) one relation
  target : ∀ relation ∈ relations,
    Declared files relation.target ∧ relation.target ≠ relation.source

/-- How a step is answered after what was given. -/
def Answers : Round → Step → Answer → Prop
  | _, .reset, answer => answer = .done
  | collecting _, .collect _, answer => answer = .done
  | collecting files, .freeze, answer => ∃ size isEmpty, answer = .frozen size isEmpty ∧
      size = {name | Declared files name}.ncard ∧
      (isEmpty = true ↔ ∀ name, ¬ Declared files name)
  | resolving files _, .contains names, answer => ∃ known, answer = .contained known ∧
      List.Forall₂ (fun name isKnown => isKnown = true ↔ Declared files name) names known
  | resolving _ _, .resolve _, answer | resolving _ _, .resolveOne _, answer => answer = .done
  | resolving files references, .relations, answer =>
      ∃ relations, answer = .relations relations ∧ Lists files references relations
  | _, _, answer => answer = .wrongPhase

/-- A session holds what it was given. -/
inductive Tracks : Round → Session → Prop where
  | collecting {files : List SourceFile} {names : List String} :
      (∀ name, name ∈ names ↔ Declared files name) →
      Tracks (.collecting files) (.collecting names)
  | resolving {files : List SourceFile} {references : List References}
      {relations : List Relation} : Lists files references relations →
      Tracks (.resolving files references) (.resolving (Catalog.ofFiles files) relations)

/-- The same files and references were given, in any order and any number of times. -/
inductive Alike : Round → Round → Prop where
  | collecting {files others : List SourceFile} : (∀ file, file ∈ files ↔ file ∈ others) →
      Alike (.collecting files) (.collecting others)
  | resolving {files others : List SourceFile} {references further : List References} :
      (∀ file, file ∈ files ↔ file ∈ others) → (∀ one, one ∈ references ↔ one ∈ further) →
      Alike (.resolving files references) (.resolving others further)

/-! ### One more step -/

/-- What was given after one more step; a step of the other phase gives nothing. -/
def next : Round → Step → Round
  | _, .reset => collecting []
  | collecting files, .collect more => collecting (files ++ more)
  | collecting files, .freeze => resolving files []
  | resolving files references, .resolve more =>
      resolving files (references ++ more.flatMap References.inFile)
  | resolving files references, .resolveOne one => resolving files (references ++ [one])
  | resolving _ _, .relations => collecting []
  | round, _ => round

section Concat

variable {past : List (Step × Answer)} {entry : Step × Answer}

theorem since_concat_of_startsAnew (anew : startsAnew entry = true) :
    since (past ++ [entry]) = collecting [] := by
  simp [since, sinceStart, anew]

theorem since_concat_of_freezes (goesOn : startsAnew entry = false) (fixes : freezes entry = true) :
    since (past ++ [entry]) =
      resolving ((sinceStart past).flatMap filesCollected ++ filesCollected entry) [] := by
  simp [since, sinceStart, sinceFreeze, goesOn, fixes]

theorem since_concat_of_goesOn (goesOn : startsAnew entry = false)
    (stays : freezes entry = false) :
    since (past ++ [entry]) =
      if (sinceStart past).any freezes then
        resolving ((sinceStart past).flatMap filesCollected ++ filesCollected entry)
          ((sinceFreeze past).flatMap referencesResolved ++ referencesResolved entry)
      else
        collecting ((sinceStart past).flatMap filesCollected ++ filesCollected entry) := by
  have recent : sinceStart (past ++ [entry]) = sinceStart past ++ [entry] := by
    simp [sinceStart, goesOn]
  have afterwards : sinceFreeze (past ++ [entry]) = sinceFreeze past ++ [entry] := by
    simp [sinceFreeze, stays]
  have unfixed : (sinceStart past ++ [entry]).any freezes = (sinceStart past).any freezes := by
    simp [stays]
  rw [since, recent, afterwards, unfixed, List.flatMap_append, List.flatMap_append,
    List.flatMap_singleton, List.flatMap_singleton]

/-- What was given goes by the steps and their answers; the answers go by what was given. -/
theorem since_concat {step : Step} {answer : Answer} (answers : Answers (since past) step answer) :
    since (past ++ [(step, answer)]) = (since past).next step := by
  by_cases frozen : (sinceStart past).any freezes
  · have given : since past = resolving _ _ := if_pos frozen
    rw [given] at answers ⊢
    cases step with
    | reset => exact since_concat_of_startsAnew rfl
    | relations =>
        obtain ⟨relations, rfl, _⟩ := answers
        exact since_concat_of_startsAnew rfl
    | contains names =>
        obtain ⟨known, rfl, _⟩ := answers
        rw [since_concat_of_goesOn rfl rfl, if_pos frozen]
        simp [filesCollected, referencesResolved, next]
    | collect | freeze | resolve | resolveOne =>
        obtain rfl := answers
        rw [since_concat_of_goesOn rfl rfl, if_pos frozen]
        simp [filesCollected, referencesResolved, next]
  · have given : since past = collecting _ := if_neg frozen
    rw [given] at answers ⊢
    cases step with
    | reset => exact since_concat_of_startsAnew rfl
    | freeze =>
        obtain ⟨size, isEmpty, rfl, _⟩ := answers
        rw [since_concat_of_freezes rfl rfl]
        simp [filesCollected, next]
    | collect | contains | resolve | resolveOne | relations =>
        obtain rfl := answers
        rw [since_concat_of_goesOn rfl rfl, if_neg frozen]
        simp [filesCollected, next]

end Concat

theorem Lists.of_mem_iff {files : List SourceFile} {references : List References}
    {relations : List Relation} (inOrder : Ascending Relation.order relations)
    (mem_iff : ∀ relation, relation ∈ relations ↔
      ∃ one ∈ references, LeadsTo (Catalog.ofFiles files) one relation) :
    Lists files references relations := by
  refine ⟨inOrder, mem_iff, fun relation listed => ?_⟩
  obtain ⟨one, _, leads⟩ := (mem_iff relation).mp listed
  obtain ⟨_, _, _, _, resolved⟩ := leads.mentioned
  exact ⟨Catalog.contains_ofFiles.mp (Resolution.contains_of_resolve? resolved), leads.other⟩

theorem lists_nil (files : List SourceFile) : Lists files [] [] :=
  .of_mem_iff .nil (by simp)

theorem Lists.add {files : List SourceFile} {references more : List References}
    {relations gathered : List Relation} (lists : Lists files references relations)
    (all : ∀ relation, relation ∈ gathered ↔
      ∃ one ∈ more, LeadsTo (Catalog.ofFiles files) one relation) :
    Lists files (references ++ more) (gathered.foldl
      (fun known relation => Distinct.insert Relation.order relation known) relations) := by
  apply of_mem_iff (Distinct.ascending_foldl_insert lists.inOrder)
  intro relation
  rw [Distinct.mem_foldl_insert, all, lists.mem_iff, or_comm]
  simp only [List.mem_append, or_and_right, exists_or]

theorem Lists.extend {files : List SourceFile} {references more : List References}
    {relations : List Relation} (lists : Lists files references relations) :
    Lists files (references ++ more) (Session.extend (Catalog.ofFiles files) relations more) :=
  lists.add fun _ => mem_flatMap_ofReferences

theorem tracks_start : Tracks (collecting []) Session.start :=
  .collecting fun name => by simp [Declared]

theorem mem_append_iff_declared {files more : List SourceFile} {names gathered : List String}
    (known : ∀ name, name ∈ names ↔ Declared files name)
    (all : gathered.Perm (namesDeclaredIn more)) (name : String) :
    name ∈ names ++ gathered ↔ Declared (files ++ more) name := by
  rw [List.mem_append, known, all.mem_iff, Catalog.mem_namesDeclaredIn, declared_append]

theorem ofNames_eq_ofFiles {files : List SourceFile} {names : List String}
    (known : ∀ name, name ∈ names ↔ Declared files name) :
    Catalog.ofNames names = Catalog.ofFiles files :=
  Catalog.ofNames_eq_of_mem_iff fun name => (known name).trans Catalog.mem_namesDeclaredIn.symm

theorem forall₂_contains (files : List SourceFile) (names : List String) :
    List.Forall₂ (fun name isKnown => isKnown = true ↔ Declared files name) names
      (names.map (Catalog.ofFiles files).contains) := by
  apply List.forall₂_map_right_iff.mpr
  exact List.forall₂_same.mpr fun name _ => Catalog.contains_ofFiles

theorem Tracks.step {round : Round} {session : Session} (tracks : Tracks round session)
    (step : Step) :
    Tracks (round.next step) (session.step step).1 ∧ Answers round step (session.step step).2 := by
  cases tracks with
  | collecting known =>
      cases step with
      | collect more => exact ⟨.collecting (mem_append_iff_declared known (.refl _)), rfl⟩
      | freeze =>
          simp only [next, Session.step, ofNames_eq_ofFiles known]
          exact ⟨.resolving (lists_nil _), _, _, rfl, size_ofFiles _, isEmpty_ofFiles _⟩
      | reset => exact ⟨tracks_start, rfl⟩
      | contains | resolve | resolveOne | relations => exact ⟨.collecting known, rfl⟩
  | resolving lists =>
      cases step with
      | contains names => exact ⟨.resolving lists, _, rfl, forall₂_contains _ names⟩
      | resolve more => exact ⟨.resolving lists.extend, rfl⟩
      | resolveOne one => exact ⟨.resolving lists.extend, rfl⟩
      | relations => exact ⟨tracks_start, _, rfl, lists⟩
      | reset => exact ⟨tracks_start, rfl⟩
      | collect | freeze => exact ⟨.resolving lists, rfl⟩

/-- Whatever the turns of the workers, a step keeps what was given and is answered by it. -/
theorem Tracks.does {round : Round} {session later : Session} {step : Step} {answer : Answer}
    (tracks : Tracks round session) (does : Does session step later answer) :
    Tracks (round.next step) later ∧ Answers round step answer := by
  cases does with
  | collect all =>
      cases tracks with
      | collecting known => exact ⟨.collecting (mem_append_iff_declared known all), rfl⟩
  | resolve all =>
      cases tracks with
      | resolving lists =>
          refine ⟨.resolving (lists.add fun relation => ?_), rfl⟩
          rw [all.mem_iff, mem_flatMap_ofReferences]
  | inOrder => exact tracks.step step

/-! ### What the answers depend on -/

theorem Alike.refl (round : Round) : Alike round round := by
  cases round with
  | collecting files => exact .collecting fun _ => .rfl
  | resolving files references => exact .resolving (fun _ => .rfl) fun _ => .rfl

theorem Lists.eq_of_alike {files others : List SourceFile} {references further : List References}
    {relations relationsToo : List Relation} (lists : Lists files references relations)
    (listsToo : Lists others further relationsToo)
    (sameFiles : ∀ file, file ∈ files ↔ file ∈ others)
    (sameReferences : ∀ one, one ∈ references ↔ one ∈ further) : relations = relationsToo := by
  apply lists.inOrder.eq_of_mem_iff listsToo.inOrder
  intro relation
  rw [lists.mem_iff, listsToo.mem_iff, ofFiles_eq_of_mem_iff sameFiles]
  simp only [sameReferences]

theorem eq_of_forall₂_iff {holds : String → Prop} {names : List String} {answers others : List Bool}
    (first : List.Forall₂ (fun name known => known = true ↔ holds name) names answers)
    (second : List.Forall₂ (fun name known => known = true ↔ holds name) names others) :
    answers = others := by
  induction first generalizing others with
  | nil =>
      cases second
      rfl
  | cons first _ inductionHypothesis =>
      cases second with
      | cons second rest =>
          rw [Bool.eq_iff_iff.mpr (first.trans second.symm), inductionHypothesis rest]

/-- Where the same files and references were given, a step is answered in the same way. -/
theorem Answers.eq_of_alike {round other : Round} {step : Step} {answer answerToo : Answer}
    (alike : Alike round other) (answers : Answers round step answer)
    (answersToo : Answers other step answerToo) : answer = answerToo := by
  cases alike with
  | collecting sameFiles =>
      cases step with
      | freeze =>
          obtain ⟨size, isEmpty, rfl, counts, empty⟩ := answers
          obtain ⟨_, isEmptyToo, rfl, countsToo, emptyToo⟩ := answersToo
          simp only [declared_congr sameFiles] at counts empty
          rw [counts, countsToo, Bool.eq_iff_iff.mpr (empty.trans emptyToo.symm)]
      | collect | contains | resolve | resolveOne | relations | reset =>
          exact answers.trans answersToo.symm
  | resolving sameFiles sameReferences =>
      cases step with
      | contains names =>
          obtain ⟨known, rfl, contained⟩ := answers
          obtain ⟨_, rfl, containedToo⟩ := answersToo
          simp only [declared_congr sameFiles] at contained
          rw [eq_of_forall₂_iff contained containedToo]
      | relations =>
          obtain ⟨relations, rfl, lists⟩ := answers
          obtain ⟨_, rfl, listsToo⟩ := answersToo
          rw [lists.eq_of_alike listsToo sameFiles sameReferences]
      | collect | freeze | resolve | resolveOne | reset => exact answers.trans answersToo.symm

end Round

/-! ### Whole runs -/

open Round

theorem Run.append {first middle last : Session} {past later : List (Step × Answer)}
    (run : Run first past middle) (goesOn : Run middle later last) :
    Run first (past ++ later) last := by
  induction run with
  | stop => exact goesOn
  | step does _ inductionHypothesis => exact .step does (inductionHypothesis goesOn)

theorem Run.exists_step {first last : Session} {past later : List (Step × Answer)} {step : Step}
    {answer : Answer} (run : Run first (past ++ (step, answer) :: later) last) :
    ∃ before next, Run first past before ∧ Does before step next answer ∧ Run next later last := by
  induction past generalizing first with
  | nil =>
      cases run with
      | step does rest => exact ⟨first, _, .stop, does, rest⟩
  | cons entry past inductionHypothesis =>
      cases run with
      | step does rest =>
          obtain ⟨before, next, reached, takes, goesOn⟩ := inductionHypothesis rest
          exact ⟨before, next, .step does reached, takes, goesOn⟩

theorem Run.tracks {first last : Session} {past trace : List (Step × Answer)}
    (run : Run first trace last) (tracks : Tracks (since past) first) :
    Tracks (since (past ++ trace)) last := by
  induction run generalizing past with
  | stop => rwa [List.append_nil]
  | step does _ inductionHypothesis =>
      obtain ⟨held, answers⟩ := tracks.does does
      rw [← since_concat answers] at held
      simpa only [List.append_assoc, List.singleton_append] using inductionHypothesis held

theorem tracks_of_run {last : Session} {trace : List (Step × Answer)}
    (run : Run start trace last) : Tracks (since trace) last := by
  have holds : Tracks (since ([] ++ trace)) last := run.tracks tracks_start
  exact holds

/-- Sessions that hold the same answer alike, whatever the turns of the workers. -/
theorem Run.map_snd {first last other : Session} {round : Round} {trace : List (Step × Answer)}
    (run : Run first trace last) (tracks : Tracks round first) (tracksToo : Tracks round other) :
    trace.map (·.2) = Session.run other (trace.map (·.1)) := by
  induction run generalizing other round with
  | stop => rfl
  | step does _ inductionHypothesis =>
      obtain ⟨held, answers⟩ := tracks.does does
      obtain ⟨heldToo, answersToo⟩ := tracksToo.step _
      rw [List.map_cons, List.map_cons, Session.run, inductionHypothesis held heldToo,
        answers.eq_of_alike (.refl _) answersToo]

/-- Every list of steps can be taken. -/
theorem run_inOrder (session : Session) (steps : List Step) :
    Run session (steps.zip (session.run steps))
      (steps.foldl (fun session step => (session.step step).1) session) := by
  induction steps generalizing session with
  | nil => exact .stop
  | cons step steps inductionHypothesis => exact .step .inOrder (inductionHypothesis _)

theorem run_of_eq {session last : Session} (steps : List Step) (answers : List Answer)
    (answered : session.run steps = answers)
    (reached : steps.foldl (fun session step => (session.step step).1) session = last) :
    Run session (steps.zip answers) last := by
  subst answered reached
  exact run_inOrder session steps

theorem Does.eq_of_wrongPhase {session later : Session} {step : Step}
    (does : Does session step later .wrongPhase) : later = session := by
  generalize wrong : Answer.wrongPhase = answer at does
  cases does with
  | collect | resolve => cases wrong
  | inOrder => cases session <;> cases step <;> first | rfl | cases wrong

theorem Does.eq_start_of_startsAnew {session later : Session} {step : Step} {answer : Answer}
    (does : Does session step later answer) (anew : startsAnew (step, answer) = true) :
    later = start := by
  cases does with
  | collect | resolve => cases anew
  | inOrder => cases session <;> cases step <;> first | rfl | cases anew

/-- A run tells what the session was given in it since it last started anew, and nothing else. -/
structure Remembers (trace : List (Step × Answer)) (last : Session) : Prop where
  holds : Tracks (since trace) last
  answers : ∀ past step answer later, trace = past ++ (step, answer) :: later →
    Answers (since past) step answer
  inOrder : trace.map (·.2) = Session.run start (trace.map (·.1))
  alike : ∀ past step answer later, trace = past ++ (step, answer) :: later →
    ∀ other session next otherAnswer, Run start other session → Alike (since past) (since other) →
      Does session step next otherAnswer → otherAnswer = answer
  wrongPhase : ∀ past step later, trace = past ++ (step, .wrongPhase) :: later →
    Run start (past ++ later) last
  afresh : ∀ past entry later, trace = past ++ entry :: later → startsAnew entry →
    later.map (·.2) = Session.run start (later.map (·.1))

/-- Whatever steps are taken and in whatever order the workers come, a session remembers what it was
given. -/
theorem remembers_of_run {trace : List (Step × Answer)} {last : Session}
    (run : Run start trace last) : Remembers trace last where
  holds := tracks_of_run run
  inOrder := run.map_snd tracks_start tracks_start
  answers := by
    intro past step answer later split
    subst split
    obtain ⟨before, _, reached, does, _⟩ := run.exists_step
    exact ((tracks_of_run reached).does does).2
  alike := by
    intro past step answer later split other session next otherAnswer otherRun alike otherDoes
    subst split
    obtain ⟨before, _, reached, does, _⟩ := run.exists_step
    have answers := ((tracks_of_run reached).does does).2
    have answersToo := ((tracks_of_run otherRun).does otherDoes).2
    exact (answers.eq_of_alike alike answersToo).symm
  wrongPhase := by
    intro past step later split
    subst split
    obtain ⟨before, next, reached, does, goesOn⟩ := run.exists_step
    have unchanged := does.eq_of_wrongPhase
    subst unchanged
    exact reached.append goesOn
  afresh := by
    intro past entry later split anew
    subst split
    obtain ⟨_, next, _, does, goesOn⟩ := run.exists_step
    have restarted := does.eq_start_of_startsAnew anew
    subst restarted
    exact goesOn.map_snd tracks_start tracks_start

/-- The steps of two rounds, of which the second one is given nothing. -/
def twoRounds : List Step :=
  [ .collect [derived], .relations, .freeze, .resolve [derived], .resolve [derived], .relations
  , .freeze ]

theorem twoRounds_remembers :
    let trace := twoRounds.zip [.done, .wrongPhase, .frozen 2 false, .done, .done,
      .relations [⟨"A", "B", "A.cs", 1⟩], .frozen 0 true]
    Run start trace (resolving (Catalog.ofNames []) []) ∧
      Remembers trace (resolving (Catalog.ofNames []) []) := by
  intro trace
  have run : Run start trace (resolving (Catalog.ofNames []) []) :=
    run_of_eq twoRounds _ (by decide +kernel) (by decide +kernel)
  exact ⟨run, remembers_of_run run⟩

end Session

end Dependency

end SolutionSurvey
