import SolutionSurvey.Proofs.Duplication.Sites
import SolutionSurvey.Proofs.Duplication.Workers

/-!
# The groups account for every block

Whichever worker records next, in the end there is a group for every hash that is found at two sites
or more.  Its members are the records of these sites, each as often as there are sites for it.
-/

namespace SolutionSurvey

def DuplicationRecord.order (left right : DuplicationRecord) : Ordering :=
  (compare left.filePath right.filePath).then
    ((compare left.startLine right.startLine).then (compare left.methodName right.methodName))

namespace Duplication

def sitesWith (files : List SourceFile) (hash : String) : Set Site :=
  {site | ∃ record, site.record? files = some record ∧ record.hash = hash}

def sitesOf (files : List SourceFile) (record : DuplicationRecord) : Set Site :=
  {site | site.record? files = some record}

/-- The blocks of some files are all accounted for. -/
structure AccountFor (files : List SourceFile) (groups : List DuplicationGroup) : Prop where
  finite : ∀ hash, (sitesWith files hash).Finite
  grouped : ∀ hash, hash ∈ groups.map (·.hash) ↔ 2 ≤ (sitesWith files hash).ncard
  onePerHash : (groups.map (·.hash)).Nodup
  members : ∀ group ∈ groups, ∀ record, group.members.count record =
    if record.hash = group.hash then (sitesOf files record).ncard else 0
  membersInOrder : ∀ group ∈ groups,
    group.members.Pairwise fun earlier later => (earlier.order later).isLE
  key : ∀ group ∈ groups, ∃ first rest, group.members = first :: rest ∧
    group.key = first.filePath ++ ":" ++ first.methodName
  groupsInOrder : Ascending DuplicationGroup.order groups
  flattened : ∀ record, (flatten groups).count record =
    (groups.map fun group => group.members.count record).sum
  flattenedSites : ∀ record, (flatten groups).count record =
    if 2 ≤ (sitesWith files record.hash).ncard then (sitesOf files record).ncard else 0

/-! ### Sites and recorded blocks -/

theorem finite_sitesWith (files : List SourceFile) (hash : String) :
    (sitesWith files hash).Finite := by
  refine (Site.all files).finite_toSet.subset ?_
  rintro site ⟨record, recorded, _⟩
  exact Site.mem_all_of_record? recorded

theorem ncard_sitesWith (files : List SourceFile) (hash : String) :
    (sitesWith files hash).ncard = (Detector.placesWith hash (files.flatMap blocksIn)).length := by
  have counted := ncard_setOf_exists (Site.all_nodup files)
    (fun _ _ recorded => Site.mem_all_of_record? recorded) fun record => record.hash == hash
  have sameHash : (fun record : DuplicationRecord => record.hash == hash) ∘ Site.recordOf =
      fun block => block.1 == hash := rfl
  rw [Site.filterMap_record?_all, List.countP_map, sameHash] at counted
  rw [Detector.placesWith, List.length_map, ← List.countP_eq_length_filter]
  simpa [sitesWith] using counted

theorem ncard_sitesOf (files : List SourceFile) (record : DuplicationRecord) :
    (sitesOf files record).ncard = ((files.flatMap blocksIn).map Site.recordOf).count record := by
  have counted := ncard_setOf_exists (Site.all_nodup files)
    (fun _ _ recorded => Site.mem_all_of_record? recorded) fun other => other == record
  rw [Site.filterMap_record?_all] at counted
  simpa [sitesOf, List.count] using counted

/-! ### One group -/

theorem map_ofOccurrence_placesWith (hash : String) (blocks : List HashedBlock) :
    (Detector.placesWith hash blocks).map (.ofOccurrence hash) =
      (blocks.map Site.recordOf).filter fun record => record.hash == hash := by
  rw [Detector.placesWith, List.filter_map, List.map_map]
  refine List.map_congr_left fun block membership => ?_
  have same : block.1 = hash := by simpa using (List.mem_filter.mp membership).2
  simp [Site.recordOf, same]

theorem count_members_group (hash : String) (blocks : List HashedBlock)
    (record : DuplicationRecord) :
    (Detector.group hash (Detector.placesWith hash blocks)).members.count record =
      if record.hash = hash then (blocks.map Site.recordOf).count record else 0 := by
  have perm := (List.mergeSort_perm (Detector.placesWith hash blocks)
    (weakly Occurrence.order)).map (DuplicationRecord.ofOccurrence hash)
  rw [Detector.members_group, perm.count_eq, map_ofOccurrence_placesWith]
  by_cases same : record.hash = hash
  · rw [if_pos same, List.count_filter (by simpa using same)]
  · rw [if_neg same]
    exact List.count_eq_zero.mpr fun membership =>
      same (by simpa using (List.mem_filter.mp membership).2)

theorem members_group_inOrder (hash : String) (places : List Occurrence) :
    (Detector.group hash places).members.Pairwise fun earlier later =>
      (earlier.order later).isLE := by
  have sorted : Sorted Occurrence.order (places.mergeSort (weakly Occurrence.order)) :=
    sorted_mergeSort places
  rw [Detector.members_group]
  exact List.pairwise_map.mpr sorted

theorem key_group (hash : String) {places : List Occurrence} (some : places ≠ []) :
    ∃ first rest, (Detector.group hash places).members = first :: rest ∧
      (Detector.group hash places).key = first.filePath ++ ":" ++ first.methodName := by
  have perm := List.mergeSort_perm places (weakly Occurrence.order)
  cases sorted : places.mergeSort (weakly Occurrence.order) with
  | nil =>
      rw [sorted] at perm
      exact absurd perm.nil_eq.symm some
  | cons first rest =>
      refine ⟨.ofOccurrence hash first, rest.map (.ofOccurrence hash), ?_, ?_⟩
      · rw [Detector.members_group, sorted, List.map_cons]
      · simp only [Detector.group, sorted]
        rfl

/-! ### All groups -/

/-- Among groups for distinct hashes a record is counted in one group at most. -/
theorem sum_count_members {groups : List DuplicationGroup} (distinct : (groups.map (·.hash)).Nodup)
    {record : DuplicationRecord} {times : Nat}
    (each : ∀ group ∈ groups,
      group.members.count record = if record.hash = group.hash then times else 0) :
    (groups.map fun group => group.members.count record).sum =
      if record.hash ∈ groups.map (·.hash) then times else 0 := by
  induction groups with
  | nil => rfl
  | cons head rest inductionHypothesis =>
      obtain ⟨fresh, distinctRest⟩ := List.nodup_cons.mp distinct
      have further := inductionHypothesis distinctRest fun group membership =>
        each group (List.mem_cons_of_mem head membership)
      rw [List.map_cons, List.sum_cons, each head List.mem_cons_self, further]
      by_cases same : record.hash = head.hash
      · have absent : record.hash ∉ rest.map (·.hash) := same ▸ fresh
        simp [same, fresh]
      · simp [same]

theorem accountFor_groups {files : List SourceFile} {detector : Detector}
    {blocks : List HashedBlock} (tracks : Detector.Tracks detector blocks)
    (perm : blocks.Perm (files.flatMap blocksIn)) {entries : List (String × Sighting)}
    (listed : entries.Perm detector) : AccountFor files (Detector.groups entries) := by
  have counted : ∀ hash, (Detector.placesWith hash blocks).length = (sitesWith files hash).ncard := by
    intro hash
    rw [ncard_sitesWith, (Detector.placesWith_perm perm hash).length_eq]
  have grouped : ∀ hash, hash ∈ (Detector.groups entries).map (·.hash) ↔
      2 ≤ (sitesWith files hash).ncard := by
    intro hash
    rw [← counted, List.mem_map]
    constructor
    · rintro ⟨found, membership, rfl⟩
      exact ((tracks.mem_groups listed).mp membership).1
    · intro several
      exact ⟨Detector.group hash (Detector.placesWith hash blocks),
        (tracks.mem_groups listed).mpr ⟨several, rfl⟩, rfl⟩
  have members : ∀ group ∈ Detector.groups entries, ∀ record, group.members.count record =
      if record.hash = group.hash then (sitesOf files record).ncard else 0 := by
    intro group membership record
    obtain ⟨_, same⟩ := (tracks.mem_groups listed).mp membership
    have recorded := count_members_group group.hash blocks record
    rwa [← same, (perm.map Site.recordOf).count_eq, ← ncard_sitesOf] at recorded
  have flattened : ∀ record, (flatten (Detector.groups entries)).count record =
      ((Detector.groups entries).map fun group => group.members.count record).sum :=
    fun record => List.count_flatMap
  refine
    { grouped, members, flattened
      finite := finite_sitesWith files
      onePerHash := tracks.hashes_nodup listed
      membersInOrder := ?_
      key := ?_
      groupsInOrder := tracks.ascending_groups listed
      flattenedSites := ?_ }
  · intro group membership
    rw [((tracks.mem_groups listed).mp membership).2]
    exact members_group_inOrder _ _
  · intro group membership
    obtain ⟨several, same⟩ := (tracks.mem_groups listed).mp membership
    rw [same]
    exact key_group group.hash (List.ne_nil_of_length_pos (by omega))
  · intro record
    rw [flattened, sum_count_members (tracks.hashes_nodup listed)
      fun group membership => members group membership record]
    simp only [grouped]

/-- However the workers take turns, and in whatever order the hashes are gone through at the end,
every block is accounted for. -/
theorem accountFor_of_finished {files : List SourceFile} {steps : List HashedBlock}
    {last : Recording} (run : (Recording.start files).Run steps last) (finished : last.Finished)
    {entries : List (String × Sighting)} (listed : entries.Perm last.detector) :
    AccountFor files (Detector.groups entries) := by
  have perm : steps.Perm (files.flatMap blocksIn) := by
    rw [← flatten_workersOf]
    exact run.perm_of_finished finished
  exact accountFor_groups run.tracks perm listed

/-- Recording the blocks in the order of the files is one way to go. -/
theorem exists_run_detect (files : List SourceFile) :
    ∃ last, (Recording.start files).Run (files.flatMap blocksIn) last ∧ last.Finished ∧
      Detector.groups last.detector = detect files := by
  obtain ⟨last, run, finished⟩ := Recording.exists_finished (Recording.start files)
  rw [Recording.start, flatten_workersOf] at run
  refine ⟨last, run, finished, ?_⟩
  rw [run.detector_eq]
  rfl

theorem accountFor_detect (files : List SourceFile) : AccountFor files (detect files) := by
  obtain ⟨last, run, _, same⟩ := exists_run_detect files
  rw [← same]
  exact accountFor_groups run.tracks (.refl _) (.refl _)

/-- Every record is about a site. -/
theorem AccountFor.exists_site {files : List SourceFile} {groups : List DuplicationGroup}
    (accounted : AccountFor files groups) {record : DuplicationRecord}
    (membership : record ∈ flatten groups) : ∃ site, Site.record? files site = some record := by
  have counted := List.count_pos_iff.mpr membership
  rw [accounted.flattenedSites record] at counted
  have some : (sitesOf files record).ncard ≠ 0 := by
    split at counted <;> omega
  exact Set.nonempty_of_ncard_ne_zero some

/-- A record is about at least one line of one of the files. -/
theorem Site.of_record? {files : List SourceFile} {site : Site} {record : DuplicationRecord}
    (recorded : record? files site = some record) :
    record.filePath ∈ files.map (·.path.text) ∧ 0 < record.lineCount := by
  simp only [record?, Option.bind_eq_some_iff] at recorded
  obtain ⟨file, listed, method, _, block, _, said⟩ := recorded
  split at said
  · obtain rfl := Option.some.inj said
    exact ⟨List.mem_map_of_mem (List.mem_of_getElem? listed), Nat.succ_pos _⟩
  · cases said

/-! ### Two methods of the same name -/

open Node (written sign)

def methodM (lastLine : Nat) (parameters : List Node) (parameterText body : String) : Node :=
  written "method_declaration" [] 1 lastLine ("void M(" ++ parameterText ++ ")" ++ body)
    [ written "predefined_type" ["returns"] 1 1 "void" []
    , written "identifier" ["name"] 1 1 "M" []
    , written "parameter_list" [] 1 1 ("(" ++ parameterText ++ ")")
        ([sign 1 "("] ++ parameters ++ [sign 1 ")"])
    , written "block" ["body"] 1 lastLine body [sign 1 "\x7b", sign lastLine "\x7d"] ]

/-- A class with two methods of the same name on one line, whose bodies differ in a line break. -/
def overloads : SourceFile where
  project := "App"
  path := ⟨"A.cs"⟩
  text := "class A\x7bvoid M(int a)\x7b\x7dvoid M()\x7b\n\x7d\x7d"
  tree := written "compilation_unit" [] 1 2 "class A\x7bvoid M(int a)\x7b\x7dvoid M()\x7b\n\x7d\x7d"
    [ written "class_declaration" [] 1 2 "class A\x7bvoid M(int a)\x7b\x7dvoid M()\x7b\n\x7d\x7d"
      [ sign 1 "class", written "identifier" ["name"] 1 1 "A" []
      , written "declaration_list" ["body"] 1 2 "\x7bvoid M(int a)\x7b\x7dvoid M()\x7b\n\x7d\x7d"
        [ sign 1 "\x7b"
        , methodM 1
            [ written "parameter" [] 1 1 "int a"
              [ written "predefined_type" ["type"] 1 1 "int" []
              , written "identifier" ["name"] 1 1 "a" [] ] ]
            "int a" "\x7b\x7d"
        , methodM 2 [] "" "\x7b\n\x7d"
        , sign 2 "\x7d" ] ] ]

def firstBody : HashedBlock := (hashOf "\x7b\x7d", ⟨"A.cs", "M", 1, 1⟩)

def secondBody : HashedBlock := (hashOf "\x7b\n\x7d", ⟨"A.cs", "M", 1, 2⟩)

theorem workersOf_overloads : workersOf [overloads] = [[firstBody], [secondBody]] := rfl

theorem overloads_run : (Recording.start [overloads]).Run [firstBody, secondBody]
    ⟨Detector.empty.recordAll [firstBody, secondBody], [[], []]⟩ := by
  rw [Recording.start, workersOf_overloads]
  exact Recording.run_first Detector.empty [] [] [] [firstBody] [] [secondBody] []

theorem overloads_run_backwards : (Recording.start [overloads]).Run [secondBody, firstBody]
    ⟨Detector.empty.recordAll [secondBody, firstBody], [[], []]⟩ := by
  rw [Recording.start, workersOf_overloads]
  exact Recording.run_second Detector.empty [] [] [] [firstBody] [] [secondBody] []

theorem overloads_finished (detector : Detector) : Recording.Finished ⟨detector, [[], []]⟩ := by
  simp [Recording.Finished]

theorem overloads_accountFor :
    (Recording.start [overloads]).Run [secondBody, firstBody]
      ⟨Detector.empty.recordAll [secondBody, firstBody], [[], []]⟩ ∧
      AccountFor [overloads] (Detector.groups (Detector.empty.recordAll [secondBody, firstBody])) :=
  ⟨overloads_run_backwards,
    accountFor_of_finished overloads_run_backwards (overloads_finished _) (.refl _)⟩

end Duplication

end SolutionSurvey
