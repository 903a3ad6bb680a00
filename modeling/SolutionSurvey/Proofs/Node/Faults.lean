import SolutionSurvey.Proofs.Node.Walk
import SolutionSurvey.SourceFile

/-!
# The first fault

A text is not parsed if its tree is damaged, and then the line of a faulty node is told.  The search
for that node goes into damaged nodes only.  Where damage means that there are faults, it finds the
first of them in the order of the text, as a search through the whole tree does.
-/

namespace SolutionSurvey

namespace Node

def faultyAt (root : Node) (address : Address) : Bool := (root.at? address).any Node.faulty

/-- The first fault in the order of the text. -/
def FirstFault (root : Node) (address : Address) : Prop :=
  root.faultyAt address = true ∧ ∀ other, root.faultyAt other = true → ¬ other < address

/-- A node is damaged if it is faulty or has something faulty below it, and only then. -/
def DamageMeansFaults (root : Node) : Prop :=
  ∀ place ∈ root.places, place.node.damaged = true ↔
    ∃ inner ∈ place.node.places, inner.node.faulty = true

instance (root : Node) : Decidable (DamageMeansFaults root) :=
  inferInstanceAs (Decidable (∀ place ∈ root.places, _ ↔ _))

mutual

/-- The address of the node whose line is told: it is looked for in damaged nodes only. -/
def faultAddress? : Node → Option Address
  | node description children =>
      if description.faulty then some [] else faultAddressAmong? 0 children

def faultAddressAmong? (index : Nat) : List Node → Option Address
  | [] => none
  | child :: rest =>
      if child.damaged then
        (child.faultAddress?.map (index :: ·)).or (faultAddressAmong? (index + 1) rest)
      else faultAddressAmong? (index + 1) rest

end

end Node

/-- What is told of a text for which the reader has a tree. -/
structure TellsFirstFault (read : TreeReader) (path : Path) (text : String) (root : Node) :
    Prop where
  fails_iff : (∃ failure, parseWhole read path text = .error failure) ↔
    ∃ address, root.faultyAt address = true
  told : ∀ failure, parseWhole read path text = .error failure →
    ∃ address fault, root.FirstFault address ∧ root.at? address = some fault ∧
      failure = .unparsable path (.near fault.line)
  /-- The line that is told is the line of the node that the search finds. -/
  line : root.faultLine? = root.faultAddress?.bind fun address => (root.at? address).map Node.line
  /-- The search finds the same node as a search through the whole tree. -/
  sameNode : root.faultAddress? = root.addresses.find? root.faultyAt
  /-- No line has to be made up. -/
  lineFound : root.damaged = true → ∃ line, root.faultLine? = some line

namespace Node

/-! ### Faults in a node and in its children -/

theorem faultyAt_eq_true_iff {root : Node} {address : Address} :
    root.faultyAt address = true ↔ ∃ fault, root.at? address = some fault ∧ fault.faulty = true :=
  Option.any_eq_true Node.faulty (root.at? address)

theorem faultyAt_cons {root child : Node} {index : Nat} (atIndex : root.children[index]? = some child)
    (rest : Address) : root.faultyAt (index :: rest) = child.faultyAt rest := by
  rw [faultyAt, at?_cons, atIndex, Option.bind_some, faultyAt]

theorem faultyAt_nil (root : Node) : root.faultyAt [] = root.faulty := by
  rw [faultyAt, at?_nil, Option.any_some]

theorem mem_addresses_of_faultyAt {root : Node} {address : Address}
    (faulty : root.faultyAt address = true) : address ∈ root.addresses := by
  obtain ⟨fault, found, _⟩ := faultyAt_eq_true_iff.mp faulty
  rw [mem_addresses, found]
  rfl

theorem exists_faulty_place_iff {node : Node} :
    (∃ inner ∈ node.places, inner.node.faulty = true) ↔ ∃ way, node.faultyAt way = true := by
  constructor
  · rintro ⟨inner, visited, faulty⟩
    obtain ⟨way, placed⟩ := mem_places.mp visited
    exact ⟨way, faultyAt_eq_true_iff.mpr ⟨inner.node, at?_of_place? placed, faulty⟩⟩
  · rintro ⟨way, faulty⟩
    obtain ⟨fault, found, isFaulty⟩ := faultyAt_eq_true_iff.mp faulty
    obtain ⟨place, placed, rfl⟩ := Option.map_eq_some_iff.mp (map_node_place? node way ▸ found)
    exact ⟨place, mem_places.mpr ⟨way, placed⟩, isFaulty⟩

theorem damageMeansFaults_iff {root : Node} :
    DamageMeansFaults root ↔ ∀ address inner, root.at? address = some inner →
      (inner.damaged = true ↔ ∃ way, inner.faultyAt way = true) := by
  constructor
  · intro means address inner found
    obtain ⟨place, placed, rfl⟩ := Option.map_eq_some_iff.mp (map_node_place? root address ▸ found)
    exact (means place (mem_places.mpr ⟨address, placed⟩)).trans exists_faulty_place_iff
  · intro means place visited
    obtain ⟨address, placed⟩ := mem_places.mp visited
    exact (means address place.node (at?_of_place? placed)).trans exists_faulty_place_iff.symm

theorem DamageMeansFaults.damaged_iff {root : Node} (means : DamageMeansFaults root) :
    root.damaged = true ↔ ∃ address, root.faultyAt address = true :=
  damageMeansFaults_iff.mp means [] root (at?_nil root)

theorem DamageMeansFaults.of_child {root child : Node} (means : DamageMeansFaults root)
    (isChild : child ∈ root.children) : DamageMeansFaults child := by
  obtain ⟨index, atIndex⟩ := List.mem_iff_getElem?.mp isChild
  refine damageMeansFaults_iff.mpr fun address inner found => ?_
  refine damageMeansFaults_iff.mp means (index :: address) inner ?_
  rw [at?_cons, atIndex, Option.bind_some, found]

/-! ### The line that is told -/

theorem faultyAt_of_faultAddressAmong? {parent : Node} {children : List Node}
    (inner : ∀ child ∈ children, ∀ way, child.faultAddress? = some way → child.faultyAt way = true)
    {index : Nat} (aligned : ChildrenFrom parent index children) {address : Address}
    (searched : faultAddressAmong? index children = some address) :
    parent.faultyAt address = true := by
  induction children generalizing index with
  | nil => simp [faultAddressAmong?] at searched
  | cons head rest inductionHypothesis =>
      have inRest := inductionHypothesis
        (fun child membership => inner child (List.mem_cons_of_mem head membership)) aligned.tail
      rw [faultAddressAmong?] at searched
      split at searched
      · rcases Option.or_eq_some_iff.mp searched with inHead | ⟨_, further⟩
        · obtain ⟨way, found, rfl⟩ := Option.map_eq_some_iff.mp inHead
          rw [faultyAt_cons aligned.head]
          exact inner head List.mem_cons_self way found
        · exact inRest further
      · exact inRest searched

/-- The search finds faulty nodes only. -/
theorem faultyAt_of_faultAddress? {root : Node} {address : Address}
    (searched : root.faultAddress? = some address) : root.faultyAt address = true := by
  induction root using inductionOnChildren generalizing address with
  | step description children inductionHypothesis =>
      rw [faultAddress?] at searched
      split at searched
      · next faulty =>
          obtain rfl := Option.some.inj searched
          rw [faultyAt_nil]
          exact faulty
      · exact faultyAt_of_faultAddressAmong?
          (fun child membership way found => inductionHypothesis child membership found)
          (childrenFrom_zero (node description children)) searched

theorem faultLineAmong?_eq {parent : Node} {children : List Node}
    (inner : ∀ child ∈ children, child.faultLine? =
      child.faultAddress?.bind fun address => (child.at? address).map Node.line)
    {index : Nat} (aligned : ChildrenFrom parent index children) :
    faultLineAmong? children =
      (faultAddressAmong? index children).bind fun address => (parent.at? address).map Node.line := by
  induction children generalizing index with
  | nil => rfl
  | cons head rest inductionHypothesis =>
      have atIndex := aligned.head
      have further := inductionHypothesis
        (fun child membership => inner child (List.mem_cons_of_mem head membership)) aligned.tail
      rw [faultLineAmong?, faultAddressAmong?, inner head List.mem_cons_self, further]
      split
      · cases searched : head.faultAddress? with
        | none => rfl
        | some way =>
            obtain ⟨fault, found, _⟩ := faultyAt_eq_true_iff.mp (faultyAt_of_faultAddress? searched)
            simp [found, at?_cons, atIndex]
      · rfl

theorem faultLine?_eq (root : Node) : root.faultLine? =
    root.faultAddress?.bind fun address => (root.at? address).map Node.line := by
  induction root using inductionOnChildren with
  | step description children inductionHypothesis =>
      rw [faultLine?, faultAddress?]
      split
      · rw [Option.bind_some, at?_nil, Option.map_some]
        rfl
      · exact faultLineAmong?_eq inductionHypothesis
          (childrenFrom_zero (node description children))

/-! ### The search through the whole tree -/

theorem faultAddressAmong?_eq_find? {parent : Node} {children : List Node}
    (inner : ∀ child ∈ children, child.faultAddress? = child.addresses.find? child.faultyAt)
    (means : ∀ child ∈ children, DamageMeansFaults child)
    {index : Nat} (aligned : ChildrenFrom parent index children) :
    faultAddressAmong? index children = (addressesAmong index children).find? parent.faultyAt := by
  induction children generalizing index with
  | nil => rfl
  | cons head rest inductionHypothesis =>
      have atIndex := aligned.head
      have inHead : (head.addresses.map (index :: ·)).find? parent.faultyAt =
          head.faultAddress?.map (index :: ·) := by
        rw [inner head List.mem_cons_self, List.find?_map]
        exact congrArg (fun looksFor => (head.addresses.find? looksFor).map (index :: ·))
          (funext (faultyAt_cons atIndex))
      rw [faultAddressAmong?, addressesAmong, List.find?_append, inHead,
        inductionHypothesis (fun child membership => inner child (List.mem_cons_of_mem head membership))
          (fun child membership => means child (List.mem_cons_of_mem head membership)) aligned.tail]
      split
      · rfl
      · next undamaged =>
          -- A child that is not entered has no fault to be found.
          have noFault : head.faultAddress? = none := by
            rw [Option.eq_none_iff_forall_ne_some]
            intro way searched
            exact undamaged ((means head List.mem_cons_self).damaged_iff.mpr
              ⟨way, faultyAt_of_faultAddress? searched⟩)
          rw [noFault, Option.map_none, Option.none_or]

theorem faultAddress?_eq_find? {root : Node} (means : DamageMeansFaults root) :
    root.faultAddress? = root.addresses.find? root.faultyAt := by
  induction root using inductionOnChildren with
  | step description children inductionHypothesis =>
      have own : (node description children).faulty = description.faulty := rfl
      rw [faultAddress?, addresses, List.find?_cons, faultyAt_nil, own]
      cases description.faulty with
      | true => rfl
      | false =>
          exact faultAddressAmong?_eq_find?
            (fun child isChild => inductionHypothesis child isChild (means.of_child isChild))
            (fun child isChild => means.of_child isChild)
            (childrenFrom_zero (node description children))

theorem firstFault_of_find? {root : Node} {address : Address}
    (searched : root.addresses.find? root.faultyAt = some address) : root.FirstFault address := by
  obtain ⟨faulty, before, after, listed, noFaultBefore⟩ :=
    List.find?_eq_some_iff_append.mp searched
  refine ⟨faulty, ?_⟩
  intro other otherFaulty earlier
  have ascending := root.addresses_ascending
  rw [listed] at ascending
  have membership := mem_addresses_of_faultyAt otherFaulty
  rw [listed, List.mem_append, List.mem_cons] at membership
  rcases membership with inBefore | rfl | inAfter
  · simpa [otherFaulty] using noFaultBefore other inBefore
  · exact List.lt_irrefl _ earlier
  · have later := (List.pairwise_cons.mp (List.pairwise_append.mp ascending).2.1).1 other inAfter
    exact List.lt_irrefl _ (List.lt_trans earlier later)

theorem exists_firstFault {root : Node} (means : DamageMeansFaults root) {address : Address}
    (faulty : root.faultyAt address = true) :
    ∃ first fault, root.FirstFault first ∧ root.at? first = some fault ∧
      root.faultLine? = some fault.line := by
  have isFound : (root.addresses.find? root.faultyAt).isSome :=
    List.find?_isSome.mpr ⟨address, mem_addresses_of_faultyAt faulty, faulty⟩
  obtain ⟨first, searched⟩ := Option.isSome_iff_exists.mp isFound
  have isFirst := firstFault_of_find? searched
  obtain ⟨fault, found, _⟩ := faultyAt_eq_true_iff.mp isFirst.1
  refine ⟨first, fault, isFirst, found, ?_⟩
  rw [faultLine?_eq, faultAddress?_eq_find? means, searched, Option.bind_some, found,
    Option.map_some]

end Node

theorem parseWhole_of_read {read : TreeReader} {text : String} {root : Node}
    (known : read text = some root) (path : Path) :
    parseWhole read path text =
      if root.damaged then .error (.unparsable path (.near (root.faultLine?.getD 1)))
      else .ok root := by
  rw [parseWhole, known]

theorem exists_error_iff_damaged {read : TreeReader} {text : String} {root : Node}
    (known : read text = some root) (path : Path) :
    (∃ failure, parseWhole read path text = .error failure) ↔ root.damaged = true := by
  rw [parseWhole_of_read known]
  split
  · next damaged => simp [damaged]
  · next undamaged => simp [undamaged]

/-- Where damage means that there are faults, the first fault is told. -/
theorem tellsFirstFault_of_damage {read : TreeReader} {text : String} {root : Node}
    (known : read text = some root) (means : root.DamageMeansFaults) (path : Path) :
    TellsFirstFault read path text root where
  fails_iff := (exists_error_iff_damaged known path).trans means.damaged_iff
  told failure failed := by
    have damaged := (exists_error_iff_damaged known path).mp ⟨failure, failed⟩
    obtain ⟨address, faulty⟩ := means.damaged_iff.mp damaged
    obtain ⟨first, fault, isFirst, found, line⟩ := Node.exists_firstFault means faulty
    refine ⟨first, fault, isFirst, found, ?_⟩
    rw [parseWhole_of_read known, if_pos damaged, line] at failed
    exact (Except.error.inj failed).symm
  line := root.faultLine?_eq
  sameNode := Node.faultAddress?_eq_find? means
  lineFound damaged := by
    obtain ⟨address, faulty⟩ := means.damaged_iff.mp damaged
    obtain ⟨_, fault, _, _, line⟩ := Node.exists_firstFault means faulty
    exact ⟨fault.line, line⟩

open Node (written sign) in
/-- The tree of a text in which a `;` is missing on the second line and the third line is an error. -/
def twoFaults : Node :=
  let damaged (tree : Node) : Node := .node { tree.description with damaged := true } tree.children
  let faulty (tree : Node) : Node :=
    .node { tree.description with faulty := true, damaged := true } tree.children
  let missing : Node := faulty (.node { (sign 2 ";").description with text := "" } [])
  let answer := damaged (written "return_statement" [] 2 2 "return 1" [
    sign 2 "return", written "integer_literal" [] 2 2 "1" [], missing])
  let block := damaged (written "block" [] 2 2 "\x7breturn 1\x7d" [
    sign 2 "\x7b", answer, sign 2 "\x7d"])
  damaged (written "compilation_unit" [] 1 3 "class A;\n\x7breturn 1\x7d\nint" [
    written "class_declaration" [] 1 1 "class A;" [
      sign 1 "class", written "identifier" ["name"] 1 1 "A" [], sign 1 ";"],
    damaged (written "global_statement" [] 2 2 "\x7breturn 1\x7d" [block]),
    faulty (written "ERROR" [] 3 3 "int" [written "predefined_type" [] 3 3 "int" []])])

/-- The missing `;` is told. -/
theorem twoFaults_told :
    twoFaults.DamageMeansFaults ∧
      TellsFirstFault (fun _ => some twoFaults) ⟨"A.cs"⟩ twoFaults.text twoFaults ∧
      twoFaults.faultAddress? = some [1, 0, 1, 2] ∧ twoFaults.faultLine? = some 2 :=
  ⟨by decide +kernel, tellsFirstFault_of_damage rfl (by decide +kernel) ⟨"A.cs"⟩,
    by decide +kernel, by decide +kernel⟩

end SolutionSurvey
