import SolutionSurvey.Proofs.Dependency.Members
import SolutionSurvey.Proofs.Node.Refilling
import SolutionSurvey.Proofs.Node.Walk

/-!
# To which type a mention belongs

Whatever mentions a type belongs to the innermost declaration around it.  So what stands in a nested
declaration makes no difference to the outer ones, as long as no types are declared in the middle of
what is mentioned.
-/

namespace SolutionSurvey

open Node (Refilled written sign)

/-- A type is declared at an address. -/
def DeclaresAt (tree : Node) (address : Address) : Prop :=
  ∃ node, tree.at? address = some node ∧ Declaration.declaresType node = true

/-- The declaration is around an address, and every other one around the address is around it. -/
def NearestDeclaration (tree : Node) (outer inner : Address) : Prop :=
  DeclaresAt tree outer ∧ outer.Above inner ∧
    ∀ other, DeclaresAt tree other → other.Above inner → other <+: outer

namespace Candidates

/-- The name of a declaration stands at an address: it is the first child that the declaration refers
to as its name, and an identifier. -/
def OwnName (tree : Node) (outer inner : Address) : Prop :=
  ∃ declaration name, tree.at? outer = some declaration ∧
    inner = outer ++
      [declaration.children.findIdx fun child => child.description.fields.contains "name"] ∧
    tree.at? inner = some name ∧ name.kind = "identifier"

/-- A node that may mention types belongs to the declaration at an address: no other type is declared
in between, and it is not the name of the declaration. -/
structure BelongsTo (tree : Node) (outer inner : Address) : Prop where
  declares : DeclaresAt tree outer
  below : outer.Above inner
  mentioning : ∃ node, tree.at? inner = some node ∧ node.kind ∈ Candidates.mentioning
  nothingBetween : ∀ other, DeclaresAt tree other → outer.Above other → ¬ other.Above inner
  noName : ¬ OwnName tree outer inner

/-- No types are declared in the middle of what is mentioned, such as expressions and types. -/
def Clear (tree : Node) : Prop :=
  ∀ address node, tree.at? address = some node → ∀ mentioned ∈ mentionedBy node,
    ∀ inner, ¬ DeclaresAt mentioned inner

theorem clear_iff {tree : Node} : Clear tree ↔ ∀ place ∈ tree.places,
    ∀ mentioned ∈ mentionedBy place.node, ∀ inner ∈ mentioned.places,
      Declaration.declaresType inner.node = false := by
  have nodes : ∀ tree node : Node, (∃ place ∈ tree.places, place.node = node) ↔
      ∃ address, tree.at? address = some node := by
    intro tree node
    rw [← List.mem_map, Node.map_node_places, List.mem_filterMap]
    refine exists_congr fun address => and_iff_right_of_imp fun isNode => ?_
    rw [Node.mem_addresses, isNode]
    rfl
  constructor
  · intro clear place isPlace mentioned isMentioned inner isInner
    obtain ⟨address, isNode⟩ := (nodes tree place.node).mp ⟨place, isPlace, rfl⟩
    obtain ⟨way, isInner⟩ := (nodes mentioned inner.node).mp ⟨inner, isInner, rfl⟩
    rw [← Bool.not_eq_true]
    exact fun isType => clear address _ isNode mentioned isMentioned way ⟨_, isInner, isType⟩
  · rintro plain address node isNode mentioned isMentioned way ⟨inner, isInner, isType⟩
    obtain ⟨place, isPlace, rfl⟩ := (nodes tree node).mpr ⟨address, isNode⟩
    obtain ⟨innerPlace, isPlaceToo, rfl⟩ := (nodes mentioned inner).mpr ⟨way, isInner⟩
    rw [plain place isPlace mentioned isMentioned innerPlace isPlaceToo] at isType
    cases isType

instance (tree : Node) : Decidable (Clear tree) := decidable_of_iff' _ clear_iff

/-! ### What is heard, by addresses -/

section Heard

variable {node child : Node} {index : Nat} {text : String}

theorem mem_heard_children : text ∈ heard node.children ↔ ∃ address found,
    node.reaches enters address = true ∧ node.at? address = some found ∧ text ∈ mentions found := by
  have walk : (Node.boundedAmong enters [] node.children).map (·.node) =
      (node.boundedAddresses enters).filterMap node.at? := by
    have places := Node.bounded_eq_filterMap enters node
    obtain ⟨description, children⟩ := node
    have bounded : Node.boundedAmong enters [.node description children] children =
        (Node.node description children).bounded enters := by rw [Node.bounded, Node.boundedWithin]
    rw [Node.children, ← Node.map_node_boundedAmong enters [.node description children], bounded,
      places, List.map_filterMap]
    exact List.filterMap_congr fun address _ => Node.map_node_place? _ address
  rw [heard, walk, List.mem_flatMap]
  simp only [List.mem_filterMap, Node.boundedAddresses, List.mem_filter, Node.mem_addresses]
  constructor
  · rintro ⟨found, ⟨address, ⟨_, reached⟩, isFound⟩, mentioned⟩
    exact ⟨address, found, reached, isFound, mentioned⟩
  · rintro ⟨address, found, reached, isFound, mentioned⟩
    exact ⟨found, ⟨address, ⟨Option.isSome_of_eq_some isFound, reached⟩, isFound⟩, mentioned⟩

theorem mem_heard_singleton : text ∈ heard [child] ↔
    text ∈ mentions child ∨ enters child = true ∧ text ∈ heard child.children := by
  obtain ⟨description, children⟩ := child
  rw [heard_cons, List.mem_append, Node.children]
  split
  · next entered => simp [entered, heard, Node.boundedAmong]
  · next entered => simp [entered, heard, Node.boundedAmong]

section Child

variable (atIndex : node.children[index]? = some child)
include atIndex

/-- What is heard in a child but not from the child itself. -/
theorem mem_heard_below : enters child = true ∧ text ∈ heard child.children ↔
    ∃ rest found, rest ≠ [] ∧ node.reaches enters (index :: rest) = true ∧
      node.at? (index :: rest) = some found ∧ text ∈ mentions found := by
  simp only [Node.reaches_cons atIndex, Node.at?_cons, atIndex, Option.bind_some]
  rw [mem_heard_children]
  constructor
  · rintro ⟨entered, rest, found, reached, isFound, mentioned⟩
    have started : rest ≠ [] := by
      rintro rfl
      rw [Node.reaches_nil] at reached
      cases reached
    exact ⟨rest, found, started, by simp [entered, reached], isFound, mentioned⟩
  · rintro ⟨rest, found, started, reached, isFound, mentioned⟩
    have notEmpty : rest.isEmpty = false := by simpa using started
    rw [notEmpty, Bool.false_or, Bool.and_eq_true] at reached
    exact ⟨reached.1, rest, found, reached.2, isFound, mentioned⟩

theorem mem_heard_child : text ∈ heard [child] ↔ ∃ rest found,
    node.reaches enters (index :: rest) = true ∧ node.at? (index :: rest) = some found ∧
      text ∈ mentions found := by
  have itself : node.at? [index] = some child := by
    rw [Node.at?_cons, atIndex, Option.bind_some, Node.at?_nil]
  rw [mem_heard_singleton, mem_heard_below atIndex]
  constructor
  · rintro (own | ⟨rest, found, _, heard⟩)
    · exact ⟨[], child, by rw [Node.reaches_cons atIndex]; rfl, itself, own⟩
    · exact ⟨rest, found, heard⟩
  · rintro ⟨rest, found, reached, isFound, mentioned⟩
    by_cases started : rest = []
    · subst started
      rw [itself, Option.some.injEq] at isFound
      exact .inl (isFound ▸ mentioned)
    · exact .inr ⟨rest, found, started, reached, isFound, mentioned⟩

end Child

theorem mem_heard_iff_getElem? {nodes : List Node} :
    text ∈ heard nodes ↔
      ∃ (index : Nat) (child : Node), nodes[index]? = some child ∧ text ∈ heard [child] := by
  rw [heard_eq_flatMap, List.mem_flatMap]
  simp only [List.mem_iff_getElem?]
  constructor
  · rintro ⟨child, ⟨index, atIndex⟩, inChild⟩
    exact ⟨index, child, atIndex, inChild⟩
  · rintro ⟨index, child, atIndex, inChild⟩
    exact ⟨child, ⟨index, atIndex⟩, inChild⟩

theorem exists_getElem?_cons {first : Node} {rest : List Node} {holds : Nat → Node → Prop} :
    (∃ index child, (first :: rest)[index]? = some child ∧ holds index child) ↔
      holds 0 first ∨ ∃ index child, rest[index]? = some child ∧ holds (index + 1) child := by
  constructor
  · rintro ⟨_ | index, child, atIndex, held⟩
    · exact .inl (Option.some.inj atIndex ▸ held)
    · exact .inr ⟨index, child, atIndex, held⟩
  · rintro (held | ⟨index, child, atIndex, held⟩)
    · exact ⟨0, first, rfl, held⟩
    · exact ⟨index + 1, child, atIndex, held⟩

/-- Of the name of a declaration only what is in it is heard. -/
theorem mem_heard_withoutName {nodes : List Node} : text ∈ heard (withoutName nodes) ↔
    ∃ index child, nodes[index]? = some child ∧
      if index = nodes.findIdx (·.description.fields.contains "name") ∧ child.kind = "identifier"
      then text ∈ heard child.children else text ∈ heard [child] := by
  induction nodes with
  | nil => simp [withoutName, heard, Node.boundedAmong]
  | cons first rest inductionHypothesis =>
      -- The first child may be what the declaration refers to as its name; only then its kind counts.
      rw [exists_getElem?_cons, withoutName, List.findIdx_cons]
      by_cases named : first.description.fields.contains "name" = true
      · simp only [named, if_true, cond_true, true_and, Nat.add_eq_zero_iff, Nat.one_ne_zero,
          and_false, false_and, if_false, ← mem_heard_iff_getElem?]
        by_cases identifier : first.kind = "identifier"
        · simp only [identifier, beq_self_eq_true, if_true, heard_append, List.mem_append]
        · simp only [identifier, beq_iff_eq, if_false]
          rw [← List.singleton_append, heard_append, List.mem_append]
      · rw [Bool.not_eq_true] at named
        simp only [named, Bool.false_eq_true, if_false, cond_false, Nat.right_eq_add,
          Nat.add_right_cancel_iff, ← inductionHypothesis]
        rw [← List.singleton_append, heard_append, List.mem_append]
        simp

end Heard

/-! ### What belongs to a declaration -/

section Declaration

variable {tree declaration : Node} {outer : Address} (found : tree.at? outer = some declaration)
include found

theorem ownName_append_iff {index : Nat} {rest : Address} {node : Node}
    (isNode : tree.at? (outer ++ index :: rest) = some node) :
    OwnName tree outer (outer ++ index :: rest) ↔ rest = [] ∧
      index = declaration.children.findIdx (·.description.fields.contains "name") ∧
      node.kind = "identifier" := by
  constructor
  · rintro ⟨itself, name, isItself, sameAddress, isName, identifier⟩
    obtain rfl := Option.some.inj (found.symm.trans isItself)
    obtain rfl := Option.some.inj (isNode.symm.trans isName)
    obtain ⟨rfl, rfl⟩ := List.cons_eq_cons.mp (List.append_cancel_left sameAddress)
    exact ⟨rfl, rfl, identifier⟩
  · rintro ⟨rfl, rfl, identifier⟩
    exact ⟨declaration, node, found, rfl, isNode, identifier⟩

variable (declares : Declaration.declaresType declaration = true)
include declares

theorem belongsTo_append_iff {index : Nat} {rest : Address} {node : Node}
    (isNode : tree.at? (outer ++ index :: rest) = some node)
    (mentioning : node.kind ∈ Candidates.mentioning) :
    BelongsTo tree outer (outer ++ index :: rest) ↔
      declaration.reaches enters (index :: rest) = true ∧
        ¬ (rest = [] ∧ index =
          declaration.children.findIdx (·.description.fields.contains "name") ∧
          node.kind = "identifier") := by
  have inDeclaration : ∀ way, tree.at? (outer ++ way) = declaration.at? way :=
    Node.at?_below found
  rw [← ownName_append_iff found isNode, Node.reaches_iff]
  constructor
  · intro belongs
    refine ⟨⟨?_, List.cons_ne_nil index rest, ?_⟩, belongs.noName⟩
    · rw [← inDeclaration, isNode]
      rfl
    · intro way between started above isBetween
      by_contra notEntered
      have declaresBetween : Declaration.declaresType between = true := by
        simpa [enters] using notEntered
      refine belongs.nothingBetween (outer ++ way) ⟨between, ?_, declaresBetween⟩ ?_ ?_
      · rw [inDeclaration, isBetween]
      · exact ⟨List.prefix_append outer way, by simpa using started⟩
      · exact Address.append_above_append_iff.mpr above
  · rintro ⟨⟨_, _, allEntered⟩, noName⟩
    refine ⟨⟨declaration, found, declares⟩, ?_, ⟨node, isNode, mentioning⟩, ?_, noName⟩
    · exact ⟨List.prefix_append outer _, by simp⟩
    · rintro other ⟨between, isBetween, declaresBetween⟩ ⟨⟨way, rfl⟩, different⟩ above
      have started : way ≠ [] := by
        rintro rfl
        exact different (List.append_nil outer).symm
      have entered := allEntered way between started (Address.append_above_append_iff.mp above)
        (by rw [← inDeclaration, isBetween])
      rw [enters, declaresBetween] at entered
      cases entered

/-- What is heard of a declaration is mentioned by the nodes that belong to it. -/
theorem mem_heard_iff_belongsTo {text : String} :
    text ∈ heard (withoutName declaration.children) ↔ ∃ inner node,
      BelongsTo tree outer inner ∧ tree.at? inner = some node ∧ text ∈ mentions node := by
  have inDeclaration : ∀ way, tree.at? (outer ++ way) = declaration.at? way :=
    Node.at?_below found
  have mentioning : ∀ node, text ∈ mentions node → node.kind ∈ Candidates.mentioning := by
    intro node mentioned
    by_contra quiet
    rw [mentions_eq_nil quiet] at mentioned
    cases mentioned
  rw [mem_heard_withoutName]
  constructor
  · rintro ⟨index, child, atIndex, inChild⟩
    split at inChild
    · next named =>
      have entered : enters child = true := by
        rw [enters, Declaration.declaresType, named.2]
        decide
      obtain ⟨rest, node, started, reached, isNode, mentioned⟩ :=
        (mem_heard_below atIndex).mp ⟨entered, inChild⟩
      rw [← inDeclaration] at isNode
      exact ⟨outer ++ index :: rest, node,
        (belongsTo_append_iff found declares isNode (mentioning node mentioned)).mpr
          ⟨reached, fun itself => started itself.1⟩, isNode, mentioned⟩
    · next unnamed =>
      obtain ⟨rest, node, reached, isNode, mentioned⟩ := (mem_heard_child atIndex).mp inChild
      have itself : rest = [] → node = child := by
        rintro rfl
        rw [Node.at?_cons, atIndex, Option.bind_some, Node.at?_nil] at isNode
        exact (Option.some.inj isNode).symm
      rw [← inDeclaration] at isNode
      refine ⟨outer ++ index :: rest, node,
        (belongsTo_append_iff found declares isNode (mentioning node mentioned)).mpr
          ⟨reached, ?_⟩, isNode, mentioned⟩
      rintro ⟨here, isIndex, identifier⟩
      exact unnamed ⟨isIndex, itself here ▸ identifier⟩
  · rintro ⟨inner, node, belongs, isNode, mentioned⟩
    obtain ⟨⟨way, rfl⟩, different⟩ := belongs.below
    cases way with
    | nil => exact absurd (List.append_nil outer).symm different
    | cons index rest =>
        obtain ⟨reached, noName⟩ :=
          (belongsTo_append_iff found declares isNode (mentioning node mentioned)).mp belongs
        rw [inDeclaration] at isNode
        have present := isNode
        rw [Node.at?_cons] at present
        obtain ⟨child, atIndex, inChild⟩ := Option.bind_eq_some_iff.mp present
        refine ⟨index, child, atIndex, ?_⟩
        split
        · next named =>
          refine ((mem_heard_below atIndex).mpr ⟨rest, node, ?_, reached, isNode, mentioned⟩).2
          rintro rfl
          rw [Node.at?_nil] at inChild
          exact noName ⟨rfl, named.1, Option.some.inj inChild ▸ named.2⟩
        · exact (mem_heard_child atIndex).mpr ⟨rest, node, reached, isNode, mentioned⟩

theorem mem_ofDeclaration_iff_belongsTo (candidate : String) :
    candidate ∈ ofDeclaration declaration ↔ candidate ≠ "" ∧ ∃ inner node,
      BelongsTo tree outer inner ∧ tree.at? inner = some node ∧
        ∃ text ∈ mentions node, Text.trim text = candidate := by
  rw [mem_ofDeclaration]
  simp only [mem_heard_iff_belongsTo found declares]
  constructor
  · rintro ⟨written, text, ⟨inner, node, belongs, isNode, mentioned⟩, trimmed⟩
    exact ⟨written, inner, node, belongs, isNode, text, mentioned, trimmed⟩
  · rintro ⟨written, inner, node, belongs, isNode, text, mentioned, trimmed⟩
    exact ⟨written, text, ⟨inner, node, belongs, isNode, mentioned⟩, trimmed⟩

end Declaration

theorem BelongsTo.nearest {tree : Node} {outer inner : Address}
    (belongs : BelongsTo tree outer inner) : NearestDeclaration tree outer inner :=
  ⟨belongs.declares, belongs.below, fun _ =>
    Address.prefix_of_nothingBetween belongs.below belongs.nothingBetween⟩

/-- Nothing belongs to two declarations. -/
theorem BelongsTo.unique {tree : Node} {first second inner : Address}
    (belongsFirst : BelongsTo tree first inner) (belongsSecond : BelongsTo tree second inner) :
    first = second := by
  have outward := belongsSecond.nearest.2.2 first belongsFirst.declares belongsFirst.below
  have outwardToo := belongsFirst.nearest.2.2 second belongsSecond.declares belongsSecond.below
  exact outward.eq_of_length_le outwardToo.length_le

/-! ### Other contents of a nested declaration -/

theorem declaresAt_child {one : Description} {before after : List Node} {child : Node}
    {way : Address} (declares : DeclaresAt (.node one (before ++ child :: after))
      (before.length :: way)) : DeclaresAt child way := by
  obtain ⟨node, isNode, isType⟩ := declares
  rw [Node.at?_cons, Node.children, List.getElem?_append_right (Nat.le_refl _),
    Nat.sub_self] at isNode
  exact ⟨node, isNode, isType⟩

theorem map_text_of_withoutLines {found foundToo : Option Node}
    (same : found.map Node.withoutLines = foundToo.map Node.withoutLines) :
    found.toList.map (·.text) = foundToo.toList.map (·.text) := by
  rw [← map_text_withoutLines, same, map_text_withoutLines]

section Row

variable (before : List Node) {child childToo : Node} {after afterToo : List Node}
  {one other : Description} {way : Address} (refilled : Refilled way child childToo)
  (declares : DeclaresAt child way)
  (moved : after.map Node.withoutLines = afterToo.map Node.withoutLines)
include refilled moved

theorem child?_of_refilled (field : String) :
    (Node.node one (before ++ child :: after)).child? field = some child ∧
        (Node.node other (before ++ childToo :: afterToo)).child? field = some childToo ∨
      ((Node.node one (before ++ child :: after)).child? field).map Node.withoutLines =
        ((Node.node other (before ++ childToo :: afterToo)).child? field).map
          Node.withoutLines := by
  have fields : child.description.fields = childToo.description.fields := refilled.role.fields
  have find := @Node.find?_of_moved before child childToo after afterToo moved
    (fun node => node.description.fields.contains field)
  exact find (by rw [fields]) fun node => by rw [Node.fields_withoutLines]

include declares

/-- A child that does not hold the declaration is found again as it was. -/
theorem child?_of_clear {field : String}
    (clear : ∀ found ∈ ((Node.node one (before ++ child :: after)).child? field).toList,
      ∀ inner, ¬ DeclaresAt found inner) :
    ((Node.node one (before ++ child :: after)).child? field).map Node.withoutLines =
      ((Node.node other (before ++ childToo :: afterToo)).child? field).map Node.withoutLines := by
  rcases child?_of_refilled before refilled moved field with ⟨itself, _⟩ | same
  · rw [itself] at clear
    exact absurd declares (clear child (List.mem_singleton_self _) way)
  · exact same

theorem filter_named_of_clear
    (clear : ∀ found ∈ (before ++ child :: after).filter Node.named,
      ∀ inner, ¬ DeclaresAt found inner) :
    ((before ++ child :: after).filter Node.named).map (·.text) =
      ((before ++ childToo :: afterToo).filter Node.named).map (·.text) := by
  have unnamed : child.named = false := by
    by_contra named
    rw [Bool.not_eq_false] at named
    exact clear child (by simp [named]) way declares
  have sameNamed : child.named = childToo.named := refilled.role.named
  have unnamedToo : childToo.named = false := sameNamed ▸ unnamed
  have texts : ∀ nodes : List Node, (nodes.filter Node.named).map (·.text) =
      ((nodes.map Node.withoutLines).filter Node.named).map (·.text) := by
    intro nodes
    simp [List.filter_map, Function.comp_def]
  rw [List.filter_append, List.filter_append, List.filter_cons_of_neg (by simp [unnamed]),
    List.filter_cons_of_neg (by simp [unnamedToo]), List.map_append, List.map_append,
    texts after, moved, ← texts]

theorem receiver?_of_clear
    (clear : ∀ found ∈ (receiver? (.node one (before ++ child :: after))).toList,
      ∀ inner, ¬ DeclaresAt found inner) :
    (receiver? (.node one (before ++ child :: after))).map Node.withoutLines =
      (receiver? (.node other (before ++ childToo :: afterToo))).map Node.withoutLines := by
  rw [receiver?] at clear
  rw [receiver?, receiver?]
  -- The declaration may lie in what is called, but not in the receiver.
  rcases child?_of_refilled before refilled moved "function" with ⟨itself, itselfToo⟩ | same
  · rw [itself, Option.bind_some] at clear
    have sameKind : child.kind = childToo.kind := refilled.role.kind
    rw [itself, itselfToo, Option.bind_some, Option.bind_some, ← sameKind]
    split
    · next access =>
      rw [if_pos access] at clear
      cases refilled with
      | @here one other role children others =>
          obtain ⟨node, isNode, isType⟩ := declares
          obtain rfl := Option.some.inj isNode
          rw [Declaration.declaresType, eq_of_beq access] at isType
          exact absurd isType (by decide)
      | within before role refilled moved =>
          exact child?_of_clear before refilled (declaresAt_child declares) moved clear
    · rfl
  · rw [← receiverOf_withoutLines, same, receiverOf_withoutLines]

end Row

theorem mentions_of_refilled {way : Address} {node nodeToo : Node}
    (refilled : Refilled way node nodeToo) (declares : DeclaresAt node way)
    (clear : ∀ mentioned ∈ mentionedBy node, ∀ inner, ¬ DeclaresAt mentioned inner) :
    mentions node = mentions nodeToo := by
  have sameKind : node.kind = nodeToo.kind := refilled.role.kind
  cases refilled with
  | here role children others =>
      obtain ⟨node, isNode, isType⟩ := declares
      obtain rfl := Option.some.inj isNode
      have quiet : ∀ kind ∈ Declaration.kinds, kind ∉ mentioning := by decide
      have quietNode := quiet _ (List.contains_iff_mem.mp isType)
      rw [mentions_eq_nil quietNode, mentions_eq_nil (sameKind ▸ quietNode)]
  | @within before child childToo after afterToo way one other role refilled moved =>
      have declaresChild := declaresAt_child declares
      unfold mentionedBy at clear
      unfold mentions mentionedBy
      rw [← sameKind]
      -- For each kind, the child with the declaration is not among the nodes that are mentioned.
      generalize (Node.node one (before ++ child :: after)).kind = kind at clear
      split
      · exact absurd declares (clear _ (List.mem_singleton_self _) _)
      · exact filter_named_of_clear before refilled declaresChild moved clear
      · exact filter_named_of_clear before refilled declaresChild moved clear
      case h_4 | h_5 | h_6 | h_7 =>
        exact map_text_of_withoutLines (child?_of_clear before refilled declaresChild moved clear)
      · exact map_text_of_withoutLines (receiver?_of_clear before refilled declaresChild moved clear)
      · rfl

section Tree

variable {way outer inner : Address} {tree treeToo : Node} (refilled : Refilled way tree treeToo)
include refilled

theorem declaresAt_of_refilled {address : Address} (outside : ¬ way.Above address)
    (declares : DeclaresAt tree address) : DeclaresAt treeToo address := by
  obtain ⟨node, isNode, isType⟩ := declares
  obtain ⟨nodeToo, isNodeToo, alike⟩ := refilled.exists_at? outside isNode
  have sameKind : node.kind = nodeToo.kind := Node.kind_of_alike alike
  rw [Declaration.declaresType, sameKind] at isType
  exact ⟨nodeToo, isNodeToo, isType⟩

theorem ownName_of_refilled (above : outer.Above way) (outside : ¬ way.Above inner)
    (own : OwnName tree outer inner) : OwnName treeToo outer inner := by
  obtain ⟨declaration, name, isDeclaration, sameAddress, isName, identifier⟩ := own
  obtain ⟨declarationToo, isDeclarationToo, alike⟩ :=
    refilled.exists_at? above.not_above isDeclaration
  obtain ⟨nameToo, isNameToo, alikeName⟩ := refilled.exists_at? outside isName
  refine ⟨declarationToo, nameToo, isDeclarationToo, ?_, isNameToo, ?_⟩
  · have index : ∀ nodes : List Node,
        nodes.findIdx (·.description.fields.contains "name") =
          (nodes.map (·.description.fields)).findIdx (·.contains "name") := by
      intro nodes
      rw [List.findIdx_map]
      rfl
    rw [sameAddress, index, index, Node.fields_of_alike alike above.2]
  · rw [← Node.kind_of_alike alikeName, identifier]

/-- Whatever belongs to a declaration belongs to it after a nested one has got other contents. -/
theorem belongsTo_of_refilled (declares : DeclaresAt tree way) (above : outer.Above way)
    (belongs : BelongsTo tree outer inner) : BelongsTo treeToo outer inner := by
  have outside : ¬ way.Above inner := belongs.nothingBetween way declares above
  obtain ⟨node, isNode, mentioning⟩ := belongs.mentioning
  obtain ⟨nodeToo, isNodeToo, alike⟩ := refilled.exists_at? outside isNode
  refine ⟨declaresAt_of_refilled refilled above.not_above belongs.declares, belongs.below,
    ⟨nodeToo, isNodeToo, Node.kind_of_alike alike ▸ mentioning⟩, ?_, ?_⟩
  · intro other declaresToo between aboveInner
    have outsideOther : ¬ way.Above other := fun wayAbove => outside (wayAbove.trans aboveInner)
    exact belongs.nothingBetween other
      (declaresAt_of_refilled refilled.symm outsideOther declaresToo) between aboveInner
  · exact fun own => belongs.noName (ownName_of_refilled refilled.symm above outside own)

theorem mentions_of_outside {node nodeToo : Node} (clear : Clear tree)
    (declares : DeclaresAt tree way) (outside : ¬ way.Above inner)
    (isNode : tree.at? inner = some node) (isNodeToo : treeToo.at? inner = some nodeToo) :
    mentions node = mentions nodeToo := by
  obtain ⟨found, isFound, alike⟩ := refilled.exists_at? outside isNode
  obtain rfl := Option.some.inj (isNodeToo.symm.trans isFound)
  rcases alike with same | ⟨rest, rfl, inNode⟩
  · rw [← mentions_withoutLines, same, mentions_withoutLines]
  · obtain ⟨declaration, isDeclaration, isType⟩ := declares
    rw [Node.at?_below isNode] at isDeclaration
    exact mentions_of_refilled inNode ⟨declaration, isDeclaration, isType⟩ (clear inner node isNode)

/-- The candidates of the outer declarations stay the same. -/
theorem ofDeclaration_of_refilled (clear : Clear tree) (declares : DeclaresAt tree way)
    (above : outer.Above way) {declaration : Node} (found : tree.at? outer = some declaration)
    (isType : Declaration.declaresType declaration = true) :
    ∃ declarationToo, treeToo.at? outer = some declarationToo ∧
      ofDeclaration declarationToo = ofDeclaration declaration := by
  have declaresToo : DeclaresAt treeToo way :=
    declaresAt_of_refilled refilled (fun itself => itself.2 rfl) declares
  obtain ⟨declarationToo, foundToo, alike⟩ := refilled.exists_at? above.not_above found
  have isTypeToo : Declaration.declaresType declarationToo = true := by
    rwa [Declaration.declaresType, ← Node.kind_of_alike alike]
  refine ⟨declarationToo, foundToo, ?_⟩
  have texts : ∀ text, text ∈ heard (withoutName declarationToo.children) ↔
      text ∈ heard (withoutName declaration.children) := by
    intro text
    rw [mem_heard_iff_belongsTo found isType, mem_heard_iff_belongsTo foundToo isTypeToo]
    constructor
    · rintro ⟨inner, nodeToo, belongs, isNodeToo, mentioned⟩
      have outside : ¬ way.Above inner := belongs.nothingBetween way declaresToo above
      obtain ⟨node, isNode, _⟩ := refilled.symm.exists_at? outside isNodeToo
      rw [← mentions_of_outside refilled clear declares outside isNode isNodeToo] at mentioned
      have belongsToo := belongsTo_of_refilled refilled.symm declaresToo above belongs
      exact ⟨inner, node, belongsToo, isNode, mentioned⟩
    · rintro ⟨inner, node, belongs, isNode, mentioned⟩
      have outside : ¬ way.Above inner := belongs.nothingBetween way declares above
      obtain ⟨nodeToo, isNodeToo, _⟩ := refilled.exists_at? outside isNode
      rw [mentions_of_outside refilled clear declares outside isNode isNodeToo] at mentioned
      have belongsToo := belongsTo_of_refilled refilled declares above belongs
      exact ⟨inner, nodeToo, belongsToo, isNodeToo, mentioned⟩
  rw [ofDeclaration_eq_heard, ofDeclaration_eq_heard]
  apply Distinct.ofList_eq_of_mem_iff
  intro candidate
  simp only [List.mem_filter, List.mem_map, texts]

end Tree

/-- The candidates of a declaration are what is mentioned by the nodes that belong to it, each once.
These nodes belong to no other declaration; it is the innermost one around them.  Where types are not
declared in the middle of what is mentioned, the contents of nested declarations do not count. -/
theorem ofDeclaration_innermost {tree declaration : Node} {outer : Address}
    (found : tree.at? outer = some declaration)
    (isType : Declaration.declaresType declaration = true) :
    Ascending compare (ofDeclaration declaration) ∧
      (∀ candidate, candidate ∈ ofDeclaration declaration ↔ candidate ≠ "" ∧ ∃ inner node,
        BelongsTo tree outer inner ∧ tree.at? inner = some node ∧
          ∃ text ∈ mentions node, Text.trim text = candidate) ∧
      (∀ inner, BelongsTo tree outer inner → NearestDeclaration tree outer inner ∧
        ∀ other, BelongsTo tree other inner → other = outer) ∧
      (Clear tree → ∀ way treeToo, DeclaresAt tree way → outer.Above way →
        Refilled way tree treeToo → ∃ declarationToo, treeToo.at? outer = some declarationToo ∧
          ofDeclaration declarationToo = ofDeclaration declaration) := by
  refine ⟨Distinct.ascending_ofList _, mem_ofDeclaration_iff_belongsTo found isType, ?_, ?_⟩
  · intro inner belongs
    exact ⟨belongs.nearest, fun other belongsToo => belongsToo.unique belongs⟩
  · intro clear way treeToo declares above refilled
    exact ofDeclaration_of_refilled refilled clear declares above found isType

/-! ### A nested type -/

def namedNode (name : String) (fields : List String) : Node :=
  written "identifier" fields 1 1 name []

def classNode (name : String) (others : List Node) : Node :=
  written "class_declaration" [] 1 9 "" (namedNode name ["name"] :: others)

def memberOf (type : String) : Node :=
  written "variable_declaration" [] 2 2 "" [namedNode type ["type"]]

/-- The class `Outer : Base` with a member of type `Inner`, and in it the class `Inner` with other
members. -/
def outerNode (members : List Node) : Node :=
  classNode "Outer"
    ([written "base_list" [] 1 1 ": Base" [namedNode "Base" []], memberOf "Inner"] ++
      classNode "Inner" members :: [])

def unitNode (members : List Node) : Node :=
  written "compilation_unit" [] 1 9 "" [outerNode members]

theorem ofDeclaration_outerNode :
    (unitNode [memberOf "First"]).at? [0] = some (outerNode [memberOf "First"]) ∧
      Declaration.declaresType (outerNode [memberOf "First"]) = true ∧
      Clear (unitNode [memberOf "First"]) ∧ DeclaresAt (unitNode [memberOf "First"]) [0, 3] ∧
      Address.Above [0] [0, 3] ∧
      Refilled [0, 3] (unitNode [memberOf "First"]) (unitNode [memberOf "Second"]) ∧
      ofDeclaration (outerNode [memberOf "First"]) = ["Base", "Inner"] ∧
      ∃ declarationToo, (unitNode [memberOf "Second"]).at? [0] = some declarationToo ∧
        ofDeclaration declarationToo = ofDeclaration (outerNode [memberOf "First"]) := by
  have found : (unitNode [memberOf "First"]).at? [0] = some (outerNode [memberOf "First"]) := rfl
  have isType : Declaration.declaresType (outerNode [memberOf "First"]) = true := by decide
  have clear : Clear (unitNode [memberOf "First"]) := by decide +kernel
  have nested : DeclaresAt (unitNode [memberOf "First"]) [0, 3] :=
    ⟨classNode "Inner" [memberOf "First"], rfl, by decide⟩
  have above : Address.Above [0] [0, 3] := ⟨by decide, by decide⟩
  have refilled : Refilled [0, 3] (unitNode [memberOf "First"]) (unitNode [memberOf "Second"]) :=
    .within [] ⟨rfl, rfl, rfl⟩
      (.within [_, _, _] ⟨rfl, rfl, rfl⟩ (.here ⟨rfl, rfl, rfl⟩ _ _) rfl) rfl
  obtain ⟨_, _, _, unchanged⟩ := ofDeclaration_innermost found isType
  exact ⟨found, isType, clear, nested, above, refilled, by decide +kernel,
    unchanged clear [0, 3] _ nested above refilled⟩

end Candidates

end SolutionSurvey
