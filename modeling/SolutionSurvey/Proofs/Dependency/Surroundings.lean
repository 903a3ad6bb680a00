import SolutionSurvey.Proofs.Dependency.Rewording
import SolutionSurvey.Proofs.Node.Lines

/-!
# What is read of a declaration

What a declaration refers to depends on what the nodes around it tell it and on the texts that are
heard below it.  Neither depends on lines, and of a file nothing else counts for the pairs of types
that are found in it.
-/

namespace SolutionSurvey

open Node (written sign)

/-- What a node tells the declarations in it, and a declaration itself. -/
structure Setting where
  kind : String
  name : Option String
  directives : List Directive
  /-- The name of a namespace that takes up the whole file, if there is one. -/
  whole : Option (Option String)

namespace Setting

def ofNode (node : Node) : Setting where
  kind := node.kind
  name := (node.child? "name").map (·.text)
  directives := Imports.directivesOf node
  whole := (node.children.find? fun child =>
    child.kind == "file_scoped_namespace_declaration").map Declaration.nameOfNamespace?

def namespaceName? (setting : Setting) : Option String :=
  setting.name.bind fun name => if Text.compact name == "" then none else some (Text.compact name)

theorem namespaceName?_ofNode (node : Node) :
    (ofNode node).namespaceName? = Declaration.nameOfNamespace? node := by
  unfold namespaceName? ofNode Declaration.nameOfNamespace?
  cases node.child? "name" <;> rfl

end Setting

/-- The settings of a place, innermost first. -/
def Place.settings (place : Place) : List Setting := (place.node :: place.around).map Setting.ofNode

theorem Imports.visibleAt_eq_settings (place : Place) :
    visibleAt place =
      ofDirectives ((place.around.map Setting.ofNode).reverse.flatMap (·.directives)) := by
  rw [visibleAt, ← List.map_reverse, List.flatMap_map]
  rfl

theorem Declaration.namespaceAt?_eq_settings (place : Place) :
    namespaceAt? place =
      match ((place.around.map Setting.ofNode).getLast?.getD (Setting.ofNode place.node)).whole with
      | some name => name
      | none => ((place.around.map Setting.ofNode).find? fun setting =>
          ["namespace_declaration"].contains setting.kind).bind Setting.namespaceName? := by
  have root : (place.around.map Setting.ofNode).getLast?.getD (Setting.ofNode place.node) =
      Setting.ofNode place.root := by
    rw [List.getLast?_map, Place.root]
    cases place.around.getLast? <;> rfl
  have block : ((place.around.map Setting.ofNode).find? fun setting =>
      ["namespace_declaration"].contains setting.kind).bind Setting.namespaceName? =
        (place.enclosing? ["namespace_declaration"]).bind nameOfNamespace? := by
    rw [List.find?_map, Option.bind_map, Place.enclosing?]
    exact congrArg (Option.bind _) (funext Setting.namespaceName?_ofNode)
  rw [root, block, namespaceAt?, Setting.ofNode]
  cases place.root.children.find? _ <;> rfl

namespace References

/-- References of which only the place of their declaration is left out. -/
def unplaced (references : References) : References :=
  { references with declaration := { references.declaration with filePath := "", line := 0 } }

def ofPlace? (place : Place) : Option References :=
  (place.node.child? "name").bind fun name =>
    if name.text == "" then none
    else
      some
        { declaration :=
            { identifier := name.text, namespaceName := Declaration.namespaceAt? place
              qualifiedName := Declaration.qualify (Declaration.namespaceAt? place) name.text
              filePath := "", line := 0 }
          imports := Imports.visibleAt place
          candidates := Candidates.ofDeclaration place.node }

theorem ofPlace?_eq (file : SourceFile) (place : Place) :
    ofPlace? place = (Declaration.ofPlace? file place).map fun declaration =>
      unplaced ⟨declaration, Imports.visibleAt place, Candidates.ofDeclaration place.node⟩ := by
  unfold ofPlace? Declaration.ofPlace?
  cases place.node.child? "name" with
  | none => rfl
  | some name =>
      rw [Option.bind_some]
      dsimp only
      split <;> rfl

/-- Only the candidates depend on what is below a declaration. -/
theorem ofPlace?_of_settings {place other : Place} (same : place.settings = other.settings) :
    ofPlace? other = (ofPlace? place).map fun references =>
      { references with candidates := Candidates.ofDeclaration other.node } := by
  obtain ⟨sameNode, sameAround⟩ := List.cons_eq_cons.mp same
  have sameAround : place.around.map Setting.ofNode = other.around.map Setting.ofNode := sameAround
  have name : (place.node.child? "name").map (·.text) = (other.node.child? "name").map (·.text) :=
    congrArg Setting.name sameNode
  have imports : Imports.visibleAt place = Imports.visibleAt other := by
    rw [Imports.visibleAt_eq_settings, Imports.visibleAt_eq_settings, sameAround]
  have namespaces : Declaration.namespaceAt? place = Declaration.namespaceAt? other := by
    rw [Declaration.namespaceAt?_eq_settings, Declaration.namespaceAt?_eq_settings, sameAround,
      sameNode]
  unfold ofPlace?
  rw [imports, namespaces]
  cases first : place.node.child? "name" <;> cases second : other.node.child? "name"
  · rfl
  · simp [first, second] at name
  · simp [first, second] at name
  · next one another =>
    have text : one.text = another.text := by simpa [first, second] using name
    rw [Option.bind_some, Option.bind_some, text]
    split <;> rfl

theorem ofPlace?_eq_of_settings {place other : Place} (same : place.settings = other.settings)
    (candidates : Candidates.ofDeclaration place.node = Candidates.ofDeclaration other.node) :
    ofPlace? place = ofPlace? other := by
  rw [ofPlace?_of_settings same, ← candidates]
  exact ofPlace?_of_settings rfl

/-- What is read of the declarations at some places. -/
def readAt (places : List Place) : List References :=
  (places.filter fun place => Declaration.declaresType place.node).filterMap ofPlace?

theorem readAt_append (places others : List Place) :
    readAt (places ++ others) = readAt places ++ readAt others := by
  rw [readAt, List.filter_append, List.filterMap_append, readAt, readAt]

theorem readAt_cons (place : Place) (places : List Place) :
    readAt (place :: places) =
      (if Declaration.declaresType place.node then (ofPlace? place).toList else []) ++
        readAt places := by
  rw [readAt, List.filter_cons]
  split
  · rw [List.filterMap_cons]
    cases ofPlace? place <;> rfl
  · rfl

theorem map_unplaced_inFile (file : SourceFile) :
    (inFile file).map unplaced = readAt file.tree.places := by
  rw [inFile, List.map_filterMap, readAt, Declaration.placesIn]
  refine List.filterMap_congr fun place _ => ?_
  rw [ofPlace?_eq file, Option.map_map]
  rfl

end References

/-! ### What is heard -/

theorem Node.map_node_boundedAmong (enter : Node → Bool) (around : List Node) (nodes : List Node) :
    (boundedAmong enter around nodes).map (·.node) =
      (boundedAmong enter [] nodes).map (·.node) := by
  have within : ∀ node : Node, ∀ first second,
      (boundedWithin enter first node).map (·.node) =
        (boundedWithin enter second node).map (·.node) := by
    intro node
    induction node using inductionOnChildren with
    | step description children inductionHypothesis =>
        intro first second
        rw [boundedWithin, boundedWithin]
        generalize node description children :: first = first,
          node description children :: second = second
        induction children with
        | nil => rfl
        | cons child rest inRest =>
            obtain ⟨ofChild, ofRest⟩ := List.forall_mem_cons.mp inductionHypothesis
            rw [boundedAmong, boundedAmong, List.map_cons, List.map_cons, List.map_append,
              List.map_append, inRest ofRest]
            split
            · rw [ofChild first second]
            · rfl
  induction nodes with
  | nil => rfl
  | cons child rest inductionHypothesis =>
      rw [boundedAmong, boundedAmong, List.map_cons, List.map_cons, List.map_append,
        List.map_append, inductionHypothesis]
      split
      · rw [within child around []]
      · rfl

namespace Candidates

/-- The texts that are candidates because of a node. -/
def mentions (node : Node) : List String := (mentionedBy node).map (·.text)

/-- The texts that are candidates because of some nodes and what is below them. -/
def heard (nodes : List Node) : List String :=
  ((Node.boundedAmong enters [] nodes).map (·.node)).flatMap mentions

theorem heard_cons (description : Description) (children rest : List Node) :
    heard (.node description children :: rest) =
      mentions (.node description children) ++
        ((if enters (.node description children) then heard children else []) ++ heard rest) := by
  rw [heard, Node.boundedAmong, Node.boundedWithin, List.map_cons, List.map_append,
    List.flatMap_cons, List.flatMap_append]
  split
  · rw [Node.map_node_boundedAmong]
    rfl
  · rfl

theorem heard_append (nodes others : List Node) :
    heard (nodes ++ others) = heard nodes ++ heard others := by
  induction nodes with
  | nil => rfl
  | cons child rest inductionHypothesis =>
      obtain ⟨description, children⟩ := child
      rw [List.cons_append, heard_cons, heard_cons, inductionHypothesis]
      simp only [List.append_assoc]

theorem heard_around (before : List Node) (child : Node) (after : List Node) :
    heard (before ++ child :: after) = heard before ++ (heard [child] ++ heard after) := by
  rw [← List.singleton_append, heard_append, heard_append]

theorem ofDeclaration_eq_heard (declaration : Node) :
    ofDeclaration declaration = Distinct.ofList compare
      (((heard (withoutName declaration.children)).map Text.trim).filter (· != "")) := by
  rw [ofDeclaration, nodesOf, Node.map_node_boundedAmong, heard, List.map_flatMap, List.map_flatMap]
  simp only [mentions, List.map_map]
  rfl

theorem mem_ofDeclaration {declaration : Node} {candidate : String} :
    candidate ∈ ofDeclaration declaration ↔
      candidate ≠ "" ∧ ∃ text ∈ heard (withoutName declaration.children),
        Text.trim text = candidate := by
  rw [ofDeclaration_eq_heard, Distinct.mem_ofList, List.mem_filter, List.mem_map, bne_iff_ne,
    and_comm]

end Candidates

/-! ### Lines do not count -/

theorem Declaration.declaresType_withoutLines (node : Node) :
    declaresType node.withoutLines = declaresType node := by
  rw [declaresType, Node.kind_withoutLines, declaresType]

theorem Imports.directivesOf_withoutLines (node : Node) :
    directivesOf node.withoutLines = directivesOf node := by
  simp [directivesOf, Node.children_withoutLines, List.filter_map, List.filterMap_map,
    Function.comp_def]

theorem Setting.ofNode_withoutLines (node : Node) : ofNode node.withoutLines = ofNode node := by
  have name : (node.withoutLines.child? "name").map (·.text) =
      (node.child? "name").map (·.text) := by
    rw [Node.child?_withoutLines, Option.map_map]
    exact congrArg (Option.map · _) (funext Node.text_withoutLines)
  have nameOfNamespace : ∀ child : Node, Declaration.nameOfNamespace? child.withoutLines =
      Declaration.nameOfNamespace? child := by
    intro child
    unfold Declaration.nameOfNamespace?
    rw [Node.child?_withoutLines]
    cases child.child? "name" <;> simp
  rw [ofNode, ofNode, name, Imports.directivesOf_withoutLines, Node.kind_withoutLines,
    Node.children_withoutLines, Node.find?_map_withoutLines, Option.map_map]
  · congr 2
    exact funext nameOfNamespace
  · intro child
    rw [Node.kind_withoutLines]

namespace Candidates

theorem receiverOf_withoutLines (callee : Option Node) :
    ((callee.map Node.withoutLines).bind fun callee =>
      if callee.kind == "member_access_expression" then callee.child? "expression" else none) =
        (callee.bind fun callee => if callee.kind == "member_access_expression" then
          callee.child? "expression" else none).map Node.withoutLines := by
  rw [Option.bind_map, Option.map_bind]
  congr 1
  funext callee
  simp only [Function.comp_apply, Node.kind_withoutLines, Node.child?_withoutLines]
  split <;> rfl

theorem receiver?_withoutLines (node : Node) :
    receiver? node.withoutLines = (receiver? node).map Node.withoutLines := by
  rw [receiver?, Node.child?_withoutLines, receiverOf_withoutLines, receiver?]

theorem map_text_withoutLines (found : Option Node) :
    (found.map Node.withoutLines).toList.map (·.text) = found.toList.map (·.text) := by
  cases found with
  | none => rfl
  | some node => simp

theorem mentions_withoutLines (node : Node) : mentions node.withoutLines = mentions node := by
  unfold mentions mentionedBy
  rw [Node.kind_withoutLines]
  split
  · rw [List.map_singleton, List.map_singleton, Node.text_withoutLines]
  · simp [Node.children_withoutLines, List.filter_map, Function.comp_def]
  · simp [Node.children_withoutLines, List.filter_map, Function.comp_def]
  all_goals simp only [Node.child?_withoutLines, receiver?_withoutLines, map_text_withoutLines]

theorem heard_eq_flatMap (nodes : List Node) :
    heard nodes = nodes.flatMap fun node => heard [node] := by
  induction nodes with
  | nil => rfl
  | cons node rest inductionHypothesis =>
      rw [← List.singleton_append, heard_append, inductionHypothesis]
      rfl

theorem heard_withoutLines (nodes : List Node) :
    heard (nodes.map Node.withoutLines) = heard nodes := by
  have row : ∀ nodes : List Node, (∀ node ∈ nodes, heard [node.withoutLines] = heard [node]) →
      heard (nodes.map Node.withoutLines) = heard nodes := by
    intro nodes same
    rw [heard_eq_flatMap, List.flatMap_map, heard_eq_flatMap nodes]
    exact List.flatMap_congr same
  refine row nodes fun node membership => ?_
  clear membership
  induction node using Node.inductionOnChildren with
  | step description children inductionHypothesis =>
      have below := row children inductionHypothesis
      have own := mentions_withoutLines (.node description children)
      have entered : enters (Node.node description children).withoutLines =
          enters (.node description children) := by
        rw [enters, Declaration.declaresType_withoutLines, enters]
      rw [Node.withoutLines, Node.withoutLinesAmong_eq_map] at own entered ⊢
      rw [heard_cons, heard_cons, own, entered, below]

theorem withoutName_withoutLines (nodes : List Node) :
    withoutName (nodes.map Node.withoutLines) = (withoutName nodes).map Node.withoutLines := by
  induction nodes with
  | nil => rfl
  | cons node rest inductionHypothesis =>
      rw [List.map_cons, withoutName, withoutName, Node.fields_withoutLines, Node.kind_withoutLines,
        inductionHypothesis]
      split
      · split
        · rw [Node.children_withoutLines, List.map_append]
        · rfl
      · rfl

theorem ofDeclaration_withoutLines (declaration : Node) :
    ofDeclaration declaration.withoutLines = ofDeclaration declaration := by
  rw [ofDeclaration_eq_heard, Node.children_withoutLines, withoutName_withoutLines,
    heard_withoutLines, ofDeclaration_eq_heard]

end Candidates

/-! ### Rows that are read alike -/

theorem Node.placesAmong_append (around nodes others : List Node) :
    placesAmong around (nodes ++ others) =
      placesAmong around nodes ++ placesAmong around others := by
  induction nodes with
  | nil => rfl
  | cons node rest inductionHypothesis =>
      rw [List.cons_append, placesAmong, inductionHypothesis, placesAmong, List.append_assoc]

namespace References

/-- In the same settings, the same is read of the declarations in two rows of nodes. -/
def ReadsAs (nodes others : List Node) : Prop :=
  ∀ around aroundToo : List Node, around.map Setting.ofNode = aroundToo.map Setting.ofNode →
    readAt (Node.placesAmong around nodes) = readAt (Node.placesAmong aroundToo others)

namespace ReadsAs

variable {nodes others further furtherToo : List Node}

theorem symm (alike : ReadsAs nodes others) : ReadsAs others nodes :=
  fun around aroundToo outer => (alike aroundToo around outer.symm).symm

theorem trans (alike : ReadsAs nodes others) (alikeToo : ReadsAs others further) :
    ReadsAs nodes further :=
  fun around aroundToo outer => (alike around around rfl).trans (alikeToo around aroundToo outer)

theorem append (alike : ReadsAs nodes others) (alikeToo : ReadsAs further furtherToo) :
    ReadsAs (nodes ++ further) (others ++ furtherToo) := by
  intro around aroundToo outer
  rw [Node.placesAmong_append, Node.placesAmong_append, readAt_append, readAt_append,
    alike around aroundToo outer, alikeToo around aroundToo outer]

/-- A node is read as another one if both tell the same to the declarations in them. -/
theorem within {description descriptionToo : Description}
    (setting : Setting.ofNode (.node description nodes) =
      Setting.ofNode (.node descriptionToo others))
    (candidates : Declaration.declaresType (.node description nodes) →
      Candidates.ofDeclaration (.node description nodes) =
        Candidates.ofDeclaration (.node descriptionToo others))
    (alike : ReadsAs nodes others) :
    ReadsAs [.node description nodes] [.node descriptionToo others] := by
  intro around aroundToo outer
  have kind : description.kind = descriptionToo.kind := congrArg Setting.kind setting
  have declares : Declaration.declaresType (.node description nodes) =
      Declaration.declaresType (.node descriptionToo others) :=
    congrArg Declaration.kinds.contains kind
  have settings : (⟨.node description nodes, around⟩ : Place).settings =
      (⟨.node descriptionToo others, aroundToo⟩ : Place).settings :=
    congrArg₂ List.cons setting outer
  simp only [Node.placesAmong, Node.placesWithin, List.append_nil, readAt_cons]
  have inner : (Node.node description nodes :: around).map Setting.ofNode =
      (Node.node descriptionToo others :: aroundToo).map Setting.ofNode := settings
  rw [alike _ _ inner, ← declares]
  split
  · next isDeclaration => rw [ofPlace?_eq_of_settings settings (candidates isDeclaration)]
  · rfl

theorem withoutLines (nodes : List Node) : ReadsAs (nodes.map Node.withoutLines) nodes := by
  have row : ∀ nodes : List Node, (∀ node ∈ nodes, ReadsAs [node.withoutLines] [node]) →
      ReadsAs (nodes.map Node.withoutLines) nodes := by
    intro nodes alike
    induction nodes with
    | nil => exact fun _ _ _ => rfl
    | cons node rest inductionHypothesis =>
        obtain ⟨first, alike⟩ := List.forall_mem_cons.mp alike
        exact first.append (inductionHypothesis alike)
  refine row nodes fun node membership => ?_
  clear membership
  induction node using Node.inductionOnChildren with
  | step description children inductionHypothesis =>
      have setting := Setting.ofNode_withoutLines (.node description children)
      have candidates := Candidates.ofDeclaration_withoutLines (.node description children)
      rw [Node.withoutLines, Node.withoutLinesAmong_eq_map] at setting candidates ⊢
      exact within setting (fun _ => candidates) (row children inductionHypothesis)

theorem refl (nodes : List Node) : ReadsAs nodes nodes :=
  (withoutLines nodes).symm.trans (withoutLines nodes)

theorem between {child childToo : Node} (alike : ReadsAs [child] [childToo])
    (before after : List Node) :
    ReadsAs (before ++ child :: after) (before ++ childToo :: after) :=
  (refl before).append (alike.append (refl after))

end ReadsAs

/-- Trees that differ only in lines are read alike. -/
theorem readAt_places_of_withoutLines {tree other : Node}
    (same : tree.withoutLines = other.withoutLines) :
    readAt tree.places = readAt other.places := by
  have alike : ReadsAs [tree] [other] := by
    have first := ReadsAs.withoutLines [tree]
    have second := ReadsAs.withoutLines [other]
    rw [List.map_singleton] at first second
    rw [same] at first
    exact first.symm.trans second
  have places := alike [] [] rfl
  simpa only [Node.placesAmong, List.append_nil, Node.places] using places

end References

end SolutionSurvey
