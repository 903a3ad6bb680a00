import SolutionSurvey.Proofs.Collection.Alike
import SolutionSurvey.Proofs.Dependency.Analysis
import SolutionSurvey.Proofs.Node.Rewording

/-!
# Dependencies in reworded files

When comments or literals of some files are reworded, their types stay the same and are named the
same, as long as names and imports read as before.  What types may depend on changes only with the
texts that mention other types, and so the same pairs of types are found just if the texts that come
and go lead to no other pairs.
-/

namespace SolutionSurvey

open Node (Leeway Reworded Counterpart PlaceCounterpart Overlooks)

/-- Types and namespaces. -/
def Declaration.bearsName (node : Node) : Bool :=
  declaresType node ||
    ["namespace_declaration", "file_scoped_namespace_declaration"].contains node.kind

/-- Imports and the names of types and namespaces read as before. -/
structure Steady (one other : Node) : Prop where
  imports : one.kind = "using_directive" → one.text = other.text
  name : Declaration.bearsName one = true →
    (one.child? "name").map (·.text) = (other.child? "name").map (·.text)

/-- Also the texts that may mention other types read as before. -/
structure Unheard (one other : Node) : Prop extends Steady one other where
  mentions : (Candidates.mentionedBy one).map (·.text) =
    (Candidates.mentionedBy other).map (·.text)

/-- A file and what becomes of it when leaves of its tree are reworded. -/
def Edited (leeway : Leeway) (keeps : Node → Node → Prop) (file other : SourceFile) : Prop :=
  Reworded leeway keeps [file.tree] file.text [other.tree] other.text

theorem Edited.mono {leeway : Leeway} {keeps keepsToo : Node → Node → Prop}
    (weaker : ∀ one other, keeps one other → keepsToo one other) {file other : SourceFile}
    (edited : Edited leeway keeps file other) : Edited leeway keepsToo file other :=
  Reworded.mono weaker edited

/-- Two declarations go by the same name. -/
structure Declaration.SameNames (one other : Declaration) : Prop where
  namespaceName : one.namespaceName = other.namespaceName
  qualifiedName : one.qualifiedName = other.qualifiedName

/-- Every candidate leads to the same types from either declaration. -/
structure References.ReadAlike (one other : References) : Prop where
  names : Declaration.SameNames one.declaration other.declaration
  imports : one.imports = other.imports

theorem References.ReadAlike.symm {one other : References} (alike : ReadAlike one other) :
    ReadAlike other one where
  names := ⟨alike.names.namespaceName.symm, alike.names.qualifiedName.symm⟩
  imports := alike.imports.symm

variable {leeway : Leeway} {keeps : Node → Node → Prop}

theorem overlooks_kind {α : Type} {nothing : α} (view : String → α)
    (comment : view "comment" = nothing) :
    Overlooks leeway keeps (fun node => view node.kind) nothing where
  comment _ isComment _ := (congrArg view isComment).trans comment
  same _ _ counterpart := congrArg view counterpart.kind_eq

section Steady

variable (steady : ∀ one other, keeps one other → Steady one other)
include steady

/-! ### Imports -/

theorem Imports.directivesOf_eq {one other : Node}
    (counterpart : Counterpart leeway keeps one other) : directivesOf one = directivesOf other := by
  obtain ⟨_, _, reworded⟩ := counterpart.within
  simp only [directivesOf, List.filterMap_filter]
  apply reworded.filterMap_eq
  constructor
  · intro description comment _
    simp [Node.kind, Node.description, comment]
  · intro one other counterpart
    rw [← counterpart.kind_eq]
    split
    · next directive =>
      rw [(steady _ _ counterpart.kept).imports (eq_of_beq directive)]
    · rfl

theorem Imports.visibleAt_eq {place other : Place}
    (counterpart : PlaceCounterpart leeway keeps place other) :
    visibleAt place = visibleAt other := by
  have around := List.forall₂_reverse_iff.mpr counterpart.around
  have directives : place.around.reverse.map directivesOf = other.around.reverse.map directivesOf :=
    map_eq_map_of_forall₂ around fun _ _ => directivesOf_eq steady
  rw [visibleAt, visibleAt, List.flatMap_def, List.flatMap_def, directives]

/-! ### Declarations -/

namespace Declaration

theorem nameOfNamespace?_eq {one other : Node} (counterpart : Counterpart leeway keeps one other)
    (named : bearsName one = true) : nameOfNamespace? one = nameOfNamespace? other := by
  have name := (steady _ _ counterpart.kept).name named
  unfold nameOfNamespace?
  cases first : one.child? "name" <;> cases second : other.child? "name" <;>
    simp_all

omit steady in
theorem root_related {place other : Place}
    (counterpart : PlaceCounterpart leeway keeps place other) :
    Counterpart leeway keeps place.root other.root := by
  have outermost := head?_related_of_forall₂ (List.forall₂_reverse_iff.mpr counterpart.around)
  rw [List.head?_reverse, List.head?_reverse] at outermost
  unfold Place.root
  generalize place.around.getLast? = first, other.around.getLast? = second at outermost ⊢
  cases outermost with
  | some related => exact related
  | none => exact counterpart.node

omit steady in
theorem enclosing?_related {place other : Place}
    (counterpart : PlaceCounterpart leeway keeps place other) (kinds : List String) :
    Option.Rel (Counterpart leeway keeps) (place.enclosing? kinds) (other.enclosing? kinds) := by
  apply find?_related_of_forall₂ counterpart.around
  intro one another related
  rw [related.kind_eq]

theorem bind_nameOfNamespace?_eq {nodes others : List Node} {looksFor : Node → Bool}
    (related : Option.Rel (Counterpart leeway keeps) (nodes.find? looksFor) (others.find? looksFor))
    (named : ∀ node, looksFor node = true → bearsName node = true) :
    (nodes.find? looksFor).bind nameOfNamespace? =
      (others.find? looksFor).bind nameOfNamespace? := by
  generalize found : nodes.find? looksFor = first, others.find? looksFor = second at related ⊢
  cases related with
  | some counterpart =>
      exact nameOfNamespace?_eq steady counterpart (named _ (List.find?_some found))
  | none => rfl

theorem namespaceAt?_eq {place other : Place}
    (counterpart : PlaceCounterpart leeway keeps place other) :
    namespaceAt? place = namespaceAt? other := by
  obtain ⟨_, _, reworded⟩ := (root_related counterpart).within
  have whole := reworded.find?_related
    (overlooks_kind (· == "file_scoped_namespace_declaration") rfl)
  have block := enclosing?_related counterpart ["namespace_declaration"]
  have ofWhole := bind_nameOfNamespace?_eq steady whole fun node isWhole => by
    simp [bearsName, eq_of_beq isWhole]
  have ofBlock := bind_nameOfNamespace?_eq steady block fun node isBlock => by
    simp [bearsName, List.mem_singleton.mp (List.contains_iff_mem.mp isBlock)]
  unfold namespaceAt?
  generalize place.root.children.find? _ = first, other.root.children.find? _ = second
    at whole ofWhole ⊢
  cases whole with
  | some => exact ofWhole
  | none => exact ofBlock

theorem ofPlace?_related {place other : Place} (file otherFile : SourceFile)
    (counterpart : PlaceCounterpart leeway keeps place other)
    (declares : declaresType place.node = true) :
    Option.Rel SameNames (ofPlace? file place) (ofPlace? otherFile other) := by
  have name := (steady _ _ counterpart.node.kept).name (by simp [bearsName, declares])
  unfold ofPlace?
  cases first : place.node.child? "name" with
  | none =>
      cases second : other.node.child? "name" with
      | none => exact .none
      | some => simp [first, second] at name
  | some one =>
      cases second : other.node.child? "name" with
      | none => simp [first, second] at name
      | some another =>
          have text : one.text = another.text := by simpa [first, second] using name
          simp only [text, namespaceAt?_eq steady counterpart]
          split
          · exact .none
          · exact .some ⟨rfl, rfl⟩

end Declaration

/-! ### What is looked up in the two versions -/

/-- The references of a declaration and those of what it becomes. -/
structure References.Counterparts (leeway : Leeway) (keeps : Node → Node → Prop)
    (one other : References) : Prop extends ReadAlike one other where
  candidates : ∃ node nodeToo, Counterpart leeway keeps node nodeToo ∧
    one.candidates = Candidates.ofDeclaration node ∧
    other.candidates = Candidates.ofDeclaration nodeToo

omit steady in
theorem Declaration.placesIn_related {file other : SourceFile}
    (edited : Edited leeway keeps file other) :
    List.Forall₂ (fun place another => declaresType place.node = true ∧
      PlaceCounterpart leeway keeps place another) (placesIn file) (placesIn other) := by
  have places :=
    Reworded.placesAmong_related (overlooks_kind kinds.contains (by decide)) edited .nil
  simp only [Node.placesAmong, List.append_nil] at places
  exact (List.forall₂_and_left _ _).mpr ⟨fun place listed => (List.mem_filter.mp listed).2, places⟩

theorem References.inFile_related {file other : SourceFile}
    (edited : Edited leeway keeps file other) :
    List.Forall₂ (Counterparts leeway keeps) (inFile file) (inFile other) := by
  refine List.rel_filterMap ?_ (Declaration.placesIn_related edited)
  rintro place another ⟨declares, counterpart⟩
  have declared := Declaration.ofPlace?_related steady file other counterpart declares
  simp only
  generalize Declaration.ofPlace? file place = first, Declaration.ofPlace? other another = second
    at declared ⊢
  cases declared with
  | none => exact .none
  | some names =>
      refine .some ⟨⟨names, Imports.visibleAt_eq steady counterpart⟩, ?_⟩
      exact ⟨place.node, another.node, counterpart.node, rfl, rfl⟩

end Steady

/-! ### The candidates of what is not heard -/

namespace Candidates

theorem withoutName_cons (description : Description) (children rest : List Node) :
    withoutName (.node description children :: rest) =
      if description.fields.contains "name" then
        if description.kind == "identifier" then children ++ rest
        else .node description children :: rest
      else .node description children :: withoutName rest := rfl

theorem withoutName_related {children others : List Node} {text textToo : String}
    (reworded : Reworded leeway keeps children text others textToo) :
    ∃ text textToo,
      Reworded leeway keeps (withoutName children) text (withoutName others) textToo := by
  induction reworded with
  | nothing text => exact ⟨text, text, .nothing text⟩
  | kept gap form within covers kept after _ _ _ further =>
      obtain ⟨text, textToo, further⟩ := further
      rw [withoutName_cons, withoutName_cons, ← form.fields, ← form.kind]
      split
      · split
        · exact ⟨_, _, within.append after⟩
        · exact ⟨_, _, .kept gap form within covers kept after rfl rfl⟩
      · exact ⟨_, _, .kept gap form within covers kept further rfl rfl⟩
  | omitted gap allowed comment plain _ _ _ further =>
      obtain ⟨text, textToo, further⟩ := further
      rw [withoutName_cons, plain, List.contains_nil, if_neg Bool.false_ne_true]
      exact ⟨_, _, .omitted gap allowed comment plain further rfl rfl⟩

theorem mentionedBy_eq_nil_of_comment {node : Node} (comment : node.kind = "comment") :
    mentionedBy node = [] := by
  simp [mentionedBy, comment]

theorem ofDeclaration_eq (unheard : ∀ one other, keeps one other → Unheard one other)
    {one other : Node} (counterpart : Counterpart leeway keeps one other) :
    ofDeclaration one = ofDeclaration other := by
  obtain ⟨_, _, reworded⟩ := counterpart.within
  obtain ⟨_, _, members⟩ := withoutName_related reworded
  have entered : Overlooks leeway keeps enters true :=
    overlooks_kind (fun kind => !Declaration.kinds.contains kind) (by decide)
  have mentioned : Overlooks leeway keeps
      (fun node => (mentionedBy node).map fun node => Text.trim node.text) [] := by
    constructor
    · intro description comment _
      have silent : mentionedBy (.node description []) = [] := mentionedBy_eq_nil_of_comment comment
      rw [silent, List.map_nil]
    · intro one other counterpart
      have texts := congrArg (List.map Text.trim) (unheard _ _ counterpart.kept).mentions
      rw [List.map_map, List.map_map] at texts
      exact texts
  unfold ofDeclaration nodesOf
  rw [List.map_flatMap, List.map_flatMap,
    members.boundedAmong_flatMap_eq entered mentioned [one] [other]]

end Candidates

/-! ### Pairs of types -/

namespace Dependency

/-- Which type depends on which. -/
def pairs (files : List SourceFile) : List (String × String) :=
  (analyze files).map fun relation => (relation.source, relation.target)

/-- The pairs that a candidate of a declaration leads to. -/
def pairsOf (catalog : Catalog) (references : References) (candidate : String) :
    List (String × String) :=
  let own := references.declaration.qualifiedName
  let targets :=
    Resolution.resolveAll catalog references.imports references.declaration.namespaceName candidate
  (targets.filter (· != own)).map fun target => (own, target)

def SamePairs (files others : List SourceFile) : Prop :=
  ∀ pair, pair ∈ pairs files ↔ pair ∈ pairs others

/-- The candidates that a declaration loses lead to no pair that is lost. -/
def LosesNothing (files others : List SourceFile) : Prop :=
  List.Forall₂ (fun one other : References =>
      ∀ candidate ∈ one.candidates, candidate ∉ other.candidates →
        ∀ pair ∈ pairsOf (Catalog.ofFiles files) one candidate, pair ∈ pairs others)
    (files.flatMap References.inFile) (others.flatMap References.inFile)

theorem mem_pairs {files : List SourceFile} {pair : String × String} :
    pair ∈ pairs files ↔ ∃ references ∈ files.flatMap References.inFile,
      ∃ candidate ∈ references.candidates,
        pair ∈ pairsOf (Catalog.ofFiles files) references candidate := by
  obtain ⟨source, target⟩ := pair
  simp only [pairs, pairsOf, List.mem_map, List.mem_filter, bne_iff_ne, Prod.mk.injEq]
  constructor
  · rintro ⟨relation, listed, rfl, rfl⟩
    obtain ⟨references, among, made⟩ := List.mem_flatMap.mp (Distinct.mem_ofList.mp listed)
    obtain ⟨⟨candidate, isCandidate, resolved⟩, other, source, _⟩ := mem_ofReferences.mp made
    exact ⟨references, among, candidate, isCandidate, relation.target, ⟨resolved, other⟩,
      source.symm, rfl⟩
  · rintro ⟨references, among, candidate, isCandidate, target, ⟨resolved, other⟩, rfl, rfl⟩
    let declaration := references.declaration
    refine ⟨⟨declaration.qualifiedName, target, declaration.filePath, declaration.line⟩, ?_,
      rfl, rfl⟩
    apply Distinct.mem_ofList.mpr
    refine List.mem_flatMap.mpr ⟨references, among, mem_ofReferences.mpr ?_⟩
    exact ⟨⟨candidate, isCandidate, resolved⟩, other, rfl, rfl, rfl⟩

theorem map_declaration_inFile (file : SourceFile) :
    (References.inFile file).map (·.declaration) = Declaration.inFile file := by
  rw [References.inFile, List.map_filterMap, Declaration.inFile]
  refine List.filterMap_congr fun place _ => ?_
  rw [Option.map_map]
  exact Option.map_id'

theorem namesDeclaredIn_eq_map (files : List SourceFile) :
    namesDeclaredIn files =
      (files.flatMap References.inFile).map (·.declaration.qualifiedName) := by
  have declarations : (files.flatMap References.inFile).map (·.declaration) =
      files.flatMap Declaration.inFile := by
    simp only [List.map_flatMap, map_declaration_inFile]
  rw [namesDeclaredIn, ← declarations, List.map_map]
  rfl

theorem pairsOf_eq {catalog : Catalog} {one other : References}
    (alike : References.ReadAlike one other) (candidate : String) :
    pairsOf catalog one candidate = pairsOf catalog other candidate := by
  rw [pairsOf, pairsOf, alike.imports, alike.names.qualifiedName, alike.names.namespaceName]

section ReadAlike

variable {files others : List SourceFile}
  (alike : List.Forall₂ References.ReadAlike (files.flatMap References.inFile)
    (others.flatMap References.inFile))
include alike

theorem ofFiles_eq : Catalog.ofFiles files = Catalog.ofFiles others := by
  have names := map_eq_map_of_forall₂ alike fun _ _ related => related.names.qualifiedName
  rw [← namesDeclaredIn_eq_map, ← namesDeclaredIn_eq_map] at names
  exact congrArg Catalog.ofNames names

theorem losesNothing_of_mem_pairs (found : ∀ pair ∈ pairs files, pair ∈ pairs others) :
    LosesNothing files others := by
  have listed := (List.forall₂_and_left _ _).mpr ⟨fun references among => among, alike⟩
  refine listed.imp ?_
  rintro one other ⟨among, _⟩ candidate isCandidate _ pair leads
  exact found pair (mem_pairs.mpr ⟨one, among, candidate, isCandidate, leads⟩)

theorem mem_pairs_of_losesNothing (nothing : LosesNothing files others) {pair : String × String}
    (found : pair ∈ pairs files) : pair ∈ pairs others := by
  obtain ⟨one, among, candidate, isCandidate, leads⟩ := mem_pairs.mp found
  have both := List.Forall₂.mp (fun _ _ => And.intro) alike nothing
  obtain ⟨other, amongToo, related, lost⟩ := exists_related_of_mem both among
  by_cases stays : candidate ∈ other.candidates
  · rw [ofFiles_eq alike, pairsOf_eq related] at leads
    exact mem_pairs.mpr ⟨other, amongToo, candidate, stays, leads⟩
  · exact lost candidate isCandidate stays pair leads

/-- The same pairs are found just if the candidates that come and go lead to none of their own. -/
theorem samePairs_iff_of_readAlike :
    SamePairs files others ↔ LosesNothing files others ∧ LosesNothing others files := by
  have alikeToo : List.Forall₂ References.ReadAlike (others.flatMap References.inFile)
      (files.flatMap References.inFile) := (alike.imp fun _ _ related => related.symm).flip
  constructor
  · intro same
    exact ⟨losesNothing_of_mem_pairs alike fun pair => (same pair).mp,
      losesNothing_of_mem_pairs alikeToo fun pair => (same pair).mpr⟩
  · rintro ⟨nothing, nothingToo⟩ pair
    exact ⟨mem_pairs_of_losesNothing alike nothing, mem_pairs_of_losesNothing alikeToo nothingToo⟩

end ReadAlike

/-! ### Edited files -/

section Edited

variable {files others : List SourceFile}

theorem references_related (steady : ∀ one other, keeps one other → Steady one other)
    (edited : List.Forall₂ (Edited leeway keeps) files others) :
    List.Forall₂ (References.Counterparts leeway keeps) (files.flatMap References.inFile)
      (others.flatMap References.inFile) :=
  List.rel_flatMap edited fun _ _ => References.inFile_related steady

theorem samePairs_iff_of_steady (edited : List.Forall₂ (Edited leeway Steady) files others) :
    SamePairs files others ↔ LosesNothing files others ∧ LosesNothing others files := by
  apply samePairs_iff_of_readAlike
  exact (references_related (fun _ _ => id) edited).imp fun _ _ related => related.toReadAlike

/-- What is not heard makes no difference. -/
theorem samePairs_of_unheard (edited : List.Forall₂ (Edited leeway Unheard) files others) :
    SamePairs files others := by
  have related := references_related (fun _ _ => Unheard.toSteady) edited
  apply (samePairs_iff_of_steady (edited.imp fun _ _ => .mono fun _ _ => Unheard.toSteady)).mpr
  have sameCandidates : List.Forall₂
      (fun one other : References => one.candidates = other.candidates)
      (files.flatMap References.inFile) (others.flatMap References.inFile) := by
    refine related.imp fun one other counterparts => ?_
    obtain ⟨node, nodeToo, counterpart, ofOne, ofOther⟩ := counterparts.candidates
    rw [ofOne, ofOther, Candidates.ofDeclaration_eq (fun _ _ => id) counterpart]
  constructor
  · refine sameCandidates.imp fun one other same candidate isCandidate lost => ?_
    exact absurd (same ▸ isCandidate) lost
  · refine (sameCandidates.imp fun one other same => ?_).flip
    intro candidate isCandidate lost
    exact absurd (same ▸ isCandidate) lost

end Edited

end Dependency

end SolutionSurvey
