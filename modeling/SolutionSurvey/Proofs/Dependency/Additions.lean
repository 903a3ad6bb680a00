import SolutionSurvey.Proofs.Dependency.Members

/-!
# Trees with one more member

A member is added to a type in its body, or with a body if the type has none.  The nodes around it
then cover another text.  Whatever is declared in such a tree is read as before, except that the
type has one more candidate.
-/

namespace SolutionSurvey

open Node (SameForm Spells)
open References (ReadsAs readAt)
open Candidates (heard mentions)

/-- A node of one of some kinds stays, whatever it covers now. -/
structure Stays (kinds : List String) (one other : Description) : Prop
    extends SameForm one other where
  kind_mem : one.kind ∈ kinds
  unnamed : "name" ∉ one.fields

/-- The parts of a body that stand under a condition. -/
def conditions : List String := ["preproc_if", "preproc_elif", "preproc_else"]

/-- The kinds of nodes that types stand in. -/
def housing : List String :=
  ["compilation_unit", "namespace_declaration", "declaration_list"] ++ conditions ++
    Declaration.kinds

/-- A member joins a row of members, or one that stands in the row under a condition. -/
inductive Joins (member : Node) : List Node → List Node → Prop
  | added (before after : List Node) : Joins member (before ++ after) (before ++ member :: after)
  | within (before after : List Node) {one other : Description} {children others : List Node}
      (stays : Stays conditions one other) (joins : Joins member children others) :
      Joins member (before ++ .node one children :: after) (before ++ .node other others :: after)

/-- The body of a type gets a member; in place of a semicolon there is a body with the member. -/
inductive GetsMember (member : Node) : Node → Node → Prop
  | listed {one other : Description} {children others : List Node}
      (stays : Stays ["declaration_list"] one other) (joins : Joins member children others) :
      GetsMember member (.node one children) (.node other others)
  | opened {semicolon opening closing : Node} {list : Description}
      (bodiless : Spells ";" [] semicolon) (plain : semicolon.description.fields = [])
      (kind : list.kind = "declaration_list") (fields : list.fields = ["body"])
      (opens : Spells "\x7b" [] opening) (closes : Spells "\x7d" [] closing) :
      GetsMember member semicolon (.node list [opening, member, closing])

/-- A tree and what becomes of it when the type at a place gets a member. -/
inductive Furnished (member : Node) : List Node → Place → Node → Node → Prop
  | here {around : List Node} (before after : List Node) {body bodyToo : Node}
      {one other : Description} (stays : Stays Declaration.kinds one other)
      (gets : GetsMember member body bodyToo) :
      Furnished member around ⟨.node one (before ++ body :: after), around⟩
        (.node one (before ++ body :: after)) (.node other (before ++ bodyToo :: after))
  | within {around : List Node} (before after : List Node) {place : Place} {child childToo : Node}
      {one other : Description} (stays : Stays housing one other)
      (furnished : Furnished member (.node one (before ++ child :: after) :: around) place child
        childToo) :
      Furnished member around place (.node one (before ++ child :: after))
        (.node other (before ++ childToo :: after))

/-! ### Settings -/

section Setting

variable (before after : List Node) {child childToo : Node} {one other : Description}

/-- A node tells nothing with what is overlooked. -/
theorem setting_of_overlooked (kind : one.kind = other.kind) (overlooked : Overlooked child) :
    Setting.ofNode (.node one (before ++ child :: after)) =
      Setting.ofNode (.node other (before ++ after)) := by
  obtain ⟨noKind, unnamed⟩ := overlooked
  obtain ⟨noImport, noNamespace⟩ := not_or.mp (List.mem_cons.not.mp noKind)
  have noNamespace : child.kind ≠ "file_scoped_namespace_declaration" :=
    List.mem_singleton.not.mp noNamespace
  have name : (Node.node one (before ++ child :: after)).child? "name" =
      (Node.node other (before ++ after)).child? "name" := by
    simp [Node.child?, Node.children, List.find?_append, unnamed]
  have directives : Imports.directivesOf (.node one (before ++ child :: after)) =
      Imports.directivesOf (.node other (before ++ after)) := by
    simp [Imports.directivesOf, Node.children, noImport]
  have whole : (Node.node one (before ++ child :: after)).children.find?
      (fun child => child.kind == "file_scoped_namespace_declaration") =
        (Node.node other (before ++ after)).children.find? fun child =>
          child.kind == "file_scoped_namespace_declaration" := by
    simp [Node.children, List.find?_append, noNamespace]
  rw [Setting.ofNode, Setting.ofNode, name, directives, whole]
  exact congrArg (Setting.mk · _ _ _) kind

theorem setting_of_replaced (kind : one.kind = other.kind) (overlooked : Overlooked child)
    (overlookedToo : Overlooked childToo) :
    Setting.ofNode (.node one (before ++ child :: after)) =
      Setting.ofNode (.node other (before ++ childToo :: after)) := by
  rw [setting_of_overlooked before after kind overlooked,
    ← setting_of_overlooked before after rfl overlookedToo]

theorem Stays.overlooked {kinds : List String} (stays : Stays kinds one other)
    (plain : ∀ kind ∈ kinds, kind ∉ ["using_directive", "file_scoped_namespace_declaration"])
    (children others : List Node) :
    Overlooked (.node one children) ∧ Overlooked (.node other others) := by
  have noImport := plain _ stays.kind_mem
  refine ⟨⟨noImport, stays.unnamed⟩, ?_, ?_⟩
  · exact (stays.kind ▸ noImport : other.kind ∉ _)
  · exact (stays.fields ▸ stays.unnamed : "name" ∉ other.fields)

end Setting

/-! ### Bodies -/

section Body

variable {identifier : String} {member : Node} (mentioned : MentionsOnly identifier member)
include mentioned

theorem Joins.setting {one other : Description} (kind : one.kind = other.kind)
    {children others : List Node} (joins : Joins member children others) :
    Setting.ofNode (.node one children) = Setting.ofNode (.node other others) := by
  cases joins with
  | added before after =>
      exact (setting_of_overlooked before after kind.symm mentioned.overlooked).symm
  | within before after stays joins =>
      obtain ⟨overlooked, overlookedToo⟩ := stays.overlooked (by decide) _ _
      exact setting_of_replaced before after kind overlooked overlookedToo

theorem Joins.readsAs {children others : List Node} (joins : Joins member children others) :
    ReadsAs children others := by
  induction joins with
  | added before after =>
      exact (ReadsAs.refl before).append (mentioned.readsAs.symm.append (.refl after))
  | within before after stays joins inductionHypothesis =>
      have plain : ∀ kind ∈ conditions, kind ∉ Declaration.kinds := by decide
      have same : ReadsAs [.node _ _] [.node _ _] :=
        .within (joins.setting mentioned stays.kind) (fun declares => by
          exact absurd (List.contains_iff_mem.mp declares) (plain _ stays.kind_mem))
          inductionHypothesis
      exact same.between before after

theorem Joins.mem_heard_iff {children others : List Node} (joins : Joins member children others)
    (text : String) : text ∈ heard others ↔ text ∈ heard children ∨ text = identifier := by
  induction joins with
  | added before after =>
      rw [Candidates.heard_around, Candidates.heard_append, mentioned.heard_eq]
      simp only [List.mem_append, List.mem_singleton]
      tauto
  | @within before after one other children others stays joins inductionHypothesis =>
      have quietKinds : ∀ kind ∈ conditions, isQuiet kind = true := by decide
      have quiet := quietKinds _ stays.kind_mem
      have quietToo : isQuiet other.kind = true := stays.kind ▸ quiet
      simp only [Candidates.heard_around, heard_of_isQuiet quiet, heard_of_isQuiet quietToo,
        List.mem_append, inductionHypothesis]
      tauto

/-- What a body is to its type before and after it gets a member. -/
structure BodyAlike (identifier : String) (body bodyToo : Node) : Prop where
  overlooked : Overlooked body
  overlookedToo : Overlooked bodyToo
  readsAs : ReadsAs [body] [bodyToo]
  mem_heard_iff : ∀ text, text ∈ heard [bodyToo] ↔ text ∈ heard [body] ∨ text = identifier

theorem GetsMember.bodyAlike {body bodyToo : Node} (gets : GetsMember member body bodyToo) :
    BodyAlike identifier body bodyToo := by
  cases gets with
  | @listed one other children others stays joins =>
      have quietKinds : ∀ kind ∈ ["declaration_list"], isQuiet kind = true := by decide
      have quiet := quietKinds _ stays.kind_mem
      have quietToo : isQuiet other.kind = true := stays.kind ▸ quiet
      obtain ⟨overlooked, overlookedToo⟩ := stays.overlooked (by decide) children others
      refine ⟨overlooked, overlookedToo, ?_, fun text => ?_⟩
      · refine .within (joins.setting mentioned stays.kind) (fun declares => ?_)
          (joins.readsAs mentioned)
        rw [declaresType_of_isQuiet quiet] at declares
        cases declares
      · rw [heard_of_isQuiet quiet, heard_of_isQuiet quietToo]
        exact joins.mem_heard_iff mentioned text
  | @opened _ opening closing list bodiless plain kind fields opens closes =>
      have nothing : Silent [body] := bodiless.silent (by decide)
      have opening' : Silent [opening] := opens.silent (by decide)
      have closing' : Silent [closing] := closes.silent (by decide)
      have quiet : isQuiet list.kind = true := kind ▸ by decide
      refine ⟨⟨?_, ?_⟩, ⟨?_, ?_⟩, ?_, fun text => ?_⟩
      · rw [bodiless.kind]
        decide
      · rw [plain]
        decide
      · rw [Node.kind, Node.description, kind]
        decide
      · rw [Node.description, fields]
        decide
      · have silent : ReadsAs [opening, member, closing] [] :=
          opening'.readsAs.append (mentioned.readsAs.append closing'.readsAs)
        have listed := readsAs_nil_of_plain (declaresType_of_isQuiet quiet _) silent
        exact nothing.readsAs.trans listed.symm
      · have members : heard ([opening] ++ member :: [closing]) = [identifier] := by
          rw [Candidates.heard_around, opening'.heard_eq, mentioned.heard_eq, closing'.heard_eq]
          rfl
        rw [heard_of_isQuiet quiet, ← List.singleton_append, members, nothing.heard_eq]
        simp

end Body

/-! ### Types -/

/-- What is no name stays where the name is left out. -/
theorem Candidates.exists_withoutName_eq (before after : List Node) :
    ∃ front back, ∀ child : Node, "name" ∉ child.description.fields →
      withoutName (before ++ child :: after) = front ++ child :: back := by
  induction before with
  | nil =>
      refine ⟨[], withoutName after, fun child unnamed => ?_⟩
      rw [List.nil_append, withoutName, if_neg (by simpa using unnamed), List.nil_append]
  | cons first before inductionHypothesis =>
      obtain ⟨front, back, unchanged⟩ := inductionHypothesis
      by_cases named : first.description.fields.contains "name"
      · by_cases identifier : first.kind == "identifier"
        · refine ⟨first.children ++ before, after, fun child _ => ?_⟩
          rw [List.cons_append, withoutName, if_pos named, if_pos identifier, List.append_assoc]
        · refine ⟨first :: before, after, fun child _ => ?_⟩
          rw [List.cons_append, withoutName, if_pos named, if_neg identifier]
      · refine ⟨first :: front, back, fun child unnamed => ?_⟩
        rw [List.cons_append, withoutName, if_neg named, unchanged child unnamed, List.cons_append]

section Replaced

variable {before after : List Node} {child childToo : Node} {one other : Description}

/-- The candidates of a declaration change with what is heard of one of its children. -/
theorem mem_ofDeclaration_of_replaced {name : String} (overlooked : Overlooked child)
    (overlookedToo : Overlooked childToo)
    (heard_iff : ∀ text, text ∈ heard [childToo] ↔ text ∈ heard [child] ∨ text = name)
    (candidate : String) :
    candidate ∈ Candidates.ofDeclaration (.node other (before ++ childToo :: after)) ↔
      candidate ∈ Candidates.ofDeclaration (.node one (before ++ child :: after)) ∨
        candidate ≠ "" ∧ Text.trim name = candidate := by
  obtain ⟨front, back, unchanged⟩ := Candidates.exists_withoutName_eq before after
  simp only [Candidates.mem_ofDeclaration, Node.children, unchanged child overlooked.2,
    unchanged childToo overlookedToo.2, Candidates.heard_around, List.mem_append,
    heard_iff]
  grind

theorem ofDeclaration_eq_of_replaced (overlooked : Overlooked child)
    (overlookedToo : Overlooked childToo) (same : heard [child] = heard [childToo]) :
    Candidates.ofDeclaration (.node one (before ++ child :: after)) =
      Candidates.ofDeclaration (.node other (before ++ childToo :: after)) := by
  obtain ⟨front, back, unchanged⟩ := Candidates.exists_withoutName_eq before after
  rw [Candidates.ofDeclaration_eq_heard, Candidates.ofDeclaration_eq_heard, Node.children,
    Node.children, unchanged child overlooked.2, unchanged childToo overlookedToo.2,
    Candidates.heard_around, same, Candidates.heard_around]

end Replaced

/-! ### Trees -/

theorem heard_of_housing {description : Description} (houses : description.kind ∈ housing)
    (children : List Node) :
    heard [.node description children] =
      if Declaration.kinds.contains description.kind then [] else heard children := by
  have quietKinds : ∀ kind ∈ housing, kind ∉ Candidates.mentioning := by decide
  have mute : mentions (.node description children) = [] :=
    Candidates.mentions_eq_nil (quietKinds _ houses)
  have entered : Candidates.enters (.node description children) =
      !Declaration.kinds.contains description.kind := rfl
  rw [Candidates.heard_cons, mute, entered]
  cases Declaration.kinds.contains description.kind with
  | true => rfl
  | false => exact List.append_nil _

/-- The declaration at a place has a name for a further candidate; all others are read as before. -/
def GainsCandidate (name : String) (place : Place) (readings readingsToo : List References) :
    Prop :=
  ∃ front back candidates,
    (∀ candidate, candidate ∈ candidates ↔ candidate ∈ Candidates.ofDeclaration place.node ∨
      candidate ≠ "" ∧ Text.trim name = candidate) ∧
    readings = front ++ ((References.ofPlace? place).toList ++ back) ∧
    readingsToo = front ++ (((References.ofPlace? place).map fun references =>
      { references with candidates := candidates }).toList ++ back)

theorem GainsCandidate.between {name : String} {place : Place}
    {readings readingsToo : List References}
    (gains : GainsCandidate name place readings readingsToo) (before after : List References) :
    GainsCandidate name place (before ++ (readings ++ after))
      (before ++ (readingsToo ++ after)) := by
  obtain ⟨front, back, candidates, mem_iff, rfl, rfl⟩ := gains
  exact ⟨before ++ front, back ++ after, candidates, mem_iff, by simp, by simp⟩

/-- What is read of a node itself. -/
def ownReading (around : List Node) (description : Description) (children : List Node) :
    List References :=
  if Declaration.kinds.contains description.kind then
    (References.ofPlace? ⟨.node description children, around⟩).toList
  else []

theorem readAt_placesWithin_row (around : List Node) (description : Description)
    (before : List Node) (child : Node) (after : List Node) :
    let inner := .node description (before ++ child :: after) :: around
    readAt ((Node.node description (before ++ child :: after)).placesWithin around) =
      ownReading around description (before ++ child :: after) ++
          readAt (Node.placesAmong inner before) ++
        (readAt (child.placesWithin inner) ++ readAt (Node.placesAmong inner after)) := by
  intro inner
  rw [Node.placesWithin, References.readAt_cons, Node.placesAmong_append, References.readAt_append,
    Node.placesAmong, References.readAt_append, List.append_assoc]
  rfl

namespace Furnished

variable {member : Node} {around : List Node} {place : Place} {one other : Node}

theorem overlooked (furnished : Furnished member around place one other) :
    Overlooked one ∧ Overlooked other := by
  cases furnished with
  | here before after stays gets => exact stays.overlooked (by decide) _ _
  | within before after stays furnished => exact stays.overlooked (by decide) _ _

/-- What is heard from outside of the type stays the same. -/
theorem heard_eq (furnished : Furnished member around place one other) :
    heard [one] = heard [other] := by
  induction furnished with
  | @here _ before after _ _ one other stays gets =>
      have houses : one.kind ∈ housing := List.mem_append_right _ stays.kind_mem
      have housesToo : other.kind ∈ housing := stays.kind ▸ houses
      have declares := List.contains_iff_mem.mpr stays.kind_mem
      rw [heard_of_housing houses, heard_of_housing housesToo, ← stays.kind, if_pos declares]
      exact (if_pos declares).symm
  | @within _ before after _ child childToo one other stays furnished inductionHypothesis =>
      have housesToo : other.kind ∈ housing := stays.kind ▸ stays.kind_mem
      rw [heard_of_housing stays.kind_mem, heard_of_housing housesToo, ← stays.kind,
        Candidates.heard_around, inductionHypothesis, Candidates.heard_around]

section MentionsOnly

variable {identifier : String} (mentioned : MentionsOnly identifier member)
include mentioned

theorem setting (furnished : Furnished member around place one other) :
    Setting.ofNode one = Setting.ofNode other := by
  cases furnished with
  | here before after stays gets =>
      have alike := gets.bodyAlike mentioned
      exact setting_of_replaced before after stays.kind alike.overlooked alike.overlookedToo
  | within before after stays furnished =>
      obtain ⟨overlooked, overlookedToo⟩ := furnished.overlooked
      exact setting_of_replaced before after stays.kind overlooked overlookedToo

/-- All declarations are read as before, except that the type at the place has its own name for a
candidate. -/
theorem gainsCandidate (furnished : Furnished member around place one other)
    {aroundToo : List Node} (outer : around.map Setting.ofNode = aroundToo.map Setting.ofNode) :
    GainsCandidate identifier place (readAt (one.placesWithin around))
      (readAt (other.placesWithin aroundToo)) := by
  induction furnished generalizing aroundToo with
  | @here around before after body bodyToo one other stays gets =>
      have alike := gets.bodyAlike mentioned
      have setting := setting_of_replaced before after stays.kind alike.overlooked
        alike.overlookedToo
      have settings : (⟨.node one (before ++ body :: after), around⟩ : Place).settings =
          (⟨.node other (before ++ bodyToo :: after), aroundToo⟩ : Place).settings :=
        congrArg₂ List.cons setting outer
      have below : ReadsAs (before ++ body :: after) (before ++ bodyToo :: after) :=
        alike.readsAs.between before after
      have declares : Declaration.declaresType (.node one (before ++ body :: after)) = true :=
        List.contains_iff_mem.mpr stays.kind_mem
      have declaresToo :
          Declaration.declaresType (.node other (before ++ bodyToo :: after)) = true :=
        (congrArg (Declaration.kinds.contains ·) stays.kind).symm.trans declares
      refine ⟨[],
        readAt (Node.placesAmong (.node one (before ++ body :: after) :: around)
          (before ++ body :: after)),
        Candidates.ofDeclaration (.node other (before ++ bodyToo :: after)),
        mem_ofDeclaration_of_replaced alike.overlooked alike.overlookedToo alike.mem_heard_iff,
        ?_, ?_⟩
      · rw [Node.placesWithin, References.readAt_cons, if_pos declares, List.nil_append]
      · rw [Node.placesWithin, References.readAt_cons, if_pos declaresToo,
          References.ofPlace?_of_settings settings, List.nil_append]
        exact congrArg _ (below _ _ settings).symm
  | @within around before after place child childToo one other stays furnished
      inductionHypothesis =>
      obtain ⟨overlooked, overlookedToo⟩ := furnished.overlooked
      have setting := setting_of_replaced before after stays.kind overlooked overlookedToo
      have settings : (⟨.node one (before ++ child :: after), around⟩ : Place).settings =
          (⟨.node other (before ++ childToo :: after), aroundToo⟩ : Place).settings :=
        congrArg₂ List.cons setting outer
      have own : ownReading around one (before ++ child :: after) =
          ownReading aroundToo other (before ++ childToo :: after) := by
        rw [ownReading, ownReading, References.ofPlace?_eq_of_settings settings
          (ofDeclaration_eq_of_replaced overlooked overlookedToo furnished.heard_eq), stays.kind]
      have inner : (Node.node one (before ++ child :: after) :: around).map Setting.ofNode =
          (Node.node other (before ++ childToo :: after) :: aroundToo).map Setting.ofNode :=
        settings
      rw [readAt_placesWithin_row, readAt_placesWithin_row, ← own,
        ReadsAs.refl before _ _ inner, ReadsAs.refl after _ _ inner]
      exact (inductionHypothesis inner).between _ _

end MentionsOnly

end Furnished

end SolutionSurvey
