import SolutionSurvey.CSharp.Grammar.Declarations
import SolutionSurvey.Proofs.Dependency.Surroundings

/-!
# Members that are added to a type

A constructor or destructor that takes nothing and does nothing mentions the name of its type and
no other.  When it is added to a type, then this name is one more candidate of the type, and all
else is read as before.
-/

namespace SolutionSurvey

open Node (SameForm)
open References (ReadsAs readAt)
open Candidates (heard mentions)

/-! ### Constructors and destructors -/

/-- A node of a kind over tokens of some kinds. -/
structure Node.Spells (kind : String) (tokens : List String) (node : Node) : Prop where
  kind : node.kind = kind
  tokens : node.children.map Node.kind = tokens
  leaves : ∀ child ∈ node.children, child.children = []

open CSharp (modifierWords)
open Node (Spells)

/-- A constructor or destructor without parameters and with an empty body. -/
inductive OwnMember (identifier : String) : Node → Prop
  | constructor {description : Description} {modifiers : List Node} {name parameters body : Node}
      (kind : description.kind = "constructor_declaration") (fields : description.fields = [])
      (modified : ∀ modifier ∈ modifiers, ∃ word ∈ modifierWords,
        Spells "modifier" [word] modifier)
      (named : Spells "identifier" [] name) (text : name.text = identifier)
      (takesNothing : Spells "parameter_list" ["(", ")"] parameters)
      (doesNothing : Spells "block" ["\x7b", "\x7d"] body) :
      OwnMember identifier (.node description (modifiers ++ [name, parameters, body]))
  | destructor {description : Description} {signs : List Node} {name parameters body : Node}
      (kind : description.kind = "destructor_declaration") (fields : description.fields = [])
      (signed : ∀ sign ∈ signs, Spells "extern" [] sign ∨ Spells "~" [] sign)
      (named : Spells "identifier" [] name) (text : name.text = identifier)
      (takesNothing : Spells "parameter_list" ["(", ")"] parameters)
      (doesNothing : Spells "block" ["\x7b", "\x7d"] body) :
      OwnMember identifier (.node description (signs ++ [name, parameters, body]))

/-! ### Rows in which nothing is mentioned -/

/-- The kinds of nodes that mention types. -/
def Candidates.mentioning : List String :=
  ["identifier", "base_list", "type_argument_list", "variable_declaration", "property_declaration",
    "parameter", "object_creation_expression", "invocation_expression"]

theorem Candidates.mentions_eq_nil {node : Node} (quiet : node.kind ∉ mentioning) :
    mentions node = [] := by
  simp only [mentioning, List.mem_cons, not_or] at quiet
  simp [mentions, mentionedBy, quiet]

/-- Nodes of a kind neither mention nor declare types. -/
def isQuiet (kind : String) : Bool :=
  !Candidates.mentioning.contains kind && !Declaration.kinds.contains kind

theorem readsAs_nil_of_plain {description : Description} {children : List Node}
    (plain : Declaration.declaresType (.node description children) = false)
    (silent : ReadsAs children []) : ReadsAs [.node description children] [] := by
  intro around aroundToo outer
  have within := silent (.node description children :: around) _ rfl
  simp only [Node.placesAmong, Node.placesWithin, List.append_nil, References.readAt_cons, plain]
  exact within

theorem heard_of_plain {description : Description} {children : List Node}
    (plain : Declaration.declaresType (.node description children) = false) :
    heard [.node description children] =
      mentions (.node description children) ++ heard children := by
  have entered : Candidates.enters (.node description children) = true := by
    rw [Candidates.enters, plain, Bool.not_false]
  rw [Candidates.heard_cons, if_pos entered]
  exact congrArg (mentions (.node description children) ++ ·) (List.append_nil _)

section Quiet

variable {description : Description} (quiet : isQuiet description.kind = true)
  (children : List Node)
include quiet

theorem declaresType_of_isQuiet :
    Declaration.declaresType (.node description children) = false := by
  have declaresNothing := (Bool.and_eq_true_iff.mp quiet).2
  rwa [Bool.not_eq_true'] at declaresNothing

/-- A quiet node is heard only for what is below it. -/
theorem heard_of_isQuiet : heard [.node description children] = heard children := by
  have mentionsNothing := (Bool.and_eq_true_iff.mp quiet).1
  have mute : mentions (.node description children) = [] := by
    apply Candidates.mentions_eq_nil
    change description.kind ∉ Candidates.mentioning
    simpa using mentionsNothing
  rw [heard_of_plain (declaresType_of_isQuiet quiet children), mute, List.nil_append]

end Quiet

/-- Nothing is mentioned or declared in a row of nodes. -/
structure Silent (nodes : List Node) : Prop where
  heard_eq : heard nodes = []
  readsAs : ReadsAs nodes []

namespace Silent

variable {nodes others : List Node}

theorem nil : Silent [] := ⟨rfl, .refl []⟩

theorem append (silent : Silent nodes) (silentToo : Silent others) : Silent (nodes ++ others) where
  heard_eq := by rw [Candidates.heard_append, silent.heard_eq, silentToo.heard_eq, List.append_nil]
  readsAs := silent.readsAs.append silentToo.readsAs

theorem of_forall (silent : ∀ node ∈ nodes, Silent [node]) : Silent nodes := by
  induction nodes with
  | nil => exact nil
  | cons node rest inductionHypothesis =>
      obtain ⟨first, silent⟩ := List.forall_mem_cons.mp silent
      exact first.append (inductionHypothesis silent)

theorem within {description : Description} (quiet : isQuiet description.kind = true)
    (silent : Silent nodes) : Silent [.node description nodes] where
  heard_eq := (heard_of_isQuiet quiet nodes).trans silent.heard_eq
  readsAs := readsAs_nil_of_plain (declaresType_of_isQuiet quiet nodes) silent.readsAs

end Silent

theorem Node.Spells.silent {kind : String} {tokens : List String} {node : Node}
    (spells : Spells kind tokens node) (quiet : (kind :: tokens).all isQuiet = true) :
    Silent [node] := by
  obtain ⟨quietKind, quietTokens⟩ := List.forall_mem_cons.mp (List.all_eq_true.mp quiet)
  obtain ⟨description, children⟩ := node
  have isKind : description.kind = kind := spells.kind
  have quietNode : isQuiet description.kind = true := isKind ▸ quietKind
  refine .within quietNode (.of_forall fun child membership => ?_)
  have leaf := spells.leaves child membership
  have token : child.kind ∈ tokens := spells.tokens ▸ List.mem_map_of_mem membership
  obtain ⟨token', none⟩ := child
  obtain rfl : none = [] := leaf
  exact .within (quietTokens _ token) .nil

/-! ### What a constructor or destructor mentions -/

/-- Neither an import nor the name of anything. -/
def Overlooked (node : Node) : Prop :=
  node.kind ∉ ["using_directive", "file_scoped_namespace_declaration"] ∧
    "name" ∉ node.description.fields

/-- What a type gets with a constructor or destructor. -/
structure MentionsOnly (identifier : String) (member : Node) : Prop where
  overlooked : Overlooked member
  heard_eq : heard [member] = [identifier]
  readsAs : ReadsAs [member] []

theorem mentionsOnly_of_children {identifier : String} {description : Description}
    {marks : List Node} {name parameters body : Node}
    (kind : description.kind ∈ ["constructor_declaration", "destructor_declaration"])
    (fields : description.fields = []) (silentMarks : Silent marks)
    (named : Spells "identifier" [] name) (text : name.text = identifier)
    (takesNothing : Spells "parameter_list" ["(", ")"] parameters)
    (doesNothing : Spells "block" ["\x7b", "\x7d"] body) :
    MentionsOnly identifier (.node description (marks ++ [name, parameters, body])) := by
  have quietKinds : ∀ kind ∈ ["constructor_declaration", "destructor_declaration"],
      isQuiet kind = true ∧ kind ∉ ["using_directive", "file_scoped_namespace_declaration"] := by
    decide
  obtain ⟨quiet, noImport⟩ := quietKinds _ kind
  have silentEnd : Silent [parameters, body] :=
    (takesNothing.silent (by decide)).append (doesNothing.silent (by decide))
  obtain ⟨nameDescription, nameChildren⟩ := name
  obtain rfl : nameChildren = [] := List.map_eq_nil_iff.mp named.tokens
  have nameKind : nameDescription.kind = "identifier" := named.kind
  have namePlain : Declaration.declaresType (.node nameDescription []) = false := by
    rw [Declaration.declaresType, named.kind]
    decide
  have nameHeard : heard [.node nameDescription []] = [identifier] := by
    have own : mentions (.node nameDescription []) = [nameDescription.text] := by
      simp [mentions, Candidates.mentionedBy, Node.kind, Node.description, nameKind, Node.text]
    rw [heard_of_plain namePlain, own, ← text]
    rfl
  refine ⟨⟨noImport, ?_⟩, ?_, ?_⟩
  · rw [Node.description, fields]
    exact List.not_mem_nil
  · rw [heard_of_isQuiet quiet, Candidates.heard_around, silentMarks.heard_eq, nameHeard,
      silentEnd.heard_eq]
    rfl
  · apply readsAs_nil_of_plain (declaresType_of_isQuiet quiet _)
    have nameReads : ReadsAs [.node nameDescription []] [] :=
      readsAs_nil_of_plain namePlain (.refl [])
    exact silentMarks.readsAs.append (nameReads.append silentEnd.readsAs)

theorem OwnMember.mentionsOnly {identifier : String} {member : Node}
    (own : OwnMember identifier member) : MentionsOnly identifier member := by
  cases own with
  | constructor kind fields modified named text takesNothing doesNothing =>
      have quietWords : ∀ word ∈ modifierWords, ["modifier", word].all isQuiet = true := by decide
      refine mentionsOnly_of_children (by simp [kind]) fields (.of_forall ?_) named text
        takesNothing doesNothing
      intro modifier membership
      obtain ⟨word, isWord, spells⟩ := modified modifier membership
      exact spells.silent (quietWords word isWord)
  | destructor kind fields signed named text takesNothing doesNothing =>
      refine mentionsOnly_of_children (by simp [kind]) fields (.of_forall ?_) named text
        takesNothing doesNothing
      intro sign membership
      rcases signed sign membership with foreign | tilde
      · exact foreign.silent (by decide)
      · exact tilde.silent (by decide)

end SolutionSurvey
