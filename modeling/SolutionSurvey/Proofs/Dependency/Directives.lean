import SolutionSurvey.Proofs.Dependency.Aliases
import SolutionSurvey.Proofs.Dependency.SpacedNames

/-!
# The layout of directives

A `using` directive may be written with any white space that keeps its words apart, and with more of
it around its signs.  It is read as what it says unless it imports members and the word `static` is
followed by something else than a space.
-/

namespace SolutionSurvey

open CSharp.Lexeme (IsWord)

/-- What a `using` directive says, as it is written.  The word `static` cannot be used as a name. -/
inductive DirectiveBody where
  | opens (name : SpacedName) (other : name.first ≠ "static")
  | renames (name : String) (word : IsWord name.toList) (other : name ≠ "static")
      (before after : Blanks) (target : SpacedName)
  | members (space : Space) (type : SpacedName)

namespace DirectiveBody

def chars : DirectiveBody → List Char
  | opens name _ => name.chars
  | renames name _ _ before after target =>
      name.toList ++ before.chars ++ '=' :: (after.chars ++ target.chars)
  | members space type => "static".toList ++ (space.chars ++ type.chars)

def meaning : DirectiveBody → Directive
  | opens name _ => .opens (String.ofList name.full)
  | renames name _ _ _ _ target => .alias name (String.ofList target.full)
  | members _ _ => .members

theorem chars_opens (name : SpacedName) (other : name.first ≠ "static") :
    (opens name other).chars = name.chars := rfl

theorem chars_renames {name : String} (word : IsWord name.toList) (other : name ≠ "static")
    (before after : Blanks) (target : SpacedName) :
    (renames name word other before after target).chars =
      name.toList ++ before.chars ++ '=' :: (after.chars ++ target.chars) := rfl

theorem chars_members (space : Space) (type : SpacedName) :
    (members space type).chars = "static".toList ++ (space.chars ++ type.chars) := rfl

/-- If the directive imports members, there is a space right behind the word `static`. -/
def IsSpaced (body : DirectiveBody) : Prop :=
  ∀ space type, body = members space type → space.chars.head? = some ' '

end DirectiveBody

/-- A `using` directive with its white space. -/
structure SpacedDirective where
  everywhere : Option Space
  gap : Space
  body : DirectiveBody
  close : Blanks

def SpacedDirective.text (directive : SpacedDirective) : String :=
  String.ofList (opening directive.everywhere directive.gap ++
    (directive.body.chars ++ (directive.close.chars ++ [';'])))

/-! ### Names without their white space -/

theorem Joint.filter_solid (joint : Joint) :
    joint.chars.filter (!Text.isBlank ·) = joint.tight := by
  have solid : ∀ c ∈ joint.part.toList, (!Text.isBlank c) = true := fun c membership => by
    rw [solid_of_word joint.word c membership, Bool.not_false]
  rw [chars, List.filter_append, joint.before.filter_solid, List.nil_append,
    List.filter_cons_of_pos (by decide), List.filter_append, joint.after.filter_solid,
    List.nil_append, List.filter_eq_self.mpr solid, tight]

namespace SpacedName

variable (name : SpacedName)

theorem filter_solid : name.chars.filter (!Text.isBlank ·) = name.tight := by
  have solidMark : name.mark.filter (!Text.isBlank ·) = name.mark := by
    rw [mark]
    split
    · decide
    · rfl
  have solidFirst : ∀ c ∈ name.first.toList, (!Text.isBlank c) = true := fun c membership => by
    rw [solid_of_word name.word c membership, Bool.not_false]
  rw [chars, List.filter_append, solidMark, List.filter_append, List.filter_eq_self.mpr solidFirst,
    List.filter_flatMap, tight, full]
  simp only [Joint.filter_solid]

theorem compact_chars : Text.compact (String.ofList name.chars) = String.ofList name.tight := by
  rw [Text.compact, String.toList_ofList, filter_solid]

theorem dropAll_tight : Text.dropAll Directive.globalMark (String.ofList name.tight) =
    String.ofList name.full :=
  name.isName_full.dropAll_globalMark name.fromOutermost

theorem tight_ne_nil : name.tight ≠ [] :=
  List.append_ne_nil_of_right_ne_nil _ name.isName_full.written

theorem compact_chars_ne : Text.compact (String.ofList name.chars) ≠ "" := by
  rw [compact_chars]
  exact fun empty => name.tight_ne_nil (String.ofList_injective empty)

theorem exists_last_word : ∃ front word, IsWord word ∧ name.chars = front ++ word := by
  rcases List.eq_nil_or_concat name.joints with none | ⟨joints, joint, isConcat⟩
  · exact ⟨name.mark, name.first.toList, name.word, by simp [chars, none]⟩
  · refine ⟨name.mark ++ (name.first.toList ++ joints.flatMap Joint.chars) ++
      (joint.before.chars ++ '.' :: joint.after.chars), joint.part.toList, joint.word, ?_⟩
    simp [chars, isConcat, Joint.chars]

theorem solid_of_getLast?_append (front : List Char) : ∀ c ∈ (front ++ name.chars).getLast?,
    Text.isBlank c = false ∧ c ≠ ';' := by
  intro c isLast
  obtain ⟨before, word, whole, written⟩ := name.exists_last_word
  have some : word ≠ [] := by
    obtain ⟨first, rest, isWord, _⟩ := whole.exists_cons
    exact isWord ▸ List.cons_ne_nil first rest
  rw [written, ← List.append_assoc, List.getLast?_append_of_ne_nil _ some] at isLast
  have inWord := List.mem_of_getLast? isLast
  have noSign := not_mem_of_word whole ';' (by decide) (by decide)
  exact ⟨solid_of_word whole c inWord, fun sign => noSign (sign ▸ inWord)⟩

theorem solid_of_head?_chars : ∀ c ∈ name.chars.head?, Text.isBlank c = false := by
  intro c isFirst
  have written : name.first.toList ≠ [] := name.isName_first.written
  rw [chars, mark] at isFirst
  split at isFirst
  · obtain rfl : 'g' = c := Option.some.inj isFirst
    decide
  · rw [List.nil_append, List.head?_append_of_ne_nil _ written] at isFirst
    exact solid_of_word name.word c (List.mem_of_mem_head? isFirst)

theorem no_equals : '=' ∉ name.chars := by
  intro membership
  rcases List.mem_append.mp membership with inMark | inName
  · rw [mark] at inMark
    split at inMark
    · exact absurd inMark (by decide)
    · cases inMark
  · rcases name.of_mem_chars inName with ⟨word, whole, inWord⟩ | isDot | isBlank
    · exact not_mem_of_word whole '=' (by decide) (by decide) inWord
    · exact absurd isDot (by decide)
    · exact absurd isBlank (by decide)

theorem not_static (other : name.first ≠ "static") : ¬ "static ".toList <+: name.chars := by
  rw [chars, mark]
  split
  · rintro ⟨rest, same⟩
    have heads : some 's' = some 'g' := congrArg List.head? same
    exact absurd heads (by decide)
  · rw [List.nil_append]
    apply Directive.not_static_of_word name.word fun same => other (String.toList_injective same)
    intro c isFirst
    cases joints : name.joints with
    | nil =>
        rw [joints] at isFirst
        cases isFirst
    | cons joint joints' =>
        rw [joints, List.flatMap_cons, Joint.chars, List.append_assoc, List.head?_append] at isFirst
        rcases Option.or_eq_some_iff.mp isFirst with inGap | ⟨_, isDot⟩
        · exact .inl (joint.before.blank c (List.mem_of_mem_head? inGap))
        · exact .inr (.inr (Option.some.inj isDot).symm)

end SpacedName

/-! ### Reading -/

namespace Directive

/-- Whatever has no equals sign and does not import members is read as the name of a namespace. -/
theorem ofBody?_opens {text : List Char} (notStatic : ¬ "static ".toList <+: text)
    (noEquals : '=' ∉ text) (some : Text.compact (String.ofList text) ≠ "") :
    ofBody? (String.ofList text) =
      Option.some (.opens (Text.dropAll globalMark (Text.compact (String.ofList text)))) := by
  have whole : Text.splitAtFirst? '=' (String.ofList text) = none :=
    Text.splitAtFirst?_eq_none_iff.mpr (by rwa [String.toList_ofList])
  rw [ofBody?, Text.after?_eq_none notStatic, Option.isSome_none, if_neg Bool.false_ne_true, whole]
  dsimp only
  rw [if_neg (by simpa using some)]

end Directive

namespace DirectiveBody

/-- How a directive is read.  Without a space behind it the word `static` becomes part of a name. -/
def read : DirectiveBody → Directive
  | members space type =>
      if space.chars.head? = some ' ' then .members
      else .opens (String.ofList ("static".toList ++ type.tight))
  | body => body.meaning

theorem ofBody?_members (space : Space) (type : SpacedName) :
    Directive.ofBody? (String.ofList (members space type).chars) =
      some (members space type).read := by
  obtain ⟨first, rest, isSpace⟩ := List.exists_cons_of_ne_nil space.written
  rw [read, chars_members, isSpace, List.head?_cons]
  -- The test is for the word with a space behind it.
  by_cases isPlain : first = ' '
  · have begins : "static".toList ++ (' ' :: rest ++ type.chars) =
        "static ".toList ++ (rest ++ type.chars) := rfl
    have found := Text.after?_append "static " (rest ++ type.chars)
    rw [isPlain, if_pos rfl, begins, Directive.ofBody?, found, Option.isSome_some, if_pos rfl]
  · have notStatic : ¬ "static ".toList <+: "static".toList ++ (first :: rest ++ type.chars) := by
      have apart : "static ".toList = "static".toList ++ [' '] := by decide
      rw [apart, List.prefix_append_right_inj, List.cons_append, List.cons_prefix_cons]
      exact fun same => isPlain same.1.symm
    have noEquals : '=' ∉ "static".toList ++ (first :: rest ++ type.chars) := by
      rw [← isSpace]
      simp only [List.mem_append, not_or]
      refine ⟨by decide, fun inSpace => ?_, type.no_equals⟩
      exact absurd (space.blank '=' inSpace) (by decide)
    have compacted : Text.compact
        (String.ofList ("static".toList ++ (first :: rest ++ type.chars))) =
          String.ofList ("static".toList ++ type.tight) := by
      have solid : "static".toList.filter (!Text.isBlank ·) = "static".toList := by decide
      rw [← isSpace, Text.compact, String.toList_ofList, List.filter_append, solid,
        List.filter_append, space.filter_solid, List.nil_append, type.filter_solid]
    have kept : Text.dropAll Directive.globalMark
        (String.ofList ("static".toList ++ type.tight)) =
          String.ofList ("static".toList ++ type.tight) := by
      have elsewhere : ¬ Directive.globalMark.toList <+: "static".toList ++ type.tight := by
        rintro ⟨rest, same⟩
        have heads : some 'g' = some 's' := congrArg List.head? same
        exact absurd heads (by decide)
      rw [Text.dropAll, String.toList_ofList, Text.dropAllList_of_not_prefix elsewhere]
    rw [if_neg (by simpa using isPlain), Directive.ofBody?_opens notStatic noEquals, compacted, kept]
    rw [compacted]
    exact fun empty => List.append_ne_nil_of_right_ne_nil _ type.tight_ne_nil
      (String.ofList_injective empty)

theorem ofBody?_chars (body : DirectiveBody) :
    Directive.ofBody? (String.ofList body.chars) = some body.read := by
  cases body with
  | opens name other =>
      rw [chars_opens, Directive.ofBody?_opens (name.not_static other) name.no_equals
        name.compact_chars_ne, name.compact_chars, name.dropAll_tight, read, meaning]
      exact fun _ _ same => nomatch same
  | renames name word other before after target =>
      rw [chars_renames, Directive.ofBody?_alias word other before after target.compact_chars_ne,
        target.compact_chars, target.dropAll_tight, read, meaning]
      exact fun _ _ same => nomatch same
  | members space type => exact ofBody?_members space type

theorem read_eq_meaning_iff (body : DirectiveBody) : body.read = body.meaning ↔ body.IsSpaced := by
  cases body with
  | opens name other => exact iff_of_true rfl fun _ _ same => nomatch same
  | renames name word other before after target => exact iff_of_true rfl fun _ _ same => nomatch same
  | members space type =>
      rw [read, meaning]
      constructor
      · rintro same _ _ ⟨⟩
        by_contra notSpaced
        rw [if_neg notSpaced] at same
        cases same
      · intro spaced
        exact if_pos (spaced space type rfl)

theorem chars_ne_nil (body : DirectiveBody) : body.chars ≠ [] := by
  cases body with
  | opens name other =>
      obtain ⟨front, word, whole, written⟩ := name.exists_last_word
      obtain ⟨first, rest, isWord, _⟩ := whole.exists_cons
      simp [chars_opens, written, isWord]
  | renames name word other before after target => simp [chars_renames]
  | members space type => simp [chars_members]

theorem solid_of_head?_chars (body : DirectiveBody) :
    ∀ c ∈ body.chars.head?, Text.isBlank c = false := by
  cases body with
  | opens name other => exact name.solid_of_head?_chars
  | renames name word other before after target =>
      intro c isFirst
      obtain ⟨first, rest, written, _⟩ := word.exists_cons
      rw [chars_renames, written] at isFirst
      obtain rfl := Option.some.inj isFirst
      exact solid_of_word word first (by simp [written])
  | members space type =>
      intro c isFirst
      obtain rfl : 's' = c := Option.some.inj isFirst
      decide

theorem solid_of_getLast?_chars (body : DirectiveBody) :
    ∀ c ∈ body.chars.getLast?, Text.isBlank c = false ∧ c ≠ ';' := by
  cases body with
  | opens name other => exact name.solid_of_getLast?_append []
  | renames name word other before after target =>
      have front := target.solid_of_getLast?_append
        (name.toList ++ before.chars ++ '=' :: after.chars)
      rwa [List.append_assoc _ ('=' :: after.chars), List.cons_append] at front
  | members space type =>
      have front := type.solid_of_getLast?_append ("static".toList ++ space.chars)
      rwa [List.append_assoc] at front

end DirectiveBody

namespace SpacedDirective

/-- A directive is read as what it says just if it is not one that imports members with something
else than a space behind the word `static`.  Such a directive is read as if it imported a namespace,
whose name begins with that word. -/
theorem parse?_text_iff (directive : SpacedDirective) :
    (Directive.parse? directive.text = some directive.body.meaning ↔ directive.body.IsSpaced) ∧
      ∀ space type, directive.body = .members space type → space.chars.head? ≠ some ' ' →
        Directive.parse? directive.text =
          some (.opens (String.ofList ("static".toList ++ type.tight))) := by
  have parsed : Directive.parse? directive.text = some directive.body.read := by
    rw [← directive.body.ofBody?_chars]
    exact Directive.parse?_of_body directive.body.chars_ne_nil directive.body.solid_of_head?_chars
      directive.body.solid_of_getLast?_chars directive.everywhere directive.gap directive.close
  constructor
  · rw [parsed, Option.some.injEq, DirectiveBody.read_eq_meaning_iff]
  · intro space type isMembers notSpaced
    rw [parsed, isMembers, DirectiveBody.read, if_neg notSpaced]

def tab : Space := ⟨⟨['\t'], List.forall_mem_singleton.mpr (by decide)⟩, by decide⟩

def nameN : SpacedName := ⟨false, "N", [], by decide⟩

/-- The members of `N` are imported, with some white space behind `static`. -/
def membersOfN (behind : Space) : SpacedDirective where
  everywhere := none
  gap := .single
  body := .members behind nameN
  close := .nothing

theorem parse?_membersOfN :
    (membersOfN .single).text = "using static N;" ∧ (membersOfN tab).text = "using static\tN;" ∧
      (membersOfN tab).body = .members tab nameN ∧ tab.chars.head? ≠ some ' ' ∧
      Directive.parse? (membersOfN .single).text = some .members ∧
      Directive.parse? (membersOfN tab).text =
        some (.opens (String.ofList ("static".toList ++ nameN.tight))) := by
  have isSpaced : (membersOfN .single).body.IsSpaced := by
    rintro _ _ ⟨⟩
    rfl
  have noSpace : tab.chars.head? ≠ some ' ' := by decide
  obtain ⟨asWritten, _⟩ := parse?_text_iff (membersOfN .single)
  obtain ⟨_, asNamespace⟩ := parse?_text_iff (membersOfN tab)
  exact ⟨by decide +kernel, by decide +kernel, rfl, noSpace, asWritten.mpr isSpaced,
    asNamespace tab nameN rfl noSpace⟩

/-- With a tab behind `static` a namespace is imported, which nobody has named. -/
theorem parse?_static_tab :
    (membersOfN tab).text = "using static\tN;" ∧ (membersOfN tab).body.meaning = .members ∧
      Directive.parse? (membersOfN tab).text = some (.opens "staticN") ∧
      Directive.parse? (membersOfN tab).text ≠ some (membersOfN tab).body.meaning := by
  decide +kernel

end SpacedDirective

end SolutionSurvey
