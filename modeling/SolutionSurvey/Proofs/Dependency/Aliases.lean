import SolutionSurvey.Proofs.Dependency.TypeExpressions

/-!
# What an alias stands for

The target of an alias is looked up as one name, whatever type it is written as.  So an alias leads
where its target leads if the target is a bare name, and it leads nowhere if it is anything else.
-/

namespace SolutionSurvey

open CSharp.Lexeme (IsWord continuesWord)

/-! ### How directives are written -/

/-- How a directive begins; one that counts in all files says so. -/
def opening (everywhere : Option Space) (gap : Space) : List Char :=
  everywhere.elim [] (fun space => "global".toList ++ space.chars) ++
    ("using".toList ++ gap.chars)

theorem head?_opening (everywhere : Option Space) (gap : Space) (back : List Char) :
    (opening everywhere gap ++ back).head? = some (if everywhere.isSome then 'g' else 'u') := by
  cases everywhere with
  | none => rfl
  | some space => rfl

theorem solid_of_head?_opening (everywhere : Option Space) (gap : Space) (back : List Char) :
    ∀ c ∈ (opening everywhere gap ++ back).head?, Text.isBlank c = false := by
  intro c isFirst
  rw [head?_opening] at isFirst
  obtain rfl := Option.some.inj isFirst
  cases everywhere with
  | none => rw [Option.isSome_none, if_neg Bool.false_ne_true]; decide
  | some space => rw [Option.isSome_some, if_pos rfl]; decide

namespace Directive

section Body

variable {body : List Char} (written : body ≠ [])
  (first : ∀ c ∈ body.head?, Text.isBlank c = false)
  (last : ∀ c ∈ body.getLast?, Text.isBlank c = false ∧ c ≠ ';')

include written last

/-- What closes a directive is cut off. -/
theorem trim_closed (everywhere : Option Space) (gap : Space) (close : Blanks) :
    Text.trim (Text.trimEndOf (· == ';') (Text.trim (String.ofList
      (opening everywhere gap ++ (body ++ (close.chars ++ [';'])))))) =
        String.ofList (opening everywhere gap ++ body) := by
  have solidFirst := solid_of_head?_opening everywhere gap
  have solidLast : ∀ c ∈ (opening everywhere gap ++ body).getLast?,
      Text.isBlank c = false ∧ c ≠ ';' := by
    rwa [List.getLast?_append_of_ne_nil _ written]
  have blankOrLast : ∀ c ∈ (opening everywhere gap ++ body ++ close.chars).getLast?,
      (c == ';') = false := by
    intro c isLast
    rw [beq_eq_false_iff_ne]
    rw [List.getLast?_append] at isLast
    rcases Option.or_eq_some_iff.mp isLast with inClose | ⟨_, inBody⟩
    · rintro rfl
      exact absurd (close.blank ';' (List.mem_of_getLast? inClose)) (by decide)
    · exact (solidLast c inBody).2
  have more : opening everywhere gap ++ body ≠ [] := List.append_ne_nil_of_right_ne_nil _ written
  have whole : opening everywhere gap ++ (body ++ (close.chars ++ [';'])) =
      opening everywhere gap ++ body ++ close.chars ++ [';'] := by
    simp only [List.append_assoc]
  have untouched : Text.trim
      (String.ofList (opening everywhere gap ++ body ++ close.chars ++ [';'])) =
        String.ofList (opening everywhere gap ++ body ++ close.chars ++ [';']) := by
    apply Text.trim_of_ends
    · rw [← whole]
      exact solidFirst _
    · rw [List.getLast?_concat]
      intro c isLast
      obtain rfl := Option.some.inj isLast
      decide
    · exact List.concat_ne_nil _ _
  have trimmed := Text.trim_append close.blank (solidFirst body)
    (fun c isLast => (solidLast c isLast).1) more
  have semicolon : ∀ c ∈ [';'], (c == ';') = true := List.forall_mem_singleton.mpr rfl
  rw [whole, untouched, Text.trimEndOf_append blankOrLast semicolon, trimmed]

include first

/-- A directive is read from its body, however it is opened and closed. -/
theorem parse?_of_body (everywhere : Option Space) (gap : Space) (close : Blanks) :
    parse? (String.ofList (opening everywhere gap ++ (body ++ (close.chars ++ [';'])))) =
      ofBody? (String.ofList body) := by
  have opened : ((Text.after? "global" (String.ofList (opening everywhere gap ++ body))).map
      Text.trimStart).getD (String.ofList (opening everywhere gap ++ body)) =
        String.ofList ("using".toList ++ (gap.chars ++ body)) := by
    cases everywhere with
    | none =>
        have absent : ¬ "global".toList <+: "using".toList ++ gap.chars ++ body := by
          rintro ⟨rest, same⟩
          have heads : some 'g' = some 'u' := congrArg List.head? same
          exact absurd heads (by decide)
        rw [opening, Option.elim_none, List.nil_append, Text.after?_eq_none absent,
          List.append_assoc]
        rfl
    | some space =>
        have solid : ∀ c ∈ ("using".toList ++ (gap.chars ++ body)).head?,
            Text.isBlank c = false := by
          intro c isFirst
          obtain rfl : 'u' = c := Option.some.inj isFirst
          decide
        rw [opening, Option.elim_some, List.append_assoc, List.append_assoc, Text.after?_append,
          Option.map_some, Option.getD_some, List.append_assoc,
          Text.trimStart_append space.blank solid]
  have trimmed : Text.trim (String.ofList (gap.chars ++ body)) = String.ofList body := by
    have around := Text.trim_around gap.blank (List.forall_mem_nil _) first
      (fun c isLast => (last c isLast).1) written
    rwa [List.append_nil] at around
  rw [parse?, trim_closed written last, opened, Text.after?_append, Option.map_some,
    Option.bind_some, trimmed]

end Body

end Directive

/-- A `using` directive that gives a type another name. -/
structure AliasDirective where
  everywhere : Option Space
  gap : Space
  name : String
  before : Blanks
  after : Blanks
  target : TypeExpression
  close : Blanks
  word : IsWord name.toList
  /-- The word `static` begins a directive of another kind. -/
  other : name ≠ "static"

namespace AliasDirective

def body (directive : AliasDirective) : List Char :=
  directive.name.toList ++ directive.before.chars ++ '=' ::
    (directive.after.chars ++ directive.target.chars)

def text (directive : AliasDirective) : String :=
  String.ofList (opening directive.everywhere directive.gap ++
    (directive.body ++ (directive.close.chars ++ [';'])))

end AliasDirective

/-- A type without white space, from the outermost namespace on. -/
def TypeExpression.target (expression : TypeExpression) : String :=
  Text.dropAll Directive.globalMark (Text.compact expression.text)

/-! ### Signs -/

theorem not_mem_of_word {text : List Char} (whole : IsWord text) (sign : Char)
    (noWord : continuesWord sign = false) (noAt : sign ≠ '@') : sign ∉ text := by
  obtain ⟨first, rest, rfl, begins, continues⟩ := whole.exists_cons
  intro membership
  rcases List.mem_cons.mp membership with rfl | inRest
  · rcases begins with letter | rfl | rfl | rfl
    · have continued : continuesWord sign := by
        simp [continuesWord, Text.isIdentifierContinuation_of_start letter]
      rw [noWord] at continued
      cases continued
    · exact absurd noWord (by decide)
    · exact absurd noWord (by decide)
    · exact noAt rfl
  · rw [continues sign inRest] at noWord
    cases noWord

theorem solid_of_word {text : List Char} (whole : IsWord text) :
    ∀ c ∈ text, Text.isBlank c = false := by
  intro c membership
  have uncut := (Declaration.plain_of_word whole c membership).1
  exact (Bool.or_eq_false_iff.mp uncut).2

theorem Blanks.filter_solid (blanks : Blanks) : blanks.chars.filter (!Text.isBlank ·) = [] := by
  apply List.filter_eq_nil_iff.mpr
  intro c membership
  simp [blanks.blank c membership]

/-- The mark for the outermost namespace is dropped from a name. -/
theorem Resolution.IsName.dropAll_globalMark {full : List Char} (whole : IsName full)
    (fromOutermost : Bool) :
    Text.dropAll Directive.globalMark (String.ofList
      ((if fromOutermost then Directive.globalMark.toList else []) ++ full)) =
        String.ofList full := by
  have unmarked : Text.dropAllList Directive.globalMark.toList 0 full = full :=
    Text.dropAllList_of_not_mem (by decide : ':' ∈ Directive.globalMark.toList) whole.unmarked
  rw [Text.dropAll, String.toList_ofList]
  split
  · have dropped : Text.dropAllList Directive.globalMark.toList 0
        (Directive.globalMark.toList ++ full) =
          Text.dropAllList Directive.globalMark.toList 0 full := rfl
    rw [dropped, unmarked]
  · rw [List.nil_append, unmarked]

namespace Directive

/-- Only the word `static` begins a directive that imports members. -/
theorem not_static_of_word {word back : List Char} (whole : IsWord word)
    (other : word ≠ "static".toList)
    (ends : ∀ c ∈ back.head?, Text.isBlank c ∨ c = '=' ∨ c = '.') :
    ¬ "static ".toList <+: word ++ back := by
  rintro ⟨rest, same⟩
  -- Up to the first sign or blank there is the word on one side and `static` on the other.
  have wordFirst : (word ++ back).takeWhile (fun c => !(Text.isBlank c || c == '=' || c == '.')) =
      word := by
    have noEquals := not_mem_of_word whole '=' (by decide) (by decide)
    have noDot := not_mem_of_word whole '.' (by decide) (by decide)
    have plain : ∀ c ∈ word, (!(Text.isBlank c || c == '=' || c == '.')) = true := by
      intro c membership
      have notEquals : c ≠ '=' := fun sign => noEquals (sign ▸ membership)
      have notDot : c ≠ '.' := fun sign => noDot (sign ▸ membership)
      simp [solid_of_word whole c membership, notEquals, notDot]
    rw [List.takeWhile_append_of_pos plain]
    cases back with
    | nil => exact List.append_nil word
    | cons c back =>
        have sign : ¬ (!(Text.isBlank c || c == '=' || c == '.')) = true := by
          rcases ends c rfl with blank | rfl | rfl
          · simp [blank]
          · simp
          · simp
        rw [List.takeWhile_cons, if_neg sign, List.append_nil]
  have staticFirst : ("static ".toList ++ rest).takeWhile
      (fun c => !(Text.isBlank c || c == '=' || c == '.')) = "static".toList := by
    have apart : "static ".toList = "static".toList ++ [' '] := by decide
    have plain : ∀ c ∈ "static".toList, (!(Text.isBlank c || c == '=' || c == '.')) = true :=
      List.all_eq_true.mp (by decide)
    rw [apart, List.append_assoc, List.takeWhile_append_of_pos plain, List.singleton_append,
      List.takeWhile_cons_of_neg (by decide), List.append_nil]
  rw [same, wordFirst] at staticFirst
  exact other staticFirst

/-- An alias is given its target without white space, whatever it is. -/
theorem ofBody?_alias {name : String} (word : IsWord name.toList) (other : name ≠ "static")
    (before after : Blanks) {target : List Char}
    (some : Text.compact (String.ofList target) ≠ "") :
    ofBody? (String.ofList
      (name.toList ++ before.chars ++ '=' :: (after.chars ++ target))) =
        Option.some (.alias name
          (Text.dropAll globalMark (Text.compact (String.ofList target)))) := by
  have solid : ∀ c ∈ name.toList, Text.isBlank c = false := solid_of_word word
  have written : name.toList ≠ [] := by
    obtain ⟨c, rest, isName, _⟩ := word.exists_cons
    exact isName ▸ List.cons_ne_nil c rest
  have noEquals : '=' ∉ name.toList ++ before.chars := by
    rintro membership
    rcases List.mem_append.mp membership with inName | inGap
    · exact not_mem_of_word word '=' (by decide) (by decide) inName
    · exact absurd (before.blank '=' inGap) (by decide)
  have notStatic : ¬ "static ".toList <+:
      name.toList ++ before.chars ++ '=' :: (after.chars ++ target) := by
    rw [List.append_assoc]
    apply not_static_of_word word fun same => other (String.toList_injective same)
    intro c isFirst
    rw [List.head?_append] at isFirst
    rcases Option.or_eq_some_iff.mp isFirst with inGap | ⟨_, isSign⟩
    · exact .inl (before.blank c (List.mem_of_mem_head? inGap))
    · exact .inr (.inl (Option.some.inj isSign).symm)
  have named : Text.trim (String.ofList (name.toList ++ before.chars)) = name := by
    have around := Text.trim_append before.blank
      (fun c isFirst => solid c (List.mem_of_mem_head? isFirst))
      (fun c isLast => solid c (List.mem_of_getLast? isLast)) written
    rwa [String.ofList_toList] at around
  have compacted : Text.compact (String.ofList (after.chars ++ target)) =
      Text.compact (String.ofList target) := by
    rw [Text.compact, Text.compact, String.toList_ofList, String.toList_ofList,
      List.filter_append, after.filter_solid, List.nil_append]
  have filled : name ≠ "" := fun empty => written (congrArg String.toList empty)
  rw [ofBody?, Text.after?_eq_none notStatic, Option.isSome_none, if_neg Bool.false_ne_true,
    Text.splitAtFirst?_append noEquals]
  dsimp only
  rw [named, compacted, if_neg (by simp [filled, some])]

end Directive

theorem DottedName.solid (name : DottedName) : ∀ c ∈ name.full, Text.isBlank c = false := by
  intro c membership
  exact (Bool.or_eq_false_iff.mp (name.isName.uncut c membership)).2

theorem DottedName.no_sign (name : DottedName) (sign : Char) (noWord : continuesWord sign = false)
    (noAt : sign ≠ '@') (noDot : sign ≠ '.') : sign ∉ name.full := by
  obtain ⟨_, outer, own, words, word⟩ := name
  unfold DottedName.full
  induction outer with
  | nil => exact not_mem_of_word word sign noWord noAt
  | cons part outer inductionHypothesis =>
      obtain ⟨wordPart, words⟩ := List.forall_mem_cons.mp words
      have noSign := not_mem_of_word wordPart sign noWord noAt
      simpa [noSign, noDot] using inductionHypothesis words

namespace TypeExpression

theorem getLast?_charsOfArguments (others : List (Blanks × TypeExpression × Blanks)) :
    (charsOfArguments others).getLast? = some '>' := by
  induction others with
  | nil => rw [charsOfArguments]; rfl
  | cons argument others inductionHypothesis =>
      obtain ⟨before, argument, after⟩ := argument
      simp [charsOfArguments, List.getLast?_append, List.getLast?_cons, inductionHypothesis]

theorem getLast?_charsOfElements (others : List (Blanks × TypeExpression × Label)) :
    (charsOfElements others).getLast? = some ')' := by
  induction others with
  | nil => rw [charsOfElements]; rfl
  | cons element others inductionHypothesis =>
      obtain ⟨before, element, label⟩ := element
      simp [charsOfElements, List.getLast?_append, List.getLast?_cons, inductionHypothesis]

/-- A type ends with a word or a sign. -/
theorem solid_of_getLast?_chars (expression : TypeExpression) {c : Char}
    (isLast : c ∈ expression.chars.getLast?) : Text.isBlank c = false ∧ c ≠ ';' := by
  cases expression with
  | named name =>
      rw [chars, DottedName.chars, List.getLast?_append_of_ne_nil _ name.isName.written] at isLast
      have membership := List.mem_of_getLast? isLast
      have noSemicolon := name.no_sign ';' (by decide) (by decide) (by decide)
      exact ⟨name.solid c membership, fun same => noSemicolon (same ▸ membership)⟩
  | applied name gap before first after others =>
      have closed : (applied name gap before first after others).chars.getLast? = some '>' := by
        simp [chars, List.getLast?_append, List.getLast?_cons, getLast?_charsOfArguments]
      obtain rfl := Option.some.inj (closed.symm.trans isLast)
      decide
  | tuple before first label others =>
      have closed : (tuple before first label others).chars.getLast? = some ')' := by
        simp [chars, List.getLast?_append, List.getLast?_cons, getLast?_charsOfElements]
      obtain rfl := Option.some.inj (closed.symm.trans isLast)
      decide
  | decorated element decoration =>
      cases decoration with
      | nullable gap =>
          obtain rfl : '?' = c := by
            simpa [chars, Decoration.chars, List.getLast?_append] using isLast
          decide
      | pointer gap =>
          obtain rfl : '*' = c := by
            simpa [chars, Decoration.chars, List.getLast?_append] using isLast
          decide
      | array gap rank commas =>
          obtain rfl : ']' = c := by
            simpa [chars, Decoration.chars, List.getLast?_append, List.getLast?_cons] using isLast
          decide

/-- Only a bare name is written without a sign. -/
theorem exists_sign (expression : TypeExpression) :
    (∃ name, expression = named name) ∨
      ∃ sign ∈ expression.chars, Resolution.separates sign ∧ Text.isBlank sign = false := by
  cases expression with
  | named name => exact .inl ⟨name, rfl⟩
  | applied name gap before first after others => exact .inr ⟨'<', by simp [chars], by decide⟩
  | tuple before first label others => exact .inr ⟨'(', by simp [chars], by decide⟩
  | decorated element decoration =>
      refine .inr ?_
      cases decoration with
      | nullable gap => exact ⟨'?', by simp [chars, Decoration.chars], by decide⟩
      | pointer gap => exact ⟨'*', by simp [chars, Decoration.chars], by decide⟩
      | array gap rank commas => exact ⟨'[', by simp [chars, Decoration.chars], by decide⟩

theorem exists_solid (expression : TypeExpression) :
    ∃ c ∈ expression.chars, Text.isBlank c = false := by
  rcases expression.exists_sign with ⟨name, rfl⟩ | ⟨sign, membership, _, solid⟩
  · obtain ⟨c, rest, isFull⟩ := List.exists_cons_of_ne_nil name.isName.written
    have inFull : c ∈ name.full := by
      rw [isFull]
      exact List.mem_cons_self
    rw [chars, DottedName.chars]
    exact ⟨c, List.mem_append_right _ inFull, name.solid c inFull⟩
  · exact ⟨sign, membership, solid⟩

end TypeExpression

namespace AliasDirective

variable (directive : AliasDirective)

theorem compact_target_ne : Text.compact directive.target.text ≠ "" := by
  obtain ⟨c, membership, solid⟩ := directive.target.exists_solid
  intro empty
  have inCompact : c ∈ (Text.compact directive.target.text).toList := by
    rw [Text.compact, TypeExpression.text, String.toList_ofList, String.toList_ofList]
    exact List.mem_filter.mpr ⟨membership, by simp [solid]⟩
  rw [empty] at inCompact
  cases inCompact

theorem ofBody?_body : Directive.ofBody? (String.ofList directive.body) =
    some (.alias directive.name directive.target.target) :=
  Directive.ofBody?_alias directive.word directive.other directive.before directive.after
    directive.compact_target_ne

/-- An alias is given the type without white space as its target. -/
theorem parse?_text : Directive.parse? directive.text =
    some (.alias directive.name directive.target.target) := by
  obtain ⟨c, name, isName, begins, _⟩ := directive.word.exists_cons
  have solid := solid_of_word directive.word c (by simp [isName])
  rw [← directive.ofBody?_body, text]
  apply Directive.parse?_of_body
  · simp [body]
  · rw [body, isName]
    intro first isFirst
    obtain rfl : c = first := Option.some.inj isFirst
    exact solid
  · intro last isLast
    apply directive.target.solid_of_getLast?_chars
    obtain ⟨c, membership, _⟩ := directive.target.exists_solid
    rwa [body, ← List.cons_append, ← List.append_assoc,
      List.getLast?_append_of_ne_nil _ (List.ne_nil_of_mem membership)] at isLast

end AliasDirective

/-! ### Bare names -/

theorem DottedName.exists_first (name : DottedName) : ∃ first rest, name.full = first :: rest ∧
    (Text.isIdentifierStart first ∨ first = '_' ∨ first = '\\' ∨ first = '@') := by
  obtain ⟨_, outer, own, words, word⟩ := name
  cases outer with
  | nil =>
      obtain ⟨first, rest, written, begins, _⟩ := word.exists_cons
      exact ⟨first, rest, written, begins⟩
  | cons part outer =>
      obtain ⟨first, rest, written, begins, _⟩ := (words part List.mem_cons_self).exists_cons
      have written : part.toList ++ '.' :: outer.foldr (fun part rest => part.toList ++ '.' :: rest)
          own.toList = first :: (rest ++ '.' :: outer.foldr (fun part rest =>
            part.toList ++ '.' :: rest) own.toList) := by
        rw [written, List.cons_append]
      exact ⟨first, _, written, begins⟩

theorem DottedName.readName_eq_iff (name : DottedName) :
    Resolution.readName name.full = [String.ofList name.full] ↔
      Declaration.beginsOddly (String.ofList name.full) = false := by
  obtain ⟨first, rest, written, begins⟩ := name.exists_first
  have kept : String.ofList ((first :: rest).dropWhile (· == '@')) = String.ofList (first :: rest) ↔
      first ≠ '@' := by
    rw [String.ofList_inj, List.dropWhile_eq_self_iff]
    simp
  rw [written, Resolution.readName, ← Declaration.startsPlainly_iff rest begins]
  split
  case isTrue starts => rw [List.singleton_inj, kept, and_iff_right starts]
  case isFalse starts => simp [starts]

namespace TypeExpression

/-- A bare name that is looked up as it is written. -/
def IsBare (expression : TypeExpression) : Prop :=
  ∃ name, expression = named name ∧ Declaration.beginsOddly (String.ofList name.full) = false

theorem target_named (name : DottedName) : (named name).target = String.ofList name.full := by
  have solidMark : ∀ c ∈ Directive.globalMark.toList, (!Text.isBlank c) = true :=
    List.all_eq_true.mp (by decide)
  have solid : ∀ c ∈ name.chars, (!Text.isBlank c) = true := by
    intro c membership
    rcases List.mem_append.mp membership with inMark | inFull
    · rw [DottedName.mark] at inMark
      split at inMark
      · exact solidMark c inMark
      · cases inMark
    · rw [name.solid c inFull, Bool.not_false]
  rw [target, Text.compact, text, String.toList_ofList, chars, List.filter_eq_self.mpr solid]
  exact name.isName.dropAll_globalMark name.fromOutermost

theorem target_notMem_names {expression : TypeExpression} {sign : Char}
    (membership : sign ∈ expression.chars) (cuts : Resolution.separates sign)
    (solid : Text.isBlank sign = false) : expression.target ∉ expression.names := by
  intro inNames
  rw [← namesIn_chars] at inNames
  have inTarget : sign ∈ expression.target.toList := by
    rw [target, Text.dropAll, String.toList_ofList]
    apply Text.mem_dropAllList (by decide) (Resolution.not_mem_globalMark cuts)
    rw [Text.compact, text, String.toList_ofList, String.toList_ofList]
    exact List.mem_filter.mpr ⟨membership, by simp [solid]⟩
  rw [Resolution.not_separates_of_mem_namesIn inNames sign inTarget] at cuts
  cases cuts

theorem IsBare.names_eq {expression : TypeExpression} (bare : expression.IsBare) :
    expression.names = [expression.target] := by
  obtain ⟨name, rfl, plain⟩ := bare
  rw [target_named, names]
  exact name.readName_eq_iff.mpr plain

/-- The target is among the names of a type only if it is all that is written. -/
theorem target_mem_names_iff (expression : TypeExpression) :
    expression.target ∈ expression.names ↔ expression.IsBare := by
  constructor
  · intro inNames
    rcases expression.exists_sign with ⟨name, rfl⟩ | ⟨sign, membership, cuts, solid⟩
    · refine ⟨name, rfl, name.readName_eq_iff.mp ?_⟩
      rw [target_named, names, Resolution.readName] at inNames
      rw [Resolution.readName]
      split at inNames
      · next starts =>
        rw [if_pos starts, List.mem_singleton.mp inNames]
      · cases inNames
    · exact absurd inNames (target_notMem_names membership cuts solid)
  · intro bare
    rw [bare.names_eq]
    exact List.mem_singleton_self _

end TypeExpression

/-! ### What is looked up -/

namespace Resolution

variable {catalog : Catalog} {imports : Imports} {own : Option String}

/-- Without aliases a dotted name stands for itself. -/
theorem resolve?_of_dotted (unaliased : imports.aliases = []) {name : String}
    (dotted : '.' ∈ name.toList) :
    resolve? catalog imports own name = if catalog.contains name then some name else none := by
  cases parts : Text.splitAtFirst? '.' name with
  | none => exact absurd dotted (Text.splitAtFirst?_eq_none_iff.mp parts)
  | some both => simp [resolve?, meanings, parts, unaliased, List.find?_singleton]

theorem resolveAll_of_dotted (unaliased : imports.aliases = []) {expression : String}
    (dotted : ∀ name ∈ namesIn expression, '.' ∈ name.toList) :
    resolveAll catalog imports own expression =
      (namesIn expression).filter catalog.contains := by
  rw [resolveAll]
  generalize namesIn expression = names at dotted
  induction names with
  | nil => rfl
  | cons name names inductionHypothesis =>
      obtain ⟨dottedName, dotted⟩ := List.forall_mem_cons.mp dotted
      have found : resolve? catalog imports own name =
          if catalog.contains name then some name else none :=
        resolve?_of_dotted unaliased dottedName
      by_cases known : catalog.contains name
      · rw [if_pos known] at found
        rw [List.filterMap_cons_some found, List.filter_cons_of_pos known,
          inductionHypothesis dotted]
      · rw [if_neg known] at found
        rw [List.filterMap_cons_none found, List.filter_cons_of_neg known,
          inductionHypothesis dotted]

/-- What is read of a word: it is no name if it begins with an escape or a symbol, and at signs before
it are left out. -/
def nameIn? (word : String) : Option String :=
  if startsName word.toList then some (String.ofList (word.toList.dropWhile (· == '@'))) else none

theorem resolveAll_of_word {word : String} (whole : IsWord word.toList) :
    resolveAll catalog imports own word =
      ((nameIn? word).bind (resolve? catalog imports own)).toList := by
  rw [resolveAll, Declaration.namesIn_of_word whole, nameIn?]
  split
  case isTrue =>
    rw [Option.bind_some]
    cases found : resolve? catalog imports own _ with
    | none => exact List.filterMap_cons_none found
    | some name => exact List.filterMap_cons_some found
  case isFalse => rfl

/-- An alias is looked up by its whole target. -/
theorem resolveAll_of_alias {name target : String} (whole : namesIn name = [name])
    (simple : '.' ∉ name.toList) (aliased : imports.aliases.get? name = some target) :
    resolveAll catalog imports own name = [target].filter catalog.contains := by
  have parts := Text.splitAtFirst?_eq_none_iff.mpr simple
  have meant : meanings imports own name = [target] := by
    simp [meanings, parts, aliased]
  by_cases known : catalog.contains target
  · have found : resolve? catalog imports own name = some target := by
      rw [resolve?, meant, List.find?_cons_of_pos known]
    rw [resolveAll, whole, List.filterMap_cons_some found, List.filter_cons_of_pos known]
    rfl
  · have notFound : resolve? catalog imports own name = none := by
      rw [resolve?, meant, List.find?_cons_of_neg known, List.find?_nil]
    rw [resolveAll, whole, List.filterMap_cons_none notFound, List.filter_cons_of_neg known]
    rfl

end Resolution

namespace Imports

def withoutAliases (imports : Imports) : Imports := { imports with aliases := [] }

/-- The imports of some directives, as they are written. -/
def ofTexts (texts : List String) : Imports := ofDirectives (texts.filterMap Directive.parse?)

theorem get?_add_of_other {imports : Imports} {name target : String} {directive : Directive}
    (known : imports.aliases.get? name = some target)
    (other : ∀ target, directive ≠ .alias name target) :
    (imports.add directive).aliases.get? name = some target := by
  rcases directive with namespaceName | ⟨another, anotherTarget⟩ | _
  · rw [add]
    split <;> exact known
  · have different : name ≠ another := by
      rintro rfl
      exact other anotherTarget rfl
    rw [add, Table.get?_insert, if_neg different]
    exact known
  · exact known

/-- The last directive for an alias counts. -/
theorem get?_ofTexts (earlier : List String) {later : List String} {text name target : String}
    (parsed : Directive.parse? text = some (.alias name target))
    (last : ∀ text ∈ later, ∀ target, Directive.parse? text ≠ some (.alias name target)) :
    (ofTexts (earlier ++ text :: later)).aliases.get? name = some target := by
  rw [ofTexts, ofDirectives, List.filterMap_append, List.filterMap_cons_some parsed,
    List.foldl_append, List.foldl_cons]
  generalize (earlier.filterMap Directive.parse?).foldl add empty = before
  have given : (before.add (.alias name target)).aliases.get? name = some target := by
    rw [add, Table.get?_insert, if_pos rfl]
  generalize before.add (.alias name target) = imports at given
  induction later generalizing imports with
  | nil => exact given
  | cons next later inductionHypothesis =>
      obtain ⟨lastNext, last⟩ := List.forall_mem_cons.mp last
      cases parsedNext : Directive.parse? next with
      | none =>
          rw [List.filterMap_cons_none parsedNext]
          exact inductionHypothesis last imports given
      | some directive =>
          rw [List.filterMap_cons_some parsedNext, List.foldl_cons]
          apply inductionHypothesis last
          apply get?_add_of_other given
          rintro another rfl
          exact lastNext another parsedNext

end Imports

namespace TypeExpression

/-- Neither the target nor any name in a type is declared. -/
def Undeclared (catalog : Catalog) (expression : TypeExpression) : Prop :=
  catalog.contains expression.target = false ∧
    ∀ name ∈ expression.names, catalog.contains name = false

theorem filter_target_eq_iff (catalog : Catalog) (expression : TypeExpression) :
    [expression.target].filter catalog.contains = expression.names.filter catalog.contains ↔
      expression.IsBare ∨ expression.Undeclared catalog := by
  constructor
  · intro same
    by_cases known : catalog.contains expression.target
    · rw [List.filter_cons_of_pos known] at same
      have found : expression.target ∈ expression.names.filter catalog.contains := by
        rw [← same]
        exact List.mem_cons_self
      exact .inl (expression.target_mem_names_iff.mp (List.mem_filter.mp found).1)
    · rw [List.filter_cons_of_neg known, List.filter_nil] at same
      have none := List.filter_eq_nil_iff.mp same.symm
      exact .inr ⟨by simpa using known, by simpa using none⟩
  · rintro (bare | ⟨unknown, none⟩)
    · rw [bare.names_eq]
    · rw [List.filter_cons_of_neg (by simp [unknown]), List.filter_nil]
      exact (List.filter_eq_nil_iff.mpr (by simpa using none)).symm

end TypeExpression

/-- An alias for a type that is written with dotted names leads where the type itself leads just if
the type is a bare name, or nothing that it mentions is declared.  If the name of the alias begins
oddly, it is not looked up as it is, and what is read of it has to lead to the declared names in the
type by chance. -/
theorem resolveAll_alias_iff (directive : AliasDirective) {earlier later : List String}
    (last : ∀ text ∈ later, ∀ target, Directive.parse? text ≠ some (.alias directive.name target))
    (dotted : ∀ name ∈ directive.target.names, '.' ∈ name.toList)
    (catalog : Catalog) (own : Option String) :
    Resolution.resolveAll catalog (.ofTexts (earlier ++ directive.text :: later)) own
        directive.name =
      Resolution.resolveAll catalog
        (Imports.ofTexts (earlier ++ directive.text :: later)).withoutAliases own
        directive.target.text ↔
      if Declaration.beginsOddly directive.name then
        ((Resolution.nameIn? directive.name).bind (Resolution.resolve? catalog
          (.ofTexts (earlier ++ directive.text :: later)) own)).toList =
            directive.target.names.filter catalog.contains
      else directive.target.IsBare ∨ directive.target.Undeclared catalog := by
  have aliased := Imports.get?_ofTexts earlier directive.parse?_text last
  have read : Resolution.namesIn directive.target.text = directive.target.names :=
    directive.target.namesIn_chars
  have direct : Resolution.resolveAll catalog
      (Imports.ofTexts (earlier ++ directive.text :: later)).withoutAliases own
        directive.target.text = directive.target.names.filter catalog.contains := by
    rw [Resolution.resolveAll_of_dotted rfl (by rwa [read]), read]
  rw [direct]
  split
  case isTrue odd => rw [Resolution.resolveAll_of_word directive.word]
  case isFalse plain =>
    have whole : Resolution.namesIn directive.name = [directive.name] := by
      obtain ⟨first, rest, written, begins, _⟩ := directive.word.exists_cons
      have plainly := Declaration.startsPlainly_iff rest begins
      rw [← written, String.ofList_toList] at plainly
      have plain := plainly.mpr (Bool.eq_false_iff.mpr plain)
      exact (Declaration.namesIn_word_eq_iff directive.word written).mpr plain
    have simple : '.' ∉ directive.name.toList := fun dot =>
      (Declaration.plain_of_word directive.word '.' dot).2.1 rfl
    rw [Resolution.resolveAll_of_alias whole simple aliased]
    exact directive.target.filter_target_eq_iff catalog

namespace AliasDirective

/-- The directive `using X=` for a type, which is written without white space. -/
def short (target : TypeExpression) : AliasDirective where
  everywhere := none
  gap := ⟨⟨[' '], List.forall_mem_singleton.mpr (by decide)⟩, by decide⟩
  name := "X"
  before := ⟨[], List.forall_mem_nil _⟩
  after := ⟨[], List.forall_mem_nil _⟩
  target := target
  close := ⟨[], List.forall_mem_nil _⟩
  word := by decide
  other := by decide

/-- The type `N.B`. -/
def inner : TypeExpression := .named ⟨false, ["N"], "B", by decide, by decide⟩

/-- The type `N.B[]`. -/
def array : TypeExpression :=
  .decorated inner (.array ⟨[], List.forall_mem_nil _⟩ [] (List.forall_mem_nil _))

theorem short_inner_resolveAll :
    (short inner).text = "using X=N.B;" ∧
      (∀ text ∈ ["using X;"], ∀ target, Directive.parse? text ≠ some (.alias "X" target)) ∧
      Declaration.beginsOddly "X" = false ∧
      (∀ name ∈ inner.names, '.' ∈ name.toList) ∧
      Resolution.resolveAll ⟨["N.B"]⟩ (.ofTexts ([] ++ (short inner).text :: ["using X;"]))
          none "X" =
        Resolution.resolveAll ⟨["N.B"]⟩
          (Imports.ofTexts ([] ++ (short inner).text :: ["using X;"])).withoutAliases none
          inner.text := by
  have last : ∀ text ∈ ["using X;"], ∀ target,
      Directive.parse? text ≠ some (.alias "X" target) := by
    have opens : Directive.parse? "using X;" = some (.opens "X") := by decide +kernel
    intro text membership target
    rw [List.mem_singleton.mp membership, opens]
    exact fun same => Directive.noConfusion (Option.some.inj same)
  have plain : Declaration.beginsOddly "X" = false := by decide
  have dotted : ∀ name ∈ inner.names, '.' ∈ name.toList := by decide +kernel
  have bare : inner.IsBare := ⟨_, rfl, by decide +kernel⟩
  exact ⟨by decide +kernel, last, plain, dotted,
    (resolveAll_alias_iff (short inner) last dotted ⟨["N.B"]⟩ none).mpr (.inl bare)⟩

/-- The type `N.B` is declared and found through the array, but not through the alias for it. -/
theorem short_array_not_alike :
    (short array).text = "using X=N.B[];" ∧ array.text = "N.B[]" ∧ array.names = ["N.B"] ∧
      Resolution.resolveAll ⟨["N.B"]⟩ (.ofTexts [(short array).text]) none "X" = [] ∧
      Resolution.resolveAll ⟨["N.B"]⟩ (Imports.ofTexts [(short array).text]).withoutAliases none
        array.text = ["N.B"] ∧
      Resolution.resolveAll ⟨["N.B"]⟩ (.ofTexts [(short array).text]) none "X" ≠
        Resolution.resolveAll ⟨["N.B"]⟩ (Imports.ofTexts [(short array).text]).withoutAliases none
          array.text := by
  decide +kernel

end AliasDirective

end SolutionSurvey
