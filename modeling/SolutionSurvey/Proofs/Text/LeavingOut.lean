import SolutionSurvey.Proofs.Text.Pieces

/-!
# Leaving out parts of a text

A part cannot reach over a character that is not in it.  So it is left out on both sides of such a
character alike, and at the beginning of a text nothing is lost from this character on.
-/

namespace SolutionSurvey.Text

variable {part front back : List Char} {c : Char}

/-- A part that begins before a foreign character ends before it. -/
theorem isPrefixOf_append_cons (foreign : c ∉ part) :
    part.isPrefixOf (front ++ c :: back) = part.isPrefixOf front := by
  rw [Bool.eq_iff_iff, List.isPrefixOf_iff_prefix, List.isPrefixOf_iff_prefix]
  have inWhole : front <+: front ++ c :: back := List.prefix_append front _
  constructor
  · intro begins
    by_cases short : part.length ≤ front.length
    · exact List.prefix_of_prefix_length_le begins inWhole short
    · have further : front ++ [c] <+: front ++ c :: back := by
        rw [List.append_cons front c back]
        exact List.prefix_append _ back
      have reached : front ++ [c] <+: part := by
        apply List.prefix_of_prefix_length_le further begins
        rw [List.length_append, List.length_singleton]
        omega
      exact absurd (reached.subset List.mem_concat_self) foreign
  · intro begins
    exact begins.trans inWhole

/-- Whatever is left out on the left of a foreign character, the rest is not touched. -/
theorem withoutList_append_cons (some : part ≠ []) (foreign : c ∉ part) :
    withoutList part 0 (front ++ c :: back) =
      withoutList part 0 front ++ c :: withoutList part 0 back := by
  suffices whole : ∀ skip ≤ front.length, withoutList part skip (front ++ c :: back) =
      withoutList part skip front ++ c :: withoutList part 0 back from
    whole 0 (Nat.zero_le _)
  intro skip short
  induction front generalizing skip with
  | nil =>
      obtain rfl := Nat.le_zero.mp short
      have elsewhere : ¬ part.isPrefixOf ([] ++ c :: back) := by
        rw [isPrefixOf_append_cons foreign, List.isPrefixOf_iff_prefix, List.prefix_nil]
        exact some
      rw [List.nil_append] at elsewhere ⊢
      rw [withoutList, withoutList, if_neg elsewhere, List.nil_append]
  | cons first front inductionHypothesis =>
      cases skip with
      | succ skip => exact inductionHypothesis skip (Nat.le_of_succ_le_succ short)
      | zero =>
          have alike : part.isPrefixOf (first :: (front ++ c :: back)) =
              part.isPrefixOf (first :: front) := by
            rw [← List.cons_append]
            exact isPrefixOf_append_cons foreign
          rw [List.cons_append, withoutList, withoutList, alike]
          split
          · next begins =>
            have fits := (List.isPrefixOf_iff_prefix.mp begins).length_le
            rw [List.length_cons] at fits
            exact inductionHypothesis _ (by omega)
          · exact congrArg (first :: ·) (inductionHypothesis 0 (Nat.zero_le _))

/-- A foreign character is not dropped with the beginnings of a text. -/
theorem mem_dropAllList (some : part ≠ []) (foreign : c ∉ part) {text : List Char}
    (membership : c ∈ text) : c ∈ dropAllList part 0 text := by
  suffices whole : ∀ text skip, c ∈ text.drop skip → c ∈ dropAllList part skip text from
    whole text 0 membership
  intro text skip left
  induction text generalizing skip with
  | nil => simp at left
  | cons first rest inductionHypothesis =>
      cases skip with
      | succ skip => exact inductionHypothesis skip left
      | zero =>
          rw [dropAllList]
          split
          · next begins =>
            obtain ⟨others, written⟩ := List.isPrefixOf_iff_prefix.mp begins
            obtain ⟨start, part, rfl⟩ := List.exists_cons_of_ne_nil some
            rw [List.drop_zero, ← written] at left
            have later := (List.mem_append.mp left).resolve_left foreign
            obtain ⟨_, inRest⟩ := List.cons.inj written
            apply inductionHypothesis
            rwa [← inRest, List.length_cons, Nat.add_sub_cancel, List.append_eq, List.drop_left]
          · exact left

theorem dropAllList_of_not_prefix {text : List Char} (elsewhere : ¬ part <+: text) :
    dropAllList part 0 text = text := by
  cases text with
  | nil => rfl
  | cons first rest => rw [dropAllList, if_neg (mt List.isPrefixOf_iff_prefix.mp elsewhere)]

theorem dropAllList_of_not_mem {text : List Char} (inPart : c ∈ part) (absent : c ∉ text) :
    dropAllList part 0 text = text :=
  dropAllList_of_not_prefix fun begins => absent (begins.subset inPart)

theorem after?_append (start : String) (rest : List Char) :
    after? start (String.ofList (start.toList ++ rest)) = some (String.ofList rest) := by
  rw [after?, String.toList_ofList,
    if_pos (List.isPrefixOf_iff_prefix.mpr (List.prefix_append _ rest)), ← String.length_toList,
    List.drop_left]

theorem after?_eq_none {start : String} {text : List Char} (other : ¬ start.toList <+: text) :
    after? start (String.ofList text) = none := by
  rw [after?, String.toList_ofList, if_neg (mt List.isPrefixOf_iff_prefix.mp other)]

theorem splitAtFirst?_append (absent : c ∉ front) :
    splitAtFirst? c (String.ofList (front ++ c :: back)) =
      some (String.ofList front, String.ofList back) := by
  obtain ⟨taken, left⟩ := takeWhile_and_dropWhile absent back
  simp only [splitAtFirst?, String.toList_ofList, taken, left]

/-! ### Trimming -/

section Trimming

variable {α : Type} {kind : α → Bool} {items before after : List α}

theorem dropWhile_of_head? (first : ∀ item ∈ items.head?, kind item = false) :
    items.dropWhile kind = items := by
  cases items with
  | nil => rfl
  | cons item rest => exact List.dropWhile_cons_of_neg (by simp [first item rfl])

/-- What begins and ends plainly is left when all around it is trimmed. -/
theorem trimList_around (first : ∀ item ∈ items.head?, kind item = false)
    (last : ∀ item ∈ items.getLast?, kind item = false)
    (allBefore : ∀ item ∈ before, kind item) (allAfter : ∀ item ∈ after, kind item)
    (some : items ≠ []) :
    trimList kind (before ++ items ++ after) = items := by
  have firstToo : ∀ item ∈ (items ++ after).head?, kind item = false := by
    obtain ⟨item, others, rfl⟩ := List.exists_cons_of_ne_nil some
    exact first
  have lastToo : ∀ item ∈ items.reverse.head?, kind item = false := by
    rwa [List.head?_reverse]
  have allAfterToo : ∀ item ∈ after.reverse, kind item := by
    simpa using allAfter
  rw [trimList, List.append_assoc, List.dropWhile_append_of_pos allBefore,
    dropWhile_of_head? firstToo, List.reverse_append, List.dropWhile_append_of_pos allAfterToo,
    dropWhile_of_head? lastToo, List.reverse_reverse]

theorem trimList_of_ends (first : ∀ item ∈ items.head?, kind item = false)
    (last : ∀ item ∈ items.getLast?, kind item = false) (some : items ≠ []) :
    trimList kind items = items := by
  have around := trimList_around first last (List.forall_mem_nil _) (List.forall_mem_nil _) some
  rwa [List.append_nil] at around

/-- Only elements of the kind are trimmed. -/
theorem exists_around_trimList (kind : α → Bool) (items : List α) :
    ∃ before after, (∀ item ∈ before, kind item) ∧ (∀ item ∈ after, kind item) ∧
      items = before ++ (trimList kind items ++ after) := by
  have front := List.takeWhile_append_dropWhile (p := kind) (l := items)
  have back := List.takeWhile_append_dropWhile (p := kind) (l := (items.dropWhile kind).reverse)
  refine ⟨items.takeWhile kind, ((items.dropWhile kind).reverse.takeWhile kind).reverse,
    fun item membership => List.mem_takeWhile_imp membership, fun item membership =>
      List.mem_takeWhile_imp (List.mem_reverse.mp membership), ?_⟩
  rw [trimList, ← List.reverse_append, back, List.reverse_reverse, front]

end Trimming

theorem trim_eq_empty_iff {text : String} : trim text = "" ↔ ∀ c ∈ text.toList, isBlank c := by
  obtain ⟨before, after, blankBefore, blankAfter, around⟩ :=
    exists_around_trimList isBlank text.toList
  rw [trim, String.ofList_eq_empty_iff]
  constructor
  · intro empty
    rw [around, empty, List.nil_append]
    exact List.forall_mem_append.mpr ⟨blankBefore, blankAfter⟩
  · intro blank
    rw [trimList, List.dropWhile_eq_nil_iff.mpr blank]
    rfl

theorem trimStart_append {blanks text : List Char} (blank : ∀ c ∈ blanks, isBlank c)
    (first : ∀ c ∈ text.head?, isBlank c = false) :
    trimStart (String.ofList (blanks ++ text)) = String.ofList text := by
  rw [trimStart, String.toList_ofList, List.dropWhile_append_of_pos blank,
    dropWhile_of_head? first]

theorem trim_around {before text after : List Char} (blankBefore : ∀ c ∈ before, isBlank c)
    (blankAfter : ∀ c ∈ after, isBlank c) (first : ∀ c ∈ text.head?, isBlank c = false)
    (last : ∀ c ∈ text.getLast?, isBlank c = false) (written : text ≠ []) :
    trim (String.ofList (before ++ (text ++ after))) = String.ofList text := by
  rw [trim, String.toList_ofList, ← List.append_assoc,
    trimList_around first last blankBefore blankAfter written]

theorem trim_append {text after : List Char} (blankAfter : ∀ c ∈ after, isBlank c)
    (first : ∀ c ∈ text.head?, isBlank c = false) (last : ∀ c ∈ text.getLast?, isBlank c = false)
    (written : text ≠ []) : trim (String.ofList (text ++ after)) = String.ofList text := by
  have around : trimList isBlank ([] ++ text ++ after) = text :=
    trimList_around first last (List.forall_mem_nil _) blankAfter written
  rw [List.nil_append] at around
  rw [trim, String.toList_ofList, around]

theorem trim_of_ends {text : List Char} (first : ∀ c ∈ text.head?, isBlank c = false)
    (last : ∀ c ∈ text.getLast?, isBlank c = false) (written : text ≠ []) :
    trim (String.ofList text) = String.ofList text := by
  rw [trim, String.toList_ofList, trimList_of_ends first last written]

theorem trimEndOf_append {kind : Char → Bool} {text after : List Char}
    (last : ∀ c ∈ text.getLast?, kind c = false) (all : ∀ c ∈ after, kind c) :
    trimEndOf kind (String.ofList (text ++ after)) = String.ofList text := by
  have allToo : ∀ c ∈ after.reverse, kind c := by
    simpa using all
  have lastToo : ∀ c ∈ text.reverse.head?, kind c = false := by
    rwa [List.head?_reverse]
  rw [trimEndOf, String.toList_ofList, List.reverse_append, List.dropWhile_append_of_pos allToo,
    dropWhile_of_head? lastToo, List.reverse_reverse]

end SolutionSurvey.Text
