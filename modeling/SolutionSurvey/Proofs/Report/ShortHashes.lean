import SolutionSurvey.Proofs.Duplication.Groups
import SolutionSurvey.Report.Rendering

/-!
# Cutting hashes

The first bytes of a text can be shown just if they end between two characters.  In a text of ASCII
characters they always do, and a fingerprint is such a text.
-/

namespace SolutionSurvey

def IsAscii (text : String) : Prop := ∀ c ∈ text.toList, c.toNat < 128

namespace Report

theorem utf8ByteSize_cons (c : Char) (text : List Char) :
    (String.ofList (c :: text)).utf8ByteSize =
      c.utf8Size + (String.ofList text).utf8ByteSize := by
  rw [String.ofList_cons, String.utf8ByteSize_append, String.utf8ByteSize_singleton]

/-- Either the whole text is shown, or as many bytes as there is room for. -/
theorem firstBytes?_eq_some {bytes : Nat} {text short : List Char}
    (cut : firstBytes? bytes text = some short) :
    short <+: text ∧ (String.ofList short).utf8ByteSize =
      min bytes (String.ofList text).utf8ByteSize := by
  fun_induction firstBytes? bytes text generalizing short with
  | case1 bytes =>
      obtain rfl := Option.some.inj cut
      simp
  | case2 c rest =>
      obtain rfl := Option.some.inj cut
      simp
  | case3 bytes c rest fits inductionHypothesis =>
      obtain ⟨later, cutLater, rfl⟩ := Option.map_eq_some_iff.mp cut
      obtain ⟨begins, size⟩ := inductionHypothesis cutLater
      refine ⟨List.cons_prefix_cons.mpr ⟨rfl, begins⟩, ?_⟩
      rw [utf8ByteSize_cons, utf8ByteSize_cons, size]
      omega
  | case4 bytes c rest large => cases cut

/-- Nothing can be shown just if the bytes end before the text does and inside a character. -/
theorem firstBytes?_eq_none_iff {bytes : Nat} {text : List Char} :
    firstBytes? bytes text = none ↔
      bytes < (String.ofList text).utf8ByteSize ∧
        ¬ String.Pos.Raw.IsValid (String.ofList text) ⟨bytes⟩ := by
  rw [String.Pos.Raw.isValid_ofList]
  fun_induction firstBytes? bytes text with
  | case1 bytes => simp
  | case2 c rest => simpa using fun _ => ⟨0, rfl⟩
  | case3 bytes c rest fits inductionHypothesis =>
      rw [Option.map_eq_none_iff, inductionHypothesis, utf8ByteSize_cons]
      have further : (∃ count, bytes + 1 - c.utf8Size =
            (String.ofList (rest.take count)).utf8ByteSize) ↔
          ∃ count, bytes + 1 = (String.ofList ((c :: rest).take count)).utf8ByteSize := by
        constructor
        · rintro ⟨count, size⟩
          exact ⟨count + 1, by rw [List.take_succ_cons, utf8ByteSize_cons, ← size]; omega⟩
        · rintro ⟨count, size⟩
          cases count with
          | zero => simp at size
          | succ count =>
              rw [List.take_succ_cons, utf8ByteSize_cons] at size
              exact ⟨count, by omega⟩
      rw [further]
      refine and_congr_left' ?_
      omega
  | case4 bytes c rest large =>
      refine iff_of_true rfl ⟨?_, ?_⟩
      · rw [utf8ByteSize_cons]
        omega
      · rintro ⟨count, size⟩
        cases count with
        | zero => simp at size
        | succ count =>
            rw [List.take_succ_cons, utf8ByteSize_cons] at size
            dsimp only at size
            omega

/-- A hash cannot be cut just if it is too long to be shown as a whole and its first bytes end inside
a character. -/
theorem shortHash?_eq_none_iff {hash : String} :
    shortHash? hash = none ↔ 12 < hash.utf8ByteSize ∧ ¬ String.Pos.Raw.IsValid hash ⟨12⟩ := by
  rw [shortHash?, Option.map_eq_none_iff, firstBytes?_eq_none_iff, String.ofList_toList]
  rfl

theorem shortHash?_eq_some {hash short : String} (cut : shortHash? hash = some short) :
    short.toList <+: hash.toList ∧ short.utf8ByteSize = min 12 hash.utf8ByteSize := by
  obtain ⟨chars, cutChars, rfl⟩ := Option.map_eq_some_iff.mp cut
  obtain ⟨begins, size⟩ := firstBytes?_eq_some cutChars
  rw [String.ofList_toList] at size
  exact ⟨by rwa [String.toList_ofList], size⟩

/-! ### Hashes of ASCII characters -/

theorem isSome_firstBytes?_of_ascii {text : List Char} (ascii : ∀ c ∈ text, c.toNat < 128)
    (bytes : Nat) : (firstBytes? bytes text).isSome := by
  fun_induction firstBytes? bytes text with
  | case1 bytes => rfl
  | case2 c rest => rfl
  | case3 bytes c rest fits inductionHypothesis =>
      rw [Option.isSome_map]
      exact inductionHypothesis (List.forall_mem_cons.mp ascii).2
  | case4 bytes c rest large =>
      have small : c.toNat < 128 := (List.forall_mem_cons.mp ascii).1
      have single : c.utf8Size = 1 :=
        Char.utf8Size_eq_one_iff.mpr (UInt32.le_iff_toNat_le.mpr (Nat.le_of_lt_succ small))
      omega

theorem isSome_shortHash?_of_ascii {hash : String} (ascii : IsAscii hash) :
    (shortHash? hash).isSome := by
  rw [shortHash?, Option.isSome_map]
  exact isSome_firstBytes?_of_ascii ascii hashWidth

end Report

namespace Text

theorem isAscii_fingerprint (text : String) : IsAscii (fingerprint text) := by
  have digits : ∀ value < 16, (Nat.digitChar value).toNat < 128 := by decide
  intro c membership
  rw [fingerprint, String.toList_ofList] at membership
  obtain ⟨word, _, inWord⟩ := List.mem_flatMap.mp membership
  rw [Fingerprint.hexadecimal, List.mem_reverse] at inWord
  obtain ⟨place, _, rfl⟩ := List.mem_map.mp inWord
  exact digits _ (Nat.mod_lt _ (by decide))

end Text

namespace Duplication

/-- The hash of a group is the fingerprint of the blocks in it. -/
theorem exists_hashOf_of_mem_detect {files : List SourceFile} {group : DuplicationGroup}
    (membership : group ∈ detect files) : ∃ text, group.hash = hashOf text := by
  have tracks := Detector.tracks_empty.recordAll (files.flatMap blocksIn)
  rw [List.nil_append] at tracks
  have several := ((tracks.mem_groups (List.Perm.refl _)).mp membership).1
  obtain ⟨place, inPlaces⟩ := List.exists_mem_of_length_pos (Nat.lt_of_lt_of_le (by decide) several)
  obtain ⟨block, inBlocks, _⟩ := List.mem_map.mp inPlaces
  obtain ⟨inFiles, sameHash⟩ := List.mem_filter.mp inBlocks
  obtain ⟨file, _, inFile⟩ := List.mem_flatMap.mp inFiles
  obtain ⟨method, _, inMethod⟩ := List.mem_flatMap.mp inFile
  obtain ⟨node, _, rfl⟩ := List.mem_map.mp inMethod
  exact ⟨node.text, (beq_iff_eq.mp sameHash).symm⟩

end Duplication

end SolutionSurvey
