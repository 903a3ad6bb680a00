import SolutionSurvey.Proofs.Survey.Loading

/-!
# What comes of loading a source

A source is unparsable, is loaded, or fails for another reason.  The policy for files that cannot be
parsed decides what becomes of the first, and does not matter to the others.
-/

namespace SolutionSurvey

/-! ### Which files cannot be parsed -/

/-- Whether nothing can be made of what a file holds. -/
def Content.isBroken (read : TreeReader) (content : Content) : Bool :=
  match content.text? with
  | none => true
  | some spelled => ((read (SourceFile.withoutMark spelled)).map Node.damaged).getD true

namespace SourceFile

variable {read : TreeReader} {tree : FileTree} {path : Path}

/-- Whether a path leads to a file that cannot be parsed. -/
def isUnparsable (read : TreeReader) (tree : FileTree) (path : Path) : Bool :=
  ((tree.content? path).map (Content.isBroken read)).getD false

/-- Loading a source finds it unparsable, brings a file, or fails for another reason; the project does
not matter to it. -/
inductive LoadEnds (read : TreeReader) (tree : FileTree) (path : Path) : Prop
  | unparsable (flaw) : isUnparsable read tree path →
      (∀ project, load read tree project path = .error (.unparsable path flaw)) →
      LoadEnds read tree path
  | loaded : isUnparsable read tree path = false →
      (∀ project, ∃ file, load read tree project path = .ok file) → LoadEnds read tree path
  | failed (cause) : isUnparsable read tree path = false →
      (∀ place flaw, cause ≠ .unparsable place flaw) →
      (∀ project, load read tree project path = .error cause) → LoadEnds read tree path

theorem loadEnds (read : TreeReader) (tree : FileTree) (path : Path) : LoadEnds read tree path := by
  cases found : tree.find? path with
  | none =>
      refine .failed (.notFound path) ?_ (by simp) fun project => ?_
      · simp [isUnparsable, FileTree.content?, found]
      · simp [load, found]
  | some location =>
      obtain ⟨entry, around⟩ := location
      cases entry with
      | directory entries =>
          refine .failed (.access .isDirectory) ?_ (by simp) fun project => ?_
          · simp [isUnparsable, FileTree.content?, found]
          · simp [load, found]
      | link target =>
          refine .failed (.access .isDirectory) ?_ (by simp) fun project => ?_
          · simp [isUnparsable, FileTree.content?, found]
          · simp [load, found]
      | file content =>
          have known : isUnparsable read tree path = content.isBroken read := by
            simp [isUnparsable, FileTree.content?, found]
          cases spelled : content.text? with
          | none =>
              refine .unparsable .notUnicode ?_ fun project => ?_
              · simp [known, Content.isBroken, spelled]
              · simp [load, found, spelled]
          | some text =>
              cases parsed : read (withoutMark text) with
              | none =>
                  refine .unparsable .noTree ?_ fun project => ?_
                  · simp [known, Content.isBroken, spelled, parsed]
                  · simp [load, found, spelled, ofText, parseWhole, parsed, Except.map]
              | some root =>
                  cases damaged : root.damaged with
                  | true =>
                      refine .unparsable (.near (root.faultLine?.getD 1)) ?_ fun project => ?_
                      · simp [known, Content.isBroken, spelled, parsed, damaged]
                      · simp [load, found, spelled, ofText, parseWhole, parsed, damaged, Except.map]
                  | false =>
                      refine .loaded ?_ fun project => ?_
                      · simp [known, Content.isBroken, spelled, parsed, damaged]
                      · simp [load, found, spelled, ofText, parseWhole, parsed, damaged, Except.map]

/-- Loading depends on nothing but the entry that a path leads to. -/
theorem load_congr_entry {other : FileTree}
    (same : (other.find? path).map Location.entry = (tree.find? path).map Location.entry)
    (project : String) : load read other project path = load read tree project path := by
  unfold load
  cases found : tree.find? path with
  | none =>
      rw [found, Option.map_none, Option.map_eq_none_iff] at same
      rw [same]
  | some location =>
      rw [found, Option.map_some] at same
      obtain ⟨⟨entry, around⟩, foundToo, rfl⟩ := Option.map_eq_some_iff.mp same
      rw [foundToo]
      obtain ⟨entry, outside⟩ := location
      cases entry <;> rfl

end SourceFile

namespace LoadedSources

open SourceFile (isUnparsable)

/-! ### What comes of loading -/

section Outcome

variable (read : TreeReader) (tree : FileTree) (projects : List Project) (owned : Ownership.Owned)

/-- The policy decides what becomes of a source that cannot be parsed, and of no other one. -/
inductive OutcomeEnds : Prop
  | unparsable : isUnparsable read tree owned.path →
      (∀ settings : Settings, settings.brokenFiles = .skip →
        outcome read tree settings projects owned = .skipped owned.path) →
      (∀ settings : Settings, settings.brokenFiles = .abort →
        ∃ cause, outcome read tree settings projects owned = .failed cause) →
      OutcomeEnds
  | loaded (file) : isUnparsable read tree owned.path = false → file.path = owned.path →
      (∀ settings, outcome read tree settings projects owned = .loaded owned.owner file) →
      OutcomeEnds
  | failed (cause) : isUnparsable read tree owned.path = false →
      (∀ settings, outcome read tree settings projects owned = .failed cause) → OutcomeEnds

theorem outcomeEnds : OutcomeEnds read tree projects owned := by
  rcases SourceFile.loadEnds read tree owned.path with
    ⟨flaw, unparsable, fails⟩ | ⟨parsable, loads⟩ | ⟨cause, parsable, other, fails⟩
  · refine .unparsable unparsable ?_ ?_
    · intro settings skip
      rw [outcome, fails, skip]
      rfl
    · intro settings abort
      rw [outcome, fails, abort]
      exact ⟨_, rfl⟩
  · obtain ⟨file, loaded⟩ := loads (projectName projects owned.owner)
    refine .loaded file parsable (SourceFile.path_of_load loaded) fun settings => ?_
    rw [outcome, loaded]
  · refine .failed cause parsable fun settings => ?_
    rw [outcome, fails]
    cases cause with
    | unparsable place flaw => exact absurd rfl (other place flaw)
    | notFound place => rfl
    | noGrammar reason => rfl
    | several causes => rfl
    | access problem => rfl

variable {read tree projects owned}

theorem outcome_of_missing (missing : tree.holds owned.path = false) (settings : Settings) :
    outcome read tree settings projects owned = .failed (.notFound owned.path) := by
  have nothing : tree.find? owned.path = none := by simpa [FileTree.holds] using missing
  unfold outcome SourceFile.load
  rw [nothing]
  rfl

end Outcome

end LoadedSources

end SolutionSurvey
