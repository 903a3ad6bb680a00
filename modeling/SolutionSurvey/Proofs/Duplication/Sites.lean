import Mathlib.Data.List.Nodup
import SolutionSurvey.Duplication
import SolutionSurvey.Proofs.Collection.Counting
import SolutionSurvey.Proofs.Node.Walk

/-!
# Where blocks occur

A block occurs at a site: in a file, below a method of the file.  The same block may be written more
than once, so occurrences are counted by their sites.
-/

namespace SolutionSurvey.Duplication

/-- A block of a method: which file, where the method is in the file, and where the block is in the
method. -/
structure Site where
  file : Nat
  method : Address
  block : Address

namespace Site

/-- What is to be recorded of a site, if there is a block below a method. -/
def record? (files : List SourceFile) (site : Site) : Option DuplicationRecord :=
  (files[site.file]?).bind fun file =>
    (file.tree.at? site.method).bind fun method =>
      (method.at? site.block).bind fun block =>
        if method.kind = "method_declaration" ∧ block.kind = "block" then
          some
            { hash := Text.fingerprint (Text.compact block.text), filePath := file.path.text
              methodName := ((method.child? "name").map Node.text).getD ""
              startLine := block.line, lineCount := block.lineSpan }
        else none

/-- All pairs of nodes of a file, the second one below the first. -/
def ofFile (index : Nat) (file : SourceFile) : List Site :=
  file.tree.addresses.flatMap fun method =>
    ((file.tree.at? method).toList.flatMap Node.addresses).map fun block => ⟨index, method, block⟩

def all (files : List SourceFile) : List Site :=
  files.zipIdx.flatMap fun indexed => ofFile indexed.2 indexed.1

/-! ### Every site is listed once -/

theorem mem_ofFile {index : Nat} {file : SourceFile} {site : Site} :
    site ∈ ofFile index file ↔ site.file = index ∧
      ∃ method, file.tree.at? site.method = some method ∧ site.block ∈ method.addresses := by
  obtain ⟨fileIndex, method, block⟩ := site
  simp only [ofFile, List.mem_flatMap, List.mem_map, Option.mem_toList, Site.mk.injEq]
  constructor
  · rintro ⟨_, _, _, ⟨node, found, inNode⟩, rfl, rfl, rfl⟩
    exact ⟨rfl, node, found, inNode⟩
  · rintro ⟨rfl, node, found, inNode⟩
    exact ⟨method, Node.mem_addresses.mpr (by simp [found]), block, ⟨node, found, inNode⟩, rfl, rfl,
      rfl⟩

theorem ofFile_nodup (index : Nat) (file : SourceFile) : (ofFile index file).Nodup := by
  refine List.nodup_flatMap.mpr ⟨?_, ?_⟩
  · intro method _
    refine List.Nodup.map (fun first second same => congrArg Site.block same) ?_
    cases file.tree.at? method with
    | none => exact .nil
    | some node => simpa using node.addresses_nodup
  · refine file.tree.addresses_nodup.imp ?_
    intro first second different site inFirst inSecond
    obtain ⟨_, _, rfl⟩ := List.mem_map.mp inFirst
    obtain ⟨_, _, same⟩ := List.mem_map.mp inSecond
    exact different (congrArg Site.method same).symm

theorem all_nodup (files : List SourceFile) : (all files).Nodup := by
  refine List.nodup_flatMap.mpr ⟨fun indexed _ => ofFile_nodup indexed.2 indexed.1, ?_⟩
  have positions : (files.zipIdx.map Prod.snd).Nodup := by
    rw [List.zipIdx_map_snd]
    exact List.nodup_range'
  refine (List.pairwise_map.mp positions).imp ?_
  intro first second different site inFirst inSecond
  exact different ((mem_ofFile.mp inFirst).1.symm.trans (mem_ofFile.mp inSecond).1)

theorem mem_all_of_record? {files : List SourceFile} {site : Site} {record : DuplicationRecord}
    (recorded : site.record? files = some record) : site ∈ all files := by
  obtain ⟨file, atFile, inFile⟩ := Option.bind_eq_some_iff.mp recorded
  obtain ⟨method, atMethod, inMethod⟩ := Option.bind_eq_some_iff.mp inFile
  obtain ⟨block, atBlock, _⟩ := Option.bind_eq_some_iff.mp inMethod
  refine List.mem_flatMap.mpr ⟨(file, site.file), ?_, mem_ofFile.mpr ⟨rfl, method, atMethod, ?_⟩⟩
  · simpa [List.mem_zipIdx_iff_getElem?] using atFile
  · exact Node.mem_addresses.mpr (by simp [atBlock])

/-! ### The walks find the blocks of all sites -/

theorem flatMap_filterMap {α β γ : Type} (pick : α → Option β) (parts : β → List γ)
    (items : List α) :
    (items.filterMap pick).flatMap parts = items.flatMap fun item => (pick item).toList.flatMap parts := by
  induction items with
  | nil => rfl
  | cons head rest inductionHypothesis =>
      cases picked : pick head with
      | none => simp [picked, inductionHypothesis]
      | some value => simp [picked, inductionHypothesis]

def recordOf (block : String × Occurrence) : DuplicationRecord := .ofOccurrence block.1 block.2

theorem filterMap_record?_ofFile {files : List SourceFile} {file : SourceFile} {index : Nat}
    (atIndex : files[index]? = some file) :
    (ofFile index file).filterMap (record? files) = (blocksIn file).map recordOf := by
  rw [ofFile, blocksIn, methodsOf, Node.ofKinds_places, flatMap_filterMap, List.filterMap_flatMap,
    List.map_flatMap]
  refine List.flatMap_congr fun address _ => ?_
  cases found : file.tree.at? address with
  | none => rfl
  | some method =>
      rw [List.filterMap_map]
      by_cases kind : method.kind = "method_declaration"
      · have isMethod : (some method).filter (fun node => ["method_declaration"].contains node.kind) =
            some method := by simp [kind]
        rw [isMethod, Option.toList_some, List.flatMap_singleton, List.flatMap_singleton, blocksOf,
          Node.ofKinds_places, List.map_filterMap, List.map_filterMap]
        refine List.filterMap_congr fun inner _ => ?_
        cases below : method.at? inner with
        | none => simp [record?, atIndex, found, below]
        | some block =>
            by_cases blockKind : block.kind = "block"
            · simp [record?, atIndex, found, below, kind, blockKind, recordOf, blockOf, hashOf,
                DuplicationRecord.ofOccurrence]
            · simp [record?, atIndex, found, below, kind, blockKind]
      · have noMethod : (some method).filter (fun node => ["method_declaration"].contains node.kind) =
            none := by simp [kind]
        rw [noMethod]
        refine List.filterMap_eq_nil_iff.mpr fun inner _ => ?_
        simp [record?, atIndex, found, kind]

theorem filterMap_record?_all (files : List SourceFile) :
    (all files).filterMap (record? files) = (files.flatMap blocksIn).map recordOf := by
  have each : ∀ indexed ∈ files.zipIdx, (ofFile indexed.2 indexed.1).filterMap (record? files) =
      (blocksIn indexed.1).map recordOf := by
    rintro ⟨file, index⟩ membership
    exact filterMap_record?_ofFile (by simpa [List.mem_zipIdx_iff_getElem?] using membership)
  rw [all, List.filterMap_flatMap, List.flatMap_congr each, List.map_flatMap]
  conv_rhs => rw [← List.zipIdx_map_fst 0 files, List.flatMap_map]

end Site

end SolutionSurvey.Duplication
