import SolutionSurvey.Duplication.Detector
import SolutionSurvey.Node.Walk
import SolutionSurvey.SourceFile
import SolutionSurvey.Text.Blank
import SolutionSurvey.Text.Fingerprint

/-!
# Duplicated blocks

Every block inside a method counts, the body and the blocks nested in it.  Two blocks are the same
if their texts agree but for white space.
-/

namespace SolutionSurvey.Duplication

def hashOf (text : String) : String := Text.fingerprint (Text.compact text)

def blockOf (file : SourceFile) (method block : Node) : String × Occurrence :=
  (hashOf block.text,
    { filePath := file.path.text, methodName := ((method.child? "name").map Node.text).getD ""
      startLine := block.line, lineCount := block.lineSpan })

/-- The blocks of a method in the order of the text. -/
def blocksOf (file : SourceFile) (method : Node) : List (String × Occurrence) :=
  (Node.ofKinds ["block"] method.places).map (blockOf file method)

def methodsOf (file : SourceFile) : List Node :=
  Node.ofKinds ["method_declaration"] file.tree.places

def blocksIn (file : SourceFile) : List (String × Occurrence) :=
  (methodsOf file).flatMap (blocksOf file)

/-- The groups of blocks that occur more than once in some files. -/
def detect (files : List SourceFile) : List DuplicationGroup :=
  (Detector.empty.recordAll (files.flatMap blocksIn)).groups

/-- The members of all groups, in the order of the groups. -/
def flatten (groups : List DuplicationGroup) : List DuplicationRecord := groups.flatMap (·.members)

end SolutionSurvey.Duplication
