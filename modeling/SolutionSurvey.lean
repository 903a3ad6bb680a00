import SolutionSurvey.Main
import SolutionSurvey.Proofs.Complexity.Order
import SolutionSurvey.Proofs.Dependency.Aliases
import SolutionSurvey.Proofs.Dependency.Attribution
import SolutionSurvey.Proofs.Dependency.CommentsAndLiterals
import SolutionSurvey.Proofs.Dependency.Directives
import SolutionSurvey.Proofs.Dependency.Endpoints
import SolutionSurvey.Proofs.Dependency.Growth
import SolutionSurvey.Proofs.Dependency.Layout
import SolutionSurvey.Proofs.Dependency.OwnMembers
import SolutionSurvey.Proofs.Dependency.OwnNames
import SolutionSurvey.Proofs.Dependency.TypeForms
import SolutionSurvey.Proofs.Dependency.VisibleImports
import SolutionSurvey.Proofs.Duplication.Rearrangement
import SolutionSurvey.Proofs.Duplication.Reproducibility
import SolutionSurvey.Proofs.Metrics.CodeLines
import SolutionSurvey.Proofs.Metrics.NamespaceCounts
import SolutionSurvey.Proofs.Metrics.NamespaceDeclarations
import SolutionSurvey.Proofs.Metrics.ProjectTotals
import SolutionSurvey.Proofs.Metrics.WordSums
import SolutionSurvey.Proofs.Node.Faults
import SolutionSurvey.Proofs.Node.Stops
import SolutionSurvey.Proofs.Report.PlainText
import SolutionSurvey.Proofs.Solution.Enumeration
import SolutionSurvey.Proofs.Solution.Manifest
import SolutionSurvey.Proofs.Solution.Rearrangement
import SolutionSurvey.Proofs.Survey.Allotment
import SolutionSurvey.Proofs.Survey.Causes
import SolutionSurvey.Proofs.Survey.Coverage
import SolutionSurvey.Proofs.Survey.NamespaceKeys
import SolutionSurvey.Proofs.Survey.Once
import SolutionSurvey.Proofs.Survey.Passes
import SolutionSurvey.Proofs.Survey.Rearrangement
import SolutionSurvey.Proofs.Survey.Skipping
import SolutionSurvey.Proofs.Survey.Spelling
