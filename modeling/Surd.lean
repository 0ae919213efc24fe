import Surd.Calculator
import Surd.Main
import Surd.Proofs.SieveCompleteness
import Surd.Proofs.TableSearch
import Surd.Proofs.SearchCourse
import Surd.Proofs.TablePrimality
import Surd.Proofs.Decomposition
import Surd.Proofs.TrialDivision
import Surd.Proofs.DivisionCourse
import Surd.Proofs.SquareParts
import Surd.Proofs.RootRange
import Surd.Proofs.CanonicalRoot
import Surd.Proofs.FactorTests
import Surd.Proofs.RunIndependence
import Surd.Proofs.TextContents
import Surd.Proofs.CodeRemoval
import Surd.Proofs.CodeOccurrences
import Surd.Proofs.InterruptedCodes
import Surd.Proofs.FaultTexts
import Surd.Proofs.CommandAnswers
import Surd.Proofs.PathTexts
import Surd.Proofs.WorkspacePaths
import Surd.Proofs.ValueWriting
import Surd.Proofs.DottedKeys
import Surd.Proofs.LoadedSettings
import Surd.Proofs.RunCourse
import Surd.Proofs.FaultDisclosure
import Surd.Proofs.CommandLineTexts
import Surd.Proofs.RefusalTexts
import Surd.Proofs.RefusalLines
import Surd.Proofs.TreeGrowth
import Surd.Proofs.FileEffects
import Surd.Proofs.Presentation
import Surd.Proofs.TypedTexts
import Surd.Proofs.NumberGrammar
import Surd.Proofs.DecimalTexts
import Surd.Proofs.FractionTexts
import Surd.Proofs.ExactOperands
import Surd.Proofs.FractionParts
import Surd.Proofs.CheckedRuns
import Surd.Proofs.CommandRuns
import Surd.Proofs.RootAnswers
import Surd.Proofs.OperandReading
import Surd.Proofs.DocumentTables
import Surd.Proofs.HeaderTexts
import Surd.Proofs.SettingsOverlay
import Surd.Proofs.SettingsInForce
import Surd.Proofs.ContextChanges
import Surd.Proofs.TextCuts
import Surd.Proofs.PowerTexts
import Surd.Proofs.RootTexts
import Surd.Proofs.TableLayout
import Surd.Proofs.TableColumns
import Surd.Proofs.PrimeListing
import Surd.Proofs.OutputPaths
