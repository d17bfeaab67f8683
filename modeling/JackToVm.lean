import JackToVm.Grammar.Admissible
import JackToVm.Grammar.Evaluation
import JackToVm.Grammar.Code
import JackToVm.Main
import JackToVm.Compilation.Run
import JackToVm.Token.Piece
import JackToVm.Vm.Execution
import JackToVm.Vm.StackHeight
import JackToVm.Vm.ControlFlow
import JackToVm.Vm.Cell
import JackToVm.Vm.Relabeling
import JackToVm.Proofs.Passage
import JackToVm.Proofs.Steps
import JackToVm.Proofs.Reads
import JackToVm.Proofs.ExpressionPassage
import JackToVm.Proofs.ExpressionReading
import JackToVm.Proofs.ExpressionRecognition
import JackToVm.Proofs.StatementPassage
import JackToVm.Proofs.StatementReading
import JackToVm.Proofs.StatementRecognition
import JackToVm.Proofs.Declarations
import JackToVm.Proofs.ClassPassage
import JackToVm.Proofs.DeclarationReading
import JackToVm.Proofs.ClassReading
import JackToVm.Proofs.ClassRecognition
import JackToVm.Proofs.Compilation
import JackToVm.Proofs.CompiledExpressions
import JackToVm.Proofs.Blocks
import JackToVm.Proofs.BlockExecution
import JackToVm.Proofs.StatementExecution
import JackToVm.Proofs.CompiledSubroutines
import JackToVm.Proofs.StackHeights
import JackToVm.Proofs.Numbering
import JackToVm.Proofs.EmittedCommands
import JackToVm.Proofs.Layout
import JackToVm.Proofs.Lexing
import JackToVm.Proofs.PushedConstants
import JackToVm.Proofs.Alike
import JackToVm.Proofs.Laws
import JackToVm.Proofs.Requests
import JackToVm.Proofs.Jumps
import JackToVm.Proofs.RunLabels
import JackToVm.Proofs.Relabeling
import JackToVm.Proofs.LabelIndependence
import JackToVm.Proofs.LexicalErrors
import JackToVm.Grammar.Language
import JackToVm.Proofs.Parses
import JackToVm.Proofs.ParsedTokens
import JackToVm.Proofs.ExpressionParsing
import JackToVm.Proofs.StatementParsing
import JackToVm.Proofs.ClassParsing
import JackToVm.Proofs.SyntaxErrors
import JackToVm.Derivation.Outline
import JackToVm.Proofs.DerivationTexts
import JackToVm.Vm.Reading
import JackToVm.Proofs.CommandTexts
import JackToVm.Disk.Place
import JackToVm.Proofs.Paths
import JackToVm.Proofs.Places
import JackToVm.Build.Target
import JackToVm.Proofs.PathOrder
import JackToVm.Proofs.Sources
import JackToVm.Proofs.Targets
import JackToVm.Proofs.KeptOutputs
import JackToVm.SymbolTable.Insertion
import JackToVm.Proofs.Insertions
import JackToVm.Proofs.Separators
import JackToVm.CommandLine.Splitting
import JackToVm.Proofs.Splitting
import JackToVm.Build.Report
import JackToVm.Proofs.Transcripts
import JackToVm.Proofs.SparedFiles
import JackToVm.Proofs.Deliveries
import JackToVm.Proofs.AllOrNothing
import JackToVm.Proofs.Calls
import JackToVm.Proofs.SettingsInForce
import JackToVm.Proofs.OutputNames
import JackToVm.Build.Selection
import JackToVm.Proofs.PathReading
import JackToVm.Proofs.SelectedFiles
import JackToVm.Proofs.Selection
import JackToVm.Proofs.LongPaths
import JackToVm.Compilation.Descent
import JackToVm.Compilation.Course
import JackToVm.Proofs.Courses
import JackToVm.Proofs.Accords
import JackToVm.Proofs.Descents
import JackToVm.Proofs.Termination
