import Spreadsheet.Address.A1
import Spreadsheet.Address.Basic
import Spreadsheet.Address.Column
import Spreadsheet.Backup
import Spreadsheet.Builtin
import Spreadsheet.Builtin.Call
import Spreadsheet.Command.Arguments
import Spreadsheet.Command.Config
import Spreadsheet.Command.ConfigText
import Spreadsheet.Command.FileSystem
import Spreadsheet.Command.Run
import Spreadsheet.Compile
import Spreadsheet.CompileError
import Spreadsheet.Csv.Fields
import Spreadsheet.Csv.Records
import Spreadsheet.Dependency.Graph
import Spreadsheet.Dependency.Order
import Spreadsheet.Dependency.References
import Spreadsheet.Dictionary
import Spreadsheet.Error
import Spreadsheet.FileError
import Spreadsheet.Formula.Basic
import Spreadsheet.Formula.Date
import Spreadsheet.Formula.Expression
import Spreadsheet.Formula.Operator
import Spreadsheet.Formula.Parser
import Spreadsheet.Formula.Position
import Spreadsheet.Formula.Render
import Spreadsheet.Main
import Spreadsheet.Modifier.Basic
import Spreadsheet.Modifier.Cell
import Spreadsheet.Modifier.Color
import Spreadsheet.Modifier.Setting
import Spreadsheet.Number.Basic
import Spreadsheet.Number.Decimal
import Spreadsheet.Number.Shortest
import Spreadsheet.Options
import Spreadsheet.Path
import Spreadsheet.Proofs.CompiledSheets
import Spreadsheet.Proofs.CountedReferences
import Spreadsheet.Proofs.CsvTables
import Spreadsheet.Proofs.DefinitionGrammar
import Spreadsheet.Proofs.DependencyOrder
import Spreadsheet.Proofs.DerivedExpressions
import Spreadsheet.Proofs.ExpressionGrammar
import Spreadsheet.Proofs.ExpressionReading
import Spreadsheet.Proofs.FormulaLeaves
import Spreadsheet.Proofs.FormulaRoundTrip
import Spreadsheet.Proofs.FormulaSpelling
import Spreadsheet.Proofs.FormulaTokens
import Spreadsheet.Proofs.FormulaTrees
import Spreadsheet.Proofs.FormulaWords
import Spreadsheet.Proofs.NumberText
import Spreadsheet.Proofs.ResolvedCells
import Spreadsheet.Proofs.ResolvedFormulas
import Spreadsheet.Proofs.SettledVariables
import Spreadsheet.Proofs.SheetCoordinates
import Spreadsheet.Proofs.SheetLayout
import Spreadsheet.Proofs.SheetPhases
import Spreadsheet.Proofs.VariableVisibility
import Spreadsheet.Proofs.WordBreaks
import Spreadsheet.Proofs.WrittenOutRows
import Spreadsheet.Resolution
import Spreadsheet.Scope
import Spreadsheet.Sheet.Basic
import Spreadsheet.Sheet.Expand
import Spreadsheet.Sheet.Render
import Spreadsheet.Sheet.Resolve
import Spreadsheet.Sheet.Session
import Spreadsheet.Source
import Spreadsheet.Text.Blank
import Spreadsheet.Text.Bytes
import Spreadsheet.Text.Case
import Spreadsheet.Text.CaseRuns
import Spreadsheet.Text.CasedRanges
import Spreadsheet.Text.Digits
import Spreadsheet.Text.Lines
import Spreadsheet.Text.Quoted
import Spreadsheet.Text.WordChar
import Spreadsheet.Text.WordRanges
import Spreadsheet.Token.Basic
import Spreadsheet.Token.Grammar
import Spreadsheet.Token.Lexer
import Spreadsheet.Token.Scan
import Spreadsheet.Proofs.QuotingAgreement
import Spreadsheet.Proofs.EffectiveDefinitions
import Spreadsheet.Proofs.KeyValuePrecedence
import Spreadsheet.Proofs.LiteralTables
import Spreadsheet.Proofs.SortedGraphs
import Spreadsheet.Proofs.ResolutionRuns
import Spreadsheet.Proofs.CompositionalResolution
import Spreadsheet.Proofs.ConvergentDefinitions
import Spreadsheet.Proofs.LowerCase
import Spreadsheet.Proofs.FormulaIds
import Spreadsheet.Proofs.RelevantDefinitions
import Spreadsheet.Proofs.CellFunctions
import Spreadsheet.Proofs.CheckedVariables
import Spreadsheet.Proofs.RejectedDefinitions
import Spreadsheet.Proofs.ExpandedRows
import Spreadsheet.Proofs.ColumnLetters
import Spreadsheet.Proofs.WrittenCorners
import Spreadsheet.Proofs.WrittenAddresses
import Spreadsheet.Proofs.TokenTexts
import Spreadsheet.Proofs.QualifiedAddresses
import Spreadsheet.Proofs.NameTokens
import Spreadsheet.Proofs.WrittenNames
import Spreadsheet.Proofs.AddressTokens
import Spreadsheet.Proofs.ClashingTokens
import Spreadsheet.Proofs.ReprintedFormulas
import Spreadsheet.Proofs.NormalizedFormulas
import Spreadsheet.Proofs.WrittenRecords
import Spreadsheet.Proofs.RecordLines
import Spreadsheet.Proofs.WrittenModifiers
import Spreadsheet.Proofs.FileNames
import Spreadsheet.Proofs.BackupNames
import Spreadsheet.Proofs.TokenLayout
import Spreadsheet.Proofs.SpacedTokens
import Spreadsheet.Proofs.LetterCase
import Spreadsheet.Proofs.TokenMeanings
import Spreadsheet.Proofs.RecasedTexts
import Spreadsheet.Proofs.ReaderLookahead
import Spreadsheet.Proofs.FirstMisfit
import Spreadsheet.Proofs.ColumnNumbering
import Spreadsheet.Proofs.OccurrenceOrder
import Spreadsheet.Proofs.SettingFields
