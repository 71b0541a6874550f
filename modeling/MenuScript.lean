import MenuScript.Action
import MenuScript.Actor
import MenuScript.BranchStack
import MenuScript.Budget
import MenuScript.Builtin
import MenuScript.Clock
import MenuScript.CommandLine.Arguments
import MenuScript.CommandLine.Terminal
import MenuScript.CommandLine.Transcript
import MenuScript.Condition
import MenuScript.Config
import MenuScript.Config.Document
import MenuScript.Context
import MenuScript.Dictionary
import MenuScript.Engine
import MenuScript.EventLog
import MenuScript.FileTree
import MenuScript.FunctionTable
import MenuScript.Interpreter
import MenuScript.Machine
import MenuScript.Main
import MenuScript.Number.BinaryFormat
import MenuScript.Number.DecimalLiteral
import MenuScript.Number.ShortestDecimal
import MenuScript.Number.WholeNumber
import MenuScript.Placeholder
import MenuScript.Presenting
import MenuScript.Proofs.ActionAccounting
import MenuScript.Proofs.AttemptedActions
import MenuScript.Proofs.BoundedIncludes
import MenuScript.Proofs.BranchDepth
import MenuScript.Proofs.BudgetHistories
import MenuScript.Proofs.Cancellation
import MenuScript.Proofs.ComparedPlaceholders
import MenuScript.Proofs.ComposedActions
import MenuScript.Proofs.ConditionReadings
import MenuScript.Proofs.Deadlines
import MenuScript.Proofs.DisabledConsole
import MenuScript.Proofs.ElementaryChanges
import MenuScript.Proofs.FailedLines
import MenuScript.Proofs.GenericForms
import MenuScript.Proofs.HostSessions
import MenuScript.Proofs.IncludeDepths
import MenuScript.Proofs.IncludeInlining
import MenuScript.Proofs.InterpreterChains
import MenuScript.Proofs.JoinedSources
import MenuScript.Proofs.LineArrivals
import MenuScript.Proofs.LineFaults
import MenuScript.Proofs.LineGrammar
import MenuScript.Proofs.LineStarts
import MenuScript.Proofs.LooserLimits
import MenuScript.Proofs.MachineUpdates
import MenuScript.Proofs.NearestCodes
import MenuScript.Proofs.NestedBranches
import MenuScript.Proofs.Numerals
import MenuScript.Proofs.PassedLines
import MenuScript.Proofs.PlaceholderTokens
import MenuScript.Proofs.PresentedEffects
import MenuScript.Proofs.RegisteredFunctions
import MenuScript.Proofs.ScriptFiles
import MenuScript.Proofs.SeparateContexts
import MenuScript.Proofs.ShortestDecimals
import MenuScript.Proofs.ShorthandLines
import MenuScript.Proofs.SkippedRegions
import MenuScript.Proofs.SourceLayout
import MenuScript.Proofs.StoredNumbers
import MenuScript.Proofs.StructuredBlocks
import MenuScript.Proofs.TouchedPlayers
import MenuScript.Proofs.TrimmedTexts
import MenuScript.Proofs.UnmarkedCommands
import MenuScript.Proofs.UnseenParts
import MenuScript.Proofs.UnseenRuns
import MenuScript.Proofs.VariableChanges
import MenuScript.Proofs.WrittenDoubles
import MenuScript.Routine
import MenuScript.ScriptError
import MenuScript.ScriptLibrary
import MenuScript.Server
import MenuScript.Statement
import MenuScript.Statement.Reader
import MenuScript.Text
import MenuScript.Uuid
import MenuScript.Value
import MenuScript.Yaml.Cursor
import MenuScript.Yaml.Node
import MenuScript.Yaml.ScalarText
import MenuScript.Yaml.Token
