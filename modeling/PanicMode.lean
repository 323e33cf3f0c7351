import PanicMode.Arguments
import PanicMode.CommandLine
import PanicMode.Cursor
import PanicMode.CursorStack
import PanicMode.Fault
import PanicMode.Grammar
import PanicMode.Main
import PanicMode.Proofs.ArgumentLaws
import PanicMode.Proofs.BitCount
import PanicMode.Proofs.Blame
import PanicMode.Proofs.CommandOutcome
import PanicMode.Proofs.CursorSuffixes
import PanicMode.Proofs.DecimalNumerals
import PanicMode.Proofs.Departures
import PanicMode.Proofs.EditedSet
import PanicMode.Proofs.FiniteMembers
import PanicMode.Proofs.FirstBrokenRule
import PanicMode.Proofs.FirstFault
import PanicMode.Proofs.Lines
import PanicMode.Proofs.Lookup
import PanicMode.Proofs.LowestBit
import PanicMode.Proofs.MemberWalk
import PanicMode.Proofs.Messages
import PanicMode.Proofs.NameEquality
import PanicMode.Proofs.Ordinals
import PanicMode.Proofs.RawLookup
import PanicMode.Proofs.ReplacedRow
import PanicMode.Proofs.ReportLines
import PanicMode.Proofs.ReportsAgree
import PanicMode.Proofs.RowByRow
import PanicMode.Proofs.RowLine
import PanicMode.Proofs.RowOrder
import PanicMode.Proofs.SameBytes
import PanicMode.Proofs.SetMembers
import PanicMode.Proofs.SetText
import PanicMode.Proofs.SituationReport
import PanicMode.Proofs.SortedMembers
import PanicMode.Proofs.Spellings
import PanicMode.Proofs.TerminalReport
import PanicMode.Proofs.Verdicts
import PanicMode.Proofs.WellFormed
import PanicMode.Proofs.WrittenForms
import PanicMode.Report
import PanicMode.SetEdit
import PanicMode.Situation
import PanicMode.Spelling
import PanicMode.SyncTable
import PanicMode.Table
import PanicMode.Terminal
import PanicMode.TerminalSet
import PanicMode.Violation
