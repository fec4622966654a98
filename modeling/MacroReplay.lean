import MacroReplay.Files.Tree
import MacroReplay.Main
import MacroReplay.Proofs.Address.BareHost
import MacroReplay.Proofs.Browser.Attributes
import MacroReplay.Proofs.Browser.Content
import MacroReplay.Proofs.Browser.Extraction
import MacroReplay.Proofs.Browser.ParameterShape
import MacroReplay.Proofs.Browser.Promptness
import MacroReplay.Proofs.Browser.ProxyRestore
import MacroReplay.Proofs.Calendar.Chronology
import MacroReplay.Proofs.Cli.StaticCheck
import MacroReplay.Proofs.Datasource.Residue
import MacroReplay.Proofs.Datasource.Rounds
import MacroReplay.Proofs.Engine.Transparency
import MacroReplay.Proofs.Expression.Literal
import MacroReplay.Proofs.Expression.Parsing
import MacroReplay.Proofs.Expression.Readback
import MacroReplay.Proofs.Expression.Recursion
import MacroReplay.Proofs.Handler.Passage
import MacroReplay.Proofs.Retry.Cancellation
import MacroReplay.Proofs.Retry.Progress
import MacroReplay.Proofs.Run.Accumulation
import MacroReplay.Proofs.Run.Bookkeeping
import MacroReplay.Proofs.Run.ErrorPolicy
import MacroReplay.Proofs.Run.LoopCounter
import MacroReplay.Proofs.Run.Profiling
import MacroReplay.Proofs.Run.StopSafety
import MacroReplay.Proofs.Run.Verdict
import MacroReplay.Proofs.Session.Cleanup
import MacroReplay.Proofs.Session.LastError
import MacroReplay.Proofs.Session.Leaving
import MacroReplay.Proofs.Table.Readback
import MacroReplay.Proofs.Variable.Assignment
import MacroReplay.Proofs.Variable.Expansion
import MacroReplay.Proofs.Variable.Insulation
import MacroReplay.Proofs.Variable.Invariant
import MacroReplay.Proofs.Variable.Placeholder
