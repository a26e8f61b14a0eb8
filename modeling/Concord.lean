import Concord.Backend
import Concord.Catalog
import Concord.CommandLine.Invoke
import Concord.CommandLine.Options
import Concord.CommandLine.Perform
import Concord.CommandLine.Scan
import Concord.CommandLine.Usage
import Concord.Context
import Concord.Contract
import Concord.Datum
import Concord.Entries
import Concord.Environment
import Concord.Execute
import Concord.Fault
import Concord.Harness
import Concord.Key
import Concord.Log.Ambient
import Concord.Log.Announce
import Concord.Log.Console
import Concord.Log.Levels
import Concord.Log.Recorder
import Concord.Main
import Concord.Module
import Concord.Notice
import Concord.PlainText.Blueprint
import Concord.PlainText.Parser
import Concord.PlainText.Recipe
import Concord.PlainText.Source
import Concord.Procedure
import Concord.Proofs.Agreement
import Concord.Proofs.Dispatch
import Concord.Proofs.Launch
import Concord.Proofs.Lists
import Concord.Proofs.PlainTextTrust
import Concord.Proofs.Planning
import Concord.Proofs.Pool
import Concord.Proofs.Promise
import Concord.Proofs.Reference
import Concord.Proofs.Registration
import Concord.Proofs.Replay
import Concord.Proofs.Resolver
import Concord.Proofs.Restart
import Concord.Proofs.ScheduleIndependence
import Concord.Proofs.Stint
import Concord.Proofs.Stranded
import Concord.Proofs.UnitResult
import Concord.Proofs.WholeRun
import Concord.Record
import Concord.Report
import Concord.Resolve
import Concord.Run
import Concord.Samples
import Concord.Script
import Concord.Session
import Concord.Settings
import Concord.TestSession
import Concord.Text.Blank
import Concord.Text.Charset
import Concord.Text.Dotted
import Concord.Text.Double
import Concord.Text.Find
import Concord.Text.Integer
import Concord.Text.Names
import Concord.Text.Path
import Concord.Text.Printable
import Concord.Text.Quoted
import Concord.Ulid
import Concord.Unit
import Concord.World
import Concord.Proofs.DisplayedKey
import Concord.Proofs.RegistrationOrder
import Concord.Proofs.Deadline
import Concord.Proofs.Consumers
import Concord.Proofs.Accounting
import Concord.Proofs.ConstructorCalls
import Concord.Proofs.Isolation
import Concord.Proofs.Noninterference
import Concord.Proofs.Overriding
import Concord.Proofs.ProbeRegistration
import Concord.Proofs.LifeCycle
import Concord.Proofs.RunNumbering
import Concord.Proofs.CheckAgreement
import Concord.Proofs.History
import Concord.Proofs.FailureReason
import Concord.Proofs.ComparedPair
import Concord.Proofs.RegistrationHistory
import Concord.Proofs.ExitStatus
import Concord.Proofs.Execution
import Concord.Proofs.FlakyEvidence
import Concord.Proofs.Transcript
import Concord.Proofs.MismatchEvidence
import Concord.Proofs.HistoryIndependence
import Concord.Proofs.Availability
import Concord.Proofs.LevelParity
import Concord.Proofs.FlightRecord
import Concord.Proofs.JoinedTexts
import Concord.Proofs.FailureBlock
import Concord.Proofs.ReportArithmetic
import Concord.Proofs.MarkedTests
import Concord.Proofs.ListedItems
import Concord.Proofs.LevelOption
import Concord.Proofs.Numeral
import Concord.Proofs.ReplayCount
