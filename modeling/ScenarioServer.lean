import ScenarioServer.Command.Arguments
import ScenarioServer.Command.Run
import ScenarioServer.Diagnostic
import ScenarioServer.Documents
import ScenarioServer.Engine
import ScenarioServer.Files
import ScenarioServer.Json.Token
import ScenarioServer.Json.Value
import ScenarioServer.Main
import ScenarioServer.Proofs.CallTurns
import ScenarioServer.Proofs.CheckReport
import ScenarioServer.Proofs.ClientSettings
import ScenarioServer.Proofs.CursorWord
import ScenarioServer.Proofs.DiagnosticRanges
import ScenarioServer.Proofs.Exchanges
import ScenarioServer.Proofs.Freshness
import ScenarioServer.Proofs.History
import ScenarioServer.Proofs.Independence
import ScenarioServer.Proofs.JsonText
import ScenarioServer.Proofs.LedgerHistory
import ScenarioServer.Proofs.LineEndings
import ScenarioServer.Proofs.LineSearch
import ScenarioServer.Proofs.LineTable
import ScenarioServer.Proofs.Lines
import ScenarioServer.Proofs.Machine
import ScenarioServer.Proofs.Overtaking
import ScenarioServer.Proofs.Passes
import ScenarioServer.Proofs.PlainServer
import ScenarioServer.Proofs.Publication
import ScenarioServer.Proofs.PublishGuard
import ScenarioServer.Proofs.Reload
import ScenarioServer.Proofs.Resolution
import ScenarioServer.Proofs.RoundTrip
import ScenarioServer.Proofs.Rounds
import ScenarioServer.Proofs.SettingsCache
import ScenarioServer.Proofs.SettingsInForce
import ScenarioServer.Proofs.Soundness
import ScenarioServer.Proofs.TableIndex
import ScenarioServer.Proofs.TableRows
import ScenarioServer.Proofs.TokenWords
import ScenarioServer.Proofs.Tokens
import ScenarioServer.Proofs.WatchedFiles
import ScenarioServer.Session
import ScenarioServer.Settings
import ScenarioServer.Tables
import ScenarioServer.Text.Position
import ScenarioServer.Text.WordChar
import ScenarioServer.Toml.Parse
import ScenarioServer.Toml.Value
import ScenarioServer.Uri.Basic
import ScenarioServer.Uri.Host
import ScenarioServer.Uri.Parse
import ScenarioServer.Wire.Connection
import ScenarioServer.Wire.Message
