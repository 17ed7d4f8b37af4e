import EscapeRoom.CommandLine.Invocation
import EscapeRoom.CommandLine.Run
import EscapeRoom.CommandLine.Words
import EscapeRoom.Config
import EscapeRoom.Container.Resources
import EscapeRoom.Files.Disk
import EscapeRoom.Files.FileSystem
import EscapeRoom.Files.Path
import EscapeRoom.Http.Endpoint
import EscapeRoom.Http.Form
import EscapeRoom.Http.MediaType
import EscapeRoom.Http.Message
import EscapeRoom.Http.Wire
import EscapeRoom.Json.Codec
import EscapeRoom.Json.Decoder
import EscapeRoom.Json.Value
import EscapeRoom.Main
import EscapeRoom.Manifest.Basic
import EscapeRoom.Manifest.Place
import EscapeRoom.Manifest.Rubric
import EscapeRoom.Manifest.Samples
import EscapeRoom.Message
import EscapeRoom.Number.Binary64
import EscapeRoom.Number.Digit
import EscapeRoom.Ordered.Map
import EscapeRoom.Player
import EscapeRoom.Proofs.Acknowledgement
import EscapeRoom.Proofs.Advantage
import EscapeRoom.Proofs.Announcement
import EscapeRoom.Proofs.BlankDocument
import EscapeRoom.Proofs.ChangeOrder
import EscapeRoom.Proofs.CheckRun
import EscapeRoom.Proofs.Client
import EscapeRoom.Proofs.Coherence
import EscapeRoom.Proofs.Config
import EscapeRoom.Proofs.ConsoleRun
import EscapeRoom.Proofs.Contradiction
import EscapeRoom.Proofs.Convergence
import EscapeRoom.Proofs.DataFile
import EscapeRoom.Proofs.EndOfInput
import EscapeRoom.Proofs.Handlers
import EscapeRoom.Proofs.Http.Address
import EscapeRoom.Proofs.Http.Form
import EscapeRoom.Proofs.Isolation
import EscapeRoom.Proofs.Json.Layout
import EscapeRoom.Proofs.Json.Octets
import EscapeRoom.Proofs.Json.Record
import EscapeRoom.Proofs.Json.RoundTrip
import EscapeRoom.Proofs.Json.Token
import EscapeRoom.Proofs.LevelRun
import EscapeRoom.Proofs.LineMeaning
import EscapeRoom.Proofs.MachineRun
import EscapeRoom.Proofs.ManifestLevel
import EscapeRoom.Proofs.ManifestRun
import EscapeRoom.Proofs.Message
import EscapeRoom.Proofs.MessageText
import EscapeRoom.Proofs.OfflineProgress
import EscapeRoom.Proofs.Outage
import EscapeRoom.Proofs.Path
import EscapeRoom.Proofs.Place
import EscapeRoom.Proofs.PlayerId
import EscapeRoom.Proofs.Ports
import EscapeRoom.Proofs.ReadingLines
import EscapeRoom.Proofs.Replacement
import EscapeRoom.Proofs.Replicas
import EscapeRoom.Proofs.Restart
import EscapeRoom.Proofs.Restoration
import EscapeRoom.Proofs.RuleSite
import EscapeRoom.Proofs.RunArguments
import EscapeRoom.Proofs.RunRequest
import EscapeRoom.Proofs.SavedManifest
import EscapeRoom.Proofs.Schedule
import EscapeRoom.Proofs.ScriptHistory
import EscapeRoom.Proofs.Service
import EscapeRoom.Proofs.SessionInvariant
import EscapeRoom.Proofs.SessionStep
import EscapeRoom.Proofs.StoreAgreement
import EscapeRoom.Proofs.StoreRun
import EscapeRoom.Proofs.Tags
import EscapeRoom.Proofs.TaskMerge
import EscapeRoom.Proofs.TaskOrder
import EscapeRoom.Proofs.Toml.Quoted
import EscapeRoom.Proofs.Toml.Settings
import EscapeRoom.Proofs.TrackerRun
import EscapeRoom.Proofs.UnrelatedEdits
import EscapeRoom.Proofs.Utf8
import EscapeRoom.Proofs.Verdict
import EscapeRoom.Proofs.VerdictShape
import EscapeRoom.Proofs.WireAgreement
import EscapeRoom.Proofs.Words
import EscapeRoom.Proofs.Yaml.Build
import EscapeRoom.Proofs.Yaml.EmptyDocument
import EscapeRoom.Proofs.Yaml.FirstEvent
import EscapeRoom.Proofs.Yaml.FirstToken
import EscapeRoom.Proofs.Yaml.Ledger
import EscapeRoom.Proofs.Yaml.LineContent
import EscapeRoom.Proofs.Yaml.Lines
import EscapeRoom.Proofs.Yaml.Margin
import EscapeRoom.Proofs.Yaml.Names
import EscapeRoom.Proofs.Yaml.TopLexeme
import EscapeRoom.Room.Check
import EscapeRoom.Room.Console
import EscapeRoom.Room.DockerLevel
import EscapeRoom.Room.ManifestLevel
import EscapeRoom.Room.Play
import EscapeRoom.Server.DataFile
import EscapeRoom.Server.Database
import EscapeRoom.Server.Service
import EscapeRoom.Store.Basic
import EscapeRoom.Store.Memory
import EscapeRoom.Store.Remote
import EscapeRoom.Store.Unreliable
import EscapeRoom.Task.Level
import EscapeRoom.Task.State
import EscapeRoom.Task.Tracker
import EscapeRoom.Terminal.Command
import EscapeRoom.Terminal.Session
import EscapeRoom.Text.Blank
import EscapeRoom.Text.Lines
import EscapeRoom.Text.Utf8
import EscapeRoom.Toml.Document
import EscapeRoom.Toml.Quoted
import EscapeRoom.Toml.Value
import EscapeRoom.Yaml.Cursor
import EscapeRoom.Yaml.Document
import EscapeRoom.Yaml.Event
import EscapeRoom.Yaml.Fault
import EscapeRoom.Yaml.Scalar
import EscapeRoom.Yaml.Token
import EscapeRoom.Yaml.Token.Block
import EscapeRoom.Yaml.Token.Lexer
import EscapeRoom.Yaml.Token.Plain
import EscapeRoom.Yaml.Token.Property
import EscapeRoom.Yaml.Token.Quoted
import EscapeRoom.Yaml.Tree
import EscapeRoom.Proofs.Json.Octets
