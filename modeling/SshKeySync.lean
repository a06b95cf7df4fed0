import SshKeySync.Std.Text
import SshKeySync.Std.Lines
import SshKeySync.Std.Number
import SshKeySync.Std.Utf8
import SshKeySync.Std.CaseMapping
import SshKeySync.Std.HashMap
import SshKeySync.Std.Result
import SshKeySync.Std.Sha256
import SshKeySync.Std.Path
import SshKeySync.Theory.Hex
import SshKeySync.Theory.Records
import SshKeySync.Theory.Items
import SshKeySync.Theory.AdmissionLog
import SshKeySync.Theory.MarkedBlock
import SshKeySync.Theory.Framing
import SshKeySync.Theory.Runs
import SshKeySync.Theory.Transducer
import SshKeySync.Theory.LastWriter
import SshKeySync.Theory.FileSystem
import SshKeySync.Theory.Parties
import SshKeySync.Auth.Envelope
import SshKeySync.Auth.Canonical
import SshKeySync.Auth.Verifier
import SshKeySync.Auth.NonceKeys
import SshKeySync.Keys.PublicKey
import SshKeySync.Keys.CanonicalForm
import SshKeySync.Config.AppConfig
import SshKeySync.Config.Load
import SshKeySync.Config.Precedence
import SshKeySync.Config.FixedPoint
import SshKeySync.Transport.Service
import SshKeySync.Transport.RequestHistory
import SshKeySync.Transport.Publish
import SshKeySync.Discovery.Engine
import SshKeySync.Discovery.EngineRuns
import SshKeySync.Discovery.Isolation
import SshKeySync.Discovery.PeerTable
import SshKeySync.Discovery.SyncStorm
import SshKeySync.Discovery.Announcements
import SshKeySync.Discovery.DeliveryOrder
import SshKeySync.AuthorizedKeys.ManagedBlock
import SshKeySync.AuthorizedKeys.UserLines
import SshKeySync.AuthorizedKeys.UpdateRuns
import SshKeySync.AuthorizedKeys.Tidy
import SshKeySync.AuthorizedKeys.AtomicWrite
import SshKeySync.AuthorizedKeys.SingleUpdate
import SshKeySync.AuthorizedKeys.Stability
import SshKeySync.Daemon.Loop
import SshKeySync.Daemon.Lifecycle
import SshKeySync.Daemon.Triggers
import SshKeySync.Daemon.Schedule
import SshKeySync.Runtime.EnvelopeCodec
import SshKeySync.Runtime.SignatureScope
import SshKeySync.Runtime.HexDecoders
import SshKeySync.Runtime.Http
import SshKeySync.Runtime.HttpSafety
import SshKeySync.Runtime.Exchange
import SshKeySync.Runtime.SyncCycle
import SshKeySync.Runtime.Availability
import SshKeySync.Runtime.KeyOwnership
import SshKeySync.Runtime.PeerIsolation
import SshKeySync.Runtime.Announce
import SshKeySync.Runtime.ListenAddress
import SshKeySync.Runtime.ControlPaths
import SshKeySync.Runtime.ControlFiles
import SshKeySync.Runtime.ControlPlane
import SshKeySync.Runtime.BootstrapPeers
import SshKeySync.Runtime.SyncTimer
import SshKeySync.Runtime.Replies
import SshKeySync.Runtime.TransportSecurity
import SshKeySync.Runtime.DaemonProcess
import SshKeySync.Runtime.DaemonRuns
import SshKeySync.Runtime.LoopAgreement
import SshKeySync.Runtime.TokenSecrecy
import SshKeySync.Runtime.Group
import SshKeySync.Runtime.SharedFile
import SshKeySync.Runtime.KeysGranted
import SshKeySync.Runtime.KeysSpread
import SshKeySync.Runtime.DaemonCycles
