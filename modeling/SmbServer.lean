import SmbServer.Backend
import SmbServer.Client
import SmbServer.Concurrency.Config
import SmbServer.Concurrency.Connections
import SmbServer.Concurrency.Live
import SmbServer.Concurrency.LiveSteps
import SmbServer.Concurrency.Script
import SmbServer.Concurrency.Shutdown
import SmbServer.Conn.Close
import SmbServer.Conn.Loop
import SmbServer.Conn.Reader
import SmbServer.Conn.State
import SmbServer.Conn.Views
import SmbServer.Dispatch
import SmbServer.Effects.Admission
import SmbServer.Effects.Answer
import SmbServer.Effects.Calls
import SmbServer.Effects.Config
import SmbServer.Effects.Dispatch
import SmbServer.Effects.Edit
import SmbServer.Effects.Exchange
import SmbServer.Effects.Failure
import SmbServer.Effects.Gather
import SmbServer.Effects.Handlers
import SmbServer.Effects.Handles
import SmbServer.Effects.HostState
import SmbServer.Effects.Inherit
import SmbServer.Effects.Isolation
import SmbServer.Effects.Limits
import SmbServer.Effects.Listing
import SmbServer.Effects.Negotiation
import SmbServer.Effects.Path
import SmbServer.Effects.Payload
import SmbServer.Effects.Preauth
import SmbServer.Effects.SessionIds
import SmbServer.Effects.Sizes
import SmbServer.Effects.Stitch
import SmbServer.Effects.Sweeps
import SmbServer.Effects.System
import SmbServer.Effects.Teardown
import SmbServer.Effects.Trees
import SmbServer.Effects.Twin
import SmbServer.Fs.Filetime
import SmbServer.Fs.Handle
import SmbServer.Fs.Host
import SmbServer.Fs.Local
import SmbServer.Handlers
import SmbServer.Handlers.Create
import SmbServer.Handlers.File
import SmbServer.Handlers.Query
import SmbServer.Handlers.Response
import SmbServer.Handlers.Session
import SmbServer.Handlers.SetInfo
import SmbServer.Handlers.Tree
import SmbServer.Handlers.WireArithmetic
import SmbServer.InfoClass
import SmbServer.Lib.Action
import SmbServer.Lib.ByteEdit
import SmbServer.Lib.Bytes
import SmbServer.Lib.Chain
import SmbServer.Lib.Channel
import SmbServer.Lib.Checked
import SmbServer.Lib.Format
import SmbServer.Lib.Glob
import SmbServer.Lib.Interleave
import SmbServer.Lib.Ledger
import SmbServer.Lib.Loop
import SmbServer.Lib.PathBuf
import SmbServer.Lib.Posix
import SmbServer.Lib.PosixLaws
import SmbServer.Lib.PosixTwin
import SmbServer.Lib.Program
import SmbServer.Lib.Ranges
import SmbServer.Lib.Risky
import SmbServer.Lib.Run
import SmbServer.Lib.Stamp
import SmbServer.Lib.Stream
import SmbServer.Lib.Table
import SmbServer.Lib.Tree
import SmbServer.Lib.Twin
import SmbServer.Ntstatus
import SmbServer.Panics.Contexts
import SmbServer.Panics.Files
import SmbServer.Panics.Frames
import SmbServer.Panics.Handlers
import SmbServer.Panics.Ntlm
import SmbServer.Panics.Path
import SmbServer.Panics.Spnego
import SmbServer.Panics.Wire
import SmbServer.Path
import SmbServer.Properties.Authentication
import SmbServer.Properties.BuilderAgreement
import SmbServer.Properties.ByteStore
import SmbServer.Properties.ChallengeFields
import SmbServer.Properties.Compound
import SmbServer.Properties.CompoundShape
import SmbServer.Properties.ConfigInvariant
import SmbServer.Properties.ConnectionOrder
import SmbServer.Properties.ConnectionRest
import SmbServer.Properties.ContextChains
import SmbServer.Properties.ContextOverlap
import SmbServer.Properties.CurrentAccess
import SmbServer.Properties.Disposition
import SmbServer.Properties.DroppedFrame
import SmbServer.Properties.Enumeration
import SmbServer.Properties.EscapedHandle
import SmbServer.Properties.FailedRequest
import SmbServer.Properties.FileIdInheritance
import SmbServer.Properties.FileIdentity
import SmbServer.Properties.FiletimeRange
import SmbServer.Properties.FrameGrammar
import SmbServer.Properties.FrameLimit
import SmbServer.Properties.HandleProtocol
import SmbServer.Properties.HeaderRoundTrip
import SmbServer.Properties.ImplicitClose
import SmbServer.Properties.Inheritance
import SmbServer.Properties.Isolation
import SmbServer.Properties.ListedNames
import SmbServer.Properties.LiveContext
import SmbServer.Properties.LocalAgreement
import SmbServer.Properties.LocalBytes
import SmbServer.Properties.LocalEntries
import SmbServer.Properties.LocalRequests
import SmbServer.Properties.NegotiateContexts
import SmbServer.Properties.Negotiation
import SmbServer.Properties.NtlmAgreement
import SmbServer.Properties.OpenAccess
import SmbServer.Properties.OutputLimit
import SmbServer.Properties.OwnObject
import SmbServer.Properties.PanicFree
import SmbServer.Properties.PathInvariant
import SmbServer.Properties.PreauthTranscript
import SmbServer.Properties.PrimaryData
import SmbServer.Properties.ReadOnly
import SmbServer.Properties.ReadOnlyBackend
import SmbServer.Properties.ReadableReplies
import SmbServer.Properties.RemovedUser
import SmbServer.Properties.RenameRace
import SmbServer.Properties.RequestLayout
import SmbServer.Properties.ReservedName
import SmbServer.Properties.Revocation
import SmbServer.Properties.SessionLifecycle
import SmbServer.Properties.SignatureCheck
import SmbServer.Properties.SignedResponse
import SmbServer.Properties.SigningKey
import SmbServer.Properties.SigningPrimitives
import SmbServer.Properties.Smb1Dialects
import SmbServer.Properties.SpnegoRoundTrip
import SmbServer.Properties.StreamHost
import SmbServer.Properties.StreamOwnership
import SmbServer.Properties.StreamStorage
import SmbServer.Properties.StreamStore
import SmbServer.Properties.TracePrivacy
import SmbServer.Properties.TreeIds
import SmbServer.Properties.Wildcard
import SmbServer.Properties.WildcardSound
import SmbServer.Properties.WireArithmetic
import SmbServer.Properties.WireRoundTrip
import SmbServer.Properties.WriteEffect
import SmbServer.Proto.ContextChain
import SmbServer.Proto.Crypto
import SmbServer.Proto.FileRequest
import SmbServer.Proto.Formats
import SmbServer.Proto.Framing
import SmbServer.Proto.Header
import SmbServer.Proto.MacAgreement
import SmbServer.Proto.MessageKind
import SmbServer.Proto.Messages
import SmbServer.Proto.Ntlm
import SmbServer.Proto.NtlmClient
import SmbServer.Proto.Reader
import SmbServer.Proto.Sign
import SmbServer.Proto.Spnego
import SmbServer.Server.Builder
import SmbServer.Server.State
import SmbServer.Share
import SmbServer.Steps
import SmbServer.System
import SmbServer.Text
import SmbServer.Trace
import SmbServer.World
