import SimpleLdapd.Library.OrderedMap
import SimpleLdapd.Library.AtomicProgram
import SimpleLdapd.Library.BigEndian
import SimpleLdapd.Utils.Dn
import SimpleLdapd.Protocol.ResultCodes
import SimpleLdapd.Backend.Modify
import SimpleLdapd.Protocol.Ber
import SimpleLdapd.Protocol.Filter
import SimpleLdapd.Protocol.Message
import SimpleLdapd.Protocol.MessageRoundTrip
import SimpleLdapd.Backend.Ldif
import SimpleLdapd.Backend.Sqlite
import SimpleLdapd.Auth.Password
import SimpleLdapd.Config.Config
import SimpleLdapd.Auth.Bind
import SimpleLdapd.Auth.Gssapi
import SimpleLdapd.Auth.Sasl
import SimpleLdapd.Core.Session
import SimpleLdapd.Core.WriteOutcome
import SimpleLdapd.Core.WriteMediation
import SimpleLdapd.Core.TreeIntegrity
import SimpleLdapd.Core.SchemaInvariant
import SimpleLdapd.Core.LostUpdate
import SimpleLdapd.Core.Authentication
import SimpleLdapd.Core.PasswordSecrecy
import SimpleLdapd.Protocol.Framing
import SimpleLdapd.Library.GuardedRun
import SimpleLdapd.Core.AttributeNames
import SimpleLdapd.Core.StoredPasswords
import SimpleLdapd.Library.CallProtocol
import SimpleLdapd.Core.AddDeleteRace
import SimpleLdapd.Core.RenameRace
import SimpleLdapd.Core.BindRace
import SimpleLdapd.Core.PersistRace
import SimpleLdapd.Core.ExistenceOracle
import SimpleLdapd.Library.Paging
import SimpleLdapd.Core.PagedSearch
import SimpleLdapd.Core.Responses
import SimpleLdapd.Backend.ValueSets
import SimpleLdapd.Backend.ModifyLaws
import SimpleLdapd.Library.RecordBlocks
import SimpleLdapd.Protocol.Ldif
import SimpleLdapd.Backend.LdifRecords
import SimpleLdapd.Backend.Seeding
import SimpleLdapd.Backend.SeedAgreement
import SimpleLdapd.Core.AddEffect
import SimpleLdapd.Core.RenameEffect
import SimpleLdapd.Core.CriticalControls
import SimpleLdapd.Protocol.FilterText
import SimpleLdapd.Protocol.FilterSyntax
import SimpleLdapd.Library.Placement
import SimpleLdapd.Protocol.FilterMatch
import SimpleLdapd.Auth.AccountLookup
import SimpleLdapd.Auth.PasswordRoundTrip
import SimpleLdapd.Core.PasswordChange
import SimpleLdapd.Core.ConnectionLoop
import SimpleLdapd.Core.EmptyPassword
import SimpleLdapd.Auth.DigestStrength
import SimpleLdapd.Auth.PrintedPairs
import SimpleLdapd.Auth.DigestWire
import SimpleLdapd.Core.NonceReuse
import SimpleLdapd.Auth.TicketIntegrity
import SimpleLdapd.Security.AccessOrder
import SimpleLdapd.Core.CompareSearch
import SimpleLdapd.Library.LeastClosure
import SimpleLdapd.Schema.Meaning
import SimpleLdapd.Schema.Aliases
import SimpleLdapd.Protocol.WireCodes
import SimpleLdapd.Core.RequestCodes
import SimpleLdapd.Protocol.IntegerCoding
import SimpleLdapd.Core.NumberRange
import SimpleLdapd.Library.Paths
import SimpleLdapd.Utils.DnPath
import SimpleLdapd.Core.ScopeAgreement
import SimpleLdapd.Library.FixedWindow
import SimpleLdapd.Security.RateLimiter
import SimpleLdapd.Protocol.BuiltFilters
import SimpleLdapd.Protocol.PayloadRoundTrip
import SimpleLdapd.Protocol.LdifRoundTrip
import SimpleLdapd.Protocol.LdifChanges
import SimpleLdapd.Protocol.DecoderBounds
import SimpleLdapd.Protocol.EnumeratedCoding
import SimpleLdapd.Auth.Base64
import SimpleLdapd.Library.Scanning
import SimpleLdapd.Schema.Parser
import SimpleLdapd.Schema.Loading
import SimpleLdapd.Library.Lockstep
import SimpleLdapd.Backend.Mirroring
import SimpleLdapd.Core.MirroredReads
import SimpleLdapd.Library.Respect
import SimpleLdapd.Core.WrittenTexts
import SimpleLdapd.Core.MirroredSessions
import SimpleLdapd.Library.Footprints
import SimpleLdapd.Backend.Directory
import SimpleLdapd.Core.SeparateSessions
import SimpleLdapd.Core.Durability
import SimpleLdapd.Library.RemoteCalls
import SimpleLdapd.Protocol.Receiving
import SimpleLdapd.Cli.Client
import SimpleLdapd.Core.ClientSessions
import SimpleLdapd.Library.RunningDown
import SimpleLdapd.Core.Daemon
import SimpleLdapd.Core.DaemonRuns
import SimpleLdapd.Core.DaemonSessions
import SimpleLdapd.Config.ConfigFile
import SimpleLdapd.Core.SearchTool
import SimpleLdapd.Core.StartUp
