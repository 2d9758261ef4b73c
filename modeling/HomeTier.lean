import HomeTier.Lib.Trace
import HomeTier.Lib.Parties
import HomeTier.Lib.Tasks
import HomeTier.Lib.Text
import HomeTier.Lib.Codec
import HomeTier.Lib.Percent
import HomeTier.Lib.Uuid
import HomeTier.Lib.Decimal
import HomeTier.Lib.Disk
import HomeTier.Lib.Frame
import HomeTier.Lib.Http
import HomeTier.Lib.Transfer
import HomeTier.Lib.Retry
import HomeTier.Lib.Router
import HomeTier.Lib.Table
import HomeTier.Lib.Collect
import HomeTier.Lib.Wire
import HomeTier.Lib.RwLock
import HomeTier.Lib.Utf8
import HomeTier.Lib.Entries
import HomeTier.Lib.Json
import HomeTier.Lib.JsonText
import HomeTier.Lib.Lines
import HomeTier.Lib.Feed
import HomeTier.Lib.Rolling
import HomeTier.ConfigStore.Store
import HomeTier.ConfigStore.Queue
import HomeTier.ConfigStore.Isolation
import HomeTier.ConfigStore.Atomic
import HomeTier.ConfigStore.Snapshot
import HomeTier.ConfigStore.Remote
import HomeTier.Server.Auth
import HomeTier.Server.Routes
import HomeTier.Server.Session
import HomeTier.Server.SpaceRows
import HomeTier.Proxy.Url
import HomeTier.Proxy.Forward
import HomeTier.Proxy.Cookie
import HomeTier.Proxy.CookieRules
import HomeTier.Proxy.Jars
import HomeTier.Proxy.Attach
import HomeTier.Proxy.CookieReturn
import HomeTier.Proxy.HttpForward
import HomeTier.Lib.Reference
import HomeTier.Proxy.Redirect
import HomeTier.Proxy.Followed
import HomeTier.Proxy.Location
import HomeTier.Lib.Scan
import HomeTier.Proxy.Rewriter
import HomeTier.Proxy.Links
import HomeTier.Proxy.LinksKept
import HomeTier.Lib.Csp
import HomeTier.Proxy.RelaxCsp
import HomeTier.Proxy.Retry
import HomeTier.Proxy.CutOff
import HomeTier.Proxy.Transparent
import HomeTier.Proxy.Front
import HomeTier.Proxy.WsUrl
import HomeTier.Proxy.WsRequest
import HomeTier.Proxy.WsRelay
import HomeTier.Proxy.WsRoundTrip
import HomeTier.Proxy.WsTarget
import HomeTier.EasyTier.Manager
import HomeTier.EasyTier.NetworkConfig
import HomeTier.EasyTier.Proto
import HomeTier.EasyTier.Agreement
import HomeTier.EasyTier.ConfigJson
import HomeTier.EasyTier.Downloader
import HomeTier.EasyTier.PatchRules
import HomeTier.Daemon.Client
import HomeTier.Log.Forward
import HomeTier.Daemon.CoreProcess
import HomeTier.Daemon.Port
import HomeTier.Daemon.Requests
import HomeTier.Space.Share
import HomeTier.Qr.Link
import HomeTier.Space.Ports
import HomeTier.Space.Services
import HomeTier.Space.Background
import HomeTier.Space.Locks
import HomeTier.Space.PatchConfig
import HomeTier.Space.PatchAgreement
import HomeTier.Chat.Server
import HomeTier.Chat.Client
import HomeTier.Chat.Sign
import HomeTier.Chat.Dispatch
import HomeTier.Chat.Listener
import HomeTier.Log.Record
import HomeTier.Log.Memory
import HomeTier.Log.File
import HomeTier.Log.Recent
import HomeTier.Lib.Message
import HomeTier.Config.Env
import HomeTier.Config.AppConfig
import HomeTier.File.Server
import HomeTier.File.Transfer
import HomeTier.File.Upload
import HomeTier.Space.Tun
import HomeTier.Space.Owners
import HomeTier.Space.Addresses
import HomeTier.Space.ConfigText
import HomeTier.Space.Join
import HomeTier.Chat.Store
import HomeTier.Space.Connected
import HomeTier.Space.Signalling
import HomeTier.Media.Capture
import HomeTier.Media.Ice
import HomeTier.Media.Connected
import HomeTier.Vpn.Address
import HomeTier.Vpn.Rebuild
import HomeTier.Vpn.Disconnect
import HomeTier.Proxy.SelfConnect
import HomeTier.Space.FailedConnect
import HomeTier.Lib.Html
import HomeTier.Lib.Lowercase
import HomeTier.Lib.Insert
import HomeTier.Proxy.Inject
import HomeTier.Server.Numbers
import HomeTier.Space.Identity
import HomeTier.File.Put
import HomeTier.Log.Clear
import HomeTier.EasyTier.Status
import HomeTier.EasyTier.PeerList
import HomeTier.EasyTier.MeshRoutes
import HomeTier.Space.Fallback
import HomeTier.Space.Atomic
import HomeTier.Log.ClearFiltered
import HomeTier.Server.Queries
import HomeTier.Chat.Delivery
import HomeTier.Log.Viewer
import HomeTier.EasyTier.ProxyCidrs
import HomeTier.File.Progress
import HomeTier.Vpn.LocalNets
import HomeTier.Space.Truncated
import HomeTier.Proxy.Prepend
import HomeTier.EasyTier.NetworkCidr
import HomeTier.App.Tabs
import HomeTier.EasyTier.CidrEditor
import HomeTier.App.Cleanup
import HomeTier.App.Version
import HomeTier.App.Import
import HomeTier.App.Download
import HomeTier.App.Upgrade
import HomeTier.Lib.JsonCut
import HomeTier.Daemon.Frames
import HomeTier.Lib.Projection
import HomeTier.ConfigStore.Network
import HomeTier.Proxy.Chain
import HomeTier.Lib.Base64
import HomeTier.Qr.Scan
import HomeTier.Space.Invite
import HomeTier.Server.Events
import HomeTier.File.Ports
import HomeTier.Proxy.PageScript
import HomeTier.Proxy.Tunnels
import HomeTier.App.Share
import HomeTier.Media.Watching
import HomeTier.Media.Viewing
