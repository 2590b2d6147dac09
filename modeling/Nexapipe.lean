import Nexapipe.Conn.Gate
import Nexapipe.Conn.Mirror
import Nexapipe.Conn.Authorized
import Nexapipe.Conn.Persist
import Nexapipe.Conn.Replay
import Nexapipe.Conn.Lockout
import Nexapipe.Conn.Stranger
import Nexapipe.Limits.Connections
import Nexapipe.Limits.Budget
import Nexapipe.Lb.Lease
import Nexapipe.Lb.Selection
import Nexapipe.Lb.Connect
import Nexapipe.Watcher.Watch
import Nexapipe.Proto.Pattern
import Nexapipe.Routes.Folding
import Nexapipe.Proto.AuthPayload
import Nexapipe.Proto.Hello
import Nexapipe.Proxy.Startup
import Nexapipe.Health.Probes
import Nexapipe.Health.Rounds
import Nexapipe.Http.Retry
import Nexapipe.Tunnel.Datagrams
import Nexapipe.Client.Index
import Nexapipe.Client.Invite
import Nexapipe.Client.Health
import Nexapipe.Client.Borrows
import Nexapipe.Client.PathWatcher
import Nexapipe.Dns.Demux
import Nexapipe.Dns.Echo
import Nexapipe.Dns.Server
import Nexapipe.Dns.WireName
import Nexapipe.Netstack.Labels
import Nexapipe.Netstack.Slots
import Nexapipe.LocalProxy.Plain
import Nexapipe.Client.Issued
import Nexapipe.Conn.Invited
import Nexapipe.Routes.Precedence
import Nexapipe.Watcher.CarryOver
import Nexapipe.Desktop.Handshake
import Nexapipe.Desktop.ResolvConf
import Nexapipe.Client.SharedDial
import Nexapipe.Client.FlowOpen
import Nexapipe.LocalProxy.Filter
import Nexapipe.LocalProxy.Reader
import Nexapipe.LocalProxy.Quiet
import Nexapipe.Http.Authority
import Nexapipe.Desktop.Scope
import Nexapipe.Desktop.IpcLine
import Nexapipe.Client.Relay
