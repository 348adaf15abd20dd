import Zc.AnyTls.Delivery
import Zc.AnyTls.Shutdown
import Zc.Api.Authorization
import Zc.Config.Diagnostics
import Zc.Config.Offline
import Zc.Config.Rollback
import Zc.Config.Routing
import Zc.Connection.Lifecycle
import Zc.Connection.Tickets
import Zc.Daemon.Follow
import Zc.Daemon.Identity
import Zc.Daemon.Revoke
import Zc.Daemon.Snapshot
import Zc.Fsutil.AtomicWrite
import Zc.Fsutil.Resolution
import Zc.Outbound.ReadProgress
import Zc.Override.Environment
import Zc.Override.YamlQuote
import Zc.Override.ZigMap
import Zc.Runtime.Chunked
import Zc.Runtime.Idle
import Zc.Service.Reconcile
import Zc.SimpleObfs.Segments
import Zc.SimpleObfs.Write
import Zc.Store.Fixpoint
import Zc.Store.Mirror
import Zc.Udp.Relay
import Zc.Udp.Trojan
