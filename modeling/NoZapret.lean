import NoZapret.Library.Block
import NoZapret.Library.Runs
import NoZapret.Whitelist
import NoZapret.DecoyStream
import NoZapret.Termination
import NoZapret.Chunks
import NoZapret.Cache
import NoZapret.VpnStop
import NoZapret.NativeLib
import NoZapret.ShownArgs
import NoZapret.TampOnce
import NoZapret.RecordMerge
import NoZapret.RecordSplit
import NoZapret.VpnRevival
import NoZapret.StopSignal
import NoZapret.Closing
import NoZapret.QuicSwitch
import NoZapret.SniChoice
import NoZapret.TestStatus
import NoZapret.EarlierRuns
import NoZapret.TestDelivery
import NoZapret.VpnInterface
import NoZapret.LogSwitch
import NoZapret.TtlWindow
import NoZapret.WaitTimer
import NoZapret.TestProxy
import NoZapret.UdpTunnel
import NoZapret.Attempts
import NoZapret.StaleRequest
import NoZapret.HostLine
import NoZapret.Suspension
import NoZapret.CustomNames
import NoZapret.Persist
import NoZapret.LoadSettings
import NoZapret.UpdateCancel
import NoZapret.ParseArgs
import NoZapret.Agreement
import NoZapret.SniOverride
import NoZapret.UseAsCustom
import NoZapret.Library.PrefixOrder
import NoZapret.Library.Bits
import NoZapret.BitPool
import NoZapret.Numbers
import NoZapret.Inet
import NoZapret.IpSet
import NoZapret.CachePool
import NoZapret.Scanf
import NoZapret.InetText
import NoZapret.CacheFile
import NoZapret.CacheRuns
import NoZapret.CacheRoundTrip
import NoZapret.CacheSafety
import NoZapret.HostValue
import NoZapret.HostParse
import NoZapret.HostTamper
import NoZapret.SniRoundTrip
import NoZapret.EchResize
import NoZapret.RandomFields
import NoZapret.Divisors
import NoZapret.GroupBits
import NoZapret.PortRange
import NoZapret.Library.Links
import NoZapret.GroupLinks
import NoZapret.PoolRuns
import NoZapret.EventLoop
import NoZapret.TimerQueue
import NoZapret.EventBatch
import NoZapret.BuffPool
import NoZapret.FirstRequest
import NoZapret.LocationLine
import NoZapret.ResponseBounds
import NoZapret.TimerClock
import NoZapret.SocksAddr
import NoZapret.UdpReplies
import NoZapret.Library.Machine
import NoZapret.TlsRecords
import NoZapret.UdpDecoys
import NoZapret.Escapes
import NoZapret.Library.Fields
import NoZapret.KotlinText
import NoZapret.IpValidation
import NoZapret.DnsEndpoint
import NoZapret.ConnFailure
import NoZapret.Library.Stack
import NoZapret.Buffers
import NoZapret.BufferOwners
import NoZapret.BufferMoves
import NoZapret.BufferHooks
import NoZapret.BufferRuns
import NoZapret.Library.Outline
import NoZapret.Library.Yaml
import NoZapret.TunnelConfig
import NoZapret.OrgJson
import NoZapret.TestResults
import NoZapret.ImportConfiguration
import NoZapret.Library.Avl
import NoZapret.Kavl
import NoZapret.KavlPool
import NoZapret.KavlWalk
import NoZapret.RequestAddr
import NoZapret.Handshake
import NoZapret.Upstream
