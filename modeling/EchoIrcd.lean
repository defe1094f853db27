import EchoIrcd.Origin
import EchoIrcd.DialRuns
import EchoIrcd.KickRuns
import EchoIrcd.SeatRuns
import EchoIrcd.CloneRuns
import EchoIrcd.TagRules
import EchoIrcd.RoundTrip
import EchoIrcd.GlobMatch
import EchoIrcd.HistoryBetween
import EchoIrcd.WebSocket
import EchoIrcd.ProxyReads
import EchoIrcd.SendQueue
import EchoIrcd.RegexParse
import EchoIrcd.RegexRun
import EchoIrcd.OpModerated
import EchoIrcd.Clearance
import EchoIrcd.MaskLists
import EchoIrcd.BurstLines
import EchoIrcd.OperScope
import EchoIrcd.VerifyRuns
import EchoIrcd.PushRuns
import EchoIrcd.AcceptRuns
import EchoIrcd.KickGuards
import EchoIrcd.InviteRuns
import EchoIrcd.ModeTokens
import EchoIrcd.HideMode
import EchoIrcd.Fanout
import EchoIrcd.ChannelFilter
import EchoIrcd.TargetLimit
import EchoIrcd.Catalog
import EchoIrcd.HeldLines
import EchoIrcd.JoinRedirects
import EchoIrcd.MixedScripts
import EchoIrcd.BindResult
import EchoIrcd.Scram
import EchoIrcd.DnsName
