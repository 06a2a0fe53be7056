import SnippetsC.Math.Align
import SnippetsC.Framework.Memory
import SnippetsC.Framework.Layout
import SnippetsC.Framework.RecordStream
import SnippetsC.Framework.SharedCell
import SnippetsC.Framework.Transition
import SnippetsC.Framework.Ring
import SnippetsC.Framework.Circulation
import SnippetsC.Framework.Script
import SnippetsC.Framework.Path
import SnippetsC.Framework.FileTree
import SnippetsC.Framework.FreshTree
import SnippetsC.Framework.Loop
import SnippetsC.Framework.Printf
import SnippetsC.Framework.HexText
import SnippetsC.Framework.Strtol
import SnippetsC.Framework.Lines
import SnippetsC.Framework.HexDump
import SnippetsC.Framework.Simulation
import SnippetsC.Framework.NamedTable
import SnippetsC.Framework.Increments
import SnippetsC.Framework.Progress
import SnippetsC.Netlink.Uapi
import SnippetsC.Netlink.Message
import SnippetsC.Netlink.ReadMessage
import SnippetsC.Netlink.Receivers
import SnippetsC.Netlink.Datagram
import SnippetsC.Netlink.Dump
import SnippetsC.Netlink.Request
import SnippetsC.Netlink.TcFilter
import SnippetsC.Netlink.FilterRequest
import SnippetsC.Netlink.AddVeth
import SnippetsC.Netlink.VethRequest
import SnippetsC.Netlink.SetLink
import SnippetsC.Netlink.LinkState
import SnippetsC.Netlink.QdiscRequest
import SnippetsC.Netlink.ReceiveWalk
import SnippetsC.Netlink.Listeners
import SnippetsC.Netlink.Containment
import SnippetsC.Netlink.LinkStats
import SnippetsC.Netlink.Printers
import SnippetsC.Netlink.PayloadReads
import SnippetsC.Netlink.AddrText
import SnippetsC.Netlink.LinkCommand
import SnippetsC.Netlink.SetIfname
import SnippetsC.Netlink.SetNetnsPid
import SnippetsC.Netlink.RtaLabels
import SnippetsC.Netlink.FlagText
import SnippetsC.Netlink.LinkInfo
import SnippetsC.Netlink.QdiscCommands
import SnippetsC.Netlink.Content
import SnippetsC.Netlink.Senders
import SnippetsC.Netlink.Requests
import SnippetsC.Netlink.AttrText
import SnippetsC.Netlink.LinkNames
import SnippetsC.Netlink.Links
import SnippetsC.Netlink.LinkRuns
import SnippetsC.Netlink.ListenerRuns
import SnippetsC.Netlink.ListenerText
import SnippetsC.Netlink.ListenerOutput
import SnippetsC.LdPreload.Setsockopt
import SnippetsC.Bpf.Counters
import SnippetsC.Bpf.TcHook
import SnippetsC.Bpf.TcAttach
import SnippetsC.Bpf.ExtensionHeaders
import SnippetsC.Bpf.Interleavings
import SnippetsC.Bpf.TcCommands
import SnippetsC.Bpf.TcRuns
import SnippetsC.Bpf.XdpRuns
import SnippetsC.AfXdp.Xsk
import SnippetsC.AfXdp.RingCounts
import SnippetsC.AfXdp.Receive
import SnippetsC.AfXdp.Indices
import SnippetsC.AfXdp.Frames
import SnippetsC.AfXdp.Packets
import SnippetsC.AfXdp.Room
import SnippetsC.AfXdp.Send
import SnippetsC.AfXdp.InFlight
import SnippetsC.AfXdp.Wakeup
import SnippetsC.AfXdp.PrintPacket
import SnippetsC.AfXdp.Progress
import SnippetsC.AfXdp.Stall
import SnippetsC.AfXdp.Transmit
import SnippetsC.Netns.Commands
import SnippetsC.Netns.Atomicity
import SnippetsC.Netns.Inverse
import SnippetsC.Netns.Names
import SnippetsC.Netns.Registry
import SnippetsC.Mosquitto.Clients
import SnippetsC.Mosquitto.Sessions
