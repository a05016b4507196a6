import NvmeSnsd.Lib.Bytes
import NvmeSnsd.Lib.Text
import NvmeSnsd.Lib.Loop
import NvmeSnsd.Lib.Scan
import NvmeSnsd.Lib.Search
import NvmeSnsd.Lib.Tlv
import NvmeSnsd.Lib.Slots
import NvmeSnsd.Lib.CircularList
import NvmeSnsd.Snsd
import NvmeSnsd.Server.Message
import NvmeSnsd.Server.Record
import NvmeSnsd.Server.Decode
import NvmeSnsd.Server.DecodeSpec
import NvmeSnsd.Server.Fields
import NvmeSnsd.Server.Notification
import NvmeSnsd.Server.Frame
import NvmeSnsd.Server.Pool
import NvmeSnsd.Server.Ack
import NvmeSnsd.Server.AckSpec
import NvmeSnsd.Server.PoolSpec
import NvmeSnsd.Server.Listener
import NvmeSnsd.Server.ListenerSpec
import NvmeSnsd.Server.HostIp
import NvmeSnsd.Server.Incarnation
import NvmeSnsd.Server.Sock
import NvmeSnsd.Server.Monitor
import NvmeSnsd.Server.ConnectChange
import NvmeSnsd.Server.Receive
import NvmeSnsd.Server.LastField
import NvmeSnsd.Server.Action
import NvmeSnsd.Lib.Run
import NvmeSnsd.Lib.Edits
import NvmeSnsd.Lib.Mutex
import NvmeSnsd.ConnPeon.Task
import NvmeSnsd.ConnPeon.Sched
import NvmeSnsd.ConnPeon.Judge
import NvmeSnsd.ConnPeon.Steps
import NvmeSnsd.ConnPeon.Invariant
import NvmeSnsd.ConnPeon.Exclusion
import NvmeSnsd.ConnPeon.Disconn
import NvmeSnsd.ConnPeon.Connect
import NvmeSnsd.ConnPeon.Request
import NvmeSnsd.ConnPeon.LastWins
import NvmeSnsd.ConnPeon.History
import NvmeSnsd.ConnPeon.Batch
import NvmeSnsd.ConnPeon.WorkerCount
import NvmeSnsd.ConnPeon.Lock
import NvmeSnsd.ConnNvme.Ctx
import NvmeSnsd.Cfg.Infos
import NvmeSnsd.Cfg.Section
import NvmeSnsd.Cfg.SectionSpec
import NvmeSnsd.Cfg.Options
import NvmeSnsd.Cfg.Parse
import NvmeSnsd.Cfg.ParseSpec
import NvmeSnsd.Cfg.Pieces
import NvmeSnsd.Cfg.Overflow
import NvmeSnsd.Cfg.Comments
import NvmeSnsd.Cfg.Conflict
import NvmeSnsd.Cfg.Print
import NvmeSnsd.Cfg.RoundTrip
import NvmeSnsd.Cfg.Stated
import NvmeSnsd.Cfg.LastLine
import NvmeSnsd.Cfg.Limits
import NvmeSnsd.Cfg.Blanks
import NvmeSnsd.ConnNvme.FillArg
import NvmeSnsd.ConnNvme.FillArgSpec
import NvmeSnsd.ConnNvme.Sysfs
import NvmeSnsd.ConnNvme.Inherit
import NvmeSnsd.ConnNvme.Discovery
import NvmeSnsd.ConnNvme.Pasted
import NvmeSnsd.ConnNvme.Written
import NvmeSnsd.Mgt.Port
import NvmeSnsd.Mgt.CfgMatch
import NvmeSnsd.Mgt.Lookup
import NvmeSnsd.Mgt.Vlan
import NvmeSnsd.Mgt.VlanTable
import NvmeSnsd.Mgt.Bonding
import NvmeSnsd.Mgt.NetInfo
import NvmeSnsd.Mgt.NetSpec
import NvmeSnsd.Mgt.Reconcile
import NvmeSnsd.Mgt.PollRun
import NvmeSnsd.Mgt.IbFound
import NvmeSnsd.Mgt.Carried
import NvmeSnsd.Mgt.Marked
import NvmeSnsd.Switch.Fd
import NvmeSnsd.Switch.Slaves
import NvmeSnsd.Switch.Port
import NvmeSnsd.Switch.Run
import NvmeSnsd.Switch.Checks
import NvmeSnsd.Lib.PackedTlv
import NvmeSnsd.Reg.Lldp
import NvmeSnsd.Reg.LldpSpec
import NvmeSnsd.Switch.Held
import NvmeSnsd.Switch.PortId
import NvmeSnsd.Switch.Polled
import NvmeSnsd.Switch.Refs
import NvmeSnsd.Switch.Quarantine
import NvmeSnsd.Switch.VlanChange
import NvmeSnsd.Lib.Names
import NvmeSnsd.ConnNvme.Call
import NvmeSnsd.ConnNvme.Recheck
import NvmeSnsd.Lib.Assigned
import NvmeSnsd.ConnPeon.Ownership
import NvmeSnsd.ConnPeon.Walk
import NvmeSnsd.ConnPeon.Rounds
import NvmeSnsd.ConnPeon.Progress
import NvmeSnsd.ConnPeon.Timing
import NvmeSnsd.Server.Pipeline
import NvmeSnsd.ConnNvme.Disconnect
import NvmeSnsd.ConnNvme.Unique
import NvmeSnsd.Lib.Latch
import NvmeSnsd.Server.Shutdown
import NvmeSnsd.Direct.Handle
import NvmeSnsd.Direct.Trsvcid
