import Silo.Netd.Credentials
import Silo.Ext4.CrashSafety
import Silo.Ext4.ReadFile
import Silo.Ext4.DirBlocks
import Silo.Ext4.BlockCount
import Silo.Ext4.FlexLayout
import Silo.Ext4.LinkLimit
import Silo.Ext4.HardLinkPaths
import Silo.Secrets.Grant
import Silo.Secrets.Transactions
import Silo.Vmm.EpochLimit
import Silo.Vmm.ControlLine
import Silo.Vmm.Publication
import Silo.Vmm.EventStream
import Silo.Vmm.ForwardTable
import Silo.Netd.RawAddress
import Silo.Netd.Packets
import Silo.Netd.Sniffing
import Silo.Taild.Quota
import Silo.Taild.Isolation
import Silo.Taild.ShutdownGate
import Silo.Netnode.Names
import Silo.Netnode.Admission
import Silo.Netnode.Observation
import Silo.Libvm.LockExclusion
import Silo.Libvm.RunScope
import Silo.Libvm.MonitorIdentity
import Silo.Libvm.StartAgain
import Silo.Libvm.FailedStart
import Silo.Libvm.LogTail
import Silo.Policy.SecretSlots
import Silo.Policy.Refused
import Silo.Oci.LayerDownloads
import Silo.Agent.Reaping
import Silo.Portd.Relay
