import Edk2Nvidia.Flash.Memory
import Edk2Nvidia.Parse.Packed
import Edk2Nvidia.Flash.Slots
import Edk2Nvidia.Flash.Program
import Edk2Nvidia.NorFlash
import Edk2Nvidia.SequentialRecord.Crc8
import Edk2Nvidia.SequentialRecord.Storage
import Edk2Nvidia.SequentialRecord.Scan
import Edk2Nvidia.SequentialRecord.Log
import Edk2Nvidia.SequentialRecord.Access
import Edk2Nvidia.SequentialRecord.History
import Edk2Nvidia.SequentialRecord.CrashSafety
import Edk2Nvidia.VarInt.Update
import Edk2Nvidia.VarInt.History
import Edk2Nvidia.VarInt.CrashSafety
import Edk2Nvidia.VarInt.MigrationSafety
import Edk2Nvidia.Parse.Reader
import Edk2Nvidia.Pldm.Package
import Edk2Nvidia.Pldm.PackageSafety
import Edk2Nvidia.Pldm.PackageCheck
import Edk2Nvidia.Pldm.ProtocolOrder
import Edk2Nvidia.Pldm.Machine
import Edk2Nvidia.Pldm.Iteration
import Edk2Nvidia.Pldm.DataService
import Edk2Nvidia.Pldm.Responses
import Edk2Nvidia.Segment.Assembly
import Edk2Nvidia.ErotQspi.Transfer
import Edk2Nvidia.DeviceTree.RoundTrip
import Edk2Nvidia.IpmiBlob.Exchange
import Edk2Nvidia.IpmiBlob.Faithful
import Edk2Nvidia.Rootfs.Failover
import Edk2Nvidia.BootOrder.History
import Edk2Nvidia.BrBct.Safety
import Edk2Nvidia.Parse.Checked
import Edk2Nvidia.Flash.Faults
import Edk2Nvidia.SequentialRecord.Blocks
import Edk2Nvidia.SequentialRecord.Acknowledge
import Edk2Nvidia.Threading.Conservation
import Edk2Nvidia.AndroidBcb.Agreement
import Edk2Nvidia.Erst.ReadHonesty
import Edk2Nvidia.SequentialRecord.Scanning
import Edk2Nvidia.SequentialRecord.Confined
import Edk2Nvidia.Erot.Broadcast
import Edk2Nvidia.ErotQspi.ReadBack
import Edk2Nvidia.Erst.Relocation
import Edk2Nvidia.VarInt.WriteSlot
import Edk2Nvidia.VarInt.Bootstrap
import Edk2Nvidia.VarMeasure.Canonical
import Edk2Nvidia.MpCoreInfo.Agreement
import Edk2Nvidia.BootOrder.ReorderLaw
import Edk2Nvidia.Parse.ShiftRegister
import Edk2Nvidia.IpmiBlob.Receiving
import Edk2Nvidia.Transition.Iterate
import Edk2Nvidia.Fru.Inventory
import Edk2Nvidia.Fru.Bounded
import Edk2Nvidia.FwPackage.Selection
import Edk2Nvidia.FwPackage.SelectionLaw
import Edk2Nvidia.SequentialRecord.CmetStorage
import Edk2Nvidia.SequentialRecord.CmetSafety
import Edk2Nvidia.BootOrder.DefaultPriority
import Edk2Nvidia.BootOrder.DefaultPriorityLaw
import Edk2Nvidia.FwImage.ReadBeforeWrite
import Edk2Nvidia.FwImage.SkipLaw
import Edk2Nvidia.FwPartition.Gpt
import Edk2Nvidia.FwPartition.GptLaw
import Edk2Nvidia.Fru.Area
import Edk2Nvidia.Fru.AreaLaw
import Edk2Nvidia.Wildcard.Language
import Edk2Nvidia.DtHelper.Compatible
import Edk2Nvidia.Cursor.Enumerate
import Edk2Nvidia.DtHelper.Tree
import Edk2Nvidia.DtHelper.Enumeration
import Edk2Nvidia.AndroidBcb.MiscCommand
import Edk2Nvidia.AndroidBcb.MiscCommandLaw
import Edk2Nvidia.Nct.Items
import Edk2Nvidia.Nct.ItemsLaw
import Edk2Nvidia.Keyed.Table
import Edk2Nvidia.FwImage.Assembly
import Edk2Nvidia.FwImage.AssemblyLaw
import Edk2Nvidia.FloorSweep.IpEntry
import Edk2Nvidia.FloorSweep.IpEntryLaw
import Edk2Nvidia.Chunk.Layout
import Edk2Nvidia.DtHelper.CellEntries
import Edk2Nvidia.DtHelper.CellEntriesLaw
import Edk2Nvidia.DtHelper.CellListing
import Edk2Nvidia.Chain.Follow
import Edk2Nvidia.DtHelper.References
import Edk2Nvidia.DtHelper.ReferencesLaw
import Edk2Nvidia.FloorSweep.Thermal
import Edk2Nvidia.FloorSweep.ThermalLaw
import Edk2Nvidia.DtHelper.Interrupts
import Edk2Nvidia.DtHelper.InterruptsLaw
import Edk2Nvidia.DtHelper.RangesLaw
import Edk2Nvidia.BootChainInfo.PartitionName
import Edk2Nvidia.BootChainInfo.PartitionNameLaw
import Edk2Nvidia.AndroidBoot.BootConfig
import Edk2Nvidia.AndroidBoot.BootConfigLaw
import Edk2Nvidia.SequentialRecord.DeleteVariables
import Edk2Nvidia.SequentialRecord.DeleteVariablesLaw
import Edk2Nvidia.Wildcard.Search
import Edk2Nvidia.AndroidBoot.BootArgs
import Edk2Nvidia.AndroidBoot.BootArgsLaw
import Edk2Nvidia.AndroidBoot.DtboImage
import Edk2Nvidia.AndroidBoot.DtboLaw
import Edk2Nvidia.BootChain.ExecuteUpdate
import Edk2Nvidia.BootChain.Independence
import Edk2Nvidia.Erst.Contents
import Edk2Nvidia.Erst.Reclaiming
import Edk2Nvidia.Erst.Adding
import Edk2Nvidia.Erst.Store
import Edk2Nvidia.Erst.Requests
import Edk2Nvidia.Erst.Refinement
import Edk2Nvidia.Erst.Starting
import Edk2Nvidia.Erst.Allocation
import Edk2Nvidia.Erst.Service
import Edk2Nvidia.Erst.Lifetime
import Edk2Nvidia.Erst.Enumeration
import Edk2Nvidia.Fmp.Completion
import Edk2Nvidia.Fmp.MinimalUpdate
import Edk2Nvidia.Fvb.Block
import Edk2Nvidia.Fvb.Coherence
import Edk2Nvidia.Fvb.Runs
