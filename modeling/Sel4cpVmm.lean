import Sel4cpVmm.Lib.Program
import Sel4cpVmm.Model.Types
import Sel4cpVmm.Model.Dist
import Sel4cpVmm.Model.Virq
import Sel4cpVmm.Model.Inject
import Sel4cpVmm.Model.Fault
import Sel4cpVmm.Model.VDist
import Sel4cpVmm.Model.Redist
import Sel4cpVmm.Model.VGic
import Sel4cpVmm.Model.Smc
import Sel4cpVmm.Model.Vmm
import Sel4cpVmm.Lib.Ring
import Sel4cpVmm.Lib.SlotQueue
import Sel4cpVmm.Lib.Latch
import Sel4cpVmm.Model.System
import Sel4cpVmm.Lib.Bits
import Sel4cpVmm.Proofs.Bitmap
import Sel4cpVmm.Proofs.View
import Sel4cpVmm.Proofs.Injection
import Sel4cpVmm.Proofs.Access
import Sel4cpVmm.Proofs.Operations
import Sel4cpVmm.Proofs.Limits
import Sel4cpVmm.Proofs.Does
import Sel4cpVmm.Proofs.Trace
import Sel4cpVmm.Properties.Maintenance
import Sel4cpVmm.Proofs.Guest
import Sel4cpVmm.Proofs.Reentrant
import Sel4cpVmm.Proofs.Residents
import Sel4cpVmm.Properties.PendingResident
import Sel4cpVmm.Properties.Conservation
import Sel4cpVmm.Properties.PpiMask
import Sel4cpVmm.Properties.SpiMask
import Sel4cpVmm.Properties.NestedInjection
import Sel4cpVmm.Properties.BitmapAccess
import Sel4cpVmm.Properties.Resumption
import Sel4cpVmm.Proofs.DistRuns
import Sel4cpVmm.Properties.SgiEnable
import Sel4cpVmm.Properties.UnregisteredInjection
import Sel4cpVmm.Properties.SgiTargets
import Sel4cpVmm.Properties.ZeroRegister
import Sel4cpVmm.Proofs.Loads
import Sel4cpVmm.Properties.LoadedValue
import Sel4cpVmm.Proofs.EnableWrites
import Sel4cpVmm.Proofs.BitmapWrites
import Sel4cpVmm.Properties.LocalFrames
import Sel4cpVmm.Properties.RegisterViews
import Sel4cpVmm.Properties.SingleStep
import Sel4cpVmm.Lib.SlotTable
import Sel4cpVmm.Proofs.Registration
import Sel4cpVmm.Properties.RegistrationMap
import Sel4cpVmm.Properties.QueueCapacity
import Sel4cpVmm.Proofs.Callbacks
import Sel4cpVmm.Properties.AckMoments
import Sel4cpVmm.Properties.Withdrawal
import Sel4cpVmm.Properties.QueueRefinement
import Sel4cpVmm.Properties.FaultRouting
import Sel4cpVmm.Properties.SmcDecoding
import Sel4cpVmm.Lib.ByteMemory
import Sel4cpVmm.Properties.GroupMemory
import Sel4cpVmm.Properties.ActiveRegisters
import Sel4cpVmm.Properties.RefusalTraces
import Sel4cpVmm.Properties.SubWordReads
import Sel4cpVmm.Properties.WriteOneLanes
import Sel4cpVmm.Properties.StoredBytes
import Sel4cpVmm.Lib.AddressRange
import Sel4cpVmm.Model.Boot
import Sel4cpVmm.Properties.BootImages
import Sel4cpVmm.Properties.FewInterrupts
import Sel4cpVmm.Properties.BootedSystem
import Sel4cpVmm.Lib.Controller
import Sel4cpVmm.Properties.ControllerRefinement
import Sel4cpVmm.Properties.ControllerRuns
import Sel4cpVmm.Lib.StopCondition
import Sel4cpVmm.Properties.StopConditions
import Sel4cpVmm.Properties.BootedRuns
import Sel4cpVmm.Properties.SerialMask
import Sel4cpVmm.Properties.ListRegisters
import Sel4cpVmm.Properties.FixedRegisters
import Sel4cpVmm.Properties.TableSafety
import Sel4cpVmm.Lib.Locality
import Sel4cpVmm.Proofs.MapEnd
import Sel4cpVmm.Properties.MapBounds
import Sel4cpVmm.Lib.Locality
import Sel4cpVmm.Proofs.MapEnd
import Sel4cpVmm.Properties.MapBounds
