import MochiVM.Manager.Fat
import MochiVM.Lib.Layout
import MochiVM.Manager.FatLayout
import MochiVM.Lib.Chain
import MochiVM.Manager.FatReader
import MochiVM.Manager.FatAlloc
import MochiVM.Manager.FatCapacity
import MochiVM.Hv.Machine
import MochiVM.Hv.Vmcs
import MochiVM.Hv.WriteState
import MochiVM.Hv.Init
import MochiVM.Hv.BringUp
import MochiVM.Hv.Setup
import MochiVM.Hv.FeatureControl
import MochiVM.Hv.ExitHandler
import MochiVM.Hv.VmcsFields
import MochiVM.Hv.HostEntry
import MochiVM.Hv.ExitLoop
import MochiVM.Hv.PanicPath
import MochiVM.Hv.SetupVia
import MochiVM.Hv.Controls
import MochiVM.Hv.ControlRegs
import MochiVM.Hv.Efi
import MochiVM.Hv.Memory
import MochiVM.Hv.TssBase
import MochiVM.Hv.Transparency
import MochiVM.Hv.Sdm
import MochiVM.Hv.SdmSetup
import MochiVM.Lib.Pipeline
import MochiVM.Lib.Fair
import MochiVM.Lib.Uart
import MochiVM.Lib.Utf8
import MochiVM.Hv.Serial
import MochiVM.Manager.Vm
import MochiVM.Manager.VmMethods
import MochiVM.Lib.Options
import MochiVM.Manager.DriveOpts
import MochiVM.Manager.VmOwnership
import MochiVM.Manager.VmLog
import MochiVM.Manager.FatInfo
import MochiVM.Manager.FatClusters
import MochiVM.Manager.AppLog
import MochiVM.Manager.App
import MochiVM.Manager.AppRuns
import MochiVM.Manager.Selection
import MochiVM.Manager.RunningMark
import MochiVM.Manager.LossySplit
import MochiVM.Manager.SelfTest
import MochiVM.Manager.Ovmf
import MochiVM.Manager.SerialText
import MochiVM.Hv.Effects
import MochiVM.Lib.Text
import MochiVM.Manager.BootConsole
import MochiVM.Hv.Protocol
import MochiVM.Hv.Faults
import MochiVM.Hv.Guest
import MochiVM.Hv.Footprint
import MochiVM.Manager.SelfTestRun
import MochiVM.Manager.AppConsole
import MochiVM.Manager.EngineDisk
import MochiVM.Manager.AppEngines
import MochiVM.Manager.Firmware
