import Embarc.Proofs.SetupTables
import Embarc.Proofs.FaultRecovery
import Embarc.Proofs.MpuEncoding
import Embarc.Proofs.Privilege
import Embarc.Proofs.EzSio
import Embarc.Proofs.FlashObj
import Embarc.Proofs.Chained
import Embarc.Proofs.Udma
import Embarc.Proofs.IicAbort
import Embarc.Proofs.CloseAbort
import Embarc.Proofs.SsIicTarget
import Embarc.Proofs.I2cSlaveServed
import Embarc.Proofs.SpiSlaveArmed
import Embarc.Proofs.SsSpiOnce
import Embarc.Proofs.SsSpiSelect
import Embarc.Proofs.SsSpiPolling
import Embarc.Proofs.SsIicBlocking
import Embarc.Proofs.OpenCounts
import Embarc.Proofs.SdioData
import Embarc.Proofs.SdioCards
import Embarc.Proofs.GpioPort
import Embarc.Proofs.CpuLock
import Embarc.Proofs.StackPointers
import Embarc.Proofs.MpuLookup
import Embarc.Proofs.SpiIsrDivides
import Embarc.Proofs.UartReceive
import Embarc.Proofs.IicTiming
import Embarc.Proofs.IicSlaveEvents
import Embarc.Proofs.UdmaChain
import Embarc.Proofs.UdmaDesc
import Embarc.Proofs.IicTransmit
import Embarc.Proofs.SsSpiRejected
import Embarc.Proofs.SsUartRoom
import Embarc.Proofs.Mrf24j40
import Embarc.Proofs.RegTransfer
import Embarc.Proofs.Ad7991
