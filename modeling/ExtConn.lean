import ExtConn.Effects
import ExtConn.Interleaving
import ExtConn.ByteMemory
import ExtConn.Words
import ExtConn.AllocationLedger
import ExtConn.TwoRuns
import ExtConn.Registers
import ExtConn.WifiTxList
import ExtConn.World
import ExtConn.SdioAdapter
import ExtConn.EspSip
import ExtConn.Transport
import ExtConn.Transfers
import ExtConn.RxStream
import ExtConn.ReceiveSessions
import ExtConn.Footprint
import ExtConn.TransmitChunks
import ExtConn.LinkedChain
import ExtConn.TxDeque
import ExtConn.ReceiveBuffer
import ExtConn.ReceiveBounds
import ExtConn.ReceiveDispatch
import ExtConn.System
import ExtConn.FlowControl
import ExtConn.BusLock
import ExtConn.SendToken
import ExtConn.BootSemaphore
import ExtConn.BootHandshake
import ExtConn.BootOrder
import ExtConn.WifiWakeUp
import ExtConn.WifiBuffers
import ExtConn.ReceiveNotice
import ExtConn.Sequential
import ExtConn.SdioLink
import ExtConn.RegisterWindow
import ExtConn.ExtBoot
import ExtConn.FirmwareDownload
import ExtConn.TruncatedRead
import ExtConn.RejectedBuffer
import ExtConn.ConfiguredLink
import ExtConn.TransferBounds
import ExtConn.WifiPacket
import ExtConn.BlockRounding
import ExtConn.MemoryPackets
import ExtConn.WifiIteration
import ExtConn.SendBufferBounds
import ExtConn.SequenceNumbers
import ExtConn.WifiFraming
import ExtConn.CommandLengths
import ExtConn.PacketCommands
import ExtConn.BluetoothPayloads
import ExtConn.FailedCommands
import ExtConn.AdapterInit
import ExtConn.OldContents
import ExtConn.OldPadding
import ExtConn.Custody
import ExtConn.BlockAccess
import ExtConn.HeapBooks
import ExtConn.BufferCustody
import ExtConn.HeapOwnership
import ExtConn.CriticalSections
import ExtConn.LockSections
import ExtConn.Layers
import ExtConn.HeapWatch
import ExtConn.BtStream
import ExtConn.Nesting
import ExtConn.Startup
import ExtConn.StartOrder
import ExtConn.StartStages
