import ExtConn.EspSip

namespace ExtConn
open Effects ByteMemory

-- ext_sdio_adapter.c, from the card to a configured link.

def sizeofSdioHost : UInt32 := 12

-- `while (err == ESP_ERR_INVALID_RESPONSE)` waits for somebody to restart the
-- slave; nothing is returned where the iterations given do not suffice.
def goIdleLoop : Nat → Code (Option EspErr)
  | 0 => return none
  | retries+1 => do
    let err ← issue .sdmmcSendCmdGoIdleState
    if err = .invalidResponse then
      issue (.taskDelay 1000)
      goIdleLoop retries
    else return some err

-- The block size of the function whose registers begin at `offset`: read,
-- written and read back, with every result ignored.
def setBlockSize (offset : UInt32) : Code Unit := do
  let bs : UInt16 := 512
  let _ ← issue (.sdmmcIoReadByte 0 (offset + sdIoCccrBlksizel))
  let _ ← issue (.sdmmcIoReadByte 0 (offset + sdIoCccrBlksizeh))
  let _ ← issue (.sdmmcIoWriteByte 0 (offset + sdIoCccrBlksizel) bs.toUInt8)
  let _ ← issue (.sdmmcIoWriteByte 0 (offset + sdIoCccrBlksizeh) (bs >>> 8).toUInt8)
  let _ ← issue (.sdmmcIoReadByte 0 (offset + sdIoCccrBlksizel))
  let _ ← issue (.sdmmcIoReadByte 0 (offset + sdIoCccrBlksizeh))

def sdioStartConfigure : Code EspErr := do
  let ioe : UInt8 := 0 ||| (bit 1 ||| bit 2).toUInt8
  let (err,_) ← issue (.sdmmcIoWriteByte 0 sdIoCccrFnEnable ioe)
  if err ≠ .ok then return err
  let ie : UInt8 := 0 ||| (bit 0 ||| bit 1 ||| bit 2).toUInt8
  let (err,_) ← issue (.sdmmcIoWriteByte 0 sdIoCccrIntEnable ie)
  if err ≠ .ok then return err
  let (err,busWidth) ← issue (.sdmmcIoReadByte 0 sdIoCccrBusWidth)
  if err ≠ .ok then return err
  let (err,_) ← issue (.sdmmcIoWriteByte 0 sdIoCccrBusWidth (busWidth ||| cccrBusWidthEcsi))
  if err ≠ .ok then return err
  setBlockSize 0x100
  setBlockSize 0x200
  return .ok

def espExtconnSdioStart (retries : Nat) : Code (Option EspErr) := do
  let some err ← goIdleLoop retries | return none
  if err ≠ .ok then return some err
  let err ← sdioStartConfigure
  return some err

def maxRetry : Nat := 1

-- The `do … while` of `read_reg_window`.
def readRegWindowLoop (tbuf : Ptr) : Nat → Code EspErr
  | 0 => return .fail
  | retry+1 => do
    if retry + 1 < maxRetry then issue (.taskDelay 10)
    let (ret,_) ← extconnSdioReadBytes 1 espSdioStateW0 (.mem tbuf) 4
    if retry > 0 ∧ ret ≠ .ok then readRegWindowLoop tbuf retry else return ret

def espExtconnSdioReadRegWindow (regAddr : UInt32) (value : Ptr) : Code EspErr := do
  let regAddr := regAddr >>> 2
  if ¬ regAddr ≤ 0x7f then return .invalidArg
  let some tbuf ← issue (.malloc 4) | return .noMem
  issue (.store tbuf [(regAddr &&& 0x7f).toUInt8])
  issue (.store (tbuf.add 1) [0x80])
  let ret ← extconnSdioWriteBytes 1 espSdioWinCmd (.mem tbuf) 4
  let ret ← if ret = .ok then readRegWindowLoop tbuf maxRetry else pure ret
  if ret = .ok then memcpy value tbuf 4
  issue (.free tbuf)
  return ret

def espExtconnSdioWriteRegWindow (regAddr : UInt32) (value : Ptr) : Code EspErr := do
  let regAddr := regAddr >>> 2
  if ¬ regAddr ≤ 0x7f then return .invalidArg
  let some tbuf ← issue (.malloc 4) | return .noMem
  memcpy tbuf value 4
  issue (.store (tbuf.add 4) [(regAddr &&& 0x7f).toUInt8])
  issue (.store (tbuf.add 5) [0xc0])
  let ret ← extconnSdioWriteBytes 1 espSdioConfigW5 (.mem tbuf) 8
  issue (.free tbuf)
  return ret

-- `*p |= bits`
def orInto (p : Ptr) (bits : UInt32) : Code Unit := do
  let value ← load32 p
  issue (.store p (le32 (value ||| bits)))

def enableTargetInterrupt (tbuf : Ptr) : Code EspErr := do
  let some val ← issue (.malloc 4) | return .noMem
  let _ ← extconnSdioReadBytes 1 espSdioFunc1IntEna (.mem val) 4
  orInto val slchostFn1GpioSdioIntEna
  let _ ← extconnSdioWriteBytes 1 espSdioFunc1IntEna (.mem val) 4
  issue (.free tbuf)
  issue (.free val)
  return .ok

-- One register of the window: changed and read back.
def setWindowBits (regAddr : UInt32) (tbuf : Ptr) (bits : UInt32) : Code EspErr := do
  orInto tbuf bits
  let err ← espExtconnSdioWriteRegWindow regAddr tbuf
  if err ≠ .ok then return .fail
  let err ← espExtconnSdioReadRegWindow regAddr tbuf
  if err ≠ .ok then return .fail
  return .ok

def espExtconnSdioInitSlaveLink : Code EspErr := do
  let some tbuf ← issue (.malloc 4) | return .noMem
  let err ← espExtconnSdioReadRegWindow espSlcConf1Reg tbuf
  if err ≠ .ok then return err
  let err ← setWindowBits espSlcConf1Reg tbuf (slcSlc0RxStitchEn ||| slcSlc0TxStitchEn)
  if err ≠ .ok then return err
  let err ← espExtconnSdioReadRegWindow espSlc0LenConfReg tbuf
  if err ≠ .ok then return .fail
  let err ← setWindowBits espSlc0LenConfReg tbuf slcSlc0TxPacketLoadEn
  if err ≠ .ok then return err
  enableTargetInterrupt tbuf

-- `initialised` is whether the static pointer `host` is set already.
def espExtconnSdioInit (initialised : Bool) (retries : Nat) : Code (Option EspErr) := do
  if initialised then return some .invalidState
  let some _ ← issue (.calloc sizeofSdioHost) | return some .noMem
  let some ret ← espExtconnSdioStart retries | return none
  if ret ≠ .ok then return some ret
  let ret ← espExtconnSdioInitSlaveLink
  return some ret

end ExtConn
