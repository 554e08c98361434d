import ExtConn.World

namespace ExtConn
open Effects ByteMemory

def issue (o : Op) : Code o.Answer := Prog.issue (S := signature) o

-- The answer type is not indexed: at a concrete operation it has been computed.
@[simp] theorem issue_bind (o : Op) (f : o.Answer → Code β) :
    @Prog.bind signature (no_index o.Answer) β (issue o) f = .op o f := rfl

-- Two C idioms used throughout: a local variable overwritten by the bytes that
-- arrived for it, and a 32-bit value laid out in memory.
def overlay (old : UInt32) (bytes : List UInt8) : UInt32 :=
  UInt32.ofNat (leNat (bytes.take 4 ++ (leBytes 4 old.toNat).drop bytes.length))

def le32 (value : UInt32) : List UInt8 := leBytes 4 value.toNat

theorem le32_length (x : UInt32) : (le32 x).length = 4 := leBytes_length 4 _

theorem leNat_le32 (x : UInt32) : leNat (le32 x) = x.toNat := by
  rw [le32,leNat_leBytes]
  exact Nat.mod_eq_of_lt x.toNat_lt

theorem ofNat_le32 (x : UInt32) : UInt32.ofNat (leNat (le32 x)) = x := by
  rw [leNat_le32]
  exact UInt32.ofNat_toNat

def load32 (p : Ptr) : Code UInt32 := do
  let bytes ← issue (.load p 4)
  return UInt32.ofNat (leNat bytes)

def incrementFor (function : UInt32) : Bool := function = extConnWifiSdioFunc

-- `while (size > 0)`: at most the aligned part and then the last 1 to 3 bytes.
-- The fuel is the size itself, of which every iteration takes at least one.
def readBytesLoop (function : UInt32) (arg : Cmd53Arg) :
    Nat → UInt32 → Dst → UInt32 → List UInt8 → Code (EspErr × List UInt8)
  | 0,_,_,_,got => return (.ok,got)
  | fuel+1,addr,pcDst,size,got =>
    if size > 0 then do
      let sizeAligned := size &&& ~~~3
      let willTransfer := if sizeAligned > 0 then sizeAligned else size
      let (err,bytes) ← issue (.sdmmcIoRead function addr arg pcDst willTransfer)
      if err ≠ .ok then return (err,got ++ bytes)
      readBytesLoop function arg fuel (addr + willTransfer) (pcDst.add willTransfer.toNat)
        (size - willTransfer) (got ++ bytes)
    else return (.ok,got)

def extconnSdioReadBytes (function addr : UInt32) (dst : Dst) (size : UInt32) : Code (EspErr × List UInt8) :=
  readBytesLoop function {increment := incrementFor function} size.toNat addr dst size []

def writeBytesLoop (function : UInt32) (arg : Cmd53Arg) : Nat → UInt32 → Src → UInt32 → Code EspErr
  | 0,_,_,_ => return .ok
  | fuel+1,addr,pcSrc,size =>
    if size > 0 then do
      let sizeAligned := size &&& ~~~3
      let willTransfer := if sizeAligned > 0 then sizeAligned else size
      let err ← issue (.sdmmcIoWrite function addr arg pcSrc willTransfer)
      if err ≠ .ok then return err
      writeBytesLoop function arg fuel (addr + willTransfer) (pcSrc.add willTransfer.toNat) (size - willTransfer)
    else return .ok

def extconnSdioWriteBytes (function addr : UInt32) (src : Src) (size : UInt32) : Code EspErr :=
  writeBytesLoop function {increment := incrementFor function} size.toNat addr src size

def extconnSdioReadBlocks (function addr : UInt32) (dst : Dst) (size : UInt32) : Code EspErr := do
  if size % 4 ≠ 0 then return .invalidSize
  let (err,_) ← issue (.sdmmcIoRead function addr {blockMode := true,increment := incrementFor function} dst size)
  return err

def extconnSdioWriteBlocks (function addr : UInt32) (src : Src) (size : UInt32) : Code EspErr := do
  if size % 4 ≠ 0 then return .invalidSize
  issue (.sdmmcIoWrite function addr {blockMode := true,increment := incrementFor function} src size)

def espExtconnSdioGetBufferSize : Code (EspErr × Option UInt32) := do
  let (ret,bytes) ← extconnSdioReadBytes 1 espSdioTokenRdata .reg 4
  if ret ≠ .ok then return (ret,none)
  let len := overlay 0 bytes
  let len := (len >>> espSdioSendOffset) &&& txBufferMask
  let host ← issue .hostGet
  let len := (len + txBufferMax - host.totalTx) % txBufferMax
  issue (.note (.bufferSize len))
  return (ret,some len)

def espExtconnSdioGetRxDataSize (function : UInt32) : Code (EspErr × Option UInt32) := do
  let addr := if function = extConnBtSdioFunc then espSdioSlc1HostPf else espSdioPktLen
  let (err,bytes) ← extconnSdioReadBytes 1 addr .reg 4
  if err ≠ .ok then return (err,none)
  let len := overlay 0 bytes
  if function = extConnBtSdioFunc then
    -- `pf[1] << 16 | pf[2] << 8 | pf[3]` of the little-endian bytes of `len`
    let pf (i : Nat) : UInt32 := UInt32.ofNat ((le32 len).getD i 0).toNat
    return (.ok,some (((pf 1 <<< 16) ||| (pf 2 <<< 8) ||| pf 3) &&& 0xffffff))
  else
    let len := len &&& rxByteMask
    let host ← issue .hostGet
    let len := (len + rxByteMax - host.totalRx) % rxByteMax
    return (.ok,some len)

-- `for (;;)` of `get_packet` up to its `break`; at most `wait_ms` polls, and
-- one when `wait_ms` is zero, so the fuel never runs out first.
def getPacketWait (function waitMs : UInt32) : Nat → UInt32 → Code (EspErr × UInt32)
  | 0,_ => return (.timeout,0)
  | fuel+1,waitTime => do
    let (err,size) ← espExtconnSdioGetRxDataSize function
    let len := size.getD 0
    if err = .ok ∧ len > 0 then return (.ok,len)
    if err ≠ .ok then return (err,len)
    let waitTime := waitTime + 1
    if waitTime ≥ waitMs then return (.timeout,len)
    issue (.taskDelay 1)
    getPacketWait function waitMs fuel waitTime

def chunkAddr (function lenRemain : UInt32) : UInt32 :=
  if function = extConnWifiSdioFunc then espSlaveCmd53EndAddr - lenRemain else 0

-- The `do … while (len_remain != 0)` of `get_packet`; the address is computed
-- anew from the remaining length in every iteration.
def getPacketChunks (function : UInt32) : Nat → Ptr → UInt32 → Code EspErr
  | 0,_,_ => return .fail
  | fuel+1,startPtr,lenRemain => do
    let blockSize : UInt32 := 512
    let blockN := lenRemain / blockSize
    let addr := chunkAddr function lenRemain
    let lenToSend := if blockN ≠ 0 then blockN * blockSize else lenRemain
    let err ←
      if blockN ≠ 0 then extconnSdioReadBlocks function addr (.mem startPtr) lenToSend
      else do
        let (err,_) ← extconnSdioReadBytes function addr (.mem startPtr) ((lenToSend + 3) &&& ~~~3)
        pure err
    if err ≠ .ok then return err
    let lenRemain := lenRemain - lenToSend
    if lenRemain ≠ 0 then getPacketChunks function fuel (startPtr.add lenToSend.toNat) lenRemain
    else return .ok

-- The second component is what was stored through `out_length`, if anything.
def espExtconnSdioGetPacket (function : UInt32) (outBuf : Ptr) (size waitMs : UInt32) :
    Code (EspErr × Option UInt32) := do
  if ¬ size > 0 then return (.invalidArg,none)
  let (err,len) ← getPacketWait function waitMs (waitMs.toNat + 1) 0
  if err ≠ .ok then return (err,none)
  -- here `err` becomes ESP_ERR_NOT_FINISHED, which the first chunk overwrites
  let len := if len > size then size else len
  let err ← getPacketChunks function (len.toNat + 1) outBuf len
  if err ≠ .ok then return (err,none)
  if function ≠ extConnBtSdioFunc then
    let host ← issue .hostGet
    issue (.hostSet (.totalRx (host.totalRx + len)))
  return (.ok,some len)

-- The loop of `send_packet`; here the address is a parameter of the whole loop.
def sendPacketChunks (function addr : UInt32) : Nat → Ptr → UInt32 → Code EspErr
  | 0,_,_ => return .fail
  | fuel+1,startPtr,lenRemain => do
    let blockSize : UInt32 := 512
    let blockN := lenRemain / blockSize
    let lenToSend := if blockN ≠ 0 then blockN * blockSize else lenRemain
    let err ←
      if blockN ≠ 0 then extconnSdioWriteBlocks function addr (.mem startPtr) lenToSend
      else extconnSdioWriteBytes function addr (.mem startPtr) ((lenToSend + 3) &&& ~~~3)
    if err ≠ .ok then return err
    let lenRemain := lenRemain - lenToSend
    if lenRemain ≠ 0 then sendPacketChunks function addr fuel (startPtr.add lenToSend.toNat) lenRemain
    else return .ok

def buffersUsed (length : UInt32) : UInt32 := (length + 512 - 1) / 512

def espExtconnSdioSendPacket (function : UInt32) (start : Ptr) (length : UInt32) : Code EspErr := do
  issue (.note (.sendPacket function start length))
  let bufferUsed := buffersUsed length
  let addr := chunkAddr function length
  let err ← sendPacketChunks function addr (length.toNat + 1) start length
  if err ≠ .ok then return err
  if function ≠ extConnBtSdioFunc then
    let host ← issue .hostGet
    issue (.hostSet (.totalTx (host.totalTx + bufferUsed)))
    let host ← issue .hostGet
    if host.totalTx ≥ txBufferMax then
      issue (.hostSet (.totalTx (host.totalTx - txBufferMax)))
  issue (.note (.packetSent function length))
  return .ok

def espExtconnSdioClearIntr (intr0 intr1 : UInt32) : Code EspErr := do
  if intr0 = 0 ∧ intr1 = 0 then return .ok
  if intr0 ≠ 0 then
    let r ← extconnSdioWriteBytes 1 espSdioSlc0IntClr (.reg (le32 intr0)) 4
    if r ≠ .ok then return r
  if intr1 ≠ 0 then
    let r ← extconnSdioWriteBytes 1 espSdioSlc1IntClr (.reg (le32 intr1)) 4
    if r ≠ .ok then return r
  return .ok

-- Both pointers may be NULL (`none`); otherwise they carry the value of the
-- variable they point to, before the call and after it.
def espExtconnSdioGetIntr (intrRaw intrSt : Option UInt32) : Code (EspErr × Option UInt32 × Option UInt32) := do
  if intrRaw = none ∧ intrSt = none then return (.invalidArg,intrRaw,intrSt)
  let (r,intrRaw) ← match intrRaw with
    | none => pure (EspErr.ok,none)
    | some old => do
      let (r,bytes) ← extconnSdioReadBytes 1 espSdioIntRaw .reg 4
      pure (r,some (overlay old bytes))
  if r ≠ .ok then return (r,intrRaw,intrSt)
  let (r,intrSt) ← match intrSt with
    | none => pure (EspErr.ok,none)
    | some old => do
      let (r,bytes) ← extconnSdioReadBytes 1 espSdioIntRaw1 .reg 4
      pure (r,some (overlay old bytes))
  if r ≠ .ok then return (r,intrRaw,intrSt)
  return (.ok,intrRaw,intrSt)

def espExtconnSdioWaitInt (wait : Option UInt32) : Code EspErr := issue (.sdmmcIoWaitInt wait)

def espExtconnSdioReadBytes (function addr : UInt32) (dst : Dst) (size : UInt32) : Code (EspErr × List UInt8) :=
  extconnSdioReadBytes function addr dst size

def espExtconnSdioWriteBytes (function addr : UInt32) (src : Src) (size : UInt32) : Code EspErr :=
  extconnSdioWriteBytes function addr src size

-- trans_recv.c: functions 1 and 2 share the bus, so every transaction of a
-- running task is bracketed by these two.
def espExtconnSdioLock : Code Unit := do
  let _ ← issue (.semTake .sdioMutex none)

def espExtconnSdioUnlock : Code Unit := issue (.semGive .sdioMutex)

end ExtConn
