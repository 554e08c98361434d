import ExtConn.EspSip

namespace ExtConn
open Effects ByteMemory

-- The locals of `wifi_send_task` that are live inside its credit poll.
structure WifiLocals where
  sendBuf : Ptr
  actualSize : UInt32
  eb : EbPtr
  sendLen : UInt32
  deriving DecidableEq

-- The loop heads of the tasks, with the variables live there. `returned` is a
-- task function that has returned or deleted itself, `aborted` a call of abort.
inductive Label where
  | transRecvTask
  | wifiSendTask
  | wifiSendLoop (sendBuf : Ptr) (actualSize : UInt32)
  | wifiSendPoll (l : WifiLocals)
  | btTxTask (txSeq : UInt32)
  | espSipBootup (entryAddr : UInt32)
  | btHost
  | wifiStack
  | returned
  | aborted
  deriving DecidableEq

-- `recv_buf`, allocated once by `esp_extconn_trans_recv_init`.
def recvBuf : Ptr := ⟨0,0⟩

-- trans_bt.c

def sizeofSbpHdr : UInt32 := 8

def espExtconnTransBtSendLock : Code Unit := do
  let _ ← issue (.semTake .txSem none)

def espExtconnTransBtSendUnlock : Code Unit := issue (.semGive .txSem)

def espExtconnTransBtRecv (buff : Ptr) (len : UInt32) : Code Unit := do
  let registered ← issue .hostRecvRegistered
  if registered then issue (.notifyHostRecv (buff.add sizeofSbpHdr.toNat) (len - sizeofSbpHdr)) else return ()

-- `bt_tx_task` once the header of a message is allocated; `len`, `type` and
-- `subtype` share the first word of `sbp_hdr_t`.
def btTxPacket (txSeq : UInt32) (data : Ptr) (len : UInt32) (hdr : Ptr) : Code Label := do
  let hdrLen := (sizeofSbpHdr + len) &&& 0xffffff
  issue (.store hdr (leBytes 3 hdrLen.toNat))
  issue (.store (hdr.add 3) [0])
  issue (.store (hdr.add 4) (le32 txSeq))
  memcpy (hdr.add sizeofSbpHdr.toNat) data len.toNat
  espExtconnSdioLock
  let _ ← espExtconnSdioSendPacket extConnBtSdioFunc hdr hdrLen
  espExtconnSdioUnlock
  issue (.free data)
  issue (.free hdr)
  return .btTxTask (txSeq + 1)

-- One iteration of `while (1)` of `bt_tx_task`.
def btTxTask (txSeq : UInt32) : Code Label := do
  espExtconnTransBtSendLock
  let some buf ← issue .queueReceive | return .btTxTask txSeq
  let some data := buf.data | return .btTxTask txSeq
  if buf.len = 0 then return .btTxTask txSeq
  let some hdr ← issue (.malloc (sizeofSbpHdr + buf.len))
    | do
      issue (.free data)
      return .btTxTask txSeq
  btTxPacket txSeq data buf.len hdr

-- The result of `calloc` is not looked at: `memcpy` writes to NULL when it fails.
def btSendData (data : List UInt8) : Code Unit := do
  let len := UInt32.ofNat data.length
  let p ← issue (.calloc len)
  match p with
  | some p => issue (.store p data)
  | none => do
    let _ ← issue (.derefNull data.length)
  let _ ← issue (.queueSend ⟨p,len⟩ 5000)

-- trans_recv.c

-- `while (rlen)` of `handle_intr0`; `rlen` shrinks in every iteration.
def handleIntr0Loop (cfg : Build) : Nat → Ptr → UInt32 → Code EspErr
  | 0,_,_ => return .ok
  | fuel+1,buf,rlen =>
    if rlen = 0 then return .ok else do
      let hdr ← loadSipHdr buf
      if hdr.len ≤ 0 ∨ hdr.len &&& 3 ≠ 0 then return .fail
      let rxseq ← espSipIncreaseRxseq
      if hdr.seq ≠ rxseq then return .fail
      if hdr.isCtrl then
        let _ ← espSipParseEvents cfg buf
      else if cfg.wifi ∧ hdr.isData then issue (.sipRxProcess buf hdr.len.toUInt32)
      else if cfg.wifi ∧ hdr.isAmpdu then issue (.sipRxProcess buf hdr.len.toUInt32)
      if hdr.len.toUInt32 < rlen then
        handleIntr0Loop cfg fuel (buf.add hdr.len.toNat) (rlen - hdr.len.toUInt32)
      else return .ok

-- `handle_intr0` after the packet has been fetched.
def handleIntr0Parse (cfg : Build) (rlen : UInt32) : Code EspErr := do
  if ¬ rlen ≥ sipCtrlHdrLen then return .fail
  handleIntr0Loop cfg rlen.toNat recvBuf rlen

def handleIntr0 (cfg : Build) (waitMs : UInt32) : Code EspErr := do
  espExtconnSdioLock
  let (_,outLength) ← espExtconnSdioGetPacket extConnWifiSdioFunc recvBuf recvBufLen waitMs
  espExtconnSdioUnlock
  handleIntr0Parse cfg (outLength.getD 0)

-- The two `if`s of `handle_intr1`.
def handleIntr1Packet (intr waitMs : UInt32) : Code EspErr :=
  if intr &&& slchostSlc1BtRxNewPacketIntRaw ≠ 0 then do
    let wanted : UInt32 := 1034
    espExtconnSdioLock
    let (ret,outLength) ← espExtconnSdioGetPacket extConnBtSdioFunc recvBuf wanted waitMs
    espExtconnSdioUnlock
    if ret = .ok then do
      espExtconnTransBtRecv recvBuf (outLength.getD 0)
      return ret
    else return ret
  else return .fail

-- After a failed bus transfer the code unlocks and falls through.
def unlockIfFailed (ret : EspErr) : Code Unit :=
  if ret ≠ .ok then espExtconnSdioUnlock else return ()

def sendUnlockIfAcked (configW1 : UInt32) : Code Unit :=
  if configW1 &&& 0x1 ≠ 0 then espExtconnTransBtSendUnlock else return ()

def handleIntr1Tohost : Code EspErr := do
  espExtconnSdioLock
  let ret ← espExtconnSdioClearIntr 0 slchostSlc1TohostBit0IntClr
  unlockIfFailed ret
  let (ret,bytes) ← espExtconnSdioReadBytes 1 espSdioConfigW1 .reg 4
  unlockIfFailed ret
  espExtconnSdioUnlock
  sendUnlockIfAcked (overlay 0 bytes)
  return ret

def handleIntr1 (intr waitMs : UInt32) : Code EspErr := do
  let ret ← handleIntr1Packet intr waitMs
  if intr &&& slchostSlc1TohostBit0IntRaw ≠ 0 then handleIntr1Tohost else return ret

def handleIntr0If (cfg : Build) (intr0 : UInt32) : Code Unit :=
  if intr0 &&& slchostSlc0RxNewPacketIntRaw ≠ 0 then do
    let _ ← handleIntr0 cfg recvWaitMs
  else return ()

def handleIntr1If (cfg : Build) (intr1 : UInt32) : Code Unit :=
  if cfg.bt ∧ (intr1 &&& slchostSlc1BtRxNewPacketIntRaw ≠ 0 ∨ intr1 &&& slchostSlc1TohostBit0IntRaw ≠ 0) then do
    let _ ← handleIntr1 intr1 recvWaitMs
  else return ()

-- One iteration of `while (true)` of `trans_recv_task`.
def transRecvTask (cfg : Build) : Code Label := do
  let ret ← espExtconnSdioWaitInt none
  if ret ≠ .ok then return .transRecvTask
  espExtconnSdioLock
  let (ret,intr0,intr1) ← espExtconnSdioGetIntr (some 0) (some 0)
  if ret ≠ .ok then
    espExtconnSdioUnlock
    return .returned
  let intr0 := intr0.getD 0
  let intr1 := intr1.getD 0
  if intr0 = 0 ∧ intr1 = 0 then
    espExtconnSdioUnlock
    return .transRecvTask
  let _ ← espExtconnSdioClearIntr intr0 0
  espExtconnSdioUnlock
  handleIntr0If cfg intr0
  handleIntr1If cfg intr1
  return .transRecvTask

-- trans_wifi.c

def wifiSendTask : Code Label := do
  let some sendBuf ← issue (.malloc wifiSendBufferLen) | return .returned
  let actualSize ← issue (.allocatedSize sendBuf)
  return .wifiSendLoop sendBuf actualSize

-- The packet of one buffer is built in `send_buf`; the result is `send_len`. The
-- macro `roundup` asks for the block size twice, the model once.
def wifiFillPacket (sendBuf : Ptr) (b : EsfBuf) : Code UInt32 := do
  let blks ← espSipGetTxBlks
  if b.type = esfBufTxSip ∨ b.type = esfBufTxSipTest then do
    memcpy sendBuf b.bufBegin b.dataLen.toNat
    sipHdrSetType sendBuf sipCtrl
    sipHdrSetSync sendBuf
    return roundup b.dataLen.toUInt32 blks
  else do
    let length := UInt32.ofNat b.dsLength.val
    sipHdrSetType sendBuf (if b.flags &&& ppFAmpdu ≠ 0 then sipDataAmpdu else sipData)
    sipHdrSetSync sendBuf
    sipHdrSetLen sendBuf (length + sipCtrlHdrLen).toUInt16
    issue (.store (sendBuf.add 4) [UInt8.ofNat b.tid.val])
    issue (.store (sendBuf.add 5) [UInt8.ofNat b.ac.val])
    -- `d_p2p` is bit 0 and `d_enc_flag` bits 1 to 7 of the byte at offset 6
    let old ← issue (.load (sendBuf.add 6) 1)
    issue (.store (sendBuf.add 6) [old.getD 0 0 &&& 0xfe])
    let old ← issue (.load (sendBuf.add 6) 1)
    issue (.store (sendBuf.add 6) [(old.getD 0 0 &&& 1) ||| UInt8.ofNat (2 * b.cryptoType.val)])
    issue (.store (sendBuf.add 7) [b.kid])
    memcpy (sendBuf.add sizeofSipHdr) b.dsBuf b.dsLength.val
    return roundup (length + sipCtrlHdrLen) blks

def wifiBuildPacket (sendBuf : Ptr) (eb : EbPtr) : Code UInt32 := do
  issue (.store sendBuf (List.replicate sizeofSipHdr 0))
  let b ← issue (.esfGet eb)
  wifiFillPacket sendBuf b

-- The outer loop up to the credit poll.
def wifiSendLoop (sendBuf : Ptr) (actualSize : UInt32) : Code Label := do
  issue .listWaitItem
  let eb ← issue .listRemove
  if eb = nullEb then return .wifiSendLoop sendBuf actualSize
  let sendLen ← wifiBuildPacket sendBuf eb
  if sendLen > actualSize then return .aborted
  return .wifiSendPoll ⟨sendBuf,actualSize,eb,sendLen⟩

def wifiSetSeq (sendBuf : Ptr) : Code Unit := do
  let cmdid ← issue (.load (sendBuf.add 4) 4)
  let cid := UInt32.ofNat (leNat cmdid)
  if cid ≠ sipCmdWriteMemory ∨ cid ≠ sipCmdBootup ∨ cid ≠ sipCmdWriteReg ∨ cid ≠ sipCmdLoopback then do
    let seq ← espSipIncreaseTxseq
    sipHdrSetSeq sendBuf seq
  else return ()

def wifiSendPacket (l : WifiLocals) : Code Label := do
  espExtconnSdioLock
  let err ← espExtconnSdioSendPacket extConnWifiSdioFunc l.sendBuf l.sendLen
  espExtconnSdioUnlock
  if err ≠ .ok then return .returned
  if ← issue (.isTxCallback l.eb) then
    issue (.net80211EnTxdq l.eb)
    issue .espSipTxdPost
  else issue (.espSipRecycle l.eb)
  return .wifiSendLoop l.sendBuf l.actualSize

-- One poll of the credits and, once they suffice, the rest of the iteration.
def wifiSendPoll (l : WifiLocals) : Code Label := do
  espExtconnSdioLock
  let (_,size) ← espExtconnSdioGetBufferSize
  espExtconnSdioUnlock
  let num := size.getD 0
  if num * 512 < l.sendLen then
    issue (.taskDelay 2)
    return .wifiSendPoll l
  wifiSetSeq l.sendBuf
  wifiSendPacket l

-- The two steps of `wifi_send_cmd` that depend on the command: its arguments
-- are copied behind the header, and a `SIP_CMD_SETSTA` that clears the station
-- drops what is queued. `set_sta->set` is the third byte, also of a NULL `cmd`.
def wifiCopyCmd (shdr : Ptr) (cmdlen : UInt32) (cmd : Option Ptr) : Code Unit :=
  match cmd with
  | some p => memcpy (shdr.add sizeofSipHdr) p cmdlen.toNat
  | none => return ()

def loadSet (cmd : Option Ptr) : Code (List UInt8) :=
  match cmd with
  | some p => issue (.load (p.add 2) 1)
  | none => issue (.derefNull 1)

def wifiClearStale (cid : UInt32) (cmd : Option Ptr) : Code Unit := do
  if cid = sipCmdSetsta then do
    let set ← loadSet cmd
    if set.getD 0 0 = 0 then do
      let _ ← issue .listClear
      return ()
    else return ()
  else return ()

def wifiSendCmd (cid cmdlen : UInt32) (cmd : Option Ptr) : Code EspErr := do
  let len : UInt16 := (cmdlen + sipCtrlHdrLen).toUInt16
  let eb ← issue (.esfBufAlloc (if cid = sipCmdTest then esfBufTxSipTest else esfBufTxSip) len)
  if eb = nullEb then return .fail
  let b ← issue (.esfGet eb)
  let shdr := b.bufBegin
  issue (.store shdr (List.replicate sizeofSipHdr 0))
  sipHdrSetType shdr sipCtrl
  sipHdrSetLen shdr len
  sipHdrSetCmdid shdr cid
  wifiCopyCmd shdr cmdlen cmd
  wifiClearStale cid cmd
  if cid = sipCmdTest then issue (.listHeadInsert eb) else issue (.listInsert eb)

def wifiSendData (eb : EbPtr) : Code EspErr := do
  if eb = nullEb then return .fail
  let _ ← issue (.listInsert eb)
  return .ok

-- The callers of the registered callbacks, one call after another.
def btHost : Code Label := do
  let data ← issue .btHostCall
  btSendData data
  return .btHost

def wifiStackServe : StackCall → Code Unit
  | .cmd cid cmdlen cmd => do
    let _ ← wifiSendCmd cid cmdlen cmd
  | .data eb => do
    let _ ← wifiSendData eb

def wifiStack : Code Label := do
  let call ← issue .wifiStackCall
  wifiStackServe call
  return .wifiStack

def block (cfg : Build) : Label → Code Label
  | .transRecvTask => transRecvTask cfg
  | .wifiSendTask => wifiSendTask
  | .wifiSendLoop sendBuf actualSize => wifiSendLoop sendBuf actualSize
  | .wifiSendPoll l => wifiSendPoll l
  | .btTxTask txSeq => btTxTask txSeq
  | .espSipBootup entryAddr => do
    let _ ← espSipBootup cfg entryAddr
    return .returned
  | .btHost => btHost
  | .wifiStack => wifiStack
  | .returned => return .returned
  | .aborted => return .aborted

-- A queued buffer with `len` bytes at `p`, of which `seg` are in its segment.
def EsfBuf.holding (type : UInt8) (p : Ptr) (len : UInt16) (seg : Nat) : EsfBuf :=
  ⟨type,p,len,p,Fin.ofNat 4096 seg,0,0,0,0,0,0⟩

def EsfBuf.described (b : EsfBuf) (tid ac cryptoType : Nat) (kid : UInt8) : EsfBuf :=
  {b with tid := Fin.ofNat 16 tid,ac := Fin.ofNat 16 ac,cryptoType := Fin.ofNat 16 cryptoType,kid := kid}

-- The objects the init functions have created when the last task starts:
-- `recv_buf` is allocated, `tx_sem` holds its token and the queues are empty.
def World.initial (sip : EspSip) : World where
  sip := sip
  host := ⟨0,0⟩
  mem := fun _ _ => 0
  blocks := fun blk => if blk = recvBuf.blk then some recvBufLen.toNat else none
  fresh := 1
  sdioMutex := none
  bootSem := .null
  txSem := 1
  txQue := []
  wifiTx := ⟨nullEb,nullEb,fun _ => nullEb,false⟩
  esf := fun _ => ⟨0,⟨0,0⟩,0,⟨0,0⟩,0,0,0,0,0,0,0⟩
  hostRecv := true

end ExtConn
