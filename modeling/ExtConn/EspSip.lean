import ExtConn.SdioAdapter

namespace ExtConn
open Effects ByteMemory

-- `struct sip_hdr`, decoded from its 12 bytes; `u` is the credit or command word.
structure SipHdr where
  fc0 : UInt8
  fc1 : UInt8
  len : UInt16
  u : UInt32
  seq : UInt32
  deriving DecidableEq

def sizeofSipHdr : Nat := 12

def field (bytes : List UInt8) (off width : Nat) : Nat := leNat ((bytes.drop off).take width)

theorem field_read (m : Mem) (p : Ptr) (fits : off + width ≤ n) : field (m.read p n) off width = leNat (m.read (p.add off) width) := by
  obtain ⟨rest,rfl⟩ := Nat.exists_eq_add_of_le (Nat.le_trans (Nat.le_add_right off width) fits)
  rw [field,read_drop,read_take _ _ (by omega)]

theorem field_lt (bytes : List UInt8) (off width : Nat) : field bytes off width < 256 ^ width := by
  have bound := leNat_bound ((bytes.drop off).take width)
  have short : ((bytes.drop off).take width).length ≤ width := List.length_take_le _ _
  exact Nat.lt_of_lt_of_le bound (Nat.pow_le_pow_right (by decide) short)

def sipHdrOf (bytes : List UInt8) : SipHdr :=
  ⟨bytes.getD 0 0,bytes.getD 1 0,UInt16.ofNat (field bytes 2 2),UInt32.ofNat (field bytes 4 4),
    UInt32.ofNat (field bytes 8 4)⟩

def sipHdrGetType (fc0 : UInt8) : UInt8 := fc0 &&& sipTypeMask

theorem type_set (fc0 type : UInt8) :
    sipHdrGetType ((fc0 &&& ~~~sipTypeMask) ||| (type &&& sipTypeMask)) = type &&& sipTypeMask := by
  apply UInt8.toBitVec_inj.mp
  apply BitVec.eq_of_getLsbD_eq
  intro i inside
  simp only [sipHdrGetType,UInt8.toBitVec_and,UInt8.toBitVec_or,UInt8.toBitVec_not,BitVec.getLsbD_and,BitVec.getLsbD_or,
    BitVec.getLsbD_not,inside]
  cases sipTypeMask.toBitVec.getLsbD i <;> simp

def SipHdr.isCtrl (hdr : SipHdr) : Prop := sipHdrGetType hdr.fc0 = sipCtrl
def SipHdr.isData (hdr : SipHdr) : Prop := sipHdrGetType hdr.fc0 = sipData
def SipHdr.isAmpdu (hdr : SipHdr) : Prop := sipHdrGetType hdr.fc0 = sipDataAmpdu
instance (hdr : SipHdr) : Decidable hdr.isCtrl := inferInstanceAs (Decidable (_ = _))
instance (hdr : SipHdr) : Decidable hdr.isData := inferInstanceAs (Decidable (_ = _))
instance (hdr : SipHdr) : Decidable hdr.isAmpdu := inferInstanceAs (Decidable (_ = _))

def loadSipHdr (buf : Ptr) : Code SipHdr := do
  let bytes ← issue (.load buf sizeofSipHdr)
  return sipHdrOf bytes

def memcpy (dst src : Ptr) (n : Nat) : Code Unit := do
  let bytes ← issue (.load src n)
  issue (.store dst bytes)

-- Assignments to the fields of a header in memory.
def sipHdrSetType (shdr : Ptr) (type : UInt8) : Code Unit := do
  let fc0 ← issue (.load shdr 1)
  issue (.store shdr [(fc0.getD 0 0 &&& ~~~sipTypeMask) ||| (type &&& sipTypeMask)])

def sipHdrSetSync (shdr : Ptr) : Code Unit := do
  let fc1 ← issue (.load (shdr.add 1) 1)
  issue (.store (shdr.add 1) [fc1.getD 0 0 ||| sipHdrFSync])

def sipHdrSetLen (shdr : Ptr) (len : UInt16) : Code Unit := issue (.store (shdr.add 2) (leBytes 2 len.toNat))
def sipHdrSetCmdid (shdr : Ptr) (cid : UInt32) : Code Unit := issue (.store (shdr.add 4) (le32 cid))
def sipHdrSetSeq (shdr : Ptr) (seq : UInt32) : Code Unit := issue (.store (shdr.add 8) (le32 seq))

def espSipIncreaseRxseq : Code UInt32 := do
  let sip ← issue .sipGet
  issue (.sipSet (.rxseq (sip.rxseq + 1)))
  return sip.rxseq

def espSipIncreaseTxseq : Code UInt32 := do
  let sip ← issue .sipGet
  issue (.sipSet (.txseq (sip.txseq + 1)))
  return sip.txseq

def espSipGetTxBlks : Code UInt32 := do
  let sip ← issue .sipGet
  return sip.txBlksz.toUInt32

-- `esp_sip_send_cmd` once its buffer is allocated.
def espSipSendCmdBuffer (cid : UInt32) (len : UInt16) (cmd : List UInt8) (buffer : Ptr) : Code EspErr := do
  issue (.store buffer (List.replicate sizeofSipHdr 0))
  sipHdrSetType buffer sipCtrl
  sipHdrSetSync buffer
  sipHdrSetLen buffer len
  sipHdrSetCmdid buffer cid
  if cid = sipCmdBootup then
    issue (.sipSet (.rxseq 0))
    issue (.sipSet (.txseq 0))
  else if cid = sipCmdInit then
    let _ ← espSipIncreaseTxseq
  sipHdrSetSeq buffer 0
  issue (.store (buffer.add sizeofSipHdr) cmd)
  espExtconnSdioLock
  let err ← espExtconnSdioSendPacket 1 buffer len.toUInt32
  espExtconnSdioUnlock
  issue (.free buffer)
  return err

-- `cmd` stands for the `cmdlen` bytes found at the pointer of that name.
def espSipSendCmd (cid cmdlen : UInt32) (cmd : List UInt8) : Code EspErr := do
  let len : UInt16 := (cmdlen + sipCtrlHdrLen).toUInt16
  issue (.note (.sipCmd cid))
  let some buffer ← issue (.calloc len.toUInt32) | return .noMem
  espSipSendCmdBuffer cid len cmd buffer

-- `while (remains)` of `esp_sip_write_mem`; every iteration sends at least one
-- byte of the `len` given, which bounds the loop.
def writeMemLoop (rawbuf buf : Ptr) (addr len : UInt32) : Nat → UInt32 → Code EspErr
  | 0,_ => return .ok
  | fuel+1,remains =>
    if remains = 0 then return .ok else do
      let hdrs : UInt32 := sipCtrlHdrLen + sizeofSipCmdWriteMemory
      let src := buf.add (len - remains).toNat
      let loadaddr := addr + (len - remains)
      let (bufsize,remains) ←
        if remains < sipBootBufSize - hdrs then do
          let bufsize : UInt16 := (roundup remains 4).toUInt16
          issue (.store (rawbuf.add hdrs.toNat) (List.replicate bufsize.toNat 0))
          pure (bufsize,(0 : UInt32))
        else
          let bufsize : UInt16 := (sipBootBufSize - hdrs).toUInt16
          pure (bufsize,remains - bufsize.toUInt32)
      let chdrLen : UInt16 := bufsize + hdrs.toUInt16
      sipHdrSetLen rawbuf chdrLen
      let seq ← espSipIncreaseTxseq
      sipHdrSetSeq rawbuf seq
      issue (.store (rawbuf.add (sizeofSipHdr + 4)) (le32 bufsize.toUInt32))
      issue (.store (rawbuf.add sizeofSipHdr) (le32 loadaddr))
      issue (.taskDelay 1)
      memcpy (rawbuf.add hdrs.toNat) src bufsize.toNat
      let err ← espExtconnSdioWriteBytes 1 (espSlaveCmd53EndAddr - chdrLen.toUInt32) (.mem rawbuf)
        ((chdrLen.toUInt32 + 3) &&& ~~~3)
      if err ≠ .ok then return .fail
      writeMemLoop rawbuf buf addr len fuel remains

def espSipWriteMem (addr : UInt32) (buf : Ptr) (len : UInt32) : Code EspErr := do
  let sip ← issue .sipGet
  if sip.rawbuf = none then
    let p ← issue (.malloc sipBootBufSize)
    issue (.sipSet (.rawbuf p))
    if p = none then return .noMem
  let sip ← issue .sipGet
  let some rawbuf := sip.rawbuf | return .noMem
  sipHdrSetType rawbuf sipCtrl
  sipHdrSetCmdid rawbuf sipCmdWriteMemory
  writeMemLoop rawbuf buf addr len len.toNat len

-- `sip->noise_floor` takes a signed 16-bit value into an unsigned 32-bit field.
def signExtend16 (value : UInt16) : UInt32 :=
  if value ≥ 0x8000 then value.toUInt32 ||| 0xffff0000 else value.toUInt32

-- The argument is the content of `struct sip_evt_bootup2`.
def espSipPostInit (bevt : List UInt8) : Code Unit := do
  issue (.sipSet (.txBlksz (UInt16.ofNat (field bevt 0 2))))
  issue (.sipSet (.rxBlksz (UInt16.ofNat (field bevt 8 2))))
  issue (.sipSet (.creditToReserve (UInt32.ofNat (field bevt 10 1))))
  issue (.sipSet (.noiseFloor (signExtend16 (UInt16.ofNat (field bevt 12 2)))))
  issue (.sipSet (.wifiAddr ((bevt.drop 2).take 6)))

-- eagle_init_data.h
def espInitData : List UInt8 := [
  0x50,0x48,0x59,0x49,0x4e,0x49,0x54,0x00,0x03,0x00,0x05,0x09,0x06,0x05,0x03,0x06,
  0x05,0x04,0x06,0x04,0x05,0x00,0x00,0x00,0x00,0x05,0x09,0x06,0x05,0x03,0x06,0x05,
  0x00,0x00,0x00,0x00,0x00,0x00,0x00,0x00,0xfc,0xfc,0xfe,0xf0,0xf0,0xf0,0xe0,0xe0,
  0xe0,0x18,0x18,0x18,0x42,0x42,0x42,0x3c,0x38,0x34,0x01,0x01,0x01,0x02,0x02,0x03,
  0x04,0x05,0x01,0x00,0x00,0x00,0x00,0x00,0x00,0x00,0x00,0x00,0x00,0x00,0x00,0x00,
  0x00,0x00,0x00,0x00,0x00,0x00,0x00,0x00,0x00,0x00,0x00,0x00,0x00,0x00,0x00,0x00,
  0x00,0x00,0x00,0x00,0x00,0x00,0x00,0x00,0x00,0x00,0x00,0x00,0x00,0x00,0x00,0x00,
  0x00,0x00,0x00,0x00,0x00,0x00,0x00,0x00,0x00,0x00,0x00,0x00,0x00,0x00,0x00,0x00,
  0x00,0x00,0x00,0x00,0x00,0x00,0x00,0x00,0x50,0x48,0x59,0x49,0x4e,0x49,0x54,0x00]

-- The length passed is that of `esp_init_data`, 15 bytes more than the local
-- `struct sip_cmd_init` holds; the bytes after it are whatever the stack has.
def sipSendChipInit (cfg : Build) : Code EspErr := do
  let initData := extConnFunctionsEnable cfg :: (espInitData.drop 8).take 128
  let after ← issue (.unspecified (espInitData.length - initData.length))
  espSipSendCmd sipCmdInit (UInt32.ofNat espInitData.length) (initData ++ after)

-- The cases of the switch in `esp_sip_parse_events`.
def parseTargetOn (cfg : Build) : Code EspErr := do
  let sip ← issue .sipGet
  if sip.state = .prepareBoot ∨ sip.state = .boot then
    issue (.sipSet (.state .sendInit))
    let ret ← sipSendChipInit cfg
    if ret = .ok then issue (.sipSet (.state .waitBootup))
    return ret
  else
    issue (.note .bootWrongState)
    return .ok

def parseBootup (buf : Ptr) : Code EspErr := do
  let sip ← issue .sipGet
  match sip.rawbuf with
  | some p =>
    issue (.free p)
    issue (.sipSet (.rawbuf none))
  | none => pure ()
  -- the whole structure is read at once; `esp_sip_post_init` uses 14 of its bytes
  let bootupEvt ← issue (.load (buf.add sizeofSipHdr) sizeofSipEvtBootup2)
  espSipPostInit bootupEvt
  issue (.sipSet (.state .run))
  issue (.semGive .bootSem)
  return .ok

def parseCoexState (buf : Ptr) : Code EspErr := do
  -- the whole structure again; its three fields take 6 bytes
  let coexEvt ← issue (.load (buf.add sizeofSipHdr) sizeofSipEvtCoexState)
  issue (.coexSchmStatusSet (UInt16.ofNat (field coexEvt 0 2)) (UInt16.ofNat (field coexEvt 2 2))
    (UInt16.ofNat (field coexEvt 4 2)))
  return .ok

-- `SIP_EVT_CREDIT_RPT` and every event not listed only return.
def parseSwitch (cfg : Build) (buf : Ptr) (evtid : UInt8) : Code EspErr :=
  if evtid = sipEvtTargetOn then parseTargetOn cfg
  else if evtid = sipEvtBootup then parseBootup buf
  else if cfg.wifi ∧ evtid = sipEvtCoexState then parseCoexState buf
  else return .ok

def espSipParseEvents (cfg : Build) (buf : Ptr) : Code EspErr := do
  issue (.note (.parseEvents buf))
  let hdr ← loadSipHdr buf
  parseSwitch cfg buf hdr.fc1

-- `esp_sip_bootup` after the command, up to its result: the state and the
-- semaphore are set up only now.
def bootupWait (cfg : Build) (sent : EspErr) : Code EspErr :=
  if sent = .ok then do
    issue (.sipSet (.state .prepareBoot))
    let _ ← issue .createBootSem
    if cfg.wifi then do
      let taken ← issue (.semTake .bootSem (some 10000))
      return if taken then .ok else .timeout
    else return .ok
  else return .fail

def espSipBootup (cfg : Build) (entryAddr : UInt32) : Code EspErr := do
  let bootcmd := le32 entryAddr ++ le32 1
  let sent ← espSipSendCmd sipCmdBootup sizeofSipCmdBootup bootcmd
  let ret ← bootupWait cfg sent
  issue .deleteBootSem
  return ret

-- The object that `esp_sip_init` leaves when its allocation succeeds.
def espSipInit : EspSip := ⟨0,0,.init,none,0,0,0,0,List.replicate 6 0⟩

end ExtConn
