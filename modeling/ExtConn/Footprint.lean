import ExtConn.Transfers
import ExtConn.Transport

namespace ExtConn
open Effects ByteMemory

-- The points that sending on one function passes through.
def Note.sending (function : UInt32) : Note → Bool
  | .sipCmd _ => true
  | .sendPacket f _ _ | .packetSent f _ => f = function
  | _ => false

theorem sending_not_parse {n : Note} (sending : n.sending function = true) (buf : Ptr) : n ≠ .parseEvents buf := by
  intro same
  rw [same] at sending
  cases sending

-- The registers that the receive task polls.
def statusRegister (addr : UInt32) : Prop :=
  addr = espSdioSlc1HostPf ∨ addr = espSdioPktLen ∨ addr = espSdioIntRaw ∨ addr = espSdioIntRaw1

instance : Decidable (statusRegister addr) := inferInstanceAs (Decidable (_ ∨ _))

-- What each bus function issues. `P` is left open: the modules below use these
-- for what a function does not touch as well as for what it may do.
section
variable {P : Op → Prop}

theorem readRounded_all {len : UInt32} (small : len.toNat < 512)
    (read : P (.sdmmcIoRead function addr {increment := incrementFor function} (.mem p) (roundFour len))) :
    (extconnSdioReadBytes function addr (.mem p) (roundFour len)).All P := by
  have rounded := roundFour_toNat small
  by_cases nonzero : 0 < len.toNat
  · rw [readBytes_aligned _ _ _ (by omega) (by omega)]
    exact ⟨read,fun _ => trivial⟩
  · have zero : len = 0 := Decidable.not_not.mp fun some => nonzero ((toNat_ne_zero len).mp some)
    rw [zero]
    trivial

theorem writeRounded_all {len : UInt32} (small : len.toNat < 512)
    (write : P (.sdmmcIoWrite function addr {increment := incrementFor function} (.mem p) (roundFour len))) :
    (extconnSdioWriteBytes function addr (.mem p) (roundFour len)).All P := by
  have rounded := roundFour_toNat small
  by_cases nonzero : 0 < len.toNat
  · rw [writeBytes_aligned _ _ _ (by omega) (by omega)]
    exact ⟨write,fun _ => trivial⟩
  · have zero : len = 0 := Decidable.not_not.mp fun some => nonzero ((toNat_ne_zero len).mp some)
    rw [zero]
    trivial

theorem getBufferSize_all (read : P (.sdmmcIoRead 1 espSdioTokenRdata {increment := true} .reg 4)) (host : P .hostGet)
    (note : ∀ n, P (.note (.bufferSize n))) : espExtconnSdioGetBufferSize.All P := by
  rw [getBufferSize_eq]
  refine ⟨read,fun r => Prog.All.ite (fun _ => trivial) fun _ => ?_⟩
  exact ⟨host,fun _ => ⟨note _,fun _ => trivial⟩⟩

theorem getRxDataSize_all (read : ∀ addr, statusRegister addr → P (.sdmmcIoRead 1 addr {increment := true} .reg 4))
    (host : P .hostGet) (function : UInt32) : (espExtconnSdioGetRxDataSize function).All P := by
  have other : statusRegister (if function = extConnBtSdioFunc then espSdioSlc1HostPf else espSdioPktLen) := by
    split <;> decide
  unfold espExtconnSdioGetRxDataSize
  simp only [readRegister]
  refine ⟨read _ other,fun r => Prog.All.ite (fun _ => trivial) fun _ => ?_⟩
  exact Prog.All.ite (fun _ => trivial) fun _ => ⟨host,fun _ => trivial⟩

theorem getPacketWait_all
    (read : ∀ addr, statusRegister addr → P (.sdmmcIoRead 1 addr {increment := true} .reg 4)) (host : P .hostGet)
    (delay : P (.taskDelay 1)) (function waitMs : UInt32) (fuel : Nat) (waitTime : UInt32) :
    (getPacketWait function waitMs fuel waitTime).All P := by
  induction fuel generalizing waitTime with
  | zero => trivial
  | succ fuel ih =>
      unfold getPacketWait
      refine Prog.All.bind (getRxDataSize_all read host function) fun result => ?_
      refine Prog.All.ite (fun _ => trivial) fun _ => Prog.All.ite (fun _ => trivial) fun _ => ?_
      exact Prog.All.ite (fun _ => trivial) fun _ => ⟨delay,fun _ => ih _⟩

-- The bytes of a packet are read in block mode or from the last 512 addresses.
theorem getPacketChunks_all (read : ∀ rem arg p size, (arg.blockMode = true ∨ rem.toNat < 512) →
      P (.sdmmcIoRead function (chunkAddr function rem) arg (.mem p) size)) (fuel : Nat) (start : Ptr) (len : UInt32) :
    (getPacketChunks function fuel start len).All P := by
  induction fuel generalizing start len with
  | zero => trivial
  | succ fuel ih =>
      unfold getPacketChunks
      simp only [Prog.bind_def,Prog.pure_def,Prog.pure_bind]
      refine Prog.All.ite (fun _ => Prog.All.bind ?_ fun err => ?_) fun single => ?_
      · unfold extconnSdioReadBlocks
        exact Prog.All.ite (fun _ => trivial) fun _ => ⟨read _ _ _ _ (.inl rfl),fun _ => trivial⟩
      · exact Prog.All.ite (fun _ => trivial) fun _ => Prog.All.ite (fun _ => ih _ _) fun _ => trivial
      · rw [no_blocks] at single
        rw [if_neg (by rw [no_blocks]; exact single),roundFour_def]
        refine Prog.All.bind (readRounded_all (by omega) (read _ _ _ _ (.inr (by omega)))) fun result => ?_
        exact Prog.All.ite (fun _ => trivial) fun _ => Prog.All.ite (fun _ => ih _ _) fun _ => trivial

theorem getPacket_all
    (registers : ∀ addr, statusRegister addr → P (.sdmmcIoRead 1 addr {increment := true} .reg 4))
    (read : ∀ rem arg p size, (arg.blockMode = true ∨ rem.toNat < 512) →
      P (.sdmmcIoRead function (chunkAddr function rem) arg (.mem p) size)) (host : P .hostGet)
    (count : function ≠ extConnBtSdioFunc → ∀ n, P (.hostSet (.totalRx n))) (delay : P (.taskDelay 1)) (outBuf : Ptr)
    (size waitMs : UInt32) : (espExtconnSdioGetPacket function outBuf size waitMs).All P := by
  unfold espExtconnSdioGetPacket
  refine Prog.All.ite (fun _ => trivial) fun _ => ?_
  refine Prog.All.bind (getPacketWait_all registers host delay _ _ _ _) fun result => ?_
  refine Prog.All.ite (fun _ => trivial) fun _ => ?_
  refine Prog.All.bind (getPacketChunks_all read _ _ _) fun err => ?_
  refine Prog.All.ite (fun _ => trivial) fun _ => ?_
  exact Prog.All.ite (fun counted => ⟨host,fun _ => ⟨count counted _,fun _ => trivial⟩⟩) fun _ => trivial

theorem sendPacketChunks_all (write : ∀ arg p size, P (.sdmmcIoWrite function addr arg (.mem p) size))
    (fuel : Nat) (start : Ptr) (len : UInt32) : (sendPacketChunks function addr fuel start len).All P := by
  induction fuel generalizing start len with
  | zero => trivial
  | succ fuel ih =>
      unfold sendPacketChunks
      simp only [Prog.bind_def,Prog.pure_def]
      refine Prog.All.ite (fun _ => Prog.All.bind ?_ fun err => ?_) fun single => ?_
      · unfold extconnSdioWriteBlocks
        exact Prog.All.ite (fun _ => trivial) fun _ => ⟨write _ _ _,fun _ => trivial⟩
      · exact Prog.All.ite (fun _ => trivial) fun _ => Prog.All.ite (fun _ => ih _ _) fun _ => trivial
      · rw [no_blocks] at single
        rw [if_neg (by rw [no_blocks]; exact single),roundFour_def]
        refine Prog.All.bind (writeRounded_all (by omega) (write _ _ _)) fun err => ?_
        exact Prog.All.ite (fun _ => trivial) fun _ => Prog.All.ite (fun _ => ih _ _) fun _ => trivial

-- `send_packet` behind its announcement: the chunks, and the count once they are out.
def afterChunks (function length : UInt32) (err : EspErr) : Code EspErr :=
  if err ≠ .ok then .pure err else
  let sent : Code EspErr := .op (.note (.packetSent function length)) fun _ => .pure .ok
  if function ≠ extConnBtSdioFunc then
    .op .hostGet fun host => .op (.hostSet (.totalTx (host.totalTx + buffersUsed length))) fun _ => .op .hostGet fun host =>
      if host.totalTx ≥ txBufferMax then .op (.hostSet (.totalTx (host.totalTx - txBufferMax))) fun _ => sent else sent
  else sent

def sendPacketRest (function : UInt32) (start : Ptr) (length : UInt32) : Code EspErr :=
  (sendPacketChunks function (chunkAddr function length) (length.toNat + 1) start length).bind (afterChunks function length)

theorem sendPacket_eq (function : UInt32) (start : Ptr) (length : UInt32) : espExtconnSdioSendPacket function start length =
    .op (.note (.sendPacket function start length)) fun _ => sendPacketRest function start length := by
  unfold espExtconnSdioSendPacket sendPacketRest afterChunks
  simp only [Prog.bind_def,issue_bind,Prog.pure_def]

theorem afterChunks_all (sent : P (.note (.packetSent function length))) (host : P .hostGet)
    (count : function ≠ extConnBtSdioFunc → ∀ n, P (.hostSet (.totalTx n))) (err : EspErr) : (afterChunks function length err).All P := by
  refine Prog.All.ite (fun _ => trivial) fun _ => Prog.All.ite (fun counted => ?_) fun _ => ⟨sent,fun _ => trivial⟩
  refine ⟨host,fun _ => ⟨count counted _,fun _ => ⟨host,fun _ => ?_⟩⟩⟩
  exact Prog.All.ite (fun _ => ⟨count counted _,fun _ => ⟨sent,fun _ => trivial⟩⟩) fun _ => ⟨sent,fun _ => trivial⟩

theorem sendPacketRest_all (write : ∀ arg p size, P (.sdmmcIoWrite function (chunkAddr function length) arg (.mem p) size))
    (sent : P (.note (.packetSent function length))) (host : P .hostGet)
    (count : function ≠ extConnBtSdioFunc → ∀ n, P (.hostSet (.totalTx n))) (start : Ptr) :
    (sendPacketRest function start length).All P :=
  Prog.All.bind (sendPacketChunks_all write _ _ _) (afterChunks_all sent host count)

theorem sendPacket_all (write : ∀ arg p size, P (.sdmmcIoWrite function (chunkAddr function length) arg (.mem p) size))
    (note : ∀ n : Note, n.sending function = true → P (.note n)) (host : P .hostGet)
    (count : function ≠ extConnBtSdioFunc → ∀ n, P (.hostSet (.totalTx n))) (start : Ptr) :
    (espExtconnSdioSendPacket function start length).All P := by
  rw [sendPacket_eq]
  exact ⟨note _ (by simp [Note.sending]),fun _ => sendPacketRest_all write (note _ (by simp [Note.sending])) host count start⟩

theorem clearIntr_all (write : ∀ addr intr, (addr = espSdioSlc0IntClr ∨ addr = espSdioSlc1IntClr) →
      P (.sdmmcIoWrite 1 addr {increment := true} (.reg (le32 intr)) 4)) (intr0 intr1 : UInt32) :
    (espExtconnSdioClearIntr intr0 intr1).All P := by
  have clear : ∀ addr intr, (addr = espSdioSlc0IntClr ∨ addr = espSdioSlc1IntClr) →
      (extconnSdioWriteBytes 1 addr (.reg (le32 intr)) 4).All P := by
    intro addr intr known
    rw [writeRegister]
    exact ⟨write _ _ known,fun _ => trivial⟩
  have second : ∀ intr1 : UInt32, (if intr1 ≠ 0 then do
      let r ← extconnSdioWriteBytes 1 espSdioSlc1IntClr (.reg (le32 intr1)) 4
      if r ≠ .ok then return r
      return .ok
    else return .ok : Code EspErr).All P := by
    intro intr1
    refine Prog.All.ite (fun _ => Prog.All.bind (clear _ _ (.inr rfl)) fun r => ?_) fun _ => trivial
    exact Prog.All.ite (fun _ => trivial) fun _ => trivial
  unfold espExtconnSdioClearIntr
  refine Prog.All.ite (fun _ => trivial) fun _ => Prog.All.ite (fun _ => ?_) fun _ => second intr1
  exact Prog.All.bind (clear _ _ (.inl rfl)) fun r => Prog.All.ite (fun _ => trivial) fun _ => second intr1

theorem getIntr_all (read : ∀ addr, statusRegister addr → P (.sdmmcIoRead 1 addr {increment := true} .reg 4))
    (raw st : UInt32) : (espExtconnSdioGetIntr (some raw) (some st)).All P := by
  unfold espExtconnSdioGetIntr
  simp only [readRegister,Prog.bind_def,Prog.op_bind,Prog.pure_bind,Prog.pure_def]
  refine Prog.All.ite (fun _ => trivial) fun _ => ⟨read _ (by decide),fun r => ?_⟩
  refine Prog.All.ite (fun _ => trivial) fun _ => ⟨read _ (by decide),fun r => ?_⟩
  exact Prog.All.ite (fun _ => trivial) fun _ => trivial

end

-- Operations that no other party reacts to: they leave the bus, the semaphores,
-- the queues, the shared states and the memory in use alone.
def Op.quiet : Op → Bool
  | .taskDelay _ | .malloc _ | .calloc _ | .free _ | .allocatedSize _ | .sipGet | .hostGet | .esfGet _ | .esfBufAlloc _ _
  | .isTxCallback _ | .net80211EnTxdq _ | .espSipTxdPost | .espSipRecycle _ | .coexSchmStatusSet _ _ _
  | .hostRecvRegistered | .notifyHostRecv _ _ | .derefNull _ | .unspecified _ => true
  | .sipSet (.rxseq _) | .sipSet (.state _) => false
  | .sipSet _ => true
  | _ => false

structure QuietStep (w w' : World) : Prop where
  rxseq : w'.sip.rxseq = w.sip.rxseq
  state : w'.sip.state = w.sip.state
  host : w'.host = w.host
  mem : ∀ blk, blk ≠ w.fresh → w'.mem blk = w.mem blk
  fresh : w.fresh ≤ w'.fresh
  sdioMutex : w'.sdioMutex = w.sdioMutex
  bootSem : w'.bootSem = w.bootSem
  txSem : w'.txSem = w.txSem
  txQue : w'.txQue = w.txQue
  wifiTx : w'.wifiTx = w.wifiTx

theorem QuietStep.refl (w : World) : QuietStep w w :=
  ⟨rfl,rfl,rfl,fun _ _ => rfl,Nat.le_refl _,rfl,rfl,rfl,rfl,rfl⟩

theorem alloc_quiet (w : World) (size : UInt32) : QuietStep w (w.alloc size).2 :=
  ⟨rfl,rfl,rfl,fun _ _ => rfl,Nat.le_succ _,rfl,rfl,rfl,rfl,rfl⟩

theorem write_other {m : Mem} {p : Ptr} {bytes : List UInt8} (different : blk ≠ p.blk) : (m.write p bytes) blk = m blk := by
  funext i
  simp only [Mem.write]
  rw [if_neg fun inside => different inside.1]

theorem quiet_exec {t : Task} {o : Op} {r : o.Answer} {w w' : World} (quiet : o.quiet = true)
    (ran : World.exec t o ans w = some (r,w')) : QuietStep w w' := by
  cases o
  case malloc size =>
    simp only [World.exec] at ran
    split at ran
    · cases ran; exact alloc_quiet w size
    · cases ran; exact .refl w
  case calloc size =>
    simp only [World.exec] at ran
    split at ran
    · cases ran
      exact {alloc_quiet w size with mem := fun blk different => write_other different}
    · cases ran; exact .refl w
  case allocatedSize p =>
    simp only [World.exec] at ran
    split at ran
    · cases ran; exact .refl w
    · cases ran
  case esfBufAlloc type len =>
    simp only [World.exec] at ran
    split at ran
    · cases ran; exact .refl w
    · cases ran
      have alloc := alloc_quiet w len.toUInt32
      exact ⟨rfl,rfl,rfl,alloc.mem,alloc.fresh,rfl,rfl,rfl,rfl,rfl⟩
  case derefNull n | unspecified n =>
    simp only [World.exec] at ran
    split at ran
    · cases ran; exact .refl w
    · cases ran
  case sipSet a =>
    simp only [World.exec,Option.some.injEq,Prod.mk.injEq] at ran
    rw [← ran.2]
    cases a
    all_goals first
      | (cases quiet; done)
      | exact ⟨rfl,rfl,rfl,fun _ _ => rfl,Nat.le_refl _,rfl,rfl,rfl,rfl,rfl⟩
  all_goals first
    | (cases quiet; done)
    | (simp only [World.exec,Option.some.injEq,Prod.mk.injEq] at ran
       rw [← ran.2]
       exact ⟨rfl,rfl,rfl,fun _ _ => rfl,Nat.le_refl _,rfl,rfl,rfl,rfl,rfl⟩)

section
variable {P : Op → Prop}

-- `espSipSendCmdBuffer` in its operations, from the sequence number on and before it.
def sendFilled (buffer : Ptr) (cmd : List UInt8) (len : UInt32) : Code EspErr :=
  .op (.store (buffer.add 8) (le32 0)) fun _ => .op (.store (buffer.add sizeofSipHdr) cmd) fun _ =>
    .op (.semTake .sdioMutex none) fun _ => (espExtconnSdioSendPacket 1 buffer len).bind fun err =>
      .op (.semGive .sdioMutex) fun _ => .op (.free buffer) fun _ => .pure err

theorem sendCmdBuffer_eq (cid : UInt32) (len : UInt16) (cmd : List UInt8) (buffer : Ptr) : espSipSendCmdBuffer cid len cmd buffer =
    .op (.store buffer (List.replicate sizeofSipHdr 0)) fun _ => .op (.load buffer 1) fun fc0 =>
      .op (.store buffer [(fc0.getD 0 0 &&& ~~~sipTypeMask) ||| (sipCtrl &&& sipTypeMask)]) fun _ =>
      .op (.load (buffer.add 1) 1) fun fc1 => .op (.store (buffer.add 1) [fc1.getD 0 0 ||| sipHdrFSync]) fun _ =>
      .op (.store (buffer.add 2) (leBytes 2 len.toNat)) fun _ => .op (.store (buffer.add 4) (le32 cid)) fun _ =>
      if cid = sipCmdBootup then
        .op (.sipSet (.rxseq 0)) fun _ => .op (.sipSet (.txseq 0)) fun _ => sendFilled buffer cmd len.toUInt32
      else if cid = sipCmdInit then
        .op .sipGet fun sip => .op (.sipSet (.txseq (sip.txseq + 1))) fun _ => sendFilled buffer cmd len.toUInt32
      else sendFilled buffer cmd len.toUInt32 := by
  unfold espSipSendCmdBuffer sendFilled
  simp only [sipHdrSetType,sipHdrSetSync,sipHdrSetLen,sipHdrSetCmdid,sipHdrSetSeq,espSipIncreaseTxseq,espExtconnSdioLock,
    espExtconnSdioUnlock,Prog.bind_def,issue_bind,Prog.op_bind,Prog.pure_bind,Prog.pure_def]

theorem sendCmdBuffer_all (quiet : ∀ o, o.quiet = true → P o) (load : ∀ n k, P (.load (buffer.add n) k))
    (store : ∀ n bytes, P (.store (buffer.add n) bytes)) (reset : cid = sipCmdBootup → P (.sipSet (.rxseq 0)))
    (lock : P (.semTake .sdioMutex none)) (unlock : P (.semGive .sdioMutex)) (note : ∀ n : Note, n.sending 1 = true → P (.note n))
    (write : ∀ (len : UInt16) arg p size, P (.sdmmcIoWrite 1 (chunkAddr 1 len.toUInt32) arg (.mem p) size))
    (count : ∀ n, P (.hostSet (.totalTx n)))
    (len : UInt16) (cmd : List UInt8) : (espSipSendCmdBuffer cid len cmd buffer).All P := by
  have send := sendPacket_all (write len) note (quiet _ rfl) (fun _ => count) buffer
  have finish : (sendFilled buffer cmd len.toUInt32).All P := by
    refine ⟨store _ _,fun _ => ⟨store _ _,fun _ => ⟨lock,fun _ => Prog.All.bind send fun err => ?_⟩⟩⟩
    exact ⟨unlock,fun _ => ⟨quiet _ rfl,fun _ => trivial⟩⟩
  rw [sendCmdBuffer_eq]
  refine ⟨store 0 _,fun _ => ⟨load 0 _,fun _ => ⟨store 0 _,fun _ => ⟨load 1 _,fun _ => ⟨store 1 _,fun _ => ?_⟩⟩⟩⟩⟩
  refine ⟨store 2 _,fun _ => ⟨store 4 _,fun _ => Prog.All.ite (fun boot => ?_) fun _ => ?_⟩⟩
  · exact ⟨reset boot,fun _ => ⟨quiet _ rfl,fun _ => finish⟩⟩
  · exact Prog.All.ite (fun _ => ⟨quiet _ rfl,fun _ => ⟨quiet _ rfl,fun _ => finish⟩⟩) fun _ => finish

theorem sendCmd_all (quiet : ∀ o, o.quiet = true → P o) (load : ∀ p k, P (.load p k)) (store : ∀ p bytes, P (.store p bytes))
    (reset : cid = sipCmdBootup → P (.sipSet (.rxseq 0))) (lock : P (.semTake .sdioMutex none))
    (unlock : P (.semGive .sdioMutex)) (note : ∀ n : Note, n.sending 1 = true → P (.note n))
    (write : ∀ (len : UInt16) arg p size, P (.sdmmcIoWrite 1 (chunkAddr 1 len.toUInt32) arg (.mem p) size))
    (count : ∀ n, P (.hostSet (.totalTx n)))
    (cmdlen : UInt32) (cmd : List UInt8) : (espSipSendCmd cid cmdlen cmd).All P := by
  unfold espSipSendCmd
  simp only [Prog.bind_def,issue_bind,Prog.pure_def]
  refine ⟨note _ rfl,fun _ => ⟨quiet _ rfl,fun buffer => ?_⟩⟩
  cases buffer with
  | none => trivial
  | some buffer =>
      exact sendCmdBuffer_all quiet (fun _ => load _) (fun _ => store _) reset lock unlock note write count _ _

theorem sendChipInit_all (quiet : ∀ o, o.quiet = true → P o) (load : ∀ p k, P (.load p k))
    (store : ∀ p bytes, P (.store p bytes)) (lock : P (.semTake .sdioMutex none)) (unlock : P (.semGive .sdioMutex))
    (note : ∀ n : Note, n.sending 1 = true → P (.note n))
    (write : ∀ (len : UInt16) arg p size, P (.sdmmcIoWrite 1 (chunkAddr 1 len.toUInt32) arg (.mem p) size))
    (count : ∀ n, P (.hostSet (.totalTx n))) (cfg : Build) : (sipSendChipInit cfg).All P := by
  have other : sipCmdInit = sipCmdBootup → P (.sipSet (.rxseq 0)) := fun same => absurd same (by decide)
  exact ⟨quiet _ rfl,fun _ => sendCmd_all quiet load store other lock unlock note write count _ _⟩

theorem postInit_all (quiet : ∀ o, o.quiet = true → P o) (bevt : List UInt8) : (espSipPostInit bevt).All P :=
  ⟨quiet _ rfl,fun _ => ⟨quiet _ rfl,fun _ => ⟨quiet _ rfl,fun _ => ⟨quiet _ rfl,fun _ => ⟨quiet _ rfl,fun _ => trivial⟩⟩⟩⟩⟩

theorem parseBootup_all (quiet : ∀ o, o.quiet = true → P o) (load : P (.load (buf.add sizeofSipHdr) sizeofSipEvtBootup2))
    (state : P (.sipSet (.state .run))) (give : P (.semGive .bootSem)) : (parseBootup buf).All P := by
  have finish : (Prog.op (.load (buf.add sizeofSipHdr) sizeofSipEvtBootup2) fun bootupEvt =>
      (espSipPostInit bootupEvt).bind fun _ => .op (.sipSet (.state .run)) fun _ =>
        .op (.semGive .bootSem) fun _ => .pure .ok : Code EspErr).All P := by
    refine ⟨load,fun bevt => Prog.All.bind (postInit_all quiet bevt) fun _ => ?_⟩
    exact ⟨state,fun _ => ⟨give,fun _ => trivial⟩⟩
  unfold parseBootup
  simp only [Prog.bind_def,issue_bind,Prog.pure_def]
  rw [Prog.all_op]
  refine ⟨quiet _ rfl,fun sip => ?_⟩
  split
  · exact ⟨quiet _ rfl,fun _ => ⟨quiet _ rfl,fun _ => finish⟩⟩
  · exact finish

theorem parseTargetOn_all (quiet : ∀ o, o.quiet = true → P o) (load : ∀ p k, P (.load p k))
    (store : ∀ p bytes, P (.store p bytes)) (state : ∀ v, P (.sipSet (.state v)))
    (lock : P (.semTake .sdioMutex none)) (unlock : P (.semGive .sdioMutex))
    (note : ∀ n : Note, (∀ buf, n ≠ .parseEvents buf) → P (.note n))
    (write : ∀ (len : UInt16) arg p size, P (.sdmmcIoWrite 1 (chunkAddr 1 len.toUInt32) arg (.mem p) size))
    (count : ∀ n, P (.hostSet (.totalTx n)))
    (cfg : Build) : (parseTargetOn cfg).All P := by
  have send := sendChipInit_all quiet load store lock unlock (fun n sending => note n (sending_not_parse sending)) write count cfg
  unfold parseTargetOn
  simp only [Prog.bind_def,issue_bind,Prog.pure_def]
  refine ⟨quiet _ rfl,fun sip => Prog.All.ite (fun _ => ?_) fun _ => ⟨note _ (fun _ same => by cases same),fun _ => trivial⟩⟩
  refine ⟨state _,fun _ => Prog.All.bind send fun ret => ?_⟩
  exact Prog.All.ite (fun _ => ⟨state _,fun _ => trivial⟩) fun _ => trivial

theorem parseCoexState_all (quiet : ∀ o, o.quiet = true → P o)
    (load : P (.load (buf.add sizeofSipHdr) sizeofSipEvtCoexState)) : (parseCoexState buf).All P :=
  ⟨load,fun _ => ⟨quiet _ rfl,fun _ => trivial⟩⟩

-- The bytes of its body that an event is read for.
def evtBody (cfg : Build) (evtid : UInt8) : Nat :=
  if evtid = sipEvtBootup then sizeofSipEvtBootup2
  else if cfg.wifi ∧ evtid = sipEvtCoexState then sizeofSipEvtCoexState else 0

theorem parseSwitch_all (quiet : ∀ o, o.quiet = true → P o) (load : ∀ p k, P (.load p k))
    (store : ∀ p bytes, P (.store p bytes)) (state : ∀ v, P (.sipSet (.state v))) (give : P (.semGive .bootSem))
    (lock : P (.semTake .sdioMutex none)) (unlock : P (.semGive .sdioMutex))
    (note : ∀ n : Note, (∀ buf, n ≠ .parseEvents buf) → P (.note n))
    (write : ∀ (len : UInt16) arg p size, P (.sdmmcIoWrite 1 (chunkAddr 1 len.toUInt32) arg (.mem p) size))
    (count : ∀ n, P (.hostSet (.totalTx n)))
    (cfg : Build) (buf : Ptr) (evtid : UInt8) : (parseSwitch cfg buf evtid).All P := by
  unfold parseSwitch
  refine Prog.All.ite (fun _ => parseTargetOn_all quiet load store state lock unlock note write count cfg) fun _ => ?_
  refine Prog.All.ite (fun _ => parseBootup_all quiet (load (buf.add sizeofSipHdr) _) (state _) give) fun _ => ?_
  exact Prog.All.ite (fun _ => parseCoexState_all quiet (load (buf.add sizeofSipHdr) _)) fun _ => trivial

theorem parseEvents_all (quiet : ∀ o, o.quiet = true → P o) (load : ∀ p k, P (.load p k))
    (store : ∀ p bytes, P (.store p bytes)) (state : ∀ v, P (.sipSet (.state v))) (give : P (.semGive .bootSem))
    (lock : P (.semTake .sdioMutex none)) (unlock : P (.semGive .sdioMutex)) (note : ∀ n, P (.note n))
    (write : ∀ (len : UInt16) arg p size, P (.sdmmcIoWrite 1 (chunkAddr 1 len.toUInt32) arg (.mem p) size))
    (count : ∀ n, P (.hostSet (.totalTx n)))
    (cfg : Build) (buf : Ptr) : (espSipParseEvents cfg buf).All P :=
  ⟨note _,fun _ => ⟨load _ _,fun _ =>
    parseSwitch_all quiet load store state give lock unlock (fun n _ => note n) write count cfg buf _⟩⟩

theorem handleIntr0Loop_all (header : ∀ p, P (.load p sizeofSipHdr)) (get : P .sipGet) (count : ∀ n, P (.sipSet (.rxseq n)))
    (events : ∀ buf, (espSipParseEvents cfg buf).All P) (data : ∀ buf len, P (.sipRxProcess buf len)) (fuel : Nat) (buf : Ptr)
    (rlen : UInt32) : (handleIntr0Loop cfg fuel buf rlen).All P := by
  induction fuel generalizing buf rlen with
  | zero => trivial
  | succ fuel ih =>
      have rest : ∀ hdr : SipHdr, (if hdr.len.toUInt32 < rlen then
          handleIntr0Loop cfg fuel (buf.add hdr.len.toNat) (rlen - hdr.len.toUInt32) else .pure .ok).All P :=
        fun hdr => Prog.All.ite (fun _ => ih _ _) fun _ => trivial
      unfold handleIntr0Loop
      simp only [loadSipHdr,espSipIncreaseRxseq,Prog.bind_def,issue_bind,Prog.op_bind,Prog.pure_bind,Prog.pure_def]
      refine Prog.All.ite (fun _ => trivial) fun _ => ⟨header _,fun bytes => ?_⟩
      refine Prog.All.ite (fun _ => trivial) fun _ => ⟨get,fun _ => ⟨count _,fun _ => ?_⟩⟩
      refine Prog.All.ite (fun _ => trivial) fun _ => Prog.All.ite (fun _ => ?_) fun _ => ?_
      · exact Prog.All.bind (events _) fun _ => rest _
      · refine Prog.All.ite (fun _ => ⟨data _ _,fun _ => rest _⟩) fun _ => ?_
        exact Prog.All.ite (fun _ => ⟨data _ _,fun _ => rest _⟩) fun _ => rest _

theorem handleIntr1Tohost_eq : handleIntr1Tohost =
    .op (.semTake .sdioMutex none) fun _ =>
      .op (.sdmmcIoWrite 1 espSdioSlc1IntClr {increment := true} (.reg (le32 slchostSlc1TohostBit0IntClr)) 4) fun ret =>
        (unlockIfFailed ret).bind fun _ => .op (.sdmmcIoRead 1 espSdioConfigW1 {increment := true} .reg 4) fun r =>
          (unlockIfFailed r.1).bind fun _ => .op (.semGive .sdioMutex) fun _ =>
            (sendUnlockIfAcked (overlay 0 r.2)).bind fun _ => .pure r.1 := by
  unfold handleIntr1Tohost espExtconnSdioLock espExtconnSdioUnlock espExtconnSdioReadBytes
  simp only [clearTohost_eq,readRegister,Prog.bind_def,issue_bind,Prog.op_bind,Prog.pure_bind,Prog.pure_def]

theorem handleIntr1Tohost_all (lock : P (.semTake .sdioMutex none)) (unlock : P (.semGive .sdioMutex))
    (clear : P (.sdmmcIoWrite 1 espSdioSlc1IntClr {increment := true} (.reg (le32 slchostSlc1TohostBit0IntClr)) 4))
    (read : P (.sdmmcIoRead 1 espSdioConfigW1 {increment := true} .reg 4)) (ack : P (.semGive .txSem)) :
    handleIntr1Tohost.All P := by
  have failed : ∀ ret, (unlockIfFailed ret).All P := fun ret =>
    Prog.All.ite (fun _ => ⟨unlock,fun _ => trivial⟩) fun _ => trivial
  rw [handleIntr1Tohost_eq]
  refine ⟨lock,fun _ => ⟨clear,fun ret => Prog.All.bind (failed ret) fun _ => ⟨read,fun r => ?_⟩⟩⟩
  refine Prog.All.bind (failed _) fun _ => ⟨unlock,fun _ => Prog.All.bind ?_ fun _ => trivial⟩
  exact Prog.All.ite (fun _ => ⟨ack,fun _ => trivial⟩) fun _ => trivial

theorem handleIntr1Packet_all (lock : P (.semTake .sdioMutex none)) (unlock : P (.semGive .sdioMutex))
    (registers : ∀ addr, statusRegister addr → P (.sdmmcIoRead 1 addr {increment := true} .reg 4))
    (read : ∀ addr arg p size, P (.sdmmcIoRead extConnBtSdioFunc addr arg (.mem p) size)) (quiet : ∀ o, o.quiet = true → P o)
    (intr waitMs : UInt32) : (handleIntr1Packet intr waitMs).All P := by
  have get := getPacket_all registers (fun _ _ _ _ _ => read _ _ _ _) (quiet .hostGet rfl) (fun other => absurd rfl other)
    (quiet _ rfl) recvBuf 1034 waitMs
  unfold handleIntr1Packet espExtconnSdioLock espExtconnSdioUnlock espExtconnTransBtRecv
  simp only [Prog.bind_def,issue_bind,Prog.op_bind,Prog.pure_bind,Prog.pure_def]
  refine Prog.All.ite (fun _ => ⟨lock,fun _ => Prog.All.bind get fun result => ⟨unlock,fun _ => ?_⟩⟩) fun _ => trivial
  refine Prog.All.ite (fun _ => ⟨quiet _ rfl,fun registered => Prog.All.bind ?_ fun _ => trivial⟩) fun _ => trivial
  exact Prog.All.ite (fun _ => ⟨quiet _ rfl,fun _ => trivial⟩) fun _ => trivial

theorem handleIntr0Parse_all (header : ∀ p, P (.load p sizeofSipHdr)) (get : P .sipGet) (count : ∀ n, P (.sipSet (.rxseq n)))
    (events : ∀ buf, (espSipParseEvents cfg buf).All P) (data : ∀ buf len, P (.sipRxProcess buf len)) (rlen : UInt32) :
    (handleIntr0Parse cfg rlen).All P := by
  unfold handleIntr0Parse
  exact Prog.All.ite (fun _ => trivial) fun _ => handleIntr0Loop_all header get count events data _ _ _

end

-- A packet whose writes do not fail is sent, and so is a command whose buffer is
-- allocated as well.
def writes : (o : Op) → o.Answer → Prop
  | .sdmmcIoWrite _ _ _ _ _,r => r = EspErr.ok
  | _,_ => True

def sends : (o : Op) → o.Answer → Prop
  | .calloc _,r => r ≠ none
  | .sdmmcIoWrite _ _ _ _ _,r => r = EspErr.ok
  | _,_ => True

theorem sends_writes (o : Op) (r : o.Answer) (admitted : sends o r) : writes o r := by
  cases o <;> first | exact admitted | trivial

theorem sendPacketChunks_writes (function addr : UInt32) (p : Ptr) (n : UInt32) :
    (sendPacketChunks function addr (n.toNat + 1) p n).ReturnsWhen writes (fun err => err = .ok) := by
  by_cases large : 512 ≤ n.toNat
  · obtain ⟨fuel,same⟩ : ∃ k, n.toNat + 1 = k + 2 := ⟨n.toNat - 1,by omega⟩
    rw [same,sendPacketChunks_blocks _ _ _ _ large]
    refine fun r sent => Prog.ReturnsWhen.ite (fun failed => absurd sent failed) fun _ => ?_
    exact Prog.ReturnsWhen.ite (fun _ => rfl) fun _ r sent => sent
  · by_cases nonzero : 0 < n.toNat
    · rw [sendPacketChunks_tail _ _ _ _ nonzero (by omega)]
      exact fun r sent => sent
    · have zero : n = 0 := Decidable.not_not.mp fun some => nonzero ((toNat_ne_zero n).mp some)
      subst n
      rfl

theorem sendPacket_writes (function : UInt32) (start : Ptr) (n : UInt32) :
    (espExtconnSdioSendPacket function start n).ReturnsWhen writes (fun err => err = .ok) := by
  unfold espExtconnSdioSendPacket
  simp only [Prog.bind_def,issue_bind,Prog.pure_def]
  intro _ _
  refine (sendPacketChunks_writes _ _ _ _).bind fun err sent => ?_
  refine Prog.ReturnsWhen.ite (fun failed => absurd sent failed) fun _ => Prog.ReturnsWhen.ite ?_ fun _ _ _ => rfl
  exact fun _ _ _ _ _ _ _ => Prog.ReturnsWhen.ite (fun _ _ _ _ _ => rfl) fun _ _ _ => rfl

theorem sendCmd_sends (cid cmdlen : UInt32) (cmd : List UInt8) :
    (espSipSendCmd cid cmdlen cmd).ReturnsWhen sends (fun err => err = .ok) := by
  have finish : ∀ (buffer : Ptr) (n : UInt32), (sendFilled buffer cmd n).ReturnsWhen sends (fun err => err = .ok) :=
    fun buffer n _ _ _ _ _ _ => ((sendPacket_writes _ _ _).mono sends_writes).bind fun err sent _ _ _ _ => sent
  unfold espSipSendCmd
  simp only [Prog.bind_def,issue_bind,Prog.pure_def,sendCmdBuffer_eq]
  intro _ _ buffer allocated
  cases buffer with
  | none => exact absurd rfl allocated
  | some buffer =>
      refine fun _ _ _ _ _ _ _ _ _ _ _ _ _ _ => Prog.ReturnsWhen.ite (fun _ _ _ _ _ => finish _ _) fun _ => ?_
      exact Prog.ReturnsWhen.ite (fun _ _ _ _ _ => finish _ _) fun _ => finish _ _

-- Which operations a component of the world is changed by.
def setsState : Op → Bool
  | .sipSet (.state _) => true
  | _ => false
def setsTotalTx : Op → Bool
  | .hostSet (.totalTx _) => true
  | _ => false
def movesMutex : Op → Bool
  | .semTake .sdioMutex _ | .semGive .sdioMutex => true
  | _ => false
def movesTxSem : Op → Bool
  | .semTake .txSem _ | .semGive .txSem => true
  | _ => false
def movesBootSem : Op → Bool
  | .semTake .bootSem _ | .semGive .bootSem | .createBootSem | .deleteBootSem => true
  | _ => false
def movesTxQue : Op → Bool
  | .queueReceive | .queueSend _ _ => true
  | _ => false

structure Frame (o : Op) (w w' : World) : Prop where
  state : setsState o = false → w'.sip.state = w.sip.state
  total : setsTotalTx o = false → w'.host.totalTx = w.host.totalTx
  mutex : movesMutex o = false → w'.sdioMutex = w.sdioMutex
  txSem : movesTxSem o = false → w'.txSem = w.txSem
  bootSem : movesBootSem o = false → w'.bootSem = w.bootSem
  txQue : movesTxQue o = false → w'.txQue = w.txQue

theorem Frame.same (o : Op) (w : World) : Frame o w w :=
  ⟨fun _ => rfl,fun _ => rfl,fun _ => rfl,fun _ => rfl,fun _ => rfl,fun _ => rfl⟩

theorem exec_frame {t : Task} {o : Op} {r : o.Answer} {w w' : World} (ran : World.exec t o ans w = some (r,w')) :
    Frame o w w' := by
  by_cases quiet : o.quiet = true
  · have step := quiet_exec quiet ran
    exact ⟨fun _ => step.state,fun _ => by rw [step.host],fun _ => step.sdioMutex,fun _ => step.txSem,fun _ => step.bootSem,
      fun _ => step.txQue⟩
  cases o
  case sdmmcIoRead =>
    obtain ⟨_,rfl,_⟩ := read_exec ran
    exact ⟨fun _ => rfl,fun _ => rfl,fun _ => rfl,fun _ => rfl,fun _ => rfl,fun _ => rfl⟩
  case semTake s wait =>
    cases s
    case sdioMutex =>
      simp only [World.exec] at ran
      split at ran
      · cases ran
        exact {Frame.same _ w with mutex := fun no => by cases no}
      · cases ran
    case txSem =>
      simp only [World.exec] at ran
      split at ran
      · cases ran
        exact {Frame.same _ w with txSem := fun no => by cases no}
      · cases ran
    case bootSem =>
      simp only [World.exec] at ran
      split at ran
      · split at ran
        · cases ran
        · cases ran; exact .same _ w
      · cases ran
        exact {Frame.same _ w with bootSem := fun no => by cases no}
      · cases ran; exact .same _ w
  case semGive s =>
    cases s
    case sdioMutex =>
      cases ran
      exact {Frame.same _ w with mutex := fun no => by cases no}
    case txSem =>
      cases ran
      exact {Frame.same _ w with txSem := fun no => by cases no}
    case bootSem =>
      simp only [World.exec] at ran
      split at ran
      · cases ran
        exact {Frame.same _ w with bootSem := fun no => by cases no}
      · cases ran; exact .same _ w
  case createBootSem =>
    cases ran
    exact {Frame.same _ w with bootSem := fun no => by cases no}
  case deleteBootSem =>
    simp only [World.exec] at ran
    split at ran
    · cases ran
      exact {Frame.same _ w with bootSem := fun no => by cases no}
    · cases ran; exact .same _ w
  case queueReceive =>
    simp only [World.exec] at ran
    split at ran
    · cases ran
    · cases ran
      exact {Frame.same _ w with txQue := fun no => by cases no}
  case queueSend msg wait =>
    simp only [World.exec] at ran
    split at ran
    · cases ran
      exact {Frame.same _ w with txQue := fun no => by cases no}
    · cases ran; exact .same _ w
  case listWaitItem =>
    simp only [World.exec] at ran
    split at ran
    · cases ran; exact .same _ w
    · cases ran
  case listClear =>
    simp only [World.exec] at ran
    obtain ⟨⟨recycled,q⟩,_,same⟩ := Option.map_eq_some_iff.mp ran
    cases same
    exact {Frame.same _ w with}
  case btHostCall =>
    simp only [World.exec] at ran
    split at ran
    · cases ran; exact .same _ w
    · cases ran
  case sipSet a =>
    cases ran
    cases a with
    | state v => exact {Frame.same _ w with state := fun no => by cases no}
    | rxseq v => exact {Frame.same _ w with}
    | _ => exact absurd rfl quiet
  case hostSet a =>
    cases ran
    cases a with
    | totalTx v => exact {Frame.same _ w with total := fun no => by cases no}
    | totalRx v => exact {Frame.same _ w with}
  all_goals first
    | exact absurd rfl quiet
    | (cases ran; exact {Frame.same _ w with})

def setsSip : Op → Bool
  | .sipSet _ => true
  | _ => false
def setsHost : Op → Bool
  | .hostSet _ => true
  | _ => false
def movesList : Op → Bool
  | .listRemove | .listInsert _ | .listHeadInsert _ | .listClear => true
  | _ => false

structure PartFrame (o : Op) (w w' : World) : Prop where
  sip : setsSip o = false → w'.sip = w.sip
  host : setsHost o = false → w'.host = w.host
  wifiTx : movesList o = false → w'.wifiTx = w.wifiTx

theorem exec_kept {t : Task} {o : Op} {r : o.Answer} {w w' : World} (ran : World.exec t o ans w = some (r,w')) :
    PartFrame o w w' := by
  have same : ∀ o, PartFrame o w w := fun _ => ⟨fun _ => rfl,fun _ => rfl,fun _ => rfl⟩
  cases o
  case sdmmcIoRead =>
    obtain ⟨_,rfl,_⟩ := read_exec ran
    exact {same _ with}
  case sipSet =>
    cases ran
    exact {same _ with sip := fun no => by cases no}
  case hostSet =>
    cases ran
    exact {same _ with host := fun no => by cases no}
  case semTake s wait =>
    cases s
    case bootSem =>
      simp only [World.exec] at ran
      split at ran <;> try split at ran
      all_goals cases ran
      all_goals exact {same _ with}
    all_goals
      simp only [World.exec] at ran
      split at ran <;> cases ran
      exact {same _ with}
  case semGive s =>
    cases s
    case bootSem =>
      simp only [World.exec] at ran
      split at ran <;> cases ran <;> exact {same _ with}
    all_goals
      cases ran
      exact {same _ with}
  case listClear =>
    obtain ⟨⟨recycled,q⟩,_,cleared⟩ := Option.map_eq_some_iff.mp ran
    cases cleared
    exact {same _ with wifiTx := fun no => by cases no}
  case listRemove =>
    cases ran
    exact {same _ with wifiTx := fun no => by cases no}
  case listInsert =>
    cases ran
    exact {same _ with wifiTx := fun no => by cases no}
  case listHeadInsert =>
    cases ran
    exact {same _ with wifiTx := fun no => by cases no}
  all_goals
    simp only [World.exec] at ran
    first
      | (cases ran; exact {same _ with})
      | (split at ran <;> first | (cases ran; done) | (cases ran; exact {same _ with}))

theorem sip_kept {t : Task} {o : Op} {r : o.Answer} {w w' : World} (other : setsSip o = false)
    (ran : World.exec t o ans w = some (r,w')) : w'.sip = w.sip := (exec_kept ran).sip other

theorem list_kept {t : Task} {o : Op} {r : o.Answer} {w w' : World} (other : movesList o = false)
    (ran : World.exec t o ans w = some (r,w')) : w'.wifiTx = w.wifiTx := (exec_kept ran).wifiTx other

end ExtConn
