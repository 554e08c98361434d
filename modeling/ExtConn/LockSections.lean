import ExtConn.BusLock
import ExtConn.CriticalSections

namespace ExtConn.LockSections
open Effects ByteMemory Interleaving CriticalSections

-- What a task does while it holds `sdio_mutex`: transfers, its counters, and the
-- delays of a poll that ends by itself.
def onBus : Op → Bool
  | .sdmmcIoRead _ _ _ _ _ | .sdmmcIoWrite _ _ _ _ _ | .hostGet | .hostSet _ | .note _ | .taskDelay _ => true
  | _ => false

def takesBus : Op → Bool
  | .semTake .sdioMutex _ => true
  | _ => false

def givesBus : Op → Bool
  | .semGive .sdioMutex => true
  | _ => false

def bus : Bracket signature := ⟨takesBus,givesBus,fun o => onBus o = true⟩

theorem takes_eq {o : Op} (opens : takesBus o = true) : ∃ wait, o = .semTake .sdioMutex wait := by
  cases o
  case semTake sem wait => cases sem <;> first | exact ⟨wait,rfl⟩ | cases opens
  all_goals cases opens

theorem gives_eq {o : Op} (closes : givesBus o = true) : o = .semGive .sdioMutex := by
  cases o
  case semGive sem => cases sem <;> first | rfl | cases closes
  all_goals cases closes

theorem plain_mutex {o : Op} (plain : bus.plain o) : movesMutex o = false := by
  cases o
  case semTake sem wait => cases sem <;> first | rfl | cases plain.1
  case semGive sem => cases sem <;> first | rfl | cases plain.2
  all_goals rfl

theorem plain_of (o : Op) (other : movesMutex o = false) : bus.plain o := by
  cases o
  case semTake sem wait => cases sem <;> first | exact ⟨rfl,rfl⟩ | cases other
  case semGive sem => cases sem <;> first | exact ⟨rfl,rfl⟩ | cases other
  all_goals exact ⟨rfl,rfl⟩

theorem quiet_off (o : Op) (quiet : o.quiet = true) : movesMutex o = false := by
  cases o <;> first | rfl | cases quiet

theorem on_bus (o : Op) (inside : Bool) (on : onBus o = true) : bus.plain o ∧ (inside = true → bus.inner o) := by
  refine ⟨plain_of o ?_,fun _ => on⟩
  cases o <;> first | rfl | cases on

section
variable {inside : Bool}

theorem off {o : Op} {next : o.Answer → Code α} (other : movesMutex o = false) (rest : ∀ r, bus.Fits false (next r)) :
    bus.Fits false (Prog.op o next : Code α) :=
  fits_op (plain_of o other) (fun inside => by cases inside) rest

theorem lock {next : Bool → Code α} (rest : ∀ r, bus.Fits true (next r)) :
    bus.Fits false (Prog.op (.semTake .sdioMutex none) next : Code α) := fits_open rfl rest

theorem unlock {next : Unit → Code α} (rest : ∀ r, bus.Fits false (next r)) :
    bus.Fits inside (Prog.op (.semGive .sdioMutex) next : Code α) := fits_close rfl rfl rest

theorem getPacket_fits {outBuf : Ptr} {f : EspErr × Option UInt32 → Code α} (function size waitMs : UInt32)
    (rest : ∀ a, bus.Fits inside (f a)) : bus.Fits inside ((espExtconnSdioGetPacket function outBuf size waitMs).bind f) :=
  fits_during (getPacket_all (fun _ _ => on_bus _ _ rfl) (fun _ _ _ _ _ => on_bus _ _ rfl) (on_bus _ _ rfl)
    (fun _ _ => on_bus _ _ rfl) (on_bus _ _ rfl) _ _ _) rest

theorem sendPacket_fits {start : Ptr} {f : EspErr → Code α} (function length : UInt32) (rest : ∀ a, bus.Fits inside (f a)) :
    bus.Fits inside ((espExtconnSdioSendPacket function start length).bind f) :=
  fits_during (sendPacket_all (fun _ _ _ => on_bus _ _ rfl) (fun _ _ => on_bus _ _ rfl) (on_bus _ _ rfl)
    (fun _ _ => on_bus _ _ rfl) _) rest

theorem sendCmd_fits (cid cmdlen : UInt32) (cmd : List UInt8) : bus.Fits false (espSipSendCmd cid cmdlen cmd) := by
  unfold espSipSendCmd espSipSendCmdBuffer
  simp only [sipHdrSetType,sipHdrSetSync,sipHdrSetLen,sipHdrSetCmdid,sipHdrSetSeq,espSipIncreaseTxseq,espExtconnSdioLock,
    espExtconnSdioUnlock,Prog.bind_def,issue_bind,Prog.op_bind,Prog.pure_bind,Prog.pure_def]
  refine off rfl fun _ => off rfl fun p => ?_
  cases p with
  | none => exact fits_pure _
  | some buffer =>
      have finish : bus.Fits false (Prog.op (.store (buffer.add 8) (le32 0)) fun _ => .op (.store (buffer.add sizeofSipHdr) cmd) fun _ =>
          .op (.semTake .sdioMutex none) fun _ => (espExtconnSdioSendPacket 1 buffer
            (cmdlen + sipCtrlHdrLen).toUInt16.toUInt32).bind fun err =>
              .op (.semGive .sdioMutex) fun _ => .op (.free buffer) fun _ => .pure err : Code EspErr) := by
        refine off rfl fun _ => off rfl fun _ => lock fun _ => sendPacket_fits _ _ fun err => unlock fun _ => ?_
        exact off rfl fun _ => fits_pure _
      refine off rfl fun _ => off rfl fun _ => off rfl fun _ => off rfl fun _ => off rfl fun _ => off rfl fun _ => off rfl fun _ => ?_
      split
      · exact off rfl fun _ => off rfl fun _ => finish
      · split
        · exact off rfl fun _ => off rfl fun _ => finish
        · exact finish

theorem parseEvents_fits (cfg : Build) (buf : Ptr) : bus.Fits false (espSipParseEvents cfg buf) := by
  have targetOn : bus.Fits false (parseTargetOn cfg) := by
    unfold parseTargetOn sipSendChipInit
    simp only [Prog.bind_def,issue_bind,Prog.op_bind,Prog.pure_def]
    refine off rfl fun sip => fits_ite (off rfl fun _ => off rfl fun after => ?_) (off rfl fun _ => fits_pure _)
    exact fits_bind (sendCmd_fits _ _ _) fun err => fits_ite (off rfl fun _ => fits_pure _) (fits_pure _)
  have bootup : bus.Fits false (parseBootup buf) := by
    exact fits_all (parseBootup_all (fun o quiet => plain_of o (quiet_off o quiet)) (plain_of _ rfl) (plain_of _ rfl) (plain_of _ rfl))
  refine off rfl fun _ => off rfl fun bytes => ?_
  refine fits_ite targetOn (fits_ite bootup (fits_ite ?_ (fits_pure _)))
  exact off rfl fun _ => off rfl fun _ => fits_pure _

theorem handleIntr0Loop_fits (cfg : Build) (fuel : Nat) (buf : Ptr) (rlen : UInt32) : bus.Fits false (handleIntr0Loop cfg fuel buf rlen) := by
  induction fuel generalizing buf rlen with
  | zero => exact fits_pure _
  | succ fuel ih =>
      have rest : ∀ hdr : SipHdr, bus.Fits false (if hdr.len.toUInt32 < rlen then
          handleIntr0Loop cfg fuel (buf.add hdr.len.toNat) (rlen - hdr.len.toUInt32) else .pure .ok) :=
        fun hdr => fits_ite (ih _ _) (fits_pure _)
      unfold handleIntr0Loop
      simp only [loadSipHdr,espSipIncreaseRxseq,Prog.bind_def,issue_bind,Prog.op_bind,Prog.pure_bind,Prog.pure_def]
      refine fits_ite (fits_pure _) (off rfl fun bytes => fits_ite (fits_pure _) (off rfl fun sip => off rfl fun _ => ?_))
      refine fits_ite (fits_pure _) (fits_ite (fits_bind (parseEvents_fits cfg buf) fun _ => rest _) ?_)
      exact fits_ite (off rfl fun _ => rest _) (fits_ite (off rfl fun _ => rest _) (rest _))

-- Where a transfer fails the section is closed early, and closed again later.
theorem tohost_fits : bus.Fits false handleIntr1Tohost := by
  have failed : ∀ {inside : Bool} (ret : EspErr) (f : Unit → Code EspErr), (∀ inside, bus.Fits inside (f ())) →
      bus.Fits inside ((unlockIfFailed ret).bind f) := by
    intro inside ret f rest
    unfold unlockIfFailed espExtconnSdioUnlock
    split
    · exact unlock fun _ => rest false
    · exact rest inside
  have on : ∀ {inside : Bool} {o : Op} {next : o.Answer → Code EspErr}, onBus o = true → (∀ r, bus.Fits inside (next r)) →
      bus.Fits inside (Prog.op o next : Code EspErr) :=
    fun {inside} {o} _ bus rest => fits_op (on_bus o inside bus).1 (on_bus o inside bus).2 rest
  rw [handleIntr1Tohost_eq]
  refine lock fun _ => on rfl fun ret => failed _ _ fun inside => on rfl fun r => failed _ _ fun inside => unlock fun _ => ?_
  unfold sendUnlockIfAcked espExtconnTransBtSendUnlock
  split
  · exact off rfl fun _ => fits_pure _
  · exact fits_pure _

theorem transRecv_fits (cfg : Build) : bus.Fits false (transRecvTask cfg) := by
  have intr0 : ∀ intr, bus.Fits false (handleIntr0If cfg intr) := by
    intro intr
    unfold handleIntr0If handleIntr0 espExtconnSdioLock espExtconnSdioUnlock handleIntr0Parse
    simp only [Prog.bind_def,issue_bind,Prog.op_bind,Prog.pure_bind,Prog.pure_def]
    refine fits_ite (lock fun _ => ?_) (fits_pure _)
    rw [Prog.bind_assoc]
    refine getPacket_fits _ _ _ fun result => unlock fun _ => fits_bind ?_ fun _ => fits_pure _
    exact fits_ite (fits_pure _) (handleIntr0Loop_fits cfg _ _ _)
  have packet : ∀ intr waitMs, bus.Fits false (handleIntr1Packet intr waitMs) := by
    intro intr waitMs
    unfold handleIntr1Packet espExtconnSdioLock espExtconnSdioUnlock espExtconnTransBtRecv
    simp only [Prog.bind_def,issue_bind,Prog.op_bind,Prog.pure_bind,Prog.pure_def]
    refine fits_ite (lock fun _ => getPacket_fits _ _ _ fun result => unlock fun _ => ?_) (fits_pure _)
    refine fits_ite (off rfl fun registered => fits_bind ?_ fun _ => fits_pure _) (fits_pure _)
    exact fits_ite (off rfl fun _ => fits_pure _) (fits_pure _)
  have intr1 : ∀ intr, bus.Fits false (handleIntr1If cfg intr) := by
    intro intr
    refine fits_ite (fits_bind (fits_bind (packet _ _) fun _ => ?_) fun _ => fits_pure _) (fits_pure _)
    exact fits_ite tohost_fits (fits_pure _)
  unfold transRecvTask espExtconnSdioWaitInt espExtconnSdioLock espExtconnSdioUnlock
  simp only [Prog.bind_def,issue_bind,Prog.op_bind,Prog.pure_bind,Prog.pure_def]
  refine off rfl fun ret => fits_ite (fits_pure _) (lock fun _ => ?_)
  refine fits_during (getIntr_all (fun _ _ => on_bus _ _ rfl) _ _) fun result => fits_ite (unlock fun _ => fits_pure _) ?_
  refine fits_ite (unlock fun _ => fits_pure _) (fits_during (clearIntr_all (fun _ _ _ => on_bus _ _ rfl) _ _) fun _ => ?_)
  exact unlock fun _ => fits_bind (intr0 _) fun _ => fits_bind (intr1 _) fun _ => fits_pure _

theorem wifiSendPoll_fits (l : WifiLocals) : bus.Fits false (wifiSendPoll l) := by
  unfold wifiSendPoll wifiSendPacket espExtconnSdioLock espExtconnSdioUnlock
  simp only [Prog.bind_def,issue_bind,Prog.op_bind,Prog.pure_bind,Prog.pure_def]
  refine lock fun _ => fits_during (getBufferSize_all (on_bus _ _ rfl) (on_bus _ _ rfl) fun _ => on_bus _ _ rfl) fun size => ?_
  refine unlock fun _ => fits_ite (off rfl fun _ => fits_pure _) (fits_bind ?_ fun _ => lock fun _ => ?_)
  · exact fits_all (wifiSetSeq_all (plain_of _ rfl) (fun _ => plain_of _ rfl) (fun _ _ => plain_of _ rfl) (fun _ _ => plain_of _ rfl) _)
  · refine sendPacket_fits _ _ fun err => unlock fun _ => fits_ite (fits_pure _) (off rfl fun back => ?_)
    exact fits_ite (off rfl fun _ => off rfl fun _ => fits_pure _) (off rfl fun _ => fits_pure _)

theorem btTxTask_fits (txSeq : UInt32) : bus.Fits false (btTxTask txSeq) := by
  rw [btTxTask_eq]
  refine off rfl fun _ => off rfl fun msg => ?_
  cases msg with
  | none => exact fits_pure _
  | some buf =>
      cases given : buf.data with
      | none =>
          simp only [given]
          exact fits_pure _
      | some data =>
          simp only [given]
          refine fits_ite (fits_pure _) (off rfl fun hdr => ?_)
          cases hdr with
          | none => exact off rfl fun _ => fits_pure _
          | some hdr =>
              unfold btTxPacket memcpy espExtconnSdioLock espExtconnSdioUnlock
              simp only [Prog.bind_def,issue_bind,Prog.op_bind,Prog.pure_bind,Prog.pure_def]
              refine off rfl fun _ => off rfl fun _ => off rfl fun _ => off rfl fun _ => off rfl fun _ => lock fun _ => ?_
              exact sendPacket_fits _ _ fun err => unlock fun _ => off rfl fun _ => off rfl fun _ => fits_pure _

theorem bootup_fits (cfg : Build) (entryAddr : UInt32) : bus.Fits false (block cfg (.espSipBootup entryAddr)) := by
  have wait : ∀ sent, bus.Fits false (bootupWait cfg sent) := by
    intro sent
    refine fits_ite (off rfl fun _ => off rfl fun _ => fits_ite (off rfl fun _ => fits_pure _) (fits_pure _)) (fits_pure _)
  refine fits_bind (fits_bind (sendCmd_fits _ _ _) fun sent => fits_bind (wait sent) fun ret => ?_) fun _ => fits_pure _
  exact off rfl fun _ => fits_pure _

theorem may_off {t : Task} {o : Op} (own : issues t o → movesMutex o = false) (may : mayIssue t o) : bus.plain o := by
  refine plain_of o ?_
  rcases may with calm | may
  · cases o
    case semTake | semGive => cases calm
    all_goals rfl
  · exact own may

theorem wifiStack_fits (cfg : Build) : bus.Fits false (block cfg .wifiStack) := by
  refine fits_all ((wifiStack_all cfg (l := .wifiStack) trivial).mono fun o => may_off fun own => ?_)
  cases o <;> first | rfl | cases own

theorem btHost_fits (cfg : Build) : bus.Fits false (block cfg .btHost) := by
  refine fits_all ((btHost_all cfg (l := .btHost) trivial).mono fun o => may_off fun own => ?_)
  cases o <;> first | rfl | cases own

theorem block_fits (cfg : Build) (l : Label) : bus.Fits false (block cfg l) := by
  cases l with
  | transRecvTask => exact transRecv_fits cfg
  | wifiSendTask =>
      refine off rfl fun p => ?_
      cases p with
      | none => exact fits_pure _
      | some p => exact off rfl fun _ => fits_pure _
  | wifiSendLoop sendBuf size =>
      refine off rfl fun _ => off rfl fun eb => fits_ite (fits_pure _) (fits_bind ?_ fun n => fits_ite (fits_pure _) (fits_pure _))
      exact fits_all (wifiBuildPacket_all (plain_of _ rfl) (fun _ => plain_of _ rfl) (fun _ _ => plain_of _ rfl)
        (fun _ _ => plain_of _ rfl) _ _)
  | wifiSendPoll l => exact wifiSendPoll_fits l
  | btTxTask txSeq => exact btTxTask_fits txSeq
  | espSipBootup entryAddr => exact bootup_fits cfg entryAddr
  | btHost => exact btHost_fits cfg
  | wifiStack => exact wifiStack_fits cfg
  | returned => exact fits_pure _
  | aborted => exact fits_pure _

end

theorem system_locks (cfg : Build) (slave : Slave δ) : Locks (system cfg slave) bus fun s => s.1.sdioMutex := by
  refine ⟨block_fits cfg,fun t o s r s' opens acted => ?_,fun t o s r s' closes acted => ?_,fun t o s r s' plain acted => ?_,?_⟩
  · obtain ⟨wait,rfl⟩ := takes_eq opens
    obtain ⟨ans,ran⟩ := act_exec acted
    exact (BusLock.mutex_taken ran).2
  · obtain rfl := gives_eq closes
    obtain ⟨ans,ran⟩ := act_exec acted
    exact BusLock.mutex_given ran
  · obtain ⟨ans,ran⟩ := act_exec acted
    exact (exec_frame ran).mutex (plain_mutex plain)
  · rintro s s' ⟨same,_⟩
    rw [same]

-- Every task stands between two of its blocks, and nobody holds the bus.
structure Idle (c : Config signature Task Label (World × δ)) : Prop where
  between : ∀ t, ∃ l, c.running t = .pure l
  free : c.shared.1.sdioMutex = none

theorem opening_placed {c : Config signature Task Label (World × δ)} (idle : Idle c) (t : Task) :
    Placed bus (fun s : World × δ => s.1.sdioMutex) c t := by
  obtain ⟨l,here⟩ := idle.between t
  refine ⟨false,by rw [here]; exact fits_pure _,fun _ => ?_⟩
  show c.shared.1.sdioMutex ≠ some t
  rw [idle.free]
  exact fun same => by cases same

-- A task that holds the bus is at a transfer or about to give the bus back: it
-- waits for no semaphore, message, buffer or interrupt, and allocates nothing.
theorem holder_on_bus (cfg : Build) (slave : Slave δ) (start c : Config signature Task Label (World × δ)) (idle : Idle start)
    (path : Reached (system cfg slave) start c) (t : Task) (owned : c.shared.1.sdioMutex = some t) :
    ∃ o, c.pending t = some o ∧ (onBus o = true ∨ o = .semGive .sdioMutex) := by
  have placed := (system_locks cfg slave).reached_placed (opening_placed idle) path t
  obtain ⟨o,next,here,fits⟩ := placed.owned owned
  refine ⟨o,pending_iff.mpr ⟨next,here⟩,?_⟩
  rw [here] at fits
  rcases fits_cases fits with ⟨_,impossible,_⟩ | ⟨_,closes,_⟩ | ⟨_,inner,_⟩
  · cases impossible
  · exact .inr (gives_eq closes)
  · exact .inl (inner rfl)

theorem idle_idle : Idle BusLock.idle := ⟨fun t => by cases t <;> exact ⟨_,rfl⟩,rfl⟩

-- Also where the receive task, after a failed transfer, has given back what it no
-- longer held.
theorem bus_taken : ∃ c, Reached (system ⟨true,true⟩ openSlave) BusLock.idle c ∧ c.shared.1.sdioMutex = some .btTx := by
  have passed : (schedule (block ⟨true,true⟩) openSlave.exec (BusLock.wokenUp .fail ++ [(.transRecv,{err := .ok})] ++
      List.replicate 5 (.btHost,{data := [1]}) ++ List.replicate 11 (.btTx,{err := .ok})) BusLock.idle).any
      (fun c => c.shared.1.sdioMutex = some .btTx) = true := by decide +kernel
  obtain ⟨c,path,taken⟩ := schedule_exists (m := system ⟨true,true⟩ openSlave) (fun _ _ ans _ _ _ ran => ⟨ans,ran⟩) _ passed
  exact ⟨c,path,of_decide_eq_true taken⟩

theorem bt_holder_on_bus : ∃ c, Reached (system ⟨true,true⟩ openSlave) BusLock.idle c ∧ c.shared.1.sdioMutex = some .btTx ∧
    ∃ o, c.pending .btTx = some o ∧ (onBus o = true ∨ o = .semGive .sdioMutex) := by
  obtain ⟨c,path,taken⟩ := bus_taken
  exact ⟨c,path,taken,holder_on_bus ⟨true,true⟩ openSlave BusLock.idle c idle_idle path .btTx taken⟩

theorem on_bus_answers {t : Task} {o : Op} (on : onBus o = true) (w : World) : ∃ ans r w', World.exec t o ans w = some (r,w') := by
  cases o
  case sdmmcIoRead function addr arg dst size =>
    let bytes : List UInt8 := List.replicate size.toNat 0
    refine ⟨{data := bytes},(.ok,bytes),{w with mem := dst.put bytes w.mem},if_pos ?_⟩
    exact List.length_replicate
  all_goals first
    | (cases on; done)
    | exact ⟨{flag := true},_,_,rfl⟩

theorem bus_free (t : Task) (o : Op) (s : World × Unit) (on : bus.plain o ∧ bus.inner o ∨ bus.closes o = true) :
    ∃ r s', openSlave.act t o s r s' := by
  have some_answer : ∃ ans r w, World.exec t o ans s.1 = some (r,w) := by
    rcases on with ⟨_,inner⟩ | closes
    · exact on_bus_answers inner s.1
    · rw [gives_eq closes]
      exact ⟨{flag := true},_,_,rfl⟩
  obtain ⟨ans,r,w,ran⟩ := some_answer
  exact ⟨r,(w,()),act_iff.mpr ⟨ans,ran,rfl⟩⟩

-- Whoever holds the bus gives it back without a step of anybody else: it can go on
-- at every point, and however its transfers end it comes to the release.
theorem holder_releases (cfg : Build) (start c : Config signature Task Label (World × Unit)) (idle : Idle start)
    (path : Reached (system cfg openSlave) start c) (t : Task) (owned : c.shared.1.sdioMutex = some t) :
    Bound (system cfg openSlave) t (fun c => c.shared.1.sdioMutex = none) c ∧
      ∃ c', Alone (system cfg openSlave) t c c' ∧ c'.shared.1.sdioMutex = none := by
  have locks := system_locks cfg openSlave
  obtain ⟨o,next,here,fits⟩ := (locks.reached_placed (opening_placed idle) path t).owned owned
  have bound := locks.released bus_free _ fits c rfl owned
  exact ⟨bound,bound.alone⟩

theorem bt_holder_releases : ∃ c c', Reached (system ⟨true,true⟩ openSlave) BusLock.idle c ∧ c.shared.1.sdioMutex = some .btTx ∧
    Alone (system ⟨true,true⟩ openSlave) .btTx c c' ∧ c'.shared.1.sdioMutex = none := by
  obtain ⟨c,path,taken⟩ := bus_taken
  obtain ⟨c',alone,given⟩ := (holder_releases ⟨true,true⟩ BusLock.idle c idle_idle path .btTx taken).2
  exact ⟨c,c',path,taken,alone,given⟩

end ExtConn.LockSections
