import ExtConn.Footprint

namespace ExtConn
open Effects ByteMemory Interleaving

-- The running component: every task executes its blocks, and the slave moves by
-- itself in between.
def system (cfg : Build) (slave : Slave δ) : Machine signature Task Label (World × δ) where
  code := block cfg
  act := slave.act
  env s s' := s'.1 = s.1 ∧ slave.moves s.2 s'.2

def labelsOf : Task → Label → Prop
  | .transRecv,.transRecvTask | .transRecv,.returned => True
  | .wifiSend,.wifiSendTask | .wifiSend,.wifiSendLoop _ _ | .wifiSend,.wifiSendPoll _ => True
  | .wifiSend,.returned | .wifiSend,.aborted => True
  | .btTx,.btTxTask _ => True
  | .appMain,.espSipBootup _ | .appMain,.returned => True
  | .btHost,.btHost => True
  | .wifiStack,.wifiStack => True
  | _,_ => False

-- Where the tasks begin.
def firstLabel : Task → Label
  | .transRecv => .transRecvTask
  | .wifiSend => .wifiSendTask
  | .btTx => .btTxTask 0
  | .appMain => .espSipBootup 0
  | .btHost => .btHost
  | .wifiStack => .wifiStack

-- Every task stands at the head of one of its blocks.
def Started (c : Config signature Task Label σ) : Prop := ∀ t, ∃ l, c.running t = .pure l ∧ labelsOf t l

theorem transRecvTask_returns (cfg : Build) : (transRecvTask cfg).Returns (labelsOf .transRecv) := by
  unfold transRecvTask espExtconnSdioWaitInt espExtconnSdioLock espExtconnSdioUnlock
  simp only [Prog.bind_def,issue_bind,Prog.op_bind,Prog.pure_bind,Prog.pure_def]
  intro ret
  refine Prog.Returns.ite trivial fun _ => Prog.Returns.bind fun intr => ?_
  refine Prog.Returns.ite (fun _ => trivial) (Prog.Returns.ite (fun _ => trivial) ?_)
  refine Prog.Returns.bind fun _ => fun _ => Prog.Returns.bind fun _ => Prog.Returns.bind fun _ => ?_
  trivial

theorem wifiSendTask_returns : wifiSendTask.Returns (labelsOf .wifiSend) := by
  intro sendBuf
  cases sendBuf with
  | none => trivial
  | some sendBuf => exact fun _ => trivial

theorem wifiSendLoop_returns (sendBuf : Ptr) (actualSize : UInt32) :
    (wifiSendLoop sendBuf actualSize).Returns (labelsOf .wifiSend) := by
  unfold wifiSendLoop
  simp only [Prog.bind_def,issue_bind,Prog.pure_def]
  refine fun _ eb => Prog.Returns.ite trivial (Prog.Returns.bind fun _ => ?_)
  exact Prog.Returns.ite trivial trivial

theorem wifiSendPoll_returns (l : WifiLocals) : (wifiSendPoll l).Returns (labelsOf .wifiSend) := by
  unfold wifiSendPoll wifiSendPacket espExtconnSdioLock espExtconnSdioUnlock
  simp only [Prog.bind_def,issue_bind,Prog.op_bind,Prog.pure_bind,Prog.pure_def]
  refine fun _ => Prog.Returns.bind fun _ _ => Prog.Returns.ite (fun _ => trivial) (Prog.Returns.bind fun _ _ => ?_)
  refine Prog.Returns.bind fun err _ => Prog.Returns.ite trivial fun back => ?_
  exact Prog.Returns.ite (fun _ _ => trivial) fun _ => trivial

theorem btTxPacket_returns (txSeq : UInt32) (data : Ptr) (len : UInt32) (hdr : Ptr) :
    (btTxPacket txSeq data len hdr).Returns (labelsOf .btTx) := by
  unfold btTxPacket memcpy espExtconnSdioLock espExtconnSdioUnlock
  simp only [Prog.bind_def,issue_bind,Prog.op_bind,Prog.pure_bind,Prog.pure_def]
  exact fun _ _ _ _ _ _ => Prog.Returns.bind fun err _ _ _ => trivial

-- The branches of `bt_tx_task`, for any property that has to be shown of them.
theorem btTxTask_eq (txSeq : UInt32) : btTxTask txSeq =
    .op (.semTake .txSem none) fun _ => .op .queueReceive fun msg =>
      match msg with
      | none => .pure (.btTxTask txSeq)
      | some buf => match buf.data with
        | none => .pure (.btTxTask txSeq)
        | some data =>
          if buf.len = 0 then .pure (.btTxTask txSeq) else
          .op (.malloc (sizeofSbpHdr + buf.len)) fun hdr =>
            match hdr with
            | none => .op (.free data) fun _ => .pure (.btTxTask txSeq)
            | some hdr => btTxPacket txSeq data buf.len hdr := by
  unfold btTxTask espExtconnTransBtSendLock
  simp only [Prog.bind_def,issue_bind,Prog.op_bind,Prog.pure_bind,Prog.pure_def]
  congr 1
  funext _
  congr 1
  funext msg
  cases msg with
  | none => rfl
  | some buf =>
      cases given : buf.data with
      | none => simp only [given]
      | some data =>
          simp only [given]
          split
          · rfl
          · congr 1
            funext hdr
            cases hdr <;> rfl

theorem btTxTask_returns (txSeq : UInt32) : (btTxTask txSeq).Returns (labelsOf .btTx) := by
  rw [btTxTask_eq]
  intro _ msg
  cases msg with
  | none => trivial
  | some buf =>
      cases given : buf.data with
      | none => simp only [given]; trivial
      | some data =>
          simp only [given]
          refine Prog.Returns.ite trivial fun hdr => ?_
          cases hdr with
          | none => exact fun _ => trivial
          | some hdr => exact btTxPacket_returns _ _ _ _

theorem block_returns (cfg : Build) (known : labelsOf t l) : (block cfg l).Returns (labelsOf t) := by
  cases t <;> cases l <;> first | exact False.elim known | skip
  case transRecv.transRecvTask => exact transRecvTask_returns cfg
  case wifiSend.wifiSendTask => exact wifiSendTask_returns
  case wifiSend.wifiSendLoop sendBuf actualSize => exact wifiSendLoop_returns sendBuf actualSize
  case wifiSend.wifiSendPoll l => exact wifiSendPoll_returns l
  case btTx.btTxTask txSeq => exact btTxTask_returns txSeq
  case appMain.espSipBootup entryAddr => exact Prog.Returns.bind fun _ => trivial
  case btHost.btHost =>
    refine Prog.Returns.bind fun data => ?_
    exact Prog.Returns.bind fun _ => trivial
  case wifiStack.wifiStack =>
    refine Prog.Returns.bind fun call => ?_
    exact Prog.Returns.bind fun _ => trivial
  all_goals trivial

-- What a task may issue, apart from quiet operations and accesses to memory. For
-- the receive task these are its own operations, outside the two events that
-- move the boot state and the slave's acknowledgement of a Bluetooth packet.
def transRecvIssues : Op → Prop
  | .sdmmcIoWaitInt _ | .semTake .sdioMutex _ | .semGive .sdioMutex | .sipRxProcess _ _ => True
  | .hostSet (.totalRx _) | .sipSet (.rxseq _) => True
  | .sdmmcIoRead function addr arg dst _ =>
    (function = 1 → addr = espSdioTokenRdata → arg.blockMode = true) ∧ (dst = .reg → statusRegister addr)
  | .sdmmcIoWrite function addr arg _ size =>
    function = 1 ∧ (addr = espSdioSlc0IntClr ∨ addr = espSdioSlc1IntClr) ∧ arg.blockMode = false ∧ size = 4
  | .note n => ∃ buf, n = .parseEvents buf
  | _ => False

def wifiSendIssues : Op → Prop
  | .listWaitItem | .listRemove | .semTake .sdioMutex _ | .semGive .sdioMutex | .hostSet (.totalTx _) => True
  | .sdmmcIoRead function addr _ dst _ => function = 1 ∧ addr = espSdioTokenRdata ∧ dst = .reg
  | .sdmmcIoWrite function _ _ _ _ => function = 1
  | .note n => n.sending 1 = true ∨ ∃ size, n = .bufferSize size
  | _ => False

def btTxIssues : Op → Prop
  | .semTake .txSem _ | .queueReceive | .semTake .sdioMutex _ | .semGive .sdioMutex => True
  | .sdmmcIoWrite function _ _ _ _ => function = 2
  | .note n => n.sending 2 = true
  | _ => False

def appMainIssues : Op → Prop
  | .semTake .sdioMutex _ | .semGive .sdioMutex | .createBootSem | .deleteBootSem | .semTake .bootSem _ => True
  | .hostSet (.totalTx _) | .sipSet (.rxseq _) => True
  | .sipSet (.state v) => v = .prepareBoot
  | .sdmmcIoWrite function _ _ _ _ => function = 1
  | .note n => n.sending 1 = true
  | _ => False

def btHostIssues : Op → Prop
  | .btHostCall | .queueSend _ _ => True
  | _ => False

def wifiStackIssues : Op → Prop
  | .wifiStackCall | .listInsert _ | .listHeadInsert _ | .listClear => True
  | _ => False

def issues : Task → Op → Prop
  | .transRecv => transRecvIssues
  | .wifiSend => wifiSendIssues
  | .btTx => btTxIssues
  | .appMain => appMainIssues
  | .btHost => btHostIssues
  | .wifiStack => wifiStackIssues

def accesses : Op → Bool
  | .load _ _ | .store _ _ => true
  | _ => false

def mayIssue (t : Task) (o : Op) : Prop := (o.quiet || accesses o) = true ∨ issues t o

theorem quiet_may (t : Task) (o : Op) (quiet : o.quiet = true) : mayIssue t o := .inl (by rw [quiet]; rfl)
theorem load_may (t : Task) (p : Ptr) (n : Nat) : mayIssue t (.load p n) := .inl rfl
theorem store_may (t : Task) (p : Ptr) (bytes : List UInt8) : mayIssue t (.store p bytes) := .inl rfl

section
variable {P : Op → Prop}

theorem memcpy_all (load : ∀ p n, P (.load p n)) (store : ∀ p bytes, P (.store p bytes)) (dst src : Ptr) (n : Nat) :
    (memcpy dst src n).All P :=
  ⟨load _ _,fun _ => ⟨store _ _,fun _ => trivial⟩⟩

theorem setType_all (load : ∀ p n, P (.load p n)) (store : ∀ p bytes, P (.store p bytes)) (shdr : Ptr) (type : UInt8) :
    (sipHdrSetType shdr type).All P :=
  ⟨load _ _,fun _ => ⟨store _ _,fun _ => trivial⟩⟩

theorem setSync_all (load : ∀ p n, P (.load p n)) (store : ∀ p bytes, P (.store p bytes)) (shdr : Ptr) :
    (sipHdrSetSync shdr).All P :=
  ⟨load _ _,fun _ => ⟨store _ _,fun _ => trivial⟩⟩

theorem wifiBuildPacket_all (sip : P .sipGet) (esf : ∀ eb, P (.esfGet eb)) (load : ∀ p n, P (.load p n))
    (store : ∀ p bytes, P (.store p bytes)) (sendBuf : Ptr) (eb : EbPtr) : (wifiBuildPacket sendBuf eb).All P := by
  have type := setType_all load store sendBuf
  have sync := setSync_all load store sendBuf
  unfold wifiBuildPacket wifiFillPacket sipHdrSetLen espSipGetTxBlks
  simp only [Prog.bind_def,issue_bind,Prog.op_bind,Prog.pure_bind,Prog.pure_def]
  refine ⟨store _ _,fun _ => ⟨esf _,fun b => ⟨sip,fun _ => Prog.All.ite (fun _ => ?_) fun _ => ?_⟩⟩⟩
  · refine Prog.All.bind (memcpy_all load store _ _ _) fun _ => Prog.All.bind (type _) fun _ => ?_
    exact Prog.All.bind sync fun _ => trivial
  · refine Prog.All.bind (type _) fun _ => Prog.All.bind sync fun _ => ?_
    refine ⟨store _ _,fun _ => ⟨store _ _,fun _ => ⟨store _ _,fun _ => ⟨load _ _,fun _ => ⟨store _ _,fun _ => ?_⟩⟩⟩⟩⟩
    refine ⟨load _ _,fun _ => ⟨store _ _,fun _ => ⟨store _ _,fun _ => ?_⟩⟩⟩
    exact Prog.All.bind (memcpy_all load store _ _ _) fun _ => trivial

theorem wifiSetSeq_all (sip : P .sipGet) (count : ∀ n, P (.sipSet (.txseq n))) (load : ∀ p n, P (.load p n))
    (store : ∀ p bytes, P (.store p bytes)) (sendBuf : Ptr) : (wifiSetSeq sendBuf).All P := by
  unfold wifiSetSeq espSipIncreaseTxseq sipHdrSetSeq
  simp only [Prog.bind_def,issue_bind,Prog.op_bind,Prog.pure_bind,Prog.pure_def]
  refine ⟨load _ _,fun _ => Prog.All.ite (fun _ => ?_) fun _ => trivial⟩
  exact ⟨sip,fun _ => ⟨count _,fun _ => ⟨store _ _,fun _ => trivial⟩⟩⟩

end

theorem wifiSendPacket_all (l : WifiLocals) : (wifiSendPacket l).All (mayIssue .wifiSend) := by
  have send : (espExtconnSdioSendPacket extConnWifiSdioFunc l.sendBuf l.sendLen).All (mayIssue .wifiSend) :=
    sendPacket_all (fun _ _ _ => .inr rfl) (fun _ sending => .inr (.inl sending)) (.inl rfl) (fun _ _ => .inr trivial) _
  unfold wifiSendPacket espExtconnSdioLock espExtconnSdioUnlock
  simp only [Prog.bind_def,issue_bind,Prog.op_bind,Prog.pure_bind,Prog.pure_def]
  refine ⟨.inr trivial,fun _ => Prog.All.bind send fun err => ⟨.inr trivial,fun _ => Prog.All.ite (fun _ => trivial) fun _ => ?_⟩⟩
  refine ⟨.inl rfl,fun back => Prog.All.ite (fun _ => ?_) fun _ => ⟨.inl rfl,fun _ => trivial⟩⟩
  exact ⟨.inl rfl,fun _ => ⟨.inl rfl,fun _ => trivial⟩⟩

theorem wifiSend_all (cfg : Build) (known : labelsOf .wifiSend l) : (block cfg l).All (mayIssue .wifiSend) := by
  cases l <;> first | exact False.elim known | skip
  case wifiSendTask =>
    refine ⟨.inl rfl,fun sendBuf => ?_⟩
    cases sendBuf with
    | none => trivial
    | some sendBuf => exact ⟨.inl rfl,fun _ => trivial⟩
  case wifiSendLoop sendBuf actualSize =>
    refine ⟨.inr trivial,fun _ => ⟨.inr trivial,fun eb => Prog.All.ite (fun _ => trivial) fun _ => ?_⟩⟩
    exact Prog.All.bind (wifiBuildPacket_all (.inl rfl) (fun _ => .inl rfl) (load_may _) (store_may _) _ _) fun _ => Prog.All.ite (fun _ => trivial) fun _ => trivial
  case wifiSendPoll l =>
    show (wifiSendPoll l).All _
    unfold wifiSendPoll espExtconnSdioLock espExtconnSdioUnlock
    simp only [Prog.bind_def,issue_bind,Prog.op_bind,Prog.pure_bind,Prog.pure_def]
    refine ⟨.inr trivial,fun _ => Prog.All.bind ?_ fun size => ⟨.inr trivial,fun _ => Prog.All.ite (fun _ => ?_) fun _ => ?_⟩⟩
    · exact getBufferSize_all (.inr ⟨rfl,rfl,rfl⟩) (.inl rfl) fun _ => .inr (.inr ⟨_,rfl⟩)
    · exact ⟨.inl rfl,fun _ => trivial⟩
    · exact Prog.All.bind (wifiSetSeq_all (.inl rfl) (fun _ => .inl rfl) (load_may _) (store_may _) _) fun _ => wifiSendPacket_all _
  all_goals trivial

theorem btTxPacket_all (txSeq : UInt32) (data : Ptr) (len : UInt32) (hdr : Ptr) :
    (btTxPacket txSeq data len hdr).All (mayIssue .btTx) := by
  have store := store_may .btTx
  have send : ∀ n, (espExtconnSdioSendPacket extConnBtSdioFunc hdr n).All (mayIssue .btTx) := fun n =>
    sendPacket_all (fun _ _ _ => .inr rfl) (fun _ sending => .inr sending) (.inl rfl) (fun other => absurd rfl other) _
  unfold btTxPacket espExtconnSdioLock espExtconnSdioUnlock
  simp only [Prog.bind_def,issue_bind,Prog.op_bind,Prog.pure_bind,Prog.pure_def]
  refine ⟨store _ _,fun _ => ⟨store _ _,fun _ => ⟨store _ _,fun _ => Prog.All.bind (memcpy_all (load_may _) (store_may _) _ _ _) fun _ => ?_⟩⟩⟩
  refine ⟨.inr trivial,fun _ => Prog.All.bind (send _) fun _ => ⟨.inr trivial,fun _ => ⟨.inl rfl,fun _ => ?_⟩⟩⟩
  exact ⟨.inl rfl,fun _ => trivial⟩

theorem btTx_all (cfg : Build) (known : labelsOf .btTx l) : (block cfg l).All (mayIssue .btTx) := by
  cases l <;> first | exact False.elim known | skip
  case btTxTask txSeq =>
    show (btTxTask txSeq).All _
    rw [btTxTask_eq]
    refine ⟨.inr trivial,fun _ => ⟨.inr trivial,fun msg => ?_⟩⟩
    cases msg with
    | none => trivial
    | some buf =>
        cases given : buf.data with
        | none => simp only [given]; trivial
        | some data =>
            simp only [given]
            refine Prog.All.ite (fun _ => trivial) fun _ => ⟨.inl rfl,fun hdr => ?_⟩
            cases hdr with
            | none => exact ⟨.inl rfl,fun _ => trivial⟩
            | some hdr => exact btTxPacket_all _ _ _ _

theorem appMain_all (cfg : Build) (known : labelsOf .appMain l) : (block cfg l).All (mayIssue .appMain) := by
  cases l <;> first | exact False.elim known | skip
  case espSipBootup entryAddr =>
    refine Prog.All.bind ?_ fun _ => trivial
    have send : (espSipSendCmd sipCmdBootup sizeofSipCmdBootup (le32 entryAddr ++ le32 1)).All (mayIssue .appMain) :=
      sendCmd_all (P := mayIssue .appMain) (quiet_may _) (load_may _) (store_may _) (fun _ => .inr trivial)
        (.inr trivial) (.inr trivial) (fun _ sending => .inr sending) (fun _ _ _ _ => .inr rfl) (fun _ => .inr trivial) _ _
    refine Prog.All.bind send fun sent => ?_
    have wait : (bootupWait cfg sent).All (mayIssue .appMain) := by
      refine Prog.All.ite (fun _ => ?_) fun _ => trivial
      refine ⟨.inr rfl,fun _ => ⟨.inr trivial,fun _ => Prog.All.ite (fun _ => ?_) fun _ => trivial⟩⟩
      exact ⟨.inr trivial,fun _ => trivial⟩
    exact Prog.All.bind wait fun ret => ⟨.inr trivial,fun _ => trivial⟩
  all_goals trivial

theorem btHost_all (cfg : Build) (known : labelsOf .btHost l) : (block cfg l).All (mayIssue .btHost) := by
  cases l <;> first | exact False.elim known | skip
  case btHost =>
    have send : ∀ data, (btSendData data).All (mayIssue .btHost) := by
      intro data
      refine ⟨.inl rfl,fun p => ?_⟩
      cases p with
      | none => exact ⟨.inl rfl,fun _ => ⟨.inr trivial,fun _ => trivial⟩⟩
      | some p => exact ⟨store_may _ _ _,fun _ => ⟨.inr trivial,fun _ => trivial⟩⟩
    refine ⟨.inr trivial,fun data => ?_⟩
    simp only [Prog.pure_bind]
    exact Prog.All.bind (send data) fun _ => trivial

theorem wifiSendCmd_all (cid cmdlen : UInt32) (cmd : Option Ptr) : (wifiSendCmd cid cmdlen cmd).All (mayIssue .wifiStack) := by
  have store := store_may .wifiStack
  have copy : ∀ shdr, (wifiCopyCmd shdr cmdlen cmd).All (mayIssue .wifiStack) := by
    intro shdr
    cases cmd with
    | none => trivial
    | some p => exact memcpy_all (load_may _) (store_may _) _ _ _
  have set : (loadSet cmd).All (mayIssue .wifiStack) := by
    cases cmd with
    | none => exact ⟨.inl rfl,fun _ => trivial⟩
    | some p => exact ⟨load_may _ _ _,fun _ => trivial⟩
  have clear : (wifiClearStale cid cmd).All (mayIssue .wifiStack) := by
    refine Prog.All.ite (fun _ => Prog.All.bind set fun bytes => ?_) fun _ => trivial
    exact Prog.All.ite (fun _ => ⟨.inr trivial,fun _ => trivial⟩) fun _ => trivial
  unfold wifiSendCmd sipHdrSetLen sipHdrSetCmdid
  simp only [Prog.bind_def,issue_bind,Prog.pure_def]
  refine ⟨.inl rfl,fun eb => Prog.All.ite (fun _ => trivial) fun _ => ⟨.inl rfl,fun b => ⟨store _ _,fun _ => ?_⟩⟩⟩
  refine Prog.All.bind (setType_all (load_may _) (store_may _) _ _) fun _ => ⟨store _ _,fun _ => ⟨store _ _,fun _ => ?_⟩⟩
  refine Prog.All.bind (copy _) fun _ => Prog.All.bind clear fun _ => ?_
  exact Prog.All.ite (fun _ => ⟨.inr trivial,fun _ => trivial⟩) fun _ => ⟨.inr trivial,fun _ => trivial⟩

theorem wifiStack_all (cfg : Build) (known : labelsOf .wifiStack l) : (block cfg l).All (mayIssue .wifiStack) := by
  cases l <;> first | exact False.elim known | skip
  case wifiStack =>
    have serve : ∀ call, (wifiStackServe call).All (mayIssue .wifiStack) := by
      intro call
      cases call with
      | cmd cid cmdlen p => exact Prog.All.bind (wifiSendCmd_all _ _ _) fun _ => trivial
      | data eb =>
          refine Prog.All.bind ?_ fun _ => trivial
          exact Prog.All.ite (fun _ => trivial) fun _ => ⟨.inr trivial,fun _ => trivial⟩
    refine ⟨.inr trivial,fun call => ?_⟩
    simp only [Prog.pure_bind]
    exact Prog.All.bind (serve call) fun _ => trivial

theorem status_token (polled : statusRegister addr) : addr ≠ espSdioTokenRdata := by
  rcases polled with rfl | rfl | rfl | rfl <;> decide

theorem fetched_register {rem : UInt32} {arg : Cmd53Arg} (small : arg.blockMode = true ∨ rem.toNat < 512)
    (wifi : function = extConnWifiSdioFunc) (token : chunkAddr function rem = espSdioTokenRdata) : arg.blockMode = true := by
  rcases small with block | small
  · exact block
  · rw [chunkAddr,if_pos wifi] at token
    have register : espSdioTokenRdata.toNat = 68 := rfl
    have window : espSlaveCmd53EndAddr.toNat = 129024 := rfl
    have same := congrArg UInt32.toNat token
    rw [UInt32.toNat_sub,register,window] at same
    omega

-- Operations of the receive task that are neither a use of the mutex nor, outside
-- of it, a transfer.
def transfers : Op → Bool
  | .sdmmcIoRead _ _ _ _ _ | .sdmmcIoWrite _ _ _ _ _ => true
  | _ => false

def notes : Op → Bool
  | .note _ => true
  | _ => false

def receiving (o : Op) : Prop := mayIssue .transRecv o ∧ movesMutex o = false ∧ notes o = false

theorem getPacket_own (function size waitMs : UInt32) :
    (espExtconnSdioGetPacket function recvBuf size waitMs).All receiving :=
  getPacket_all (P := receiving)
    (fun _ polled => ⟨.inr ⟨fun _ token => absurd token (status_token polled),fun _ => polled⟩,rfl,rfl⟩)
    (fun _ _ _ _ small => ⟨.inr ⟨fun wifi token => fetched_register small wifi token,fun no => by cases no⟩,rfl,rfl⟩)
    ⟨.inl rfl,rfl,rfl⟩ (fun _ _ => ⟨.inr trivial,rfl,rfl⟩) ⟨.inl rfl,rfl,rfl⟩ _ _ _

-- What the receive task keeps outside and inside of the mutex: it is enough to
-- look at its own operations, at the events and at the acknowledgement.
section Receive
variable {C : Contract signature σ} {keep inside : σ → Prop}

structure ReceiveKeeps (cfg : Build) (C : Contract signature σ) (keep inside : σ → Prop) : Prop where
  stable : ∀ s s', keep s → C.rely s s' → keep s'
  steady : ∀ s s', inside s → C.rely s s' → inside s'
  lock : LeadsOp C keep inside (.semTake .sdioMutex none)
  unlock : LeadsOp C inside keep (.semGive .sdioMutex)
  within : ∀ o, receiving o → KeepsOp C inside o
  own : ∀ o, receiving o → transfers o = false → KeepsOp C keep o
  events : ∀ buf, Keeps C keep (espSipParseEvents cfg buf)
  tohost : Keeps C keep handleIntr1Tohost

-- Where nothing depends on the header, the events come down to two of them.
theorem events_keep (stable : ∀ s s', keep s → C.rely s s' → keep s')
    (own : ∀ o, mayIssue .transRecv o → movesMutex o = false → transfers o = false → KeepsOp C keep o)
    (targetOn : Keeps C keep (parseTargetOn cfg)) (bootup : ∀ buf, Keeps C keep (parseBootup buf)) (buf : Ptr) :
    Keeps C keep (espSipParseEvents cfg buf) := by
  have coex : Keeps C keep (parseCoexState buf) :=
    leads_op stable (own _ (load_may _ _ _) rfl rfl) fun _ => leads_op stable (own _ (.inl rfl) rfl rfl) fun _ => keeps_pure _
  refine leads_op stable (own _ (.inr ⟨buf,rfl⟩) rfl rfl) fun _ => ?_
  refine leads_op stable (own _ (load_may _ _ _) rfl rfl) fun bytes => ?_
  exact Leads.ite targetOn (Leads.ite (bootup buf) (Leads.ite coex (keeps_pure _)))

theorem ReceiveKeeps.op (K : ReceiveKeeps cfg C keep inside) {o : Op} {next : o.Answer → Code α}
    (may : receiving o) (bus : transfers o = false) (rest : ∀ r, Keeps C keep (next r)) :
    Keeps C keep (Prog.op o next : Code α) :=
  leads_op K.stable (K.own o may bus) rest

theorem ReceiveKeeps.enter (K : ReceiveKeeps cfg C keep inside) {next : Bool → Code α}
    (rest : ∀ r, Leads C inside keep (next r)) : Keeps C keep (Prog.op (.semTake .sdioMutex none) next : Code α) :=
  leads_op K.stable K.lock rest

theorem ReceiveKeeps.leave (K : ReceiveKeeps cfg C keep inside) {next : Unit → Code α}
    (rest : ∀ r, Keeps C keep (next r)) : Leads C inside keep (Prog.op (.semGive .sdioMutex) next : Code α) :=
  leads_op K.steady K.unlock rest

theorem ReceiveKeeps.during (K : ReceiveKeeps cfg C keep inside) {p : Code α} {f : α → Code β} (all : p.All receiving)
    (rest : ∀ a, Leads C inside keep (f a)) : Leads C inside keep (p.bind f) :=
  ((all.mono K.within).keeps K.steady).bind rest

theorem ReceiveKeeps.loop (K : ReceiveKeeps cfg C keep inside) (fuel : Nat) (buf : Ptr) (rlen : UInt32) :
    Keeps C keep (handleIntr0Loop cfg fuel buf rlen) := by
  induction fuel generalizing buf rlen with
  | zero => exact keeps_pure _
  | succ fuel ih =>
      have rest : ∀ hdr : SipHdr, Keeps C keep (if hdr.len.toUInt32 < rlen then
          handleIntr0Loop cfg fuel (buf.add hdr.len.toNat) (rlen - hdr.len.toUInt32) else .pure .ok) :=
        fun hdr => Leads.ite (ih _ _) (keeps_pure _)
      have data : ∀ hdr : SipHdr, Keeps C keep (Prog.op (.sipRxProcess buf hdr.len.toUInt32) fun _ =>
          if hdr.len.toUInt32 < rlen then handleIntr0Loop cfg fuel (buf.add hdr.len.toNat) (rlen - hdr.len.toUInt32)
          else .pure .ok : Code EspErr) :=
        fun hdr => K.op ⟨.inr trivial,rfl,rfl⟩ rfl fun _ => rest hdr
      unfold handleIntr0Loop
      simp only [loadSipHdr,espSipIncreaseRxseq,Prog.bind_def,issue_bind,Prog.op_bind,Prog.pure_bind,Prog.pure_def]
      refine Leads.ite (keeps_pure _) (K.op ⟨load_may _ _ _,rfl,rfl⟩ rfl fun bytes => Leads.ite (keeps_pure _) ?_)
      refine K.op ⟨.inl rfl,rfl,rfl⟩ rfl fun sip => K.op ⟨.inr trivial,rfl,rfl⟩ rfl fun _ => Leads.ite (keeps_pure _) (Leads.ite ?_ ?_)
      · exact (K.events buf).bind fun _ => rest _
      · exact Leads.ite (data _) (Leads.ite (data _) (rest _))

theorem ReceiveKeeps.intr0 (K : ReceiveKeeps cfg C keep inside) (waitMs : UInt32) :
    Keeps C keep (handleIntr0 cfg waitMs) := by
  unfold handleIntr0 espExtconnSdioLock espExtconnSdioUnlock handleIntr0Parse
  simp only [Prog.bind_def,issue_bind,Prog.op_bind,Prog.pure_bind,Prog.pure_def]
  refine K.enter fun _ => K.during (getPacket_own _ _ _) fun result => K.leave fun _ => ?_
  exact Leads.ite (keeps_pure _) (K.loop _ _ _)

theorem ReceiveKeeps.intr1 (K : ReceiveKeeps cfg C keep inside) (intr waitMs : UInt32) :
    Keeps C keep (handleIntr1 intr waitMs) := by
  have packet : Keeps C keep (handleIntr1Packet intr waitMs) := by
    unfold handleIntr1Packet espExtconnSdioLock espExtconnSdioUnlock espExtconnTransBtRecv
    simp only [Prog.bind_def,issue_bind,Prog.op_bind,Prog.pure_bind,Prog.pure_def]
    refine Leads.ite ?_ (keeps_pure _)
    refine K.enter fun _ => K.during (getPacket_own _ _ _) fun result => K.leave fun _ => ?_
    refine Leads.ite (K.op ⟨.inl rfl,rfl,rfl⟩ rfl fun registered => Leads.bind ?_ fun _ => keeps_pure _) (keeps_pure _)
    exact Leads.ite (K.op ⟨.inl rfl,rfl,rfl⟩ rfl fun _ => keeps_pure _) (keeps_pure _)
  exact packet.bind fun _ => Leads.ite K.tohost (keeps_pure _)

theorem ReceiveKeeps.task (K : ReceiveKeeps cfg C keep inside) : Keeps C keep (transRecvTask cfg) := by
  have intr : (espExtconnSdioGetIntr (some 0) (some 0)).All receiving :=
    getIntr_all (fun _ polled => ⟨.inr ⟨fun _ token => absurd token (status_token polled),fun _ => polled⟩,rfl,rfl⟩) _ _
  have clear : ∀ intr0, (espExtconnSdioClearIntr intr0 0).All receiving := fun intr0 =>
    clearIntr_all (fun _ _ known => ⟨.inr ⟨rfl,known,rfl,rfl⟩,rfl,rfl⟩) _ _
  unfold transRecvTask espExtconnSdioWaitInt espExtconnSdioLock espExtconnSdioUnlock
  simp only [Prog.bind_def,issue_bind,Prog.op_bind,Prog.pure_bind,Prog.pure_def]
  refine K.op ⟨.inr trivial,rfl,rfl⟩ rfl fun ret => Leads.ite (keeps_pure _) (K.enter fun _ => ?_)
  refine K.during intr fun result => Leads.ite (K.leave fun _ => keeps_pure _) ?_
  refine Leads.ite (K.leave fun _ => keeps_pure _) (K.during (clear _) fun _ => K.leave fun _ => ?_)
  refine Leads.bind (Leads.ite ((K.intr0 _).bind fun _ => keeps_pure _) (keeps_pure _)) fun _ => ?_
  exact Leads.bind (Leads.ite ((K.intr1 _ _).bind fun _ => keeps_pure _) (keeps_pure _)) fun _ => keeps_pure _

end Receive

-- The Wi-Fi transmit path by itself: `wifi_send_task`, any number of callers of
-- its entry points, and surroundings that may change anything but the list.
def roleOf : Option ι → Task
  | none => .wifiSend
  | some _ => .wifiStack

def transmitPath (cfg : Build) (slaves : Option ι → Slave δ) : Machine signature (Option ι) Label (World × δ) where
  code := block cfg
  act t := (slaves t).act (roleOf t)
  env s s' := s'.1.wifiTx = s.1.wifiTx ∧ s'.2 = s.2

end ExtConn
