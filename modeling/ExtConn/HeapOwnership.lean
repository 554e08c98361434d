import ExtConn.BufferCustody
import ExtConn.System

namespace ExtConn.HeapBooks
open Effects ByteMemory Interleaving Custody TxDeque

section
variable {α : Type} {share : Share} {s : State}

theorem within_wp {t : Task} {p : Code α} {f : α → Code β} {post : β → State → Prop} (all : p.All (within share.own share.lent))
    (has : Has t share s) (rest : ∀ a s, Has t share s → wp (contract t) (f a) post s) : wp (contract t) (p.bind f) post s := by
  rw [wp_bind]
  exact wp_mono (within_all all s has) rest

theorem within_step {t : Task} {o : Op} {next : o.Answer → Code α} {post : α → State → Prop} (inside : within share.own share.lent o)
    (has : Has t share s) (rest : ∀ r s, Has t share s → wp (contract t) (next r) post s) :
    wp (contract t) (Prog.op o next : Code α) post s :=
  within_wp (p := issue o) (f := next) ⟨inside,fun _ => trivial⟩ has rest

-- `trans_recv_task` keeps `recv_buf`, and the boot buffer until the slave has
-- booted.
def receiving (raw : Option Ptr) : Share := {own := {b | b = recvBuf.blk ∨ ∃ p, raw = some p ∧ p.blk = b},rawbuf := raw}

def Receives (s : State) : Prop := ∃ raw, (∀ p, raw = some p → p.blk ≠ recvBuf.blk) ∧ Has .transRecv (receiving raw) s

theorem recv_owned (raw : Option Ptr) : recvBuf.blk ∈ (receiving raw).own := .inl rfl

theorem receiving_keeps {p : Code α} (all : ∀ raw, p.All (within (receiving raw).own ∅)) : Keeps (contract .transRecv) Receives p := by
  rintro s ⟨raw,apart,has⟩
  exact wp_mono (within_all (all raw) s has) fun _ _ kept => ⟨raw,apart,kept⟩

theorem receiving_op {o : Op} {next : o.Answer → Code α} (inside : ∀ raw, within (receiving raw).own ∅ o)
    (rest : ∀ r, Keeps (contract .transRecv) Receives (next r)) : Keeps (contract .transRecv) Receives (Prog.op o next : Code α) := by
  have first : Keeps (contract .transRecv) Receives (issue o) := receiving_keeps fun raw => ⟨inside raw,fun _ => trivial⟩
  exact first.bind rest

-- A block that was only borrowed from the allocator.
theorem given_back {t : Task} (share : Share) (unowned : b ∉ share.own) (empty : share.hand = [])
    (has : Has t {share with own := (insert b share.own) \ {b},hand := []} s) : Has t share s := by
  rw [Set.insert_sdiff_self_of_notMem unowned,← empty] at has
  exact has

theorem sendFilled_wp {t : Task} {next : EspErr → Code α} {post : α → State → Prop} {buffer : Ptr} (cmd : List UInt8) (len : UInt32)
    (unowned : buffer.blk ∉ share.own) (empty : share.hand = []) (has : Has t {share with own := insert buffer.blk share.own} s)
    (rest : ∀ err s, Has t share s → wp (contract t) (next err) post s) :
    wp (contract t) ((sendFilled buffer cmd len).bind next) post s := by
  have written : buffer.blk ∈ insert buffer.blk share.own := Set.mem_insert _ _
  unfold sendFilled
  simp only [Prog.op_bind,Prog.bind_assoc,Prog.pure_bind]
  refine within_step (within_store written 8 _) has fun _ s has => within_step (within_store written _ _) has fun _ s has => ?_
  refine within_step (within_plain rfl rfl) has fun _ s has => within_wp (sendPacket_within written _ _) has fun err s has => ?_
  refine within_step (within_plain rfl rfl) has fun _ s has => ?_
  exact free_wp has written fun s has => rest err s (given_back share unowned empty has)

-- `esp_sip_send_cmd` frees what it allocates.
theorem sendCmd_wp {t : Task} {next : EspErr → Code α} {post : α → State → Prop} (cid cmdlen : UInt32) (cmd : List UInt8)
    (other : t ≠ .wifiSend) (has : Has t share s) (empty : share.hand = []) (rest : ∀ err s, Has t share s → wp (contract t) (next err) post s) :
    wp (contract t) ((espSipSendCmd cid cmdlen cmd).bind next) post s := by
  unfold espSipSendCmd
  simp only [Prog.bind_def,issue_bind,Prog.op_bind,Prog.pure_def]
  refine within_step (within_plain rfl rfl) has fun _ s has => ?_
  refine calloc_wp has other (fun s has => rest _ s has) fun p s unowned has => ?_
  have written : p.blk ∈ insert p.blk share.own := Set.mem_insert _ _
  have filled : ∀ s, Has t {share with own := insert p.blk share.own} s →
      wp (contract t) ((sendFilled p cmd (cmdlen + sipCtrlHdrLen).toUInt16.toUInt32).bind next) post s :=
    fun s has => sendFilled_wp cmd _ unowned empty has rest
  simp only [sendCmdBuffer_eq,Prog.op_bind]
  refine within_step (within_store written 0 _) has fun _ s has => within_step (within_load written 0 _) has fun _ s has => ?_
  refine within_step (within_store written 0 _) has fun _ s has => within_step (within_load written 1 _) has fun _ s has => ?_
  refine within_step (within_store written 1 _) has fun _ s has => within_step (within_store written 2 _) has fun _ s has => ?_
  refine within_step (within_store written 4 _) has fun _ s has => ?_
  split
  · exact within_step (within_plain rfl rfl) has fun _ s has => within_step (within_plain rfl rfl) has fun _ s has => filled s has
  · split
    · exact within_step (within_plain rfl rfl) has fun _ s has => within_step (within_plain rfl rfl) has fun _ s has => filled s has
    · exact filled s has

theorem targetOn_keeps (cfg : Build) : Keeps (contract .transRecv) Receives (parseTargetOn cfg) := by
  unfold parseTargetOn sipSendChipInit
  simp only [Prog.bind_def,issue_bind,Prog.op_bind,Prog.pure_def]
  refine receiving_op (fun _ => within_plain rfl rfl) fun sip => Leads.ite ?_ (receiving_op (fun _ => within_plain rfl rfl) fun _ => keeps_pure _)
  refine receiving_op (fun _ => within_plain rfl rfl) fun _ => receiving_op (fun _ => within_plain rfl rfl) fun after => ?_
  rintro s ⟨raw,apart,has⟩
  refine sendCmd_wp _ _ _ (fun same => by cases same) has rfl fun err s has => ?_
  have rest : Keeps (contract .transRecv) Receives (if err = .ok then Prog.op (.sipSet (.state .waitBootup)) fun _ => .pure err
      else .pure err : Code EspErr) := by
    exact Leads.ite (receiving_op (fun _ => within_plain rfl rfl) fun _ => keeps_pure _) (keeps_pure _)
  exact rest s ⟨raw,apart,has⟩

-- The receive task reads the pointer of the boot buffer, which is its own.
theorem rawbuf_wp {next : EspSip → Code α} {post : α → State → Prop} {raw : Option Ptr} (has : Has .transRecv (receiving raw) s)
    (rest : ∀ sip s, sip.rawbuf = raw → Has .transRecv (receiving raw) s → wp (contract .transRecv) (next sip) post s) :
    wp (contract .transRecv) (Prog.op .sipGet next : Code α) post s := by
  intro s₁ moved
  have has₁ := has_stable s s₁ has moved
  have inside : within (receiving raw).own (receiving raw).lent .sipGet := within_plain rfl rfl
  obtain ⟨safe,steps⟩ := within_keeps inside s₁ has₁
  refine ⟨safe,fun r s₂ acted => ?_⟩
  obtain ⟨leaves,later⟩ := steps r s₂ acted
  obtain ⟨ans,ran,_⟩ := act_iff.mp acted
  have same : r = s₁.1.sip := (Prod.mk.inj (Option.some.inj ran)).1.symm
  rw [same]
  exact ⟨leaves,rest _ s₂ has₁.rawbuf later⟩

theorem dropRawbuf_wp {next : Unit → Code α} {post : α → State → Prop} (has : Has .transRecv share s)
    (rest : ∀ s, Has .transRecv {share with rawbuf := none} s → wp (contract .transRecv) (next ()) post s) :
    wp (contract .transRecv) (Prog.op (.sipSet (.rawbuf none)) next : Code α) post s := by
  intro s₁ moved
  have has₁ := has_stable s s₁ has moved
  refine ⟨allowed_plain rfl rfl rfl,fun r s₂ acted => ?_⟩
  obtain ⟨w₂,d₂⟩ := s₂
  obtain ⟨ans,ran,answered⟩ := act_iff.mp acted
  cases ran
  cases answered
  have inv : Inv s₁ → Inv ({s₁.1 with sip := (SipAssign.rawbuf none).apply s₁.1.sip},s₁.2) := fun inv =>
    inv_same inv rfl rfl rfl rfl rfl rfl rfl
  refine ⟨?_,rest _ ⟨inv has₁.inv,has₁.own,has₁.lent,rfl,has₁.noted,has₁.hand⟩⟩
  exact leaves_of inv (fun _ _ => rfl) (fun _ _ _ _ => rfl) (fun other => absurd rfl other) (fun _ => rfl) (fun _ => rfl) (fun _ => rfl)
    (fun _ _ known => known) fun _ _ _ here => ⟨here.1,rfl⟩

theorem released_own {raw : Ptr} (apart : raw.blk ≠ recvBuf.blk) : (receiving (some raw)).own \ {raw.blk} = (receiving none).own := by
  ext b
  constructor
  · rintro ⟨rfl | ⟨p,same,rfl⟩,other⟩
    · exact .inl rfl
    · cases same
      exact absurd rfl other
  · rintro (rfl | ⟨p,same,_⟩)
    · exact ⟨.inl rfl,fun same => apart same.symm⟩
    · cases same

theorem bootup_keeps {buf : Ptr} (here : buf.blk = recvBuf.blk) : Keeps (contract .transRecv) Receives (parseBootup buf) := by
  have rest : Keeps (contract .transRecv) Receives (Prog.op (.load (buf.add sizeofSipHdr) sizeofSipEvtBootup2) fun evt =>
      (espSipPostInit evt).bind fun _ => Prog.op (.sipSet (.state .run)) fun _ => Prog.op (.semGive .bootSem) fun _ =>
        Prog.pure EspErr.ok : Code EspErr) := by
    refine receiving_keeps fun raw => ⟨within_load (here ▸ recv_owned raw) _ _,fun evt => ?_⟩
    refine Prog.All.bind ?_ fun _ => ⟨within_plain rfl rfl,fun _ => ⟨within_plain rfl rfl,fun _ => trivial⟩⟩
    refine ⟨within_plain rfl rfl,fun _ => ⟨within_plain rfl rfl,fun _ => ⟨within_plain rfl rfl,fun _ => ?_⟩⟩⟩
    exact ⟨within_plain rfl rfl,fun _ => ⟨within_plain rfl rfl,fun _ => trivial⟩⟩
  rintro s ⟨raw,apart,has⟩
  unfold parseBootup
  simp only [Prog.bind_def,issue_bind,Prog.pure_def]
  refine rawbuf_wp has fun sip s known has => ?_
  rw [known]
  cases raw with
  | none => exact rest s ⟨none,apart,has⟩
  | some p =>
      refine free_wp has (.inr ⟨p,rfl,rfl⟩) fun s has => dropRawbuf_wp has fun s has => rest s ⟨none,fun _ same => (by cases same),?_⟩
      rw [released_own (apart p rfl)] at has
      exact has

theorem parseEvents_keeps (cfg : Build) {buf : Ptr} (here : buf.blk = recvBuf.blk) :
    Keeps (contract .transRecv) Receives (espSipParseEvents cfg buf) := by
  have inside : ∀ raw, buf.blk ∈ (receiving raw).own := fun raw => here ▸ recv_owned raw
  have coex : Keeps (contract .transRecv) Receives (parseCoexState buf) :=
    receiving_keeps fun raw => ⟨within_load (inside raw) _ _,fun _ => ⟨within_plain rfl rfl,fun _ => trivial⟩⟩
  refine receiving_op (fun _ => within_plain rfl rfl) fun _ => receiving_op (fun raw => within_load (inside raw) 0 _) fun bytes => ?_
  exact Leads.ite (targetOn_keeps cfg) (Leads.ite (bootup_keeps here) (Leads.ite coex (keeps_pure _)))

theorem handleIntr0Loop_keeps (cfg : Build) (fuel : Nat) {buf : Ptr} (here : buf.blk = recvBuf.blk) (rlen : UInt32) :
    Keeps (contract .transRecv) Receives (handleIntr0Loop cfg fuel buf rlen) := by
  induction fuel generalizing buf rlen with
  | zero => exact keeps_pure _
  | succ fuel ih =>
      have inside : ∀ raw, buf.blk ∈ (receiving raw).own := fun raw => here ▸ recv_owned raw
      have rest : ∀ hdr : SipHdr, Keeps (contract .transRecv) Receives (if hdr.len.toUInt32 < rlen then
          handleIntr0Loop cfg fuel (buf.add hdr.len.toNat) (rlen - hdr.len.toUInt32) else .pure .ok) :=
        fun hdr => Leads.ite (@ih (buf.add hdr.len.toNat) here _) (keeps_pure _)
      have data : ∀ hdr : SipHdr, Keeps (contract .transRecv) Receives (Prog.op (.sipRxProcess buf hdr.len.toUInt32) fun _ =>
          if hdr.len.toUInt32 < rlen then handleIntr0Loop cfg fuel (buf.add hdr.len.toNat) (rlen - hdr.len.toUInt32)
          else .pure .ok : Code EspErr) :=
        fun hdr => receiving_op (fun raw => within_block rfl rfl (inside raw)) fun _ => rest hdr
      unfold handleIntr0Loop
      simp only [loadSipHdr,espSipIncreaseRxseq,Prog.bind_def,issue_bind,Prog.op_bind,Prog.pure_bind,Prog.pure_def]
      refine Leads.ite (keeps_pure _) (receiving_op (fun raw => within_load (inside raw) 0 _) fun bytes => Leads.ite (keeps_pure _) ?_)
      refine receiving_op (fun _ => within_plain rfl rfl) fun sip => receiving_op (fun _ => within_plain rfl rfl) fun _ => ?_
      refine Leads.ite (keeps_pure _) (Leads.ite ?_ ?_)
      · exact (parseEvents_keeps cfg here).bind fun _ => rest _
      · exact Leads.ite (data _) (Leads.ite (data _) (rest _))

theorem transRecv_keeps (cfg : Build) : Keeps (contract .transRecv) Receives (transRecvTask cfg) := by
  have get : ∀ function size waitMs, Keeps (contract .transRecv) Receives (espExtconnSdioGetPacket function recvBuf size waitMs) :=
    fun function size waitMs => receiving_keeps fun raw => getPacket_within (recv_owned raw) _ _ _
  have intr0 : ∀ intr, Keeps (contract .transRecv) Receives (handleIntr0If cfg intr) := by
    intro intr
    unfold handleIntr0If handleIntr0 espExtconnSdioLock espExtconnSdioUnlock handleIntr0Parse
    simp only [Prog.bind_def,issue_bind,Prog.op_bind,Prog.pure_bind,Prog.pure_def]
    refine Leads.ite (receiving_op (fun _ => within_plain rfl rfl) fun _ => ?_) (keeps_pure _)
    rw [Prog.bind_assoc]
    refine (get _ _ _).bind fun result => receiving_op (fun _ => within_plain rfl rfl) fun _ => Leads.bind ?_ fun _ => keeps_pure _
    exact Leads.ite (keeps_pure _) (handleIntr0Loop_keeps cfg _ rfl _)
  have packet : ∀ intr waitMs, Keeps (contract .transRecv) Receives (handleIntr1Packet intr waitMs) := by
    intro intr waitMs
    unfold handleIntr1Packet espExtconnSdioLock espExtconnSdioUnlock espExtconnTransBtRecv
    simp only [Prog.bind_def,issue_bind,Prog.op_bind,Prog.pure_bind,Prog.pure_def]
    refine Leads.ite (receiving_op (fun _ => within_plain rfl rfl) fun _ => (get _ _ _).bind fun result => ?_) (keeps_pure _)
    refine receiving_op (fun _ => within_plain rfl rfl) fun _ => Leads.ite ?_ (keeps_pure _)
    refine receiving_op (fun _ => within_plain rfl rfl) fun registered => Leads.bind ?_ fun _ => keeps_pure _
    exact Leads.ite (receiving_op (fun raw => within_block rfl rfl (recv_owned raw)) fun _ => keeps_pure _) (keeps_pure _)
  have tohost : Keeps (contract .transRecv) Receives handleIntr1Tohost :=
    receiving_keeps fun raw => handleIntr1Tohost_all (within_plain rfl rfl) (within_plain rfl rfl) (within_plain rfl rfl)
      (within_plain rfl rfl) (within_plain rfl rfl)
  have intr1 : ∀ intr, Keeps (contract .transRecv) Receives (handleIntr1If cfg intr) := by
    intro intr
    refine Leads.ite (Leads.bind ((packet _ _).bind fun _ => Leads.ite tohost (keeps_pure _)) fun _ => keeps_pure _) (keeps_pure _)
  have status : Keeps (contract .transRecv) Receives (espExtconnSdioGetIntr (some 0) (some 0)) :=
    receiving_keeps fun raw => getIntr_all (fun _ _ => within_plain rfl rfl) _ _
  have clear : ∀ intr, Keeps (contract .transRecv) Receives (espExtconnSdioClearIntr intr 0) := fun intr =>
    receiving_keeps fun raw => clearIntr_all (fun _ _ _ => within_plain rfl rfl) _ _
  have plain : ∀ {o : Op} {next : o.Answer → Code Label}, o.handles = false → o.block = none →
      (∀ r, Keeps (contract .transRecv) Receives (next r)) → Keeps (contract .transRecv) Receives (Prog.op o next : Code Label) :=
    fun plain none rest => receiving_op (fun _ => within_plain plain none) rest
  unfold transRecvTask espExtconnSdioWaitInt espExtconnSdioLock espExtconnSdioUnlock
  simp only [Prog.bind_def,issue_bind,Prog.op_bind,Prog.pure_bind,Prog.pure_def]
  refine plain rfl rfl fun ret => Leads.ite (keeps_pure _) (plain rfl rfl fun _ => status.bind fun result => ?_)
  refine Leads.ite (plain rfl rfl fun _ => keeps_pure _) (Leads.ite (plain rfl rfl fun _ => keeps_pure _) ?_)
  refine (clear _).bind fun _ => plain rfl rfl fun _ => ?_
  exact (intr0 _).bind fun _ => (intr1 _).bind fun _ => keeps_pure _

-- `wifi_send_task` keeps `send_buf`, and the packet that it is about to send.
def sending (sendBuf : Ptr) (last : List Nat) : Share := {own := {sendBuf.blk},noted := sendBuf.blk :: last}

def packing (sendBuf : Ptr) (eb : EbPtr) (b : EsfBuf) : Share := (sending sendBuf [(payload b).blk]).holding eb b

-- The blocks that a task has when it stands at a label.
def shareAt : Task → Label → Share → Prop
  | .transRecv,.transRecvTask,share | .transRecv,.returned,share =>
    ∃ raw, (∀ p, raw = some p → p.blk ≠ recvBuf.blk) ∧ share = receiving raw
  | .wifiSend,.wifiSendTask,share => share = {own := ∅}
  | .wifiSend,.wifiSendLoop sendBuf _,share => ∃ last, share = sending sendBuf last
  | .wifiSend,.wifiSendPoll l,share => ∃ b, l.eb ≠ nullEb ∧ (payload b).blk ≠ l.sendBuf.blk ∧ share = packing l.sendBuf l.eb b
  | .wifiSend,.returned,share => share = {own := ∅} ∨ ∃ sendBuf eb b, eb ≠ nullEb ∧ share = packing sendBuf eb b
  | .wifiSend,.aborted,share => ∃ sendBuf eb b, eb ≠ nullEb ∧ share = packing sendBuf eb b
  | .btTx,.btTxTask _,share | .btHost,.btHost,share => ∃ lost, share = {own := {b | b ∈ lost},noted := lost}
  | .appMain,.espSipBootup _,share | .appMain,.returned,share | .wifiStack,.wifiStack,share => share = {own := ∅}
  | _,_,_ => False

def At (t : Task) (l : Label) (s : State) : Prop := ∃ share, shareAt t l share ∧ Has t share s

theorem buildPacket_wp {f : UInt32 → Code Label} {post : Label → State → Prop} {sendBuf : Ptr} {b : EsfBuf}
    (has : Has .wifiSend (packing sendBuf eb b) s)
    (rest : ∀ n s, Has .wifiSend (packing sendBuf eb b) s → wp (contract .wifiSend) (f n) post s) :
    wp (contract .wifiSend) ((wifiBuildPacket sendBuf eb).bind f) post s := by
  have written : sendBuf.blk ∈ (packing sendBuf eb b).own := Set.mem_insert_of_mem _ rfl
  unfold wifiBuildPacket
  simp only [Prog.bind_def,issue_bind,Prog.op_bind]
  refine within_step (within_store written 0 _) has fun _ s has => ?_
  refine esfGet_wp has List.mem_cons_self fun s has => ?_
  exact within_wp (fillPacket_within written (Set.mem_insert _ _)) has rest

theorem wifiSendTask_at : ∀ s, At .wifiSend .wifiSendTask s → wp (contract .wifiSend) wifiSendTask (At .wifiSend) s := by
  rintro s ⟨share,rfl,has⟩
  refine sendBuf_wp has (fun s has => ⟨_,.inl rfl,has⟩) fun p s unowned has => ?_
  refine within_step (within_block rfl rfl (Set.mem_insert _ _)) has fun size s has => ⟨_,⟨[],rfl⟩,?_⟩
  simp only [insert_empty_eq] at has
  exact has

theorem wifiSendLoop_at (sendBuf : Ptr) (size : UInt32) : ∀ s, At .wifiSend (.wifiSendLoop sendBuf size) s →
    wp (contract .wifiSend) (wifiSendLoop sendBuf size) (At .wifiSend) s := by
  rintro s ⟨share,⟨last,rfl⟩,has⟩
  refine within_step (within_plain rfl rfl) has fun _ s has => ?_
  refine remove_wp has rfl (fun s has => ⟨_,⟨last,rfl⟩,has⟩) fun eb b s proper unowned has => ?_
  have packed : Has .wifiSend (packing sendBuf eb b) s := has
  refine wp_ite (fun null => absurd null proper) fun _ => buildPacket_wp packed fun n s has => ?_
  exact wp_ite (fun _ => ⟨_,⟨sendBuf,eb,b,proper,rfl⟩,has⟩) fun _ => ⟨_,⟨b,proper,unowned,rfl⟩,has⟩

theorem wifiSendPoll_at (l : WifiLocals) : ∀ s, At .wifiSend (.wifiSendPoll l) s →
    wp (contract .wifiSend) (wifiSendPoll l) (At .wifiSend) s := by
  rintro s ⟨share,⟨b,proper,unowned,rfl⟩,has⟩
  have written : l.sendBuf.blk ∈ (packing l.sendBuf l.eb b).own := Set.mem_insert_of_mem _ rfl
  have plain : ∀ {o : Op} {next : o.Answer → Code Label} {s}, o.handles = false → o.block = none →
      Has .wifiSend (packing l.sendBuf l.eb b) s →
      (∀ r s, Has .wifiSend (packing l.sendBuf l.eb b) s → wp (contract .wifiSend) (next r) (At .wifiSend) s) →
      wp (contract .wifiSend) (Prog.op o next : Code Label) (At .wifiSend) s :=
    fun plain none has rest => within_step (within_plain plain none) has rest
  have disposed : ∀ s, Has .wifiSend
      {packing l.sendBuf l.eb b with own := (packing l.sendBuf l.eb b).own \ {(payload b).blk},hand := []} s →
      Has .wifiSend (sending l.sendBuf [(payload b).blk]) s := fun s has => given_back (sending l.sendBuf _) unowned rfl has
  unfold wifiSendPoll wifiSendPacket espExtconnSdioLock espExtconnSdioUnlock
  simp only [Prog.bind_def,issue_bind,Prog.op_bind,Prog.pure_bind,Prog.pure_def]
  refine plain rfl rfl has fun _ s has => within_wp ?_ has fun size s has => ?_
  · exact getBufferSize_all (within_plain rfl rfl) (within_plain rfl rfl) fun _ => within_plain rfl rfl
  refine plain rfl rfl has fun _ s has => wp_ite (fun _ => ?_) fun _ => ?_
  · exact plain rfl rfl has fun _ s has => ⟨_,⟨b,proper,unowned,rfl⟩,has⟩
  refine within_wp (setSeq_within written) has fun _ s has => plain rfl rfl has fun _ s has => ?_
  refine within_wp (sendPacket_within written _ _) has fun err s has => plain rfl rfl has fun _ s has => ?_
  refine wp_ite (fun _ => ⟨_,.inr ⟨l.sendBuf,l.eb,b,proper,rfl⟩,has⟩) fun _ => plain rfl rfl has fun back s has => wp_ite (fun _ => ?_) fun _ => ?_
  · refine dispose_wp (.inl rfl) has List.mem_cons_self fun _ s has => ?_
    exact within_step (within_plain rfl rfl) (disposed s has) fun _ s has => ⟨_,⟨_,rfl⟩,has⟩
  · exact dispose_wp (.inr rfl) has List.mem_cons_self fun _ s has => ⟨_,⟨_,rfl⟩,disposed s has⟩

-- The two Bluetooth tasks have nothing between two messages but what was lost.
def losing (lost : List Nat) : Share := {own := {b | b ∈ lost},noted := lost}

theorem btTxPacket_wp {lost : List Nat} {data hdr : Ptr} (txSeq len : UInt32) (unowned : data.blk ∉ (losing lost).own)
    (fresh : hdr.blk ∉ insert data.blk (losing lost).own)
    (has : Has .btTx {losing lost with own := insert hdr.blk (insert data.blk (losing lost).own)} s) :
    wp (contract .btTx) (btTxPacket txSeq data len hdr) (At .btTx) s := by
  have written : hdr.blk ∈ insert hdr.blk (insert data.blk (losing lost).own) := Set.mem_insert _ _
  have read : data.blk ∈ insert hdr.blk (insert data.blk (losing lost).own) := Set.mem_insert_of_mem _ (Set.mem_insert _ _)
  unfold btTxPacket espExtconnSdioLock espExtconnSdioUnlock
  simp only [Prog.bind_def,issue_bind,Prog.op_bind,Prog.pure_bind,Prog.pure_def]
  refine within_step (within_store written 0 _) has fun _ s has => within_step (within_store written 3 _) has fun _ s has => ?_
  refine within_step (within_store written 4 _) has fun _ s has => ?_
  refine within_wp (memcpy_within (hdr.add _) written (.inl read) _) has fun _ s has => ?_
  refine within_step (within_plain rfl rfl) has fun _ s has => within_wp (sendPacket_within written _ _) has fun err s has => ?_
  refine within_step (within_plain rfl rfl) has fun _ s has => free_wp has read fun s has => free_wp has ⟨written,?_⟩ fun s has => ?_
  · exact fun same => fresh (by rw [Set.mem_singleton_iff.mp same]; exact Set.mem_insert _ _)
  · refine ⟨_,⟨lost,rfl⟩,?_⟩
    have own : (insert hdr.blk (insert data.blk (losing lost).own) \ {data.blk}) \ {hdr.blk} = (losing lost).own := by
      rw [sdiff_right_comm,Set.insert_sdiff_self_of_notMem fresh,Set.insert_sdiff_self_of_notMem unowned]
    rw [own] at has
    exact has

theorem btTxTask_at (txSeq : UInt32) : ∀ s, At .btTx (.btTxTask txSeq) s → wp (contract .btTx) (btTxTask txSeq) (At .btTx) s := by
  rintro s ⟨share,⟨lost,rfl⟩,has⟩
  have back : ∀ s, Has .btTx (losing lost) s → At .btTx (.btTxTask txSeq) s := fun s has => ⟨_,⟨lost,rfl⟩,has⟩
  rw [btTxTask_eq]
  refine within_step (within_plain rfl rfl) has fun _ s has => receive_wp has rfl (fun len s has => back s has) fun p len s unowned has => ?_
  simp only
  by_cases empty : len = 0
  · rw [if_pos empty]
    refine ⟨_,⟨p.blk :: lost,rfl⟩,?_⟩
    simp only [Share.received,if_pos empty] at has
    have own : insert p.blk {b | b ∈ lost} = {b | b ∈ p.blk :: lost} := by
      ext b
      simp
    rw [own] at has
    exact has
  · rw [if_neg empty]
    simp only [Share.received,if_neg empty] at has
    refine malloc_wp has (fun same => by cases same) (fun s has => ?_) fun hdr s fresh has => btTxPacket_wp txSeq len unowned fresh has
    exact free_wp has (Set.mem_insert _ _) fun s has => back s (given_back (losing lost) unowned rfl has)

theorem btHost_at : ∀ s, At .btHost .btHost s → wp (contract .btHost) btHost (At .btHost) s := by
  rintro s ⟨share,⟨lost,rfl⟩,has⟩
  unfold btHost btSendData
  simp only [Prog.bind_def,issue_bind,Prog.op_bind,Prog.pure_def]
  refine within_step (within_plain rfl rfl) has fun data s has => ?_
  refine calloc_wp has (fun same => by cases same) (fun s has => ?_) fun p s unowned has => ?_
  · exact null_wp (.inl rfl) has fun _ s has => sendBare_wp has fun _ s has => ⟨_,⟨lost,rfl⟩,has⟩
  · refine within_step (within_store (Set.mem_insert _ _) 0 _) has fun _ s has => send_wp has (Set.mem_insert _ _) (fun s has => ?_) fun s has => ?_
    · exact ⟨_,⟨lost,rfl⟩,given_back (losing lost) unowned rfl has⟩
    · refine ⟨_,⟨p.blk :: lost,rfl⟩,?_⟩
      have own : insert p.blk {b | b ∈ lost} = {b | b ∈ p.blk :: lost} := by
        ext b
        simp
      rw [own] at has
      exact has

theorem appMain_at (cfg : Build) (entryAddr : UInt32) : ∀ s, At .appMain (.espSipBootup entryAddr) s →
    wp (contract .appMain) (block cfg (.espSipBootup entryAddr)) (At .appMain) s := by
  rintro s ⟨share,rfl,has⟩
  have wait : ∀ sent, (bootupWait cfg sent).All (within ∅ ∅) := by
    intro sent
    refine Prog.All.ite (fun _ => ⟨within_plain rfl rfl,fun _ => ⟨within_plain rfl rfl,fun _ => ?_⟩⟩) fun _ => trivial
    exact Prog.All.ite (fun _ => ⟨within_plain rfl rfl,fun _ => trivial⟩) fun _ => trivial
  unfold block espSipBootup
  simp only [Prog.bind_def,issue_bind,Prog.bind_assoc,Prog.op_bind,Prog.pure_bind,Prog.pure_def]
  refine sendCmd_wp _ _ _ (fun same => by cases same) has rfl fun sent s has => within_wp (wait sent) has fun ret s has => ?_
  exact within_step (within_plain rfl rfl) has fun _ s has => ⟨_,rfl,has⟩

-- The Wi-Fi stack calls with the arguments of a command, lent to the task, or
-- with a buffer.
def calling (lent : Set Nat) : Share := {own := ∅,lent := lent}

def argumentBlocks : Option Ptr → Set Nat
  | some p => {p.blk}
  | none => ∅

theorem argument_lent (p : Ptr) : p.blk ∈ argumentBlocks (some p) := rfl

theorem calling_ends (has : Has .wifiStack {calling lent with lent := lent} s) : At .wifiStack .wifiStack s :=
  ⟨_,rfl,has.inv,has.own,fun b member => absurd member (Set.notMem_empty b),has.rawbuf,has.noted,has.hand⟩

theorem inserted_ends (lent : Set Nat) {o : Op} {next : o.Answer → Code Label} {b : EsfBuf} (puts : inserts o = some eb)
    (has : Has .wifiStack ((calling lent).holding eb b) s) (rest : ∀ r, next r = .pure .wifiStack) :
    wp (contract .wifiStack) (Prog.op o next : Code Label) (At .wifiStack) s := by
  refine inserted_wp puts has List.mem_cons_self fun r s has => ?_
  rw [rest r]
  exact calling_ends (given_back (calling lent) (Set.notMem_empty _) rfl has)

-- `set_sta->set` is read whether there are arguments or not.
theorem loadSet_wp {f : List UInt8 → Code β} {post : β → State → Prop} {cmd : Option Ptr} (lent : share.lent = argumentBlocks cmd)
    (has : Has .wifiStack share s) (rest : ∀ bytes s, Has .wifiStack share s → wp (contract .wifiStack) (f bytes) post s) :
    wp (contract .wifiStack) ((loadSet cmd).bind f) post s := by
  cases cmd with
  | none => exact null_wp (.inr rfl) has rest
  | some p =>
      have known : p.blk ∈ share.lent := by
        rw [lent]
        exact argument_lent p
      exact within_step (within_lent (p := p.add 2) known _) has rest

theorem wifiSendCmd_wp (cid cmdlen : UInt32) (cmd : Option Ptr) (has : Has .wifiStack (calling (argumentBlocks cmd)) s) :
    wp (contract .wifiStack) ((wifiSendCmd cid cmdlen cmd).bind fun _ => .pure .wifiStack) (At .wifiStack) s := by
  have kind : ∀ c : Prop, [Decidable c] → (if c then esfBufTxSipTest else esfBufTxSip) = esfBufTxSip ∨
      (if c then esfBufTxSipTest else esfBufTxSip) = esfBufTxSipTest := by
    intro c _
    split
    · exact .inr rfl
    · exact .inl rfl
  have copy : ∀ own shdr, shdr.blk ∈ own → (wifiCopyCmd shdr cmdlen cmd).All (within own (argumentBlocks cmd)) := by
    intro own shdr written
    cases cmd with
    | none => trivial
    | some p => exact memcpy_within (shdr.add _) written (.inr (argument_lent p)) _
  unfold wifiSendCmd sipHdrSetLen sipHdrSetCmdid wifiClearStale
  simp only [Prog.bind_def,issue_bind,Prog.op_bind,Prog.pure_def]
  refine esfBufAlloc_wp has (fun same => by cases same) (kind _) (fun s has => calling_ends has) fun eb b s proper begin unowned has => ?_
  have written : b.bufBegin.blk ∈ ((calling (argumentBlocks cmd)).holding eb b).own := by
    rw [← begin]
    exact Set.mem_insert _ _
  have last : ∀ s, Has .wifiStack ((calling (argumentBlocks cmd)).holding eb b) s → wp (contract .wifiStack)
      ((if cid = sipCmdTest then issue (.listHeadInsert eb) else issue (.listInsert eb) : Code EspErr).bind fun _ => .pure .wifiStack)
      (At .wifiStack) s := by
    intro s has
    split
    · exact inserted_ends _ (if_neg proper) has fun _ => rfl
    · exact inserted_ends _ (if_neg proper) has fun _ => rfl
  rw [if_neg proper]
  simp only [Prog.op_bind,Prog.bind_assoc]
  refine esfGet_wp has List.mem_cons_self fun s has => within_step (within_store written 0 _) has fun _ s has => ?_
  refine within_wp (setType_within written _) has fun _ s has => within_step (within_store written 2 _) has fun _ s has => ?_
  refine within_step (within_store written 4 _) has fun _ s has => within_wp (copy _ _ written) has fun _ s has => ?_
  split
  · rw [Prog.bind_assoc]
    refine loadSet_wp rfl has fun bytes s has => ?_
    split
    · exact clear_wp has fun _ s has => last s has
    · exact last s has
  · exact last s has

theorem wifiStack_at : ∀ s, At .wifiStack .wifiStack s → wp (contract .wifiStack) wifiStack (At .wifiStack) s := by
  rintro s ⟨share,rfl,has⟩
  unfold wifiStack wifiStackServe
  simp only [Prog.bind_def,issue_bind,Prog.pure_def]
  refine stackCall_wp has (fun cid len s has => ?_) (fun s has => ⟨_,rfl,has⟩) (fun cid len p s has => ?_) fun eb b s proper has => ?_
  · rw [Prog.bind_assoc]
    exact wifiSendCmd_wp cid len none has
  · rw [Prog.bind_assoc]
    exact wifiSendCmd_wp cid len (some p) has
  · unfold wifiSendData
    simp only [Prog.bind_def,issue_bind,Prog.pure_def]
    rw [if_neg proper]
    refine inserted_ends ∅ (b := b) (if_neg proper) ?_ fun _ => rfl
    simp only [Share.holding,calling,insert_empty_eq]
    exact has

end

abbrev Running := Interleaving.Config signature Task Label State

def outline (cfg : Build) : Outline (system cfg books) where
  rely := Stays
  guar := Leaves
  safe := allowed
  entry := At
  transitive one two := one.trans two
  compatible other leaves := leaves.stays other
  surroundings := by
    rintro t ⟨w,d⟩ ⟨w',d'⟩ ⟨same,still⟩
    cases same
    cases still
    exact .refl t _
  stable := by
    rintro t l s s' ⟨share,label,has⟩ moved
    exact ⟨share,label,has_stable s s' has moved⟩
  verified t l s here := by
    obtain ⟨share,label,has⟩ := here
    cases t <;> cases l <;> first | exact False.elim label | skip
    case transRecv.transRecvTask =>
      obtain ⟨raw,apart,rfl⟩ := label
      refine wp_mono (wp_returns (transRecvTask_returns cfg) (transRecv_keeps cfg s ⟨raw,apart,has⟩)) ?_
      rintro l s ⟨known,raw,apart,has⟩
      cases l <;> first | exact False.elim known | exact ⟨_,⟨raw,apart,rfl⟩,has⟩
    case wifiSend.wifiSendTask => exact wifiSendTask_at s ⟨share,label,has⟩
    case wifiSend.wifiSendLoop sendBuf size => exact wifiSendLoop_at sendBuf size s ⟨share,label,has⟩
    case wifiSend.wifiSendPoll l => exact wifiSendPoll_at l s ⟨share,label,has⟩
    case btTx.btTxTask txSeq => exact btTxTask_at txSeq s ⟨share,label,has⟩
    case appMain.espSipBootup entryAddr => exact appMain_at cfg entryAddr s ⟨share,label,has⟩
    case btHost.btHost => exact btHost_at s ⟨share,label,has⟩
    case wifiStack.wifiStack => exact wifiStack_at s ⟨share,label,has⟩
    all_goals exact ⟨share,label,has⟩

-- Every task stands at one of its labels with the blocks that belong there.
def Opening (c : Running) : Prop := ∀ t, ∃ l, c.running t = .pure l ∧ At t l c.shared

theorem opening_holds {cfg : Build} {c : Running} (opens : Opening c) : (outline cfg).Holds c := (outline cfg).holds_resting opens

theorem reached_holds {cfg : Build} {start c : Running} (opens : Opening start) (path : Reached (system cfg books) start c) :
    (outline cfg).Holds c :=
  (outline cfg).reached_holds Stays.refl (opening_holds opens) path

theorem reached_inv {cfg : Build} {start c : Running} (opens : Opening start) (path : Reached (system cfg books) start c) :
    Inv c.shared := by
  refine (outline cfg).reached_keeps Stays.refl (fun t a b (inv : Inv a) leaves => leaves.inv inv) ?_ (opening_holds opens) ?_ path
  · rintro ⟨w,d⟩ ⟨w',d'⟩ inv ⟨same,still⟩
    cases same
    cases still
    exact inv
  · obtain ⟨l,_,share,_,has⟩ := opens .transRecv
    exact has.inv

-- The state in which the last task is started, with `n` blocks of the software
-- above.
def opened (sip : EspSip) (n : Nat) (esf : EbPtr → EsfBuf) : State :=
  ({World.initial sip with blocks := fun b => if b ≤ n then some 2048 else none,fresh := n + 1,esf := esf},
    ⟨fun b => if b = recvBuf.blk then some (.task .transRecv) else if b ≤ n then some .outside else none,fun _ => false,[],[],[]⟩)

def started (s : State) : Running := ⟨s,fun t => .pure (firstLabel t)⟩

theorem opened_inv (sip : EspSip) (n : Nat) (esf : EbPtr → EsfBuf) : Inv (opened sip n esf) := by
  refine ⟨fun b => ?_,fun b above => ?_,fun b => ⟨fun waits => absurd waits List.not_mem_nil,fun known => ?_⟩,List.nodup_nil,[],?_⟩
  · simp only [opened,recvBuf]
    split <;> split <;> simp_all
  · have apart : ¬ b ≤ n := Nat.not_le.mpr above
    have other : b ≠ recvBuf.blk := fun same => apart (same ▸ Nat.zero_le n)
    simp only [opened,if_neg other,if_neg apart]
  · simp only [opened] at known
    split at known
    · cases known
    · split at known <;> cases known
  · refine ⟨⟨rfl,fun last same => by cases same⟩,fun eb member => absurd member List.not_mem_nil,
      fun eb member => absurd member List.not_mem_nil,fun b eb known => ?_⟩
    simp only [opened] at known
    split at known
    · cases known
    · split at known <;> cases known

theorem opened_held (sip : EspSip) (n : Nat) (esf : EbPtr → EsfBuf) (t : Task) (b : Nat) :
    (opened sip n esf).2.book b = some (.task t) ↔ t = .transRecv ∧ b = recvBuf.blk := by
  simp only [opened]
  split
  · rename_i here
    simp [here,eq_comm]
  · rename_i other
    refine ⟨fun known => ?_,fun both => absurd both.2 other⟩
    split at known <;> cases known

theorem opened_opening (sip : EspSip) (n : Nat) (esf : EbPtr → EsfBuf) (booted : sip.rawbuf = none) :
    Opening (started (opened sip n esf)) := by
  have has : ∀ t own, (∀ b, b ∈ own ↔ t = .transRecv ∧ b = recvBuf.blk) → Has t {own := own} (opened sip n esf) := by
    intro t own members
    refine ⟨opened_inv sip n esf,?_,fun b member => absurd member (Set.notMem_empty b),?_,?_,fun x member => absurd member List.not_mem_nil⟩
    · ext b
      rw [mem_heldBy,opened_held,members]
    · unfold rawbufOf
      split
      · exact booted
      · rfl
    · cases t <;> rfl
  have nothing : ∀ t, t ≠ .transRecv → Has t {own := ∅} (opened sip n esf) :=
    fun t other => has t ∅ fun b => ⟨fun member => absurd member (Set.notMem_empty b),fun both => absurd both.1 other⟩
  have unlost : ∀ t, t ≠ .transRecv → Has t (losing []) (opened sip n esf) := fun t other =>
    has t _ fun b => ⟨fun member => absurd member List.not_mem_nil,fun both => absurd both.1 other⟩
  intro t
  refine ⟨firstLabel t,rfl,?_⟩
  cases t with
  | transRecv => exact ⟨_,⟨none,fun p same => (by cases same),rfl⟩,has .transRecv _ fun b => by simp⟩
  | wifiSend => exact ⟨_,rfl,nothing _ fun same => by cases same⟩
  | btTx => exact ⟨_,⟨[],rfl⟩,unlost _ fun same => by cases same⟩
  | appMain => exact ⟨_,rfl,nothing _ fun same => by cases same⟩
  | btHost => exact ⟨_,⟨[],rfl⟩,unlost _ fun same => by cases same⟩
  | wifiStack => exact ⟨_,rfl,nothing _ fun same => by cases same⟩

def serving : Running := started (opened {espSipInit with state := .run,txBlksz := 512} 1 fun _ => .holding 0 ⟨1,0⟩ 4 4)

theorem serving_opening : Opening serving := opened_opening _ _ _ rfl

theorem allowed_inserts {t : Task} {o : Op} {s : State} (inv : Inv s) (mine : allowed t o s) (puts : inserts o = some eb) :
    ∃ xs, Represents s.1.wifiTx xs ∧ (Call.insert eb).admissible xs := by
  obtain ⟨xs,listed⟩ := inv.listed
  exact ⟨xs,listed.represents,(inserts_cases puts).1,listed.apart (mine.2.1 eb puts)⟩

theorem inserts_apart {t u : Task} {o o' : Op} {s : State} (other : u ≠ t) (mine : allowed t o s) (its : allowed u o' s)
    (puts : inserts o = some eb) : inserts o' ≠ some eb := by
  intro puts'
  have held := (mine.2.1 eb puts).2
  rw [(its.2.1 eb puts').2] at held
  cases held
  exact other rfl

-- A buffer has one link. One that a task is about to put into the list is not in it,
-- and no other task is about to put it there: the calls are those the list admits.
theorem insertions_admissible (cfg : Build) (start c : Running) (opens : Opening start) (path : Reached (system cfg books) start c)
    (t : Task) (o : Op) (eb : EbPtr) (here : c.pending t = some o) (puts : inserts o = some eb) :
    (∃ xs, Represents c.shared.1.wifiTx xs ∧ (Call.insert eb).admissible xs) ∧
      ∀ u o', u ≠ t → c.pending u = some o' → inserts o' ≠ some eb := by
  have valid := reached_holds opens path
  have mine : allowed t o c.shared := valid.safe Stays.refl here
  refine ⟨allowed_inserts (reached_inv opens path) mine puts,fun u o' other there => ?_⟩
  exact inserts_apart other mine (valid.safe Stays.refl there) puts

-- The blocks of a task between two blocks of its code: `recv_buf` and the boot
-- buffer, `send_buf` and the packet that waits for credits or with which the task
-- stopped, and what was lost: the messages of no length and those for which the
-- queue had no room.
def heldAt : Task → Label → State → Nat → Prop
  | .transRecv,_,s,b => recvBuf.blk = b ∨ ∃ p, s.1.sip.rawbuf = some p ∧ p.blk = b
  | .wifiSend,.wifiSendLoop sendBuf _,_,b => sendBuf.blk = b
  | .wifiSend,.wifiSendPoll l,s,b => l.sendBuf.blk = b ∨ (payload (s.1.esf l.eb)).blk = b
  | .wifiSend,.returned,s,b | .wifiSend,.aborted,s,b => b ∈ s.2.work
  | .btTx,_,s,b => b ∈ s.2.empty
  | .btHost,_,s,b => b ∈ s.2.refused
  | _,_,_,_ => False

theorem stopped_work {s : State} (noted : s.2.work = (packing sendBuf eb e).noted) (b : Nat) :
    b ∈ (packing sendBuf eb e).own ↔ b ∈ s.2.work := by
  have pair : s.2.work = [sendBuf.blk,(payload e).blk] := noted
  rw [pair,List.mem_cons,List.mem_singleton,or_comm]
  exact Iff.rfl

theorem at_held {t : Task} {l : Label} {s : State} (here : At t l s) (b : Nat) : s.2.book b = some (.task t) ↔ heldAt t l s b := by
  obtain ⟨share,label,has⟩ := here
  have own : s.2.book b = some (.task t) ↔ b ∈ share.own := by
    rw [← has.own]
    rfl
  have noted := has.noted
  have rawbuf := has.rawbuf
  cases t <;> cases l <;> first | exact False.elim label | skip
  case transRecv.transRecvTask | transRecv.returned =>
    obtain ⟨raw,_,rfl⟩ := label
    rw [own]
    simp only [receiving,rawbufOf,if_pos] at rawbuf
    simp only [receiving,heldAt,rawbuf,Set.mem_ofPred_eq,eq_comm]
  case wifiSend.wifiSendPoll l =>
    obtain ⟨e,_,_,rfl⟩ := label
    have same := (has.hand _ List.mem_cons_self).2
    rw [own,heldAt,same]
    simp only [packing,Share.holding,sending,Set.mem_insert_iff,Set.mem_singleton_iff,eq_comm,or_comm]
  case btTx.btTxTask | btHost.btHost =>
    obtain ⟨known,rfl⟩ := label
    rw [own]
    simp only [notedOf] at noted
    simp only [heldAt,noted,Set.mem_ofPred_eq]
  case wifiSend.wifiSendLoop =>
    obtain ⟨last,rfl⟩ := label
    rw [own,heldAt,sending,Set.mem_singleton_iff,eq_comm]
  case wifiSend.aborted =>
    obtain ⟨sendBuf,eb,e,_,rfl⟩ := label
    rw [own]
    exact stopped_work noted b
  case wifiSend.returned =>
    rcases label with rfl | ⟨sendBuf,eb,e,_,rfl⟩
    · rw [own,heldAt,show s.2.work = [] from noted]
      simp
    · rw [own]
      exact stopped_work noted b
  all_goals
    subst label
    rw [own]
    exact ⟨fun member => absurd member (Set.notMem_empty b),False.elim⟩

-- While every task is between two blocks of its code, the allocated blocks are
-- those of the tasks, of the messages and buffers that wait, and of the software
-- above.
theorem blocks_accounted (cfg : Build) (start c : Running) (opens : Opening start) (path : Reached (system cfg books) start c)
    (between : ∀ t, ∃ l, c.running t = .pure l) (b : Nat) : c.shared.1.blocks b ≠ none ↔
      (∃ t l, c.running t = .pure l ∧ heldAt t l c.shared b) ∨ b ∈ queued c.shared.1 ∨
      (∃ xs eb, Represents c.shared.1.wifiTx xs ∧ eb ∈ xs ∧ (payload (c.shared.1.esf eb)).blk = b) ∨
      c.shared.2.book b = some .outside := by
  have inv := reached_inv opens path
  have valid := reached_holds opens path
  rw [inv.live]
  constructor
  · intro known
    obtain ⟨h,booked⟩ := Option.ne_none_iff_exists'.mp known
    cases h with
    | task t =>
        obtain ⟨l,here⟩ := between t
        exact .inl ⟨t,l,here,(at_held (valid.entry here) b).mp booked⟩
    | message => exact .inr (.inl ((inv.messages b).mpr booked))
    | buffer eb =>
        obtain ⟨xs,listed⟩ := inv.listed
        obtain ⟨member,same⟩ := listed.only b eb booked
        exact .inr (.inr (.inl ⟨xs,eb,listed.represents,member,same⟩))
    | outside => exact .inr (.inr (.inr booked))
  · rintro (⟨t,l,here,held⟩ | waits | ⟨ys,eb,represents,member,rfl⟩ | lent)
    · rw [(at_held (valid.entry here) b).mpr held]
      exact Option.some_ne_none _
    · rw [(inv.messages b).mp waits]
      exact Option.some_ne_none _
    · obtain ⟨xs,listed⟩ := inv.listed
      rw [represents.chain.unique listed.represents.chain] at member
      rw [listed.kept eb member]
      exact Option.some_ne_none _
    · rw [lent]
      exact Option.some_ne_none _

-- A buffer is taken from the list and its transfer fails, a command is queued, and
-- the Bluetooth host sends a message without bytes and one that waits.
def failing : List (Task × Ans) :=
  List.replicate 3 (.wifiSend,{word := 2048}) ++ List.replicate 3 (.wifiStack,{call := .data 1}) ++
  List.replicate 32 (.wifiSend,{data := [0,0,1,0],word := 2048}) ++ List.replicate 2 (.wifiSend,{err := .fail}) ++
  List.replicate 2 (.wifiStack,{call := .cmd sipCmdConfig 0 none}) ++ List.replicate 8 (.wifiStack,{num := 2}) ++
  List.replicate 5 (.btHost,{data := []}) ++ List.replicate 3 (.btTx,{flag := true}) ++ List.replicate 5 (.btHost,{data := [7]})

-- What every kind of holder has left at the end.
def leftOver (c : Running) : Bool :=
  ([.transRecv,.wifiSend,.btTx,.appMain,.btHost,.wifiStack] : List Task).all (fun t => (c.resting t).isSome) &&
    decide (c.resting .wifiSend = some .returned ∧ c.shared.2.work = [2,1] ∧ c.shared.2.book 3 = some (.buffer 2) ∧
      c.shared.2.empty = [4] ∧ queued c.shared.1 = [5])

theorem failing_accounted : ∃ c, Reached (system ⟨true,true⟩ books) serving c ∧ c.resting .wifiSend = some .returned ∧
    c.shared.2.work = [2,1] ∧ c.shared.2.book 3 = some (.buffer 2) ∧ c.shared.2.empty = [4] ∧ queued c.shared.1 = [5] ∧
    ∀ b, c.shared.1.blocks b ≠ none ↔ (∃ t l, c.running t = .pure l ∧ heldAt t l c.shared b) ∨ b ∈ queued c.shared.1 ∨
      (∃ xs eb, Represents c.shared.1.wifiTx xs ∧ eb ∈ xs ∧ (payload (c.shared.1.esf eb)).blk = b) ∨
      c.shared.2.book b = some .outside := by
  have passed : (schedule (block ⟨true,true⟩) books.exec failing serving).any leftOver = true := by decide +kernel
  obtain ⟨c,path,left⟩ := schedule_exists (m := system ⟨true,true⟩ books) (fun _ _ ans _ _ _ ran => ⟨ans,ran⟩) _ passed
  obtain ⟨rests,stopped,work,buffer,empty,waiting⟩ : _ ∧ _ := (Bool.and_eq_true _ _).mp left |>.imp_right of_decide_eq_true
  have between : ∀ t, ∃ l, c.running t = .pure l := by
    intro t
    have some : (c.resting t).isSome = true := List.all_eq_true.mp rests t (by cases t <;> decide)
    obtain ⟨l,here⟩ := Option.isSome_iff_exists.mp some
    exact ⟨l,resting_iff.mp here⟩
  exact ⟨c,path,stopped,work,buffer,empty,waiting,blocks_accounted ⟨true,true⟩ serving c serving_opening path between⟩

end ExtConn.HeapBooks
