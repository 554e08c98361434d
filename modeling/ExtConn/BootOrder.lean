import ExtConn.System

namespace ExtConn.BootOrder
open Effects ByteMemory

-- What becomes of the commands sent while one event is handled: whether every
-- allocation and every write has succeeded so far, and how often INIT was sent.
structure Sends where
  sound : Bool
  inits : Nat
  deriving DecidableEq

def sendSlave : Slave Sends where
  answers _ _ o ans d := match o with
    | .calloc _ => some {d with sound := d.sound && ans.flag}
    | .sdmmcIoWrite _ _ _ _ _ => some {d with sound := d.sound && decide (ans.err = .ok)}
    | .note n => some (if n = .sipCmd sipCmdInit then {d with inits := d.inits + 1} else d)
    | _ => some d
  moves d d' := d' = d

abbrev State := World × Sends

-- What happens to the boot state: an event, with the outcome of the commands sent
-- in handling it, or the transition made by `esp_sip_bootup`.
inductive Input where
  | event (evtid : UInt8) (sent : Bool)
  | prepareBoot
  deriving DecidableEq

-- The state machine: the state after an input, and the number of INITs sent.
def advance (state : SipState) : Input → SipState × Nat
  | .prepareBoot => (.prepareBoot,0)
  | .event evtid sent =>
    if evtid = sipEvtTargetOn then
      if state = .prepareBoot ∨ state = .boot then (if sent then .waitBootup else .sendInit,1) else (state,0)
    else if evtid = sipEvtBootup then (.run,0)
    else (state,0)

-- The handling of events, seen from the boot state, the sequence number of the
-- next packet and the commands.
def contract (t : Task) : Contract signature State where
  act := sendSlave.act t
  rely := Eq
  guar _ _ := True
  safe _ _ := True

structure At (state : SipState) (txseq : UInt32) (d : Sends) (s : State) : Prop where
  state : s.1.sip.state = state
  txseq : s.1.sip.txseq = txseq
  sends : s.2 = d

theorem at_stable (s s' : State) (held : At v x d s) (moved : s = s') : At v x d s' := moved ▸ held

theorem eq_stable {keep : State → Prop} (s s' : State) (held : keep s) (moved : s = s') : keep s' := moved ▸ held

-- Operations that change none of this.
def plain : Op → Bool
  | .calloc _ | .sdmmcIoWrite _ _ _ _ _ | .sipSet (.state _) | .sipSet (.txseq _) => false
  | .note n => n ≠ .sipCmd sipCmdInit
  | _ => true

theorem plain_step {t : Task} {o : Op} {r : o.Answer} {s s' : State} (same : plain o = true)
    (acted : sendSlave.act t o s r s') :
    s'.1.sip.state = s.1.sip.state ∧ s'.1.sip.txseq = s.1.sip.txseq ∧ s'.2 = s.2 := by
  obtain ⟨w',d'⟩ := s'
  obtain ⟨ans,ran,answered⟩ := act_iff.mp acted
  have kept : w'.sip.state = s.1.sip.state ∧ w'.sip.txseq = s.1.sip.txseq := by
    cases o
    case sipSet a =>
      cases ran
      cases a <;> first | (cases same; done) | exact ⟨rfl,rfl⟩
    all_goals
      have sip := sip_kept rfl ran
      exact ⟨by rw [sip],by rw [sip]⟩
  refine ⟨kept.1,kept.2,?_⟩
  cases o
  case calloc => cases same
  case sdmmcIoWrite => cases same
  case note n =>
    have other : n ≠ .sipCmd sipCmdInit := of_decide_eq_true same
    simp only [sendSlave,if_neg other,Option.some.injEq] at answered
    exact answered.symm
  all_goals exact (Option.some.inj answered).symm

theorem plain_keeps {o : Op} (same : plain o = true) : KeepsOp (contract t) (At v x d) o := by
  intro s held
  refine ⟨trivial,fun r s' acted => ⟨trivial,?_⟩⟩
  obtain ⟨state,txseq,sends⟩ := plain_step same acted
  exact ⟨state.trans held.state,txseq.trans held.txseq,sends.trans held.sends⟩

theorem at_op {o : Op} {next : o.Answer → Code α} {post : α → State → Prop} {s : State} (same : plain o = true)
    (held : At v x d s) (rest : ∀ r s, At v x d s → wp (contract t) (next r) post s) :
    wp (contract t) (Prog.op o next : Code α) post s := by
  rintro s₁ rfl
  exact ⟨trivial,fun r s' acted => ⟨trivial,rest r s' ((plain_keeps same s held).2 r s' acted).2⟩⟩

theorem sets_state (v' : SipState) : LeadsOp (contract t) (At v x d) (At v' x d) (.sipSet (.state v')) := by
  intro s held
  refine ⟨trivial,fun r s' acted => ⟨trivial,?_⟩⟩
  obtain ⟨ans,ran,answered⟩ := act_iff.mp acted
  simp only [World.exec,Option.some.injEq,Prod.mk.injEq] at ran
  exact ⟨by rw [← ran.2]; rfl,by rw [← ran.2]; exact held.txseq,(Option.some.inj answered).symm.trans held.sends⟩

theorem sets_txseq (x' : UInt32) : LeadsOp (contract t) (At v x d) (At v x' d) (.sipSet (.txseq x')) := by
  intro s held
  refine ⟨trivial,fun r s' acted => ⟨trivial,?_⟩⟩
  obtain ⟨ans,ran,answered⟩ := act_iff.mp acted
  simp only [World.exec,Option.some.injEq,Prod.mk.injEq] at ran
  exact ⟨by rw [← ran.2]; exact held.state,by rw [← ran.2]; rfl,(Option.some.inj answered).symm.trans held.sends⟩

theorem written {s s' : State} {r : EspErr} (held : At v x ⟨true,n⟩ s)
    (acted : sendSlave.act t (.sdmmcIoWrite function addr arg src size) s r s') : At v x ⟨decide (r = .ok),n⟩ s' := by
  obtain ⟨ans,ran,answered⟩ := act_iff.mp acted
  simp only [World.exec,Option.some.injEq,Prod.mk.injEq] at ran
  simp only [sendSlave,held.sends,Bool.true_and,ran.1,Option.some.injEq] at answered
  exact ⟨by rw [← ran.2]; exact held.state,by rw [← ran.2]; exact held.txseq,answered.symm⟩

-- A packet is reported as sent exactly when none of its writes has failed.
theorem chunks_sent (addr : UInt32) (p : Ptr) (len : UInt32) {s : State} (held : At v x ⟨true,n⟩ s) :
    wp (contract t) (sendPacketChunks 1 addr (len.toNat + 1) p len) (fun ret => At v x ⟨decide (ret = .ok),n⟩) s := by
  have tail : ∀ p len s, At v x ⟨true,n⟩ s →
      wp (contract t) (writeTail 1 addr p len) (fun ret => At v x ⟨decide (ret = .ok),n⟩) s := by
    rintro p len s held s₁ rfl
    exact ⟨trivial,fun r s' acted => ⟨trivial,written held acted⟩⟩
  by_cases large : 512 ≤ len.toNat
  · obtain ⟨fuel,same⟩ : ∃ k, len.toNat + 1 = k + 2 := ⟨len.toNat - 1,by omega⟩
    rw [same,sendPacketChunks_blocks _ _ _ _ large]
    rintro s₁ rfl
    refine ⟨trivial,fun r s' acted => ⟨trivial,wp_ite (fun failed => written held acted) fun success => ?_⟩⟩
    have sound := written held acted
    rw [decide_eq_true (Decidable.not_not.mp success)] at sound
    exact wp_ite (fun _ => sound) fun _ => tail _ _ s' sound
  · by_cases nonzero : 0 < len.toNat
    · rw [sendPacketChunks_tail _ _ _ _ nonzero (by omega)]
      exact tail p len s held
    · have zero : len = 0 := Decidable.not_not.mp fun some => nonzero ((toNat_ne_zero len).mp some)
      subst len
      exact held

theorem packet_sent (p : Ptr) (len : UInt32) {s : State} (held : At v x ⟨true,n⟩ s) :
    wp (contract t) (espExtconnSdioSendPacket 1 p len) (fun ret => At v x ⟨decide (ret = .ok),n⟩) s := by
  have ended : ∀ s, At v x ⟨true,n⟩ s → wp (contract t) (Prog.op (.note (.packetSent 1 len)) fun _ => .pure .ok : Code EspErr)
      (fun ret => At v x ⟨decide (ret = .ok),n⟩) s := fun s held => at_op rfl held fun _ _ held => held
  unfold espExtconnSdioSendPacket
  simp only [Prog.bind_def,issue_bind,Prog.pure_def]
  refine at_op rfl held fun _ s held => ?_
  rw [wp_bind]
  refine wp_mono (chunks_sent _ p len held) fun err s held => wp_ite (fun _ => held) fun success => ?_
  rw [decide_eq_true (Decidable.not_not.mp success)] at held
  refine wp_ite (fun _ => at_op rfl held fun _ s held => ?_) fun _ => ended s held
  refine at_op rfl held fun _ s held => at_op rfl held fun _ s held => wp_ite (fun _ => ?_) fun _ => ended s held
  exact at_op rfl held fun _ s held => ended s held

-- What a command does with the sequence numbers before its packet goes out.
theorem buffer_sent (cid : UInt32) (len : UInt16) (cmd : List UInt8) (buffer : Ptr) {s : State} (held : At v x ⟨true,n⟩ s) :
    wp (contract t) (espSipSendCmdBuffer cid len cmd buffer) (fun ret =>
      At v (if cid = sipCmdBootup then 0 else if cid = sipCmdInit then x + 1 else x) ⟨decide (ret = .ok),n⟩) s := by
  have finish : ∀ x s, At v x ⟨true,n⟩ s → wp (contract t) (Prog.op (.store (buffer.add 8) (le32 0)) fun _ =>
      .op (.store (buffer.add sizeofSipHdr) cmd) fun _ => .op (.semTake .sdioMutex none) fun _ =>
        (espExtconnSdioSendPacket 1 buffer len.toUInt32).bind fun err => .op (.semGive .sdioMutex) fun _ =>
          .op (.free buffer) fun _ => .pure err : Code EspErr) (fun ret => At v x ⟨decide (ret = .ok),n⟩) s := by
    refine fun x s held => at_op rfl held fun _ s held => at_op rfl held fun _ s held => at_op rfl held fun _ s held => ?_
    rw [wp_bind]
    refine wp_mono (packet_sent buffer _ held) fun err s held => ?_
    exact at_op rfl held fun _ s held => at_op rfl held fun _ _ held => held
  unfold espSipSendCmdBuffer
  simp only [sipHdrSetType,sipHdrSetSync,sipHdrSetLen,sipHdrSetCmdid,sipHdrSetSeq,espSipIncreaseTxseq,espExtconnSdioLock,
    espExtconnSdioUnlock,Prog.bind_def,issue_bind,Prog.op_bind,Prog.pure_bind,Prog.pure_def]
  refine at_op rfl held fun _ s held => at_op rfl held fun _ s held => at_op rfl held fun _ s held => ?_
  refine at_op rfl held fun _ s held => at_op rfl held fun _ s held => at_op rfl held fun _ s held => ?_
  refine at_op rfl held fun _ s held => wp_ite (fun boot => ?_) fun other => ?_
  · rw [if_pos boot]
    refine at_op rfl held fun _ s held => ?_
    rintro s₁ rfl
    exact ⟨trivial,fun r s' acted => ⟨trivial,finish 0 s' ((sets_txseq 0 s held).2 r s' acted).2⟩⟩
  · rw [if_neg other]
    refine wp_ite (fun init => ?_) fun neither => ?_
    · rw [if_pos init]
      rintro s₁ rfl
      refine ⟨trivial,fun sip s' acted => ⟨trivial,?_⟩⟩
      have read : s.1.sip = sip := by
        obtain ⟨ans,ran⟩ := act_exec acted
        exact congrArg Prod.fst (Option.some.inj ran)
      have next : sip.txseq + 1 = x + 1 := by rw [← read,held.txseq]
      have held₁ := ((plain_keeps (o := .sipGet) rfl s held).2 sip s' acted).2
      rintro s₁ rfl
      refine ⟨trivial,fun r s₂ acted => ⟨trivial,finish (x + 1) s₂ ?_⟩⟩
      rw [← next]
      exact ((sets_txseq (sip.txseq + 1) s' held₁).2 r s₂ acted).2
    · rw [if_neg neither]
      exact finish x s held

def seqAfter (cid x : UInt32) : UInt32 := if cid = sipCmdBootup then 0 else if cid = sipCmdInit then x + 1 else x

-- The outcome of a command: whether it was sent is what its caller is told.
structure Sent (v : SipState) (x cid : UInt32) (n : Nat) (ret : EspErr) (s : State) : Prop where
  state : s.1.sip.state = v
  sends : s.2 = ⟨decide (ret = .ok),if cid = sipCmdInit then n + 1 else n⟩
  txseq : ret = .ok → s.1.sip.txseq = seqAfter cid x

theorem sendCmd_outcome (cid cmdlen : UInt32) (cmd : List UInt8) {s : State} (held : At v x ⟨true,n⟩ s) :
    wp (contract t) (espSipSendCmd cid cmdlen cmd) (Sent v x cid n) s := by
  unfold espSipSendCmd
  simp only [Prog.bind_def,issue_bind,Prog.pure_def]
  rintro s₁ rfl
  refine ⟨trivial,fun r s₁ acted => ⟨trivial,?_⟩⟩
  have noted : At v x ⟨true,if cid = sipCmdInit then n + 1 else n⟩ s₁ := by
    obtain ⟨ans,ran,answered⟩ := act_iff.mp acted
    have same : s.1 = s₁.1 := congrArg Prod.snd (Option.some.inj ran)
    refine ⟨by rw [← same]; exact held.state,by rw [← same]; exact held.txseq,?_⟩
    simp only [sendSlave,held.sends,Note.sipCmd.injEq,Option.some.injEq] at answered
    rw [← answered]
    split <;> rfl
  rintro s₂ rfl
  refine ⟨trivial,fun buffer s₂ acted => ⟨trivial,?_⟩⟩
  obtain ⟨ans,ran,answered⟩ := act_iff.mp acted
  have sip := sip_kept rfl ran
  simp only [sendSlave,noted.sends,Bool.true_and,Option.some.injEq] at answered
  cases success : ans.flag with
  | false =>
      simp only [World.exec,success,Bool.false_eq_true,if_false,Option.some.injEq,Prod.mk.injEq] at ran
      rw [← ran.1]
      exact ⟨by rw [sip]; exact noted.state,by rw [← answered,success]; rfl,fun ok => by cases ok⟩
  | true =>
      simp only [World.exec,success,if_true,Option.some.injEq,Prod.mk.injEq] at ran
      rw [← ran.1]
      have ready : At v x ⟨true,if cid = sipCmdInit then n + 1 else n⟩ s₂ :=
        ⟨by rw [sip]; exact noted.state,by rw [sip]; exact noted.txseq,by rw [← answered,success]⟩
      exact wp_mono (buffer_sent cid _ cmd _ ready) fun ret s sent => ⟨sent.state,sent.sends,fun _ => sent.txseq⟩

-- One event: what the state machine says, and the number that the next packet
-- gets.
structure Handled (v : SipState) (x : UInt32) (evtid : UInt8) (s : State) : Prop where
  advanced : (s.1.sip.state,s.2.inits) = advance v (.event evtid s.2.sound)
  txseq : s.1.sip.txseq = if s.2.inits = 0 then x else if s.2.sound = true then x + 1 else s.1.sip.txseq

theorem targetOn_handled (cfg : Build) {s : State} (held : At v x ⟨true,0⟩ s) :
    wp (contract .transRecv) (parseTargetOn cfg) (fun _ => Handled v x sipEvtTargetOn) s := by
  have accepted : ∀ s, v = .prepareBoot ∨ v = .boot → At v x ⟨true,0⟩ s →
      wp (contract .transRecv) (Prog.op (.sipSet (.state .sendInit)) fun _ => (sipSendChipInit cfg).bind fun ret =>
        if ret = .ok then .op (.sipSet (.state .waitBootup)) fun _ => .pure ret else .pure ret : Code EspErr)
        (fun _ => Handled v x sipEvtTargetOn) s := by
    rintro s open₁ held s₁ rfl
    refine ⟨trivial,fun r s₁ acted => ⟨trivial,?_⟩⟩
    have sending := ((sets_state .sendInit s held).2 r s₁ acted).2
    unfold sipSendChipInit
    simp only [Prog.bind_def,issue_bind,Prog.op_bind]
    refine at_op rfl sending fun _ s sending => ?_
    rw [wp_bind]
    refine wp_mono (sendCmd_outcome _ _ _ sending) fun ret s sent => wp_ite (fun success => ?_) fun failed => ?_
    · subst success
      have ready : At .sendInit (x + 1) ⟨true,1⟩ s := ⟨sent.state,sent.txseq rfl,sent.sends⟩
      rintro s₁ rfl
      refine ⟨trivial,fun r s₁ acted => ⟨trivial,?_⟩⟩
      obtain ⟨state,txseq,sends⟩ := ((sets_state .waitBootup s ready).2 r s₁ acted).2
      refine ⟨?_,by rw [txseq,sends]; rfl⟩
      rw [state,sends,advance,if_pos rfl,if_pos open₁]
      rfl
    · have sends : s.2 = ⟨false,1⟩ := by rw [sent.sends,decide_eq_false failed]; rfl
      refine ⟨?_,by rw [sends]; rfl⟩
      rw [sent.state,sends,advance,if_pos rfl,if_pos open₁]
      rfl
  unfold parseTargetOn
  simp only [Prog.bind_def,issue_bind,Prog.pure_def]
  rintro s₁ rfl
  refine ⟨trivial,fun sip s₁ acted => ⟨trivial,?_⟩⟩
  have read : s.1.sip = sip := by
    obtain ⟨ans,ran⟩ := act_exec acted
    exact congrArg Prod.fst (Option.some.inj ran)
  have state : sip.state = v := by rw [← read]; exact held.state
  have held₁ := ((plain_keeps (o := .sipGet) rfl s held).2 sip s₁ acted).2
  refine wp_ite (fun open₁ => accepted s₁ (state ▸ open₁) held₁) fun closed => ?_
  refine at_op rfl held₁ fun _ s held => ⟨?_,by rw [held.txseq,held.sends]; rfl⟩
  rw [held.state,held.sends,advance,if_pos rfl,if_neg (state ▸ closed)]

theorem bootup_handled (buf : Ptr) {s : State} (held : At v x ⟨true,0⟩ s) :
    wp (contract .transRecv) (parseBootup buf) (fun _ => Handled v x sipEvtBootup) s := by
  have quiet : ∀ o : Op, plain o = true → KeepsOp (contract .transRecv) (At v x ⟨true,0⟩) o := fun o same => plain_keeps same
  have post : ∀ bevt, Keeps (contract .transRecv) (At v x ⟨true,0⟩) (espSipPostInit bevt) := by
    refine fun bevt => Prog.All.keeps ?_ at_stable
    exact ⟨quiet _ rfl,fun _ => ⟨quiet _ rfl,fun _ => ⟨quiet _ rfl,fun _ => ⟨quiet _ rfl,fun _ => ⟨quiet _ rfl,fun _ => trivial⟩⟩⟩⟩⟩
  have finish : Leads (contract .transRecv) (At v x ⟨true,0⟩) (At .run x ⟨true,0⟩)
      (Prog.op (.load (buf.add sizeofSipHdr) sizeofSipEvtBootup2) fun bevt => (espSipPostInit bevt).bind fun _ =>
        .op (.sipSet (.state .run)) fun _ => .op (.semGive .bootSem) fun _ => .pure .ok : Code EspErr) := by
    refine leads_op at_stable (plain_keeps rfl) fun bevt => (post bevt).bind fun _ => ?_
    refine leads_op at_stable (sets_state .run) fun _ => leads_op at_stable (plain_keeps rfl) fun _ => keeps_pure _
  have other : sipEvtBootup ≠ sipEvtTargetOn := by decide
  have handled : ∀ s, At .run x ⟨true,0⟩ s → Handled v x sipEvtBootup s := by
    refine fun s held => ⟨?_,by rw [held.txseq,held.sends]; rfl⟩
    rw [held.state,held.sends,advance,if_neg other,if_pos rfl]
  unfold parseBootup
  simp only [Prog.bind_def,issue_bind,Prog.pure_def]
  refine at_op rfl held fun sip s held => wp_mono (?_ : wp _ _ (fun _ => At .run x ⟨true,0⟩) s) fun _ s held => handled s held
  split
  · exact at_op rfl held fun _ s held => at_op rfl held fun _ s held => finish s held
  · exact finish s held

theorem switch_handled (cfg : Build) (buf : Ptr) (evtid : UInt8) {s : State} (held : At v x ⟨true,0⟩ s) :
    wp (contract .transRecv) (parseSwitch cfg buf evtid) (fun _ => Handled v x evtid) s := by
  unfold parseSwitch
  refine wp_ite (fun targetOn => ?_) fun other => wp_ite (fun bootup => ?_) fun neither => ?_
  · rw [targetOn]
    exact targetOn_handled cfg held
  · rw [bootup]
    exact bootup_handled buf held
  · have ignored : ∀ s, At v x ⟨true,0⟩ s → Handled v x evtid s := by
      refine fun s held => ⟨?_,by rw [held.txseq,held.sends]; rfl⟩
      rw [held.state,held.sends,advance,if_neg other,if_neg neither]
    refine wp_ite (fun _ => ?_) fun _ => ignored s held
    exact at_op rfl held fun _ s held => at_op rfl held fun _ s held => ignored s held

def evtOf (w : World) (p : Ptr) : UInt8 := (sipHdrOf (w.mem.read p sizeofSipHdr)).fc1

theorem events_handled (cfg : Build) (buf : Ptr) {w : World} (state : w.sip.state = v) (txseq : w.sip.txseq = x) :
    wp (contract .transRecv) (espSipParseEvents cfg buf) (fun _ => Handled v x (evtOf w buf)) (w,⟨true,0⟩) := by
  unfold espSipParseEvents loadSipHdr
  simp only [Prog.bind_def,issue_bind,Prog.op_bind,Prog.pure_bind,Prog.pure_def]
  have held : At v x ⟨true,0⟩ (w,⟨true,0⟩) := ⟨state,txseq,rfl⟩
  rintro s₁ rfl
  refine ⟨trivial,fun r s₁ acted => ⟨trivial,?_⟩⟩
  have asked := ((plain_keeps (t := .transRecv) (o := .note (.parseEvents buf)) rfl _ held).2 r s₁ acted).2
  have same : w = s₁.1 := by
    obtain ⟨ans,ran⟩ := act_exec acted
    exact congrArg Prod.snd (Option.some.inj ran)
  rintro s₂ rfl
  refine ⟨trivial,fun bytes s₂ acted => ⟨trivial,?_⟩⟩
  have read : s₁.1.mem.read buf sizeofSipHdr = bytes := by
    obtain ⟨ans,ran⟩ := act_exec acted
    exact congrArg Prod.fst (Option.some.inj ran)
  rw [evtOf,same,read]
  exact switch_handled cfg buf _ ((plain_keeps rfl s₁ asked).2 bytes s₂ acted).2

-- The same of a run that has come to its end.
theorem event_run {cfg : Build} {buf : Ptr} {w w' : World} {d : Sends}
    (run : Runs Eq (sendSlave.act .transRecv) (espSipParseEvents cfg buf) (w,⟨true,0⟩) ops ret (w',d)) :
    Handled w.sip.state w.sip.txseq (evtOf w buf) (w',d) := by
  have handled : wp (contract .transRecv) (espSipParseEvents cfg buf)
      (fun _ => Handled w.sip.state w.sip.txseq (evtOf w buf)) (w,⟨true,0⟩) := events_handled cfg buf rfl rfl
  have ended := wp_runs (fun _ => eq_stable) handled run
  exact ended

theorem boot_run {entryAddr : UInt32} {w w' : World} {d : Sends}
    (run : Runs Eq (sendSlave.act .appMain) (espSipSendCmd sipCmdBootup sizeofSipCmdBootup (le32 entryAddr ++ le32 1))
      (w,⟨true,0⟩) ops .ok (w',d)) : w'.sip.state = w.sip.state ∧ w'.sip.txseq = 0 ∧ d = ⟨true,0⟩ := by
  obtain ⟨state,sends,txseq⟩ := wp_runs (C := contract .appMain) (fun _ => eq_stable)
    (sendCmd_outcome (v := w.sip.state) (x := w.sip.txseq) (n := 0) _ _ _ ⟨rfl,rfl,rfl⟩) run
  exact ⟨state,txseq rfl,sends⟩

-- One input and what it did: the state before and after, the INITs sent and the
-- sequence number before it.
structure Step where
  input : Input
  before : SipState
  after : SipState
  inits : Nat
  txseq : UInt32

-- In between the boot state is left alone, and nothing takes a sequence number
-- before the link is up.
structure Between (a b : EspSip) : Prop where
  state : b.state = a.state
  txseq : a.state ≠ .run → b.txseq = a.txseq

-- Every event is a run of `esp_sip_parse_events` on a buffer of its own. The
-- transition is a successful BOOTUP command followed by the store of the state.
inductive History (cfg : Build) (start : EspSip) : List Step → EspSip → Prop where
  | nil : History cfg start [] start
  | event {w w' : World} {sent : Bool} (history : History cfg start steps sip) (between : Between sip w.sip)
      (run : Runs Eq (sendSlave.act .transRecv) (espSipParseEvents cfg buf) (w,⟨true,0⟩) ops ret (w',⟨sent,n⟩)) :
      History cfg start (steps ++ [⟨.event (evtOf w buf) sent,w.sip.state,w'.sip.state,n,w.sip.txseq⟩]) w'.sip
  | prepareBoot {w w₁ w' : World} {entryAddr : UInt32} (history : History cfg start steps sip) (between : Between sip w.sip)
      (run : Runs Eq (sendSlave.act .appMain)
        (espSipSendCmd sipCmdBootup sizeofSipCmdBootup (le32 entryAddr ++ le32 1)) (w,⟨true,0⟩) ops .ok (w₁,⟨sent,n⟩))
      (stored : World.exec .appMain (.sipSet (.state .prepareBoot)) ans w₁ = some ((),w')) :
      History cfg start (steps ++ [⟨.prepareBoot,w.sip.state,w'.sip.state,n,w.sip.txseq⟩]) w'.sip

def rank : SipState → Nat
  | .init => 0
  | .prepareBoot => 1
  | .boot => 2
  | .sendInit => 3
  | .waitBootup => 4
  | .run => 5
  | .suspend => 6
  | .stop => 7

-- INIT is sent at most once and not before `SIP_PREPARE_BOOT`, `SIP_RUN` is
-- entered only after it has been sent, and no event takes the state back.
structure Ordered (steps : List Step) : Prop where
  once : (steps.map Step.inits).sum ≤ 1
  prepared : ∀ past step rest, steps = past ++ step :: rest → 0 < step.inits → ∃ p ∈ past, p.input = .prepareBoot
  entered : ∀ past step rest, steps = past ++ step :: rest → step.before ≠ .run → step.after = .run →
    step.before = .waitBootup ∧ step.txseq = 1 ∧ ∃ p ∈ past, p.inits = 1 ∧ p.after = .waitBootup
  forward : ∀ step ∈ steps, step.input ≠ .prepareBoot → rank step.before ≤ rank step.after

-- Every `SIP_EVT_BOOTUP` follows an INIT that was sent: the transition, then the
-- first `SIP_EVT_TARGET_ON` after it, with its command going out.
def Initialised (past : List Input) : Prop :=
  ∃ a b c, past = a ++ .prepareBoot :: (b ++ .event sipEvtTargetOn true :: c) ∧ ∀ sent, .event sipEvtTargetOn sent ∉ b

def Expected (inputs : List Input) : Prop :=
  ∀ past sent rest, inputs = past ++ .event sipEvtBootup sent :: rest → Initialised past

def stateFrom (state : SipState) (inputs : List Input) : SipState := inputs.foldl (fun state i => (advance state i).1) state

theorem stateFrom_append (state : SipState) (one two : List Input) :
    stateFrom state (one ++ two) = stateFrom (stateFrom state one) two := List.foldl_append ..

theorem stateFrom_keeps {P : SipState → Prop} {inputs : List Input} {v : SipState}
    (each : ∀ v, ∀ i ∈ inputs, P v → P (advance v i).1) (held : P v) : P (stateFrom v inputs) := by
  induction inputs generalizing v with
  | nil => exact held
  | cons i rest ih => exact ih (fun v j member => each v j (List.mem_cons_of_mem _ member)) (each v i List.mem_cons_self held)

-- What is known at any point of a history.
structure Standing (steps : List Step) (state : SipState) (txseq : UInt32) : Prop where
  reached : state = stateFrom .init (steps.map Step.input)
  known : state ≠ .boot ∧ rank state ≤ 5
  prepared : state = .prepareBoot → txseq = 0 ∧ ∃ p ∈ steps, p.input = .prepareBoot
  waiting : state = .waitBootup → txseq = 1 ∧ ∃ p ∈ steps, p.inits = 1 ∧ p.after = .waitBootup
  counted : (steps.map Step.inits).sum + (if state = .prepareBoot then 1 else 0) ≤
    (steps.map Step.input).count .prepareBoot

theorem Standing.between {a b : EspSip} (standing : Standing steps a.state a.txseq) (between : Between a b) :
    Standing steps b.state b.txseq := by
  obtain ⟨reached,known,prepared,waiting,counted⟩ := standing
  rw [between.state]
  refine ⟨reached,known,fun here => ?_,fun here => ?_,counted⟩
  · rw [between.txseq (by rw [here]; nofun)]
    exact prepared here
  · rw [between.txseq (by rw [here]; nofun)]
    exact waiting here

theorem snoc_input (steps : List Step) (step : Step) :
    (steps ++ [step]).map Step.input = steps.map Step.input ++ [step.input] := List.map_append ..

-- The three ways in which an event can go.
theorem advance_event (v : SipState) (evtid : UInt8) (sent : Bool) :
    (evtid = sipEvtTargetOn ∧ (v = .prepareBoot ∨ v = .boot) ∧
      advance v (.event evtid sent) = (if sent then .waitBootup else .sendInit,1)) ∨
    (evtid = sipEvtBootup ∧ advance v (.event evtid sent) = (.run,0)) ∨
    (evtid ≠ sipEvtBootup ∧ (evtid = sipEvtTargetOn → v ≠ .prepareBoot ∧ v ≠ .boot) ∧ advance v (.event evtid sent) = (v,0)) := by
  have other : sipEvtTargetOn ≠ sipEvtBootup := by decide
  by_cases targetOn : evtid = sipEvtTargetOn
  · by_cases waits : v = .prepareBoot ∨ v = .boot
    · exact .inl ⟨targetOn,waits,by rw [advance,if_pos targetOn,if_pos waits]⟩
    · exact .inr (.inr ⟨targetOn ▸ other,fun _ => not_or.mp waits,by rw [advance,if_pos targetOn,if_neg waits]⟩)
  · by_cases bootup : evtid = sipEvtBootup
    · exact .inr (.inl ⟨bootup,by rw [advance,if_neg targetOn,if_pos bootup]⟩)
    · exact .inr (.inr ⟨bootup,fun same => absurd same targetOn,by rw [advance,if_neg targetOn,if_neg bootup]⟩)

theorem count_snoc (steps : List Step) (step : Step) : ((steps ++ [step]).map Step.input).count .prepareBoot =
    (steps.map Step.input).count .prepareBoot + if step.input = .prepareBoot then 1 else 0 := by
  rw [snoc_input,List.count_append,List.count_singleton]
  simp

theorem sum_snoc (steps : List Step) (step : Step) :
    ((steps ++ [step]).map Step.inits).sum = (steps.map Step.inits).sum + step.inits := by simp

theorem stateFrom_snoc (steps : List Step) (step : Step) : stateFrom .init ((steps ++ [step]).map Step.input) =
    (advance (stateFrom .init (steps.map Step.input)) step.input).1 := by
  rw [snoc_input,stateFrom_append]
  rfl

-- An event takes the standing along.
theorem Standing.event (step : Step) {txseq : UInt32} (standing : Standing steps step.before step.txseq)
    (input : step.input = .event evtid sent) (advanced : (step.after,step.inits) = advance step.before step.input)
    (numbered : txseq = if step.inits = 0 then step.txseq else if sent = true then step.txseq + 1 else txseq) :
    Standing (steps ++ [step]) step.after txseq := by
  have reached : step.after = stateFrom .init ((steps ++ [step]).map Step.input) := by
    rw [stateFrom_snoc,← standing.reached,← advanced]
  have earlier : ∀ {P : Step → Prop}, (∃ p ∈ steps, P p) → ∃ p ∈ steps ++ [step], P p :=
    fun ⟨p,member,holds⟩ => ⟨p,List.mem_append_left _ member,holds⟩
  have counted := standing.counted
  have known := standing.known
  rw [input] at advanced
  have inputs : (if step.input = .prepareBoot then 1 else 0) = 0 := by rw [input,if_neg nofun]
  rcases advance_event step.before evtid sent with ⟨_,waits,went⟩ | ⟨_,went⟩ | ⟨_,_,went⟩
  · have prepared : step.before = .prepareBoot := waits.resolve_right known.1
    obtain ⟨after,inits⟩ := Prod.mk.inj (advanced.trans went)
    have txseq_one : sent = true → txseq = 1 := by
      intro success
      rw [numbered,inits,if_neg (by decide),if_pos success,(standing.prepared prepared).1]
      rfl
    refine ⟨reached,?_,?_,?_,?_⟩
    · rw [after]; cases sent <;> exact ⟨nofun,by decide⟩
    · rw [after]; cases sent <;> nofun
    · intro waiting
      have success : sent = true := by
        rw [after] at waiting
        cases sent
        · cases waiting
        · rfl
      exact ⟨txseq_one success,step,List.mem_append_right _ (List.mem_singleton.mpr rfl),inits,waiting⟩
    · rw [sum_snoc,count_snoc,inputs,inits,after]
      rw [if_pos prepared] at counted
      cases sent <;> simpa using counted
  · obtain ⟨after,inits⟩ := Prod.mk.inj (advanced.trans went)
    refine ⟨reached,by rw [after]; exact ⟨nofun,Nat.le_refl _⟩,by rw [after]; nofun,by rw [after]; nofun,?_⟩
    rw [sum_snoc,count_snoc,inputs,inits,after,if_neg nofun]
    omega
  · obtain ⟨after,inits⟩ := Prod.mk.inj (advanced.trans went)
    have same : txseq = step.txseq := by rw [numbered,if_pos inits]
    refine ⟨reached,by rw [after]; exact known,fun here => ?_,fun here => ?_,?_⟩
    · rw [same]
      exact (standing.prepared (after ▸ here)).imp_right earlier
    · rw [same]
      exact (standing.waiting (after ▸ here)).imp_right earlier
    · rw [sum_snoc,count_snoc,inputs,inits,after]
      omega

theorem Standing.prepareBoot (step : Step) (standing : Standing steps step.before step.txseq)
    (input : step.input = .prepareBoot) (advanced : (step.after,step.inits) = advance step.before step.input) :
    Standing (steps ++ [step]) step.after 0 := by
  have reached : step.after = stateFrom .init ((steps ++ [step]).map Step.input) := by
    rw [stateFrom_snoc,← standing.reached,← advanced]
  have counted := standing.counted
  rw [input] at advanced
  obtain ⟨after,inits⟩ := Prod.mk.inj (advanced.trans (rfl : advance step.before .prepareBoot = (.prepareBoot,0)))
  refine ⟨reached,by rw [after]; exact ⟨nofun,by decide⟩,fun _ => ⟨rfl,step,?_,input⟩,by rw [after]; nofun,?_⟩
  · exact List.mem_append_right _ (List.mem_singleton.mpr rfl)
  · rw [sum_snoc,count_snoc,if_pos input,inits,after,if_pos rfl]
    omega

theorem split_snoc {steps past rest : List α} {last step : α} (split : steps ++ [last] = past ++ step :: rest) :
    (past = steps ∧ step = last) ∨ ∃ before, steps = past ++ step :: before := by
  rcases List.eq_nil_or_concat rest with rfl | ⟨before,x,rfl⟩
  · obtain ⟨same,heads⟩ := List.append_inj' split rfl
    cases heads
    exact .inl ⟨same.symm,rfl⟩
  · rw [List.concat_eq_append,← List.cons_append,← List.append_assoc] at split
    exact .inr ⟨before,(List.append_inj' split rfl).1⟩

-- Every step of a history starts from what is known of the steps before it.
theorem history_standing {cfg : Build} {start sip : EspSip} (initial : start.state = .init)
    (history : History cfg start steps sip) : Standing steps sip.state sip.txseq ∧
      ∀ past step rest, steps = past ++ step :: rest →
        Standing past step.before step.txseq ∧ (step.after,step.inits) = advance step.before step.input := by
  induction history with
  | nil =>
      rw [initial]
      refine ⟨⟨rfl,⟨nofun,by decide⟩,nofun,nofun,Nat.le_refl _⟩,fun past step rest split => ?_⟩
      exact absurd split.symm (List.append_ne_nil_of_right_ne_nil _ (List.cons_ne_nil _ _))
  | event history between run ih =>
      rename_i steps sip buf ops ret n w w' sent
      obtain ⟨standing,each⟩ := ih
      have here := standing.between between
      obtain ⟨advanced,txseq⟩ := event_run run
      refine ⟨here.event ⟨.event (evtOf w buf) sent,w.sip.state,w'.sip.state,n,w.sip.txseq⟩ rfl advanced txseq,?_⟩
      intro past step rest split
      rcases split_snoc split with ⟨rfl,rfl⟩ | ⟨before,split⟩
      · exact ⟨here,advanced⟩
      · exact each past step before split
  | prepareBoot history between run stored ih =>
      rename_i steps sip ops sent n ans w w₁ w' entryAddr
      obtain ⟨standing,each⟩ := ih
      have here := standing.between between
      obtain ⟨_,txseq,sends⟩ := boot_run run
      simp only [World.exec,Option.some.injEq,Prod.mk.injEq] at stored
      have after : w'.sip.state = .prepareBoot := by rw [← stored.2]; rfl
      have zero : w'.sip.txseq = 0 := by rw [← stored.2]; exact txseq
      have inits : n = 0 := congrArg Sends.inits sends
      have advanced : (w'.sip.state,n) = advance w.sip.state .prepareBoot := by rw [after,inits]; rfl
      rw [zero]
      refine ⟨here.prepareBoot ⟨.prepareBoot,w.sip.state,w'.sip.state,n,w.sip.txseq⟩ rfl advanced,?_⟩
      intro past step rest split
      rcases split_snoc split with ⟨rfl,rfl⟩ | ⟨before,split⟩
      · exact ⟨here,advanced⟩
      · exact each past step before split

-- From here on the inputs alone decide.
theorem Initialised.append {past : List Input} (held : Initialised past) (more : List Input) : Initialised (past ++ more) := by
  obtain ⟨a,b,c,rfl,first⟩ := held
  exact ⟨a,b,c ++ more,by simp,first⟩

-- Without `SIP_EVT_BOOTUP` the link waits for it only after INIT has been sent.
theorem waiting_initialised {past : List Input} (none : ∀ sent, .event sipEvtBootup sent ∉ past) :
    stateFrom .init past ≠ .run ∧ stateFrom .init past ≠ .boot ∧ (stateFrom .init past = .waitBootup → Initialised past) ∧
      (stateFrom .init past = .prepareBoot →
        ∃ a b, past = a ++ .prepareBoot :: b ∧ ∀ sent, .event sipEvtTargetOn sent ∉ b) := by
  induction past using List.reverseRecOn with
  | nil => exact ⟨nofun,nofun,nofun,nofun⟩
  | append_singleton past input ih =>
      obtain ⟨notRun,notBoot,waiting,prepared⟩ := ih fun sent member => none sent (List.mem_append_left _ member)
      have next : stateFrom .init (past ++ [input]) = (advance (stateFrom .init past) input).1 := stateFrom_append ..
      rw [next]
      cases input with
      | prepareBoot => exact ⟨nofun,nofun,nofun,fun _ => ⟨past,[],rfl,fun _ => List.not_mem_nil⟩⟩
      | event evtid sent =>
          rcases advance_event (stateFrom .init past) evtid sent with ⟨targetOn,waits,went⟩ | ⟨bootup,went⟩ | ⟨_,other,went⟩
          · obtain ⟨a,b,rfl,first⟩ := prepared (waits.resolve_right notBoot)
            rw [went,targetOn]
            cases sent
            · exact ⟨nofun,nofun,nofun,nofun⟩
            · exact ⟨nofun,nofun,fun _ => ⟨a,b,[],by simp,first⟩,nofun⟩
          · exact absurd (List.mem_append_right _ (List.mem_singleton.mpr (by rw [bootup]))) (none sent)
          · rw [went]
            refine ⟨notRun,notBoot,fun here => (waiting here).append _,fun here => ?_⟩
            obtain ⟨a,b,rfl,first⟩ := prepared here
            refine ⟨a,b ++ [.event evtid sent],by simp,fun sent' member => ?_⟩
            rcases List.mem_append.mp member with before | last
            · exact first sent' before
            · cases List.mem_singleton.mp last
              exact (other rfl).1 here

-- An INIT that was sent leaves the link waiting or running.
theorem initialised_waiting {past : List Input} (single : past.count .prepareBoot ≤ 1) (held : Initialised past) :
    stateFrom .init past = .waitBootup ∨ stateFrom .init past = .run := by
  obtain ⟨a,b,c,rfl,first⟩ := held
  have once : .prepareBoot ∉ b ∧ .prepareBoot ∉ c := by
    simp only [List.count_append,List.count_cons_self,List.count_cons] at single
    constructor <;> intro member <;> have := List.count_pos_iff.mpr member <;> omega
  have before : stateFrom .prepareBoot b = .prepareBoot ∨ stateFrom .prepareBoot b = .run := by
    refine stateFrom_keeps (P := fun v => v = .prepareBoot ∨ v = .run) (fun v input member here => ?_) (.inl rfl)
    cases input with
    | prepareBoot => exact absurd member once.1
    | event evtid sent =>
        rcases advance_event v evtid sent with ⟨targetOn,_,_⟩ | ⟨_,went⟩ | ⟨_,_,went⟩
        · exact absurd (targetOn ▸ member) (first sent)
        · rw [went]; exact .inr rfl
        · rw [went]; exact here
  have after : ∀ v, (v = .waitBootup ∨ v = .run) → stateFrom v c = .waitBootup ∨ stateFrom v c = .run := by
    intro v here
    refine stateFrom_keeps (P := fun v => v = .waitBootup ∨ v = .run) (fun v input member here => ?_) here
    cases input with
    | prepareBoot => exact absurd member once.2
    | event evtid sent =>
        rcases advance_event v evtid sent with ⟨_,waits,_⟩ | ⟨_,went⟩ | ⟨_,_,went⟩
        · rcases here with rfl | rfl <;> rcases waits with no | no <;> cases no
        · rw [went]; exact .inr rfl
        · rw [went]; exact here
  have whole : stateFrom .init (a ++ .prepareBoot :: (b ++ .event sipEvtTargetOn true :: c)) =
      stateFrom (advance (stateFrom .prepareBoot b) (.event sipEvtTargetOn true)).1 c := by
    rw [stateFrom_append,show stateFrom (stateFrom .init a) (.prepareBoot :: (b ++ .event sipEvtTargetOn true :: c)) =
      stateFrom .prepareBoot (b ++ .event sipEvtTargetOn true :: c) from rfl,stateFrom_append]
    rfl
  rw [whole]
  refine after _ ?_
  rcases before with here | here <;> rw [here]
  · exact .inl rfl
  · exact .inr rfl

-- The INIT of an event, and how an event enters `SIP_RUN`.
theorem sends_init {step : Step} (advanced : (step.after,step.inits) = advance step.before step.input)
    (sends : 0 < step.inits) : step.before = .prepareBoot ∨ step.before = .boot := by
  cases input : step.input with
  | prepareBoot =>
      rw [input] at advanced
      rw [(Prod.mk.inj advanced).2] at sends
      cases sends
  | event evtid sent =>
      rw [input] at advanced
      rcases advance_event step.before evtid sent with ⟨_,waits,_⟩ | ⟨_,went⟩ | ⟨_,_,went⟩
      · exact waits
      all_goals
        rw [(Prod.mk.inj (advanced.trans went)).2] at sends
        cases sends

theorem enters_run {step : Step} (advanced : (step.after,step.inits) = advance step.before step.input)
    (outside : step.before ≠ .run) (running : step.after = .run) : ∃ sent, step.input = .event sipEvtBootup sent := by
  cases input : step.input with
  | prepareBoot =>
      rw [input] at advanced
      rw [(Prod.mk.inj advanced).1] at running
      cases running
  | event evtid sent =>
      rw [input] at advanced
      rcases advance_event step.before evtid sent with ⟨_,_,went⟩ | ⟨bootup,_⟩ | ⟨_,_,went⟩
      · rw [(Prod.mk.inj (advanced.trans went)).1] at running
        cases sent <;> cases running
      · exact ⟨sent,by rw [bootup]⟩
      · exact absurd ((Prod.mk.inj (advanced.trans went)).1.symm.trans running) outside

theorem goes_forward {step : Step} (advanced : (step.after,step.inits) = advance step.before step.input)
    (known : rank step.before ≤ 5) (event : step.input ≠ .prepareBoot) : rank step.before ≤ rank step.after := by
  cases input : step.input with
  | prepareBoot => exact absurd input event
  | event evtid sent =>
      rw [input] at advanced
      rcases advance_event step.before evtid sent with ⟨_,waits,went⟩ | ⟨_,went⟩ | ⟨_,_,went⟩
      · rw [(Prod.mk.inj (advanced.trans went)).1]
        rcases waits with here | here <;> rw [here] <;> cases sent <;> decide
      · rw [(Prod.mk.inj (advanced.trans went)).1]
        exact known
      · exact Nat.le_of_eq (congrArg rank (Prod.mk.inj (advanced.trans went)).1.symm)

-- In a history with one transition the order is kept exactly when no
-- `SIP_EVT_BOOTUP` comes before INIT has been sent.
theorem boot_ordered (cfg : Build) {start sip : EspSip} {steps : List Step} (initial : start.state = .init)
    (history : History cfg start steps sip) (single : (steps.map Step.input).count .prepareBoot ≤ 1) :
    Ordered steps ↔ Expected (steps.map Step.input) := by
  obtain ⟨standing,each⟩ := history_standing initial history
  constructor
  · intro ordered past
    -- the first `SIP_EVT_BOOTUP` decides for all later ones
    induction length : past.length using Nat.strongRecOn generalizing past with
    | ind size ih =>
        intro sent rest split
        by_cases again : ∃ sent', .event sipEvtBootup sent' ∈ past
        · obtain ⟨sent',member⟩ := again
          obtain ⟨early,late,rfl⟩ := List.append_of_mem member
          refine (ih early.length ?_ early rfl sent' (late ++ .event sipEvtBootup sent :: rest) ?_).append _
          · rw [← length]
            simp
          · rw [split]
            simp
        · obtain ⟨notRun,_,waiting,_⟩ := waiting_initialised fun sent' member => again ⟨sent',member⟩
          obtain ⟨before,others,rfl,rfl,tail⟩ := List.map_eq_append_iff.mp split
          obtain ⟨step,after,rfl,input,_⟩ := List.map_eq_cons_iff.mp tail
          obtain ⟨here,advanced⟩ := each before step after rfl
          have other : sipEvtBootup ≠ sipEvtTargetOn := by decide
          rw [input,advance,if_neg other,if_pos rfl] at advanced
          obtain ⟨waits,_⟩ := ordered.entered before step after rfl (here.reached ▸ notRun) (Prod.mk.inj advanced).1
          exact waiting (here.reached ▸ waits)
  · intro expected
    refine ⟨?_,?_,?_,?_⟩
    · have counted := standing.counted
      omega
    · intro past step rest split sends
      obtain ⟨here,advanced⟩ := each past step rest split
      exact (here.prepared ((sends_init advanced sends).resolve_right here.known.1)).2
    · intro past step rest split outside running
      obtain ⟨here,advanced⟩ := each past step rest split
      obtain ⟨sent,input⟩ := enters_run advanced outside running
      have inputs : steps.map Step.input = past.map Step.input ++ .event sipEvtBootup sent :: rest.map Step.input := by
        rw [split,List.map_append,List.map_cons,input]
      have few : (past.map Step.input).count .prepareBoot ≤ 1 := by
        rw [inputs,List.count_append] at single
        omega
      have waits : step.before = .waitBootup := by
        rw [here.reached] at outside ⊢
        exact (initialised_waiting few (expected _ sent _ inputs)).resolve_right outside
      exact ⟨waits,here.waiting waits⟩
    · intro step member event
      obtain ⟨past,rest,split⟩ := List.append_of_mem member
      obtain ⟨here,advanced⟩ := each past step rest split
      exact goes_forward advanced here.known.2 event

-- Concrete histories: a buffer that holds one event, and executions of the two
-- programs from a given object.
def holding (sip : EspSip) (evtid : UInt8) : World :=
  {World.initial sip with mem := fun _ i => if i = 1 then evtid else 0}

theorem event_exists {cfg : Build} {start sip : EspSip} (sip' : EspSip) (evtid : UInt8) (d : Sends) (choices : List Ans)
    (history : History cfg start steps sip)
    (passed : (execute (sendSlave.exec .transRecv) (espSipParseEvents cfg recvBuf) choices (holding sip evtid,⟨true,0⟩)).any
      (fun result => decide (result.2.2.1.sip = sip' ∧ result.2.2.2 = d)) = true) :
    History cfg start (steps ++ [⟨.event evtid d.sound,sip.state,sip'.state,d.inits,sip.txseq⟩]) sip' := by
  obtain ⟨ops,ret,⟨w',d'⟩,run,ended⟩ := slave_executes sendSlave .transRecv (fun s => (rfl : s = s)) _ _ _
    (fun _ (s : State) => decide (s.1.sip = sip' ∧ s.2 = d)) passed
  obtain ⟨rfl,rfl⟩ := of_decide_eq_true ended
  exact .event (w := holding sip evtid) history ⟨rfl,fun _ => rfl⟩ run

theorem boot_exists {cfg : Build} {start sip : EspSip} (sip' : EspSip) (choices : List Ans) (history : History cfg start steps sip)
    (passed : (execute (sendSlave.exec .appMain)
      (espSipSendCmd sipCmdBootup sizeofSipCmdBootup (le32 0 ++ le32 1)) choices (World.initial sip,⟨true,0⟩)).any
      (fun result => decide (result.2.1 = .ok ∧ result.2.2.1.sip = sip')) = true) :
    History cfg start (steps ++ [⟨.prepareBoot,sip.state,.prepareBoot,0,sip.txseq⟩]) {sip' with state := .prepareBoot} := by
  obtain ⟨ops,ret,⟨w₁,d⟩,run,ended⟩ := slave_executes sendSlave .appMain (fun s => (rfl : s = s)) _ _ _
    (fun (ret : EspErr) (s : State) => decide (ret = .ok ∧ s.1.sip = sip')) passed
  obtain ⟨rfl,rfl⟩ := of_decide_eq_true ended
  obtain ⟨_,_,rfl⟩ := boot_run run
  have stored : World.exec .appMain (.sipSet (.state .prepareBoot)) {flag := true} w₁ =
      some ((),{w₁ with sip := {w₁.sip with state := .prepareBoot}}) := rfl
  exact .prepareBoot (w := World.initial sip) history ⟨rfl,fun _ => rfl⟩ run stored

def booted : List Step := [⟨.prepareBoot,.init,.prepareBoot,0,0⟩,⟨.event sipEvtTargetOn true,.prepareBoot,.waitBootup,1,0⟩,
  ⟨.event sipEvtBootup true,.waitBootup,.run,0,1⟩]

theorem booted_history : History ⟨true,true⟩ espSipInit booted {espSipInit with state := .run,txseq := 1} := by
  have boot := boot_exists espSipInit (List.replicate 40 {flag := true}) (History.nil : History ⟨true,true⟩ espSipInit [] _)
    (by decide +kernel)
  have targetOn := event_exists {espSipInit with state := .waitBootup,txseq := 1} sipEvtTargetOn ⟨true,1⟩
    (List.replicate 40 {data := List.replicate 15 0}) boot (by decide +kernel)
  exact event_exists {espSipInit with state := .run,txseq := 1} sipEvtBootup ⟨true,0⟩ (List.replicate 40 {flag := true}) targetOn
    (by decide +kernel)

theorem booted_ordered : History ⟨true,true⟩ espSipInit booted {espSipInit with state := .run,txseq := 1} ∧ Ordered booted := by
  refine ⟨booted_history,(boot_ordered ⟨true,true⟩ rfl booted_history (by decide)).mpr ?_⟩
  intro past sent rest split
  have other : sipEvtBootup ≠ sipEvtTargetOn := by decide
  rcases past with _ | ⟨a,_ | ⟨b,_ | ⟨c,past⟩⟩⟩
  · cases split
  · cases split
  · cases split
    exact ⟨[],[],[],rfl,fun _ => List.not_mem_nil⟩
  · simp [booted] at split

-- The slave says it is up while the boot task still waits for its first event.
theorem boot_not_ordered : ¬ ∀ (cfg : Build) (start sip : EspSip) (steps : List Step), start.state = .init →
    History cfg start steps sip → (steps.map Step.input).count .prepareBoot = 1 → Ordered steps := by
  intro all
  have boot := boot_exists espSipInit (List.replicate 40 {flag := true}) (History.nil : History ⟨true,true⟩ espSipInit [] _)
    (by decide +kernel)
  have bootup := event_exists {espSipInit with state := .run} sipEvtBootup ⟨true,0⟩ (List.replicate 40 {flag := true}) boot
    (by decide +kernel)
  obtain ⟨waits,_⟩ := (all _ _ _ _ rfl bootup (by decide)).entered [⟨.prepareBoot,.init,.prepareBoot,0,0⟩] _ [] rfl nofun rfl
  cases waits

end ExtConn.BootOrder
