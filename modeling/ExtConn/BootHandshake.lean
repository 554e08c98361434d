import ExtConn.System

namespace ExtConn.BootHandshake
open Effects ByteMemory Interleaving

-- How far boot has come: the command that provokes the first event is written,
-- the boot task has published `SIP_PREPARE_BOOT`, the event has been received,
-- and how many times INIT has been sent in answer.
structure Handshake where
  parsing : Bool
  written : Bool
  stored : Bool
  target : Bool
  inits : Nat
  bootup : Bool
  deriving DecidableEq

def evtOf (w : World) (p : Ptr) (n : Nat) : UInt8 := (sipHdrOf (w.mem.read p n)).fc1

-- The slave sends `SIP_EVT_TARGET_ON` once after the command has been written and
-- `SIP_EVT_BOOTUP` once after INIT.
def heard (evtid : UInt8) (d : Handshake) : Option Handshake :=
  if evtid = sipEvtTargetOn then if d.written = true ∧ d.target = false then some {d with target := true} else none
  else if evtid = sipEvtBootup then if 0 < d.inits ∧ d.bootup = false then some {d with bootup := true} else none
  else some d

def bootSteps (o : Op) (d : Handshake) : Handshake :=
  match o with
  | .sdmmcIoWrite _ _ _ _ _ => {d with written := true}
  | .sipSet (.state _) => {d with stored := true}
  | _ => d

def recvSteps (w : World) (o : Op) (d : Handshake) : Option Handshake :=
  match o with
  | .note (.parseEvents _) => some {d with parsing := true}
  | .note (.packetSent _ _) => some {d with inits := d.inits + 1}
  | .load p n => if d.parsing = true then heard (evtOf w p n) {d with parsing := false} else some d
  | _ => some d

def followed (t : Task) (w : World) (o : Op) (d : Handshake) : Option Handshake :=
  match t with
  | .appMain => some (bootSteps o d)
  | .transRecv => recvSteps w o d
  | _ => some d

-- No transfer fails.
def handshakeSlave : Slave Handshake where
  answers t w o ans d := if transfers o = true ∧ ans.err ≠ .ok then none else followed t w o d
  moves d d' := d' = d

abbrev State := World × Handshake

-- The event is not taken for one in the wrong state, the boot task overwrites no
-- state that the receive task has set, and INIT is sent once.
structure Complete (c : Config signature Task Label State) : Prop where
  accepted : c.pending .transRecv ≠ some (.note .bootWrongState)
  forward : ∀ v, c.pending .appMain = some (.sipSet (.state v)) → c.shared.1.sip.state = .init
  once : c.shared.2.inits ≤ 1
  answered : c.running .transRecv = .pure .transRecvTask → c.shared.2.target = true → c.shared.2.inits = 1

-- The event is handled after `SIP_PREPARE_BOOT` has been stored, and there is
-- memory for the command that answers it.
def published (t : Task) (o : Op) (s : State) (r : o.Answer) : Prop :=
  match t,o,r with
  | .transRecv,.load p n,_ => s.2.parsing = true → evtOf s.1 p n = sipEvtTargetOn → s.2.stored = true
  | .transRecv,.calloc _,r => r ≠ none
  | _,_,_ => True

-- What the boot task, the receive task and the others do to all this.
structure Booting (s s' : State) : Prop where
  parsing : s'.2.parsing = s.2.parsing
  target : s'.2.target = s.2.target
  inits : s'.2.inits = s.2.inits
  after : s.2.stored = true → s'.2.stored = true ∧ s'.1.sip.state = s.1.sip.state
  before : s.2.stored = false → s'.2.stored = false ∧ s'.1.sip.state = s.1.sip.state ∨
    s'.2.stored = true ∧ s'.1.sip.state = .prepareBoot

structure Receiving (s s' : State) : Prop where
  stored : s'.2.stored = s.2.stored
  state : s.2.stored = false → s'.1.sip.state = s.1.sip.state

structure Aside (s s' : State) : Prop where
  boot : s'.2 = s.2
  state : s'.1.sip.state = s.1.sip.state

theorem Aside.booting {s s' : State} (aside : Aside s s') : Booting s s' := by
  obtain ⟨boot,state⟩ := aside
  exact ⟨by rw [boot],by rw [boot],by rw [boot],fun stored => ⟨by rw [boot]; exact stored,state⟩,
    fun early => .inl ⟨by rw [boot]; exact early,state⟩⟩

theorem Aside.receiving {s s' : State} (aside : Aside s s') : Receiving s s' :=
  ⟨by rw [aside.boot],fun _ => aside.state⟩

-- What an operation that was answered has done to the handshake.
theorem answers_of {t : Task} {o : Op} {r : o.Answer} {s s' : State} (acted : handshakeSlave.act t o s r s') :
    followed t s.1 o s.2 = some s'.2 := by
  obtain ⟨ans,ran,answered⟩ := act_iff.mp acted
  simp only [handshakeSlave] at answered
  split at answered
  · cases answered
  · exact answered

-- Tasks other than these two take no part in it.
theorem aside_act {t : Task} {o : Op} {r : o.Answer} {s s' : State} (other : t ≠ .transRecv) (own : t ≠ .appMain)
    (still : setsState o = false) (acted : handshakeSlave.act t o s r s') : Aside s s' := by
  obtain ⟨ans,ran⟩ := act_exec acted
  have answered := answers_of acted
  refine ⟨?_,(exec_frame ran).state still⟩
  cases t
  case transRecv => exact absurd rfl other
  case appMain => exact absurd rfl own
  all_goals exact (Option.some.inj answered).symm

-- Operations of the receive task that are no part of the handshake while it is
-- not about to look at an event.
def marks : Op → Bool
  | .note (.parseEvents _) | .note (.packetSent _ _) => true
  | o => setsState o

theorem recv_aside {o : Op} {r : o.Answer} {s s' : State} (calm : marks o = false) (idle : s.2.parsing = false)
    (acted : handshakeSlave.act .transRecv o s r s') : Aside s s' := by
  obtain ⟨ans,ran⟩ := act_exec acted
  have answered := answers_of acted
  have still : setsState o = false := by
    cases o
    case note => rfl
    all_goals exact calm
  refine ⟨?_,(exec_frame ran).state still⟩
  cases o
  case note n => cases n <;> first | (cases calm; done) | exact (Option.some.inj answered).symm
  case load p n =>
    simp only [followed,recvSteps,idle,Bool.false_eq_true,if_false] at answered
    exact (Option.some.inj answered).symm
  all_goals exact (Option.some.inj answered).symm

theorem boot_booting {o : Op} {r : o.Answer} {s s' : State} (still : setsState o = false)
    (acted : handshakeSlave.act .appMain o s r s') : Booting s s' ∧ s'.2.stored = s.2.stored := by
  obtain ⟨ans,ran⟩ := act_exec acted
  have answered : bootSteps o s.2 = s'.2 := Option.some.inj (answers_of acted)
  have state := (exec_frame ran).state still
  have steps : (bootSteps o s.2).parsing = s.2.parsing ∧ (bootSteps o s.2).target = s.2.target ∧
      (bootSteps o s.2).inits = s.2.inits ∧ (bootSteps o s.2).stored = s.2.stored := by
    cases o
    case sipSet a => cases a <;> first | (cases still; done) | exact ⟨rfl,rfl,rfl,rfl⟩
    all_goals exact ⟨rfl,rfl,rfl,rfl⟩
  rw [answered] at steps
  obtain ⟨parsing,target,inits,stored⟩ := steps
  exact ⟨⟨parsing,target,inits,fun before => ⟨stored.trans before,state⟩,fun before => .inl ⟨stored.trans before,state⟩⟩,stored⟩

-- The boot task. Until it stores the state nobody else changes it.
def bootSafe (o : Op) (s : State) : Prop := ∀ v, o = .sipSet (.state v) → s.1.sip.state = .init

def bootContract : Contract signature State where
  act o s r s' := handshakeSlave.act .appMain o s r s' ∧ published .appMain o s r
  rely := Receiving
  guar := Booting
  safe := bootSafe

structure Before (s : State) : Prop where
  stored : s.2.stored = false
  state : s.1.sip.state = .init

theorem before_stable (s s' : State) (held : Before s) (moved : Receiving s s') : Before s' :=
  ⟨by rw [moved.stored]; exact held.stored,by rw [moved.state held.stored]; exact held.state⟩

theorem still_safe {o : Op} (still : setsState o = false) (s : State) : bootSafe o s := by
  rintro v rfl
  cases still

theorem boot_keeps {o : Op} (still : setsState o = false) : KeepsOp bootContract Before o := by
  intro s held
  refine ⟨still_safe still s,fun r s' acted => ?_⟩
  obtain ⟨booting,stored⟩ := boot_booting still acted.1
  refine ⟨booting,by rw [stored]; exact held.stored,?_⟩
  rcases booting.before held.stored with ⟨_,state⟩ | ⟨late,_⟩
  · exact state.trans held.state
  · rw [stored,held.stored] at late
    cases late

theorem boot_stores : LeadsOp bootContract Before (fun _ => True) (.sipSet (.state .prepareBoot)) := by
  intro s held
  refine ⟨fun _ _ => held.state,fun r s' acted => ⟨?_,trivial⟩⟩
  obtain ⟨ans,ran⟩ := act_exec acted.1
  have answered : {s.2 with stored := true} = s'.2 := Option.some.inj (answers_of acted.1)
  simp only [World.exec,Option.some.injEq,Prod.mk.injEq] at ran
  refine ⟨by rw [← answered],by rw [← answered],by rw [← answered],fun late => ?_,fun _ => .inr ⟨by rw [← answered],?_⟩⟩
  · rw [held.stored] at late
    cases late
  · rw [← ran.2]
    rfl

theorem boot_after {o : Op} (still : setsState o = false) : KeepsOp bootContract (fun _ => True) o :=
  fun s _ => ⟨still_safe still s,fun _ _ acted => ⟨(boot_booting still acted.1).1,trivial⟩⟩

theorem quiet_still {o : Op} (quiet : o.quiet = true) : setsState o = false := by
  cases o
  case sipSet a => cases a <;> first | rfl | cases quiet
  all_goals rfl

theorem sendCmd_keeps (entryAddr : UInt32) :
    Keeps bootContract Before (espSipSendCmd sipCmdBootup sizeofSipCmdBootup (le32 entryAddr ++ le32 1)) := by
  refine Prog.All.keeps ?_ before_stable
  exact sendCmd_all (fun o quiet => boot_keeps (quiet_still quiet)) (fun _ _ => boot_keeps rfl) (fun _ _ => boot_keeps rfl)
    (fun _ => boot_keeps rfl) (boot_keeps rfl) (boot_keeps rfl) (fun _ _ => boot_keeps rfl) (fun _ _ _ _ => boot_keeps rfl)
    (fun _ => boot_keeps rfl) _ _

theorem espSipBootup_leads (cfg : Build) (entryAddr : UInt32) :
    Leads bootContract Before (fun _ => True) (espSipBootup cfg entryAddr) := by
  have anything : ∀ s s', True → bootContract.rely s s' → True := fun _ _ _ _ => trivial
  unfold espSipBootup
  simp only [Prog.bind_def,issue_bind,Prog.pure_def]
  refine (sendCmd_keeps entryAddr).bind fun sent => ?_
  have wait : Leads bootContract Before (fun _ => True) (bootupWait cfg sent) := by
    unfold bootupWait
    simp only [Prog.bind_def,issue_bind,Prog.pure_def]
    refine Leads.ite (leads_op before_stable boot_stores fun _ => ?_) fun _ _ => trivial
    refine leads_op anything (boot_after rfl) fun _ => Leads.ite ?_ (keeps_pure _)
    exact leads_op anything (boot_after rfl) fun _ => keeps_pure _
  exact wait.bind fun ret => leads_op anything (boot_after rfl) fun _ => keeps_pure _

-- The receive task. `b` is whether it is about to look at an event.
def recvContract : Contract signature State where
  act o s r s' := handshakeSlave.act .transRecv o s r s' ∧ published .transRecv o s r
  rely := Booting
  guar := Receiving
  safe o s := o ≠ .note .bootWrongState ∧ s.2.inits ≤ 1

structure Waiting (b : Bool) (s : State) : Prop where
  parsing : s.2.parsing = b
  target : s.2.target = false
  inits : s.2.inits = 0
  state : s.1.sip.state = if s.2.stored = true then .prepareBoot else .init

-- The first event is in and INIT has been sent `n` times.
structure Told (b : Bool) (n : Nat) (s : State) : Prop where
  parsing : s.2.parsing = b
  target : s.2.target = true
  inits : s.2.inits = n
  stored : s.2.stored = true

def Ready (b : Bool) (s : State) : Prop := Waiting b s ∨ Told b 1 s

theorem waiting_stable (s s' : State) (held : Waiting b s) (moved : Booting s s') : Waiting b s' := by
  refine ⟨moved.parsing.trans held.parsing,moved.target.trans held.target,moved.inits.trans held.inits,?_⟩
  have state := held.state
  cases stored : s.2.stored with
  | true =>
      obtain ⟨late,same⟩ := moved.after stored
      rw [late,same,state,stored]
  | false =>
      rcases moved.before stored with ⟨early,same⟩ | ⟨late,same⟩
      · rw [early,same,state,stored]
      · rw [late,same,if_pos rfl]

theorem told_stable (s s' : State) (held : Told b n s) (moved : Booting s s') : Told b n s' :=
  ⟨moved.parsing.trans held.parsing,moved.target.trans held.target,moved.inits.trans held.inits,(moved.after held.stored).1⟩

theorem ready_stable (s s' : State) (held : Ready b s) (moved : Booting s s') : Ready b s' :=
  held.imp (fun waiting => waiting_stable s s' waiting moved) fun told => told_stable s s' told moved

theorem Ready.inits {s : State} (held : Ready b s) : s.2.inits ≤ 1 := by
  rcases held with waiting | told
  · rw [waiting.inits]; exact Nat.zero_le 1
  · exact Nat.le_of_eq told.inits

theorem Ready.parsing {s : State} (held : Ready b s) : s.2.parsing = b :=
  held.elim (fun waiting => waiting.parsing) fun told => told.parsing

theorem calm_note {o : Op} (calm : notes o = false) : o ≠ .note .bootWrongState := by
  rintro rfl
  cases calm

theorem recv_keeps {keep : State → Prop} {o : Op} (stable : ∀ s s', keep s → Booting s s' → keep s')
    (idle : ∀ s, keep s → s.2.parsing = false ∧ s.2.inits ≤ 1) (calm : marks o = false) (wrong : o ≠ .note .bootWrongState) :
    KeepsOp recvContract keep o := by
  intro s held
  refine ⟨⟨wrong,(idle s held).2⟩,fun r s' acted => ?_⟩
  have aside := recv_aside calm (idle s held).1 acted.1
  exact ⟨aside.receiving,stable s s' held aside.booting⟩

theorem ready_keeps {o : Op} (calm : marks o = false) (wrong : o ≠ .note .bootWrongState) :
    KeepsOp recvContract (Ready false) o :=
  recv_keeps ready_stable (fun _ held => ⟨held.parsing,held.inits⟩) calm wrong

theorem told_keeps {o : Op} (few : n ≤ 1) (calm : marks o = false) (wrong : o ≠ .note .bootWrongState) :
    KeepsOp recvContract (Told false n) o :=
  recv_keeps told_stable (fun _ held => ⟨held.parsing,held.inits ▸ few⟩) calm wrong

theorem told_sets (few : n ≤ 1) (v : SipState) : KeepsOp recvContract (Told false n) (.sipSet (.state v)) := by
  intro s held
  refine ⟨⟨nofun,held.inits ▸ few⟩,fun r s' acted => ?_⟩
  have answered : s.2 = s'.2 := Option.some.inj (answers_of acted.1)
  refine ⟨⟨by rw [answered],fun early => ?_⟩,by rw [← answered]; exact held.parsing,by rw [← answered]; exact held.target,
    by rw [← answered]; exact held.inits,by rw [← answered]; exact held.stored⟩
  rw [held.stored] at early
  cases early

-- Sending INIT is counted when its packet has gone out.
theorem init_counted (function n : UInt32) : LeadsOp recvContract (Told false 0) (Told false 1) (.note (.packetSent function n)) := by
  intro s held
  refine ⟨⟨nofun,held.inits ▸ Nat.zero_le 1⟩,fun r s' acted => ?_⟩
  obtain ⟨ans,ran⟩ := act_exec acted.1
  have world : s.1 = s'.1 := congrArg Prod.snd (Option.some.inj ran)
  have answered : {s.2 with inits := s.2.inits + 1} = s'.2 := Option.some.inj (answers_of acted.1)
  refine ⟨⟨by rw [← answered],fun _ => by rw [world]⟩,by rw [← answered]; exact held.parsing,
    by rw [← answered]; exact held.target,?_,by rw [← answered]; exact held.stored⟩
  rw [← answered]
  exact congrArg (· + 1) held.inits

theorem quiet_marks {o : Op} (quiet : o.quiet = true) : marks o = false ∧ o ≠ .note .bootWrongState := by
  refine ⟨?_,fun same => by rw [same] at quiet; cases quiet⟩
  cases o
  case note => cases quiet
  case sipSet a => cases a <;> first | rfl | cases quiet
  all_goals rfl

theorem told_quiet {o : Op} (few : n ≤ 1) (quiet : o.quiet = true) : KeepsOp recvContract (Told false n) o :=
  told_keeps few (quiet_marks quiet).1 (quiet_marks quiet).2

theorem acted_sends {o : Op} {r : o.Answer} {s s' : State} (acted : recvContract.act o s r s') : sends o r := by
  cases o
  case calloc => exact acted.2
  case sdmmcIoWrite =>
    obtain ⟨ans,ran,answered⟩ := act_iff.mp acted.1
    simp only [handshakeSlave] at answered
    split at answered
    · cases answered
    · rename_i sound
      have same : ans.err = r := congrArg Prod.fst (Option.some.inj ran)
      exact same.symm.trans (Decidable.not_not.mp fun failed => sound ⟨rfl,failed⟩)
  all_goals trivial

theorem sent_packet (buffer : Ptr) (n : UInt32) :
    Leads recvContract (Told false 0) (Told false 1) (espExtconnSdioSendPacket 1 buffer n) := by
  have keeps : ∀ {o : Op}, marks o = false → o ≠ .note .bootWrongState → KeepsOp recvContract (Told false 0) o :=
    told_keeps (Nat.zero_le 1)
  have counted : Leads recvContract (Told false 0) (Told false 1)
      (Prog.op (.note (.packetSent 1 n)) fun _ => .pure .ok : Code EspErr) :=
    leads_op told_stable (init_counted 1 n) fun _ => keeps_pure _
  unfold espExtconnSdioSendPacket
  simp only [Prog.bind_def,issue_bind,Prog.pure_def]
  refine leads_op told_stable (keeps rfl nofun) fun _ s held => ?_
  have chunks : Keeps recvContract (Told false 0) (sendPacketChunks 1 (chunkAddr 1 n) (n.toNat + 1) buffer n) :=
    (sendPacketChunks_all (fun _ _ _ => keeps rfl nofun) _ _ _).keeps told_stable
  rw [wp_bind]
  refine wp_mono (wp_returnsWhen (fun o s r s' acted => sends_writes o r (acted_sends acted)) (sendPacketChunks_writes _ _ _ _) (chunks s held)) ?_
  rintro err s₁ ⟨rfl,held₁⟩
  rw [if_neg (not_not_intro rfl)]
  refine (Leads.ite ?_ counted : Leads _ _ _ _) s₁ held₁
  refine leads_op told_stable (keeps rfl nofun) fun _ => leads_op told_stable (keeps rfl nofun) fun _ => ?_
  refine leads_op told_stable (keeps rfl nofun) fun _ => Leads.ite ?_ counted
  exact leads_op told_stable (keeps rfl nofun) fun _ => counted

theorem sent_init (len : UInt16) (cmd : List UInt8) (buffer : Ptr) :
    Leads recvContract (Told false 0) (Told false 1) (espSipSendCmdBuffer sipCmdInit len cmd buffer) := by
  have step : ∀ {o : Op} {next : o.Answer → Code EspErr}, marks o = false → decide (o = .note .bootWrongState) = false →
      (∀ r, Leads recvContract (Told false 0) (Told false 1) (next r)) →
      Leads recvContract (Told false 0) (Told false 1) (Prog.op o next : Code EspErr) :=
    fun calm wrong rest => leads_op told_stable (told_keeps (Nat.zero_le 1) calm (of_decide_eq_false wrong)) rest
  have other : sipCmdInit ≠ sipCmdBootup := by decide
  unfold espSipSendCmdBuffer
  simp only [sipHdrSetType,sipHdrSetSync,sipHdrSetLen,sipHdrSetCmdid,sipHdrSetSeq,espSipIncreaseTxseq,espExtconnSdioLock,
    espExtconnSdioUnlock,Prog.bind_def,issue_bind,Prog.op_bind,Prog.pure_bind,Prog.pure_def,if_neg other,if_true]
  refine step rfl rfl fun _ => step rfl rfl fun _ => step rfl rfl fun _ => step rfl rfl fun _ => ?_
  refine step rfl rfl fun _ => step rfl rfl fun _ => step rfl rfl fun _ => step rfl rfl fun _ => ?_
  refine step rfl rfl fun _ => step rfl rfl fun _ => step rfl rfl fun _ => step rfl rfl fun _ => ?_
  refine (sent_packet buffer len.toUInt32).bind fun err => ?_
  refine leads_op told_stable (told_keeps (Nat.le_refl 1) rfl (of_decide_eq_false rfl)) fun _ => ?_
  exact leads_op told_stable (told_keeps (Nat.le_refl 1) rfl (of_decide_eq_false rfl)) fun _ => keeps_pure _

theorem chip_init (cfg : Build) : Leads recvContract (Told false 0) (Told false 1) (sipSendChipInit cfg) := by
  unfold sipSendChipInit espSipSendCmd
  simp only [Prog.bind_def,issue_bind,Prog.pure_def]
  refine leads_op told_stable (told_keeps (Nat.zero_le 1) rfl nofun) fun _ => ?_
  refine leads_op told_stable (told_keeps (Nat.zero_le 1) rfl nofun) fun _ => ?_
  intro s held s₁ moved
  have held₁ := told_stable s s₁ held moved
  obtain ⟨safe,steps⟩ := told_keeps (o := .calloc (UInt32.ofNat espInitData.length + sipCtrlHdrLen).toUInt16.toUInt32)
    (Nat.zero_le 1) rfl nofun s₁ held₁
  refine ⟨safe,fun r s₂ acted => ⟨(steps r s₂ acted).1,?_⟩⟩
  cases r with
  | none => exact absurd rfl acted.2
  | some buffer => exact sent_init _ _ buffer s₂ (steps _ s₂ acted).2

-- The first event meets the state that it is to be received in.
def Heard (s : State) : Prop := Told false 0 s ∧ s.1.sip.state = .prepareBoot

theorem heard_stable (s s' : State) (held : Heard s) (moved : Booting s s') : Heard s' :=
  ⟨told_stable s s' held.1 moved,(moved.after held.1.stored).2.trans held.2⟩

theorem targetOn_leads (cfg : Build) : Leads recvContract Heard (Told false 1) (parseTargetOn cfg) := by
  have keeps : Leads recvContract (Told false 0) (Told false 1) (Prog.op (.sipSet (.state .sendInit)) fun _ =>
      (sipSendChipInit cfg).bind fun ret => if ret = .ok then .op (.sipSet (.state .waitBootup)) fun _ => .pure ret
        else .pure ret : Code EspErr) := by
    refine leads_op told_stable (told_sets (Nat.zero_le 1) .sendInit) fun _ => (chip_init cfg).bind fun ret => ?_
    exact Leads.ite (leads_op told_stable (told_sets (Nat.le_refl 1) .waitBootup) fun _ => keeps_pure _) (keeps_pure _)
  unfold parseTargetOn
  simp only [Prog.bind_def,issue_bind,Prog.pure_def]
  intro s held s₁ moved
  have held₁ := heard_stable s s₁ held moved
  obtain ⟨safe,steps⟩ := told_keeps (o := .sipGet) (Nat.zero_le 1) rfl nofun s₁ held₁.1
  refine ⟨safe,fun sip s₂ acted => ⟨(steps sip s₂ acted).1,?_⟩⟩
  have told := (steps sip s₂ acted).2
  obtain ⟨ans,ran⟩ := act_exec acted.1
  have read : s₁.1.sip = sip := congrArg Prod.fst (Option.some.inj ran)
  have state : sip.state = .prepareBoot := by rw [← read]; exact held₁.2
  exact wp_ite (fun _ => keeps s₂ told) fun wrong => absurd (.inl state) wrong

theorem bootup_keeps (buf : Ptr) : Keeps recvContract (Told false 1) (parseBootup buf) := by
  have few : 1 ≤ 1 := Nat.le_refl 1
  exact (parseBootup_all (fun o quiet => told_quiet few quiet) (told_keeps few rfl nofun) (told_sets few .run)
    (told_keeps few rfl nofun)).keeps told_stable

theorem ready_asked {s s' : State} (held : Ready false s) (same : s'.1 = s.1) (asked : s'.2 = {s.2 with parsing := true}) :
    Ready true s' := by
  rcases held with ⟨parsing,target,inits,state⟩ | ⟨parsing,target,inits,stored⟩
  · exact .inl ⟨by rw [asked],by rw [asked]; exact target,by rw [asked]; exact inits,by rw [asked,same]; exact state⟩
  · exact .inr ⟨by rw [asked],by rw [asked]; exact target,by rw [asked]; exact inits,by rw [asked]; exact stored⟩

-- Looking at the header of an event decides which assertion its handling starts
-- from: an event that the slave cannot have sent now does not occur.
theorem header_heard {s s' : State} {bytes : List UInt8} (held : Ready true s)
    (acted : recvContract.act (.load buf sizeofSipHdr) s bytes s') :
    Receiving s s' ∧ (if (sipHdrOf bytes).fc1 = sipEvtTargetOn then Heard s'
      else if (sipHdrOf bytes).fc1 = sipEvtBootup then Told false 1 s' else Ready false s') := by
  obtain ⟨w,d⟩ := s
  obtain ⟨w',d'⟩ := s'
  obtain ⟨acted,published⟩ := acted
  obtain ⟨ans,ran⟩ := act_exec acted
  have answered := answers_of acted
  simp only [World.exec,Option.some.injEq,Prod.mk.injEq] at ran
  obtain ⟨read,same⟩ := ran
  have event : evtOf w buf sizeofSipHdr = (sipHdrOf bytes).fc1 := by rw [← read]; rfl
  have parsing : d.parsing = true := held.parsing
  simp only [followed,recvSteps,parsing,if_true,event,heard] at answered
  split
  · rename_i targetOn
    rw [if_pos targetOn] at answered
    split at answered
    · rename_i first
      cases answered
      rcases held with waiting | told
      · have stored : d.stored = true := published waiting.parsing (event.trans targetOn)
        have state : w'.sip.state = .prepareBoot := by rw [← same,waiting.state,if_pos stored]
        exact ⟨⟨rfl,fun _ => by rw [same]⟩,⟨rfl,rfl,waiting.inits,stored⟩,state⟩
      · rw [told.target] at first
        cases first.2
    · cases answered
  · rename_i other
    rw [if_neg other] at answered
    split
    · rename_i bootup
      rw [if_pos bootup] at answered
      split at answered
      · rename_i after
        cases answered
        rcases held with waiting | told
        · rw [waiting.inits] at after
          cases after.1
        · exact ⟨⟨rfl,fun _ => by rw [same]⟩,rfl,told.target,told.inits,told.stored⟩
      · cases answered
    · rename_i neither
      rw [if_neg neither] at answered
      cases answered
      refine ⟨⟨rfl,fun _ => by rw [same]⟩,?_⟩
      rcases held with waiting | told
      · exact .inl ⟨rfl,waiting.target,waiting.inits,by rw [← same]; exact waiting.state⟩
      · exact .inr ⟨rfl,told.target,told.inits,told.stored⟩

theorem switch_keeps (cfg : Build) (buf : Ptr) (evtid : UInt8) {s : State}
    (held : if evtid = sipEvtTargetOn then Heard s else if evtid = sipEvtBootup then Told false 1 s else Ready false s) :
    wp recvContract (parseSwitch cfg buf evtid) (fun _ => Ready false) s := by
  unfold parseSwitch
  split at held
  · rename_i targetOn
    rw [if_pos targetOn]
    exact wp_mono (targetOn_leads cfg s held) fun _ _ told => .inr told
  · rename_i other
    rw [if_neg other]
    split at held
    · rename_i bootup
      rw [if_pos bootup]
      exact wp_mono (bootup_keeps buf s held) fun _ _ told => .inr told
    · rename_i neither
      rw [if_neg neither]
      refine (Leads.ite ?_ (keeps_pure _) : Keeps _ _ _) s held
      exact leads_op ready_stable (ready_keeps rfl nofun) fun _ => leads_op ready_stable (ready_keeps rfl nofun) fun _ => keeps_pure _

theorem events_keep (cfg : Build) (buf : Ptr) : Keeps recvContract (Ready false) (espSipParseEvents cfg buf) := by
  intro s held s₁ moved
  have held₁ := ready_stable s s₁ held moved
  refine ⟨⟨nofun,held₁.inits⟩,fun _ s₂ acted => ?_⟩
  obtain ⟨ans,ran⟩ := act_exec acted.1
  have world : s₁.1 = s₂.1 := congrArg Prod.snd (Option.some.inj ran)
  have asked : {s₁.2 with parsing := true} = s₂.2 := Option.some.inj (answers_of acted.1)
  refine ⟨⟨by rw [← asked],fun _ => by rw [world]⟩,fun s₃ moved₃ => ?_⟩
  have held₃ := ready_stable s₂ s₃ (ready_asked held₁ world.symm asked.symm) moved₃
  refine ⟨⟨nofun,held₃.inits⟩,fun bytes s₄ acted => ?_⟩
  obtain ⟨receiving,known⟩ := header_heard held₃ acted
  exact ⟨receiving,switch_keeps cfg buf _ known⟩

theorem receiving_marks {o : Op} (own : receiving o) : marks o = false := by
  obtain ⟨may,-,noted⟩ := own
  cases o
  case note => cases noted
  case sipSet a =>
    cases a <;> first | rfl | skip
    rcases may with ordinary | issued
    · cases ordinary
    · cases issued
  all_goals rfl

theorem recv_keeps_task (cfg : Build) : ReceiveKeeps cfg recvContract (Ready false) (Ready false) where
  stable := ready_stable
  steady := ready_stable
  lock := ready_keeps rfl nofun
  unlock := ready_keeps rfl nofun
  within _ own := ready_keeps (receiving_marks own) (calm_note own.2.2)
  own _ own _ := ready_keeps (receiving_marks own) (calm_note own.2.2)
  events := events_keep cfg
  tohost := by
    refine Prog.All.keeps (handleIntr1Tohost_all ?_ ?_ ?_ ?_ ?_) ready_stable
    all_goals exact ready_keeps rfl nofun

-- The other tasks.
def asideContract (t : Task) : Contract signature State where
  act o s r s' := handshakeSlave.act t o s r s' ∧ published t o s r
  rely _ _ := True
  guar := Aside
  safe _ _ := True

theorem may_still {t : Task} (other : t ≠ .transRecv) (own : t ≠ .appMain) {o : Op} (may : mayIssue t o) :
    setsState o = false := by
  cases o
  case sipSet a =>
    cases a <;> first | rfl | skip
    rcases may with ordinary | issued
    · cases ordinary
    · cases t
      case transRecv => exact absurd rfl other
      case appMain => exact absurd rfl own
      all_goals cases issued
  all_goals rfl

theorem aside_wp {t : Task} (other : t ≠ .transRecv) (own : t ≠ .appMain) {p : Code Label} (all : p.All (mayIssue t))
    (s : State) : wp (asideContract t) p (fun _ _ => True) s := by
  refine wp_careless all (fun o s may => ⟨trivial,fun r s' acted => ?_⟩) s
  exact aside_act other own (may_still other own may) acted.1

def contractOf : Task → Contract signature State
  | .appMain => bootContract
  | .transRecv => recvContract
  | t => asideContract t

def restOf : Task → Label → State → Prop
  | .transRecv,_ => Ready false
  | .appMain,.espSipBootup _ => Before
  | _,_ => fun _ => True

def publishedSystem (cfg : Build) : Machine signature Task Label State := (system cfg handshakeSlave).when published

theorem block_wp (cfg : Build) (known : labelsOf t l) {s : State} (rest : restOf t l s) :
    wp ⟨(publishedSystem cfg).act t,(contractOf t).rely,(contractOf t).guar,(contractOf t).safe⟩ (block cfg l)
      (fun l' s' => labelsOf t l' ∧ restOf t l' s') s := by
  cases t with
  | appMain =>
      cases l <;> first | exact False.elim known | skip
      case espSipBootup entryAddr =>
        show wp bootContract ((espSipBootup cfg entryAddr).bind fun _ => .pure Label.returned) _ s
        rw [wp_bind]
        exact wp_mono (espSipBootup_leads cfg entryAddr s rest) fun _ _ _ => ⟨trivial,trivial⟩
      case returned => exact ⟨trivial,trivial⟩
  | transRecv =>
      refine wp_returns (block_returns cfg known) ?_
      cases l <;> first | exact False.elim known | skip
      case transRecvTask => exact (recv_keeps_task cfg).task s rest
      case returned => exact rest
  | wifiSend => exact wp_returns (block_returns cfg known) (aside_wp (by decide) (by decide) (wifiSend_all cfg known) s)
  | btTx => exact wp_returns (block_returns cfg known) (aside_wp (by decide) (by decide) (btTx_all cfg known) s)
  | btHost => exact wp_returns (block_returns cfg known) (aside_wp (by decide) (by decide) (btHost_all cfg known) s)
  | wifiStack => exact wp_returns (block_returns cfg known) (aside_wp (by decide) (by decide) (wifiStack_all cfg known) s)

def outline (cfg : Build) : Outline (publishedSystem cfg) where
  rely t := (contractOf t).rely
  guar t := (contractOf t).guar
  safe t := (contractOf t).safe
  entry t l s := labelsOf t l ∧ restOf t l s
  transitive := by
    intro t a b c one two
    cases t
    case appMain =>
      refine ⟨two.stored.trans one.stored,fun early => ?_⟩
      exact (two.state (one.stored.trans early)).trans (one.state early)
    case transRecv =>
      refine ⟨two.parsing.trans one.parsing,two.target.trans one.target,two.inits.trans one.inits,fun stored => ?_,fun early => ?_⟩
      · obtain ⟨late,same⟩ := one.after stored
        exact ⟨(two.after late).1,(two.after late).2.trans same⟩
      · rcases one.before early with ⟨still,same⟩ | ⟨late,state⟩
        · rw [← same]
          exact two.before still
        · exact .inr ⟨(two.after late).1,(two.after late).2.trans state⟩
    all_goals trivial
  compatible := by
    intro t u a b other moved
    cases u
    case appMain =>
      cases t
      case appMain => exact absurd rfl other
      case transRecv => exact moved
      all_goals exact Aside.receiving moved
    case transRecv =>
      cases t
      case transRecv => exact absurd rfl other
      case appMain => exact moved
      all_goals exact Aside.booting moved
    all_goals trivial
  surroundings := by
    rintro t a b ⟨world,boot⟩
    have aside : Aside a b := ⟨boot,by rw [world]⟩
    cases t
    case appMain => exact aside.receiving
    case transRecv => exact aside.booting
    all_goals trivial
  stable := by
    rintro t l a b ⟨known,rest⟩ moved
    refine ⟨known,?_⟩
    cases t
    case transRecv => exact ready_stable a b rest moved
    case appMain => cases l <;> first | exact before_stable a b rest moved | trivial
    all_goals trivial
  verified := by
    rintro t l s ⟨known,rest⟩
    exact block_wp cfg known rest

-- The object is the one `esp_sip_init` leaves, and the boot task has yet to call
-- `esp_sip_bootup`.
structure Fresh (c : Config signature Task Label State) : Prop where
  started : Started c
  state : c.shared.1.sip.state = .init
  handshake : c.shared.2 = ⟨false,false,false,false,0,false⟩

theorem started_holds (cfg : Build) {c : Config signature Task Label State} (fresh : Fresh c) : (outline cfg).Holds c := by
  have state := fresh.state
  have handshake := fresh.handshake
  refine (outline cfg).holds_resting fun t => ?_
  obtain ⟨l,here,known⟩ := fresh.started t
  refine ⟨l,here,known,?_⟩
  cases t
  case transRecv => exact .inl ⟨by rw [handshake],by rw [handshake],by rw [handshake],by rw [handshake]; exact state⟩
  case appMain => cases l <;> first | exact ⟨by rw [handshake],state⟩ | trivial
  all_goals trivial

theorem handshake_complete (cfg : Build) {start c : Config signature Task Label State} (fresh : Fresh start)
    (path : Reached (publishedSystem cfg) start c) : Complete c := by
  have reflexive := (outline cfg).reflexive fun _ => ⟨rfl,rfl⟩
  have valid := (outline cfg).reached_holds reflexive (started_holds cfg fresh) path
  refine ⟨fun wrong => ?_,fun v storing => ?_,?_,fun head told => ?_⟩
  · exact (valid.safe reflexive wrong).1 rfl
  · exact valid.safe reflexive storing v rfl
  · cases here : c.running .transRecv with
    | pure l => exact (valid.entry here).2.inits
    | op o next => exact (valid.safe reflexive (pending_iff.mpr ⟨next,here⟩)).2
  · rcases (valid.entry head).2 with waiting | sent
    · rw [waiting.target] at told
      cases told
    · exact sent.inits

-- The boot task about to boot the slave, everything else at its head.
def booting : Config signature Task Label State where
  shared := (World.initial espSipInit,⟨false,false,false,false,0,false⟩)
  running
    | .transRecv => .pure .transRecvTask
    | .wifiSend => .pure .wifiSendTask
    | .btTx => .pure (.btTxTask 0)
    | .appMain => .pure (.espSipBootup 0)
    | .btHost => .pure .btHost
    | .wifiStack => .pure .wifiStack

theorem booting_fresh : Fresh booting where
  started t := by cases t <;> exact ⟨_,rfl,trivial⟩
  state := rfl
  handshake := rfl

-- The receive task woken by `SIP_EVT_TARGET_ON`: both interrupt registers, the
-- length, and the packet.
def targetOn : List (Task × Ans) :=
  [[],[],[],[0,0,0x80,0],[0,0,0,0],[],[],[],[12,0,0,0],[],[0,0,12,0,0,0,0,0,0,0,0,0],[],[],[],[],[],[],[],[],[]].map
    fun data => (.transRecv,{data := data})

def inOrder (t : Task) (o : Op) (ans : Ans) (s : State) : Bool :=
  match t,o with
  | .transRecv,.calloc _ => ans.flag
  | .transRecv,.load _ _ => !s.2.parsing || s.2.stored
  | _,_ => true

theorem inOrder_published (t : Task) (o : Op) (ans : Ans) (s : State) (r : o.Answer) (s' : State) (passed : inOrder t o ans s = true)
    (ran : handshakeSlave.exec t o ans s = some (r,s')) : published t o s r := by
  have executed := (exec_iff.mp ran).1
  cases t
  case transRecv =>
    cases o
    case calloc size => exact calloc_answer passed executed
    case load p n =>
      intro parsing _
      simpa [inOrder,parsing] using passed
    all_goals trivial
  all_goals cases o <;> trivial

-- The event comes after the state has been stored: INIT is sent.
theorem booting_complete : ∃ c, Reached (publishedSystem ⟨true,true⟩) booting c ∧
    c.running .transRecv = .pure .transRecvTask ∧ c.shared.2.target = true ∧ Complete c := by
  have passed : (schedule (block ⟨true,true⟩) (screened handshakeSlave.exec inOrder) (List.replicate 24 (.appMain,{flag := true}) ++ targetOn ++
      List.replicate 25 (.transRecv,{data := List.replicate 15 0})) booting).any
      (fun c => decide (c.resting .transRecv = some .transRecvTask) && c.shared.2.target) = true := by decide +kernel
  obtain ⟨c,path,handled⟩ := schedule_exists (m := publishedSystem ⟨true,true⟩)
    (screened_sound (fun _ _ ans _ _ _ ran => ⟨ans,ran⟩) inOrder_published) _ passed
  simp only [Bool.and_eq_true,decide_eq_true_eq] at handled
  exact ⟨c,path,resting_iff.mp handled.1,handled.2,handshake_complete ⟨true,true⟩ booting_fresh path⟩

-- The slave answers the command before the boot task has stored the state.
theorem handshake_not_complete : ¬ ∀ c, Reached (system ⟨true,true⟩ handshakeSlave) booting c → Complete c := by
  intro all
  have passed : (schedule (block ⟨true,true⟩) handshakeSlave.exec (List.replicate 23 (.appMain,{flag := true}) ++ targetOn) booting).any
      (fun c => c.pending .transRecv = some (.note .bootWrongState)) = true := by decide +kernel
  obtain ⟨c,path,wrong⟩ := schedule_exists (m := system ⟨true,true⟩ handshakeSlave)
    (fun _ _ ans _ _ _ ran => ⟨ans,ran⟩) _ passed
  exact (all c path).accepted (of_decide_eq_true wrong)

end ExtConn.BootHandshake
