import ExtConn.System

namespace ExtConn.SendToken
open Effects ByteMemory Interleaving

-- The slave's side of Bluetooth transmission: the bytes of the packet under way,
-- whether it has received the packet of the message in progress, the packets it
-- has not acknowledged, and the acknowledgements it has shown to the receive
-- task, which returns a token for each.
structure AckSlave where
  expected : Nat
  got : Nat
  delivered : Bool
  unacked : Nat
  shown : Nat
  deriving DecidableEq

def AckSlave.onWrite (d : AckSlave) (n : Nat) : AckSlave :=
  if d.got < d.expected ∧ d.expected ≤ d.got + n then
    {d with got := d.got + n,delivered := true,unacked := d.unacked + 1}
  else {d with got := d.got + n}

-- Bit 0 of `ESP_SDIO_CONFIG_W1` is shown once for every packet received, by a
-- read of the slave's choice, and otherwise never.
def ackSlave : Slave AckSlave where
  answers _ _ o ans d := match o with
    | .semTake .txSem _ => some {d with delivered := false}
    | .semGive .txSem => some {d with shown := d.shown - 1}
    | .note (.sendPacket function _ length) =>
      if function = extConnBtSdioFunc then some {d with expected := length.toNat,got := 0} else some d
    | .sdmmcIoWrite function _ _ _ size =>
      if function = extConnBtSdioFunc ∧ ans.err = .ok then some (d.onWrite size.toNat) else some d
    | .sdmmcIoRead function addr _ .reg _ =>
      if (function = 1 ∧ addr = espSdioConfigW1) ∧ overlay 0 ans.data &&& 1 ≠ 0 then
        if 0 < d.unacked then some {d with unacked := d.unacked - 1,shown := d.shown + 1} else none
      else some d
    | _ => some d
  moves d d' := d' = d

-- What it makes of a read of that register, of a write and of an announcement.
theorem ackSlave_reads (t : Task) (w : World) (function addr size : UInt32) (arg : Cmd53Arg) (ans : Ans) (d : AckSlave) :
    ackSlave.answers t w (.sdmmcIoRead function addr arg .reg size) ans d =
      if (function = 1 ∧ addr = espSdioConfigW1) ∧ overlay 0 ans.data &&& 1 ≠ 0 then
        if 0 < d.unacked then some {d with unacked := d.unacked - 1,shown := d.shown + 1} else none
      else some d := rfl

theorem ackSlave_writes (t : Task) (w : World) (function addr size : UInt32) (arg : Cmd53Arg) (src : Src) (ans : Ans) (d : AckSlave) :
    ackSlave.answers t w (.sdmmcIoWrite function addr arg src size) ans d =
      if function = extConnBtSdioFunc ∧ ans.err = .ok then some (d.onWrite size.toNat) else some d := rfl

theorem ackSlave_announced (t : Task) (w : World) (function length : UInt32) (start : Ptr) (ans : Ans) (d : AckSlave) :
    ackSlave.answers t w (.note (.sendPacket function start length)) ans d =
      if function = extConnBtSdioFunc then some {d with expected := length.toNat,got := 0} else some d := rfl

abbrev State := World × AckSlave

def total (s : State) : Nat := s.1.txSem + s.2.unacked + s.2.shown

-- `bt_send_data` queues at most 16-bit lengths.
def Sized (s : State) : Prop := ∀ msg ∈ s.1.txQue, msg.len.toNat < 2 ^ 16

structure Fresh (s : State) : Prop where
  token : s.1.txSem = 1
  unacked : s.2.unacked = 0
  shown : s.2.shown = 0
  sized : Sized s

-- The Bluetooth task is past the take of the token in its loop.
def inBody (c : Config signature Task Label State) : Bool :=
  match c.pending .btTx with
  | none | some (.semTake .txSem _) => false
  | some _ => true

-- Exactly one of three: the token is in `tx_sem`, it is with a message that the
-- slave has not received yet, or a packet is not acknowledged.
structure Conserved (c : Config signature Task Label State) : Prop where
  one : c.shared.1.txSem + (if inBody c = true ∧ c.shared.2.delivered = false then 1 else 0) +
    (c.shared.2.unacked + c.shared.2.shown) = 1
  awake : c.pending .btTx = some (.semTake .txSem none) → c.shared.1.txSem = 0 → 0 < c.shared.2.unacked + c.shared.2.shown

-- A message has data and a length, its header is allocated, and its packet goes
-- out without a failed transfer.
def orderly (t : Task) (o : Op) (_ : State) (r : o.Answer) : Prop :=
  match t,o,r with
  | .btTx,.queueReceive,r => ∃ data len, r = some (TxMsg.mk (some data) len) ∧ len ≠ 0
  | .btTx,.malloc _,r => r ≠ none
  | .btTx,.sdmmcIoWrite _ _ _ _ _,r => r = EspErr.ok
  | _,_,_ => True

-- Operations that neither the token nor the slave's side of it notices.
def isAckRead (function addr : UInt32) (dst : Dst) : Prop := dst = .reg ∧ function = 1 ∧ addr = espSdioConfigW1

def unnoticed : Op → Prop
  | .sdmmcIoRead function addr _ dst _ => ¬ isAckRead function addr dst
  | .sdmmcIoWrite function _ _ _ _ => function ≠ extConnBtSdioFunc
  | .note (.sendPacket function _ _) => function ≠ extConnBtSdioFunc
  | o => movesTxSem o = false ∧ movesTxQue o = false

structure Untouched (s s' : State) : Prop where
  txSem : s'.1.txSem = s.1.txSem
  txQue : s'.1.txQue = s.1.txQue
  slave : s'.2 = s.2

theorem unnoticed_act {t : Task} {o : Op} {r : o.Answer} {s s' : State} (calm : unnoticed o)
    (acted : ackSlave.act t o s r s') : Untouched s s' := by
  obtain ⟨ans,ran,answered⟩ := act_iff.mp acted
  have frame := exec_frame ran
  cases o
  case sdmmcIoRead function addr arg dst size =>
    refine ⟨frame.txSem rfl,frame.txQue rfl,?_⟩
    cases dst with
    | mem p => exact (Option.some.inj answered).symm
    | reg =>
        rw [ackSlave_reads,if_neg fun both => calm ⟨rfl,both.1⟩] at answered
        exact (Option.some.inj answered).symm
  case sdmmcIoWrite =>
    rw [ackSlave_writes,if_neg fun both => calm both.1] at answered
    exact ⟨frame.txSem rfl,frame.txQue rfl,(Option.some.inj answered).symm⟩
  case note n =>
    refine ⟨frame.txSem rfl,frame.txQue rfl,?_⟩
    cases n
    case sendPacket =>
      rw [ackSlave_announced,if_neg calm] at answered
      exact (Option.some.inj answered).symm
    all_goals exact (Option.some.inj answered).symm
  case semTake s wait =>
    refine ⟨frame.txSem calm.1,frame.txQue calm.2,?_⟩
    cases s <;> first | exact (Option.some.inj answered).symm | cases calm.1
  case semGive s =>
    refine ⟨frame.txSem calm.1,frame.txQue calm.2,?_⟩
    cases s <;> first | exact (Option.some.inj answered).symm | cases calm.1
  all_goals exact ⟨frame.txSem calm.1,frame.txQue calm.2,(Option.some.inj answered).symm⟩

-- What the others leave to the Bluetooth task, and what is left to the receive
-- task.
structure Around (s s' : State) : Prop where
  total : total s' = total s
  delivered : s'.2.delivered = s.2.delivered
  expected : s'.2.expected = s.2.expected
  got : s'.2.got = s.2.got
  sized : Sized s → Sized s'

structure Bounded (s s' : State) : Prop where
  shown : s'.2.shown = s.2.shown
  total : SendToken.total s ≤ 1 → SendToken.total s' ≤ 1

theorem Around.refl (s : State) : Around s s := ⟨rfl,rfl,rfl,rfl,id⟩

theorem Around.trans {a b c : State} (one : Around a b) (two : Around b c) : Around a c :=
  ⟨two.total.trans one.total,two.delivered.trans one.delivered,two.expected.trans one.expected,two.got.trans one.got,
    fun sized => two.sized (one.sized sized)⟩

theorem Bounded.trans {a b c : State} (one : Bounded a b) (two : Bounded b c) : Bounded a c :=
  ⟨two.shown.trans one.shown,fun most => two.total (one.total most)⟩

theorem Untouched.around {s s' : State} (same : Untouched s s') : Around s s' := by
  refine ⟨?_,by rw [same.slave],by rw [same.slave],by rw [same.slave],fun sized => ?_⟩
  · unfold total
    rw [same.txSem,same.slave]
  · unfold Sized
    rw [same.txQue]
    exact sized

theorem Untouched.bounded {s s' : State} (same : Untouched s s') : Bounded s s' :=
  ⟨by rw [same.slave],fun most => by rw [same.around.total]; exact most⟩

-- The Bluetooth task. With the token taken it holds it until the slave has the
-- packet.
def bodySafe (o : Op) (s : State) : Prop :=
  match o with
  | .semTake .txSem _ => total s = 1
  | _ => total s = if s.2.delivered then 1 else 0

def btContract : Contract signature State where
  act o s r s' := ackSlave.act .btTx o s r s' ∧ orderly .btTx o s r
  rely := Around
  guar := Bounded
  safe := bodySafe

structure Resting (s : State) : Prop where
  token : total s = 1
  sized : Sized s

structure Holding (handed : Bool) (s : State) : Prop where
  token : total s = if handed then 1 else 0
  phase : s.2.delivered = handed
  sized : Sized s

structure Sending (n k : Nat) (s : State) : Prop extends Holding false s where
  expected : s.2.expected = n
  got : s.2.got = k

theorem Around.resting {s s' : State} (held : Resting s) (moved : Around s s') : Resting s' :=
  ⟨moved.total.trans held.token,moved.sized held.sized⟩

theorem Around.holding {s s' : State} (held : Holding handed s) (moved : Around s s') : Holding handed s' :=
  ⟨moved.total.trans held.token,moved.delivered.trans held.phase,moved.sized held.sized⟩

theorem Around.sending {s s' : State} (held : Sending n k s) (moved : Around s s') : Sending n k s' :=
  ⟨Around.holding held.toHolding moved,moved.expected.trans held.expected,moved.got.trans held.got⟩

theorem holding_stable (s s' : State) (held : Holding handed s) (moved : btContract.rely s s') : Holding handed s' :=
  Around.holding held moved

theorem body_safe {o : Op} {s : State} (other : ∀ wait, o ≠ .semTake .txSem wait) (held : Holding handed s) :
    bodySafe o s := by
  have token : total s = if s.2.delivered then 1 else 0 := by rw [held.phase]; exact held.token
  cases o
  case semTake sem wait => cases sem <;> first | exact absurd rfl (other wait) | exact token
  all_goals exact token

theorem write_safe {s : State} (held : Holding handed s) : bodySafe (.sdmmcIoWrite function addr arg src size) s := by
  refine body_safe (fun wait same => ?_) held
  cases same

theorem holding_keeps {o : Op} (calm : unnoticed o) : KeepsOp btContract (Holding handed) o := by
  intro s held
  refine ⟨body_safe (fun wait same => ?_) held,fun r s' acted => ?_⟩
  · rw [same] at calm
    cases calm.1
  · have same := unnoticed_act calm acted.1
    exact ⟨same.bounded,Around.holding held same.around⟩

theorem holding_op {o : Op} {next : o.Answer → Code α} {after : State → Prop} (calm : unnoticed o)
    (rest : ∀ r, Leads btContract (Holding handed) after (next r)) :
    Leads btContract (Holding handed) after (Prog.op o next : Code α) :=
  leads_op holding_stable (holding_keeps calm) rest

-- One write of the packet; the last one hands the token over.
theorem written {s s' : State} {r : EspErr} (acted : btContract.act (.sdmmcIoWrite extConnBtSdioFunc addr arg src size) s r s') :
    r = .ok ∧ s'.1 = s.1 ∧ s'.2 = s.2.onWrite size.toNat := by
  obtain ⟨acted,success⟩ := acted
  obtain ⟨ans,ran,answered⟩ := act_iff.mp acted
  simp only [World.exec,Option.some.injEq,Prod.mk.injEq] at ran
  rw [ackSlave_writes,if_pos ⟨rfl,ran.1.trans success⟩] at answered
  exact ⟨success,ran.2.symm,(Option.some.inj answered).symm⟩

theorem transfer_leads {next : EspErr → Code α} {after : State → Prop} (short : k + size.toNat < n)
    (rest : Leads btContract (Sending n (k + size.toNat)) after (next .ok)) :
    Leads btContract (Sending n k) after (Prog.op (.sdmmcIoWrite extConnBtSdioFunc addr arg src size) next : Code α) := by
  intro s held s₁ moved
  have held₁ := Around.sending held moved
  have safe : bodySafe (.sdmmcIoWrite extConnBtSdioFunc addr arg src size) s₁ := write_safe held₁.toHolding
  refine ⟨safe,fun r s₂ acted => ?_⟩
  obtain ⟨rfl,world,slave⟩ := written acted
  have partly : s₂.2 = {s₁.2 with got := s₁.2.got + size.toNat} := by
    rw [slave,AckSlave.onWrite,if_neg (by rw [held₁.expected,held₁.got]; omega)]
  have same : total s₂ = total s₁ := by
    unfold total
    rw [world,partly]
  refine ⟨⟨by rw [partly],fun most => by rw [same]; exact most⟩,rest s₂ ⟨⟨?_,?_,?_⟩,?_,?_⟩⟩
  · rw [same]; exact held₁.token
  · rw [partly]; exact held₁.phase
  · unfold Sized
    rw [world]
    exact held₁.sized
  · rw [partly]; exact held₁.expected
  · rw [partly]
    show s₁.2.got + _ = _
    rw [held₁.got]

theorem transfer_hands {next : EspErr → Code α} {after : State → Prop} (before : k < n) (whole : n ≤ k + size.toNat)
    (rest : Leads btContract (Holding true) after (next .ok)) :
    Leads btContract (Sending n k) after (Prog.op (.sdmmcIoWrite extConnBtSdioFunc addr arg src size) next : Code α) := by
  intro s held s₁ moved
  have held₁ := Around.sending held moved
  have safe : bodySafe (.sdmmcIoWrite extConnBtSdioFunc addr arg src size) s₁ := write_safe held₁.toHolding
  refine ⟨safe,fun r s₂ acted => ?_⟩
  obtain ⟨rfl,world,slave⟩ := written acted
  have handed : s₂.2 = {s₁.2 with got := s₁.2.got + size.toNat,delivered := true,unacked := s₁.2.unacked + 1} := by
    rw [slave,AckSlave.onWrite,if_pos (by rw [held₁.expected,held₁.got]; omega)]
  have token : total s₁ = 0 := held₁.token
  have more : total s₂ = 1 := by
    unfold total at token ⊢
    rw [world,handed]
    simp only
    omega
  refine ⟨⟨by rw [handed],fun _ => Nat.le_of_eq more⟩,rest s₂ ⟨more,by rw [handed],?_⟩⟩
  unfold Sized
  rw [world]
  exact held₁.sized

theorem chunks_lead {n : UInt32} (nonzero : 0 < n.toNat) (addr : UInt32) (p : Ptr) :
    Leads btContract (Sending n.toNat 0) (Holding true) (sendPacketChunks extConnBtSdioFunc addr (n.toNat + 1) p n) := by
  have blocks := blocksOf_toNat n
  have tail := tailOf_toNat n
  by_cases small : n.toNat < 512
  · have rounded := roundFour_toNat small
    rw [sendPacketChunks_tail _ _ _ _ nonzero small]
    exact transfer_hands nonzero (by omega) (keeps_pure _)
  obtain ⟨fuel,same⟩ : ∃ k, n.toNat + 1 = k + 2 := ⟨n.toNat - 1,by omega⟩
  rw [same,sendPacketChunks_blocks _ _ _ _ (by omega)]
  by_cases whole : tailOf n = 0
  · have none : n.toNat % 512 = 0 := by rw [← tail,whole]; rfl
    refine transfer_hands nonzero (by omega) ?_
    rw [if_neg (not_not_intro rfl),if_pos whole]
    exact keeps_pure _
  · have some := (toNat_ne_zero _).mp whole
    have rounded := @roundFour_toNat (tailOf n) (by omega)
    refine transfer_leads (by omega) ?_
    rw [if_neg (not_not_intro rfl),if_neg whole]
    exact transfer_hands (by omega) (by omega) (keeps_pure _)

theorem sendPacket_leads {n : UInt32} (nonzero : 0 < n.toNat) (p : Ptr) :
    Leads btContract (Holding false) (Holding true) (espExtconnSdioSendPacket extConnBtSdioFunc p n) := by
  have begun : LeadsOp btContract (Holding false) (Sending n.toNat 0) (.note (.sendPacket extConnBtSdioFunc p n)) := by
    intro s held
    have safe : bodySafe (.note (.sendPacket extConnBtSdioFunc p n)) s := body_safe (fun wait same => by cases same) held
    refine ⟨safe,fun r s' acted => ?_⟩
    obtain ⟨ans,ran,answered⟩ := act_iff.mp acted.1
    have world : s.1 = s'.1 := congrArg Prod.snd (Option.some.inj ran)
    have slave : {s.2 with expected := n.toNat,got := 0} = s'.2 := by
      rw [ackSlave_announced,if_pos rfl] at answered
      exact Option.some.inj answered
    have same : total s' = total s := by
      unfold total
      rw [← world,← slave]
    refine ⟨⟨by rw [← slave],fun most => by rw [same]; exact most⟩,⟨?_,?_,?_⟩,?_,?_⟩
    · rw [same]; exact held.token
    · rw [← slave]; exact held.phase
    · unfold Sized
      rw [← world]
      exact held.sized
    · rw [← slave]
    · rw [← slave]
  unfold espExtconnSdioSendPacket
  simp only [Prog.bind_def,issue_bind,Prog.pure_def]
  refine leads_op holding_stable begun fun _ => (chunks_lead nonzero _ p).bind fun err => Leads.ite (keeps_pure _) ?_
  rw [if_neg (not_not_intro rfl)]
  exact holding_op ⟨rfl,rfl⟩ fun _ => keeps_pure _

theorem hdrLen_toNat {len : UInt32} (small : len.toNat < 2 ^ 16) :
    ((sizeofSbpHdr + len) &&& 0xffffff).toNat = 8 + len.toNat := by
  have header : sizeofSbpHdr.toNat = 8 := rfl
  have mask : (0xffffff : UInt32).toNat = 2 ^ 24 - 1 := rfl
  rw [UInt32.toNat_and,mask,Nat.and_two_pow_sub_one_eq_mod,UInt32.toNat_add,header]
  omega

theorem handed_rests {s : State} (held : Holding true s) : Resting s := ⟨held.token,held.sized⟩

theorem btTxPacket_leads (txSeq : UInt32) (data hdr : Ptr) {len : UInt32} (small : len.toNat < 2 ^ 16) :
    Leads btContract (Holding false) (fun s => Resting s) (btTxPacket txSeq data len hdr) := by
  have length := hdrLen_toNat small
  unfold btTxPacket memcpy espExtconnSdioLock espExtconnSdioUnlock
  simp only [Prog.bind_def,issue_bind,Prog.op_bind,Prog.pure_bind,Prog.pure_def]
  refine holding_op ⟨rfl,rfl⟩ fun _ => holding_op ⟨rfl,rfl⟩ fun _ => holding_op ⟨rfl,rfl⟩ fun _ => ?_
  refine holding_op ⟨rfl,rfl⟩ fun _ => holding_op ⟨rfl,rfl⟩ fun _ => holding_op ⟨rfl,rfl⟩ fun _ => ?_
  refine (sendPacket_leads (by omega) hdr).bind fun err => holding_op ⟨rfl,rfl⟩ fun _ => holding_op ⟨rfl,rfl⟩ fun _ => ?_
  exact holding_op ⟨rfl,rfl⟩ fun _ => fun s held => handed_rests held

-- The three steps of the loop whose outcome matters: the token is taken, and with
-- a message in order there is a packet to send.
theorem token_taken : LeadsOp btContract Resting (Holding false) (.semTake .txSem none) := by
  intro s held
  refine ⟨held.token,fun r s' acted => ?_⟩
  obtain ⟨ans,ran,answered⟩ := act_iff.mp acted.1
  have slave : {s.2 with delivered := false} = s'.2 := Option.some.inj answered
  simp only [World.exec] at ran
  split at ran
  · rename_i some
    have world : {s.1 with txSem := s.1.txSem - 1} = s'.1 := congrArg Prod.snd (Option.some.inj ran)
    have token := held.token
    have less : total s' = 0 := by
      unfold total at token ⊢
      rw [← world,← slave]
      simp only
      omega
    refine ⟨⟨by rw [← slave],fun _ => by rw [less]; exact Nat.zero_le _⟩,less,by rw [← slave],?_⟩
    unfold Sized
    rw [← world]
    exact held.sized
  · cases ran

-- The header of the message is allocated.
theorem allocated_leads {next : Option Ptr → Code Label} {size : UInt32}
    (rest : ∀ hdr, Leads btContract (Holding false) Resting (next (some hdr))) :
    Leads btContract (Holding false) Resting (Prog.op (.malloc size) next : Code Label) := by
  intro s held s₁ moved
  have held₁ := Around.holding held moved
  obtain ⟨safe,steps⟩ := holding_keeps (o := .malloc size) ⟨rfl,rfl⟩ s₁ held₁
  refine ⟨safe,fun hdr s₂ acted => ⟨(steps hdr s₂ acted).1,?_⟩⟩
  cases hdr with
  | none => exact absurd rfl acted.2
  | some hdr => exact rest hdr s₂ (steps _ s₂ acted).2

theorem btTxTask_leads (txSeq : UInt32) : Leads btContract Resting Resting (btTxTask txSeq) := by
  rw [btTxTask_eq]
  refine leads_op (fun _ _ held moved => Around.resting held moved) token_taken fun _ => ?_
  intro s held s₁ moved
  have held₁ := Around.holding held moved
  have safe : bodySafe .queueReceive s₁ := body_safe (fun wait same => by cases same) held₁
  refine ⟨safe,fun msg s₂ acted => ?_⟩
  obtain ⟨acted,data,len,rfl,nonzero⟩ := acted
  obtain ⟨ans,ran,answered⟩ := act_iff.mp acted
  have slave : s₁.2 = s₂.2 := Option.some.inj answered
  simp only [World.exec] at ran
  cases queue : s₁.1.txQue with
  | nil =>
      rw [queue] at ran
      cases ran
  | cons msg rest =>
      rw [queue] at ran
      simp only [Option.some.injEq,Prod.mk.injEq] at ran
      obtain ⟨rfl,world⟩ := ran
      have small : len.toNat < 2 ^ 16 := held₁.sized _ (by rw [queue]; exact List.mem_cons_self)
      have same : total s₂ = total s₁ := by
        unfold total
        rw [← world,← slave]
      have held₂ : Holding false s₂ := by
        refine ⟨by rw [same]; exact held₁.token,by rw [← slave]; exact held₁.phase,fun msg member => ?_⟩
        rw [← world] at member
        exact held₁.sized msg (by rw [queue]; exact List.mem_cons_of_mem _ member)
      refine ⟨⟨by rw [← slave],fun most => by rw [same]; exact most⟩,?_⟩
      simp only [if_neg nonzero]
      exact allocated_leads (fun hdr => btTxPacket_leads txSeq data hdr small) s₂ held₂

-- The receive task. Between its read of the acknowledgement and its return of
-- the token it has one in hand.
def recvContract : Contract signature State where
  act o s r s' := ackSlave.act .transRecv o s r s' ∧ orderly .transRecv o s r
  rely := Bounded
  guar := Around
  safe _ _ := True

structure Watching (k : Nat) (s : State) : Prop where
  most : total s ≤ 1
  shown : s.2.shown = k

theorem watching_stable (s s' : State) (held : Watching k s) (moved : recvContract.rely s s') : Watching k s' :=
  ⟨moved.total held.most,moved.shown.trans held.shown⟩

theorem watching_keeps {o : Op} (calm : unnoticed o) : KeepsOp recvContract (Watching k) o := by
  intro s held
  refine ⟨trivial,fun r s' acted => ?_⟩
  have same := unnoticed_act calm acted.1
  exact ⟨same.around,watching_stable s s' held same.bounded⟩

theorem watching_op {o : Op} {next : o.Answer → Code α} {after : State → Prop} (calm : unnoticed o)
    (rest : ∀ r, Leads recvContract (Watching k) after (next r)) :
    Leads recvContract (Watching k) after (Prog.op o next : Code α) :=
  leads_op watching_stable (watching_keeps calm) rest

theorem quiet_unnoticed {o : Op} (quiet : o.quiet = true) : unnoticed o := by
  cases o
  all_goals first
    | exact ⟨rfl,rfl⟩
    | cases quiet

theorem ordinary_unnoticed {o : Op} (ordinary : (o.quiet || accesses o) = true) : unnoticed o := by
  rcases Bool.or_eq_true_iff.mp ordinary with quiet | access
  · exact quiet_unnoticed quiet
  · cases o <;> first | exact ⟨rfl,rfl⟩ | cases access

theorem status_unacked (polled : statusRegister addr) : addr ≠ espSdioConfigW1 := by
  rcases polled with rfl | rfl | rfl | rfl <;> decide

theorem sending_unnoticed {n : Note} (sending : n.sending 1 = true) : unnoticed (.note n) := by
  cases n
  case sendPacket function start length =>
    have wifi : function = 1 := of_decide_eq_true sending
    rw [wifi]
    exact (by decide : (1 : UInt32) ≠ extConnBtSdioFunc)
  all_goals exact ⟨rfl,rfl⟩

theorem wifi_write_unnoticed (addr : UInt32) (arg : Cmd53Arg) (src : Src) (size : UInt32) :
    unnoticed (.sdmmcIoWrite 1 addr arg src size) :=
  (by decide : (1 : UInt32) ≠ extConnBtSdioFunc)

theorem may_unnoticed {t : Task} (other : t ≠ .btTx) (own : t ≠ .btHost) {o : Op} (may : mayIssue t o) : unnoticed o := by
  rcases may with ordinary | issued
  · exact ordinary_unnoticed ordinary
  cases t
  case btTx => exact absurd rfl other
  case btHost => exact absurd rfl own
  case transRecv =>
    cases o
    case sdmmcIoRead => exact fun ack => status_unacked (issued.2 ack.1) ack.2.2
    case sdmmcIoWrite => rw [issued.1]; exact wifi_write_unnoticed _ _ _ _
    case note => obtain ⟨buf,rfl⟩ := issued; exact ⟨rfl,rfl⟩
    case semTake s wait => cases s <;> first | exact ⟨rfl,rfl⟩ | cases issued
    case semGive s => cases s <;> first | exact ⟨rfl,rfl⟩ | cases issued
    all_goals first | exact ⟨rfl,rfl⟩ | cases issued
  case wifiSend =>
    cases o
    case sdmmcIoRead =>
      refine fun ack => absurd ack.2.2 ?_
      rw [issued.2.1]
      decide
    case sdmmcIoWrite => cases issued; exact wifi_write_unnoticed _ _ _ _
    case note =>
      rcases issued with sending | ⟨size,rfl⟩
      · exact sending_unnoticed sending
      · exact ⟨rfl,rfl⟩
    case semTake s wait => cases s <;> first | exact ⟨rfl,rfl⟩ | cases issued
    case semGive s => cases s <;> first | exact ⟨rfl,rfl⟩ | cases issued
    all_goals first | exact ⟨rfl,rfl⟩ | cases issued
  case appMain =>
    cases o
    case sdmmcIoWrite => cases issued; exact wifi_write_unnoticed _ _ _ _
    case note => exact sending_unnoticed issued
    case semTake s wait => cases s <;> first | exact ⟨rfl,rfl⟩ | cases issued
    case semGive s => cases s <;> first | exact ⟨rfl,rfl⟩ | cases issued
    all_goals first | exact ⟨rfl,rfl⟩ | cases issued
  case wifiStack =>
    cases o <;> first | exact ⟨rfl,rfl⟩ | cases issued

theorem targetOn_keeps (cfg : Build) : Keeps recvContract (Watching 0) (parseTargetOn cfg) := by
  have init : (sipSendChipInit cfg).All unnoticed :=
    sendChipInit_all (fun _ => quiet_unnoticed) (fun _ _ => ⟨rfl,rfl⟩) (fun _ _ => ⟨rfl,rfl⟩) ⟨rfl,rfl⟩ ⟨rfl,rfl⟩
      (fun _ => sending_unnoticed) (fun _ _ _ _ => wifi_write_unnoticed _ _ _ _) (fun _ => ⟨rfl,rfl⟩) cfg
  unfold parseTargetOn
  simp only [Prog.bind_def,issue_bind,Prog.pure_def]
  refine watching_op ⟨rfl,rfl⟩ fun sip => Leads.ite ?_ (watching_op ⟨rfl,rfl⟩ fun _ => keeps_pure _)
  refine watching_op ⟨rfl,rfl⟩ fun _ => ((init.mono fun _ => watching_keeps).keeps watching_stable).bind fun ret => ?_
  exact Leads.ite (watching_op ⟨rfl,rfl⟩ fun _ => keeps_pure _) (keeps_pure _)

theorem bootup_keeps (buf : Ptr) : Keeps recvContract (Watching 0) (parseBootup buf) := by
  have all : (parseBootup buf).All unnoticed := parseBootup_all (fun _ => quiet_unnoticed) ⟨rfl,rfl⟩ ⟨rfl,rfl⟩ ⟨rfl,rfl⟩
  exact (all.mono fun _ => watching_keeps).keeps watching_stable

theorem acknowledgement_read {t : Task} {s s' : State} {r : EspErr × List UInt8}
    (acted : ackSlave.act t (.sdmmcIoRead 1 espSdioConfigW1 {increment := true} .reg 4) s r s') :
    s'.1 = s.1 ∧ (overlay 0 r.2 &&& 1 ≠ 0 → 0 < s.2.unacked ∧
      s'.2 = {s.2 with unacked := s.2.unacked - 1,shown := s.2.shown + 1}) ∧ (overlay 0 r.2 &&& 1 = 0 → s'.2 = s.2) := by
  obtain ⟨ans,ran,answered⟩ := act_iff.mp acted
  obtain ⟨rfl,world,_⟩ := read_exec ran
  refine ⟨world,fun acked => ?_,fun none => ?_⟩
  · rw [ackSlave_reads,if_pos ⟨⟨rfl,rfl⟩,acked⟩] at answered
    split at answered
    · exact ⟨‹_›,(Option.some.inj answered).symm⟩
    · cases answered
  · rw [ackSlave_reads,if_neg fun both => both.2 none] at answered
    exact (Option.some.inj answered).symm

theorem token_returned : LeadsOp recvContract (Watching 1) (Watching 0) (.semGive .txSem) := by
  intro s held
  refine ⟨trivial,fun r s' acted => ?_⟩
  obtain ⟨ans,ran,answered⟩ := act_iff.mp acted.1
  have slave : {s.2 with shown := s.2.shown - 1} = s'.2 := Option.some.inj answered
  have world : {s.1 with txSem := min 1 (s.1.txSem + 1)} = s'.1 := congrArg Prod.snd (Option.some.inj ran)
  have most := held.most
  have shown := held.shown
  have same : total s' = total s := by
    unfold total at most ⊢
    rw [← world,← slave]
    simp only
    omega
  refine ⟨⟨same,by rw [← slave],by rw [← slave],by rw [← slave],fun sized => ?_⟩,by rw [same]; exact most,?_⟩
  · unfold Sized
    rw [← world]
    exact sized
  · rw [← slave]
    show s.2.shown - 1 = 0
    rw [shown]

theorem unlockIfFailed_keeps (ret : EspErr) : Keeps recvContract (Watching k) (unlockIfFailed ret) :=
  Leads.ite (watching_op ⟨rfl,rfl⟩ fun _ => keeps_pure _) (keeps_pure _)

theorem tohost_keeps : Keeps recvContract (Watching 0) handleIntr1Tohost := by
  rw [handleIntr1Tohost_eq]
  refine watching_op ⟨rfl,rfl⟩ fun _ => watching_op (wifi_write_unnoticed _ _ _ _) fun ret => ?_
  refine (unlockIfFailed_keeps ret).bind fun _ => ?_
  intro s held s₁ moved
  have held₁ := watching_stable s s₁ held moved
  refine ⟨trivial,fun r s₂ acted => ?_⟩
  obtain ⟨world,set,clear⟩ := acknowledgement_read acted.1
  by_cases acked : overlay 0 r.2 &&& 1 = 0
  · have same : Untouched s₁ s₂ := ⟨by rw [world],by rw [world],clear acked⟩
    refine ⟨same.around,?_⟩
    have rest : Keeps recvContract (Watching 0) ((unlockIfFailed r.1).bind fun _ => .op (.semGive .sdioMutex) fun _ =>
        (sendUnlockIfAcked (overlay 0 r.2)).bind fun _ => .pure r.1) := by
      rw [sendUnlockIfAcked,if_neg (not_not_intro acked)]
      exact (unlockIfFailed_keeps r.1).bind fun _ => watching_op ⟨rfl,rfl⟩ fun _ => keeps_pure _
    exact rest s₂ (watching_stable s₁ s₂ held₁ same.bounded)
  · obtain ⟨some,slave⟩ := set acked
    have most := held₁.most
    have shown := held₁.shown
    have same : total s₂ = total s₁ := by
      unfold total
      rw [world,slave]
      simp only
      omega
    refine ⟨⟨same,by rw [slave],by rw [slave],by rw [slave],fun sized => by unfold Sized; rw [world]; exact sized⟩,?_⟩
    have rest : Leads recvContract (Watching 1) (Watching 0) ((unlockIfFailed r.1).bind fun _ =>
        .op (.semGive .sdioMutex) fun _ => (sendUnlockIfAcked (overlay 0 r.2)).bind fun _ => .pure r.1) := by
      rw [sendUnlockIfAcked,if_pos acked]
      refine (unlockIfFailed_keeps r.1).bind fun _ => watching_op ⟨rfl,rfl⟩ fun _ => ?_
      exact leads_op watching_stable token_returned fun _ => keeps_pure _
    refine rest s₂ ⟨by rw [same]; exact most,?_⟩
    rw [slave]
    show s₁.2.shown + 1 = 1
    rw [shown]

theorem recv_keeps (cfg : Build) : ReceiveKeeps cfg recvContract (Watching 0) (Watching 0) where
  stable := watching_stable
  steady := watching_stable
  lock := watching_keeps ⟨rfl,rfl⟩
  unlock := watching_keeps ⟨rfl,rfl⟩
  within _ own := watching_keeps (may_unnoticed (by decide) (by decide) own.1)
  own _ own _ := watching_keeps (may_unnoticed (by decide) (by decide) own.1)
  events := events_keep watching_stable (fun _ may _ _ => watching_keeps (may_unnoticed (by decide) (by decide) may))
    (targetOn_keeps cfg) bootup_keeps
  tohost := tohost_keeps

-- The other tasks.
structure Aside (s s' : State) : Prop extends Around s s' where
  shown : s'.2.shown = s.2.shown

theorem Aside.bounded {s s' : State} (aside : Aside s s') : Bounded s s' :=
  ⟨aside.shown,fun most => by rw [aside.total]; exact most⟩

theorem Untouched.aside {s s' : State} (same : Untouched s s') : Aside s s' := ⟨same.around,by rw [same.slave]⟩

def asideContract (t : Task) : Contract signature State where
  act o s r s' := ackSlave.act t o s r s' ∧ orderly t o s r
  rely _ _ := True
  guar := Aside
  safe _ _ := True

theorem aside_wp {t : Task} (other : t ≠ .btTx) (own : t ≠ .btHost) {p : Code Label} (all : p.All (mayIssue t)) (s : State) :
    wp (asideContract t) p (fun _ _ => True) s := by
  refine wp_careless all (fun o s may => ⟨trivial,fun r s' acted => ?_⟩) s
  exact (unnoticed_act (may_unnoticed other own may) acted.1).aside

theorem aside_op {o : Op} {next : o.Answer → Code α} {post : α → State → Prop} {s : State} (calm : unnoticed o)
    (rest : ∀ r s', wp (asideContract .btHost) (next r) post s') :
    wp (asideContract .btHost) (Prog.op o next : Code α) post s :=
  fun _ _ => ⟨trivial,fun r s₂ acted => ⟨(unnoticed_act calm acted.1).aside,rest r s₂⟩⟩

theorem queued {t : Task} {s s' : State} {r : Bool} {msg : TxMsg} (small : msg.len.toNat < 2 ^ 16)
    (acted : ackSlave.act t (.queueSend msg wait) s r s') : Aside s s' := by
  obtain ⟨ans,ran,answered⟩ := act_iff.mp acted
  have slave : s.2 = s'.2 := Option.some.inj answered
  simp only [World.exec] at ran
  split at ran
  · have world : {s.1 with txQue := s.1.txQue ++ [msg]} = s'.1 := congrArg Prod.snd (Option.some.inj ran)
    refine ⟨⟨?_,by rw [slave],by rw [slave],by rw [slave],fun sized other member => ?_⟩,by rw [slave]⟩
    · unfold total
      rw [← world,← slave]
    · rw [← world] at member
      rcases List.mem_append.mp member with old | new
      · exact sized other old
      · rw [List.mem_singleton.mp new]
        exact small
  · have world : s.1 = s'.1 := congrArg Prod.snd (Option.some.inj ran)
    exact Untouched.aside ⟨by rw [world],by rw [world],slave.symm⟩

theorem btHost_wp (s : State) : wp (asideContract .btHost) btHost (fun _ _ => True) s := by
  have send : ∀ (data : List UInt8) p s, data.length < 2 ^ 16 →
      wp (asideContract .btHost) (Prog.op (.queueSend ⟨p,UInt32.ofNat data.length⟩ 5000) fun _ => .pure .btHost : Code Label)
        (fun _ _ => True) s := by
    intro data p s bound
    have small : (UInt32.ofNat data.length).toNat < 2 ^ 16 := by
      rw [UInt32.toNat_ofNat_of_lt' (by unfold UInt32.size; omega)]
      exact bound
    exact fun s₁ _ => ⟨trivial,fun r s₂ acted => ⟨queued small acted.1,trivial⟩⟩
  unfold btHost btSendData
  simp only [Prog.bind_def,issue_bind,Prog.op_bind,Prog.pure_def]
  intro s₁ _
  refine ⟨trivial,fun data s₂ acted => ⟨(unnoticed_act (o := .btHostCall) ⟨rfl,rfl⟩ acted.1).aside,?_⟩⟩
  have bound : data.length < 2 ^ 16 := by
    obtain ⟨ans,ran⟩ := act_exec acted.1
    simp only [World.exec] at ran
    split at ran
    · rename_i short
      rw [← show ans.data = data from congrArg Prod.fst (Option.some.inj ran)]
      exact short
    · cases ran
  refine aside_op ⟨rfl,rfl⟩ fun p s₃ => ?_
  cases p with
  | none => exact aside_op ⟨rfl,rfl⟩ fun _ s₄ => send data none s₄ bound
  | some p => exact aside_op ⟨rfl,rfl⟩ fun _ s₄ => send data (some p) s₄ bound

-- The runs in which every message and its packet are in order.
def orderlySystem (cfg : Build) : Machine signature Task Label State := (system cfg ackSlave).when orderly

def contractOf : Task → Contract signature State
  | .btTx => btContract
  | .transRecv => recvContract
  | t => asideContract t

def restOf : Task → State → Prop
  | .btTx => Resting
  | .transRecv => Watching 0
  | _ => fun _ => True

theorem guar_around {t : Task} (other : t ≠ .btTx) {s s' : State} (moved : (contractOf t).guar s s') : Around s s' := by
  cases t
  case btTx => exact absurd rfl other
  case transRecv => exact moved
  all_goals exact Aside.toAround moved

theorem guar_bounded {t : Task} (other : t ≠ .transRecv) {s s' : State} (moved : (contractOf t).guar s s') : Bounded s s' := by
  cases t
  case transRecv => exact absurd rfl other
  case btTx => exact moved
  all_goals exact Aside.bounded moved

theorem block_wp (cfg : Build) (known : labelsOf t l) {s : State} (rest : restOf t s) :
    wp ⟨(orderlySystem cfg).act t,(contractOf t).rely,(contractOf t).guar,(contractOf t).safe⟩ (block cfg l)
      (fun _ => restOf t) s := by
  cases t with
  | btTx =>
      cases l <;> first | exact False.elim known | skip
      case btTxTask txSeq => exact btTxTask_leads txSeq s rest
  | transRecv =>
      cases l <;> first | exact False.elim known | skip
      case transRecvTask => exact (recv_keeps cfg).task s rest
      case returned => exact rest
  | wifiSend => exact aside_wp (by decide) (by decide) (wifiSend_all cfg known) s
  | appMain => exact aside_wp (by decide) (by decide) (appMain_all cfg known) s
  | btHost =>
      cases l <;> first | exact False.elim known | skip
      case btHost => exact btHost_wp s
  | wifiStack => exact aside_wp (by decide) (by decide) (wifiStack_all cfg known) s

def outline (cfg : Build) : Outline (orderlySystem cfg) where
  rely t := (contractOf t).rely
  guar t := (contractOf t).guar
  safe t := (contractOf t).safe
  entry t l s := labelsOf t l ∧ restOf t s
  transitive := by
    intro t a b c one two
    cases t
    case btTx => exact Around.trans one two
    case transRecv => exact Bounded.trans one two
    all_goals trivial
  compatible := by
    intro t u a b other moved
    cases u
    case btTx => exact guar_around other.symm moved
    case transRecv => exact guar_bounded other.symm moved
    all_goals trivial
  surroundings := by
    rintro t a b ⟨world,slave⟩
    have same : Untouched a b := ⟨by rw [world],by rw [world],slave⟩
    cases t
    case btTx => exact same.around
    case transRecv => exact same.bounded
    all_goals trivial
  stable := by
    rintro t l a b ⟨known,rest⟩ moved
    refine ⟨known,?_⟩
    cases t
    case btTx => exact Around.resting rest moved
    case transRecv => exact watching_stable a b rest moved
    all_goals trivial
  verified := by
    rintro t l s ⟨known,rest⟩
    exact wp_returns (block_returns cfg known) (block_wp cfg known rest)

theorem started_holds (cfg : Build) {c : Config signature Task Label State} (started : Started c) (fresh : Fresh c.shared) :
    (outline cfg).Holds c := by
  have token : total c.shared = 1 := by
    unfold total
    rw [fresh.token,fresh.unacked,fresh.shown]
  refine (outline cfg).holds_resting fun t => ?_
  obtain ⟨l,here,known⟩ := started t
  refine ⟨l,here,known,?_⟩
  cases t
  case btTx => exact ⟨token,fresh.sized⟩
  case transRecv => exact ⟨Nat.le_of_eq token,fresh.shown⟩
  all_goals trivial

theorem body_position {c : Config signature Task Label State} {o : Op} {s : State} (here : c.pending .btTx = some o)
    (token : bodySafe o s) : inBody c = false ∧ total s = 1 ∨ inBody c = true ∧ total s = if s.2.delivered then 1 else 0 := by
  unfold inBody
  rw [here]
  cases o
  case semTake sem wait => cases sem <;> first | exact .inl ⟨rfl,token⟩ | exact .inr ⟨rfl,token⟩
  all_goals exact .inr ⟨rfl,token⟩

theorem token_conserved (cfg : Build) {start c : Config signature Task Label State} (started : Started start)
    (fresh : Fresh start.shared) (path : Reached (orderlySystem cfg) start c) : Conserved c := by
  have reflexive := (outline cfg).reflexive fun _ => ⟨rfl,rfl⟩
  have valid := (outline cfg).reached_holds reflexive (started_holds cfg started fresh) path
  have safe : ∀ o, c.pending .btTx = some o → bodySafe o c.shared := fun o here => valid.safe reflexive here
  refine ⟨?_,fun here empty => ?_⟩
  · cases here : c.running .btTx with
    | pure l =>
        have rest : total c.shared = 1 := (valid.entry here).2.token
        have head : inBody c = false := by simp [inBody,Config.pending,here]
        unfold total at rest
        rw [if_neg (by simp [head])]
        omega
    | op o next =>
        have pending : c.pending .btTx = some o := pending_iff.mpr ⟨next,here⟩
        rcases body_position pending (safe o pending) with ⟨head,token⟩ | ⟨body,token⟩
        · unfold total at token
          rw [if_neg (by simp [head])]
          omega
        · unfold total at token
          cases handed : c.shared.2.delivered with
          | false =>
              rw [handed] at token
              rw [if_pos ⟨body,rfl⟩]
              simp only [Bool.false_eq_true,if_false] at token
              omega
          | true =>
              rw [handed] at token
              rw [if_neg (by simp)]
              simp only [if_true] at token
              omega
  · have token : total c.shared = 1 := safe _ here
    unfold total at token
    omega

-- All tasks at their heads, the token in `tx_sem`.
def idle : Config signature Task Label State where
  shared := (World.initial {espSipInit with state := .run},⟨0,0,false,0,0⟩)
  running
    | .transRecv => .pure .transRecvTask
    | .wifiSend => .pure .wifiSendTask
    | .btTx => .pure (.btTxTask 0)
    | .appMain => .pure .returned
    | .btHost => .pure .btHost
    | .wifiStack => .pure .wifiStack

theorem idle_started : Started idle := by
  intro t
  cases t <;> exact ⟨_,rfl,trivial⟩

theorem idle_fresh : Fresh idle.shared := ⟨rfl,rfl,rfl,fun _ member => by cases member⟩

-- The host sends `data`; the Bluetooth task serves it with `steps` operations.
def served (data : List UInt8) (steps : Nat) : List (Task × Ans) :=
  List.replicate 5 (.btHost,{data := data}) ++ List.replicate steps (.btTx,{data := []})

def inOrder (t : Task) (o : Op) (ans : Ans) (s : State) : Bool :=
  match t,o with
  | .btTx,.queueReceive => s.1.txQue.head?.any fun msg => msg.data.isSome && msg.len ≠ 0
  | .btTx,.malloc _ => ans.flag
  | .btTx,.sdmmcIoWrite _ _ _ _ _ => ans.err = .ok
  | _,_ => true

theorem inOrder_orderly (t : Task) (o : Op) (ans : Ans) (s : State) (r : o.Answer) (s' : State) (passed : inOrder t o ans s = true)
    (ran : ackSlave.exec t o ans s = some (r,s')) : orderly t o s r := by
  have executed := (exec_iff.mp ran).1
  cases t
  case btTx =>
    cases o
    case queueReceive =>
      simp only [World.exec] at executed
      cases queue : s.1.txQue with
      | nil =>
          rw [queue] at executed
          cases executed
      | cons msg rest =>
          rw [queue] at executed
          simp only [inOrder,queue,List.head?_cons,Option.any_some,Bool.and_eq_true,decide_eq_true_eq] at passed
          obtain ⟨data,given⟩ := Option.isSome_iff_exists.mp passed.1
          rw [← show some msg = r from congrArg Prod.fst (Option.some.inj executed)]
          exact ⟨data,msg.len,by rw [← given],passed.2⟩
    case malloc size => exact malloc_answer passed executed
    case sdmmcIoWrite =>
      have fine : ans.err = .ok := of_decide_eq_true passed
      exact (write_answer executed).symm.trans fine
    all_goals trivial
  all_goals cases o <;> trivial

theorem idle_conserved : ∃ c, Reached (orderlySystem ⟨true,true⟩) idle c ∧
    c.pending .btTx = some (.semTake .txSem none) ∧ c.shared.2.unacked = 1 ∧ Conserved c := by
  have passed : (schedule (block ⟨true,true⟩) (screened ackSlave.exec inOrder) (served [7] 17) idle).any
      (fun c => c.pending .btTx = some (.semTake .txSem none) && decide (c.shared.2.unacked = 1)) = true := by decide +kernel
  obtain ⟨c,path,waiting⟩ := schedule_exists (m := orderlySystem ⟨true,true⟩)
    (screened_sound (fun _ _ ans _ _ _ ran => ⟨ans,ran⟩) inOrder_orderly) _ passed
  simp only [Bool.and_eq_true,decide_eq_true_eq] at waiting
  exact ⟨c,path,waiting.1,waiting.2,token_conserved ⟨true,true⟩ idle_started idle_fresh path⟩

-- A message without bytes takes the token and does not return it.
theorem token_not_conserved : ¬ ∀ c, Reached (system ⟨true,true⟩ ackSlave) idle c → Conserved c := by
  intro all
  have passed : (schedule (block ⟨true,true⟩) ackSlave.exec (served [] 4) idle).any
      (fun c => c.pending .btTx = some (.semTake .txSem none) && decide (c.shared.1.txSem = 0) &&
        decide (c.shared.2.unacked + c.shared.2.shown = 0)) = true := by decide +kernel
  obtain ⟨c,path,stuck⟩ := schedule_exists (m := system ⟨true,true⟩ ackSlave) (fun _ _ ans _ _ _ ran => ⟨ans,ran⟩) _ passed
  simp only [Bool.and_eq_true,decide_eq_true_eq] at stuck
  have awake := (all c path).awake stuck.1.1 stuck.1.2
  omega

end ExtConn.SendToken
