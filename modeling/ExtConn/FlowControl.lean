import ExtConn.System

namespace ExtConn.FlowControl
open Effects ByteMemory Interleaving

-- The slave's receive buffers: how many it has granted and how many packets on
-- function 1 have used up so far, and how many had been granted when the token
-- register was last read.
structure CreditSlave where
  granted : Nat
  consumed : Nat
  tokenRead : Nat
  deriving DecidableEq

def buffersOf (n : UInt32) : Nat := (n.toNat + 511) / 512

def isTokenRead (function addr : UInt32) (arg : Cmd53Arg) : Prop :=
  function = 1 ∧ addr = espSdioTokenRdata ∧ arg.blockMode = false

def isClearWrite (addr : UInt32) (arg : Cmd53Arg) (size : UInt32) : Prop :=
  (addr = espSdioSlc0IntClr ∨ addr = espSdioSlc1IntClr) ∧ arg.blockMode = false ∧ size = 4

instance : Decidable (isTokenRead function addr arg) := inferInstanceAs (Decidable (_ ∧ _))
instance : Decidable (isClearWrite addr arg size) := inferInstanceAs (Decidable (_ ∧ _))

-- Bits 16 to 27 of the token register are the buffers granted, mod 4096. A
-- write to function 1 that is not to an interrupt register uses up buffers; how
-- many of them a failed one has used is open.
def creditSlave : Slave CreditSlave where
  answers _ _ o ans d := match o with
    | .sdmmcIoRead function addr arg _ _ =>
      if isTokenRead function addr arg ∧ ans.err = .ok then
        if leNat ans.data / 2 ^ 16 % 4096 = d.granted % 4096 then some {d with tokenRead := d.granted} else none
      else some d
    | .sdmmcIoWrite function addr arg _ size =>
      if function = 1 ∧ ¬ isClearWrite addr arg size then
        some {d with consumed := d.consumed + (if ans.err = .ok then buffersOf size else min ans.num (buffersOf size))}
      else some d
    | _ => some d
  moves d d' := d'.consumed = d.consumed ∧ d'.tokenRead = d.tokenRead ∧ d.granted ≤ d'.granted ∧
    d'.granted ≤ d'.consumed + 4095

abbrev State := World × CreditSlave

def running (s : State) : Prop := s.1.sip.state = .run

-- The host's count agrees with the slave's.
structure Balanced (s : State) : Prop where
  total : s.1.host.totalTx.toNat = s.2.consumed % 4096
  within : s.2.consumed ≤ s.2.granted
  bounded : s.2.granted ≤ s.2.consumed + 4095

-- What everybody but the Wi-Fi task leaves alone, and what is left of it when
-- the slave moves as well.
structure Steady (s s' : State) : Prop where
  state : s'.1.sip.state = s.1.sip.state
  total : s'.1.host.totalTx = s.1.host.totalTx
  slave : s'.2 = s.2

structure Granting (s s' : State) : Prop where
  state : s'.1.sip.state = s.1.sip.state
  total : s'.1.host.totalTx = s.1.host.totalTx
  consumed : s'.2.consumed = s.2.consumed
  tokenRead : s'.2.tokenRead = s.2.tokenRead
  granted : s.2.granted ≤ s'.2.granted
  bounded : s.2.granted ≤ s.2.consumed + 4095 → s'.2.granted ≤ s.2.consumed + 4095

theorem Steady.granting {s s' : State} (steady : Steady s s') : Granting s s' :=
  ⟨steady.state,steady.total,by rw [steady.slave],by rw [steady.slave],Nat.le_of_eq (by rw [steady.slave]),
    by rw [steady.slave]; exact id⟩

theorem Granting.refl (s : State) : Granting s s := ⟨rfl,rfl,rfl,rfl,Nat.le_refl _,id⟩

theorem Granting.trans {a b c : State} (one : Granting a b) (two : Granting b c) : Granting a c := by
  refine ⟨two.state.trans one.state,two.total.trans one.total,two.consumed.trans one.consumed,
    two.tokenRead.trans one.tokenRead,Nat.le_trans one.granted two.granted,fun within => ?_⟩
  have later := two.bounded
  rw [one.consumed] at later
  exact later (one.bounded within)

-- Operations that flow control does not notice.
def unnoticed : Op → Prop
  | .sdmmcIoRead function addr arg _ _ => ¬ isTokenRead function addr arg
  | .sdmmcIoWrite function addr arg _ size => ¬ (function = 1 ∧ ¬ isClearWrite addr arg size)
  | o => setsState o = false ∧ setsTotalTx o = false

theorem unnoticed_act {t : Task} {o : Op} {r : o.Answer} {s s' : State} (calm : unnoticed o)
    (acted : creditSlave.act t o s r s') : Steady s s' := by
  obtain ⟨ans,ran,answered⟩ := act_iff.mp acted
  have frame := exec_frame ran
  cases o
  case sdmmcIoRead =>
    simp only [creditSlave] at answered
    rw [if_neg fun both => calm both.1] at answered
    exact ⟨frame.state rfl,frame.total rfl,(Option.some.inj answered).symm⟩
  case sdmmcIoWrite =>
    simp only [creditSlave] at answered
    rw [if_neg calm] at answered
    exact ⟨frame.state rfl,frame.total rfl,(Option.some.inj answered).symm⟩
  all_goals exact ⟨frame.state calm.1,frame.total calm.2,(Option.some.inj answered).symm⟩

theorem quiet_unnoticed {o : Op} (quiet : o.quiet = true) : unnoticed o := by
  cases o
  case sipSet a => cases a <;> first | exact ⟨rfl,rfl⟩ | cases quiet
  all_goals first
    | exact ⟨rfl,rfl⟩
    | cases quiet

-- `k` more buffers may be used.
structure Affords (k : Nat) (s : State) : Prop extends Balanced s where
  run : running s
  credit : s.2.consumed + k ≤ s.2.granted

theorem Granting.affords {s s' : State} (held : Affords k s) (moved : running s → Granting s s') : Affords k s' := by
  have granting := moved held.run
  have more := granting.granted
  have less := granting.bounded held.bounded
  have credit := held.credit
  refine ⟨⟨?_,?_,?_⟩,?_,?_⟩
  · rw [granting.total,granting.consumed]; exact held.total
  · rw [granting.consumed]; exact Nat.le_trans held.within more
  · rw [granting.consumed]; exact less
  · exact granting.state.trans held.run
  · rw [granting.consumed]; omega

-- What is asserted when the Wi-Fi task passes the three points of interest.
def creditSafe (o : Op) (s : State) : Prop :=
  match o with
  | .note (.bufferSize size) => size.toNat = s.2.tokenRead - s.2.consumed
  | .note (.sendPacket _ _ length) => s.2.consumed + buffersOf length ≤ s.2.granted
  | .note (.packetSent _ _) => s.1.host.totalTx.toNat = s.2.consumed % 4096
  | _ => True

def wifiContract : Contract signature State where
  act := creditSlave.act .wifiSend
  rely s s' := running s → Granting s s'
  guar s s' := s'.1.sip.state = s.1.sip.state
  safe := creditSafe

def plain : Op → Prop
  | .note _ => False
  | o => unnoticed o

theorem quiet_plain {o : Op} (quiet : o.quiet = true) : plain o := by
  cases o
  case note => cases quiet
  all_goals exact quiet_unnoticed quiet

theorem plain_keeps {keep : State → Prop} (stable : ∀ s s', keep s → (running s → Granting s s') → keep s') {o : Op}
    (calm : plain o) : KeepsOp wifiContract keep o := by
  have quiet : unnoticed o ∧ ∀ s, creditSafe o s := by
    cases o
    case note => cases calm
    all_goals exact ⟨calm,fun _ => trivial⟩
  intro s held
  refine ⟨quiet.2 s,fun r s' acted => ?_⟩
  have steady := unnoticed_act quiet.1 acted
  exact ⟨steady.state,stable s s' held fun _ => steady.granting⟩

theorem affords_stable (k : Nat) (s s' : State) (held : Affords k s) (moved : running s → Granting s s') : Affords k s' :=
  Granting.affords held moved

theorem Affords.plain {p : Code α} (all : p.All FlowControl.plain) (k : Nat) : Keeps wifiContract (Affords k) p :=
  (all.mono fun _ calm => plain_keeps (affords_stable k) calm).keeps (affords_stable k)

theorem affords_op {o : Op} {next : o.Answer → Code α} {post : α → State → Prop} (calm : FlowControl.plain o)
    (held : Affords k s) (rest : ∀ r s', Affords k s' → wp wifiContract (next r) post s') :
    wp wifiContract (Prog.op o next : Code α) post s := by
  intro s₁ moved
  obtain ⟨safe,steps⟩ := plain_keeps (affords_stable k) calm s₁ (affords_stable k s s₁ held moved)
  exact ⟨safe,fun r s' acted => ⟨(steps r s' acted).1,rest r s' (steps r s' acted).2⟩⟩

-- The value of the register, less the host's count, mod 4096.
theorem credit_difference {bytes : List UInt8} {total : UInt32} {granted consumed : Nat} (full : bytes.length = 4)
    (token : leNat bytes / 2 ^ 16 % 4096 = granted % 4096) (counted : total.toNat = consumed % 4096)
    (within : consumed ≤ granted) (bounded : granted ≤ consumed + 4095) :
    ((((overlay 0 bytes >>> espSdioSendOffset) &&& txBufferMask) + txBufferMax - total) % txBufferMax).toNat =
      granted - consumed := by
  have top : txBufferMax.toNat = 4096 := rfl
  have bits : ((overlay 0 bytes >>> espSdioSendOffset) &&& txBufferMask).toNat = granted % 4096 := by
    have shift : espSdioSendOffset.toNat % 32 = 16 := rfl
    rw [UInt32.toNat_and,UInt32.toNat_shiftRight,shift,overlay_word 0 full,Nat.shiftRight_eq_div_pow,← token]
    exact Nat.and_two_pow_sub_one_eq_mod _ 12
  rw [UInt32.toNat_mod,UInt32.toNat_sub,UInt32.toNat_add,bits,top,counted]
  omega

-- Reading the register of the token.
theorem token_read {t : Task} {s s' : State} {r : EspErr × List UInt8}
    (acted : creditSlave.act t (.sdmmcIoRead 1 espSdioTokenRdata {increment := true} .reg 4) s r s') :
    s'.1 = s.1 ∧ ((r.1 ≠ .ok ∧ s'.2 = s.2) ∨
      r.1 = .ok ∧ r.2.length = 4 ∧ leNat r.2 / 2 ^ 16 % 4096 = s.2.granted % 4096 ∧
        s'.2 = {s.2 with tokenRead := s.2.granted}) := by
  obtain ⟨ans,ran,answered⟩ := act_iff.mp acted
  obtain ⟨rfl,world,full⟩ := read_exec ran
  refine ⟨world,?_⟩
  simp only [creditSlave] at answered
  by_cases success : ans.err = .ok
  · rw [if_pos ⟨⟨rfl,rfl,rfl⟩,success⟩] at answered
    split at answered
    · rename_i token
      exact .inr ⟨success,full success,token,(Option.some.inj answered).symm⟩
    · cases answered
  · rw [if_neg fun both => success both.2] at answered
    exact .inl ⟨success,(Option.some.inj answered).symm⟩

theorem host_asked {t : Task} {s s' : State} {r : SdioHost} (acted : creditSlave.act t .hostGet s r s') :
    r = s.1.host ∧ s' = s := by
  obtain ⟨ans,ran,answered⟩ := act_iff.mp acted
  simp only [World.exec,Option.some.injEq,Prod.mk.injEq] at ran
  exact ⟨ran.1.symm,Prod.ext ran.2.symm (Option.some.inj answered).symm⟩

theorem noted {t : Task} {s s' : State} {r : Unit} (acted : creditSlave.act t (.note n) s r s') : s' = s := by
  obtain ⟨ans,ran,answered⟩ := act_iff.mp acted
  simp only [World.exec,Option.some.injEq,Prod.mk.injEq] at ran
  exact Prod.ext ran.2.symm (Option.some.inj answered).symm

theorem counted {t : Task} {s s' : State} {r : Unit} (acted : creditSlave.act t (.hostSet (.totalTx n)) s r s') :
    s' = ({s.1 with host := {s.1.host with totalTx := n}},s.2) := by
  obtain ⟨ans,ran,answered⟩ := act_iff.mp acted
  simp only [World.exec,Option.some.injEq,Prod.mk.injEq] at ran
  exact Prod.ext ran.2.symm (Option.some.inj answered).symm

-- Between the read of the token and the return.
structure Shown (bytes : List UInt8) (s : State) : Prop extends Affords 0 s where
  full : bytes.length = 4
  token : leNat bytes / 2 ^ 16 % 4096 = s.2.tokenRead % 4096
  lower : s.2.consumed ≤ s.2.tokenRead
  upper : s.2.tokenRead ≤ s.2.granted

theorem Shown.stable {s s' : State} (shown : Shown bytes s) (moved : running s → Granting s s') : Shown bytes s' := by
  have granting := moved shown.run
  have more := granting.granted
  refine ⟨Granting.affords shown.toAffords moved,shown.full,?_,?_,?_⟩
  · rw [granting.tokenRead]; exact shown.token
  · rw [granting.tokenRead,granting.consumed]; exact shown.lower
  · rw [granting.tokenRead]; exact Nat.le_trans shown.upper more

theorem getBufferSize_wp {s : State} (held : Affords 0 s) :
    wp wifiContract espExtconnSdioGetBufferSize (fun r s' => Affords (r.2.getD 0).toNat s') s := by
  rw [getBufferSize_eq,wp_op]
  intro s₁ moved₁
  have held₁ := affords_stable 0 s s₁ held moved₁
  refine ⟨trivial,fun r s₂ acted => ?_⟩
  obtain ⟨world,failed | ⟨success,full,token,slave⟩⟩ := token_read acted
  · obtain rfl : s₂ = s₁ := Prod.ext world failed.2
    refine ⟨rfl,?_⟩
    rw [if_pos failed.1]
    exact held₁
  have state : s₂.1.sip.state = s₁.1.sip.state := by rw [world]
  refine ⟨state,?_⟩
  rw [if_neg (by rw [success]; exact not_not_intro rfl)]
  have shown : Shown r.2 s₂ := by
    refine ⟨⟨⟨?_,?_,?_⟩,state.trans held₁.run,?_⟩,full,?_,?_,?_⟩
    · rw [world,slave]; exact held₁.total
    · rw [slave]; exact held₁.within
    · rw [slave]; exact held₁.bounded
    · rw [slave]; exact held₁.credit
    · rw [slave]; exact token
    · rw [slave]; exact held₁.within
    · exact Nat.le_of_eq (by rw [slave])
  rw [wp_op]
  intro s₃ moved₃
  refine ⟨trivial,fun host s₃' asked => ?_⟩
  obtain ⟨rfl,rfl⟩ := host_asked asked
  refine ⟨rfl,?_⟩
  have shown₃ := shown.stable moved₃
  have difference := credit_difference shown₃.full shown₃.token shown₃.total shown₃.lower
    (Nat.le_trans shown₃.upper shown₃.bounded)
  rw [wp_op]
  intro s₄ moved₄
  have shown₄ := shown₃.stable moved₄
  have granting := moved₄ shown₃.run
  rw [← granting.tokenRead,← granting.consumed] at difference
  refine ⟨difference,fun _ s₄' passed => ?_⟩
  obtain rfl := noted passed
  refine ⟨rfl,?_⟩
  refine ⟨shown₄.toBalanced,shown₄.run,?_⟩
  rw [Option.getD_some]
  have lower := shown₄.lower
  have upper := shown₄.upper
  omega

-- While a packet that needs `b` buffers is sent: `used` of them are gone, and
-- `before` had been consumed when the packet was begun; the host counts `sum`.
structure Sending (sum before used b : Nat) (s : State) : Prop where
  run : running s
  total : s.1.host.totalTx.toNat = sum
  consumed : s.2.consumed = before + used
  credit : before + b ≤ s.2.granted
  bounded : s.2.granted ≤ s.2.consumed + 4095

theorem Sending.stable {s s' : State} (sending : Sending sum before used b s) (moved : running s → Granting s s') :
    Sending sum before used b s' := by
  have granting := moved sending.run
  have more := granting.granted
  have less := granting.bounded sending.bounded
  have credit := sending.credit
  refine ⟨granting.state.trans sending.run,?_,granting.consumed.trans sending.consumed,by omega,?_⟩
  · rw [granting.total]; exact sending.total
  · rw [granting.consumed]; exact less

-- A write to an interrupt register is told from the end of a packet: their
-- addresses belong to packets that end with 296 and 300 bytes.
theorem data_write {n len : UInt32} (rest : len.toNat = n.toNat % 512) :
    ¬ isClearWrite (chunkAddr extConnWifiSdioFunc n) arg (roundFour len) := by
  rintro ⟨register,_,word⟩
  have size := congrArg UInt32.toNat word
  have four : (4 : UInt32).toNat = 4 := rfl
  rw [roundFour_toNat (by omega),four] at size
  have bound := n.toNat_lt
  have window : espSlaveCmd53EndAddr.toNat = 129024 := rfl
  have slc0 : espSdioSlc0IntClr.toNat = 212 := rfl
  have slc1 : espSdioSlc1IntClr.toNat = 216 := rfl
  rw [chunkAddr,if_pos rfl] at register
  rcases register with same | same
  · have address := congrArg UInt32.toNat same
    rw [UInt32.toNat_sub,window,slc0] at address
    omega
  · have address := congrArg UInt32.toNat same
    rw [UInt32.toNat_sub,window,slc1] at address
    omega

theorem written {t : Task} {s s' : State} {r : EspErr} (data : ¬ isClearWrite addr arg size)
    (acted : creditSlave.act t (.sdmmcIoWrite 1 addr arg src size) s r s') :
    s'.1 = s.1 ∧ (r = .ok → s'.2 = {s.2 with consumed := s.2.consumed + buffersOf size}) := by
  obtain ⟨ans,ran,answered⟩ := act_iff.mp acted
  simp only [World.exec,Option.some.injEq,Prod.mk.injEq] at ran
  refine ⟨ran.2.symm,fun success => ?_⟩
  simp only [creditSlave] at answered
  rw [if_pos ⟨trivial,data⟩,if_pos (ran.1.trans success)] at answered
  exact (Option.some.inj answered).symm

-- One transfer of the packet.
theorem transfer_wp {next : EspErr → Code α} {post : α → State → Prop} {s : State} (sending : Sending sum before used b s)
    (data : ¬ isClearWrite addr arg size) (failed : ∀ err s', err ≠ .ok → running s' → wp wifiContract (next err) post s')
    (done : ∀ s', Sending sum before (used + buffersOf size) b s' → wp wifiContract (next .ok) post s') :
    wp wifiContract (Prog.op (.sdmmcIoWrite 1 addr arg src size) next : Code α) post s := by
  intro s₁ moved
  have held := sending.stable moved
  refine ⟨trivial,fun err s' acted => ?_⟩
  obtain ⟨world,consumed⟩ := written data acted
  have state : s'.1.sip.state = s₁.1.sip.state := by rw [world]
  refine ⟨state,?_⟩
  by_cases success : err = .ok
  · subst err
    have slave := consumed rfl
    have bounded := held.bounded
    have before := held.consumed
    refine done s' ⟨state.trans held.run,by rw [world]; exact held.total,?_,?_,?_⟩
    · rw [slave]; simp only; omega
    · rw [slave]; exact held.credit
    · rw [slave]; simp only; omega
  · exact failed err s' success (state.trans held.run)

theorem buffers_rounded {len : UInt32} (nonzero : 0 < len.toNat) (small : len.toNat < 512) : buffersOf (roundFour len) = 1 := by
  have rounded := roundFour_toNat small
  unfold buffersOf
  omega

theorem writeTail_wp {s : State} {n len : UInt32} (sending : Sending sum before used b s) (rest : len.toNat = n.toNat % 512)
    (nonzero : 0 < len.toNat) (p : Ptr) :
    wp wifiContract (writeTail extConnWifiSdioFunc (chunkAddr extConnWifiSdioFunc n) p len)
      (fun err s' => running s' ∧ (err = .ok → Sending sum before (used + 1) b s')) s := by
  refine transfer_wp sending (data_write rest) (fun err s' failed run => ⟨run,fun done => absurd done failed⟩) fun s' held => ?_
  rw [buffers_rounded nonzero (by omega)] at held
  exact ⟨held.run,fun _ => held⟩

theorem chunks_wp {s : State} {n : UInt32} (sending : Sending sum before 0 (buffersOf n) s) (p : Ptr) :
    wp wifiContract (sendPacketChunks extConnWifiSdioFunc (chunkAddr extConnWifiSdioFunc n) (n.toNat + 1) p n)
      (fun err s' => running s' ∧ (err = .ok → Sending sum before (buffersOf n) (buffersOf n) s')) s := by
  have blocks := blocksOf_toNat n
  have tail := tailOf_toNat n
  by_cases large : 512 ≤ n.toNat
  · obtain ⟨fuel,same⟩ : ∃ k, n.toNat + 1 = k + 2 := ⟨n.toNat - 1,by omega⟩
    rw [same,sendPacketChunks_blocks _ _ _ _ large]
    have used : buffersOf (blocksOf n) = n.toNat / 512 := by
      unfold buffersOf
      omega
    refine transfer_wp sending (fun clear => by cases clear.2.1) (fun err s' failed run => ?_) fun s' held => ?_
    · rw [if_pos failed]
      exact ⟨run,fun done => absurd done failed⟩
    rw [used,Nat.zero_add] at held
    rw [if_neg (not_not_intro rfl)]
    by_cases whole : tailOf n = 0
    · have none : n.toNat % 512 = 0 := by rw [← tail,whole]; rfl
      have total : n.toNat / 512 = buffersOf n := by
        unfold buffersOf
        omega
      rw [if_pos whole]
      exact ⟨held.run,fun _ => total ▸ held⟩
    · have some := (toNat_ne_zero _).mp whole
      have total : n.toNat / 512 + 1 = buffersOf n := by
        unfold buffersOf
        omega
      rw [if_neg whole,← total]
      rw [← total] at held
      exact writeTail_wp held tail some _
  · by_cases nonzero : 0 < n.toNat
    · have total : 1 = buffersOf n := by
        unfold buffersOf
        omega
      rw [sendPacketChunks_tail _ _ _ _ nonzero (by omega),← total]
      rw [← total] at sending
      exact writeTail_wp sending (by omega) nonzero p
    · have zero : n = 0 := Decidable.not_not.mp fun some => nonzero ((toNat_ne_zero n).mp some)
      subst n
      exact ⟨sending.run,fun _ => sending⟩

theorem Affords.sending {s : State} (held : Affords b s) :
    Sending (s.2.consumed % 4096) s.2.consumed 0 b s ∧ b ≤ 4095 := by
  have credit := held.credit
  have bounded := held.bounded
  exact ⟨⟨held.run,held.total,rfl,credit,bounded⟩,by omega⟩

theorem Sending.done {s : State} (sending : Sending sum before b b s) (agreed : sum = (before + b) % 4096) :
    Affords 0 s := by
  have consumed := sending.consumed
  have credit := sending.credit
  exact ⟨⟨by rw [sending.total,consumed,agreed],by omega,sending.bounded⟩,sending.run,by omega⟩

theorem Sending.counted {s : State} (sending : Sending sum before used b s) (n : UInt32) :
    Sending n.toNat before used b ({s.1 with host := {s.1.host with totalTx := n}},s.2) :=
  ⟨sending.run,rfl,sending.consumed,sending.credit,sending.bounded⟩

theorem used_buffers {n : UInt32} (few : buffersOf n ≤ 4095) : (buffersUsed n).toNat = buffersOf n := by
  have word : (512 : UInt32).toNat = 512 := rfl
  have one : (1 : UInt32).toNat = 1 := rfl
  unfold buffersOf at few ⊢
  rw [buffersUsed,UInt32.toNat_div,UInt32.toNat_sub,UInt32.toNat_add,word,one]
  omega

-- The end of a packet that has been sent: both counters agree again.
theorem packetSent_wp {s : State} {n : UInt32} (sending : Sending sum before b b s) (agreed : sum = (before + b) % 4096) :
    wp wifiContract (Prog.op (.note (.packetSent extConnWifiSdioFunc n)) fun _ => .pure .ok : Code EspErr)
      (fun err s' => running s' ∧ (err = .ok → Affords 0 s')) s := by
  intro s₁ moved
  have held := (sending.stable moved).done agreed
  refine ⟨held.total,fun _ s' passed => ?_⟩
  obtain rfl := noted passed
  exact ⟨rfl,held.run,fun _ => held⟩

theorem sendPacket_wp {s : State} {n : UInt32} (held : Affords (buffersOf n) s) (p : Ptr) :
    wp wifiContract (espExtconnSdioSendPacket extConnWifiSdioFunc p n)
      (fun err s' => running s' ∧ (err = .ok → Affords 0 s')) s := by
  have wifi : extConnWifiSdioFunc ≠ extConnBtSdioFunc := by decide
  unfold espExtconnSdioSendPacket
  simp only [Prog.bind_def,issue_bind,Prog.pure_def]
  intro s₁ moved₁
  have held₁ := affords_stable _ s s₁ held moved₁
  refine ⟨held₁.credit,fun _ s₁' passed => ?_⟩
  obtain rfl := noted passed
  refine ⟨rfl,?_⟩
  obtain ⟨sending,few⟩ := held₁.sending
  rw [wp_bind]
  refine wp_mono (chunks_wp sending p) ?_
  rintro err s₂ ⟨run,sent⟩
  refine wp_ite (fun failed => ⟨run,fun done => absurd done failed⟩) fun success => ?_
  have sent := sent (Decidable.not_not.mp success)
  rw [if_pos wifi,wp_op]
  intro s₃ moved₃
  have sent₃ := sent.stable moved₃
  refine ⟨trivial,fun host s₃' asked => ?_⟩
  obtain ⟨rfl,rfl⟩ := host_asked asked
  refine ⟨rfl,?_⟩
  rw [wp_op]
  intro s₄ moved₄
  refine ⟨trivial,fun _ s₅ set => ?_⟩
  obtain rfl := counted set
  refine ⟨rfl,?_⟩
  have added := (sent₃.stable moved₄).counted (s₃'.1.host.totalTx + buffersUsed n)
  have sum : (s₃'.1.host.totalTx + buffersUsed n).toNat = s₁'.2.consumed % 4096 + buffersOf n := by
    rw [UInt32.toNat_add,sent₃.total,used_buffers few]
    omega
  rw [wp_op]
  intro s₆ moved₆
  have added₆ := added.stable moved₆
  refine ⟨trivial,fun host s₆' asked => ?_⟩
  obtain ⟨rfl,rfl⟩ := host_asked asked
  refine ⟨rfl,?_⟩
  have top : txBufferMax.toNat = 4096 := rfl
  have value := added₆.total
  refine wp_ite (fun beyond => ?_) fun below => ?_
  · rw [wp_op]
    intro s₇ moved₇
    refine ⟨trivial,fun _ s₈ set => ?_⟩
    obtain rfl := counted set
    refine ⟨rfl,packetSent_wp ((added₆.stable moved₇).counted (s₆'.1.host.totalTx - txBufferMax)) ?_⟩
    have large := UInt32.le_iff_toNat_le.mp beyond
    rw [UInt32.toNat_sub_of_le _ _ beyond]
    omega
  · refine packetSent_wp added₆ ?_
    rw [ge_iff_le,UInt32.le_iff_toNat_le,top] at below
    omega

-- The blocks of the Wi-Fi task.
def wifiAt (l : Label) (s : State) : Prop := (l = .returned ∨ l = .aborted) ∨ Affords 0 s

theorem plain_load (p : Ptr) (n : Nat) : plain (.load p n) := ⟨rfl,rfl⟩
theorem plain_store (p : Ptr) (bytes : List UInt8) : plain (.store p bytes) := ⟨rfl,rfl⟩

theorem wifiSendTask_wp {s : State} (held : Affords 0 s) : wp wifiContract wifiSendTask wifiAt s := by
  refine affords_op (quiet_plain rfl) held fun sendBuf s₁ held => ?_
  cases sendBuf with
  | none => exact .inl (.inl rfl)
  | some sendBuf => exact affords_op (quiet_plain rfl) held fun _ _ held => .inr held

theorem wifiSendLoop_wp {s : State} (held : Affords 0 s) (sendBuf : Ptr) (actualSize : UInt32) :
    wp wifiContract (wifiSendLoop sendBuf actualSize) wifiAt s := by
  have build : ∀ eb, (wifiBuildPacket sendBuf eb).All plain :=
    fun eb => wifiBuildPacket_all (quiet_plain rfl) (fun _ => quiet_plain rfl) plain_load plain_store _ eb
  unfold wifiSendLoop
  simp only [Prog.bind_def,issue_bind,Prog.pure_def]
  refine affords_op ⟨rfl,rfl⟩ held fun _ _ held => affords_op ⟨rfl,rfl⟩ held fun eb s₂ held => ?_
  refine wp_ite (fun _ => .inr held) fun _ => ?_
  rw [wp_bind]
  refine wp_mono (Affords.plain (build eb) 0 s₂ held) fun sendLen s₃ held => ?_
  exact wp_ite (fun _ => .inl (.inr rfl)) fun _ => .inr held

-- Enough credit is left for the packet once the poll is over.
theorem polled_enough {num sendLen : UInt32} (few : num.toNat ≤ 4095) (enough : ¬ num * 512 < sendLen) :
    buffersOf sendLen ≤ num.toNat := by
  have word : (512 : UInt32).toNat = 512 := rfl
  rw [UInt32.lt_iff_toNat_lt,UInt32.toNat_mul,word] at enough
  unfold buffersOf
  omega

theorem wifiSendPacket_wp {s : State} (l : WifiLocals) (held : Affords (buffersOf l.sendLen) s) :
    wp wifiContract (wifiSendPacket l) wifiAt s := by
  unfold wifiSendPacket espExtconnSdioLock espExtconnSdioUnlock
  simp only [Prog.bind_def,issue_bind,Prog.op_bind,Prog.pure_bind,Prog.pure_def]
  refine affords_op ⟨rfl,rfl⟩ held fun _ s₁ held => ?_
  rw [wp_bind]
  refine wp_mono (sendPacket_wp held l.sendBuf) ?_
  rintro err s₂ ⟨run,sent⟩
  by_cases success : err = .ok
  · refine affords_op ⟨rfl,rfl⟩ (sent success) fun _ s₃ held => ?_
    rw [if_neg (not_not_intro success)]
    refine affords_op (quiet_plain rfl) held fun back s₄ held => ?_
    refine wp_ite (fun _ => ?_) fun _ => affords_op (quiet_plain rfl) held fun _ _ held => .inr held
    exact affords_op (quiet_plain rfl) held fun _ _ held => affords_op (quiet_plain rfl) held fun _ _ held => .inr held
  · intro s₃ moved
    refine ⟨trivial,fun _ s₄ acted => ⟨(unnoticed_act (o := .semGive .sdioMutex) ⟨rfl,rfl⟩ acted).state,?_⟩⟩
    rw [if_pos success]
    exact .inl (.inl rfl)

theorem wifiSendPoll_wp {s : State} (l : WifiLocals) (held : Affords 0 s) : wp wifiContract (wifiSendPoll l) wifiAt s := by
  have seq : (wifiSetSeq l.sendBuf).All plain := wifiSetSeq_all (quiet_plain rfl) (fun _ => quiet_plain rfl) plain_load plain_store _
  unfold wifiSendPoll espExtconnSdioLock espExtconnSdioUnlock
  simp only [Prog.bind_def,issue_bind,Prog.op_bind,Prog.pure_bind,Prog.pure_def]
  refine affords_op ⟨rfl,rfl⟩ held fun _ s₁ held => ?_
  rw [wp_bind]
  refine wp_mono (getBufferSize_wp held) fun size s₂ held => ?_
  refine affords_op ⟨rfl,rfl⟩ held fun _ s₃ held => ?_
  have few : (size.2.getD 0).toNat ≤ 4095 := held.sending.2
  refine wp_ite (fun _ => ?_) fun enough => ?_
  · refine affords_op (quiet_plain rfl) held fun _ s₄ held => .inr ⟨held.toBalanced,held.run,?_⟩
    exact held.within
  have packet : Affords (buffersOf l.sendLen) s₃ := by
    have credit := held.credit
    have need := polled_enough few enough
    exact ⟨held.toBalanced,held.run,by omega⟩
  rw [wp_bind]
  exact wp_mono (Affords.plain seq _ s₃ packet) fun _ s₄ held => wifiSendPacket_wp l held

-- The proof outline, before the Wi-Fi task is started (`false`) and from then on
-- (`true`): only the receive task starts to run the link, and once it runs it
-- leaves flow control alone.
def relyOf : Bool → Task → State → State → Prop
  | _,.transRecv => fun s s' => ¬ running s → ¬ running s'
  | true,.wifiSend => fun s s' => running s → Granting s s'
  | _,_ => fun _ _ => True

def guarOf : Bool → Task → State → State → Prop
  | _,.transRecv => fun s s' => running s → Steady s s'
  | _,.wifiSend => fun s s' => s'.1.sip.state = s.1.sip.state
  | false,.appMain => fun s s' => ¬ running s → ¬ running s'
  | _,_ => Steady

def startedSafe (o : Op) (s : State) : Prop := ∀ start length, o = .note (.sendPacket 1 start length) → ¬ running s

def safeOf : Bool → Task → Op → State → Prop
  | true,.wifiSend => creditSafe
  | false,.wifiSend | false,.appMain => fun _ _ => True
  | _,_ => startedSafe

def entryOf : Bool → Task → Label → State → Prop
  | true,.wifiSend => wifiAt
  | true,.appMain => fun l _ => l = .returned
  | _,_ => fun _ _ => True

theorem steady_state {s s' : State} (steady : Steady s s') (idle : ¬ running s) : ¬ running s' := by
  unfold running
  rw [steady.state]
  exact idle

theorem guar_recv (started : Bool) {t : Task} (other : t ≠ .transRecv) {s s' : State} (moved : guarOf started t s s')
    (idle : ¬ running s) : ¬ running s' := by
  cases t
  case transRecv => exact absurd rfl other
  case wifiSend =>
    unfold running
    rw [show s'.1.sip.state = s.1.sip.state from by cases started <;> exact moved]
    exact idle
  case appMain =>
    cases started
    · exact moved idle
    · exact steady_state moved idle
  all_goals
    cases started <;> exact steady_state moved idle

theorem guar_wifi {t : Task} (other : t ≠ .wifiSend) {s s' : State} (moved : guarOf true t s s') (run : running s) :
    Granting s s' := by
  cases t
  case transRecv => exact Steady.granting (moved run)
  case wifiSend => exact absurd rfl other
  all_goals exact Steady.granting moved

-- What the tasks issue besides.
theorem ordinary_unnoticed {o : Op} (ordinary : (o.quiet || accesses o) = true) : unnoticed o := by
  rcases Bool.or_eq_true_iff.mp ordinary with quiet | access
  · exact quiet_unnoticed quiet
  · cases o <;> first | exact ⟨rfl,rfl⟩ | cases access

theorem issues_unnoticed {t : Task} (other : t ≠ .wifiSend) (own : t ≠ .appMain) {o : Op} (may : mayIssue t o) : unnoticed o := by
  rcases may with ordinary | issued
  · exact ordinary_unnoticed ordinary
  cases t
  case wifiSend => exact absurd rfl other
  case appMain => exact absurd rfl own
  all_goals
    cases o
    case sdmmcIoRead function addr arg dst size =>
      first
        | exact fun token => absurd (issued.1 token.1 token.2.1) (by simp [token.2.2])
        | cases issued
    case sdmmcIoWrite function addr arg src size =>
      first
        | exact fun data => data.2 ⟨issued.2.1,issued.2.2⟩
        | (intro data; rw [data.1] at issued; cases issued)
    case sipSet a => cases a <;> first | exact ⟨rfl,rfl⟩ | cases issued
    case hostSet a => cases a <;> first | exact ⟨rfl,rfl⟩ | cases issued
    all_goals exact ⟨rfl,rfl⟩

abbrev contractOf (started : Bool) (t : Task) : Contract signature State :=
  ⟨creditSlave.act t,relyOf started t,guarOf started t,safeOf started t⟩

theorem not_sending {t : Task} (other : t ≠ .wifiSend) (own : t ≠ .appMain) {o : Op} (may : mayIssue t o) (s : State) :
    startedSafe o s := by
  rintro start length rfl
  rcases may with ordinary | issued
  · cases ordinary
  cases t
  case wifiSend => exact absurd rfl other
  case appMain => exact absurd rfl own
  case transRecv => obtain ⟨buf,same⟩ := issued; cases same
  case btTx => exact absurd issued Bool.false_ne_true
  all_goals cases issued

-- The tasks on the other side of the bus, and the callers.
theorem bystander_wp (started : Bool) {t : Task} (bystander : t = .btTx ∨ t = .btHost ∨ t = .wifiStack) {p : Code Label}
    (all : p.All (mayIssue t)) (s : State) : wp (contractOf started t) p (fun _ _ => True) s := by
  refine wp_careless all (fun o s may => ?_) s
  have other : t ≠ .wifiSend := by rintro rfl; simp at bystander
  have own : t ≠ .appMain := by rintro rfl; simp at bystander
  have safe := not_sending other own may s
  have steady : ∀ r s', creditSlave.act t o s r s' → Steady s s' := fun r s' acted =>
    unnoticed_act (issues_unnoticed other own may) acted
  rcases bystander with rfl | rfl | rfl
  all_goals
    cases started
    · exact ⟨safe,steady⟩
    · exact ⟨safe,steady⟩

def recvContract : Contract signature State where
  act := creditSlave.act .transRecv
  rely s s' := ¬ running s → ¬ running s'
  guar s s' := running s → Steady s s'
  safe := startedSafe

theorem recv_op {o : Op} (calm : unnoticed o) (safe : ∀ s, startedSafe o s) : KeepsOp recvContract (fun _ => True) o :=
  fun s _ => ⟨safe s,fun _ _ acted => ⟨fun _ => unnoticed_act calm acted,trivial⟩⟩

theorem idle_op {o : Op} (other : setsState o = false) : KeepsOp recvContract (fun s => ¬ running s) o := by
  intro s idle
  refine ⟨fun _ _ _ => idle,fun r s' acted => ⟨fun run => absurd run idle,?_⟩⟩
  obtain ⟨ans,ran⟩ := act_exec acted
  unfold running
  rw [(exec_frame ran).state other]
  exact idle

theorem quiet_state {o : Op} (quiet : o.quiet = true) : setsState o = false := by
  cases o
  case sipSet a => cases a <;> first | rfl | cases quiet
  all_goals rfl

-- `TARGET_ON` is answered only while the link does not run, and from the moment
-- the state is `SIP_SEND_INIT` nobody else starts it.
theorem targetOn_wp (cfg : Build) : Keeps recvContract (fun _ => True) (parseTargetOn cfg) := by
  have init : (sipSendChipInit cfg).All fun o : Op => setsState o = false :=
    sendChipInit_all (fun _ quiet => quiet_state quiet) (fun _ _ => rfl) (fun _ _ => rfl) rfl rfl (fun _ _ => rfl)
      (fun _ _ _ _ => rfl) (fun _ => rfl) cfg
  have assign : ∀ (v : SipState) (s : State), v ≠ .run → ¬ running s → ∀ r s',
      creditSlave.act .transRecv (.sipSet (.state v)) s r s' → ¬ running s' := by
    intro v s other _ r s' acted
    obtain ⟨ans,ran⟩ := act_exec acted
    simp only [World.exec,Option.some.injEq,Prod.mk.injEq] at ran
    unfold running
    rw [← ran.2]
    exact other
  unfold parseTargetOn
  simp only [Prog.bind_def,issue_bind,Prog.pure_def]
  intro s _
  rw [wp_op]
  intro s₁ _
  refine ⟨by rintro _ _ ⟨⟩,fun sip s₁' asked => ?_⟩
  obtain ⟨ans,ran⟩ := act_exec asked
  have steady := unnoticed_act (o := .sipGet) ⟨rfl,rfl⟩ asked
  simp only [World.exec,Option.some.injEq,Prod.mk.injEq] at ran
  refine ⟨fun _ => steady,wp_ite (fun waiting => ?_) fun _ => ?_⟩
  · have idle : ¬ running s₁' := by
      rw [← ran.1,ran.2] at waiting
      intro run
      rcases waiting with boot | boot <;> rw [run] at boot <;> cases boot
    rw [wp_op]
    intro s₂ moved
    have idle₂ := moved idle
    refine ⟨by rintro _ _ ⟨⟩,fun _ s₃ set => ⟨fun run => absurd run idle₂,?_⟩⟩
    have idle₃ := assign .sendInit s₂ (by decide) idle₂ _ s₃ set
    rw [wp_bind]
    refine wp_mono ((init.mono fun _ other => idle_op other).keeps (fun _ _ idle moved => moved idle) s₃ idle₃) ?_
    intro ret s₄ idle₄
    refine wp_ite (fun _ => ?_) fun _ => trivial
    intro s₅ moved
    exact ⟨by rintro _ _ ⟨⟩,fun _ s₆ set => ⟨fun run => absurd run (moved idle₄),trivial⟩⟩
  · exact leads_op (fun _ _ _ _ => trivial) (recv_op (o := .note _) ⟨rfl,rfl⟩ fun _ => by rintro _ _ ⟨⟩)
      (fun _ => keeps_pure _) _ trivial

theorem bootup_wp (buf : Ptr) : Keeps recvContract (fun _ => True) (parseBootup buf) := by
  have run : KeepsOp recvContract (fun _ => True) (.sipSet (.state .run)) := by
    refine fun s _ => ⟨by rintro _ _ ⟨⟩,fun r s' acted => ⟨fun run => ?_,trivial⟩⟩
    obtain ⟨ans,ran,answered⟩ := act_iff.mp acted
    simp only [World.exec,Option.some.injEq,Prod.mk.injEq] at ran
    exact ⟨by rw [← ran.2,show s.1.sip.state = .run from run]; rfl,by rw [← ran.2],(Option.some.inj answered).symm⟩
  refine Prog.All.keeps (parseBootup_all (fun o quiet => ?_) ?_ run ?_) fun _ _ _ _ => trivial
  · refine recv_op (quiet_unnoticed quiet) fun s start length same => ?_
    rw [same] at quiet
    cases quiet
  · exact recv_op ⟨rfl,rfl⟩ fun _ => by rintro _ _ ⟨⟩
  · exact recv_op ⟨rfl,rfl⟩ fun _ => by rintro _ _ ⟨⟩

theorem tohost_wp : Keeps recvContract (fun _ => True) handleIntr1Tohost := by
  refine Prog.All.keeps (handleIntr1Tohost_all ?_ ?_ ?_ ?_ ?_) fun _ _ _ _ => trivial
  · exact recv_op ⟨rfl,rfl⟩ fun _ => by rintro _ _ ⟨⟩
  · exact recv_op ⟨rfl,rfl⟩ fun _ => by rintro _ _ ⟨⟩
  · exact recv_op (fun data => data.2 ⟨.inr rfl,rfl,rfl⟩) fun _ => by rintro _ _ ⟨⟩
  · exact recv_op (fun token => absurd token.2.1 (by decide)) fun _ => by rintro _ _ ⟨⟩
  · exact recv_op ⟨rfl,rfl⟩ fun _ => by rintro _ _ ⟨⟩

theorem recv_keeps (cfg : Build) : ReceiveKeeps cfg recvContract (fun _ => True) fun _ => True where
  stable _ _ _ _ := trivial
  steady _ _ _ _ := trivial
  lock := recv_op ⟨rfl,rfl⟩ fun _ => by rintro _ _ ⟨⟩
  unlock := recv_op ⟨rfl,rfl⟩ fun _ => by rintro _ _ ⟨⟩
  within _ own := recv_op (issues_unnoticed (by decide) (by decide) own.1) (not_sending (by decide) (by decide) own.1)
  own _ own _ := recv_op (issues_unnoticed (by decide) (by decide) own.1) (not_sending (by decide) (by decide) own.1)
  events := events_keep (fun _ _ _ _ => trivial)
    (fun _ may _ _ => recv_op (issues_unnoticed (by decide) (by decide) may) (not_sending (by decide) (by decide) may))
    (targetOn_wp cfg) bootup_wp
  tohost := tohost_wp

-- Before the Wi-Fi task is started it is enough that nobody but the receive task
-- starts the link.
theorem wifi_keeps_state {o : Op} (may : mayIssue .wifiSend o) {r : o.Answer} {s s' : State}
    (acted : creditSlave.act .wifiSend o s r s') : s'.1.sip.state = s.1.sip.state := by
  obtain ⟨ans,ran⟩ := act_exec acted
  refine (exec_frame ran).state ?_
  rcases may with ordinary | issued
  · rcases Bool.or_eq_true_iff.mp ordinary with quiet | access
    · exact quiet_state quiet
    · cases o <;> first | rfl | cases access
  · cases o <;> first | rfl | cases issued

theorem boot_keeps_idle {o : Op} (may : mayIssue .appMain o) {r : o.Answer} {s s' : State}
    (acted : creditSlave.act .appMain o s r s') (idle : ¬ running s) : ¬ running s' := by
  obtain ⟨ans,ran⟩ := act_exec acted
  by_cases sets : setsState o = true
  · rcases may with ordinary | issued
    · rcases Bool.or_eq_true_iff.mp ordinary with quiet | access
      · rw [quiet_state quiet] at sets
        cases sets
      · cases o <;> first | cases sets | cases access
    · cases o
      case sipSet a =>
        cases a
        case state v =>
          cases issued
          simp only [World.exec,Option.some.injEq,Prod.mk.injEq] at ran
          unfold running
          rw [← ran.2]
          exact fun run => by cases run
        all_goals cases sets
      all_goals cases sets
  · unfold running
    rw [(exec_frame ran).state (Bool.eq_false_iff.mpr sets)]
    exact idle

theorem early_wp {t : Task} (early : t = .wifiSend ∨ t = .appMain) {p : Code Label} (all : p.All (mayIssue t)) (s : State) :
    wp (contractOf false t) p (fun _ _ => True) s := by
  refine wp_careless all (fun o s may => ?_) s
  rcases early with rfl | rfl
  · exact ⟨trivial,fun r s' acted => wifi_keeps_state may acted⟩
  · exact ⟨trivial,fun r s' acted => boot_keeps_idle may acted⟩

theorem recv_verified (started : Bool) (cfg : Build) (known : labelsOf .transRecv l) (s : State) :
    wp (contractOf started .transRecv) (block cfg l) (fun l s => entryOf started .transRecv l s) s := by
  have contract : contractOf started .transRecv = recvContract := by cases started <;> rfl
  rw [contract]
  cases l <;> first | exact False.elim known | skip
  case transRecvTask =>
    refine wp_mono ((recv_keeps cfg).task s trivial) fun l s _ => ?_
    cases started <;> trivial
  case returned => cases started <;> trivial

theorem wifi_verified (cfg : Build) (known : labelsOf .wifiSend l) {s : State} (entry : wifiAt l s) :
    wp (contractOf true .wifiSend) (block cfg l) wifiAt s := by
  cases l <;> first | exact False.elim known | skip
  case wifiSendTask => exact wifiSendTask_wp (entry.resolve_left (by simp))
  case wifiSendLoop sendBuf actualSize => exact wifiSendLoop_wp (entry.resolve_left (by simp)) sendBuf actualSize
  case wifiSendPoll l => exact wifiSendPoll_wp l (entry.resolve_left (by simp))
  case returned => exact .inl (.inl rfl)
  case aborted => exact .inl (.inr rfl)

def outline (started : Bool) (cfg : Build) : Outline (system cfg creditSlave) where
  rely := relyOf started
  guar := guarOf started
  safe := safeOf started
  entry t l s := labelsOf t l ∧ entryOf started t l s
  transitive := by
    intro t a b c one two
    cases started <;> cases t
    case true.wifiSend => exact fun run => (one run).trans (two ((one run).state.trans run))
    case true.transRecv => exact fun idle => two (one idle)
    case false.transRecv => exact fun idle => two (one idle)
    all_goals trivial
  compatible := by
    intro t u a b other moved
    cases u
    case transRecv => exact guar_recv started other.symm moved
    case wifiSend =>
      cases started
      · trivial
      · exact guar_wifi other.symm moved
    all_goals cases started <;> trivial
  surroundings := by
    rintro t a b ⟨world,consumed,tokenRead,granted,bounded⟩
    have state : b.1.sip.state = a.1.sip.state := by rw [world]
    cases started <;> cases t
    case true.wifiSend =>
      exact fun _ => ⟨state,by rw [world],consumed,tokenRead,granted,fun _ => by rw [← consumed]; exact bounded⟩
    case true.transRecv => exact fun idle run => idle (state.symm.trans run)
    case false.transRecv => exact fun idle run => idle (state.symm.trans run)
    all_goals trivial
  stable := by
    rintro t l a b ⟨known,entry⟩ moved
    refine ⟨known,?_⟩
    cases started <;> cases t
    case true.wifiSend => exact entry.imp id fun held => affords_stable 0 a b held moved
    case true.appMain => exact entry
    all_goals trivial
  verified := by
    rintro t l s ⟨known,entry⟩
    refine wp_returns (block_returns cfg known) ?_
    cases started <;> cases t
    case true.wifiSend => exact wifi_verified cfg known entry
    case true.appMain =>
      cases entry
      exact rfl
    case true.transRecv => exact recv_verified _ cfg known s
    case false.transRecv => exact recv_verified _ cfg known s
    case false.wifiSend => exact early_wp (.inl rfl) (wifiSend_all cfg known) s
    case false.appMain => exact early_wp (.inr rfl) (appMain_all cfg known) s
    all_goals first
      | exact bystander_wp _ (.inl rfl) (btTx_all cfg known) s
      | exact bystander_wp _ (.inr (.inl rfl)) (btHost_all cfg known) s
      | exact bystander_wp _ (.inr (.inr rfl)) (wifiStack_all cfg known) s

theorem relyOf_refl (started : Bool) (t : Task) (s : State) : relyOf started t s s := by
  cases started <;> cases t
  case true.wifiSend => exact fun _ => .refl s
  case true.transRecv => exact id
  case false.transRecv => exact id
  all_goals trivial

theorem started_holds (cfg : Build) {c : Config signature Task Label State} (started : Started c) :
    (outline false cfg).Holds c := by
  refine (outline false cfg).holds_resting fun t => ?_
  obtain ⟨l,here,known⟩ := started t
  refine ⟨l,here,known,?_⟩
  cases t <;> trivial

-- The moment at which the Wi-Fi task is started.
structure Launched (c : Config signature Task Label State) : Prop where
  wifi : c.running .wifiSend = .pure .wifiSendTask
  boot : c.running .appMain = .pure .returned
  run : running c.shared
  balanced : Balanced c.shared

theorem launched_holds (cfg : Build) {c : Config signature Task Label State} (valid : (outline false cfg).Holds c)
    (launched : Launched c) : (outline true cfg).Holds c := by
  intro t
  cases t
  case wifiSend =>
    rw [launched.wifi]
    exact ⟨trivial,.inr ⟨launched.balanced,launched.run,launched.balanced.within⟩⟩
  case appMain =>
    rw [launched.boot]
    exact ⟨trivial,rfl⟩
  case transRecv => exact valid .transRecv
  case btTx => exact valid .btTx
  case btHost => exact valid .btHost
  case wifiStack => exact valid .wifiStack

theorem launched_runs {cfg : Build} {c₀ c : Config signature Task Label State} (valid : (outline true cfg).Holds c₀)
    (run : running c₀.shared) (path : Reached (system cfg creditSlave) c₀ c) : running c.shared := by
  refine (outline true cfg).reached_keeps (relyOf_refl true) ?_ ?_ valid run path
  · intro t a b held moved
    cases t
    case transRecv => exact (moved held).state.trans held
    case wifiSend => exact Eq.trans moved held
    all_goals exact (Steady.state moved).trans held
  · rintro a b held ⟨world,_⟩
    unfold running
    rw [world]
    exact held

theorem flow_control (cfg : Build) {start c₀ c : Config signature Task Label State} (started : Started start)
    (before : Reached (system cfg creditSlave) start c₀) (launched : Launched c₀)
    (path : Reached (system cfg creditSlave) c₀ c) :
    (∀ size, c.pending .wifiSend = some (.note (.bufferSize size)) →
      size.toNat = c.shared.2.tokenRead - c.shared.2.consumed) ∧
    (∀ t p length, c.pending t = some (.note (.sendPacket extConnWifiSdioFunc p length)) →
      t = .wifiSend ∧ c.shared.2.consumed + buffersOf length ≤ c.shared.2.granted) ∧
    ∀ length, c.pending .wifiSend = some (.note (.packetSent extConnWifiSdioFunc length)) →
      c.shared.1.host.totalTx.toNat = c.shared.2.consumed % 4096 := by
  have early := (outline false cfg).reached_holds (relyOf_refl false) (started_holds cfg started) before
  have initially := launched_holds cfg early launched
  have valid := (outline true cfg).reached_holds (relyOf_refl true) initially path
  have run := launched_runs initially launched.run path
  refine ⟨fun size here => ?_,fun t p length here => ?_,fun length here => ?_⟩
  · exact valid.safe (relyOf_refl true) here
  · have safe := valid.safe (relyOf_refl true) here
    cases t
    case wifiSend => exact ⟨rfl,safe⟩
    all_goals exact absurd run (safe p length rfl)
  · exact valid.safe (relyOf_refl true) here

-- The Wi-Fi task runs alone: 3 of 10 granted buffers are used up when it is
-- started with 600 bytes queued.
def launch : Config signature Task Label State where
  shared := ({World.initial {espSipInit with state := .run,txBlksz := 4} with
    host := ⟨3,0⟩,wifiTx := (listInsert 7 ⟨nullEb,nullEb,fun _ => nullEb,false⟩).2,
    esf := fun _ => .holding esfBufTxPb ⟨9,0⟩ 600 600},⟨10,3,0⟩)
  running
    | .transRecv => .pure .transRecvTask
    | .wifiSend => .pure .wifiSendTask
    | .btTx => .pure (.btTxTask 0)
    | .appMain => .pure .returned
    | .btHost => .pure .btHost
    | .wifiStack => .pure .wifiStack

theorem launch_started : Started launch := by
  intro t
  cases t <;> exact ⟨_,rfl,trivial⟩

theorem launch_launched : Launched launch := ⟨rfl,rfl,rfl,⟨rfl,by decide,by decide⟩⟩

theorem launch_sends : ∃ c, Reached (system ⟨true,true⟩ creditSlave) launch c ∧
    c.pending .wifiSend = some (.note (.packetSent extConnWifiSdioFunc 612)) := by
  have passed : (schedule (block ⟨true,true⟩) creditSlave.exec
      (List.replicate 40 (.wifiSend,{data := [0,0,10,0],word := 0xffff})) launch).any
      (fun c => c.pending .wifiSend = some (.note (.packetSent extConnWifiSdioFunc 612))) = true := by decide +kernel
  obtain ⟨c,path,sent⟩ := schedule_exists (m := system ⟨true,true⟩ creditSlave)
    (fun _ _ ans _ _ _ ran => ⟨ans,ran⟩) _ passed
  exact ⟨c,path,of_decide_eq_true sent⟩

theorem launch_counted : ∃ c, Reached (system ⟨true,true⟩ creditSlave) launch c ∧
    c.pending .wifiSend = some (.note (.packetSent extConnWifiSdioFunc 612)) ∧
    c.shared.1.host.totalTx.toNat = c.shared.2.consumed % 4096 := by
  obtain ⟨c,path,sent⟩ := launch_sends
  exact ⟨c,path,sent,(flow_control ⟨true,true⟩ launch_started .refl launch_launched path).2.2 612 sent⟩

end ExtConn.FlowControl
