import ExtConn.WifiIteration

namespace ExtConn.SendBufferBounds
open Effects ByteMemory WifiPacket WifiIteration

abbrev State := World × Unit

-- What an operation stores into the block of the send buffer lies in the buffer.
def WritesWithin (sendBuf : Ptr) (size : Nat) : Op → Prop
  | .store p bytes => p.blk = sendBuf.blk → sendBuf.off ≤ p.off ∧ p.off + bytes.length ≤ sendBuf.off + size
  | .sdmmcIoRead _ _ _ (.mem p) n => p.blk = sendBuf.blk → sendBuf.off ≤ p.off ∧ p.off + n.toNat ≤ sendBuf.off + size
  | _ => True

-- The surroundings leave the buffer's descriptor alone while the task works on it.
def keepsBuffer (eb : EbPtr) (s s' : State) : Prop := s'.1.esf eb = s.1.esf eb

def StaysWithin (w : World) (sendBuf : Ptr) (actualSize : UInt32) (eb : EbPtr) : Prop :=
  ∀ n o s, Issues (keepsBuffer eb) (openSlave.act .wifiSend) (iteration n sendBuf actualSize eb) (w,()) o s →
    WritesWithin sendBuf actualSize.toNat o

def bounded (sendBuf : Ptr) (size : Nat) (eb : EbPtr) : Contract signature State where
  act := openSlave.act .wifiSend
  rely := keepsBuffer eb
  guar _ _ := True
  safe o _ := WritesWithin sendBuf size o

section
variable {sendBuf : Ptr} {size : Nat} {eb : EbPtr} {b : EsfBuf} {s : State}

def Holds (eb : EbPtr) (b : EsfBuf) (s : State) : Prop := s.1.esf eb = b

theorem holds_stable (s s' : State) (held : Holds eb b s) (kept : keepsBuffer eb s s') : Holds eb b s' := kept.trans held

theorem within_op {o : Op} {next : o.Answer → Code α} {post : α → State → Prop} (safe : WritesWithin sendBuf size o)
    (rest : ∀ ans r w, ∀ s₁ : State, Holds eb b s₁ → World.exec .wifiSend o ans s₁.1 = some (r,w) →
      wp (bounded sendBuf size eb) (next r) post (w,())) (held : Holds eb b s) :
    wp (bounded sendBuf size eb) (Prog.op o next : Code α) post s := by
  intro s₁ kept
  refine ⟨safe,fun r s' acted => ⟨trivial,?_⟩⟩
  obtain ⟨ans,ran⟩ := act_exec acted
  exact rest ans r s'.1 s₁ (holds_stable s s₁ held kept) ran

theorem any_op {o : Op} {next : o.Answer → Code α} {post : α → State → Prop} (safe : WritesWithin sendBuf size o)
    (rest : ∀ r s', wp (bounded sendBuf size eb) (next r) post s') : wp (bounded sendBuf size eb) (Prog.op o next : Code α) post s :=
  fun _ _ => ⟨safe,fun r s' _ => ⟨trivial,rest r s'⟩⟩

theorem within_all {p : Code α} {post : α → State → Prop} (all : p.All (WritesWithin sendBuf size)) (rest : ∀ a s, post a s) :
    wp (bounded sendBuf size eb) p post s := by
  apply wp_all (I := fun _ => True) all
  · exact fun _ _ held _ => held
  · exact fun _ _ within _ => ⟨within,fun _ _ _ => ⟨trivial,trivial⟩⟩
  · trivial
  · exact fun a s _ => rest a s

-- A part of the buffer, from `k` on.
theorem part_within {bytes : List UInt8} (k : Nat) (fits : k + bytes.length ≤ size) : WritesWithin sendBuf size (.store (sendBuf.add k) bytes) := by
  intro _
  rw [Ptr.add_off]
  exact ⟨Nat.le_add_right _ _,by omega⟩

theorem setType_within (large : 12 ≤ size) (type : UInt8) : (sipHdrSetType sendBuf type).All (WritesWithin sendBuf size) :=
  ⟨trivial,fun _ => ⟨part_within 0 (Nat.le_trans (Nat.le_of_ble_eq_true rfl) large),fun _ => trivial⟩⟩

theorem setSync_within (large : 12 ≤ size) : (sipHdrSetSync sendBuf).All (WritesWithin sendBuf size) :=
  ⟨trivial,fun _ => ⟨part_within 1 (Nat.le_trans (Nat.le_of_ble_eq_true rfl) large),fun _ => trivial⟩⟩

theorem memcpy_within {src : Ptr} {k n : Nat} {post : Unit → State → Prop} (fits : k + n ≤ size) (rest : ∀ s, post () s) :
    wp (bounded sendBuf size eb) (memcpy (sendBuf.add k) src n) post s := by
  refine within_op trivial (fun ans bytes w s₁ _ ran => ?_) (Eq.refl (s.1.esf eb))
  cases ran
  apply within_all
  · refine ⟨part_within k ?_,fun _ => trivial⟩
    rw [read_length]
    exact fits
  · exact fun _ s => rest s

theorem buildPacket_within {post : UInt32 → State → Prop} (large : 12 ≤ size) (fits : packetLength b ≤ size) (rest : ∀ len s, post len s)
    (held : Holds eb b s) : wp (bounded sendBuf size eb) (wifiBuildPacket sendBuf eb) post s := by
  have type : ∀ type, (sipHdrSetType sendBuf type).All (WritesWithin sendBuf size) := setType_within large
  have sync : (sipHdrSetSync sendBuf).All (WritesWithin sendBuf size) := setSync_within large
  have inside : ∀ {k n : Nat}, k + n ≤ 12 → k + n ≤ size := fun less => Nat.le_trans less large
  have two : ∀ n, (leBytes 2 n).length = 2 := leBytes_length 2
  unfold wifiBuildPacket wifiFillPacket espSipGetTxBlks sipHdrSetLen
  simp only [Prog.bind_def,issue_bind,Prog.op_bind,Prog.pure_bind,Prog.pure_def]
  refine within_op (part_within 0 (by simpa [sizeofSipHdr] using large)) (fun _ _ w s₁ here ran => ?_) held
  cases ran
  have held₁ : Holds eb b ({s₁.1 with mem := _},()) := here
  refine within_op trivial (fun _ b' w s₂ here ran => ?_) held₁
  cases ran
  have fetched : s₂.1.esf eb = b := here
  rw [fetched]
  refine within_op trivial (fun _ _ w s₃ here ran => ?_) here
  cases ran
  apply wp_ite
  · intro (command : IsCommand b)
    have length : packetLength b = b.dataLen.toNat := if_pos command
    rw [wp_bind]
    apply memcpy_within (k := 0) (by omega)
    intro s
    apply within_all _ rest
    exact Prog.All.bind (type _) fun _ => Prog.All.bind sync fun _ => trivial
  · intro (data : ¬ IsCommand b)
    have length : packetLength b = b.dsLength.val + sizeofSipHdr := if_neg data
    have bytes : ∀ k (value : UInt8), k < 12 → WritesWithin sendBuf size (.store (sendBuf.add k) [value]) :=
      fun k value less => part_within k (Nat.le_trans (Nat.succ_le_of_lt less) large)
    rw [wp_bind]
    apply within_all (type _)
    intro _ s
    rw [wp_bind]
    apply within_all sync
    intro _ s
    have len : WritesWithin sendBuf size (.store (sendBuf.add 2) (leBytes 2 (UInt32.ofNat b.dsLength.val + sipCtrlHdrLen).toUInt16.toNat)) := by
      apply part_within
      rw [leBytes_length]
      omega
    refine any_op len fun _ s => any_op (bytes 4 _ (by decide)) fun _ s => any_op (bytes 5 _ (by decide)) fun _ s => ?_
    refine any_op trivial fun _ s => any_op (bytes 6 _ (by decide)) fun _ s => any_op trivial fun _ s => ?_
    refine any_op (bytes 6 _ (by decide)) fun _ s => any_op (bytes 7 _ (by decide)) fun _ s => ?_
    rw [wp_bind]
    apply memcpy_within
    · rw [← Nat.add_comm b.dsLength.val,← length]
      exact fits
    · exact fun s => rest _ s

-- Behind the size check there is only the sequence number to store.
theorem polls_within (large : 12 ≤ size) (n : Nat) (l : WifiLocals) (mine : l.sendBuf = sendBuf) :
    (polls n (.wifiSendPoll l)).All (WritesWithin sendBuf size) := by
  have number : (wifiSetSeq sendBuf).All (WritesWithin sendBuf size) := by
    refine ⟨trivial,fun _ => Prog.All.ite (fun _ => ⟨trivial,fun _ => ⟨trivial,fun _ => ⟨?_,fun _ => trivial⟩⟩⟩) fun _ => trivial⟩
    apply part_within
    rw [le32_length]
    exact large
  have rest : (wifiSendRest l).All (WritesWithin sendBuf size) :=
    wifiSendRest_all (fun _ _ _ => trivial) trivial trivial (fun _ => trivial) trivial trivial trivial trivial trivial
  apply polls_all
  rw [wifiSendPoll_eq]
  refine Prog.All.bind (pollCredits_all trivial trivial trivial trivial fun _ => trivial) fun size => ?_
  refine Prog.All.ite (fun _ => ⟨trivial,fun _ => trivial⟩) fun _ => ?_
  rw [mine,wifiSendPacket_eq]
  exact Prog.All.bind number fun _ => ⟨trivial,fun _ => ⟨trivial,fun _ => rest⟩⟩

theorem iteration_within {actualSize : UInt32} (n : Nat) (large : 12 ≤ actualSize.toNat) (fits : packetLength b ≤ actualSize.toNat)
    (held : Holds eb b s) : wp (bounded sendBuf actualSize.toNat eb) (iteration n sendBuf actualSize eb) (fun _ _ => True) s := by
  unfold iteration handleBuffer
  simp only [Prog.bind_def,Prog.pure_def]
  rw [wp_bind,wp_bind]
  apply buildPacket_within large fits _ held
  intro len s
  apply wp_ite
  · intro _
    show wp _ (polls n .aborted) _ s
    rw [polls_ended rfl]
    trivial
  · intro _
    show wp _ (polls n (.wifiSendPoll _)) _ s
    exact within_all (polls_within large n _ rfl) fun _ _ => trivial

-- Conversely the copy itself has to fit.
theorem bounded_step {o : Op} {next : o.Answer → Code α} {post : α → State → Prop}
    (holds : wp (bounded sendBuf size eb) (Prog.op o next : Code α) post s) (r : o.Answer) (s' : State)
    (acted : openSlave.act .wifiSend o s r s') : wp (bounded sendBuf size eb) (next r) post s' :=
  wp_step holds (Eq.refl (s.1.esf eb)) acted

theorem memcpy_needs {src : Ptr} {k n : Nat} {post : Unit → State → Prop}
    (holds : wp (bounded sendBuf size eb) (memcpy (sendBuf.add k) src n) post s) : k + n ≤ size := by
  have store := bounded_step holds _ _ ⟨{},rfl⟩
  have inside := wp_safe store (Eq.refl _) rfl
  simp only [Ptr.add_off,read_length] at inside
  omega

theorem buildPacket_needs {post : UInt32 → State → Prop} (holds : wp (bounded sendBuf size eb) (wifiBuildPacket sendBuf eb) post s) :
    packetLength (s.1.esf eb) ≤ size := by
  unfold wifiBuildPacket wifiFillPacket espSipGetTxBlks at holds
  simp only [Prog.bind_def,issue_bind,Prog.op_bind,Prog.pure_bind,Prog.pure_def] at holds
  iterate 3 replace holds := bounded_step holds _ _ ⟨{},rfl⟩
  by_cases command : IsCommand (s.1.esf eb)
  · have copy : 0 + (s.1.esf eb).dataLen.toNat ≤ size := memcpy_needs ((wp_bind _ _ _ _).mp (wp_then holds command))
    rw [packetLength,if_pos command]
    omega
  · replace holds := wp_else holds command
    unfold sipHdrSetType sipHdrSetSync sipHdrSetLen at holds
    simp only [Prog.bind_def,issue_bind,Prog.op_bind] at holds
    iterate 12 replace holds := bounded_step holds _ _ ⟨{},rfl⟩
    have copy := memcpy_needs ((wp_bind _ _ _ _).mp holds)
    rw [packetLength,if_neg command,Nat.add_comm]
    exact copy

end

theorem staysWithin_needs {w : World} {sendBuf : Ptr} {actualSize : UInt32} {eb : EbPtr} (within : StaysWithin w sendBuf actualSize eb) :
    packetLength (w.esf eb) ≤ actualSize.toNat := by
  have holds : wp (bounded sendBuf actualSize.toNat eb) (iteration 0 sendBuf actualSize eb) (fun _ _ => True) (w,()) :=
    (wp_exact fun _ _ => trivial).mpr (within 0)
  unfold iteration handleBuffer at holds
  simp only [Prog.bind_def,wp_bind] at holds
  exact buildPacket_needs holds

theorem staysWithin_iff {w : World} {sendBuf : Ptr} {actualSize : UInt32} {eb : EbPtr} (large : wifiSendBufferLen ≤ actualSize) :
    StaysWithin w sendBuf actualSize eb ↔ packetLength (w.esf eb) ≤ actualSize.toNat := by
  constructor
  · exact staysWithin_needs
  · intro fits n o s issued
    have header : 12 ≤ actualSize.toNat := Nat.le_trans (Nat.le_of_ble_eq_true rfl) (UInt32.le_iff_toNat_le.mp large)
    have start : Holds eb (w.esf eb) (w,()) := Eq.refl (w.esf eb)
    exact wp_issues (iteration_within n header fits start) issued

-- A command of 2048 bytes fits the buffer as it is allocated, one of 2049 bytes does not.
def commandOf (length : UInt16) : EsfBuf := .holding esfBufTxSip ⟨1,0⟩ length 0

def queued (length : UInt16) : World := {World.initial espSipInit with esf := fun _ => commandOf length}

theorem full_command_fits : StaysWithin (queued 2048) ⟨2,0⟩ wifiSendBufferLen 1 := by
  apply (staysWithin_iff _).mpr
  · decide
  · decide

theorem long_command_overruns : ¬ ∀ (w : World) (sendBuf : Ptr) (actualSize : UInt32) (eb : EbPtr), wifiSendBufferLen ≤ actualSize →
    StaysWithin w sendBuf actualSize eb := by
  intro every
  have large : wifiSendBufferLen ≤ wifiSendBufferLen := UInt32.le_refl _
  have fits := staysWithin_needs (every (queued 2049) ⟨2,0⟩ wifiSendBufferLen 1 large)
  exact absurd fits (by decide)

end ExtConn.SendBufferBounds
