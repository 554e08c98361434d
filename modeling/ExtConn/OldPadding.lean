import ExtConn.OldContents

namespace ExtConn.OldPadding
open Effects ByteMemory ExtConn.Sequential TwoRuns FirmwareDownload WifiPacket WifiIteration OldContents

-- What the writes of a packet of `n` bytes take out of memory.
def chunksAt (m : Mem) (start : Ptr) (n : UInt32) : List (List UInt8) :=
  if n = 0 then []
  else if n.toNat < 512 then [m.read start (roundFour n).toNat]
  else m.read start (blocksOf n).toNat ::
    if tailOf n = 0 then [] else [m.read (start.add (blocksOf n).toNat) (roundFour (tailOf n)).toNat]

-- The length that is transferred.
def transferred (n : UInt32) : Nat := (n.toNat + 3) / 4 * 4

theorem chunksAt_flatten (m : Mem) (start : Ptr) (n : UInt32) : (chunksAt m start n).flatten = m.read start (transferred n) := by
  have blocks := blocksOf_toNat n
  have tail := tailOf_toNat n
  unfold chunksAt transferred
  by_cases none : n = 0
  · subst none
    rfl
  rw [if_neg none]
  by_cases small : n.toNat < 512
  · rw [if_pos small,roundFour_toNat small,List.flatten_singleton]
  · rw [if_neg small]
    by_cases done : tailOf n = 0
    · have zero : (0 : UInt32).toNat = 0 := rfl
      rw [done,zero] at tail
      rw [if_pos done,List.flatten_singleton,blocks]
      congr 1
      omega
    · have total : (n.toNat + 3) / 4 * 4 = n.toNat / 512 * 512 + (n.toNat % 512 + 3) / 4 * 4 := by omega
      rw [if_neg done,List.flatten_cons,List.flatten_singleton,roundFour_toNat (by omega),blocks,tail,total,read_append]

-- The chunks that two memories give are the same exactly when the bytes are.
theorem chunksAt_congr {m m' : Mem} {start : Ptr} {n : UInt32}
    (same : ∀ i < transferred n, m start.blk (start.off + i) = m' start.blk (start.off + i)) : chunksAt m start n = chunksAt m' start n := by
  have blocks := blocksOf_toNat n
  have tail := tailOf_toNat n
  unfold transferred at same
  unfold chunksAt
  split
  · rfl
  split
  · rename_i small
    have rounded := roundFour_toNat small
    rw [read_congr fun i less => same i (by omega)]
  · have whole : m.read start (blocksOf n).toNat = m'.read start (blocksOf n).toNat := read_congr fun i less => same i (by omega)
    rw [whole]
    split
    · rfl
    · have rounded : (roundFour (tailOf n)).toNat = ((tailOf n).toNat + 3) / 4 * 4 := roundFour_toNat (by omega)
      have rest : m.read (start.add (blocksOf n).toNat) (roundFour (tailOf n)).toNat =
          m'.read (start.add (blocksOf n).toNat) (roundFour (tailOf n)).toNat := by
        apply read_congr
        intro i less
        have here := same ((blocksOf n).toNat + i) (by omega)
        rw [← Nat.add_assoc] at here
        exact here
      rw [rest]

theorem chunksAt_iff {m m' : Mem} {start : Ptr} {n : UInt32} : chunksAt m start n = chunksAt m' start n ↔
    ∀ i < transferred n, m start.blk (start.off + i) = m' start.blk (start.off + i) := by
  constructor
  · intro same i less
    have whole := congrArg List.flatten same
    rw [chunksAt_flatten,chunksAt_flatten] at whole
    have here := congrArg (·[i]?) whole
    simp only [read_get _ _ less,Option.some.injEq] at here
    exact here
  · exact chunksAt_congr

-- The writes that were made of them: all, or up to one that failed.
structure Partly (chunks : List (List UInt8)) (added : List Transfer) : Prop where
  bytes : added.map Transfer.bytes = chunks.take added.length
  whole : (∀ x ∈ added, x.err = .ok) → added.length = chunks.length

theorem partly_none : Partly [] [] := ⟨rfl,fun _ => rfl⟩

theorem partly_last {x : Transfer} (same : x.bytes = chunk) : Partly [chunk] [x] := ⟨by simp [same],fun _ => rfl⟩

theorem partly_failed {x : Transfer} (same : x.bytes = chunk) (lost : x.err ≠ .ok) : Partly (chunk :: chunks) [x] :=
  ⟨by simp [same],fun accepted => absurd (accepted x List.mem_cons_self) lost⟩

theorem partly_cons {x : Transfer} (same : x.bytes = chunk) (rest : Partly chunks added) : Partly (chunk :: chunks) (x :: added) := by
  constructor
  · rw [List.map_cons,List.length_cons,List.take_succ_cons,same,rest.bytes]
  · intro accepted
    rw [List.length_cons,List.length_cons,rest.whole fun y member => accepted y (List.mem_cons_of_mem x member)]

section
variable {t : Task} {w : World} {d : Recorded}

theorem write_op {function addr n : UInt32} {arg : Cmd53Arg} {p : Ptr} {next : EspErr → Code α} {post : α → State → Prop}
    (rest : ∀ x, x.bytes = w.mem.read p n.toNat → wp (alone recorder t) (next x.err) post (w,{d with sent := d.sent ++ [x]})) :
    wp (alone recorder t) (.op (.sdmmcIoWrite function addr arg (.mem p) n) next) post (w,d) := by
  apply alone_op
  intro ans r w' d' ran answered
  cases ran
  cases answered
  exact rest ⟨function,addr,w.mem.read p n.toNat,ans.err⟩ rfl

theorem writeTail_wp {function addr n : UInt32} {p : Ptr} {post : EspErr → State → Prop}
    (rest : ∀ err added, Partly [w.mem.read p (roundFour n).toNat] added → post err (w,{d with sent := d.sent ++ added})) :
    wp (alone recorder t) (writeTail function addr p n) post (w,d) := by
  apply write_op
  intro x same
  exact rest x.err [x] (partly_last same)

theorem sendPacketChunks_wp {function addr n : UInt32} {p : Ptr} {post : EspErr → State → Prop}
    (rest : ∀ err added, Partly (chunksAt w.mem p n) added → post err (w,{d with sent := d.sent ++ added})) :
    wp (alone recorder t) (sendPacketChunks function addr (n.toNat + 1) p n) post (w,d) := by
  by_cases none : n = 0
  · subst none
    rw [sendPacketChunks_zero]
    have sent := rest .ok [] partly_none
    rw [List.append_nil] at sent
    exact sent
  have positive := (toNat_ne_zero n).mp none
  rw [chunksAt,if_neg none] at rest
  by_cases small : n.toNat < 512
  · rw [if_pos small] at rest
    rw [sendPacketChunks_tail _ _ _ _ positive small]
    exact writeTail_wp rest
  · rw [if_neg small] at rest
    obtain ⟨fuel,bound⟩ : ∃ fuel, n.toNat + 1 = fuel + 2 := ⟨n.toNat - 1,by omega⟩
    rw [bound,sendPacketChunks_blocks _ _ _ _ (by omega)]
    apply write_op
    intro x same
    apply wp_ite
    · exact fun lost => rest x.err [x] (partly_failed same lost)
    · intro _
      by_cases done : tailOf n = 0
      · rw [if_pos done] at rest ⊢
        exact rest .ok [x] (partly_last same)
      · rw [if_neg done] at rest ⊢
        apply writeTail_wp
        intro err added partly
        have sent := rest err (x :: added) (partly_cons same partly)
        rw [List.append_cons] at sent
        exact sent

end

-- The bytes of the packet and whatever stands behind it.
def filled (w : World) (sendBuf : Ptr) (eb : EbPtr) : Mem := w.mem.write sendBuf (numbered (packetBytes w.mem (w.esf eb)) w.sip.txseq)

def lengthOf (w : World) (eb : EbPtr) : UInt32 := sendLen (w.esf eb) w.sip.txBlksz

def chunksOf (w : World) (sendBuf : Ptr) (eb : EbPtr) : List (List UInt8) := chunksAt (filled w sendBuf eb) sendBuf (lengthOf w eb)

-- An iteration so far.
structure Showing (w : World) (sendBuf : Ptr) (actualSize : UInt32) (eb : EbPtr) (label : Label) (s : State) : Prop where
  bytes : onBus s = (chunksOf w sendBuf eb).take s.2.sent.length
  refused : s.2.refused = false
  fits : s.2.sent ≠ [] → lengthOf w eb ≤ actualSize
  whole : ends label = true → lengthOf w eb ≤ actualSize → (∀ x ∈ s.2.sent, x.err = .ok) → s.2.sent.length = (chunksOf w sendBuf eb).length

section
variable {w : World} {sendBuf : Ptr} {actualSize : UInt32} {eb : EbPtr}

theorem recorder_ignores (t : Task) : Ignores recorder t := by
  intro w o ans d here
  cases o <;> first | rfl | cases here

-- What follows the writes shows nothing more.
def afterWrites (l : WifiLocals) (err : EspErr) : Code Label :=
  (afterChunks extConnWifiSdioFunc l.sendLen err).bind fun err => .op (.semGive .sdioMutex) fun _ =>
    if err ≠ .ok then .pure .returned else .op (.isTxCallback l.eb) fun back =>
      if back = true then .op (.net80211EnTxdq l.eb) fun _ => .op .espSipTxdPost fun _ => .pure (.wifiSendLoop l.sendBuf l.actualSize)
      else .op (.espSipRecycle l.eb) fun _ => .pure (.wifiSendLoop l.sendBuf l.actualSize)

theorem wifiSendRest_eq (l : WifiLocals) : wifiSendRest l =
    (sendPacketChunks extConnWifiSdioFunc (chunkAddr extConnWifiSdioFunc l.sendLen) (l.sendLen.toNat + 1) l.sendBuf l.sendLen).bind (afterWrites l) :=
  Prog.bind_assoc _ _ _

theorem afterWrites_wp {l : WifiLocals} {err : EspErr} {s : State} {post : Label → State → Prop}
    (rest : ∀ label w', post label (w',s.2)) : wp (alone recorder .wifiSend) (afterWrites l err) post s := by
  let still : Op → Prop := fun o => idle o = true ∧ ∀ w ans d, recorder.answers .wifiSend w o ans d = some d
  have quiet : ∀ {o : Op}, idle o = true → (∀ w ans d, recorder.answers .wifiSend w o ans d = some d) → still o :=
    fun quiet ignored => ⟨quiet,ignored⟩
  have all : (afterWrites l err).All still := by
    apply Prog.All.bind
    · exact afterChunks_all (quiet rfl fun _ _ _ => rfl) (quiet rfl fun _ _ _ => rfl) (fun _ _ => quiet rfl fun _ _ _ => rfl) err
    intro err
    refine ⟨quiet rfl fun _ _ _ => rfl,fun _ => Prog.All.ite (fun _ => trivial) fun _ => ⟨quiet rfl fun _ _ _ => rfl,fun back => ?_⟩⟩
    refine Prog.All.ite (fun _ => ?_) fun _ => ⟨quiet rfl fun _ _ _ => rfl,fun _ => trivial⟩
    exact ⟨quiet rfl fun _ _ _ => rfl,fun _ => ⟨quiet rfl fun _ _ _ => rfl,fun _ => trivial⟩⟩
  obtain ⟨w',d⟩ := s
  apply idle_wp all (fun _ here => here)
  exact fun label w'' _ => rest label w''

theorem iteration_showing (n : Nat) (apart : Apart sendBuf (w.esf eb)) :
    wp (alone recorder .wifiSend) (iteration n sendBuf actualSize eb) (Showing w sendBuf actualSize eb) (w,unused) := by
  apply iteration_wp (recorder_ignores .wifiSend)
  · exact ⟨fun _ _ _ _ _ _ _ => rfl,fun _ _ _ _ => rfl⟩
  · exact fun _ => rfl
  · exact apart
  · intro above w'
    refine ⟨List.take_zero.symm,rfl,fun sent => absurd rfl sent,fun _ fits => ?_⟩
    exact absurd fits (UInt32.not_le.mpr above)
  · intro l w'
    exact ⟨List.take_zero.symm,rfl,fun sent => absurd rfl sent,nofun⟩
  · intro fits w₁ mem _
    rw [wifiSendPacket_eq]
    apply alone_op
    intro ans r w₂ d ran answered
    cases answered
    have same := idle_exec rfl ran
    apply alone_exec (fun _ => rfl) (fun _ => rfl)
    have within : lengthOf w eb ≤ actualSize := UInt32.not_lt.mp fits
    rw [wifiSendRest_eq,wp_bind]
    apply sendPacketChunks_wp
    intro err added partly
    have filling : chunksAt w₂.mem sendBuf (lengthOf w eb) = chunksOf w sendBuf eb := by
      rw [same.mem,mem]
      rfl
    have shown : Partly (chunksOf w sendBuf eb) added := filling ▸ partly
    apply afterWrites_wp
    exact fun _ _ => ⟨shown.bytes,rfl,fun _ => within,fun _ _ => shown.whole⟩

-- With the bus taken the polls do not even begin.
theorem polls_blocked {w : World} {d : Recorded} (taken : w.sdioMutex ≠ none) (n : Nat) (label : Label) :
    wp (alone recorder .wifiSend) (polls n label) (fun _ s => s.2 = d) (w,d) := by
  cases label with
  | wifiSendPoll l =>
      cases n with
      | zero => rfl
      | succ n =>
          rw [polls,wifiSendPoll_eq,pollCredits]
          apply alone_op
          intro ans r w' d' ran answered
          simp only [World.exec,if_neg taken] at ran
          cases ran
  | _ =>
      rw [polls_ended rfl]
      rfl

theorem iteration_blocked (n : Nat) (taken : w.sdioMutex ≠ none) :
    wp (alone recorder .wifiSend) (iteration n sendBuf actualSize eb) (fun _ s => s.2 = unused) (w,unused) := by
  let plain : Op → Prop := fun o => movesMutex o = false ∧ ∀ w ans d, recorder.answers .wifiSend w o ans d = some d
  have build : (handleBuffer sendBuf actualSize eb).All plain := by
    apply Prog.All.bind
    · apply wifiBuildPacket_all
      · exact ⟨rfl,fun _ _ _ => rfl⟩
      · exact fun _ => ⟨rfl,fun _ _ _ => rfl⟩
      · exact fun _ _ => ⟨rfl,fun _ _ _ => rfl⟩
      · exact fun _ _ => ⟨rfl,fun _ _ _ => rfl⟩
    · exact fun _ => Prog.All.ite (fun _ => trivial) fun _ => trivial
  rw [iteration,wp_bind]
  apply wp_all (I := fun s => s.1.sdioMutex ≠ none ∧ s.2 = unused) build
  · exact fun _ _ held same => same ▸ held
  · intro o s here held
    obtain ⟨calm,ignored⟩ := here
    refine ⟨trivial,fun r s' acted => ⟨trivial,?_⟩⟩
    obtain ⟨ans,ran,answered⟩ := act_iff.mp acted
    obtain ⟨taken,same⟩ := held
    have kept := Option.some.inj ((ignored s.1 ans s.2).symm.trans answered)
    rw [← kept,(exec_frame ran).mutex calm]
    exact ⟨taken,same⟩
  · exact ⟨taken,rfl⟩
  · intro label s held
    obtain ⟨w',d⟩ := s
    obtain ⟨taken,rfl⟩ := held
    exact polls_blocked taken n label

theorem iteration_shows (n : Nat) (apart : Apart sendBuf (w.esf eb)) : Determined (recorder.act .wifiSend) (iteration n sendBuf actualSize eb)
    outcome onBus (w,unused) fun o => (chunksOf w sendBuf eb).take o.1.length := by
  intro trace label s' run
  have showing := alone_runs (iteration_showing n apart) run
  show onBus s' = (chunksOf w sendBuf eb).take (s'.2.sent.map Transfer.err).length
  rw [List.length_map]
  exact showing.bytes

-- Only a packet that fits is sent, and only while the bus is free.
theorem sent_when {n : Nat} (apart : Apart sendBuf (w.esf eb)) (attained : Attains (recorder.act .wifiSend) (iteration n sendBuf actualSize eb)
    outcome (w,unused) o) : o.1 = [] ∨ w.sdioMutex = none ∧ lengthOf w eb ≤ actualSize := by
  obtain ⟨trace,label,s',run,rfl⟩ := attained
  have showing := alone_runs (iteration_showing n apart) run
  by_cases free : w.sdioMutex = none
  · by_cases none : s'.2.sent = []
    · left
      rw [outcome,none]
      rfl
    · exact .inr ⟨free,showing.fits none⟩
  · left
    rw [outcome,alone_runs (iteration_blocked n free) run]
    rfl

end

-- A slave that accepts every write and always grants as many credits as it can.
def fullTokens (totalTx : UInt32) : UInt32 := ((totalTx + txBufferMask) % txBufferMax) <<< espSdioSendOffset

def generous (w : World) : Op → Ans
  | .sdmmcIoRead .. => {data := le32 (fullTokens w.host.totalTx)}
  | _ => {}

def granting : Contract signature State where
  act o s r s' := recorder.exec .wifiSend o (generous s.1 o) s = some (r,s')
  rely := Eq
  guar _ _ := True
  safe o s := ∃ r s', recorder.exec .wifiSend o (generous s.1 o) s = some (r,s')

theorem full_credits (totalTx : UInt32) :
    (((overlay 0 (le32 (fullTokens totalTx)) >>> espSdioSendOffset) &&& txBufferMask) + txBufferMax - totalTx) % txBufferMax = 4095 := by
  have max : txBufferMax.toNat = 4096 := rfl
  have offset : espSdioSendOffset.toNat = 16 := rfl
  have mask : txBufferMask.toNat = 4095 := rfl
  have half : 2 ^ (16 % 32) = 65536 := rfl
  have bound := totalTx.toNat_lt
  have value : (overlay 0 (le32 (fullTokens totalTx))).toNat = (totalTx.toNat + 4095) % 4096 * 65536 := by
    rw [overlay_word 0 (le32_length _),leNat_le32,fullTokens,UInt32.toNat_shiftLeft,offset,UInt32.toNat_mod,UInt32.toNat_add,max,mask,
      Nat.shiftLeft_eq,half]
    omega
  have tokens : ((overlay 0 (le32 (fullTokens totalTx)) >>> espSdioSendOffset) &&& txBufferMask).toNat = (totalTx.toNat + 4095) % 4096 := by
    rw [UInt32.toNat_and,UInt32.toNat_shiftRight,value,offset,mask,Nat.shiftRight_eq_div_pow,Nat.and_two_pow_sub_one_eq_mod _ 12,half]
    omega
  apply UInt32.toNat_inj.mp
  have result : (4095 : UInt32).toNat = 4095 := rfl
  rw [UInt32.toNat_mod,UInt32.toNat_sub,UInt32.toNat_add,tokens,max,result]
  omega

-- Operations that it lets through, with an invariant of the world.
def Lets (I : World → Prop) (o : Op) : Prop := ∀ w d, I w → Accepted d → ∃ r w' d', World.exec .wifiSend o (generous w o) w = some (r,w') ∧
  recorder.answers .wifiSend w o (generous w o) d = some d' ∧ I w' ∧ Accepted d'

section
variable {w : World} {d : Recorded}

theorem granting_op {o : Op} {next : o.Answer → Code α} {post : α → State → Prop} {r : o.Answer} {w' : World} {d' : Recorded}
    (ran : World.exec .wifiSend o (generous w o) w = some (r,w')) (answered : recorder.answers .wifiSend w o (generous w o) d = some d')
    (rest : wp granting (next r) post (w',d')) : wp granting (.op o next : Code α) post (w,d) := by
  have acted : recorder.exec .wifiSend o (generous w o) (w,d) = some (r,w',d') := exec_iff.mpr ⟨ran,answered⟩
  intro s₁ same
  cases same
  refine ⟨⟨r,_,acted⟩,fun r' s' other => ⟨trivial,?_⟩⟩
  cases acted.symm.trans other
  exact rest

theorem granting_all {I : World → Prop} {p : Code α} {post : α → State → Prop} (all : p.All (Lets I)) (here : I w) (accepted : Accepted d)
    (rest : ∀ a w' d', I w' → Accepted d' → post a (w',d')) : wp granting p post (w,d) := by
  induction p generalizing w d with
  | pure value => exact rest value w d here accepted
  | op o next ih =>
      obtain ⟨r,w',d',ran,answered,later,more⟩ := all.1 w d here accepted
      exact granting_op ran answered (ih r (all.2 r) later more)

theorem roundup_small {n y : UInt32} (less : n.toNat < 2 ^ 16) (fits : y.toNat < 2 ^ 16) : (roundup n y).toNat < 2 ^ 17 := by
  by_cases none : y = 0
  · subst none
    rw [BlockRounding.roundup_zero]
    decide
  · have value := BlockRounding.roundup_toNat ((toNat_ne_zero y).mp none) (n := n) (by omega)
    omega

theorem wifiBuildPacket_small (sendBuf : Ptr) (eb : EbPtr) : (wifiBuildPacket sendBuf eb).Returns fun n => n.toNat < 2 ^ 17 := by
  unfold wifiBuildPacket wifiFillPacket espSipGetTxBlks
  simp only [Prog.bind_def,issue_bind,Prog.op_bind,Prog.pure_bind,Prog.pure_def]
  intro _ b sip
  have blks := UInt16.toNat_toUInt32 sip.txBlksz ▸ sip.txBlksz.toNat_lt
  apply Prog.Returns.ite
  · have length := UInt16.toNat_toUInt32 b.dataLen ▸ b.dataLen.toNat_lt
    exact Prog.Returns.bind fun _ => Prog.Returns.bind fun _ => Prog.Returns.bind fun _ => roundup_small length blks
  · have twelve : sipCtrlHdrLen.toNat = 12 := rfl
    have bound := b.dsLength.isLt
    have length : (UInt32.ofNat b.dsLength.val + sipCtrlHdrLen).toNat < 2 ^ 16 := by
      rw [UInt32.toNat_add,UInt32.toNat_ofNat_of_lt' (Nat.lt_trans bound (by decide)),twelve]
      omega
    refine Prog.Returns.bind fun _ => Prog.Returns.bind fun _ => Prog.Returns.bind fun _ => ?_
    exact fun _ _ _ _ _ _ _ => Prog.Returns.bind fun _ => roundup_small length blks

-- One poll is enough, and the packet goes out.
theorem pollCredits_granted {post : EspErr × Option UInt32 → State → Prop} (free : w.sdioMutex = none)
    (rest : ∀ w', w'.sdioMutex = none → post (.ok,some 4095) (w',d)) : wp granting pollCredits post (w,d) := by
  unfold pollCredits
  rw [getBufferSize_eq]
  have taken : World.exec .wifiSend (.semTake .sdioMutex none) {} w = some (true,{w with sdioMutex := some .wifiSend}) := by
    rw [World.exec,if_pos free]
  have read : World.exec .wifiSend (.sdmmcIoRead 1 espSdioTokenRdata {increment := true} .reg 4)
      {data := le32 (fullTokens w.host.totalTx)} {w with sdioMutex := some .wifiSend} =
      some ((.ok,le32 (fullTokens w.host.totalTx)),{w with sdioMutex := some .wifiSend}) := by
    simp [World.exec,Dst.put,le32_length]
  apply granting_op taken rfl
  simp only [Prog.op_bind]
  apply granting_op read rfl
  rw [if_neg (not_not_intro rfl)]
  simp only [Prog.op_bind,Prog.pure_bind]
  apply granting_op rfl rfl
  apply granting_op rfl rfl
  apply granting_op rfl rfl
  have result := rest {w with sdioMutex := none} rfl
  rw [← full_credits w.host.totalTx] at result
  exact result

theorem wifiSendPoll_granted {l : WifiLocals} (free : w.sdioMutex = none) (accepted : Accepted d) (small : l.sendLen.toNat < 2 ^ 17) :
    wp granting (wifiSendPoll l) (fun label s => ends label = true ∧ Accepted s.2) (w,d) := by
  rw [wifiSendPoll_eq,wp_bind]
  apply pollCredits_granted free
  intro w₁ free
  have enough : ¬ (some 4095).getD 0 * 512 < l.sendLen := by
    have credits : ((some (4095 : UInt32)).getD 0 * 512).toNat = 2096640 := rfl
    rw [UInt32.lt_iff_toNat_lt,credits]
    omega
  rw [afterCredits,if_neg enough,wp_bind]
  have number : (wifiSetSeq l.sendBuf).All (Lets fun w => w.sdioMutex = none) := by
    apply wifiSetSeq_all
    · exact fun _ _ free accepted => ⟨_,_,_,rfl,rfl,free,accepted⟩
    · exact fun _ _ _ free accepted => ⟨_,_,_,rfl,rfl,free,accepted⟩
    · exact fun _ _ _ _ free accepted => ⟨_,_,_,rfl,rfl,free,accepted⟩
    · exact fun _ _ _ _ free accepted => ⟨_,_,_,rfl,rfl,free,accepted⟩
  apply granting_all number free accepted
  intro _ w₂ d₂ free accepted
  have taken : World.exec .wifiSend (.semTake .sdioMutex none) {} w₂ = some (true,{w₂ with sdioMutex := some .wifiSend}) := by
    rw [World.exec,if_pos free]
  rw [wifiSendPacket_eq]
  apply granting_op taken rfl
  apply granting_op rfl rfl
  have ended : (wifiSendRest l).Returns (ends · = true) := wifiSendRest_returns rfl rfl
  have sending : (wifiSendRest l).All (Lets fun _ => True) := by
    apply wifiSendRest_all
    case write =>
      intro arg p size w d _ accepted
      refine ⟨_,_,_,rfl,rfl,trivial,accepted.1,fun x member => ?_⟩
      cases List.mem_append.mp member with
      | inl before => exact accepted.2 x before
      | inr last =>
          cases List.mem_singleton.mp last
          rfl
    case count => exact fun _ _ _ _ accepted => ⟨_,_,_,rfl,rfl,trivial,accepted⟩
    all_goals exact fun _ _ _ accepted => ⟨_,_,_,rfl,rfl,trivial,accepted⟩
  apply wp_returns ended
  apply granting_all sending trivial accepted
  exact fun _ _ _ _ accepted => accepted

theorem iteration_granted (sendBuf : Ptr) (actualSize : UInt32) (eb : EbPtr) (free : w.sdioMutex = none) :
    wp granting (iteration 1 sendBuf actualSize eb) (fun label s => ends label = true ∧ Accepted s.2) (w,unused) := by
  have build : (wifiBuildPacket sendBuf eb).All (Lets fun w => w.sdioMutex = none) := by
    apply wifiBuildPacket_all
    · exact fun _ _ free accepted => ⟨_,_,_,rfl,rfl,free,accepted⟩
    · exact fun _ _ _ free accepted => ⟨_,_,_,rfl,rfl,free,accepted⟩
    · exact fun _ _ _ _ free accepted => ⟨_,_,_,rfl,rfl,free,accepted⟩
    · exact fun _ _ _ _ free accepted => ⟨_,_,_,rfl,rfl,free,accepted⟩
  have start : Accepted unused := ⟨rfl,fun _ member => absurd member List.not_mem_nil⟩
  have built : wp granting (wifiBuildPacket sendBuf eb) (fun n s => n.toNat < 2 ^ 17 ∧ s.1.sdioMutex = none ∧ Accepted s.2) (w,unused) :=
    wp_returns (wifiBuildPacket_small sendBuf eb) (granting_all build free start fun _ _ _ free accepted => ⟨free,accepted⟩)
  unfold iteration handleBuffer
  simp only [Prog.bind_def,Prog.pure_def,wp_bind]
  apply wp_mono built
  intro n s reached
  obtain ⟨w₁,d₁⟩ := s
  obtain ⟨small,free,accepted⟩ := reached
  apply wp_ite
  · exact fun _ => ⟨rfl,accepted⟩
  · intro _
    show wp granting (polls 1 (.wifiSendPoll ⟨sendBuf,actualSize,eb,n⟩)) _ _
    rw [polls,wp_bind]
    exact wifiSendPoll_granted free accepted small

-- So some iteration sends all of the packet.
theorem iteration_sends {w : World} {sendBuf : Ptr} {actualSize : UInt32} {eb : EbPtr} (free : w.sdioMutex = none)
    (fits : lengthOf w eb ≤ actualSize) (apart : Apart sendBuf (w.esf eb)) : Attains (recorder.act .wifiSend) (iteration 1 sendBuf actualSize eb)
    outcome (w,unused) (List.replicate (chunksOf w sendBuf eb).length .ok,false) := by
  obtain ⟨trace,label,s',run,ended,accepted⟩ := wp_progress (C := granting) (fun _ => rfl) (fun _ _ enabled => enabled)
    (iteration_granted sendBuf actualSize eb free)
  have done : Runs Eq (recorder.act .wifiSend) (iteration 1 sendBuf actualSize eb) (w,unused) trace label s' :=
    run.map id (fun same => same) fun {o s _ _} acted => ⟨generous s.1 o,acted⟩
  have showing := alone_runs (iteration_showing 1 apart) done
  refine ⟨trace,label,s',done,?_⟩
  rw [accepted_outcome accepted,showing.whole ended fits accepted.2]

end

-- The bytes that are transferred behind the packet.
def PaddingAgrees (one two : World) (sendBuf : Ptr) (actualSize : UInt32) (eb : EbPtr) : Prop :=
  one.sdioMutex = none → lengthOf one eb ≤ actualSize → ∀ i, max (packetLength (one.esf eb)) sizeofSipHdr ≤ i → i < transferred (lengthOf one eb) →
    one.mem sendBuf.blk (sendBuf.off + i) = two.mem sendBuf.blk (sendBuf.off + i)

theorem chunksAt_count (m m' : Mem) (start : Ptr) (n : UInt32) : (chunksAt m start n).length = (chunksAt m' start n).length := by
  unfold chunksAt
  split
  · rfl
  split
  · rfl
  · split <;> rfl

theorem packetBytes_congr {m m' : Mem} {b : EsfBuf} (same : m (sourceOf b).blk = m' (sourceOf b).blk) : packetBytes m b = packetBytes m' b := by
  unfold sourceOf at same
  unfold packetBytes commandBytes
  split
  · rename_i command
    rw [if_pos command] at same
    rw [show m.read b.bufBegin b.dataLen.toNat = m'.read b.bufBegin b.dataLen.toNat from read_congr fun _ _ => congrFun same _]
  · rename_i data
    rw [if_neg data] at same
    rw [show m.read b.dsBuf b.dsLength.val = m'.read b.dsBuf b.dsLength.val from read_congr fun _ _ => congrFun same _]

theorem written_byte (m : Mem) (p : Ptr) (bytes : List UInt8) (i : Nat) :
    (m.write p bytes) p.blk (p.off + i) = if i < bytes.length then bytes.getD i 0 else m p.blk (p.off + i) := by
  simp only [Mem.write,Nat.le_add_right,true_and,Nat.add_lt_add_iff_left,Nat.add_sub_cancel_left]

section
variable {one two : World} {sendBuf : Ptr} {actualSize : UInt32} {eb : EbPtr}

theorem filled_alike (apart : Apart sendBuf (one.esf eb)) (alike : Alike sendBuf.blk one two) :
    filled two sendBuf eb = two.mem.write sendBuf (numbered (packetBytes one.mem (one.esf eb)) one.sip.txseq) := by
  have esf : two.esf = one.esf := by rw [alike.rest]
  have sip : two.sip = one.sip := by rw [alike.rest]
  rw [filled,esf,sip,packetBytes_congr (alike.elsewhere _ apart)]

theorem chunks_alike_iff (apart : Apart sendBuf (one.esf eb)) (alike : Alike sendBuf.blk one two) : chunksOf one sendBuf eb = chunksOf two sendBuf eb ↔
    ∀ i, max (packetLength (one.esf eb)) sizeofSipHdr ≤ i → i < transferred (lengthOf one eb) →
      one.mem sendBuf.blk (sendBuf.off + i) = two.mem sendBuf.blk (sendBuf.off + i) := by
  have length : lengthOf two eb = lengthOf one eb := by
    unfold lengthOf
    rw [alike.rest]
  have packet : (numbered (packetBytes one.mem (one.esf eb)) one.sip.txseq).length = max (packetLength (one.esf eb)) sizeofSipHdr := by
    rw [numbered_length (packet_whole _ _),packetBytes_length]
  rw [chunksOf,chunksOf,length,chunksAt_iff,filled_alike apart alike]
  unfold filled
  simp only [written_byte,packet]
  constructor
  · intro same i behind less
    have here := same i less
    rw [if_neg (Nat.not_lt.mpr behind),if_neg (Nat.not_lt.mpr behind)] at here
    exact here
  · intro same i less
    by_cases inside : i < max (packetLength (one.esf eb)) sizeofSipHdr
    · rw [if_pos inside,if_pos inside]
    · rw [if_neg inside,if_neg inside]
      exact same i (Nat.not_lt.mp inside) less

theorem wifi_alike_iff (apart : Apart sendBuf (one.esf eb)) (alike : Alike sendBuf.blk one two) :
    (∀ n, SeenAlike (recorder.act .wifiSend) (iteration n sendBuf actualSize eb) outcome onBus (one,unused) (two,unused)) ↔
      PaddingAgrees one two sendBuf actualSize eb := by
  have esf : two.esf = one.esf := by rw [alike.rest]
  have sip : two.sip = one.sip := by rw [alike.rest]
  have mutex : two.sdioMutex = one.sdioMutex := by rw [alike.rest]
  have length : lengthOf two eb = lengthOf one eb := by rw [lengthOf,lengthOf,esf,sip]
  have count : (chunksOf two sendBuf eb).length = (chunksOf one sendBuf eb).length := by
    rw [chunksOf,chunksOf,length]
    exact chunksAt_count _ _ _ _
  have apart' : Apart sendBuf (two.esf eb) := by
    rw [esf]
    exact apart
  constructor
  · intro every free fits
    have agree := (seenAlike_iff (iteration_shows 1 apart) (iteration_shows 1 apart')).mp (every 1)
    have sends := iteration_sends (mutex.trans free) (length ▸ fits) apart'
    rw [count] at sends
    have same := agree _ (iteration_sends free fits apart) sends
    simp only [List.length_replicate,List.take_length] at same
    rw [← count,List.take_length] at same
    exact (chunks_alike_iff apart alike).mp same
  · intro agrees n
    rw [seenAlike_iff (iteration_shows n apart) (iteration_shows n apart')]
    intro o attained _
    rcases sent_when apart attained with none | sending
    · rw [none]
      exact List.take_zero.trans List.take_zero.symm
    · obtain ⟨free,fits⟩ := sending
      rw [(chunks_alike_iff apart alike).mpr (agrees free fits)]

end

-- What two earlier histories of a buffer must not show.
def WriteMemUnseen (t : Task) (one two : World) (addr : UInt32) (buf : Ptr) (len : UInt32) : Prop :=
  SeenAlike (recorder.act t) (espSipWriteMem addr buf len) outcome onBus (one,unused) (two,unused)

def WifiUnseen (one two : World) (sendBuf : Ptr) (actualSize : UInt32) (eb : EbPtr) : Prop :=
  ∀ n, SeenAlike (recorder.act .wifiSend) (iteration n sendBuf actualSize eb) outcome onBus (one,unused) (two,unused)

theorem unseen_iff {t : Task} {one two one' two' : World} {addr len actualSize : UInt32} {buf sendBuf : Ptr} {eb : EbPtr}
    (ready : Ready one buf.blk) (alike : Alike (transmitBuf one).blk one two)
    (apart : Apart sendBuf (one'.esf eb)) (alike' : Alike sendBuf.blk one' two') :
    (WriteMemUnseen t one two addr buf len ↔ len = 0 ∨ SameFc one.mem two.mem (transmitBuf one)) ∧
    (WifiUnseen one' two' sendBuf actualSize eb ↔ PaddingAgrees one' two' sendBuf actualSize eb) :=
  ⟨writeMem_alike_iff ready alike,wifi_alike_iff apart alike'⟩

-- A buffer that is zero at first and has `byte` from some place on.
def stale (blks : UInt16) (buffer : Ptr) (byte : UInt8) : World :=
  {World.initial {espSipInit with txBlksz := blks} with mem := fun blk i => if blk = buffer.blk ∧ buffer.off ≤ i then byte else 0}

theorem stale_alike (blks : UInt16) (buffer : Ptr) (first second : UInt8) :
    Alike buffer.blk (stale blks buffer first) (stale blks buffer second) := by
  constructor
  · intro other apart
    funext i
    show (if other = buffer.blk ∧ buffer.off ≤ i then second else 0) = if other = buffer.blk ∧ buffer.off ≤ i then first else 0
    rw [if_neg (fun here => apart here.1),if_neg (fun here => apart here.1)]
  · rfl

theorem stale_ready (blks : UInt16) (buffer : Ptr) (byte : UInt8) : Ready (stale blks buffer byte) (⟨0,0⟩ : Ptr).blk :=
  ⟨Nat.zero_lt_one,nofun⟩

theorem stale_apart (blks : UInt16) (buffer : Ptr) (byte : UInt8) : Apart ⟨2,0⟩ ((stale blks buffer byte).esf 1) :=
  show (0 : Nat) ≠ 2 by decide

-- Old bytes behind the header, and a packet that fills its block.
theorem behind_header_unseen : WriteMemUnseen .appMain (stale 512 ⟨1,2⟩ 0) (stale 512 ⟨1,2⟩ 255) 0x40100000 ⟨0,0⟩ 8 ∧
    WifiUnseen (stale 4 ⟨2,0⟩ 0) (stale 4 ⟨2,0⟩ 255) ⟨2,0⟩ wifiSendBufferLen 1 := by
  have both : (WriteMemUnseen .appMain (stale 512 ⟨1,2⟩ 0) (stale 512 ⟨1,2⟩ 255) 0x40100000 ⟨0,0⟩ 8 ↔ _) ∧
      (WifiUnseen (stale 4 ⟨2,0⟩ 0) (stale 4 ⟨2,0⟩ 255) ⟨2,0⟩ wifiSendBufferLen 1 ↔ _) :=
    unseen_iff (stale_ready 512 ⟨1,2⟩ 0) (stale_alike 512 ⟨1,2⟩ 0 255) (stale_apart 4 ⟨2,0⟩ 0) (stale_alike 4 ⟨2,0⟩ 0 255)
  constructor
  · exact both.1.mpr (.inr ⟨rfl,rfl⟩)
  · apply both.2.mpr
    intro _ _ i behind less
    have packet : max (packetLength ((stale 4 ⟨2,0⟩ 0).esf 1)) sizeofSipHdr = 12 := by decide
    have bytes : transferred (lengthOf (stale 4 ⟨2,0⟩ 0) 1) = 12 := by decide
    omega

-- An old second byte of a header, and a header alone in a block of 512 bytes.
theorem old_bytes_seen : (¬ ∀ (t : Task) (one two : World) (addr : UInt32) (buf : Ptr) (len : UInt32), Ready one buf.blk →
      Alike (transmitBuf one).blk one two → WriteMemUnseen t one two addr buf len) ∧
    ¬ ∀ (one two : World) (sendBuf : Ptr) (actualSize : UInt32) (eb : EbPtr), Apart sendBuf (one.esf eb) → Alike sendBuf.blk one two →
      WifiUnseen one two sendBuf actualSize eb := by
  constructor
  · intro every
    have ready := stale_ready 512 ⟨1,0⟩ 0
    have alike := stale_alike 512 ⟨1,0⟩ 0 255
    rcases (writeMem_alike_iff ready alike).mp (every .appMain _ _ 0x40100000 ⟨0,0⟩ 8 ready alike) with empty | same
    · exact absurd empty (by decide)
    · have wrong : (0 : UInt8) = 255 := same.second
      exact absurd wrong (by decide)
  · intro every
    have apart := stale_apart 512 ⟨2,0⟩ 0
    have alike := stale_alike 512 ⟨2,0⟩ 0 255
    have agrees := (wifi_alike_iff apart alike).mp (every _ _ ⟨2,0⟩ wifiSendBufferLen 1 apart alike) rfl (by decide) 12 (by decide) (by decide)
    have wrong : (0 : UInt8) = 255 := agrees
    exact absurd wrong (by decide)

end ExtConn.OldPadding
