import ExtConn.FirmwareDownload

namespace ExtConn.MemoryPackets
open Effects ByteMemory ExtConn.Sequential FirmwareDownload

-- What an operation takes out of the block of `buf` belongs to `buf`.
def ReadsWithin (buf : Ptr) (len : Nat) : Op → Prop
  | .load p n => p.blk = buf.blk → buf.off ≤ p.off ∧ p.off + n ≤ buf.off + len
  | .sdmmcIoWrite _ _ _ (.mem p) n => p.blk = buf.blk → buf.off ≤ p.off ∧ p.off + n.toNat ≤ buf.off + len
  | _ => True

def padding (len : Nat) : Nat := (len + 3) / 4 * 4 - len

def payloadOf (x : Transfer) : List UInt8 := x.bytes.drop (sipCtrlHdrLen + sizeofSipCmdWriteMemory).toNat

-- The packet of the bytes from `236 * i` on.
structure InPlace (addr : UInt32) (i : Nat) (x : Transfer) : Prop where
  loadaddr : UInt32.ofNat (field x.bytes 12 4) = addr + UInt32.ofNat (236 * i)
  len : (sipHdrOf x.bytes).len.toNat = (payloadOf x).length + 20
  small : (sipHdrOf x.bytes).len.toUInt32 ≤ sipBootBufSize
  function : x.function = 1
  window : x.addr = espSlaveCmd53EndAddr - (sipHdrOf x.bytes).len.toUInt32

structure ExactlySent (m : Mem) (addr : UInt32) (buf : Ptr) (len : Nat) (trace : List Op) (sent : List Transfer) : Prop where
  reads : ∀ o ∈ trace, ReadsWithin buf len o
  payload : sent.flatMap payloadOf = m.read buf len ++ List.replicate (padding len) 0
  packet : ∀ i x, sent[i]? = some x → InPlace addr i x

-- Every call that no bus write and no allocation fails.
def SendsExactly (t : Task) (w : World) (addr : UInt32) (buf : Ptr) (len : UInt32) : Prop :=
  ∀ trace ret s', Runs Eq (recorder.act t) (espSipWriteMem addr buf len) (w,⟨[],false⟩) trace ret s' → Accepted s'.2 →
    ExactlySent w.mem addr buf len.toNat trace s'.2.sent

-- The packets of a plan, one by one and put together.
theorem blockPlan_get {img : Nat → UInt8} {off len : Nat} {addr seq : UInt32} (found : (blockPlan img off addr seq len)[i]? = some c) :
    c.addr = addr + UInt32.ofNat (236 * i) ∧ 0 < c.payload.length ∧ c.payload.length ≤ 236 := by
  have inside : i < (len + 235) / 236 := by
    rw [← blockPlan_length img off addr seq len]
    exact (List.getElem?_eq_some_iff.mp found).1
  simp only [blockPlan,List.getElem?_map,List.getElem?_range inside,Option.map_some,Option.some.injEq] at found
  rw [← found]
  simp only [bytesAt_length,pieceLen]
  refine ⟨trivial,?_,?_⟩ <;> omega

theorem blockPlan_payload (img : Nat → UInt8) (off : Nat) (addr seq : UInt32) (len : Nat) :
    (blockPlan img off addr seq len).flatMap WriteMemory.payload = bytesAt img off ((len + 3) / 4 * 4) := by
  induction len using Nat.strongRecOn generalizing off addr seq with
  | _ len ih =>
      by_cases none : len = 0
      · subst none
        rfl
      · rw [blockPlan_piece img off addr seq (by omega),List.flatMap_cons]
        show bytesAt img off (pieceLen len) ++ _ = _
        rw [ih (len - 236) (by omega)]
        by_cases large : 236 ≤ len
        · have whole : pieceLen len = 236 := by
            unfold pieceLen
            omega
          have total : (len + 3) / 4 * 4 = 236 + (len - 236 + 3) / 4 * 4 := by omega
          rw [whole,total,bytesAt_append]
        · have last : pieceLen len = (len + 3) / 4 * 4 := by
            unfold pieceLen
            omega
          have nothing : (len - 236 + 3) / 4 * 4 = 0 := by omega
          rw [last,nothing]
          exact List.append_nil _

theorem decode_parts {x : Transfer} (decoded : decode x = some c) : payloadOf x = c.payload ∧ UInt32.ofNat (field x.bytes 12 4) = c.addr ∧
    x.function = 1 ∧ (espSlaveCmd53EndAddr - x.addr).toNat = x.bytes.length ∧ (sipHdrOf x.bytes).len.toNat = x.bytes.length := by
  simp only [decode] at decoded
  split at decoded
  · rename_i formed
    obtain ⟨function,window,-,-,len,-⟩ := formed
    cases decoded
    exact ⟨rfl,rfl,function,window,len⟩
  · cases decoded

theorem decode_inPlace {x : Transfer} (decoded : decode x = some c) (at_ : c.addr = addr + UInt32.ofNat (236 * i))
    (some : 0 < c.payload.length) (small : c.payload.length ≤ 236) : InPlace addr i x := by
  obtain ⟨payload,loadaddr,function,window,len⟩ := decode_parts decoded
  have drop : (payloadOf x).length = x.bytes.length - 20 := List.length_drop
  rw [payload] at drop
  have word : (sipHdrOf x.bytes).len.toUInt32.toNat = x.bytes.length := by rw [UInt16.toNat_toUInt32,len]
  constructor
  · rw [loadaddr,at_]
  · rw [len,payload]
    omega
  · have bound : sipBootBufSize.toNat = 256 := rfl
    rw [UInt32.le_iff_toNat_le,word,bound]
    omega
  · exact function
  · have same : espSlaveCmd53EndAddr - x.addr = (sipHdrOf x.bytes).len.toUInt32 := UInt32.toNat_inj.mp (window.trans word.symm)
    have sum := UInt32.sub_eq_iff_eq_add.mp same
    rw [sum,UInt32.add_comm,UInt32.add_sub_cancel]

theorem decoded_payload {xs : List Transfer} {cs : List WriteMemory} (decoded : xs.map decode = cs.map some) :
    xs.flatMap payloadOf = cs.flatMap WriteMemory.payload := by
  induction xs generalizing cs with
  | nil =>
      obtain rfl : cs = [] := List.map_eq_nil_iff.mp decoded.symm
      rfl
  | cons x xs ih =>
      cases cs with
      | nil => cases decoded
      | cons c cs =>
          obtain ⟨first,rest⟩ := List.cons.inj decoded
          rw [List.flatMap_cons,List.flatMap_cons,(decode_parts first).1,ih rest]

-- What a call sends that fails nowhere, whatever the length.
theorem accepted_packets {t : Task} {w : World} {addr len : UInt32} {buf : Ptr} {s' : State} (ready : Ready w buf.blk)
    (run : Runs Eq (recorder.act t) (espSipWriteMem addr buf len) (w,⟨[],false⟩) trace ret s') (accepted : Accepted s'.2) :
    s'.2.sent.map decode = (blockPlan (w.mem buf.blk) buf.off addr w.sip.txseq len.toNat).map some := by
  have holds : wp (alone recorder t) (espSipWriteMem addr buf len) (fun _ s => Accepted s.2 →
      s.2.sent.map decode = (blockPlan (w.mem buf.blk) buf.off addr w.sip.txseq len.toNat).map some) (w,⟨[],false⟩) := ?_
  · exact alone_runs holds run accepted
  apply espSipWriteMem_wp ready
  · intro _ w' accepted
    exact absurd accepted.1 Bool.noConfusion
  · intro ret w' added attempted _ accepted
    obtain rfl := attempted_accepted attempted accepted.2
    have packets := attempted_packets attempted
    rw [attempted_whole attempted,List.take_length] at packets
    exact packets

theorem accepted_payload {t : Task} {w : World} {addr len : UInt32} {buf : Ptr} {s' : State} (ready : Ready w buf.blk)
    (run : Runs Eq (recorder.act t) (espSipWriteMem addr buf len) (w,⟨[],false⟩) trace ret s') (accepted : Accepted s'.2) :
    s'.2.sent.flatMap payloadOf = w.mem.read buf ((len.toNat + 3) / 4 * 4) := by
  rw [decoded_payload (accepted_packets ready run accepted),blockPlan_payload]
  rfl

theorem accepted_inPlace {t : Task} {w : World} {addr len : UInt32} {buf : Ptr} {s' : State} (ready : Ready w buf.blk)
    (run : Runs Eq (recorder.act t) (espSipWriteMem addr buf len) (w,⟨[],false⟩) trace ret s') (accepted : Accepted s'.2)
    (found : s'.2.sent[i]? = some x) : InPlace addr i x := by
  have packets := congrArg (·[i]?) (accepted_packets ready run accepted)
  simp only [List.getElem?_map,found,Option.map_some] at packets
  obtain ⟨c,planned,decoded⟩ := Option.map_eq_some_iff.mp packets.symm
  obtain ⟨at_,some,small⟩ := blockPlan_get planned
  exact decode_inPlace decoded.symm at_ some small

-- A call under the check that its reads stay within the bytes it is given.
def reading (act : Meaning signature State) (buf : Ptr) (len : Nat) : Contract signature State where
  act := act
  rely := Eq
  guar _ _ := True
  safe o _ := ReadsWithin buf len o

section
variable {t : Task} {buf raw src : Ptr} {n : Nat} {s : State}

theorem reading_op {act : Meaning signature State} {o : Op} {next : o.Answer → Code α} {post : α → State → Prop}
    (safe : ReadsWithin buf n o) (rest : ∀ r s', act o s r s' → wp (reading act buf n) (next r) post s') :
    wp (reading act buf n) (Prog.op o next : Code α) post s := by
  intro s₁ same
  cases same
  exact ⟨safe,fun r s' acted => ⟨trivial,rest r s' acted⟩⟩

theorem reading_all {act : Meaning signature State} {p : Code α} (all : p.All (ReadsWithin buf n)) :
    wp (reading act buf n) p (fun _ _ => True) s := by
  apply wp_all (I := fun _ => True) all
  · exact fun _ _ held _ => held
  · exact fun _ _ within _ => ⟨within,fun _ _ _ => ⟨trivial,trivial⟩⟩
  · trivial
  · exact fun _ _ _ => trivial

theorem reading_step {o : Op} {next : o.Answer → Code α} {post : α → State → Prop}
    (holds : wp (reading (accepting t) buf n) (Prog.op o next : Code α) post s) (r : o.Answer) (s' : State)
    (acted : accepting t o s r s') : wp (reading (accepting t) buf n) (next r) post s' :=
  wp_step holds (Eq.refl s) acted

theorem sendPiece_reads {next : EspErr → Code EspErr} {loadaddr : UInt32} {bufsize : UInt16} (other : raw.blk ≠ buf.blk)
    (low : buf.off ≤ src.off) (high : src.off + bufsize.toNat ≤ buf.off + n) (rest : ∀ err, (next err).All (ReadsWithin buf n)) :
    (sendPiece raw src loadaddr bufsize next).All (ReadsWithin buf n) := by
  have writes : ∀ fuel addr (p : Ptr) size, p.blk = raw.blk →
      (writeBytesLoop 1 {increment := incrementFor 1} fuel addr (.mem p) size).All (ReadsWithin buf n) := by
    intro fuel
    induction fuel with
    | zero => exact fun _ _ _ _ => trivial
    | succ fuel ih =>
        intro addr p size same
        rw [writeBytesLoop]
        apply Prog.All.ite
        · intro _
          refine ⟨fun within => absurd (same.symm.trans within) other,fun err => ?_⟩
          apply Prog.All.ite
          · exact fun _ => trivial
          · exact fun _ => ih _ _ _ same
        · exact fun _ => trivial
  refine ⟨trivial,fun _ => ⟨trivial,fun _ => ⟨trivial,fun _ => ⟨trivial,fun _ => ⟨trivial,fun _ => ⟨trivial,fun _ => ⟨trivial,fun _ => ?_⟩⟩⟩⟩⟩⟩⟩
  refine ⟨fun _ => ⟨low,high⟩,fun _ => ⟨trivial,fun _ => ?_⟩⟩
  exact Prog.All.bind (writes _ _ raw _ rfl) rest

theorem round_remains {remains : UInt32} (small : remains.toNat < 236) :
    (roundup remains 4).toUInt16.toNat = (remains.toNat + 3) / 4 * 4 := by
  rw [UInt32.toNat_toUInt16,show (roundup remains 4).toNat = _ from Words.round_four remains (by omega)]
  omega

theorem small_iff (remains : UInt32) : remains < 236 ↔ remains.toNat < 236 := UInt32.lt_iff_toNat_lt

theorem sub_piece {remains : UInt32} (large : 236 ≤ remains.toNat) : (remains - 236).toNat = remains.toNat - 236 :=
  UInt32.toNat_sub_of_le _ _ (UInt32.le_iff_toNat_le.mpr large)

theorem sub_remains {len remains : UInt32} (within : remains.toNat ≤ len.toNat) : (len - remains).toNat = len.toNat - remains.toNat :=
  UInt32.toNat_sub_of_le _ _ (UInt32.le_iff_toNat_le.mpr within)

-- The rounded tail is the tail itself when the length is a multiple of four.
theorem writeMemLoop_reads {addr len : UInt32} (other : raw.blk ≠ buf.blk) (fuel : Nat) {remains : UInt32}
    (within : remains.toNat ≤ len.toNat) (whole : remains.toNat % 4 = 0) :
    (writeMemLoop raw buf addr len fuel remains).All (ReadsWithin buf len.toNat) := by
  induction fuel generalizing remains with
  | zero => exact trivial
  | succ fuel ih =>
      have start := sub_remains within
      have after : ∀ {remains : UInt32} err, remains.toNat ≤ len.toNat → remains.toNat % 4 = 0 →
          (afterPiece raw buf addr len fuel remains err).All (ReadsWithin buf len.toNat) :=
        fun err within whole => Prog.All.ite (fun _ => trivial) fun _ => ih within whole
      by_cases none : remains = 0
      · subst none
        exact trivial
      by_cases small : remains < 236
      · have rounded := round_remains ((small_iff remains).mp small)
        rw [writeMemLoop_last raw buf addr len fuel none small]
        refine ⟨trivial,fun _ => sendPiece_reads other ?_ ?_ fun err => after err (Nat.zero_le _) rfl⟩
        · exact Nat.le_add_right _ _
        · rw [rounded,Ptr.add_off,start]
          omega
      · have large : 236 ≤ remains.toNat := Nat.le_of_not_lt fun less => small ((small_iff remains).mpr less)
        have rest := sub_piece large
        have piece : (236 : UInt16).toNat = 236 := rfl
        rw [writeMemLoop_full raw buf addr len fuel none small]
        refine sendPiece_reads other ?_ ?_ fun err => after err ?_ ?_
        · exact Nat.le_add_right _ _
        · rw [piece,Ptr.add_off,start]
          omega
        · omega
        · omega

theorem fillAndSend_reads {act : Meaning signature State} {addr len : UInt32} (whole : len.toNat % 4 = 0)
    (got : ∀ r s', act .sipGet s r s' → ∀ raw, r.rawbuf = some raw → raw.blk ≠ buf.blk) :
    wp (reading act buf len.toNat) (fillAndSend addr buf len) (fun _ _ => True) s := by
  apply reading_op
  · trivial
  intro sip s' acted
  have apart := got sip s' acted
  cases holds : sip.rawbuf with
  | none => trivial
  | some raw =>
      have other := apart raw holds
      apply reading_all
      exact ⟨fun same => absurd same other,fun _ => ⟨trivial,fun _ => ⟨trivial,fun _ =>
        writeMemLoop_reads other _ (Nat.le_refl _) whole⟩⟩⟩

theorem espSipWriteMem_reads {w : World} {d : Recorded} {addr len : UInt32} (ready : Ready w buf.blk) (whole : len.toNat % 4 = 0) :
    wp (reading (recorder.act t) buf len.toNat) (espSipWriteMem addr buf len) (fun _ _ => True) (w,d) := by
  rw [espSipWriteMem_eq]
  apply reading_op
  · trivial
  intro sip s' acted
  obtain ⟨ans,ran⟩ := act_exec acted
  obtain ⟨w',d'⟩ := s'
  cases ran
  apply wp_ite
  · intro none
    apply reading_op
    · trivial
    intro p s₁ acted
    obtain ⟨ans,ran⟩ := act_exec acted
    obtain ⟨w₁,d₁⟩ := s₁
    apply reading_op
    · trivial
    intro _ s₂ acted
    obtain ⟨_,set⟩ := act_exec acted
    obtain ⟨w₂,d₂⟩ := s₂
    cases set
    apply wp_ite
    · exact fun _ => trivial
    · intro got
      apply fillAndSend_reads whole
      intro sip s' acted raw holds
      obtain ⟨_,read⟩ := act_exec acted
      obtain ⟨w',d'⟩ := s'
      cases read
      have fresh : p = some ⟨w.fresh,0⟩ := by
        cases granted : ans.flag with
        | false =>
            simp only [World.exec,granted] at ran
            cases ran
            exact absurd rfl got
        | true =>
            simp only [World.exec,granted] at ran
            cases ran
            rfl
      have same : p = some raw := holds
      cases fresh.symm.trans same
      exact Ne.symm (Nat.ne_of_lt ready.old)
  · intro _
    apply fillAndSend_reads whole
    intro sip s' acted raw holds
    obtain ⟨_,read⟩ := act_exec acted
    obtain ⟨w',d'⟩ := s'
    cases read
    exact ready.apart raw holds

-- Conversely the last piece has to end where the bytes given end.
theorem writeMemLoop_needs {addr len : UInt32} {post : EspErr → State → Prop} {fuel : Nat} {remains : UInt32}
    (within : remains.toNat ≤ len.toNat) (enough : remains.toNat ≤ fuel)
    (holds : wp (reading (accepting t) buf len.toNat) (writeMemLoop raw buf addr len fuel remains) post s) : remains.toNat % 4 = 0 := by
  induction fuel generalizing remains s with
  | zero => omega
  | succ fuel ih =>
      have start := sub_remains within
      by_cases none : remains = 0
      · subst none
        rfl
      by_cases small : remains < 236
      · rw [writeMemLoop_last raw buf addr len fuel none small] at holds
        have sizes := reading_step holds _ _ rfl
        unfold sendPiece at sizes
        iterate 7 replace sizes := reading_step sizes _ _ rfl
        have inside := wp_safe sizes (Eq.refl _) rfl
        rw [round_remains ((small_iff remains).mp small),Ptr.add_off,start] at inside
        omega
      · have large : 236 ≤ remains.toNat := Nat.le_of_not_lt fun less => small ((small_iff remains).mpr less)
        have rest := sub_piece large
        have aligned : ((236 + 20 : UInt16).toUInt32 + 3) &&& ~~~3 = (236 + 20 : UInt16).toUInt32 := by decide
        rw [writeMemLoop_full raw buf addr len fuel none small] at holds
        unfold sendPiece at holds
        rw [aligned,writeBytes_aligned _ _ _ (by decide) (by decide)] at holds
        simp only [Prog.op_bind,Prog.pure_bind] at holds
        iterate 10 replace holds := reading_step holds _ _ rfl
        have later := ih (by omega) (by omega) holds
        omega

theorem fillAndSend_needs {addr len : UInt32} {post : EspErr → State → Prop} (holds : s.1.sip.rawbuf = some raw)
    (within : wp (reading (accepting t) buf len.toNat) (fillAndSend addr buf len) post s) : len.toNat % 4 = 0 := by
  have later := reading_step within _ _ rfl
  simp only [holds] at later
  iterate 3 replace later := reading_step later _ _ rfl
  exact writeMemLoop_needs (Nat.le_refl _) (Nat.le_refl _) later

theorem espSipWriteMem_needs {addr len : UInt32} {post : EspErr → State → Prop}
    (within : wp (reading (accepting t) buf len.toNat) (espSipWriteMem addr buf len) post s) : len.toNat % 4 = 0 := by
  rw [espSipWriteMem_eq] at within
  have later := reading_step within s.1.sip s rfl
  by_cases none : s.1.sip.rawbuf = none
  · rw [if_pos none] at later
    have given := reading_step later (some ⟨s.1.fresh,0⟩) _ rfl
    have set := reading_step given _ _ rfl
    rw [if_neg (Option.some_ne_none _)] at set
    exact fillAndSend_needs rfl set
  · obtain ⟨raw,holds⟩ := Option.ne_none_iff_exists'.mp none
    rw [if_neg none] at later
    exact fillAndSend_needs holds later

end

theorem sendsExactly_needs {t : Task} {w : World} {addr len : UInt32} {buf : Ptr} (exact_ : SendsExactly t w addr buf len) :
    len.toNat % 4 = 0 := by
  have ready := espSipWriteMem_ready addr len buf
  have within : wp (reading (accepting t) buf len.toNat) (espSipWriteMem addr buf len) (fun _ _ => True) (w,⟨[],false⟩) := by
    apply (wp_exact fun _ _ => trivial).mpr
    intro o m issued
    obtain ⟨trace,ret,s',run,member⟩ := issued.runs (fun s => (rfl : s = s)) (accepting_free ready t)
    obtain ⟨whole,accepted⟩ := accepting_run ready run
    exact (exact_ trace ret s' whole accepted).reads o member
  exact espSipWriteMem_needs within

theorem sendsExactly_iff {t : Task} {w : World} {addr len : UInt32} {buf : Ptr} (ready : Ready w buf.blk) :
    SendsExactly t w addr buf len ↔ len.toNat % 4 = 0 := by
  constructor
  · exact sendsExactly_needs
  · intro whole trace ret s' run accepted
    have rounded : (len.toNat + 3) / 4 * 4 = len.toNat := by omega
    have payload := accepted_payload ready run accepted
    constructor
    · intro o member
      obtain ⟨m,issued⟩ := run.issues member
      exact wp_issues (C := reading (recorder.act t) buf len.toNat) (espSipWriteMem_reads ready whole) issued
    · rw [payload,padding,rounded,Nat.sub_self]
      exact (List.append_nil _).symm
    · intro i x found
      exact accepted_inPlace ready run accepted found

-- Five hundred bytes of an image are sent exactly, five are not.
def counting : World := {World.initial espSipInit with mem := fun _ i => UInt8.ofNat i}

theorem five_hundred_sent : SendsExactly .appMain counting 0x40100000 ⟨0,0⟩ 500 ∧
    ∃ trace ret s', Runs Eq (recorder.act .appMain) (espSipWriteMem 0x40100000 ⟨0,0⟩ 500) (counting,⟨[],false⟩) trace ret s' ∧
      s'.2.sent.flatMap payloadOf = (List.range 500).map UInt8.ofNat := by
  have ready : Ready counting (⟨0,0⟩ : Ptr).blk := ⟨Nat.zero_lt_one,nofun⟩
  have exact_ : SendsExactly .appMain counting 0x40100000 ⟨0,0⟩ 500 := (sendsExactly_iff ready).mpr rfl
  obtain ⟨trace,ret,s',run,accepted⟩ := accepted_run (espSipWriteMem_ready 0x40100000 500 ⟨0,0⟩) .appMain counting
  refine ⟨exact_,trace,ret,s',run,(exact_ trace ret s' run accepted).payload.trans ?_⟩
  simp [counting,Mem.read,padding]

theorem five_bytes_not_sent : ¬ ∀ (t : Task) (w : World) (addr len : UInt32) (buf : Ptr), Ready w buf.blk → SendsExactly t w addr buf len := by
  intro every
  have ready : Ready (World.initial espSipInit) (⟨0,0⟩ : Ptr).blk := ⟨Nat.zero_lt_one,nofun⟩
  have whole := sendsExactly_needs (every .appMain (World.initial espSipInit) 0x40100000 5 ⟨0,0⟩ ready)
  exact absurd whole (by decide)

end ExtConn.MemoryPackets
