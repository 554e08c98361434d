import ExtConn.ReceiveDispatch

namespace ExtConn.RejectedBuffer
open Effects ByteMemory ReceiveBuffer ReceiveBounds RxStream ReceiveDispatch

def validLen (hdr : SipHdr) : Prop := ¬ (hdr.len ≤ 0 ∨ hdr.len &&& 3 ≠ 0)

instance : Decidable (validLen hdr) := inferInstanceAs (Decidable (¬ _))

-- A packet as it arrives: whole, and as long as its length field says where
-- that field is valid.
structure Framed (p : Packet) : Prop where
  whole : sizeofSipHdr ≤ p.length
  size : validLen (sipHdrOf p) → (sipHdrOf p).len.toNat = p.length

-- How many packets of a buffer the host counts: all of them, or those ahead of
-- the first one it rejects, and that one too if only its number is wrong.
def hostCount : UInt32 → List Packet → Nat
  | _,[] => 0
  | seq,p :: rest =>
    if ¬ validLen (sipHdrOf p) then 0 else if (sipHdrOf p).seq ≠ seq then 1 else hostCount (seq + 1) rest + 1

def passes : UInt32 → List Packet → Prop
  | _,[] => True
  | seq,p :: rest => accepted (sipHdrOf p) seq ∧ passes (seq + 1) rest

instance decidablePasses : (seq : UInt32) → (packets : List Packet) → Decidable (passes seq packets)
  | _,[] => isTrue trivial
  | seq,p :: rest =>
    have := decidablePasses (seq + 1) rest
    inferInstanceAs (Decidable (accepted (sipHdrOf p) seq ∧ passes (seq + 1) rest))

-- The same over one buffer after another.
def hostCountAll : UInt32 → List (List Packet) → Nat
  | _,[] => 0
  | seq,packets :: rest => hostCount seq packets + hostCountAll (seq + UInt32.ofNat (hostCount seq packets)) rest

-- The packets it leaves uncounted: from one with an invalid length on, or those
-- behind one with an unexpected number.
def missed : UInt32 → List Packet → Nat
  | _,[] => 0
  | seq,p :: rest =>
    if ¬ validLen (sipHdrOf p) then rest.length + 1 else if (sipHdrOf p).seq ≠ seq then rest.length else missed (seq + 1) rest

def missedAll : UInt32 → List (List Packet) → Nat
  | _,[] => 0
  | seq,packets :: rest => missed seq packets + missedAll (seq + UInt32.ofNat (hostCount seq packets)) rest

theorem count_missed (seq : UInt32) (packets : List Packet) : hostCount seq packets + missed seq packets = packets.length := by
  induction packets generalizing seq with
  | nil => rfl
  | cons p rest ih =>
      have later := ih (seq + 1)
      rw [hostCount,missed,List.length_cons]
      split
      · omega
      · split
        · omega
        · omega

theorem count_missed_all (seq : UInt32) (buffers : List (List Packet)) :
    hostCountAll seq buffers + missedAll seq buffers = buffers.flatten.length := by
  induction buffers generalizing seq with
  | nil => rfl
  | cons packets rest ih =>
      have here := count_missed seq packets
      have later := ih (seq + UInt32.ofNat (hostCount seq packets))
      rw [hostCountAll,missedAll,List.flatten_cons,List.length_append]
      omega

-- One turn of the loop at a packet that is not accepted.
theorem reject_run {w : World} {s s' : OpenState} {r : UInt32} (same : Undisturbed w s.1)
    (rejected : ¬ accepted (hdrAt w.mem o) w.sip.rxseq) (nonzero : r ≠ 0)
    (run : Parses (handleIntr0Loop cfg (fuel + 1) (recvBuf.add o) r) s trace result s') :
    result = .fail ∧ trace.filterMap dispatched = [] ∧
      Undisturbed (advanced w (if validLen (hdrAt w.mem o) then 1 else 0)) s'.1 := by
  rw [handleIntr0Loop_eq cfg fuel _ nonzero] at run
  obtain ⟨s₁,_,_,_,rfl,moved₁,loaded,run⟩ := runs_op.mp run
  obtain ⟨rfl,rfl⟩ := load_acts loaded
  have same₁ := same.trans moved₁
  rw [same₁.read,← hdrAt] at run
  by_cases valid : validLen (hdrAt w.mem o)
  · rw [if_neg valid] at run
    obtain ⟨s₂,sip,s₃,_,rfl,moved₂,got,run⟩ := runs_op.mp run
    obtain ⟨_,ran⟩ := open_act.mp got
    simp only [World.exec,Option.some.injEq,Prod.mk.injEq] at ran
    have same₂ := same₁.trans moved₂
    have counter : sip.rxseq = w.sip.rxseq := by rw [← ran.1,same₂.rxseq]
    have same₃ : Undisturbed w s₃.1 := by rw [← ran.2]; exact same₂
    obtain ⟨s₄,_,s₅,_,rfl,moved₄,set,run⟩ := runs_op.mp run
    obtain ⟨_,stored⟩ := open_act.mp set
    have same₅ := bump_exec (same₃.trans moved₄) counter stored
    have wrong : (hdrAt w.mem o).seq ≠ sip.rxseq := fun right => rejected ⟨valid,right.trans counter⟩
    rw [if_pos wrong] at run
    obtain ⟨rfl,rfl,moved⟩ := runs_pure.mp run
    refine ⟨rfl,rfl,?_⟩
    rw [if_pos valid,← advanced_bumped,advanced_zero]
    exact same₅.trans moved
  · rw [if_pos (Decidable.not_not.mp valid)] at run
    obtain ⟨rfl,rfl,moved⟩ := runs_pure.mp run
    refine ⟨rfl,rfl,?_⟩
    rw [if_neg valid,advanced_zero]
    exact same₁.trans moved

theorem hostCount_rejected {p : Packet} (rejected : ¬ accepted (sipHdrOf p) seq) (rest : List Packet) :
    hostCount seq (p :: rest) = if validLen (sipHdrOf p) then 1 else 0 := by
  unfold hostCount
  by_cases valid : validLen (sipHdrOf p)
  · have wrong : (sipHdrOf p).seq ≠ seq := fun right => rejected ⟨valid,right⟩
    rw [if_neg (not_not_intro valid),if_pos wrong,if_pos valid]
  · rw [if_pos valid,if_neg valid]

theorem hostCount_accepted {p : Packet} (taken : accepted (sipHdrOf p) seq) (rest : List Packet) :
    hostCount seq (p :: rest) = hostCount (seq + 1) rest + 1 := by
  have valid : validLen (sipHdrOf p) := taken.1
  rw [hostCount,if_neg (not_not_intro valid),if_neg (not_not_intro taken.2)]

-- The loop over a buffer that may be rejected.
theorem loop_outcome {w : World} (heap : recvBuf.blk < w.fresh) {s s' : OpenState} {r : UInt32} (same : Undisturbed w s.1)
    (framed : ∀ q ∈ p :: rest, Framed q) (bytes : w.mem.read (recvBuf.add o) r.toNat = (p :: rest).flatten)
    (enough : r.toNat ≤ fuel) (run : Parses (handleIntr0Loop cfg fuel (recvBuf.add o) r) s trace result s') :
    (result = if passes w.sip.rxseq (p :: rest) then .ok else .fail) ∧ Undisturbed (advanced w (hostCount w.sip.rxseq (p :: rest))) s'.1 := by
  induction rest generalizing p w s o r fuel trace with
  | nil =>
      have first := framed p List.mem_cons_self
      have whole : 12 ≤ p.length := first.whole
      have header := header_read bytes first.whole
      have total : r.toNat = p.length := by rw [← read_length w.mem (recvBuf.add o) r.toNat,bytes]; simp
      obtain ⟨fuel,rfl⟩ : ∃ k, fuel = k + 1 := ⟨fuel - 1,by omega⟩
      have nonzero : r ≠ 0 := (toNat_ne_zero r).mpr (by omega)
      by_cases taken : accepted (sipHdrOf p) w.sip.rxseq
      · obtain ⟨later,m,_,kept,run⟩ := packet_run heap same (header ▸ taken) nonzero run
        rw [header,if_neg (by rw [len_lt,first.size taken.1]; omega)] at run
        obtain ⟨rfl,rfl,moved⟩ := runs_pure.mp run
        refine ⟨(if_pos ⟨taken,trivial⟩).symm,?_⟩
        rw [hostCount_accepted taken,← advanced_bumped]
        exact (advanced_zero (bumped w)).symm ▸ kept.trans moved
      · obtain ⟨failed,_,kept⟩ := reject_run same (header ▸ taken) nonzero run
        rw [header,← hostCount_rejected taken []] at kept
        exact ⟨failed.trans (if_neg fun all => taken all.1).symm,kept⟩
  | cons q rest ih =>
      have first := framed p List.mem_cons_self
      have others : ∀ x ∈ q :: rest, Framed x := fun x member => framed x (List.mem_cons_of_mem p member)
      have whole : 12 ≤ p.length := first.whole
      have next : 12 ≤ q.length := (others q List.mem_cons_self).whole
      have header := header_read bytes first.whole
      have total : r.toNat = p.length + (q :: rest).flatten.length := by
        rw [← read_length w.mem (recvBuf.add o) r.toNat,bytes,List.flatten_cons,List.length_append]
      have more : 12 ≤ (q :: rest).flatten.length := by simp only [List.flatten_cons,List.length_append]; omega
      obtain ⟨fuel,rfl⟩ : ∃ k, fuel = k + 1 := ⟨fuel - 1,by omega⟩
      have nonzero : r ≠ 0 := (toNat_ne_zero r).mpr (by omega)
      by_cases taken : accepted (sipHdrOf p) w.sip.rxseq
      · obtain ⟨later,m,_,kept,run⟩ := packet_run heap same (header ▸ taken) nonzero run
        have size := first.size taken.1
        have below : (sipHdrOf p).len.toNat < r.toNat := by rw [size]; omega
        have left := len_sub below
        rw [header,if_pos ((len_lt _ _).mpr below),Ptr.add_add,size] at run
        have behind : (bumped w).mem.read (recvBuf.add (o + p.length)) (r - (sipHdrOf p).len.toUInt32).toNat =
            (q :: rest).flatten := by
          rw [left,size,← Ptr.add_add,← read_drop,show p.length + (r.toNat - p.length) = r.toNat by omega]
          show (w.mem.read (recvBuf.add o) r.toNat).drop p.length = _
          rw [bytes,List.flatten_cons,List.drop_left]
        obtain ⟨done,held⟩ := ih (w := bumped w) heap kept others behind (by rw [left,size]; omega) run
        rw [hostCount_accepted taken,← advanced_bumped]
        exact ⟨done.trans (if_congr ⟨fun all => ⟨taken,all⟩,fun all => all.2⟩ rfl rfl),held⟩
      · obtain ⟨failed,_,kept⟩ := reject_run same (header ▸ taken) nonzero run
        rw [header,← hostCount_rejected taken (q :: rest)] at kept
        exact ⟨failed.trans (if_neg fun all => taken all.1).symm,kept⟩

-- A buffer that arrives whole.
structure Whole (packets : List Packet) : Prop where
  some_packet : packets ≠ []
  framed : ∀ p ∈ packets, Framed p
  fits : packets.flatten.length ≤ recvBufLen.toNat

theorem Whole.header {packets : List Packet} (whole : Whole packets) : sizeofSipHdr ≤ packets.flatten.length := by
  cases packets with
  | nil => exact absurd rfl whole.some_packet
  | cons p rest =>
      have first := (whole.framed p List.mem_cons_self).whole
      rw [List.flatten_cons,List.length_append]
      exact Nat.le_trans first (Nat.le_add_right _ _)

theorem parse_outcome {w : World} (heap : recvBuf.blk < w.fresh) {s s' : OpenState} {rlen : UInt32} (same : Undisturbed w s.1)
    (whole : Whole packets) (size : rlen.toNat = packets.flatten.length)
    (bytes : w.mem.read recvBuf packets.flatten.length = packets.flatten)
    (run : Parses (handleIntr0Parse cfg rlen) s trace result s') :
    (result = if passes w.sip.rxseq packets then .ok else .fail) ∧ Undisturbed (advanced w (hostCount w.sip.rxseq packets)) s'.1 := by
  have header := whole.header
  cases packets with
  | nil => exact absurd rfl whole.some_packet
  | cons p rest =>
      unfold handleIntr0Parse at run
      rw [if_neg (not_not_intro (header_whole.mpr (size ▸ header)))] at run
      have content : w.mem.read (recvBuf.add 0) rlen.toNat = (p :: rest).flatten := by
        rw [size]
        exact bytes
      exact loop_outcome heap same whole.framed content (Nat.le_refl _) run

theorem call_outcome {s s' : State} (known : Counted s) (heap : recvBuf.blk < s.1.fresh) (waiting : s.2.unread = packets.flatten)
    (whole : Whole packets) (run : Handles (handleIntr0 cfg waitMs) s trace result s') :
    (result = if passes s.1.sip.rxseq packets then .ok else .fail) ∧
      s'.1.sip.rxseq = s.1.sip.rxseq + UInt32.ofNat (hostCount s.1.sip.rxseq packets) ∧ Ready s' := by
  have some_byte : 0 < packets.flatten.length := Nat.lt_of_lt_of_le (by decide) whole.header
  obtain ⟨rlen,m,parsing,size,content,empty,fetch,parsed,_⟩ := call_fetched known waiting some_byte whole.fits run
  have slave := parse_slave parsed
  have alloc := Nat.lt_of_lt_of_le heap fetch.fresh
  obtain ⟨done,held⟩ := parse_outcome alloc (Undisturbed.refl m.1) whole size content (handles_parses parsed)
  rw [fetch.rxseq] at done held
  refine ⟨done,?_,fetch.parsed slave held.total,Nat.lt_of_lt_of_le alloc held.fresh,by rw [slave]; exact empty⟩
  rw [held.rxseq,← fetch.rxseq]
  rfl

-- One buffer after another, taken or rejected.
theorem calls_counted {start s : State} (ready : Ready start) (whole : ∀ packets ∈ buffers, Whole packets)
    (calls : Calls cfg start buffers results log s) :
    s.1.sip.rxseq = start.1.sip.rxseq + UInt32.ofNat (hostCountAll start.1.sip.rxseq buffers) ∧ Ready s := by
  induction calls with
  | done => exact ⟨by simp [hostCountAll],ready⟩
  | call offered run rest ih =>
      rename_i packets start s₁ waitMs trace result s₂ buffers results log s
      have arrived := whole packets List.mem_cons_self
      obtain ⟨known,heap,waiting⟩ := offered.ready ready arrived.fits
      obtain ⟨_,rxseq,ready₂⟩ := call_outcome known heap waiting arrived run
      obtain ⟨later,ready'⟩ := ih ready₂ fun packets member => whole packets (List.mem_cons_of_mem _ member)
      rw [offered.rxseq] at rxseq
      refine ⟨?_,ready'⟩
      rw [later,rxseq,hostCountAll,UInt32.ofNat_add,UInt32.add_assoc]

-- A well-formed buffer is taken when its numbers are the expected ones.
theorem wellOrdered_all {packets : List Packet} (formed : WellOrdered seq packets) : passes seq packets := by
  induction packets generalizing seq with
  | nil => exact trivial
  | cons p rest ih => exact ⟨formed.1.accepted,ih formed.2⟩

theorem wellOrdered_passes {packets : List Packet} (some_packet : packets ≠ []) (formed : WellOrdered next packets) :
    passes seq packets ↔ seq = next := by
  constructor
  · intro all
    cases packets with
    | nil => exact absurd rfl some_packet
    | cons p rest => exact all.1.2.symm.trans formed.1.inOrder
  · intro same
    subst same
    exact wellOrdered_all formed

theorem wellOrdered_whole {packets : List Packet} (formed : WellOrdered next packets) : ∀ p ∈ packets, Framed p := by
  induction packets generalizing next with
  | nil => exact nofun
  | cons p rest ih =>
      intro q member
      cases List.mem_cons.mp member with
      | inl here =>
          subst here
          exact ⟨formed.1.whole,fun _ => formed.1.size⟩
      | inr later => exact ih formed.2 q later

-- The packets of a buffer carry the numbers from `seq` on.
def Numbered : UInt32 → List Packet → Prop
  | _,[] => True
  | seq,p :: rest => (sipHdrOf p).seq = seq ∧ Numbered (seq + 1) rest

-- With the host in step, a rejected buffer is never counted in full: it is
-- rejected for a length, and the packet with it and those behind are missed.
theorem rejected_missed {packets : List Packet} (numbered : Numbered seq packets) (rejected : ¬ passes seq packets) :
    0 < missed seq packets := by
  induction packets generalizing seq with
  | nil => exact absurd trivial rejected
  | cons p rest ih =>
      by_cases valid : validLen (sipHdrOf p)
      · rw [missed,if_neg (not_not_intro valid),if_neg (not_not_intro numbered.1)]
        exact ih numbered.2 fun all => rejected ⟨⟨valid,numbered.1⟩,all⟩
      · rw [missed,if_pos valid]
        exact Nat.zero_lt_succ _

-- A good buffer is taken in full when the host is in step, and not at all else.
theorem good_taken {s s' : State} (ready : Ready s) (some_packet : packets ≠ []) (fits : packets.flatten.length ≤ recvBufLen.toNat)
    (formed : WellOrdered next packets) (call : Calls cfg s [packets] [result] record s') :
    (result = .ok ∧ record = dispatches cfg 0 packets) ↔ s.1.sip.rxseq = next := by
  have arrived : Whole packets := ⟨some_packet,wellOrdered_whole formed,fits⟩
  constructor
  · intro taken
    cases call with
    | call offered run rest =>
        obtain ⟨known,heap,waiting⟩ := offered.ready ready fits
        obtain ⟨done,_⟩ := call_outcome known heap waiting arrived run
        rw [← offered.rxseq]
        apply (wellOrdered_passes some_packet formed).mp
        by_contra wrong
        rw [if_neg wrong] at done
        exact absurd (done.symm.trans taken.1) (by decide)
  · intro same
    have ordered : WellOrdered s.1.sip.rxseq [packets].flatten := by
      rw [same]
      simpa using formed
    have fitting : ∀ p ∈ [packets], p ≠ [] ∧ p.flatten.length ≤ recvBufLen.toNat := by
      intro p member
      cases List.mem_singleton.mp member
      exact ⟨some_packet,fits⟩
    obtain ⟨results,records,_⟩ := calls_dispatched ready ordered fitting call
    exact ⟨List.singleton_inj.mp results,by simpa using records⟩

-- After any number of buffers, of which any may have been rejected, the next
-- good one is taken exactly when the host was ahead of the slave by the number
-- of packets that it left uncounted.
theorem next_taken_iff {start s s' : State} {first : UInt32} (ready : Ready start) (whole : ∀ packets ∈ buffers, Whole packets)
    (calls : Calls cfg start buffers results log s) (some_packet : packets ≠ [])
    (fits : packets.flatten.length ≤ recvBufLen.toNat)
    (formed : WellOrdered (first + UInt32.ofNat buffers.flatten.length) packets)
    (next : Calls cfg s [packets] [result] record s') :
    (result = .ok ∧ record = dispatches cfg 0 packets) ↔
      start.1.sip.rxseq = first + UInt32.ofNat (missedAll start.1.sip.rxseq buffers) := by
  obtain ⟨rxseq,ready'⟩ := calls_counted ready whole calls
  rw [good_taken ready' some_packet fits formed next]
  rw [rxseq,← count_missed_all start.1.sip.rxseq buffers,Nat.add_comm (hostCountAll _ _),UInt32.ofNat_add,← UInt32.add_assoc]
  exact UInt32.add_left_inj _

theorem one_rejected {start s : State} (ready : Ready start) (whole : Whole packets) (rejected : ¬ passes start.1.sip.rxseq packets)
    (calls : Calls cfg start [packets] results log s) : results = [.fail] := by
  cases calls with
  | call offered run rest =>
      cases rest
      obtain ⟨known,heap,waiting⟩ := offered.ready ready whole.fits
      obtain ⟨failed,_⟩ := call_outcome known heap waiting whole run
      rw [offered.rxseq,if_neg rejected] at failed
      rw [failed]

theorem rejected_runs {start : State} (ready : Ready start) (whole : Whole packets) (rejected : ¬ passes start.1.sip.rxseq packets)
    (next : List Packet) : ∃ results log s result record s', Calls ⟨true,true⟩ start [packets] results log s ∧
      Calls ⟨true,true⟩ s [next] [result] record s' ∧ results = [.fail] := by
  obtain ⟨results,log,s,calls⟩ := calls_exist ⟨true,true⟩ recvWaitMs [packets] start
  obtain ⟨last,record,s',more⟩ := calls_exist ⟨true,true⟩ recvWaitMs [next] s
  have failed := one_rejected ready whole rejected calls
  cases more with
  | call offered run rest =>
      cases rest
      exact ⟨results,log,s,_,_,s',calls,.call offered run .done,failed⟩

-- A packet with an empty length field behind a good one, and two packets to a host
-- that is one ahead of the slave.
def freshLink : State := (World.initial espSipInit,⟨[],0⟩)
def aheadLink : State := (World.initial {espSipInit with rxseq := 1},⟨[],0⟩)
def emptyLength : List Packet := [[0,5,12,0,0,0,0,0,0,0,0,0],[0,5,0,0,0,0,0,0,1,0,0,0]]
def twoPackets : List Packet := [[0,5,12,0,0,0,0,0,0,0,0,0],[0,5,12,0,0,0,0,0,1,0,0,0]]
def continued : List Packet := [[0,5,12,0,0,0,0,0,2,0,0,0]]

theorem freshLink_ready : Ready freshLink := ⟨⟨⟨by decide,by decide⟩,by decide⟩,by decide,rfl⟩
theorem aheadLink_ready : Ready aheadLink := ⟨⟨⟨by decide,by decide⟩,by decide⟩,by decide,rfl⟩

theorem emptyLength_whole : Whole emptyLength := by
  refine ⟨by decide,fun p member => ?_,by decide⟩
  have bytes : ∀ p ∈ emptyLength, sizeofSipHdr ≤ p.length ∧ (validLen (sipHdrOf p) → (sipHdrOf p).len.toNat = p.length) := by decide
  exact ⟨(bytes p member).1,(bytes p member).2⟩

theorem twoPackets_whole : Whole twoPackets := by
  refine ⟨by decide,fun p member => ?_,by decide⟩
  have bytes : ∀ p ∈ twoPackets, sizeofSipHdr ≤ p.length ∧ (validLen (sipHdrOf p) → (sipHdrOf p).len.toNat = p.length) := by decide
  exact ⟨(bytes p member).1,(bytes p member).2⟩

theorem one_whole (whole : Whole packets) : ∀ buffer ∈ [packets], Whole buffer := by
  intro buffer member
  cases List.mem_singleton.mp member
  exact whole

theorem continued_formed : WellOrdered (0 + UInt32.ofNat 2) continued := by
  refine ⟨⟨?_,?_,?_,?_⟩,trivial⟩ <;> decide

-- Behind the first the next buffer is not taken, behind the second it is.
theorem next_after_rejection :
    (∃ log s result record s', Calls ⟨true,true⟩ freshLink [emptyLength] [.fail] log s ∧
      Calls ⟨true,true⟩ s [continued] [result] record s' ∧ ¬ (result = .ok ∧ record = dispatches ⟨true,true⟩ 0 continued)) ∧
    ∃ log s record s', Calls ⟨true,true⟩ aheadLink [twoPackets] [.fail] log s ∧
      Calls ⟨true,true⟩ s [continued] [.ok] record s' ∧ record = dispatches ⟨true,true⟩ 0 continued := by
  constructor
  · obtain ⟨_,log,s,result,record,s',calls,next,rfl⟩ := rejected_runs freshLink_ready emptyLength_whole (by decide) continued
    have taken := next_taken_iff freshLink_ready (one_whole emptyLength_whole) calls (by decide) (by decide) continued_formed next
    exact ⟨log,s,result,record,s',calls,next,mt taken.mp (by decide)⟩
  · obtain ⟨_,log,s,result,record,s',calls,next,rfl⟩ := rejected_runs aheadLink_ready twoPackets_whole (by decide) continued
    have taken := next_taken_iff aheadLink_ready (one_whole twoPackets_whole) calls (by decide) (by decide) continued_formed next
    obtain ⟨rfl,dispatched⟩ := taken.mpr (by decide)
    exact ⟨log,s,record,s',calls,next,dispatched⟩

theorem link_poisoned : ¬ ∀ cfg start s s' first buffers packets results result log record, Ready start →
    (∀ packets ∈ buffers, Whole packets) → Numbered first buffers.flatten → Calls cfg start buffers results log s →
    (∀ r ∈ results, r = .fail) → packets ≠ [] → packets.flatten.length ≤ recvBufLen.toNat →
    WellOrdered (first + UInt32.ofNat buffers.flatten.length) packets → Calls cfg s [packets] [result] record s' →
    result = .ok ∧ record = dispatches cfg 0 packets := by
  intro claim
  obtain ⟨results,log,s,result,record,s',calls,next,failed⟩ :=
    rejected_runs freshLink_ready emptyLength_whole (by decide) continued
  have rejected : ∀ r ∈ results, r = EspErr.fail := by
    rw [failed]
    exact fun r member => List.mem_singleton.mp member
  have taken := claim ⟨true,true⟩ freshLink s s' 0 [emptyLength] continued results result log record freshLink_ready
    (one_whole emptyLength_whole)
    ⟨by decide,by decide,trivial⟩ calls rejected (by decide) (by decide) continued_formed next
  obtain ⟨rxseq,ready⟩ := calls_counted freshLink_ready (one_whole emptyLength_whole) calls
  have same := (good_taken ready (by decide) (by decide) continued_formed next).mp taken
  rw [rxseq] at same
  exact absurd same (by decide)

end ExtConn.RejectedBuffer
