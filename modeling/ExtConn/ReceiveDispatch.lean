import ExtConn.ReceiveBounds
import ExtConn.ReceiveSessions

namespace ExtConn.ReceiveDispatch
open Effects ByteMemory ReceiveBuffer ReceiveBounds RxStream ReceiveSessions

abbrev Packet := List UInt8

-- One packet of a stream, as the slave composes it.
structure WellFormed (seq : UInt32) (p : Packet) : Prop where
  size : (sipHdrOf p).len.toNat = p.length
  aligned : p.length % 4 = 0
  whole : sizeofSipHdr ≤ p.length
  inOrder : (sipHdrOf p).seq = seq

def WellOrdered : UInt32 → List Packet → Prop
  | _,[] => True
  | seq,p :: rest => WellFormed seq p ∧ WellOrdered (seq + 1) rest

-- The calls that the packets of one buffer are due, the first packet being at
-- offset `o`.
def dispatches (cfg : Build) : Nat → List Packet → List Dispatch
  | _,[] => []
  | o,p :: rest => (dispatchOf cfg (recvBuf.add o) (sipHdrOf p)).toList ++ dispatches cfg (o + p.length) rest

-- The calls found in the record of a run.
def dispatched : Op → Option Dispatch
  | .note (.parseEvents buf) => some (.parseEvents buf)
  | .sipRxProcess buf len => some (.sipRxProcess buf len)
  | _ => none

theorem header_taken (p : Packet) : sipHdrOf (p.take sizeofSipHdr) = sipHdrOf p := by
  unfold sipHdrOf field sizeofSipHdr
  simp [List.getD_eq_getElem?_getD,List.drop_take,List.take_take]

theorem WellFormed.accepted {p : Packet} (formed : WellFormed seq p) : accepted (sipHdrOf p) seq := by
  have size := formed.size
  have aligned := formed.aligned
  have whole : 12 ≤ p.length := formed.whole
  refine ⟨?_,formed.inOrder⟩
  rintro (low | odd)
  · rw [UInt16.le_iff_toNat_le] at low
    have zero : (0 : UInt16).toNat = 0 := rfl
    omega
  · apply odd
    apply UInt16.toNat_inj.mp
    have three : (3 : UInt16).toNat = 2 ^ 2 - 1 := rfl
    have zero : (0 : UInt16).toNat = 0 := rfl
    rw [UInt16.toNat_and,three,Nat.and_two_pow_sub_one_eq_mod,size,zero]
    exact aligned

theorem quiet_undispatched {o : Op} (quiet : o.quiet = true) : dispatched o = none := by
  cases o <;> first | rfl | cases quiet

theorem filterMap_none {trace : List Op} (nothing : ∀ o ∈ trace, dispatched o = none) : trace.filterMap dispatched = [] :=
  List.filterMap_eq_nil_iff.mpr nothing

theorem switch_undispatched (cfg : Build) (buf : Ptr) (evtid : UInt8) :
    (parseSwitch cfg buf evtid).All fun o : Op => dispatched o = none := by
  refine parseSwitch_all (fun o quiet => quiet_undispatched quiet) (fun _ _ => rfl) (fun _ _ => rfl) (fun _ => rfl) rfl rfl rfl
    ?_ (fun _ _ _ _ => rfl) (fun _ => rfl) cfg buf evtid
  intro n other
  cases n
  case parseEvents buf => exact absurd rfl (other buf)
  all_goals rfl

-- One packet leaves exactly its own call in the record.
theorem dispatch_records {rely : σ → σ → Prop} {act : Meaning signature σ} (reflexive : ∀ s, rely s s) {buf : Ptr} {hdr : SipHdr}
    (run : Runs rely act (dispatch cfg buf hdr) s trace result s') :
    trace.filterMap dispatched = (dispatchOf cfg buf hdr).toList := by
  unfold dispatch at run
  cases due : dispatchOf cfg buf hdr with
  | none =>
      simp only [due] at run
      obtain ⟨rfl,_,_⟩ := runs_pure.mp run
      rfl
  | some call =>
      cases call with
      | parseEvents buf =>
          simp only [due,espSipParseEvents,loadSipHdr,Prog.bind_def,issue_bind,Prog.op_bind,Prog.pure_bind,Prog.pure_def]
            at run
          obtain ⟨_,_,_,_,rfl,_,_,run⟩ := runs_op.mp run
          obtain ⟨_,_,_,_,rfl,_,_,run⟩ := runs_op.mp run
          obtain ⟨_,_,_,_,rfl,switched,rest⟩ := run.unbind reflexive
          obtain ⟨rfl,_,_⟩ := runs_pure.mp rest
          rw [List.append_nil]
          have nothing := filterMap_none (switched.all (switch_undispatched cfg buf _))
          exact congrArg (Dispatch.parseEvents buf :: ·) nothing
      | sipRxProcess buf len =>
          simp only [due] at run
          obtain ⟨_,_,_,_,rfl,_,_,run⟩ := runs_op.mp run
          obtain ⟨rfl,_,_⟩ := runs_pure.mp run
          rfl

-- What a run of the parsing relies on: the world around it is undisturbed.
abbrev Parses (p : Code α) (s : OpenState) (trace : List Op) (result : α) (s' : OpenState) : Prop :=
  Runs disturbed (openSlave.act .transRecv) p s trace result s'

def advanced (w : World) (n : Nat) : World := {w with sip := {w.sip with rxseq := w.sip.rxseq + UInt32.ofNat n}}

theorem advanced_zero (w : World) : advanced w 0 = w := by
  simp [advanced]

theorem advanced_bumped (w : World) (n : Nat) : advanced (bumped w) n = advanced w (n + 1) := by
  simp [advanced,bumped,UInt32.add_assoc,UInt32.add_comm]

theorem dispatch_undisturbed {w : World} (heap : recvBuf.blk < w.fresh) {s s' : OpenState} (same : Undisturbed w s.1)
    (run : Parses (dispatch cfg (recvBuf.add o) (hdrAt w.mem o)) s trace result s') : Undisturbed w s'.1 := by
  have kept : wp (withSafe fun _ _ => True) (dispatch cfg (recvBuf.add o) (hdrAt w.mem o))
      (fun _ s' => Undisturbed w s'.1) s :=
    dispatch_keeps (fun _ _ _ => trivial) heap same (fun _ => trivial) (fun _ _ => trivial) (fun _ _ _ _ => trivial)
      (fun _ _ => trivial)
  exact wp_runs (C := withSafe fun _ _ => True) (fun _ _ _ held moved => held.trans moved) kept run

-- One turn of the loop at an accepted packet.
theorem packet_run {w : World} (heap : recvBuf.blk < w.fresh) {s s' : OpenState} {r : UInt32} (same : Undisturbed w s.1)
    (taken : accepted (hdrAt w.mem o) w.sip.rxseq) (nonzero : r ≠ 0)
    (run : Parses (handleIntr0Loop cfg (fuel + 1) (recvBuf.add o) r) s trace result s') :
    ∃ rest m, trace.filterMap dispatched =
        (dispatchOf cfg (recvBuf.add o) (hdrAt w.mem o)).toList ++ rest.filterMap dispatched ∧
      Undisturbed (bumped w) m.1 ∧
      Parses (if (hdrAt w.mem o).len.toUInt32 < r then
          handleIntr0Loop cfg fuel ((recvBuf.add o).add (hdrAt w.mem o).len.toNat) (r - (hdrAt w.mem o).len.toUInt32)
        else .pure .ok) m rest result s' := by
  rw [handleIntr0Loop_eq cfg fuel _ nonzero] at run
  obtain ⟨s₁,_,_,_,rfl,moved₁,loaded,run⟩ := runs_op.mp run
  obtain ⟨rfl,rfl⟩ := load_acts loaded
  have same₁ := same.trans moved₁
  rw [same₁.read,← hdrAt,if_neg taken.1] at run
  obtain ⟨s₂,sip,s₃,_,rfl,moved₂,got,run⟩ := runs_op.mp run
  obtain ⟨_,ran⟩ := open_act.mp got
  simp only [World.exec,Option.some.injEq,Prod.mk.injEq] at ran
  have same₂ := same₁.trans moved₂
  have counter : sip.rxseq = w.sip.rxseq := by rw [← ran.1,same₂.rxseq]
  have same₃ : Undisturbed w s₃.1 := by rw [← ran.2]; exact same₂
  obtain ⟨s₄,_,s₅,_,rfl,moved₄,set,run⟩ := runs_op.mp run
  obtain ⟨_,stored⟩ := open_act.mp set
  have same₅ := bump_exec (same₃.trans moved₄) counter stored
  rw [if_neg (by rw [counter]; exact Decidable.not_not.mpr taken.2)] at run
  obtain ⟨one,rest,_,m,rfl,handed,run⟩ := run.unbind still
  have kept := dispatch_undisturbed (w := bumped w) heap same₅ handed
  refine ⟨rest,m,?_,kept,run⟩
  have record : one.filterMap dispatched = _ := dispatch_records still handed
  rw [← record]
  exact List.filterMap_append

theorem header_read {m : Mem} {p : Packet} (bytes : m.read (recvBuf.add o) n = p ++ more) (whole : sizeofSipHdr ≤ p.length) :
    hdrAt m o = sipHdrOf p := by
  have total : n = p.length + more.length := by rw [← List.length_append,← bytes,read_length]
  have first : m.read (recvBuf.add o) sizeofSipHdr = p.take sizeofSipHdr := by
    rw [← read_take m (recvBuf.add o) (show sizeofSipHdr ≤ n by omega),bytes,List.take_append_of_le_length whole]
  rw [hdrAt,first,header_taken]

-- The loop over the packets of one buffer: `r` bytes are left from offset `o` on.
theorem loop_run {w : World} (heap : recvBuf.blk < w.fresh) {s s' : OpenState} {r : UInt32} (same : Undisturbed w s.1)
    (formed : WellOrdered w.sip.rxseq (p :: rest)) (bytes : w.mem.read (recvBuf.add o) r.toNat = (p :: rest).flatten)
    (enough : r.toNat ≤ fuel) (run : Parses (handleIntr0Loop cfg fuel (recvBuf.add o) r) s trace result s') :
    result = .ok ∧ trace.filterMap dispatched = dispatches cfg o (p :: rest) ∧
      Undisturbed (advanced w (p :: rest).length) s'.1 := by
  induction rest generalizing p w s o r fuel trace with
  | nil =>
      obtain ⟨first,_⟩ := formed
      have whole : 12 ≤ p.length := first.whole
      have header := header_read bytes first.whole
      have total : r.toNat = p.length := by rw [← read_length w.mem (recvBuf.add o) r.toNat,bytes]; simp
      obtain ⟨fuel,rfl⟩ : ∃ k, fuel = k + 1 := ⟨fuel - 1,by omega⟩
      obtain ⟨later,m,record,kept,run⟩ :=
        packet_run heap same (header ▸ first.accepted) ((toNat_ne_zero r).mpr (by omega)) run
      rw [header,if_neg (by rw [len_lt,first.size]; omega)] at run
      obtain ⟨rfl,rfl,moved⟩ := runs_pure.mp run
      refine ⟨rfl,by rw [record,header]; rfl,?_⟩
      have held := kept.trans moved
      rwa [← advanced_zero (bumped w),advanced_bumped] at held
  | cons q rest ih =>
      obtain ⟨first,others⟩ := formed
      have whole : 12 ≤ p.length := first.whole
      have next : 12 ≤ q.length := others.1.whole
      have header := header_read bytes first.whole
      have total : r.toNat = p.length + (q :: rest).flatten.length := by
        rw [← read_length w.mem (recvBuf.add o) r.toNat,bytes,List.flatten_cons,List.length_append]
      have more : 12 ≤ (q :: rest).flatten.length := by simp only [List.flatten_cons,List.length_append]; omega
      obtain ⟨fuel,rfl⟩ : ∃ k, fuel = k + 1 := ⟨fuel - 1,by omega⟩
      obtain ⟨later,m,record,kept,run⟩ :=
        packet_run heap same (header ▸ first.accepted) ((toNat_ne_zero r).mpr (by omega)) run
      have below : (sipHdrOf p).len.toNat < r.toNat := by rw [first.size]; omega
      have left := len_sub below
      rw [header,if_pos ((len_lt _ _).mpr below),Ptr.add_add,first.size] at run
      have behind : (bumped w).mem.read (recvBuf.add (o + p.length)) (r - (sipHdrOf p).len.toUInt32).toNat =
          (q :: rest).flatten := by
        rw [left,first.size,← Ptr.add_add,← read_drop,show p.length + (r.toNat - p.length) = r.toNat by omega]
        show (w.mem.read (recvBuf.add o) r.toNat).drop p.length = _
        rw [bytes,List.flatten_cons,List.drop_left]
      obtain ⟨done,records,held⟩ := ih (w := bumped w) heap kept others behind (by rw [left,first.size]; omega) run
      rw [advanced_bumped] at held
      exact ⟨done,by rw [record,header,records]; rfl,held⟩

theorem parse_run {w : World} (heap : recvBuf.blk < w.fresh) {s s' : OpenState} {rlen : UInt32} (same : Undisturbed w s.1)
    (formed : WellOrdered w.sip.rxseq packets) (some_packet : packets ≠ [])
    (bytes : w.mem.read recvBuf rlen.toNat = packets.flatten)
    (run : Parses (handleIntr0Parse cfg rlen) s trace result s') :
    result = .ok ∧ trace.filterMap dispatched = dispatches cfg 0 packets ∧ Undisturbed (advanced w packets.length) s'.1 := by
  cases packets with
  | nil => exact absurd rfl some_packet
  | cons p rest =>
      have total : rlen.toNat = p.length + rest.flatten.length := by
        rw [← read_length w.mem recvBuf rlen.toNat,bytes,List.flatten_cons,List.length_append]
      have whole : sizeofSipHdr ≤ rlen.toNat := Nat.le_trans formed.1.whole (by omega)
      unfold handleIntr0Parse at run
      rw [if_neg (not_not_intro (header_whole.mpr whole))] at run
      exact loop_run heap same formed bytes (Nat.le_refl _) run

-- While a call runs, the slave adds nothing to the buffer it has offered, and
-- the other tasks leave `recv_buf` and the receive counters alone.
structure Calm (s s' : State) : Prop where
  world : Undisturbed s.1 s'.1
  slave : s'.2 = s.2

theorem calm_refl (s : State) : Calm s s := ⟨Undisturbed.refl s.1,rfl⟩

theorem Calm.trans {a b c : State} (one : Calm a b) (two : Calm b c) : Calm a c :=
  ⟨one.world.trans two.world,two.slave.trans one.slave⟩

theorem calm_around {s s' : State} (calm : Calm s s') : Around True recvBuf.blk s s' :=
  ⟨calm.world.total,calm.world.buffer,by rw [calm.slave]; exact appends_refl True s.2⟩

abbrev Handles (p : Code α) (s : State) (trace : List Op) (result : α) (s' : State) : Prop :=
  Runs Calm (rxSlave.act .transRecv) p s trace result s'

theorem handles_parses {p : Code α} {s s' : State} (run : Handles p s trace result s') :
    Parses p (s.1,()) trace result (s'.1,()) := by
  refine Runs.map (fun m : State => (m.1,())) (fun calm => calm.world) (fun acted => ?_) run
  obtain ⟨ans,ran⟩ := act_exec acted
  exact open_act.mpr ⟨ans,ran⟩

-- The operations of the transaction that fetches the packets.
def fetching : Op → Bool
  | .sdmmcIoRead _ _ _ _ _ | .hostGet | .hostSet _ | .taskDelay _ => true
  | _ => false

theorem fetching_exec {t : Task} {o : Op} {r : o.Answer} {w w' : World} (kind : fetching o = true)
    (ran : World.exec t o ans w = some (r,w')) : w'.sip = w.sip ∧ w'.fresh = w.fresh := by
  cases o
  case sdmmcIoRead function addr arg dst size =>
    obtain ⟨_,rfl,_⟩ := read_exec ran
    exact ⟨rfl,rfl⟩
  case hostSet a | hostGet | taskDelay ms =>
    all_goals
      simp only [World.exec,Option.some.injEq,Prod.mk.injEq] at ran
      rw [← ran.2]
      exact ⟨rfl,rfl⟩
  all_goals cases kind

theorem fetching_undispatched {o : Op} (kind : fetching o = true) : dispatched o = none := by
  cases o <;> first | rfl | cases kind

theorem getPacket_fetching (size waitMs : UInt32) :
    (espExtconnSdioGetPacket extConnWifiSdioFunc recvBuf size waitMs).All fun o : Op => fetching o = true :=
  getPacket_all (P := fun o => fetching o = true) (fun _ _ => rfl) (fun _ _ _ _ _ => rfl) rfl (fun _ _ => rfl) rfl recvBuf size waitMs

-- The slave's position is changed by reads only, and the parsing makes none.
def reading : Op → Bool
  | .sdmmcIoRead _ _ _ _ _ => true
  | _ => false

theorem quiet_unread {o : Op} (quiet : o.quiet = true) : reading o = false := by
  cases o <;> first | rfl | cases quiet

theorem parse_unread (cfg : Build) (rlen : UInt32) : (handleIntr0Parse cfg rlen).All fun o : Op => reading o = false :=
  handleIntr0Parse_all (P := fun o => reading o = false) (fun _ => rfl) rfl (fun _ => rfl)
    (parseEvents_all (fun _ quiet => quiet_unread quiet) (fun _ _ => rfl) (fun _ _ => rfl) (fun _ => rfl) rfl rfl rfl (fun _ => rfl)
      (fun _ _ _ _ => rfl) (fun _ => rfl) cfg)
    (fun _ _ => rfl) rlen

theorem unread_act {t : Task} {o : Op} {r : o.Answer} {s s' : State} (kind : reading o = false)
    (acted : rxSlave.act t o s r s') : s'.2 = s.2 := by
  obtain ⟨ans,answered⟩ := act_answers acted
  cases o
  case sdmmcIoRead => cases kind
  all_goals exact (Option.some.inj answered).symm

theorem parse_slave {s s' : State} (run : Handles (handleIntr0Parse cfg rlen) s trace result s') : s'.2 = s.2 :=
  Runs.keeps (I := fun m => m.2 = s.2) (parse_unread cfg rlen) (fun _ _ held calm => calm.slave.trans held)
    (fun _ _ _ _ kind held acted => (unread_act kind acted).trans held) rfl run

-- The world in which a fetched buffer is parsed: everything the walk relies on
-- besides the buffer is still as it was when the call began.
structure Fetch (s m : State) : Prop where
  counted : Counted m
  rxseq : m.1.sip.rxseq = s.1.sip.rxseq
  fresh : s.1.fresh ≤ m.1.fresh

theorem Fetch.calm {s m m' : State} (fetch : Fetch s m) (calm : Calm m m') : Fetch s m' :=
  ⟨fetch.counted.around (calm_around calm),by rw [calm.world.rxseq,fetch.rxseq],Nat.le_trans fetch.fresh calm.world.fresh⟩

theorem mutex_act {t : Task} {s s' : State} {o : Op} {r : o.Answer} (kind : o = .semTake .sdioMutex none ∨ o = .semGive .sdioMutex)
    (acted : rxSlave.act t o s r s') : Calm s s' := by
  have slave : s'.2 = s.2 := by
    rcases kind with rfl | rfl
    · exact unread_act rfl acted
    · exact unread_act rfl acted
  obtain ⟨ans,ran⟩ := act_exec acted
  refine ⟨?_,slave⟩
  rcases kind with rfl | rfl
  · simp only [World.exec] at ran
    split at ran
    · simp only [Option.some.injEq,Prod.mk.injEq] at ran
      rw [← ran.2]
      exact ⟨rfl,rfl,rfl,Nat.le_refl _⟩
    · cases ran
  · simp only [World.exec,Option.some.injEq,Prod.mk.injEq] at ran
    rw [← ran.2]
    exact ⟨rfl,rfl,rfl,Nat.le_refl _⟩

-- The buffer that waits in the slave is fetched as a whole.
theorem fetch_run {s s' : State} (counted : Counted s) (waiting : s.2.unread = bytes) (some_byte : 0 < bytes.length)
    (fits : bytes.length ≤ recvBufLen.toNat)
    (run : Handles (espExtconnSdioGetPacket extConnWifiSdioFunc recvBuf recvBufLen waitMs) s trace result s') :
    (result.2.getD 0).toNat = bytes.length ∧ s'.1.mem.read recvBuf bytes.length = bytes ∧ s'.2.unread = [] ∧ Fetch s s' := by
  have around : Runs (Around True recvBuf.blk) (rxSlave.act .transRecv)
      (espExtconnSdioGetPacket extConnWifiSdioFunc recvBuf recvBufLen waitMs) s trace result s' :=
    run.map id calm_around id
  have called := call_called counted (by decide) around
  have backlog : s.2.backlog = bytes.length := by rw [← unread_length,waiting]
  have kept : s'.1.sip.rxseq = s.1.sip.rxseq ∧ s.1.fresh ≤ s'.1.fresh := by
    refine Runs.keeps (I := fun m => m.1.sip.rxseq = s.1.sip.rxseq ∧ s.1.fresh ≤ m.1.fresh)
      (getPacket_fetching recvBufLen waitMs) ?_ ?_ ⟨rfl,Nat.le_refl _⟩ run
    · rintro m m' ⟨rxseq,fresh⟩ calm
      exact ⟨calm.world.rxseq.trans rxseq,Nat.le_trans fresh calm.world.fresh⟩
    · rintro _ m r m' kind ⟨rxseq,fresh⟩ acted
      obtain ⟨ans,ran⟩ := act_exec acted
      obtain ⟨sip,heap⟩ := fetching_exec kind ran
      exact ⟨by rw [sip,rxseq],by rw [heap]; exact fresh⟩
  obtain ⟨err,out⟩ := result
  by_cases success : err = .ok
  case neg =>
    obtain ⟨_,_,empty⟩ := called.missed success
    omega
  subst err
  cases out with
  | none => exact absurd rfl (called.answered rfl)
  | some n =>
      obtain ⟨_,read,content,m,before,polled⟩ := called.delivered n rfl rfl
      obtain ⟨more,stream,quiet⟩ := called.appended
      obtain ⟨unmoved,_,stream',quiet'⟩ := appends_stream before.slave
      have whole : n.toNat = bytes.length := by
        rw [quiet' trivial,List.append_nil] at stream'
        simp only [RxSlave.backlog,stream',unmoved] at polled backlog
        omega
      have same : s'.2.stream = s.2.stream := by rw [stream,quiet trivial,List.append_nil]
      refine ⟨whole,?_,?_,called.counted,kept.1,kept.2⟩
      · rw [whole,same] at content
        rw [content]
        exact (congrArg (List.take bytes.length) waiting).trans (List.take_length ..)
      · simp only [RxSlave.unread,same,read,whole,← List.drop_drop]
        rw [show s.2.stream.drop s.2.read = bytes from waiting,List.drop_length]

theorem filterMap_all {p : Code α} {rely : σ → σ → Prop} {act : Meaning signature σ}
    (silent : p.All fun o : Op => dispatched o = none) (run : Runs rely act p s trace result s') :
    trace.filterMap dispatched = [] :=
  filterMap_none (run.all silent)

-- A call up to the moment at which the buffer stands in `recv_buf`.
theorem call_fetched {s s' : State} (counted : Counted s) (waiting : s.2.unread = bytes) (some_byte : 0 < bytes.length)
    (fits : bytes.length ≤ recvBufLen.toNat) (run : Handles (handleIntr0 cfg waitMs) s trace result s') :
    ∃ rlen m parsing, rlen.toNat = bytes.length ∧ m.1.mem.read recvBuf bytes.length = bytes ∧ m.2.unread = [] ∧ Fetch s m ∧
      Handles (handleIntr0Parse cfg rlen) m parsing result s' ∧ trace.filterMap dispatched = parsing.filterMap dispatched := by
  unfold handleIntr0 espExtconnSdioLock espExtconnSdioUnlock at run
  simp only [Prog.bind_def,issue_bind,Prog.op_bind,Prog.pure_bind,Prog.pure_def] at run
  obtain ⟨s₁,_,s₂,_,rfl,moved,locked,run⟩ := runs_op.mp run
  have before := (Calm.trans moved (mutex_act (.inl rfl) locked))
  obtain ⟨one,_,out,s₃,rfl,fetched,run⟩ := run.unbind calm_refl
  obtain ⟨s₄,_,s₅,two,rfl,moved',unlocked,parsed⟩ := runs_op.mp run
  obtain ⟨whole,content,empty,fetch⟩ :=
    fetch_run (counted.around (calm_around before)) (by rw [before.slave]; exact waiting) some_byte fits fetched
  have after := Calm.trans moved' (mutex_act (.inr rfl) unlocked)
  have known := fetch.calm after
  have silent : one.filterMap dispatched = [] :=
    filterMap_all ((getPacket_fetching recvBufLen waitMs).mono fun _ => fetching_undispatched) fetched
  refine ⟨out.2.getD 0,s₅,two,whole,(after.world.read 0 _).trans content,by rw [after.slave]; exact empty,?_,parsed,?_⟩
  · exact ⟨known.counted,known.rxseq.trans before.world.rxseq,Nat.le_trans before.world.fresh known.fresh⟩
  · show (one ++ .semGive .sdioMutex :: two).filterMap dispatched = _
    rw [List.filterMap_append,silent]
    rfl

theorem Fetch.parsed {s m s' : State} (fetch : Fetch s m) (slave : s'.2 = m.2) (total : s'.1.host.totalRx = m.1.host.totalRx) :
    Counted s' := by
  refine ⟨by rw [slave]; exact fetch.counted.toBuffered,?_⟩
  rw [slave,total]
  exact fetch.counted.counted

-- One call for a buffer of packets.
theorem call_run {s s' : State} (counted : Counted s) (heap : recvBuf.blk < s.1.fresh) (waiting : s.2.unread = packets.flatten)
    (some_packet : packets ≠ []) (fits : packets.flatten.length ≤ recvBufLen.toNat)
    (formed : WellOrdered s.1.sip.rxseq packets) (run : Handles (handleIntr0 cfg waitMs) s trace result s') :
    result = .ok ∧ trace.filterMap dispatched = dispatches cfg 0 packets ∧
      s'.1.sip.rxseq = s.1.sip.rxseq + UInt32.ofNat packets.length ∧ Counted s' ∧ s'.2.unread = [] ∧ s.1.fresh ≤ s'.1.fresh := by
  have some_byte : 0 < packets.flatten.length := by
    cases packets with
    | nil => exact absurd rfl some_packet
    | cons p rest =>
        have whole : 12 ≤ p.length := formed.1.whole
        simp only [List.flatten_cons,List.length_append]
        omega
  obtain ⟨rlen,m,parsing,whole,content,empty,fetch,parsed,record⟩ := call_fetched counted waiting some_byte fits run
  have slave := parse_slave parsed
  obtain ⟨done,records,held⟩ :=
    parse_run (Nat.lt_of_lt_of_le heap fetch.fresh) (Undisturbed.refl m.1) (by rw [fetch.rxseq]; exact formed) some_packet
      (by rw [whole]; exact content) (handles_parses parsed)
  refine ⟨done,record.trans records,by rw [held.rxseq,← fetch.rxseq]; rfl,fetch.parsed slave held.total,?_,?_⟩
  · rw [slave]
    exact empty
  · exact Nat.le_trans fetch.fresh held.fresh

-- What may happen before a call: the slave offers the next buffer, and the rest
-- of the host does anything that leaves the receive counters alone.
structure Offered (packets : List Packet) (s s' : State) : Prop where
  rxseq : s'.1.sip.rxseq = s.1.sip.rxseq
  total : s'.1.host.totalRx = s.1.host.totalRx
  fresh : s.1.fresh ≤ s'.1.fresh
  slave : s'.2 = s.2.append packets.flatten

-- Calls of `handle_intr0` for one buffer after another, with the results and
-- the dispatched packets.
inductive Calls (cfg : Build) : State → List (List Packet) → List EspErr → List Dispatch → State → Prop where
  | done : Calls cfg s [] [] [] s
  | call : Offered packets s s₁ → Handles (handleIntr0 cfg waitMs) s₁ trace result s₂ → Calls cfg s₂ rest results log s' →
      Calls cfg s (packets :: rest) (result :: results) (trace.filterMap dispatched ++ log) s'

structure Ready (s : State) : Prop extends Counted s where
  heap : recvBuf.blk < s.1.fresh
  empty : s.2.unread = []

theorem Offered.ready {s s' : State} (ready : Ready s) (offered : Offered packets s s')
    (fits : packets.flatten.length ≤ recvBufLen.toNat) :
    Counted s' ∧ recvBuf.blk < s'.1.fresh ∧ s'.2.unread = packets.flatten := by
  have limit : recvBufLen.toNat = 32768 := rfl
  have idle : s.2.backlog = 0 := by rw [← unread_length,ready.empty]; rfl
  have within := ready.within
  refine ⟨⟨⟨?_,?_⟩,?_⟩,Nat.lt_of_lt_of_le ready.heap offered.fresh,?_⟩
  · rw [offered.slave]
    simp only [RxSlave.append,List.length_append]
    omega
  · rw [offered.slave,append_backlog _ within,idle]
    omega
  · rw [offered.slave,offered.total]
    exact ready.counted
  · rw [offered.slave,append_unread within,ready.empty,List.nil_append]

theorem wellOrdered_append (seq : UInt32) (one two : List Packet) :
    WellOrdered seq (one ++ two) ↔ WellOrdered seq one ∧ WellOrdered (seq + UInt32.ofNat one.length) two := by
  induction one generalizing seq with
  | nil => simp [WellOrdered]
  | cons p rest ih =>
      have shift : seq + 1 + UInt32.ofNat rest.length = seq + UInt32.ofNat (rest.length + 1) := by
        rw [UInt32.ofNat_add,UInt32.add_assoc,UInt32.add_comm 1]
        rfl
      simp only [List.cons_append,WellOrdered,List.length_cons,ih,shift,and_assoc]

theorem calls_dispatched {start s : State} (ready : Ready start) (formed : WellOrdered start.1.sip.rxseq buffers.flatten)
    (fits : ∀ packets ∈ buffers, packets ≠ [] ∧ packets.flatten.length ≤ recvBufLen.toNat)
    (calls : Calls cfg start buffers results log s) :
    results = List.replicate buffers.length .ok ∧ log = buffers.flatMap (dispatches cfg 0) ∧
      s.1.sip.rxseq = start.1.sip.rxseq + UInt32.ofNat buffers.flatten.length := by
  induction calls with
  | done => exact ⟨rfl,rfl,by simp⟩
  | call offered run rest ih =>
      rename_i packets start s₁ waitMs trace result s₂ buffers results log s
      obtain ⟨some_packet,short⟩ := fits packets (List.mem_cons_self ..)
      obtain ⟨counted,heap,waiting⟩ := offered.ready ready short
      rw [List.flatten_cons,wellOrdered_append] at formed
      obtain ⟨done,records,rxseq,counted',empty,fresh⟩ :=
        call_run counted heap waiting some_packet short (by rw [offered.rxseq]; exact formed.1) run
      rw [offered.rxseq] at rxseq
      obtain ⟨dones,logs,advanced⟩ := ih ⟨counted',Nat.lt_of_lt_of_le heap fresh,empty⟩ (by rw [rxseq]; exact formed.2)
        fun packets member => fits packets (List.mem_cons_of_mem _ member)
      refine ⟨by rw [done,dones]; rfl,by rw [records,logs]; rfl,?_⟩
      rw [advanced,rxseq,List.flatten_cons,List.length_append,UInt32.ofNat_add,UInt32.add_assoc]

-- Nothing keeps a call from being completed: the mutex can become free, and the
-- slave has an answer for every read.
theorem read_answered (d : RxSlave) (addr : UInt32) (arg : Cmd53Arg) (size : UInt32) :
    ∃ bytes d', bytes.length = size.toNat ∧ d.onRead addr arg size {data := bytes} = some d' := by
  by_cases register : isLengthRegister addr arg size
  · refine ⟨leBytes 4 (d.stream.length % 2 ^ 20),d,?_,?_⟩
    · rw [leBytes_length,register.2.2]
      rfl
    · have value : leNat (leBytes 4 (d.stream.length % 2 ^ 20)) % 2 ^ 20 = d.stream.length % 2 ^ 20 := by
        rw [leNat_leBytes]
        omega
      simp only [RxSlave.onRead,ne_eq,not_true_eq_false,if_false,if_pos register,if_pos value]
  · let carried := min (min size.toNat (windowOf addr)) d.backlog
    have enough : (d.unread.take carried).length = carried := by
      rw [List.length_take,unread_length]
      exact Nat.min_eq_left (Nat.min_le_right _ _)
    have within : carried ≤ size.toNat := Nat.le_trans (Nat.min_le_left _ _) (Nat.min_le_left _ _)
    refine ⟨d.unread.take carried ++ List.replicate (size.toNat - carried) 0,d.consume carried,?_,?_⟩
    · rw [List.length_append,enough,List.length_replicate]
      omega
    · have bytes : (d.unread.take carried ++ List.replicate (size.toNat - carried) 0).take carried = d.unread.take carried := by
        rw [List.take_append_of_le_length (Nat.le_of_eq enough.symm),List.take_take,Nat.min_self]
      simp only [RxSlave.onRead,ne_eq,not_true_eq_false,if_false,if_neg register]
      exact if_pos bytes

theorem never_blocked (o : Op) (s : State) : ∃ s₁ r s₂, Calm s s₁ ∧ rxSlave.act .transRecv o s₁ r s₂ := by
  have moved : Calm s (freed s.1,s.2) := ⟨freed_undisturbed s.1,rfl⟩
  obtain ⟨ans,r,w,ran⟩ := freed_exec o s.1
  cases o
  case sdmmcIoRead function addr arg dst size =>
    obtain ⟨bytes,d,full,answered⟩ := read_answered s.2 addr arg size
    refine ⟨_,(.ok,bytes),({freed s.1 with mem := dst.put bytes s.1.mem},if function = extConnWifiSdioFunc then d else s.2),
      moved,act_iff.mpr ⟨{data := bytes},?_,?_⟩⟩
    · exact if_pos full
    · by_cases wifi : function = extConnWifiSdioFunc
      · simp only [rxSlave,if_pos wifi]
        exact answered
      · simp only [rxSlave,if_neg wifi]
  all_goals exact ⟨_,r,(w,s.2),moved,act_iff.mpr ⟨ans,ran,rfl⟩⟩

theorem calls_exist (cfg : Build) (waitMs : UInt32) (buffers : List (List Packet)) (s : State) :
    ∃ results log s', Calls cfg s buffers results log s' := by
  induction buffers generalizing s with
  | nil => exact ⟨[],[],s,.done⟩
  | cons packets rest ih =>
      obtain ⟨trace,result,s₂,run⟩ :=
        runs_exist calm_refl never_blocked (handleIntr0 cfg waitMs) (s.1,s.2.append packets.flatten)
      obtain ⟨results,log,s',calls⟩ := ih s₂
      have offered : Offered packets s (s.1,s.2.append packets.flatten) := ⟨rfl,rfl,Nat.le_refl _,rfl⟩
      exact ⟨_,_,s',.call offered run calls⟩

theorem stream_dispatched (cfg : Build) {start : State} (ready : Ready start)
    (formed : WellOrdered start.1.sip.rxseq buffers.flatten)
    (fits : ∀ packets ∈ buffers, packets ≠ [] ∧ packets.flatten.length ≤ recvBufLen.toNat) :
    (∃ results log s, Calls cfg start buffers results log s) ∧ ∀ results log s, Calls cfg start buffers results log s →
      results = List.replicate buffers.length .ok ∧ log = buffers.flatMap (dispatches cfg 0) ∧
      s.1.sip.rxseq = start.1.sip.rxseq + UInt32.ofNat buffers.flatten.length :=
  ⟨calls_exist cfg recvWaitMs buffers start,fun _ _ _ calls => calls_dispatched ready formed fits calls⟩

-- An event and a data packet in one buffer, an A-MPDU in the next; the counter
-- wraps around between them.
def lastSeq : State := ({World.initial espSipInit with sip := {espSipInit with rxseq := 0xffffffff}},⟨[],0⟩)

def twoBuffers : List (List Packet) :=
  [[[0,5,12,0,0,0,0,0,255,255,255,255],[1,0,16,0,0,0,0,0,0,0,0,0,7,7,7,7]],[[2,0,12,0,0,0,0,0,1,0,0,0]]]

theorem two_buffers_dispatched : ∃ results log s, Calls ⟨true,true⟩ lastSeq twoBuffers results log s ∧
    results = [.ok,.ok] ∧ s.1.sip.rxseq = 2 ∧
    log = [.parseEvents ⟨0,0⟩,.sipRxProcess ⟨0,12⟩ 16,.sipRxProcess ⟨0,0⟩ 12] := by
  have ready : Ready lastSeq := ⟨⟨⟨by decide,by decide⟩,by decide⟩,by decide,rfl⟩
  have formed : WellOrdered lastSeq.1.sip.rxseq twoBuffers.flatten := by
    refine ⟨⟨?_,?_,?_,?_⟩,⟨?_,?_,?_,?_⟩,⟨?_,?_,?_,?_⟩,trivial⟩ <;> decide
  obtain ⟨⟨results,log,s,calls⟩,all⟩ := stream_dispatched ⟨true,true⟩ ready formed (by decide)
  obtain ⟨done,records,rxseq⟩ := all results log s calls
  exact ⟨results,log,s,calls,done,rxseq,records⟩

end ExtConn.ReceiveDispatch
