import ExtConn.TransferBounds

namespace ExtConn.BluetoothPayloads
open Effects ByteMemory ExtConn.Sequential TruncatedRead TransferBounds

-- What `notify_host_recv` is called with, and the bytes found there.
structure Notice where
  len : UInt32
  bytes : List UInt8

-- How much of the packet has been read, and the calls so far.
structure Receiver where
  position : Nat
  notices : List Notice

-- The slave has one packet on function 2 and tells its length; reads may fail at
-- any point, and what is read beyond the packet is anything.
def sender (packet : List UInt8) : Slave Receiver where
  answers _ w o ans d := match o with
    | .sdmmcIoRead f addr _ dst _ =>
      if ans.err ≠ .ok then some d
      else if dst = .reg then
        if addr ≠ espSdioSlc1HostPf ∨ backlogTold extConnBtSdioFunc w.host.totalRx ans.data = packet.length then some d else none
      else if f ≠ extConnBtSdioFunc then some d
      else if ans.data.take (packet.length - d.position) = (packet.drop d.position).take ans.data.length then
        some {d with position := d.position + ans.data.length}
      else none
    | .notifyHostRecv p len => some {d with notices := d.notices ++ [⟨len,w.mem.read p len.toNat⟩]}
    | _ => some d
  moves _ _ := True

abbrev State := World × Receiver

-- No call, or one with all that follows the header.
def Whole (packet : List UInt8) (d : Receiver) : Prop :=
  d.notices = [] ∨ ∃ len, d.notices = [⟨len,packet.drop sizeofSbpHdr.toNat⟩] ∧ len.toNat + sizeofSbpHdr.toNat = packet.length

def DeliversWhole (packet : List UInt8) : Prop :=
  ∀ (t : Task) (w : World) (intr waitMs : UInt32) (trace : List Op) (ret : EspErr) (s' : State),
    intr &&& slchostSlc1BtRxNewPacketIntRaw ≠ 0 →
    Runs Eq ((sender packet).act t) (handleIntr1 intr waitMs) (w,⟨0,[]⟩) trace ret s' → Whole packet s'.2

-- `recv_buf` starts with what has been read of the packet.
def Received (packet : List UInt8) (s : State) : Prop :=
  s.2.notices = [] ∧ s.1.mem.read recvBuf (min s.2.position packet.length) = packet.take s.2.position

section
variable {packet : List UInt8} {t : Task} {s : State}

theorem received_write {w : World} {d : Receiver} {data : List UInt8} (received : Received packet (w,d))
    (next : data.take (packet.length - d.position) = (packet.drop d.position).take data.length) :
    Received packet ({w with mem := w.mem.write (recvBuf.add d.position) data},{d with position := d.position + data.length}) := by
  refine ⟨received.1,?_⟩
  have start := received.2
  show (w.mem.write (recvBuf.add d.position) data).read recvBuf (min (d.position + data.length) packet.length) = _
  rcases Nat.lt_or_ge d.position packet.length with inside | past
  · rw [Nat.min_eq_left (Nat.le_of_lt inside)] at start
    have split : min (d.position + data.length) packet.length = d.position + min (packet.length - d.position) data.length := by omega
    have before : (w.mem.write (recvBuf.add d.position) data).read recvBuf d.position = w.mem.read recvBuf d.position :=
      read_write_other _ _ _ _ (.inr (.inl (Nat.le_refl _)))
    rw [split,read_append,before,start,← read_take _ _ (Nat.min_le_right ..),read_write,← List.take_eq_take_min,next,List.take_add]
  · have all : min (d.position + data.length) packet.length = packet.length := by omega
    have before : (w.mem.write (recvBuf.add d.position) data).read recvBuf packet.length = w.mem.read recvBuf packet.length := by
      apply read_write_other
      right
      left
      rw [Ptr.add_off]
      omega
    rw [Nat.min_eq_right past,List.take_of_length_le past] at start
    have later : packet.length ≤ d.position + data.length := by omega
    rw [all,before,start]
    exact (List.take_of_length_le later).symm

theorem packet_op {addr size : UInt32} {arg : Cmd53Arg} {p : Ptr} {next : EspErr × List UInt8 → Code α} {post : α → State → Prop}
    (here : p = recvBuf.add s.2.position) (received : Received packet s)
    (read : ∀ data s', data.length = size.toNat → s'.2.position = s.2.position + size.toNat → Received packet s' →
      wp (alone (sender packet) t) (next (.ok,data)) post s')
    (failed : ∀ r s', r.1 ≠ .ok → s'.2 = s.2 → wp (alone (sender packet) t) (next r) post s') :
    wp (alone (sender packet) t) (.op (.sdmmcIoRead extConnBtSdioFunc addr arg (.mem p) size) next) post s := by
  obtain ⟨w,d⟩ := s
  subst here
  apply alone_op
  intro ans r w' d' ran answered
  obtain ⟨rfl,rfl,full⟩ := read_exec ran
  by_cases success : ans.err = .ok
  · have told : ans.data.take (packet.length - d.position) = (packet.drop d.position).take ans.data.length := by
      by_contra other
      simp [sender,success,other] at answered
    simp only [sender,success,ne_eq,not_true_eq_false,reduceCtorEq,if_false,if_pos told] at answered
    cases answered
    rw [success]
    exact read _ _ (full success) (congrArg _ (full success)) (received_write received told)
  · simp only [sender,if_pos success] at answered
    cases answered
    exact failed _ _ success rfl

theorem tail_received {n : UInt32} {p : Ptr} {post : EspErr → State → Prop} (small : n.toNat < 512)
    (here : p = recvBuf.add s.2.position) (received : Received packet s)
    (whole : ∀ s', s.2.position + n.toNat ≤ s'.2.position → Received packet s' → post .ok s')
    (failed : ∀ err s', err ≠ .ok → s'.2 = s.2 → post err s') :
    wp (alone (sender packet) t) (readTail extConnBtSdioFunc p n) post s := by
  have rounded := roundFour_toNat small
  apply packet_op here received
  · intro data s' _ position received
    apply whole s' _ received
    omega
  · intro r s' wrong same
    exact failed r.1 s' wrong same

theorem chunks_received {n : UInt32} {post : EspErr → State → Prop} (nonzero : 0 < n.toNat) (first : s.2.position = 0)
    (received : Received packet s) (whole : ∀ s', n.toNat ≤ s'.2.position → Received packet s' → post .ok s')
    (failed : ∀ err s', err ≠ .ok → s'.2.notices = [] → post err s') :
    wp (alone (sender packet) t) (getPacketChunks extConnBtSdioFunc (n.toNat + 1) recvBuf n) post s := by
  have here : recvBuf = recvBuf.add s.2.position := by rw [first,Ptr.add_zero]
  have blocks := blocksOf_toNat n
  have tail := tailOf_toNat n
  by_cases small : n.toNat < 512
  · rw [getPacketChunks_tail _ _ _ nonzero small]
    apply tail_received small here received
    · intro s' position received
      exact whole s' (by omega) received
    · intro err s' wrong same
      exact failed err s' wrong (by rw [same]; exact received.1)
  obtain ⟨fuel,bound⟩ : ∃ fuel, n.toNat + 1 = fuel + 2 := ⟨n.toNat - 1,by omega⟩
  rw [bound,getPacketChunks_blocks _ _ _ (by omega)]
  apply packet_op here received
  · intro data s₁ full position received
    rw [if_neg (not_not_intro rfl)]
    rw [first,Nat.zero_add] at position
    by_cases done : tailOf n = 0
    · rw [if_pos done]
      apply whole s₁ _ received
      rw [done] at tail
      have zero : (0 : UInt32).toNat = 0 := rfl
      omega
    · rw [if_neg done]
      apply tail_received (by omega) (by rw [position]) received
      · intro s' later received
        exact whole s' (by omega) received
      · intro err s' wrong same
        exact failed err s' wrong (by rw [same]; exact received.1)
  · intro r s' wrong same
    rw [if_pos wrong]
    exact failed r.1 s' wrong (by rw [same]; exact received.1)

theorem length_read {post : EspErr × Option UInt32 → State → Prop} (told : ∀ n : UInt32, n.toNat = packet.length → post (.ok,some n) s)
    (failed : ∀ r, r.1 ≠ .ok → post r s) : wp (alone (sender packet) t) (espExtconnSdioGetRxDataSize extConnBtSdioFunc) post s := by
  obtain ⟨w,d⟩ := s
  rw [getRxDataSize_bt]
  apply alone_op
  intro ans r w' d' ran answered
  obtain ⟨rfl,rfl,full⟩ := read_exec ran
  by_cases success : ans.err = .ok
  · have length : backlogTold extConnBtSdioFunc w.host.totalRx ans.data = packet.length := by
      by_contra other
      simp [sender,success,other] at answered
    simp only [sender,success,ne_eq,not_true_eq_false,if_false,if_true,length,or_true] at answered
    cases answered
    rw [if_neg (not_not_intro success),← toldBt_toNat (full success)] at *
    exact told _ length
  · simp only [sender,if_pos success] at answered
    cases answered
    rw [if_pos success]
    exact failed _ success

theorem waited {waitMs waitTime : UInt32} {fuel : Nat} {post : EspErr × UInt32 → State → Prop} (some : 0 < packet.length)
    (told : ∀ n : UInt32, n.toNat = packet.length → post (.ok,n) s) (failed : ∀ r, r.1 ≠ .ok → post r s) :
    wp (alone (sender packet) t) (getPacketWait extConnBtSdioFunc waitMs (fuel + 1) waitTime) post s := by
  rw [getPacketWait]
  simp only [Prog.bind_def,wp_bind]
  apply length_read
  · intro n length
    have positive : n > 0 := by
      rw [gt_iff_lt,UInt32.lt_iff_toNat_lt,length]
      exact some
    rw [if_pos ⟨rfl,positive⟩]
    exact told n length
  · intro r wrong
    rw [if_neg fun found => wrong found.1,if_pos wrong]
    exact failed _ wrong

theorem packet_received {w : World} {waitMs : UInt32} {post : EspErr × Option UInt32 → State → Prop} (some : 0 < packet.length)
    (whole : ∀ (n : UInt32) s', n.toNat = min 1034 packet.length → n.toNat ≤ s'.2.position → Received packet s' → post (.ok,.some n) s')
    (failed : ∀ r s', r.1 ≠ .ok → s'.2.notices = [] → post r s') :
    wp (alone (sender packet) t) (espExtconnSdioGetPacket extConnBtSdioFunc recvBuf 1034 waitMs) post (w,⟨0,[]⟩) := by
  have positive : (1034 : UInt32) > 0 := by decide
  unfold espExtconnSdioGetPacket
  simp only [positive,not_true_eq_false,if_false,Prog.bind_def,wp_bind,Prog.pure_def,issue_bind]
  apply waited some
  · intro len length
    have cut := RxStream.cut_toNat len 1034
    rw [length] at cut
    simp only [ne_eq,not_true_eq_false,if_false]
    generalize (if len > 1034 then 1034 else len) = n at cut ⊢
    have limit : (1034 : UInt32).toNat = 1034 := rfl
    have start : Received packet (w,⟨0,[]⟩) := ⟨rfl,by rw [Nat.zero_min]; rfl⟩
    rw [wp_bind]
    apply chunks_received (by omega) rfl start
    · intro s' position received
      simp only [not_true_eq_false,if_false]
      exact whole n s' (by omega) position received
    · intro err s' wrong none
      simp only [wrong,not_false_eq_true,if_true]
      exact failed _ s' wrong none
  · intro r wrong
    rw [if_pos wrong]
    exact failed _ _ wrong rfl

-- What reaches the Bluetooth host: nothing, or all but the header of what fits into 1034 bytes.
def Outcome (packet : List UInt8) (d : Receiver) : Prop :=
  d.notices = [] ∨ ∃ n : UInt32, n.toNat = min 1034 packet.length ∧ ∃ bytes, d.notices = [⟨n - sizeofSbpHdr,bytes⟩] ∧
    (8 ≤ n.toNat → bytes = (packet.take n.toNat).drop 8)

theorem handed {n : UInt32} {w : World} {d : Receiver} (whole : n.toNat ≤ d.position) (received : Received packet (w,d))
    (count : n.toNat = min 1034 packet.length) (header : 8 ≤ n.toNat) :
    w.mem.read (recvBuf.add sizeofSbpHdr.toNat) (n - sizeofSbpHdr).toNat = (packet.take n.toNat).drop 8 := by
  have eight : sizeofSbpHdr.toNat = 8 := rfl
  have rest : (n - sizeofSbpHdr).toNat = n.toNat - 8 := UInt32.toNat_sub_of_le _ _ (UInt32.le_iff_toNat_le.mpr header)
  have start : w.mem.read recvBuf n.toNat = packet.take n.toNat := by
    have inside : n.toNat ≤ min d.position packet.length := by omega
    rw [← read_take _ _ inside,received.2,List.take_take,Nat.min_eq_left whole]
  have split : n.toNat = 8 + (n.toNat - 8) := by omega
  have dropped := read_drop w.mem recvBuf 8 (n.toNat - 8)
  rw [← split] at dropped
  rw [rest,eight,← start,dropped]

-- Neither branch behind the call tells the host anything more.
def telling : Op → Bool
  | .notifyHostRecv .. => true
  | _ => false

theorem untold_keeps {p : Code α} (untold : p.All (telling · = false)) (P : Receiver → Prop)
    (moved : ∀ d n, P d → P {d with position := n}) : Keeps (alone (sender packet) t) (fun s => P s.2) p := by
  apply (untold.mono ?_).keeps
  · exact fun _ _ held same => same ▸ held
  · intro o here s held
    refine ⟨trivial,fun r s' acted => ⟨trivial,?_⟩⟩
    obtain ⟨w,d⟩ := s
    obtain ⟨w',d'⟩ := s'
    obtain ⟨ans,_,answered⟩ := act_iff.mp acted
    cases o
    case notifyHostRecv => cases here
    case sdmmcIoRead f addr arg dst size =>
      simp only [sender] at answered
      split at answered
      · cases answered
        exact held
      · split at answered
        · split at answered
          · cases answered
            exact held
          · cases answered
        · split at answered
          · cases answered
            exact held
          · split at answered
            · cases answered
              exact moved _ _ held
            · cases answered
    all_goals
      cases answered
      exact held

theorem outcome_moved (d : Receiver) (n : Nat) (outcome : Outcome packet d) : Outcome packet {d with position := n} := outcome

theorem handleIntr1Packet_outcome {w : World} {intr waitMs : UInt32} (some : 0 < packet.length) :
    wp (alone (sender packet) t) (handleIntr1Packet intr waitMs) (fun _ s' => Outcome packet s'.2) (w,⟨0,[]⟩) := by
  unfold handleIntr1Packet espExtconnSdioLock espExtconnSdioUnlock espExtconnTransBtRecv
  simp only [Prog.bind_def,issue_bind,Prog.op_bind,Prog.pure_bind,Prog.pure_def]
  apply wp_ite
  · intro _
    apply alone_op
    intro ans taken w₁ d ran answered
    cases answered
    rw [wp_bind]
    apply packet_received some
    · intro n s' count position received
      obtain ⟨w₂,d₂⟩ := s'
      apply alone_exec (fun _ => rfl) (fun _ => rfl)
      rw [if_pos rfl]
      apply alone_exec (fun _ => rfl) (fun _ => rfl)
      rw [wp_bind]
      apply wp_ite
      · intro _
        apply alone_op
        intro ans r w₃ d₃ ran answered
        cases ran
        cases answered
        right
        refine ⟨n,count,_,?_,fun header => handed position received count header⟩
        show d₂.notices ++ _ = _
        rw [received.1]
        rfl
      · intro _
        exact .inl received.1
    · intro r s' wrong none
      apply alone_exec (fun _ => rfl) (fun _ => rfl)
      rw [if_neg wrong]
      exact .inl none
  · intro _
    exact .inl rfl

theorem handleIntr1_outcome {w : World} {intr waitMs : UInt32} (some : 0 < packet.length) :
    wp (alone (sender packet) t) (handleIntr1 intr waitMs) (fun _ s' => Outcome packet s'.2) (w,⟨0,[]⟩) := by
  unfold handleIntr1
  simp only [Prog.bind_def,wp_bind]
  apply wp_mono (handleIntr1Packet_outcome some)
  intro ret s' outcome
  apply wp_ite
  · intro _
    exact untold_keeps (handleIntr1Tohost_all rfl rfl rfl rfl rfl) (Outcome packet) outcome_moved s' outcome
  · exact fun _ => outcome

theorem outcome_whole {d : Receiver} (header : 8 ≤ packet.length) (fits : packet.length ≤ 1034) (outcome : Outcome packet d) :
    Whole packet d := by
  rcases outcome with none | ⟨n,count,bytes,notices,content⟩
  · exact .inl none
  · have eight : sizeofSbpHdr.toNat = 8 := rfl
    have all : n.toNat = packet.length := by omega
    have rest : (n - sizeofSbpHdr).toNat = n.toNat - 8 := UInt32.toNat_sub_of_le _ _ (UInt32.le_iff_toNat_le.mpr (by omega))
    refine .inr ⟨n - sizeofSbpHdr,?_,?_⟩
    · rw [notices,content (by omega),all,List.take_length]
      rfl
    · rw [rest,eight]
      omega

-- A read that succeeds, the bytes behind the packet being zero.
theorem packet_step {addr size : UInt32} {arg : Cmd53Arg} {p : Ptr} {next : EspErr × List UInt8 → Code α} {post : α → State → Prop}
    (holds : wp (alone (sender packet) t) (.op (.sdmmcIoRead extConnBtSdioFunc addr arg (.mem p) size) next) post s) :
    ∃ data s', s'.2.notices = s.2.notices ∧ s'.1.hostRecv = s.1.hostRecv ∧ wp (alone (sender packet) t) (next (.ok,data)) post s' := by
  let data := (packet.drop s.2.position ++ List.replicate size.toNat 0).take size.toNat
  have full : data.length = size.toNat := by
    rw [List.length_take,List.length_append,List.length_replicate]
    omega
  have told : data.take (packet.length - s.2.position) = (packet.drop s.2.position).take data.length := by
    have left : min (packet.length - s.2.position) size.toNat ≤ (packet.drop s.2.position).length := by
      rw [List.length_drop]
      omega
    rw [full,List.take_take,List.take_append_of_le_length left,← List.length_drop,Nat.min_comm,← List.take_eq_take_min]
  refine ⟨data,({s.1 with mem := s.1.mem.write p data},{s.2 with position := s.2.position + data.length}),rfl,rfl,?_⟩
  apply alone_step holds {data := data}
  · exact if_pos full
  · simp only [sender,ne_eq,not_true_eq_false,reduceCtorEq,if_false]
    exact if_pos told

theorem chunks_step {n : UInt32} {post : EspErr → State → Prop} (nonzero : 0 < n.toNat)
    (holds : wp (alone (sender packet) t) (getPacketChunks extConnBtSdioFunc (n.toNat + 1) recvBuf n) post s) :
    ∃ s', s'.2.notices = s.2.notices ∧ s'.1.hostRecv = s.1.hostRecv ∧ post .ok s' := by
  by_cases small : n.toNat < 512
  · rw [getPacketChunks_tail _ _ _ nonzero small] at holds
    obtain ⟨data,s',same,host,done⟩ := packet_step holds
    exact ⟨s',same,host,done⟩
  obtain ⟨fuel,bound⟩ : ∃ fuel, n.toNat + 1 = fuel + 2 := ⟨n.toNat - 1,by omega⟩
  rw [bound,getPacketChunks_blocks _ _ _ (by omega)] at holds
  obtain ⟨data,s₁,same₁,host₁,rest⟩ := packet_step holds
  rw [if_neg (not_not_intro rfl)] at rest
  split at rest
  · exact ⟨s₁,same₁,host₁,rest⟩
  · obtain ⟨more,s₂,same₂,host₂,done⟩ := packet_step rest
    exact ⟨s₂,same₂.trans same₁,host₂.trans host₁,done⟩

theorem packet_told {w : World} {waitMs : UInt32} {post : EspErr × Option UInt32 → State → Prop} (some_ : 0 < packet.length)
    (count : packet.length < 2 ^ 24)
    (holds : wp (alone (sender packet) t) (espExtconnSdioGetPacket extConnBtSdioFunc recvBuf 1034 waitMs) post (w,⟨0,[]⟩)) :
    ∃ (n : UInt32) (s' : State), n.toNat = min 1034 packet.length ∧ s'.2.notices = [] ∧ s'.1.hostRecv = w.hostRecv ∧ post (.ok,some n) s' := by
  have positive : (1034 : UInt32) > 0 := by decide
  obtain ⟨word,full,told⟩ := told_by extConnBtSdioFunc w.host.totalRx count
  have length := (toldBt_toNat full w.host.totalRx).trans told
  have found : toldBt (overlay 0 word) > 0 := by
    rw [gt_iff_lt,UInt32.lt_iff_toNat_lt,length]
    exact some_
  unfold espExtconnSdioGetPacket at holds
  rw [if_neg (not_not_intro positive),getPacketWait,getRxDataSize_bt] at holds
  simp only [Prog.bind_def,Prog.op_bind,Prog.pure_def,issue_bind] at holds
  have answered : (sender packet).answers t w (.sdmmcIoRead 1 espSdioSlc1HostPf {increment := true} .reg 4) {data := word} ⟨0,[]⟩ =
      some ⟨0,[]⟩ := by simp [sender,told]
  have read := alone_step holds {data := word} (if_pos full) answered
  simp only [ne_eq,not_true_eq_false,if_false,Prog.pure_bind,Option.getD_some,found,and_self,if_true] at read
  have cut := RxStream.cut_toNat (toldBt (overlay 0 word)) 1034
  rw [length] at cut
  generalize (if toldBt (overlay 0 word) > 1034 then 1034 else toldBt (overlay 0 word)) = n at cut read
  have limit : (1034 : UInt32).toNat = 1034 := rfl
  rw [wp_bind] at read
  obtain ⟨s',same,host,done⟩ := chunks_step (by omega) read
  exact ⟨n,s',by omega,same,host,done⟩

end

def listening : World := {World.initial espSipInit with hostRecv := true}

-- The host is told once when no read fails, whatever the packet is.
theorem host_told {packet : List UInt8} {post : EspErr → State → Prop} (some_ : 0 < packet.length) (count : packet.length < 2 ^ 24)
    (holds : wp (alone (sender packet) .transRecv) (handleIntr1 slchostSlc1BtRxNewPacketIntRaw 0) post (listening,⟨0,[]⟩)) :
    ∃ (n : UInt32) (ret : EspErr) (s' : State), n.toNat = min 1034 packet.length ∧
      s'.2.notices.map Notice.len = [n - sizeofSbpHdr] ∧ post ret s' := by
  have packetBit : slchostSlc1BtRxNewPacketIntRaw &&& slchostSlc1BtRxNewPacketIntRaw ≠ 0 := by decide
  have otherBit : ¬ slchostSlc1BtRxNewPacketIntRaw &&& slchostSlc1TohostBit0IntRaw ≠ 0 := by decide
  unfold handleIntr1 handleIntr1Packet espExtconnSdioLock espExtconnSdioUnlock espExtconnTransBtRecv at holds
  simp only [Prog.bind_def,issue_bind,Prog.op_bind,Prog.pure_bind,Prog.pure_def,if_pos packetBit,if_neg otherBit] at holds
  have locked := alone_step holds {} rfl rfl
  rw [Prog.bind_assoc,wp_bind] at locked
  obtain ⟨n,s₁,cut,none,host,got⟩ := packet_told some_ count locked
  obtain ⟨w₁,d₁⟩ := s₁
  have unlocked := alone_step got {} rfl rfl
  rw [if_pos rfl] at unlocked
  have asked := alone_step unlocked {} rfl rfl
  rw [show w₁.hostRecv = true from host] at asked
  have told := alone_step asked {} rfl rfl
  refine ⟨n,_,_,cut,?_,told⟩
  show (d₁.notices ++ [_]).map Notice.len = _
  rw [show d₁.notices = [] from none]
  rfl

theorem delivers_needs {packet : List UInt8} (some : packet ≠ []) (count : packet.length < 2 ^ 24) (delivers : DeliversWhole packet) :
    8 ≤ packet.length ∧ packet.length ≤ 1034 := by
  have nonempty := List.length_pos_iff.mpr some
  have packetBit : slchostSlc1BtRxNewPacketIntRaw &&& slchostSlc1BtRxNewPacketIntRaw ≠ 0 := by decide
  have holds := alone_wp fun trace ret s' run => delivers .transRecv listening _ 0 trace ret s' packetBit run
  obtain ⟨n,_,s',cut,notices,whole⟩ := host_told nonempty count holds
  have eight : sizeofSbpHdr.toNat = 8 := rfl
  rcases whole with none | ⟨len,one,length⟩
  · rw [none] at notices
    cases notices
  · rw [one] at notices
    have same : len = n - sizeofSbpHdr := (List.cons.inj notices).1
    rw [same,UInt32.toNat_sub,eight] at length
    omega

theorem delivers_whole_iff {packet : List UInt8} (some : packet ≠ []) (count : packet.length < 2 ^ 24) :
    DeliversWhole packet ↔ 8 ≤ packet.length ∧ packet.length ≤ 1034 := by
  constructor
  · exact delivers_needs some count
  · intro fits t w intr waitMs trace ret s' _ run
    exact outcome_whole fits.1 fits.2 (alone_runs (handleIntr1_outcome (List.length_pos_iff.mpr some)) run)

theorem hci_event_delivered : DeliversWhole [12,0,0,4,1,0,0,0,14,1,0,9] :=
  (delivers_whole_iff (List.cons_ne_nil _ _) (by decide)).mpr ⟨by decide,by decide⟩

-- Five bytes: three too few for a header.
theorem short_packet_not_delivered : ¬ ∀ packet : List UInt8, packet ≠ [] → packet.length < 2 ^ 24 → DeliversWhole packet := by
  intro every
  have header := (delivers_needs (List.cons_ne_nil _ _) (by decide) (every [5,0,0,0,1] (List.cons_ne_nil _ _) (by decide))).1
  exact absurd header (by decide)

end ExtConn.BluetoothPayloads
