import ExtConn.RxStream
import ExtConn.Sequential
import ExtConn.Transport

namespace ExtConn.TruncatedRead
open Effects ByteMemory ExtConn.Sequential

-- A port of the slave, on which no read fails: the backlog it told at the last
-- read of its length register, and what it has put on the bus in packet reads.
structure Port where
  reported : Nat
  carried : List UInt8
  deriving DecidableEq

def lengthRegister (function : UInt32) : UInt32 := if function = extConnBtSdioFunc then espSdioSlc1HostPf else espSdioPktLen

-- Function 2 tells a count of 24 bits behind a status byte, function 1 the low
-- 20 bits of all it ever sent, of which the host has taken `total`.
def backlogTold (function total : UInt32) (word : List UInt8) : Nat :=
  if function = extConnBtSdioFunc then 65536 * (word.getD 1 0).toNat + 256 * (word.getD 2 0).toNat + (word.getD 3 0).toNat
  else (leNat word % 2 ^ 20 + 2 ^ 20 - total.toNat % 2 ^ 20) % 2 ^ 20

def port (function : UInt32) : Slave Port where
  answers _ w o ans d := match o with
    | .sdmmcIoRead f addr _ dst _ =>
      if ans.err ≠ .ok then none
      else if dst = .reg then
        if addr = lengthRegister function then some {d with reported := backlogTold function w.host.totalRx ans.data} else some d
      else if f = function then some {d with carried := d.carried ++ ans.data} else some d
    | _ => some d
  moves d d' := d' = d

abbrev State := World × Port

def SdioFunction (function : UInt32) : Prop := function = extConnWifiSdioFunc ∨ function = extConnBtSdioFunc

-- The two decodings of the length register.
def toldBt (word : UInt32) : UInt32 :=
  ((UInt32.ofNat ((le32 word).getD 1 0).toNat <<< 16) ||| (UInt32.ofNat ((le32 word).getD 2 0).toNat <<< 8) |||
    UInt32.ofNat ((le32 word).getD 3 0).toNat) &&& 0xffffff

theorem getRxDataSize_bt : espExtconnSdioGetRxDataSize extConnBtSdioFunc =
    .op (.sdmmcIoRead 1 espSdioSlc1HostPf {increment := true} .reg 4) fun r =>
      if r.1 ≠ .ok then .pure (r.1,none) else .pure (.ok,some (toldBt (overlay 0 r.2))) := by
  unfold espExtconnSdioGetRxDataSize
  simp only [if_true,readRegister,Prog.bind_def,Prog.op_bind,Prog.pure_bind,Prog.pure_def]
  rfl

theorem toldBt_toNat {word : List UInt8} (full : word.length = 4) (total : UInt32) :
    (toldBt (overlay 0 word)).toNat = backlogTold extConnBtSdioFunc total word := by
  have bytes : le32 (overlay 0 word) = word := by
    rw [le32,overlay_word 0 full,← full]
    exact leBytes_leNat word
  rw [toldBt,bytes,Words.three_bytes,backlogTold,if_pos rfl]

theorem told_wifi {word : List UInt8} (full : word.length = 4) (total : UInt32) :
    (((overlay 0 word &&& rxByteMask) + rxByteMax - total) % rxByteMax).toNat = backlogTold extConnWifiSdioFunc total word := by
  have mask : (overlay 0 word &&& rxByteMask).toNat = leNat word % 2 ^ 20 := by
    rw [UInt32.toNat_and,overlay_word 0 full]
    exact Nat.and_two_pow_sub_one_eq_mod (leNat word) 20
  have top : rxByteMax.toNat = 2 ^ 20 := rfl
  have bound := total.toNat_lt
  rw [UInt32.toNat_mod,UInt32.toNat_sub,UInt32.toNat_add,mask,top,backlogTold,if_neg (by decide)]
  omega

-- One read of the length register, and one of a packet.
theorem register_op {t : Task} {function : UInt32} {w : World} {d : Port} {next : EspErr × List UInt8 → Code α}
    {post : α → State → Prop} (rest : ∀ word, word.length = 4 →
      wp (alone (port function) t) (next (.ok,word)) post (w,{d with reported := backlogTold function w.host.totalRx word})) :
    wp (alone (port function) t) (.op (.sdmmcIoRead 1 (lengthRegister function) {increment := true} .reg 4) next) post (w,d) := by
  apply alone_op
  intro ans r w' d' ran answered
  obtain ⟨rfl,rfl,full⟩ := read_exec ran
  by_cases success : ans.err = .ok
  · simp only [port,if_neg (not_not_intro success),if_true] at answered
    cases answered
    rw [success]
    exact rest ans.data (full success)
  · simp only [port,if_pos success] at answered
    cases answered

theorem packet_op {t : Task} {function addr size : UInt32} {arg : Cmd53Arg} {p : Ptr} {w : World} {d : Port}
    {next : EspErr × List UInt8 → Code α} {post : α → State → Prop} (rest : ∀ data, data.length = size.toNat →
      wp (alone (port function) t) (next (.ok,data)) post ({w with mem := w.mem.write p data},{d with carried := d.carried ++ data})) :
    wp (alone (port function) t) (.op (.sdmmcIoRead function addr arg (.mem p) size) next) post (w,d) := by
  apply alone_op
  intro ans r w' d' ran answered
  obtain ⟨rfl,rfl,full⟩ := read_exec ran
  by_cases success : ans.err = .ok
  · simp only [port,if_neg (not_not_intro success),reduceCtorEq,if_true,if_false] at answered
    cases answered
    rw [success]
    exact rest ans.data (full success)
  · simp only [port,if_pos success] at answered
    cases answered

theorem getRxDataSize_wp {t : Task} {function : UInt32} {w : World} {d : Port} {post : EspErr × Option UInt32 → State → Prop}
    (valid : SdioFunction function) (rest : ∀ len, post (.ok,some len) (w,{d with reported := len.toNat})) :
    wp (alone (port function) t) (espExtconnSdioGetRxDataSize function) post (w,d) := by
  cases valid with
  | inl wifi =>
      subst wifi
      rw [getRxDataSize_wifi]
      apply register_op
      intro word full
      apply alone_exec (fun _ => rfl) (fun _ => rfl)
      rw [← told_wifi full]
      exact rest _
  | inr bt =>
      subst bt
      rw [getRxDataSize_bt]
      apply register_op
      intro word full
      rw [← toldBt_toNat full]
      exact rest _

-- The polling loop ends with what the register told last.
theorem getPacketWait_wp {t : Task} {function waitMs : UInt32} {w : World} {d : Port} {waitTime : UInt32} {fuel : Nat}
    {post : EspErr × UInt32 → State → Prop} (valid : SdioFunction function) (none : d.reported = 0)
    (found : ∀ len, 0 < len.toNat → post (.ok,len) (w,{d with reported := len.toNat}))
    (missed : ∀ len, post (.timeout,len) (w,d)) :
    wp (alone (port function) t) (getPacketWait function waitMs fuel waitTime) post (w,d) := by
  induction fuel generalizing waitTime with
  | zero => exact missed 0
  | succ fuel ih =>
      rw [getPacketWait]
      simp only [Prog.bind_def,wp_bind]
      apply getRxDataSize_wp valid
      intro len
      by_cases positive : len > 0
      · simp only [Option.getD_some,positive,and_self,if_true,Prog.pure_def,wp_pure]
        exact found len (by simpa [UInt32.lt_iff_toNat_lt] using positive)
      · have zero : len.toNat = 0 := by simpa [UInt32.lt_iff_toNat_lt] using positive
        have same : ({d with reported := len.toNat} : Port) = d := by rw [zero,← none]
        simp only [Option.getD_some,positive,and_false,if_false,ne_eq,not_true_eq_false,Prog.pure_def,issue_bind,same]
        apply wp_ite
        · intro _
          exact missed len
        · intro _
          apply alone_exec (fun _ => rfl) (fun _ => rfl)
          exact ih

-- The next `n` bytes that the port carried stand at `p`.
structure Delivered (p : Ptr) (n : Nat) (s s' : State) : Prop where
  bytes : ∃ data, s'.2 = {s.2 with carried := s.2.carried ++ data} ∧ n ≤ data.length ∧ s'.1.mem.read p n = data.take n
  before : ∀ q k, q.blk = p.blk → q.off + k ≤ p.off → s'.1.mem.read q k = s.1.mem.read q k

theorem delivered_write {p : Ptr} {w : World} {d : Port} {data : List UInt8} (enough : n ≤ data.length) :
    Delivered p n (w,d) ({w with mem := w.mem.write p data},{d with carried := d.carried ++ data}) := by
  refine ⟨⟨data,rfl,enough,?_⟩,fun q k _ below => read_write_other _ _ _ _ (.inr (.inl below))⟩
  rw [← read_take _ _ enough,read_write]

theorem delivered_append {p : Ptr} {s₁ s₂ s₃ : State} {data : List UInt8}
    (first : s₂.2 = {s₁.2 with carried := s₁.2.carried ++ data}) (exact_ : data.length = n) (bytes : s₂.1.mem.read p n = data)
    (before : ∀ q k, q.blk = p.blk → q.off + k ≤ p.off → s₂.1.mem.read q k = s₁.1.mem.read q k)
    (second : Delivered (p.add n) k s₂ s₃) : Delivered p (n + k) s₁ s₃ := by
  obtain ⟨more,slave,enough,rest⟩ := second.bytes
  constructor
  · refine ⟨data ++ more,?_,by rw [List.length_append]; omega,?_⟩
    · rw [slave,first,List.append_assoc]
    · have start : s₃.1.mem.read p n = data := (second.before p n rfl (by simp)).trans bytes
      rw [read_append,start,rest,← exact_,List.take_length_add_append]
  · intro q j same below
    rw [second.before q j same (by simp only [Ptr.add_off]; omega)]
    exact before q j same below

theorem tail_wp {t : Task} {function len : UInt32} {p : Ptr} {s : State} {post : EspErr → State → Prop} (small : len.toNat < 512)
    (rest : ∀ s', Delivered p len.toNat s s' → post .ok s') :
    wp (alone (port function) t) (readTail function p len) post s := by
  obtain ⟨w,d⟩ := s
  have rounded := roundFour_toNat small
  apply packet_op
  intro data full
  exact rest _ (delivered_write (by omega))

theorem chunks_wp {t : Task} {function len : UInt32} {p : Ptr} {s : State} {post : EspErr → State → Prop} (nonzero : 0 < len.toNat)
    (rest : ∀ s', Delivered p len.toNat s s' → post .ok s') :
    wp (alone (port function) t) (getPacketChunks function (len.toNat + 1) p len) post s := by
  by_cases small : len.toNat < 512
  · rw [getPacketChunks_tail _ _ _ nonzero small]
    exact tail_wp small rest
  obtain ⟨w,d⟩ := s
  have blocks := blocksOf_toNat len
  have tail := tailOf_toNat len
  obtain ⟨fuel,bound⟩ : ∃ fuel, len.toNat + 1 = fuel + 2 := ⟨len.toNat - 1,by omega⟩
  rw [bound,getPacketChunks_blocks _ _ _ (by omega)]
  apply packet_op
  intro data full
  rw [if_neg (not_not_intro rfl)]
  by_cases done : tailOf len = 0
  · have whole : len.toNat = data.length := by
      rw [done] at tail
      have zero : (0 : UInt32).toNat = 0 := rfl
      omega
    rw [if_pos done,wp_pure]
    exact rest _ (delivered_write (by omega))
  · rw [if_neg done]
    apply tail_wp (by omega)
    intro s' second
    apply rest s'
    have split : len.toNat = data.length + (tailOf len).toNat := by omega
    rw [← full] at second
    rw [split]
    apply delivered_append rfl rfl (read_write _ _ _) _ second
    intro q k _ below
    exact read_write_other _ _ _ _ (.inr (.inl below))

-- A call that succeeded has put the first bytes that the port carried in place.
structure Filled (outBuf : Ptr) (n : UInt32) (size : Nat) (s : State) : Prop where
  count : n.toNat = min size s.2.reported
  bytes : s.1.mem.read outBuf n.toNat = s.2.carried.take n.toNat

theorem getPacket_wp {t : Task} {function size waitMs : UInt32} {outBuf : Ptr} {w : World}
    {post : EspErr × Option UInt32 → State → Prop} (valid : SdioFunction function) (positive : size > 0)
    (filled : ∀ n s', Filled outBuf n size.toNat s' → post (.ok,some n) s') (missed : post (.timeout,none) (w,⟨0,[]⟩)) :
    wp (alone (port function) t) (espExtconnSdioGetPacket function outBuf size waitMs) post (w,⟨0,[]⟩) := by
  have nonzero : 0 < size.toNat := by simpa [UInt32.lt_iff_toNat_lt] using positive
  unfold espExtconnSdioGetPacket
  simp only [positive,not_true_eq_false,if_false,Prog.bind_def,wp_bind,Prog.pure_def,issue_bind]
  apply getPacketWait_wp valid rfl
  · intro len some
    have cut := RxStream.cut_toNat len size
    simp only [ne_eq,not_true_eq_false,if_false]
    generalize (if len > size then size else len) = n at cut ⊢
    rw [wp_bind]
    apply chunks_wp (by omega)
    intro s₁ delivered
    obtain ⟨data,slave,enough,bytes⟩ := delivered.bytes
    obtain ⟨w₁,d₁⟩ := s₁
    have result : ∀ w' : World, w'.mem = w₁.mem → Filled outBuf n size.toNat (w',d₁) := by
      intro w' same
      constructor
      · rw [show d₁ = _ from slave]
        exact cut
      · rw [show d₁ = _ from slave,same]
        exact bytes
    simp only [not_true_eq_false,if_false]
    by_cases bt : function = extConnBtSdioFunc
    · simp only [bt,not_true_eq_false,if_false]
      exact filled n _ (result w₁ rfl)
    · simp only [bt,not_false_eq_true,if_true]
      apply alone_exec (fun _ => rfl) (fun _ => rfl)
      apply alone_exec (fun _ => rfl) (fun _ => rfl)
      exact filled n _ (result _ rfl)
  · intro len
    exact missed

-- What `ESP_ERR_NOT_FINISHED` is for: a read that was cut says so, and a caller
-- that stops at a success has got everything the slave had told.
structure CutReported (outBuf : Ptr) (size : UInt32) (result : EspErr × Option UInt32) (s : State) : Prop where
  cut : size.toNat < s.2.reported → result = (.notFinished,some size) ∧ s.1.mem.read outBuf size.toNat = s.2.carried.take size.toNat
  whole : result.1 = .ok → s.2.reported ≤ size.toNat ∧ ∃ n, result.2 = some n ∧ n.toNat = s.2.reported ∧
    s.1.mem.read outBuf n.toNat = s.2.carried.take n.toNat

theorem cut_reported {t : Task} {function size waitMs : UInt32} {outBuf : Ptr} {w : World} {s' : State}
    (valid : SdioFunction function) (positive : size > 0)
    (run : Runs Eq ((port function).act t) (espExtconnSdioGetPacket function outBuf size waitMs) (w,⟨0,[]⟩) trace result s') :
    CutReported outBuf size result s' ↔ s'.2.reported ≤ size.toNat := by
  apply alone_runs _ run
  apply getPacket_wp valid positive
  · intro n s filled
    have count := filled.count
    constructor
    · intro reported
      exact (reported.whole rfl).1
    · intro fits
      constructor
      · intro above
        omega
      · intro _
        exact ⟨fits,n,rfl,by omega,filled.bytes⟩
  · constructor
    · intro _
      exact Nat.zero_le _
    · intro _
      exact ⟨fun above => absurd above (Nat.not_lt_zero _),nofun⟩

-- Eight bytes told and `n` taken: the call succeeds.
def eightTold (n : Nat) : List Ans := [{data := [8,0,0,0]},{},{data := List.take n [1,2,3,4,5,6,7,8]},{},{}]

theorem taken_of_eight {size : UInt32} (passed : (execute ((port 1).exec .transRecv) (espExtconnSdioGetPacket 1 recvBuf size 1000)
      (eightTold size.toNat) (World.initial espSipInit,⟨0,[]⟩)).any
        (fun result => decide (result.2.1 = (.ok,some size) ∧ result.2.2.2.reported = 8)) = true) :
    ∃ trace s', Runs Eq ((port 1).act .transRecv) (espExtconnSdioGetPacket 1 recvBuf size 1000) (World.initial espSipInit,⟨0,[]⟩) trace
      (.ok,some size) s' ∧ s'.2.reported = 8 := by
  obtain ⟨trace,result,s',run,passed⟩ := slave_executes (port 1) .transRecv (fun s => (rfl : s = s))
    (espExtconnSdioGetPacket 1 recvBuf size 1000) (eightTold size.toNat) (World.initial espSipInit,⟨0,[]⟩)
    (fun result s => decide (result = (.ok,some size) ∧ s.2.reported = 8)) passed
  obtain ⟨rfl,told⟩ := of_decide_eq_true passed
  exact ⟨trace,s',run,told⟩

theorem four_of_eight : ∃ trace s', Runs Eq ((port 1).act .transRecv) (espExtconnSdioGetPacket 1 recvBuf 4 1000)
    (World.initial espSipInit,⟨0,[]⟩) trace (.ok,some 4) s' ∧ s'.2.reported = 8 := taken_of_eight (by decide +kernel)

theorem eight_of_eight : ∃ trace s', Runs Eq ((port 1).act .transRecv) (espExtconnSdioGetPacket 1 recvBuf 8 1000)
    (World.initial espSipInit,⟨0,[]⟩) trace (.ok,some 8) s' ∧ s'.2.reported = 8 := taken_of_eight (by decide +kernel)

-- Room for eight bytes is enough, room for four is not.
theorem eight_told_cut :
    (∃ trace s', Runs Eq ((port 1).act .transRecv) (espExtconnSdioGetPacket 1 recvBuf 8 1000) (World.initial espSipInit,⟨0,[]⟩) trace
      (.ok,some 8) s' ∧ s'.2.reported = 8 ∧ CutReported recvBuf 8 (.ok,some 8) s') ∧
    ∃ trace s', Runs Eq ((port 1).act .transRecv) (espExtconnSdioGetPacket 1 recvBuf 4 1000) (World.initial espSipInit,⟨0,[]⟩) trace
      (.ok,some 4) s' ∧ s'.2.reported = 8 ∧ ¬ CutReported recvBuf 4 (.ok,some 4) s' := by
  constructor
  · obtain ⟨trace,s',run,told⟩ := eight_of_eight
    refine ⟨trace,s',run,told,(cut_reported (.inl rfl) (by decide) run).mpr ?_⟩
    rw [told]
    decide
  · obtain ⟨trace,s',run,told⟩ := four_of_eight
    refine ⟨trace,s',run,told,mt (cut_reported (.inl rfl) (by decide) run).mp ?_⟩
    rw [told]
    decide

theorem cut_not_reported : ¬ ∀ (function size waitMs : UInt32) (outBuf : Ptr) (t : Task) (w : World) trace result s',
    SdioFunction function → size > 0 →
    Runs Eq ((port function).act t) (espExtconnSdioGetPacket function outBuf size waitMs) (w,⟨0,[]⟩) trace result s' →
    CutReported outBuf size result s' := by
  intro claim
  obtain ⟨trace,s',run,told⟩ := four_of_eight
  have reported := claim 1 4 1000 recvBuf .transRecv _ _ _ _ (.inl rfl) (by decide) run
  have fits := (reported.whole rfl).1
  rw [told] at fits
  exact absurd fits (by decide)

end ExtConn.TruncatedRead
