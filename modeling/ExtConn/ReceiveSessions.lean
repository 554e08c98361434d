import ExtConn.RxStream
import ExtConn.Transport

namespace ExtConn.ReceiveSessions
open Effects ByteMemory RxStream

def segment (bytes : List UInt8) (first last : Nat) : List UInt8 := (bytes.drop first).take (last - first)

theorem segment_append {bytes : List UInt8} (ordered : first ≤ last) (within : last ≤ bytes.length) (more : List UInt8) :
    segment (bytes ++ more) first last = segment bytes first last := by
  unfold segment
  rw [List.drop_append_of_le_length (by omega),List.take_append_of_le_length (by rw [List.length_drop]; omega)]

theorem segment_join (bytes : List UInt8) (one : a ≤ b) (two : b ≤ c) :
    segment bytes a b ++ segment bytes b c = segment bytes a c := by
  unfold segment
  have split : c - a = (b - a) + (c - b) := by omega
  have back : a + (b - a) = b := by omega
  rw [split,List.take_add,List.drop_drop,back]

-- What a call hands to its caller through `out_buf` and `out_length`.
def deliveries (outBuf : Ptr) (m : Mem) : EspErr × Option UInt32 → List (List UInt8)
  | (.ok,some n) => [m.read outBuf n.toNat]
  | _ => []

-- A run of any length: calls follow one another, the slave appends between and
-- during them, and the rest of the host does anything that leaves `total_rx`
-- alone, and during a call the buffer.
inductive Session (start : State) : List (List UInt8) → State → Prop where
  | start : Session start [] start
  | between : Session start got s → s'.1.host.totalRx = s.1.host.totalRx → s.2.appends False s'.2 → Session start got s'
  | call (t : Task) : Session start got s → size > 0 → Runs (Around False outBuf.blk) (rxSlave.act t)
      (espExtconnSdioGetPacket extConnWifiSdioFunc outBuf size waitMs) s trace result s' →
      Session start (got ++ deliveries outBuf s'.1.mem result) s'

theorem Called.around {s s' s'' : State} (called : Called idle outBuf size s result s')
    (moved : Around idle outBuf.blk s' s'') : Called idle outBuf size s result s'' := by
  have counted := called.counted.around moved
  have within := called.counted.within
  obtain ⟨more,appended,quiet⟩ := called.appended
  obtain ⟨read,more',stream,quiet'⟩ := appends_stream moved.slave
  refine ⟨counted,⟨more ++ more',by rw [stream,appended,List.append_assoc],fun still => ?_⟩,?_,?_,called.answered⟩
  · rw [quiet still,quiet' still,List.append_nil]
  · intro n done out
    obtain ⟨positive,advanced,bytes,polled⟩ := called.delivered n done out
    refine ⟨positive,by rw [read,advanced],?_,polled⟩
    have same : s''.1.mem.read outBuf n.toNat = s'.1.mem.read outBuf n.toNat := read_same moved.buffer
    rw [same,bytes,stream,List.drop_append_of_le_length (by omega)]
    exact (List.take_append_of_le_length (by rw [List.length_drop]; omega)).symm
  · intro failed
    obtain ⟨nothing,idle,empty⟩ := called.missed failed
    exact ⟨nothing,by rw [read,idle],empty⟩

theorem Sized.around {s s' s'' : State} (sized : Sized idle blk s result s') (moved : Around idle blk s' s'') :
    Sized idle blk s result s'' := by
  obtain ⟨len,m,value,before,after,size⟩ := sized
  exact ⟨len,m,value,before,around_trans after moved,size⟩

theorem call_called {t : Task} {s s' : State} (valid : Counted s) (positive : size > 0)
    (run : Runs (Around idle outBuf.blk) (rxSlave.act t)
      (espExtconnSdioGetPacket extConnWifiSdioFunc outBuf size waitMs) s trace result s') :
    Called idle outBuf size s result s' :=
  wp_runs (C := rxContract idle outBuf.blk t) (fun _ _ _ called moved => Called.around called moved)
    (getPacket_wp valid outBuf size waitMs positive) run

theorem poll_sized {t : Task} {s s' : State} (valid : Counted s)
    (run : Runs (Around idle blk) (rxSlave.act t) (espExtconnSdioGetRxDataSize extConnWifiSdioFunc) s trace result s') :
    Sized idle blk s result s' :=
  wp_runs (C := rxContract idle blk t) (fun _ _ _ sized moved => Sized.around sized moved) (getRxDataSize_wp valid) run

structure Received (start : State) (got : List (List UInt8)) (s : State) : Prop where
  counted : Counted s
  advanced : start.2.read ≤ s.2.read
  bytes : got.flatten = segment s.2.stream start.2.read s.2.read

-- One call adds exactly the bytes between the two read positions.
theorem Received.call {start s s' : State} (received : Received start got s) (called : Called idle outBuf size s result s') :
    Received start (got ++ deliveries outBuf s'.1.mem result) s' := by
  have within := received.counted.within
  have ordered := received.advanced
  have counted := called.counted
  obtain ⟨more,appended,_⟩ := called.appended
  have before : got.flatten = segment s'.2.stream start.2.read s.2.read := by
    rw [appended,segment_append ordered within,received.bytes]
  obtain ⟨err,out⟩ := result
  by_cases success : err = .ok
  · subst err
    cases out with
    | none => exact absurd rfl (called.answered rfl)
    | some n =>
        obtain ⟨_,read,bytes,_⟩ := called.delivered n rfl rfl
        have part : s'.1.mem.read outBuf n.toNat = segment s'.2.stream s.2.read s'.2.read := by
          rw [bytes,segment,read,Nat.add_sub_cancel_left]
        refine ⟨counted,by omega,?_⟩
        rw [deliveries,List.flatten_append,before,List.flatten_singleton,part]
        exact segment_join _ ordered (by omega)
  · obtain ⟨nothing,idle,_⟩ := called.missed success
    obtain rfl : out = none := nothing
    have nothing : deliveries outBuf s'.1.mem (err,none) = [] := by
      unfold deliveries
      split
      · rename_i same; cases same
      · rfl
    refine ⟨counted,by omega,?_⟩
    rw [nothing,List.append_nil,before,idle]

theorem session_received {start s : State} (counted : Counted start) (session : Session start got s) :
    Received start got s := by
  induction session with
  | start => exact ⟨counted,Nat.le_refl _,by simp [segment]⟩
  | between session same moved ih =>
      obtain ⟨known,advanced,bytes⟩ := ih
      have within := known.within
      have buffered := known.toBuffered.appends moved
      obtain ⟨read,more,stream,_⟩ := appends_stream moved
      refine ⟨⟨buffered,?_⟩,by rw [read]; exact advanced,?_⟩
      · rw [same,read]
        exact known.counted
      · rw [read,stream,bytes]
        exact (segment_append advanced within more).symm
  | call t session positive run ih => exact ih.call (call_called ih.counted positive run)

theorem receive_stream_lossless {start s : State} {got : List (List UInt8)} (counted : Counted start)
    (fresh : start.2.read = 0) (session : Session start got s) :
    got.flatten = s.2.stream.take s.2.read ∧ s.1.host.totalRx.toNat = s.2.read % 2 ^ 32 ∧
    (∀ t blk trace result s',
      Runs (Around False blk) (rxSlave.act t) (espExtconnSdioGetRxDataSize extConnWifiSdioFunc) s trace result s' →
      ∃ len m, result = (.ok,some len) ∧ Around False blk s m ∧ Around False blk m s' ∧ len.toNat = m.2.backlog) ∧
    ∀ t outBuf size waitMs trace result s', size > 0 →
      Runs (Around False outBuf.blk) (rxSlave.act t)
        (espExtconnSdioGetPacket extConnWifiSdioFunc outBuf size waitMs) s trace result s' →
      Called False outBuf size s result s' := by
  obtain ⟨known,advanced,bytes⟩ := session_received counted session
  refine ⟨?_,known.counted,fun t blk trace result s' run => poll_sized known run,?_⟩
  · rw [bytes,segment,fresh,List.drop_zero,Nat.sub_zero]
  · intro t outBuf size waitMs trace result s' positive run
    exact call_called known positive run

-- Six bytes wait, the caller takes four of them.
def sixBytes : State := (World.initial espSipInit,⟨[1,2,3,4,5,6],0⟩)

def fourOfSix : List Ans := [{data := [6,0,0,0]},{},{data := [1,2,3,4]},{},{}]

theorem four_of_six_delivered : ∃ s got, Session sixBytes got s ∧ got.flatten = [1,2,3,4] ∧
    got.flatten = s.2.stream.take s.2.read := by
  have counted : Counted sixBytes := ⟨⟨by decide,by decide⟩,by decide⟩
  obtain ⟨trace,result,s',run,passed⟩ := slave_executes rxSlave .transRecv around_refl
    (espExtconnSdioGetPacket extConnWifiSdioFunc recvBuf 4 50) fourOfSix sixBytes
    (fun result s' => decide ((deliveries recvBuf s'.1.mem result).flatten = [1,2,3,4])) (by decide)
  have session := Session.call .transRecv Session.start (by decide) run
  exact ⟨s',_,session,by simpa using passed,(receive_stream_lossless counted rfl session).1⟩

end ExtConn.ReceiveSessions
