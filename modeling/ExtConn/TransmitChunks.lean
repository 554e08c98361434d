import ExtConn.Footprint

namespace ExtConn.TransmitChunks
open Effects ByteMemory

-- A transfer of packet bytes between memory and function 1.
structure Transfer where
  addr : UInt32
  buffer : Ptr
  size : UInt32
  blockMode : Bool
  deriving DecidableEq

def transferOf : Op → Option Transfer
  | .sdmmcIoRead _ addr arg (.mem p) size => some ⟨addr,p,size,arg.blockMode⟩
  | .sdmmcIoWrite _ addr arg (.mem p) size => some ⟨addr,p,size,arg.blockMode⟩
  | _ => none

def transfers (trace : List Op) : List Transfer := trace.filterMap transferOf

-- The chunks from offset `o` on tile a packet of `n` bytes: each address tells
-- how many bytes are still to come, and bytes past the end are discarded.
def Tiles (start : Ptr) (n : Nat) : Nat → List Transfer → Prop
  | o,[] => o = n
  | o,c :: rest => o < n ∧ c.buffer = start.add o ∧ c.addr.toNat + (n - o) = espSlaveCmd53EndAddr.toNat ∧
      0 < c.size.toNat ∧ Tiles start n (o + min c.size.toNat (n - o)) rest

instance decidableTiles (start : Ptr) (n : Nat) : (o : Nat) → (chunks : List Transfer) → Decidable (Tiles start n o chunks)
  | o,[] => inferInstanceAs (Decidable (o = n))
  | o,c :: rest =>
    have := decidableTiles start n (o + min c.size.toNat (n - o)) rest
    inferInstanceAs (Decidable (_ ∧ _ ∧ _ ∧ _ ∧ _))

-- A bus on which no transfer fails; everything else is left open.
def reliableBus : Slave Unit where
  answers _ _ o ans d := match o with
    | .sdmmcIoRead .. | .sdmmcIoWrite .. => if ans.err = .ok then some d else none
    | _ => some d
  moves _ _ := True

abbrev State := World × Unit

def anything (_ _ : State) : Prop := True

abbrev BusRuns (t : Task) (p : Code α) := Runs anything (reliableBus.act t) p

-- The split of a packet into whole blocks and a rounded rest.
def splitAt (addrOf : UInt32 → UInt32) (start : Ptr) (n : UInt32) : List Transfer :=
  if n.toNat < 512 then [⟨addrOf n,start,roundFour n,false⟩]
  else ⟨addrOf n,start,blocksOf n,true⟩ ::
    if tailOf n = 0 then [] else [⟨addrOf (tailOf n),start.add (blocksOf n).toNat,roundFour (tailOf n),false⟩]

theorem read_succeeds {t : Task} {s s' : State} {r : EspErr × List UInt8}
    (acted : reliableBus.act t (.sdmmcIoRead function addr arg dst size) s r s') : r.1 = .ok := by
  obtain ⟨ans,executed,answered⟩ := act_iff.mp acted
  simp only [reliableBus] at answered
  split at answered
  · rename_i success
    rw [(read_exec executed).1]
    exact success
  · cases answered

theorem write_succeeds {t : Task} {s s' : State} {r : EspErr}
    (acted : reliableBus.act t (.sdmmcIoWrite function addr arg src size) s r s') : r = .ok := by
  obtain ⟨ans,executed,answered⟩ := act_iff.mp acted
  simp only [reliableBus] at answered
  split at answered
  · rename_i success
    simp only [World.exec,Option.some.injEq,Prod.mk.injEq] at executed
    rw [← executed.1]
    exact success
  · cases answered

-- The operations behind such a split; `move` reads or writes.
def splitOps (move : UInt32 → Cmd53Arg → Ptr → UInt32 → Op) (function : UInt32) (addrOf : UInt32 → UInt32) (start : Ptr) (n : UInt32) : List Op :=
  if n.toNat < 512 then [move (addrOf n) {increment := incrementFor function} start (roundFour n)]
  else move (addrOf n) {blockMode := true,increment := incrementFor function} start (blocksOf n) ::
    if tailOf n = 0 then []
    else [move (addrOf (tailOf n)) {increment := incrementFor function} (start.add (blocksOf n).toNat) (roundFour (tailOf n))]

theorem splitOps_transfers {move : UInt32 → Cmd53Arg → Ptr → UInt32 → Op}
    (moves : ∀ addr arg p size, transferOf (move addr arg p size) = some ⟨addr,p,size,arg.blockMode⟩)
    (function : UInt32) (addrOf : UInt32 → UInt32) (start : Ptr) (n : UInt32) :
    transfers (splitOps move function addrOf start n) = splitAt addrOf start n := by
  unfold splitOps splitAt transfers
  split
  · simp [moves]
  · split <;> simp [moves]

def reading (function addr : UInt32) (arg : Cmd53Arg) (p : Ptr) (size : UInt32) : Op := .sdmmcIoRead function addr arg (.mem p) size
def writing (function addr : UInt32) (arg : Cmd53Arg) (p : Ptr) (size : UInt32) : Op := .sdmmcIoWrite function addr arg (.mem p) size

theorem readTail_trace {t : Task} {s s' : State} {trace : List Op} (run : BusRuns t (readTail function p n) s trace err s') :
    err = .ok ∧ trace = [reading function (chunkAddr function n) {increment := incrementFor function} p (roundFour n)] := by
  obtain ⟨s₁,r,s₂,rest,rfl,_,acted,done⟩ := runs_op.mp run
  obtain ⟨rfl,rfl,_⟩ := runs_pure.mp done
  exact ⟨read_succeeds acted,rfl⟩

theorem writeTail_trace {t : Task} {s s' : State} {trace : List Op}
    (run : BusRuns t (writeTail function addr p n) s trace err s') :
    err = .ok ∧ trace = [writing function addr {increment := incrementFor function} p (roundFour n)] := by
  obtain ⟨s₁,r,s₂,rest,rfl,_,acted,done⟩ := runs_op.mp run
  obtain ⟨rfl,rfl,_⟩ := runs_pure.mp done
  exact ⟨write_succeeds acted,rfl⟩

theorem getPacketChunks_trace {t : Task} {s s' : State} {trace : List Op} {n : UInt32} (nonzero : 0 < n.toNat)
    (run : BusRuns t (getPacketChunks function (n.toNat + 1) p n) s trace err s') :
    err = .ok ∧ trace = splitOps (reading function) function (chunkAddr function) p n := by
  by_cases small : n.toNat < 512
  · rw [getPacketChunks_tail _ _ _ nonzero small] at run
    rw [splitOps,if_pos small]
    exact readTail_trace run
  obtain ⟨fuel,bound⟩ : ∃ fuel, n.toNat + 1 = fuel + 2 := ⟨n.toNat - 1,by omega⟩
  rw [bound,getPacketChunks_blocks _ _ _ (by omega)] at run
  obtain ⟨s₁,r,s₂,rest,rfl,_,acted,continued⟩ := runs_op.mp run
  rw [if_neg (by simp [read_succeeds acted])] at continued
  rw [splitOps,if_neg small]
  by_cases done : tailOf n = 0
  · rw [if_pos done] at continued ⊢
    obtain ⟨rfl,rfl,_⟩ := runs_pure.mp continued
    exact ⟨rfl,rfl⟩
  · rw [if_neg done] at continued ⊢
    obtain ⟨success,rfl⟩ := readTail_trace continued
    exact ⟨success,rfl⟩

theorem sendPacketChunks_trace {t : Task} {s s' : State} {trace : List Op} {n : UInt32} (nonzero : 0 < n.toNat)
    (run : BusRuns t (sendPacketChunks function addr (n.toNat + 1) p n) s trace err s') :
    err = .ok ∧ trace = splitOps (writing function) function (fun _ => addr) p n := by
  by_cases small : n.toNat < 512
  · rw [sendPacketChunks_tail _ _ _ _ nonzero small] at run
    rw [splitOps,if_pos small]
    exact writeTail_trace run
  obtain ⟨fuel,bound⟩ : ∃ fuel, n.toNat + 1 = fuel + 2 := ⟨n.toNat - 1,by omega⟩
  rw [bound,sendPacketChunks_blocks _ _ _ _ (by omega)] at run
  obtain ⟨s₁,r,s₂,rest,rfl,_,acted,continued⟩ := runs_op.mp run
  rw [if_neg (by simp [write_succeeds acted])] at continued
  rw [splitOps,if_neg small]
  by_cases done : tailOf n = 0
  · rw [if_pos done] at continued ⊢
    obtain ⟨rfl,rfl,_⟩ := runs_pure.mp continued
    exact ⟨rfl,rfl⟩
  · rw [if_neg done] at continued ⊢
    obtain ⟨success,rfl⟩ := writeTail_trace continued
    exact ⟨success,rfl⟩

theorem getPacketChunks_transfers {t : Task} {s s' : State} {trace : List Op} {n : UInt32} (nonzero : 0 < n.toNat)
    (run : BusRuns t (getPacketChunks function (n.toNat + 1) p n) s trace err s') :
    err = .ok ∧ transfers trace = splitAt (chunkAddr function) p n := by
  obtain ⟨success,rfl⟩ := getPacketChunks_trace nonzero run
  exact ⟨success,splitOps_transfers (fun _ _ _ _ => rfl) ..⟩

theorem sendPacketChunks_transfers {t : Task} {s s' : State} {trace : List Op} {n : UInt32} (nonzero : 0 < n.toNat)
    (run : BusRuns t (sendPacketChunks function addr (n.toNat + 1) p n) s trace err s') :
    err = .ok ∧ transfers trace = splitAt (fun _ => addr) p n := by
  obtain ⟨success,rfl⟩ := sendPacketChunks_trace nonzero run
  exact ⟨success,splitOps_transfers (fun _ _ _ _ => rfl) ..⟩

-- Everything else these two functions do moves no packet bytes.
def Silent (o : Op) : Prop := transferOf o = none

theorem silent_transfers (silent : ∀ o ∈ trace, Silent o) : transfers trace = [] :=
  List.filterMap_eq_nil_iff.mpr silent

theorem transfers_append (one two : List Op) : transfers (one ++ two) = transfers one ++ transfers two :=
  List.filterMap_append

-- The chunk loop followed by bookkeeping that returns a length on success.
theorem getPacket_transfers {t : Task} {s s' : State} {trace : List Op} {n : UInt32} (nonzero : 0 < n.toNat)
    (run : BusRuns t (espExtconnSdioGetPacket extConnWifiSdioFunc outBuf size waitMs) s trace (.ok,some n) s') :
    transfers trace = splitAt (chunkAddr extConnWifiSdioFunc) outBuf n := by
  have wifi : extConnWifiSdioFunc ≠ extConnBtSdioFunc := by decide
  unfold espExtconnSdioGetPacket at run
  simp only [Prog.bind_def,Prog.pure_def,issue_bind,if_pos wifi] at run
  split at run
  · obtain ⟨_,wrong,_⟩ := runs_pure.mp run
    cases wrong
  obtain ⟨one,two,⟨err,len⟩,m,rfl,waiting,rest⟩ := run.unbind fun _ => trivial
  have quiet := getPacketWait_all (P := Silent) (fun _ _ => rfl) rfl rfl extConnWifiSdioFunc waitMs (waitMs.toNat + 1) 0
  have silent := silent_transfers (waiting.all quiet)
  split at rest
  · obtain ⟨_,wrong,_⟩ := runs_pure.mp rest
    cases wrong
  obtain ⟨chunks,counting,err,m',rfl,chunking,rest⟩ := rest.unbind fun _ => trivial
  split at rest
  · obtain ⟨_,wrong,_⟩ := runs_pure.mp rest
    cases wrong
  obtain ⟨_,_,_,_,rfl,_,_,rest⟩ := runs_op.mp rest
  obtain ⟨_,_,_,_,rfl,_,_,rest⟩ := runs_op.mp rest
  obtain ⟨rfl,same,_⟩ := runs_pure.mp rest
  simp only [Prod.mk.injEq,Option.some.injEq,true_and] at same
  subst same
  rw [transfers_append,transfers_append,silent,(getPacketChunks_transfers nonzero chunking).2]
  rw [silent_transfers (by simp [Silent,transferOf]),List.nil_append,List.append_nil]

theorem sendPacket_transfers {t : Task} {s s' : State} {trace : List Op} {n : UInt32} (nonzero : 0 < n.toNat)
    (run : BusRuns t (espExtconnSdioSendPacket extConnWifiSdioFunc start n) s trace result s') :
    transfers trace = splitAt (fun _ => chunkAddr extConnWifiSdioFunc n) start n := by
  have wifi : extConnWifiSdioFunc ≠ extConnBtSdioFunc := by decide
  unfold espExtconnSdioSendPacket at run
  simp only [Prog.bind_def,Prog.pure_def,issue_bind,if_pos wifi] at run
  obtain ⟨_,_,_,rest,rfl,_,_,run⟩ := runs_op.mp run
  obtain ⟨chunks,counting,err,m,rfl,chunking,run⟩ := run.unbind fun _ => trivial
  obtain ⟨rfl,written⟩ := sendPacketChunks_transfers nonzero chunking
  rw [if_neg (by decide)] at run
  have silent : transfers counting = [] := by
    refine silent_transfers (run.all ?_)
    refine ⟨rfl,fun host => ⟨rfl,fun _ => ⟨rfl,fun host => ?_⟩⟩⟩
    exact Prog.All.ite (fun _ => ⟨rfl,fun _ => ⟨rfl,fun _ => trivial⟩⟩) fun _ => ⟨rfl,fun _ => trivial⟩
  have note : transfers (.note (.sendPacket extConnWifiSdioFunc start n) :: (chunks ++ counting)) = transfers (chunks ++ counting) := rfl
  rw [note,transfers_append,written,silent,List.append_nil]

theorem chunkAddr_counts {n : UInt32} (fits : n.toNat < 2 ^ 16) :
    (chunkAddr extConnWifiSdioFunc n).toNat + n.toNat = espSlaveCmd53EndAddr.toNat := by
  have stop : espSlaveCmd53EndAddr.toNat = 129024 := rfl
  have below : n ≤ espSlaveCmd53EndAddr := by
    rw [UInt32.le_iff_toNat_le,stop]
    omega
  rw [chunkAddr,if_pos rfl,UInt32.toNat_sub_of_le _ _ below,stop]
  omega

theorem single_tiles {n : UInt32} (addrOf : UInt32 → UInt32) (start : Ptr) (nonzero : 0 < n.toNat) (small : n.toNat < 512)
    (counts : (addrOf n).toNat + n.toNat = espSlaveCmd53EndAddr.toNat) : Tiles start n.toNat 0 (splitAt addrOf start n) := by
  have rounded := roundFour_toNat small
  rw [splitAt,if_pos small]
  refine ⟨nonzero,rfl,by omega,by simp only; omega,?_⟩
  simp only [Tiles]
  omega

-- A packet of at least one block is tiled exactly when the rest, if there is
-- one, is addressed by its own length.
theorem split_tiles {n : UInt32} (addrOf : UInt32 → UInt32) (start : Ptr) (large : 512 ≤ n.toNat)
    (counts : (addrOf n).toNat + n.toNat = espSlaveCmd53EndAddr.toNat) :
    Tiles start n.toNat 0 (splitAt addrOf start n) ↔ tailOf n = 0 ∨
      (addrOf (tailOf n)).toNat + (tailOf n).toNat = espSlaveCmd53EndAddr.toNat := by
  have blocks := blocksOf_toNat n
  have rest := tailOf_toNat n
  have zero : (0 : UInt32).toNat = 0 := rfl
  rw [splitAt,if_neg (by omega)]
  by_cases done : tailOf n = 0
  · rw [done,zero] at rest
    simp only [done,if_true,Tiles,true_or,iff_true,Ptr.add_zero,true_and,Nat.sub_zero]
    omega
  · have rounded := @roundFour_toNat (tailOf n) (by omega)
    have positive := (toNat_ne_zero _).mp done
    have offset : 0 + min (blocksOf n).toNat n.toNat = (blocksOf n).toNat := by omega
    have left : n.toNat - (blocksOf n).toNat = (tailOf n).toNat := by omega
    simp only [done,if_false,Tiles,false_or,Ptr.add_zero,true_and,Nat.sub_zero,offset,left]
    constructor
    · rintro ⟨_,_,_,_,here,_⟩
      exact here
    · intro here
      exact ⟨by omega,counts,by omega,by omega,here,by omega,by omega⟩

-- The reads of `get_packet` tile every packet.
theorem receive_tiles {n : UInt32} (outBuf : Ptr) (nonzero : 0 < n.toNat) (fits : n.toNat < 2 ^ 16) :
    Tiles outBuf n.toNat 0 (splitAt (chunkAddr extConnWifiSdioFunc) outBuf n) := by
  have rest := tailOf_toNat n
  by_cases small : n.toNat < 512
  · exact single_tiles _ _ nonzero small (chunkAddr_counts fits)
  · exact (split_tiles _ _ (by omega) (chunkAddr_counts fits)).mpr (.inr (chunkAddr_counts (by omega)))

-- What is asked of a packet of `n` bytes: every way of sending it tiles it, and
-- does so in the same chunks as every way of receiving such a packet.
def SentAsReceived (n : UInt32) : Prop :=
  ∀ t start s trace result s', BusRuns t (espExtconnSdioSendPacket extConnWifiSdioFunc start n) s trace result s' →
    Tiles start n.toNat 0 (transfers trace) ∧
    ∀ t' size waitMs r received r', BusRuns t' (espExtconnSdioGetPacket extConnWifiSdioFunc start size waitMs) r received (.ok,some n) r' →
      transfers trace = transfers received

-- No operation of `send_packet` can block, so it always has a run.
theorem send_runs (t : Task) (start : Ptr) (n : UInt32) (s : State) : ∃ trace result s',
    BusRuns t (espExtconnSdioSendPacket extConnWifiSdioFunc start n) s trace result s' := by
  have free : ∀ o : Op, ∀ s : State, reliableBus.answers t s.1 o {} s.2 = some () := by
    intro o s
    simp only [reliableBus]
    split <;> rfl
  refine Prog.All.runs (fun _ => trivial) ?_ s
  refine sendPacket_all (fun _ _ _ s => ?_) (fun _ _ s => ?_) (fun s => ?_) (fun _ _ s => ?_) start
  all_goals exact ⟨_,(_,()),act_iff.mpr ⟨{},rfl,free _ s⟩⟩

theorem sent_as_received_iff (n : UInt32) (nonzero : 0 < n.toNat) (fits : n.toNat < 2 ^ 16) :
    SentAsReceived n ↔ n.toNat < 512 ∨ n.toNat % 512 = 0 := by
  have rest := tailOf_toNat n
  have counts := chunkAddr_counts fits
  by_cases small : n.toNat < 512
  · refine ⟨fun _ => .inl small,fun _ t start s trace result s' run => ?_⟩
    have sent := sendPacket_transfers nonzero run
    refine ⟨by rw [sent]; exact single_tiles _ _ nonzero small counts,?_⟩
    intro t' size waitMs r received r' run'
    rw [sent,getPacket_transfers nonzero run',splitAt,splitAt,if_pos small,if_pos small]
  · have split := fun start => split_tiles (fun _ => chunkAddr extConnWifiSdioFunc n) start (by omega) counts
    -- only the rest after the blocks can be addressed wrongly
    constructor
    · intro all
      obtain ⟨trace,result,s',run⟩ := send_runs .wifiSend recvBuf n (World.initial espSipInit,())
      have tiles := (all _ _ _ _ _ _ run).1
      rw [sendPacket_transfers nonzero run] at tiles
      rcases (split recvBuf).mp tiles with done | wrong
      · have zero : (0 : UInt32).toNat = 0 := rfl
        rw [done,zero] at rest
        exact .inr (by omega)
      · omega
    · rintro (below | whole)
      · exact absurd below small
      have done : tailOf n = 0 := by
        apply UInt32.toNat_inj.mp
        rw [rest,whole]
        rfl
      intro t start s trace result s' run
      have sent := sendPacket_transfers nonzero run
      refine ⟨by rw [sent]; exact (split start).mpr (.inl done),?_⟩
      intro t' size waitMs r received r' run'
      rw [sent,getPacket_transfers nonzero run',splitAt,splitAt,if_neg small,if_neg small,if_pos done,if_pos done]

theorem two_blocks_sent_as_received : SentAsReceived 1024 :=
  (sent_as_received_iff 1024 (by decide) (by decide)).mpr (.inr (by decide))

-- 516 bytes: the last four go to the address that announces 516.
theorem not_sent_as_received : ¬ SentAsReceived 516 := by
  intro all
  obtain ⟨trace,result,s',run⟩ := send_runs .wifiSend recvBuf 516 (World.initial espSipInit,())
  have tiles := (all _ _ _ _ _ _ run).1
  rw [sendPacket_transfers (by decide) run] at tiles
  exact absurd tiles (by decide)

end ExtConn.TransmitChunks
