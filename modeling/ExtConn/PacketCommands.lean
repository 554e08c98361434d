import ExtConn.TransmitChunks

namespace ExtConn.PacketCommands
open Effects ByteMemory TransmitChunks

-- One call of `sdmmc_io_rw_extended`, without its buffer.
structure Command where
  function : UInt32
  addr : UInt32
  blockMode : Bool
  increment : Bool
  size : UInt32
  deriving DecidableEq

def commandOf : Op → Option Command
  | .sdmmcIoRead function addr arg _ size => some ⟨function,addr,arg.blockMode,arg.increment,size⟩
  | .sdmmcIoWrite function addr arg _ size => some ⟨function,addr,arg.blockMode,arg.increment,size⟩
  | _ => none

def commands (trace : List Op) : List Command := trace.filterMap commandOf

theorem commands_append (one two : List Op) : commands (one ++ two) = commands one ++ commands two := List.filterMap_append

structure Routed (function : UInt32) (c : Command) : Prop where
  same : c.function = function
  increment : c.increment = true ↔ function = extConnWifiSdioFunc
  fixed : function = extConnBtSdioFunc → c.addr = 0

structure BlockMode (c : Command) : Prop where
  mode : c.blockMode = true
  positive : 0 < c.size.toNat
  whole : c.size.toNat % 512 = 0
  count : c.size.toNat / 512 ≤ 511

structure ByteMode (c : Command) : Prop where
  mode : c.blockMode = false
  aligned : c.size.toNat % 4 = 0
  least : 4 ≤ c.size.toNat
  most : c.size.toNat ≤ 512

def sizes (cs : List Command) : Nat := (cs.map fun c => c.size.toNat).sum

-- `rest` is the size of the byte-mode transfer before it is rounded up.
structure Packet (function : UInt32) (n : Nat) (cs : List Command) : Prop where
  routed : ∀ c ∈ cs, Routed function c
  split : ∃ blocks bytes rest, cs = blocks ++ bytes ∧ blocks.length ≤ 1 ∧ bytes.length ≤ 1 ∧ (∀ c ∈ blocks, BlockMode c) ∧
    (∀ c ∈ bytes, ByteMode c) ∧ sizes blocks + rest = n ∧ sizes bytes = (rest + 3) / 4 * 4

theorem empty_packet (function : UInt32) : Packet function 0 [] :=
  ⟨by simp,[],[],0,rfl,Nat.zero_le _,Nat.zero_le _,by simp,by simp,rfl,rfl⟩

theorem chunkAddr_bluetooth {function : UInt32} (bluetooth : function = extConnBtSdioFunc) (n : UInt32) : chunkAddr function n = 0 := by
  subst bluetooth
  rfl

section
variable {move : UInt32 → Cmd53Arg → Ptr → UInt32 → Op} {function : UInt32} {addrOf : UInt32 → UInt32}

theorem split_routed (moves : ∀ addr arg p size, commandOf (move addr arg p size) = some ⟨function,addr,arg.blockMode,arg.increment,size⟩)
    (fixed : function = extConnBtSdioFunc → ∀ n, addrOf n = 0) (start : Ptr) (n : UInt32) :
    ∀ c ∈ commands (splitOps move function addrOf start n), Routed function c := by
  have increment : incrementFor function = true ↔ function = extConnWifiSdioFunc := decide_eq_true_iff
  have routed (blockMode : Bool) (m size : UInt32) : Routed function ⟨function,addrOf m,blockMode,incrementFor function,size⟩ :=
    ⟨rfl,increment,fun bluetooth => fixed bluetooth m⟩
  intro c member
  unfold splitOps commands at member
  split at member
  · simp only [List.filterMap_cons,moves,List.filterMap_nil,List.mem_singleton] at member
    subst member
    exact routed ..
  · split at member
    · simp only [List.filterMap_cons,moves,List.filterMap_nil,List.mem_singleton] at member
      subst member
      exact routed ..
    · simp only [List.filterMap_cons,moves,List.filterMap_nil,List.mem_cons,List.not_mem_nil,or_false] at member
      rcases member with rfl | rfl
      · exact routed ..
      · exact routed ..

theorem split_packet {n : UInt32} (moves : ∀ addr arg p size, commandOf (move addr arg p size) =
      some ⟨function,addr,arg.blockMode,arg.increment,size⟩) (fixed : function = extConnBtSdioFunc → ∀ n, addrOf n = 0)
    (nonzero : 0 < n.toNat) (counted : n.toNat / 512 ≤ 511) (start : Ptr) :
    Packet function n.toNat (commands (splitOps move function addrOf start n)) := by
  refine ⟨split_routed moves fixed start n,?_⟩
  have blocks := blocksOf_toNat n
  have tail := tailOf_toNat n
  have left := Nat.mod_lt n.toNat (show 512 > 0 by omega)
  have whole : 512 ≤ n.toNat → BlockMode ⟨function,addrOf n,true,incrementFor function,blocksOf n⟩ := by
    intro large
    refine ⟨rfl,?_,?_,?_⟩
    all_goals
      rw [blocks]
      omega
  have rounded (m : UInt32) : 0 < m.toNat → m.toNat < 512 → ByteMode ⟨function,addrOf m,false,incrementFor function,roundFour m⟩ := by
    intro some_ small
    have size := roundFour_toNat small
    refine ⟨rfl,?_,?_,?_⟩
    all_goals
      rw [size]
      omega
  unfold splitOps commands
  split
  · rename_i small
    refine ⟨[],_,n.toNat,rfl,Nat.zero_le _,?_,by simp,?_,?_,?_⟩
    · simp [moves]
    · simpa [moves] using rounded n nonzero small
    · simp [sizes]
    · simp [moves,sizes,roundFour_toNat small]
  · rename_i large
    rw [Nat.not_lt] at large
    split
    · rename_i none
      have zero : (tailOf n).toNat = 0 := by rw [none]; rfl
      refine ⟨_,[],0,(List.append_nil _).symm,?_,Nat.zero_le _,?_,by simp,?_,rfl⟩
      · simp [moves]
      · simpa [moves] using whole large
      · simp [moves,sizes,blocks]
        omega
    · rename_i some_
      have more := (toNat_ne_zero _).mp some_
      have small : (tailOf n).toNat < 512 := by omega
      refine ⟨[⟨function,addrOf n,true,incrementFor function,blocksOf n⟩],
        [⟨function,addrOf (tailOf n),false,incrementFor function,roundFour (tailOf n)⟩],(tailOf n).toNat,?_,Nat.le_refl 1,Nat.le_refl 1,?_,?_,?_,?_⟩
      · simp [moves]
      · simpa using whole large
      · simpa using rounded _ more small
      · simp [sizes,blocks]
        omega
      · simp [sizes,roundFour_toNat small]

end

theorem quiet_commands (quiet : ∀ o ∈ trace, commandOf o = none) : commands trace = [] := List.filterMap_eq_nil_iff.mpr quiet

theorem send_packet {t : Task} {s s' : State} {trace : List Op} {n : UInt32} (bound : n.toNat ≤ 65535 + 8)
    (run : BusRuns t (espExtconnSdioSendPacket function start n) s trace result s') :
    result = .ok ∧ Packet function n.toNat (commands trace) := by
  rw [sendPacket_eq] at run
  obtain ⟨_,_,_,trace,rfl,_,_,run⟩ := runs_op.mp run
  unfold sendPacketRest at run
  obtain ⟨chunks,counting,err,m,rfl,chunking,run⟩ := run.unbind fun _ => trivial
  obtain ⟨rfl,packet⟩ : err = .ok ∧ Packet function n.toNat (commands chunks) := by
    by_cases nonzero : 0 < n.toNat
    · obtain ⟨written,rfl⟩ := sendPacketChunks_trace nonzero chunking
      exact ⟨written,split_packet (fun _ _ _ _ => rfl) (fun bluetooth _ => chunkAddr_bluetooth bluetooth n) nonzero (by omega) start⟩
    · have zero : n = 0 := by simpa using mt (toNat_ne_zero n).mp nonzero
      subst zero
      obtain ⟨rfl,rfl,_⟩ := runs_pure.mp chunking
      exact ⟨rfl,empty_packet function⟩
  have quiet : (afterChunks function n .ok).All fun o => commandOf o = none := by
    refine Prog.All.ite nofun fun _ => ?_
    refine Prog.All.ite (fun _ => ⟨rfl,fun _ => ⟨rfl,fun _ => ⟨rfl,fun host => ?_⟩⟩⟩) fun _ => ⟨rfl,fun _ => trivial⟩
    exact Prog.All.ite (fun _ => ⟨rfl,fun _ => ⟨rfl,fun _ => trivial⟩⟩) fun _ => ⟨rfl,fun _ => trivial⟩
  have success : (afterChunks function n .ok).Returns fun r => r = .ok := by
    unfold afterChunks
    refine Prog.Returns.ite rfl ?_
    exact Prog.Returns.ite (fun _ _ host => Prog.Returns.ite (fun _ _ => rfl) fun _ => rfl) fun _ => rfl
  refine ⟨Runs.returns (Q := fun r => r = .ok) success run,?_⟩
  have note : commands (.note (.sendPacket function start n) :: (chunks ++ counting)) = commands (chunks ++ counting) := rfl
  rw [note,commands_append,quiet_commands (run.all quiet),List.append_nil]
  exact packet

-- What `get_packet` asks the slave until a packet is there.
def lengthRead (function : UInt32) : Command :=
  ⟨1,if function = extConnBtSdioFunc then espSdioSlc1HostPf else espSdioPktLen,false,true,4⟩

theorem size_read {t : Task} {s s' : State} {trace : List Op} (run : BusRuns t (espExtconnSdioGetRxDataSize function) s trace r s') :
    r.1 = .ok ∧ commands trace = [lengthRead function] := by
  unfold espExtconnSdioGetRxDataSize at run
  simp only [Prog.bind_def,Prog.pure_def,issue_bind,readRegister,Prog.op_bind,Prog.pure_bind] at run
  obtain ⟨_,r₁,_,_,rfl,_,acted,run⟩ := runs_op.mp run
  rw [if_neg (by simp [read_succeeds acted])] at run
  split at run
  · obtain ⟨rfl,rfl,_⟩ := runs_pure.mp run
    exact ⟨rfl,rfl⟩
  · obtain ⟨_,_,_,_,rfl,_,_,run⟩ := runs_op.mp run
    obtain ⟨rfl,rfl,_⟩ := runs_pure.mp run
    exact ⟨rfl,rfl⟩

theorem waited {t : Task} {s s' : State} {trace : List Op} {fuel : Nat} {waitTime : UInt32}
    (run : BusRuns t (getPacketWait function waitMs fuel waitTime) s trace r s') :
    (r.1 = .ok ∨ r.1 = .timeout) ∧ ∀ c ∈ commands trace, c = lengthRead function := by
  induction fuel generalizing waitTime s trace with
  | zero =>
      obtain ⟨rfl,rfl,_⟩ := runs_pure.mp run
      exact ⟨.inr rfl,by simp [commands]⟩
  | succ fuel ih =>
      rw [getPacketWait] at run
      simp only [Prog.bind_def,Prog.pure_def,issue_bind] at run
      obtain ⟨one,two,⟨err,size⟩,m,rfl,polling,run⟩ := run.unbind fun _ => trivial
      obtain ⟨rfl,polled⟩ := size_read polling
      rw [commands_append,polled]
      split at run
      · obtain ⟨rfl,rfl,_⟩ := runs_pure.mp run
        exact ⟨.inl rfl,by simp [commands]⟩
      rw [if_neg (not_not_intro rfl)] at run
      split at run
      · obtain ⟨rfl,rfl,_⟩ := runs_pure.mp run
        exact ⟨.inr rfl,by simp [commands]⟩
      obtain ⟨_,_,_,rest,rfl,_,_,run⟩ := runs_op.mp run
      obtain ⟨ended,polls⟩ := ih run
      refine ⟨ended,?_⟩
      have delay : commands (.taskDelay 1 :: rest) = commands rest := rfl
      rw [delay]
      simpa using polls

-- The packet follows the reads of the length register; without a packet there are only these.
def Received (function : UInt32) (result : EspErr × Option UInt32) (cs : List Command) : Prop :=
  ∃ polls packet, cs = polls ++ packet ∧ (∀ c ∈ polls, c = lengthRead function) ∧
    ((∃ n, result = (.ok,some n) ∧ Packet function n.toNat packet) ∨
      (result.2 = none ∧ (result.1 = .timeout ∨ result.1 = .invalidArg) ∧ packet = []))

theorem get_packet {t : Task} {s s' : State} {trace : List Op} {size : UInt32} (bound : size.toNat ≤ 32768)
    (run : BusRuns t (espExtconnSdioGetPacket function outBuf size waitMs) s trace result s') :
    Received function result (commands trace) := by
  unfold espExtconnSdioGetPacket at run
  simp only [Prog.bind_def,Prog.pure_def,issue_bind] at run
  split at run
  · obtain ⟨rfl,rfl,_⟩ := runs_pure.mp run
    exact ⟨[],[],rfl,by simp,.inr ⟨rfl,.inr rfl,rfl⟩⟩
  obtain ⟨one,two,⟨err,len⟩,m,rfl,waiting,run⟩ := run.unbind fun _ => trivial
  obtain ⟨ended,polls⟩ := waited waiting
  rw [commands_append]
  refine ⟨_,_,rfl,polls,?_⟩
  split at run
  · rename_i failed
    obtain ⟨rfl,rfl,_⟩ := runs_pure.mp run
    rcases ended with success | timeout
    · exact absurd success failed
    · exact .inr ⟨rfl,.inl timeout,rfl⟩
  · obtain ⟨chunks,counting,err,m',rfl,chunking,run⟩ := run.unbind fun _ => trivial
    have limit : (if len > size then size else len).toNat ≤ 32768 := by
      split
      · exact bound
      · rename_i short
        rw [gt_iff_lt,UInt32.lt_iff_toNat_lt] at short
        omega
    generalize (if len > size then size else len) = n at *
    obtain ⟨rfl,packet⟩ : err = .ok ∧ Packet function n.toNat (commands chunks) := by
      by_cases nonzero : 0 < n.toNat
      · obtain ⟨moved,rfl⟩ := getPacketChunks_trace nonzero chunking
        exact ⟨moved,split_packet (fun _ _ _ _ => rfl) (fun bluetooth => chunkAddr_bluetooth bluetooth) nonzero (by omega) outBuf⟩
      · have zero : n = 0 := by simpa using mt (toNat_ne_zero n).mp nonzero
        subst zero
        obtain ⟨rfl,rfl,_⟩ := runs_pure.mp chunking
        exact ⟨rfl,empty_packet function⟩
    rw [if_neg (not_not_intro rfl)] at run
    left
    refine ⟨n,?_⟩
    rw [commands_append]
    split at run
    · obtain ⟨_,_,_,_,rfl,_,_,run⟩ := runs_op.mp run
      obtain ⟨_,_,_,_,rfl,_,_,run⟩ := runs_op.mp run
      obtain ⟨rfl,rfl,_⟩ := runs_pure.mp run
      exact ⟨rfl,(List.append_nil (commands chunks)).symm ▸ packet⟩
    · obtain ⟨rfl,rfl,_⟩ := runs_pure.mp run
      exact ⟨rfl,(List.append_nil (commands chunks)).symm ▸ packet⟩

theorem packets_legal {t : Task} {s s' : State} {trace : List Op} :
    (∀ (function : UInt32) (start : Ptr) (n : UInt32) (result : EspErr), n.toNat ≤ 65535 + 8 →
      BusRuns t (espExtconnSdioSendPacket function start n) s trace result s' → result = .ok ∧ Packet function n.toNat (commands trace)) ∧
    ∀ (function : UInt32) (outBuf : Ptr) (size waitMs : UInt32) (result : EspErr × Option UInt32), size.toNat ≤ 32768 →
      BusRuns t (espExtconnSdioGetPacket function outBuf size waitMs) s trace result s' → Received function result (commands trace) :=
  ⟨fun _ _ _ _ bound run => send_packet bound run,fun _ _ _ _ _ bound run => get_packet bound run⟩

-- 516 bytes: the length is read, then one block, then the four bytes behind it.
def idle : World := World.initial espSipInit

def readAnswers : List Ans :=
  [{data := [4,2,0,0]},{},{data := List.replicate 512 7},{data := List.replicate 4 7},{},{}]

def received : Option (List Op × (EspErr × Option UInt32) × State) :=
  execute (reliableBus.exec .transRecv) (espExtconnSdioGetPacket extConnWifiSdioFunc recvBuf 32768 1) readAnswers (idle,())

theorem packet_read : ∃ trace result s',
    BusRuns .transRecv (espExtconnSdioGetPacket extConnWifiSdioFunc recvBuf 32768 1) (idle,()) trace result s' ∧
    (commands trace).length = 3 := by
  have passed : received.any (fun r => (commands r.1).length = 3) = true := by decide +kernel
  cases ran : received with
  | none => simp [ran] at passed
  | some r =>
      obtain ⟨trace,result,s'⟩ := r
      rw [ran] at passed
      exact ⟨trace,result,s',execute_runs (fun _ => trivial) (fun _ ans _ _ _ acted => ⟨ans,acted⟩) ran,of_decide_eq_true passed⟩

theorem packets_sent_and_received :
    (∃ trace result s', BusRuns .btTx (espExtconnSdioSendPacket extConnBtSdioFunc recvBuf 65543) (idle,()) trace result s' ∧
      Packet extConnBtSdioFunc 65543 (commands trace)) ∧
    ∃ trace result s', BusRuns .transRecv (espExtconnSdioGetPacket extConnWifiSdioFunc recvBuf 32768 1) (idle,()) trace result s' ∧
      Received extConnWifiSdioFunc result (commands trace) := by
  have steps (s : State) : anything s s := trivial
  obtain ⟨sent,result,s₁,sending,_⟩ := slave_executes reliableBus .btTx steps
    (espExtconnSdioSendPacket extConnBtSdioFunc recvBuf 65543) (List.replicate 8 {}) (idle,()) (fun _ _ => true) (by decide +kernel)
  obtain ⟨received,result',s₂,receiving,_⟩ := packet_read
  exact ⟨⟨_,_,_,sending,(packets_legal.1 _ _ _ _ (by decide) sending).2⟩,_,_,_,receiving,packets_legal.2 _ _ _ _ _ (by decide) receiving⟩

theorem third_call : ¬ ∀ (t : Task) (function : UInt32) (outBuf : Ptr) (size waitMs : UInt32) (s : State) (trace : List Op)
    (result : EspErr × Option UInt32) (s' : State), size.toNat ≤ 32768 →
    BusRuns t (espExtconnSdioGetPacket function outBuf size waitMs) s trace result s' → (commands trace).length ≤ 2 := by
  intro every
  obtain ⟨trace,result,s',run,three⟩ := packet_read
  have two := every _ _ _ _ _ _ _ _ _ (by decide) run
  omega

end ExtConn.PacketCommands
