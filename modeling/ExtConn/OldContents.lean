import ExtConn.BlockRounding
import ExtConn.MemoryPackets
import ExtConn.TwoRuns
import ExtConn.WifiIteration

namespace ExtConn.OldContents
open Effects ByteMemory ExtConn.Sequential TwoRuns FirmwareDownload WifiPacket

-- Two worlds that differ in the contents of one block.
structure Alike (blk : Nat) (one two : World) : Prop where
  elsewhere : ∀ other, other ≠ blk → two.mem other = one.mem other
  rest : two = {one with mem := two.mem}

-- What the surroundings decide, and what the bus gets to see.
def outcome (s : State) : List EspErr × Bool := (s.2.sent.map Transfer.err,s.2.refused)
def onBus (s : State) : List (List UInt8) := s.2.sent.map Transfer.bytes
def unused : Recorded := ⟨[],false⟩

-- The block of `rawbuf`, or the one that the heap has next.
def transmitBuf (w : World) : Ptr := w.sip.rawbuf.getD ⟨w.fresh,0⟩

-- The `fc` bytes of the memory commands that are built on such contents.
def fcOf (m : Mem) (raw : Ptr) : List UInt8 := [setType (m raw.blk raw.off) sipCtrl,m raw.blk (raw.off + 1)]

def packetOf (fc : List UInt8) (c : WriteMemory) : List UInt8 :=
  fc ++ leBytes 2 (20 + c.payload.length) ++ le32 sipCmdWriteMemory ++ le32 c.seq ++ le32 c.addr ++ leBytes 4 c.payload.length ++ c.payload

-- A well-formed memory command is known but for its `fc` bytes.
theorem part_bytes {bytes : List UInt8} (off width : Nat) (inside : off + width ≤ bytes.length) :
    bytes.drop off = leBytes width (field bytes off width) ++ bytes.drop (off + width) := by
  have length : ((bytes.drop off).take width).length = width := by
    rw [List.length_take,List.length_drop]
    omega
  have part := leBytes_leNat ((bytes.drop off).take width)
  rw [length] at part
  rw [field,part,← List.drop_drop,List.take_append_drop]

theorem word_bytes (bytes : List UInt8) (off : Nat) : leBytes 4 (field bytes off 4) = le32 (UInt32.ofNat (field bytes off 4)) := by
  have bound : field bytes off 4 < 2 ^ 32 := field_lt bytes off 4
  rw [le32,UInt32.toNat_ofNat_of_lt' bound]

theorem decode_bytes {x : Transfer} (decoded : decode x = some c) (some : c.payload ≠ []) : x.bytes = packetOf (x.bytes.take 2) c := by
  simp only [decode] at decoded
  split at decoded
  · rename_i formed
    obtain ⟨-,-,-,cmdid,len,size⟩ := formed
    cases decoded
    have whole : 20 < x.bytes.length := by
      have nonempty := List.length_pos_iff.mpr some
      simp only [List.length_drop] at nonempty
      omega
    have payload : 20 + (x.bytes.length - 20) = x.bytes.length := by omega
    have small := field_lt x.bytes 2 2
    have lenField : field x.bytes 2 2 = x.bytes.length := by
      have value : (UInt16.ofNat (field x.bytes 2 2)).toNat = x.bytes.length := len
      rwa [UInt16.toNat_ofNat_of_lt' small] at value
    have cmdidField : UInt32.ofNat (field x.bytes 4 4) = sipCmdWriteMemory := cmdid
    have head : x.bytes = x.bytes.take 2 ++ x.bytes.drop 2 := (List.take_append_drop 2 _).symm
    rw [part_bytes 2 2 (by omega),part_bytes 4 4 (by omega),part_bytes 8 4 (by omega),part_bytes 12 4 (by omega),
      part_bytes 16 4 (by omega),lenField,size,word_bytes,word_bytes,word_bytes,cmdidField] at head
    simp only [packetOf,List.length_drop,payload,List.append_assoc]
    exact head
  · cases decoded

-- The loop stores behind the two bytes, and what it sends begins with them.
def BehindFc (raw : Ptr) : Op → Prop
  | .store p _ => p.blk = raw.blk ∧ raw.off + 2 ≤ p.off
  | .sdmmcIoWrite _ _ _ src n => src = .mem raw ∧ 2 ≤ n.toNat
  | .load .. | .sipGet | .sipSet _ | .taskDelay _ => True
  | _ => False

section
variable {t : Task} {raw buf src : Ptr} {w : World} {d : Recorded}

theorem sendPiece_behind {next : EspErr → Code EspErr} {loadaddr : UInt32} {bufsize : UInt16} (aligned : bufsize.toNat % 4 = 0)
    (small : bufsize.toNat ≤ 236) (rest : ∀ err, (next err).All (BehindFc raw)) :
    (sendPiece raw src loadaddr bufsize next).All (BehindFc raw) := by
  have len : (bufsize + 20).toUInt32.toNat = 20 + bufsize.toNat := by
    have hdrs : (20 : UInt16).toNat = 20 := rfl
    rw [UInt16.toNat_toUInt32,UInt16.toNat_add,hdrs]
    omega
  have whole : ((bufsize + 20).toUInt32 + 3) &&& ~~~3 = (bufsize + 20).toUInt32 := by
    apply UInt32.toNat_inj.mp
    rw [Words.round_four _ (by omega),len]
    omega
  have behind : ∀ k bytes, 2 ≤ k → BehindFc raw (.store (raw.add k) bytes) := fun k _ far => ⟨rfl,Nat.add_le_add_left far raw.off⟩
  unfold sendPiece
  rw [whole,writeBytes_aligned _ _ _ (by omega) (by omega)]
  simp only [Prog.op_bind,Prog.pure_bind]
  refine ⟨behind 2 _ (by decide),fun _ => ⟨trivial,fun _ => ⟨trivial,fun _ => ⟨behind 8 _ (by decide),fun _ => ⟨behind 16 _ (by decide),fun _ => ?_⟩⟩⟩⟩⟩
  refine ⟨behind 12 _ (by decide),fun _ => ⟨trivial,fun _ => ⟨trivial,fun _ => ⟨behind 20 _ (by decide),fun _ => ⟨⟨rfl,?_⟩,rest⟩⟩⟩⟩⟩
  omega

theorem writeMemLoop_behind (addr len : UInt32) (fuel : Nat) (remains : UInt32) : (writeMemLoop raw buf addr len fuel remains).All (BehindFc raw) := by
  induction fuel generalizing remains with
  | zero => exact trivial
  | succ fuel ih =>
      have after : ∀ remains err, (afterPiece raw buf addr len fuel remains err).All (BehindFc raw) :=
        fun remains _ => Prog.All.ite (fun _ => trivial) fun _ => ih remains
      by_cases none : remains = 0
      · subst none
        exact trivial
      by_cases small : remains < 236
      · have below : remains.toNat < 236 := UInt32.lt_iff_toNat_lt.mp small
        have rounded : (roundup remains 4).toUInt16.toNat = (remains.toNat + 3) / 4 * 4 := by
          rw [UInt32.toNat_toUInt16,show (roundup remains 4).toNat = _ from Words.round_four remains (by omega)]
          omega
        rw [writeMemLoop_last raw buf addr len fuel none small]
        exact ⟨⟨rfl,Nat.add_le_add_left (by decide) raw.off⟩,fun _ => sendPiece_behind (by omega) (by omega) (after 0)⟩
      · rw [writeMemLoop_full raw buf addr len fuel none small]
        exact sendPiece_behind (by decide) (by decide) (after _)

def SentWith (fc : List UInt8) (s : State) : Prop := ∀ x ∈ s.2.sent, x.bytes.take 2 = fc

theorem behind_keeps {fc : List UInt8} {p : Code α} (all : p.All (BehindFc raw)) (fcs : w.mem.read raw 2 = fc) (sent : SentWith fc (w,d)) :
    wp (alone recorder t) p (fun _ s => SentWith fc s) (w,d) := by
  apply wp_all (I := fun s => s.1.mem.read raw 2 = fc ∧ SentWith fc s) all
  · exact fun _ _ held same => same ▸ held
  · intro o s behind held
    refine ⟨trivial,fun r s' acted => ⟨trivial,?_⟩⟩
    obtain ⟨w',d'⟩ := s'
    obtain ⟨ans,ran,answered⟩ := act_iff.mp acted
    obtain ⟨fcs,sent⟩ := held
    cases o
    case store p bytes =>
      obtain ⟨same,far⟩ := behind
      cases ran
      cases answered
      refine ⟨?_,sent⟩
      rw [read_write_other _ _ _ _ (by right; left; exact far)]
      exact fcs
    case sdmmcIoWrite function addr arg src n =>
      obtain ⟨rfl,enough⟩ := behind
      cases ran
      cases answered
      refine ⟨fcs,fun x member => ?_⟩
      cases List.mem_append.mp member with
      | inl before => exact sent x before
      | inr last =>
          cases List.mem_singleton.mp last
          show (s.1.mem.read raw n.toNat).take 2 = fc
          rw [read_take _ _ enough]
          exact fcs
    case load | sipGet | sipSet | taskDelay =>
      cases ran
      cases answered
      exact ⟨fcs,sent⟩
    all_goals exact behind.elim
  · exact ⟨fcs,sent⟩
  · exact fun _ _ held => held.2

theorem prepared_fc (m : Mem) (raw : Ptr) : (prepared m raw).read raw 2 = fcOf m raw := by
  have first : prepared m raw raw.blk raw.off = setType (m raw.blk raw.off) sipCtrl := by
    simp only [prepared,Mem.write,Ptr.add_blk,Ptr.add_off]
    rw [if_neg (by omega),if_pos (by simp)]
    simp [setType,Mem.read]
  have second : prepared m raw raw.blk (raw.off + 1) = m raw.blk (raw.off + 1) := by
    simp only [prepared,Mem.write,Ptr.add_blk,Ptr.add_off,List.length_singleton]
    rw [if_neg (by omega),if_neg (by omega)]
  show [prepared m raw raw.blk (raw.off + 0),prepared m raw raw.blk (raw.off + 1)] = _
  rw [Nat.add_zero,first,second]
  rfl

theorem fillAndSend_fc {addr len : UInt32} (holds : w.sip.rawbuf = some raw) (none : d.sent = []) :
    wp (alone recorder t) (fillAndSend addr buf len) (fun _ s => SentWith (fcOf w.mem raw) s) (w,d) := by
  have loop : wp (alone recorder t) (writeMemLoop raw buf addr len len.toNat len) (fun _ s => SentWith (fcOf w.mem raw) s)
      ({w with mem := prepared w.mem raw},d) := by
    apply behind_keeps (writeMemLoop_behind addr len _ _) (prepared_fc w.mem raw)
    intro x member
    rw [none] at member
    cases member
  unfold fillAndSend
  apply alone_exec (fun _ => rfl) (fun _ => rfl)
  simp only [holds]
  repeat apply alone_exec (fun _ => rfl) (fun _ => rfl)
  exact loop

theorem espSipWriteMem_fc (addr len : UInt32) :
    wp (alone recorder t) (espSipWriteMem addr buf len) (fun _ s => SentWith (fcOf w.mem (transmitBuf w)) s) (w,unused) := by
  rw [espSipWriteMem_eq]
  apply alone_exec (fun _ => rfl) (fun _ => rfl)
  apply wp_ite
  · intro none
    have where_ : transmitBuf w = ⟨w.fresh,0⟩ := by rw [transmitBuf,none,Option.getD_none]
    rw [where_]
    apply alone_op
    intro ans p w₁ d₁ ran answered
    cases answered
    cases granted : ans.flag with
    | false =>
        simp only [World.exec,granted] at ran
        cases ran
        apply alone_exec (fun _ => rfl) (fun _ => rfl)
        exact fun x member => absurd member List.not_mem_nil
    | true =>
        simp only [World.exec,granted] at ran
        cases ran
        apply alone_exec (fun _ => rfl) (fun _ => rfl)
        rw [if_neg (Option.some_ne_none _)]
        exact fillAndSend_fc rfl rfl
  · intro holds
    obtain ⟨raw,holds⟩ := Option.ne_none_iff_exists'.mp holds
    have where_ : transmitBuf w = raw := by rw [transmitBuf,holds,Option.getD_some]
    rw [where_]
    exact fillAndSend_fc holds rfl

-- What a call shows on the bus, as far as it got.
def shownBy (w : World) (addr : UInt32) (buf : Ptr) (len : UInt32) (o : List EspErr × Bool) : List (List UInt8) :=
  ((blockPlan (w.mem buf.blk) buf.off addr w.sip.txseq len.toNat).take o.1.length).map (packetOf (fcOf w.mem (transmitBuf w)))

theorem espSipWriteMem_shows {addr len : UInt32} (ready : Ready w buf.blk) :
    Determined (recorder.act t) (espSipWriteMem addr buf len) outcome onBus (w,unused) (shownBy w addr buf len) := by
  intro trace value s' run
  have fcs := alone_runs (espSipWriteMem_fc addr len) run
  have decoded : s'.2.sent.map decode = ((blockPlan (w.mem buf.blk) buf.off addr w.sip.txseq len.toNat).take s'.2.sent.length).map some := by
    have holds : wp (alone recorder t) (espSipWriteMem addr buf len) (fun _ s => s.2.sent.map decode =
        ((blockPlan (w.mem buf.blk) buf.off addr w.sip.txseq len.toNat).take s.2.sent.length).map some) (w,unused) := by
      apply espSipWriteMem_wp ready
      · exact fun _ _ => rfl
      · exact fun _ _ _ attempted _ => attempted_packets attempted
    exact alone_runs holds run
  apply List.ext_getElem?
  intro i
  have here := congrArg (·[i]?) decoded
  simp only [onBus,shownBy,outcome,List.getElem?_map,List.length_map] at here ⊢
  cases found : s'.2.sent[i]? with
  | none =>
      rw [found,Option.map_none] at here
      rw [Option.map_none,Option.map_eq_none_iff.mp here.symm,Option.map_none]
  | some x =>
      rw [found,Option.map_some] at here
      obtain ⟨c,planned,same⟩ := Option.map_eq_some_iff.mp here.symm
      have nonempty : c.payload ≠ [] := by
        have inPlan : (blockPlan (w.mem buf.blk) buf.off addr w.sip.txseq len.toNat)[i]? = some c := by
          rw [List.getElem?_take] at planned
          split at planned
          · exact planned
          · cases planned
        exact List.length_pos_iff.mp (MemoryPackets.blockPlan_get inPlan).2.1
      rw [Option.map_some,planned,Option.map_some,decode_bytes same.symm nonempty]
      rw [fcs x (List.mem_of_getElem? found)]

end

-- The old contents that a memory command is built on.
structure SameFc (m m' : Mem) (raw : Ptr) : Prop where
  high : m raw.blk raw.off &&& ~~~sipTypeMask = m' raw.blk raw.off &&& ~~~sipTypeMask
  second : m raw.blk (raw.off + 1) = m' raw.blk (raw.off + 1)

theorem setType_ctrl (fc0 : UInt8) : setType fc0 sipCtrl = fc0 &&& ~~~sipTypeMask := by
  have clear : sipCtrl &&& sipTypeMask = 0 := by decide
  rw [setType,clear,UInt8.or_zero]

theorem sameFc_iff {m m' : Mem} {raw : Ptr} : fcOf m raw = fcOf m' raw ↔ SameFc m m' raw := by
  simp only [fcOf,setType_ctrl,List.cons.injEq,and_true]
  exact ⟨fun same => ⟨same.1,same.2⟩,fun same => ⟨same.high,same.second⟩⟩

section
variable {t : Task} {buf : Ptr} {one two : World} {addr len : UInt32}

-- A call whose writes the bus accepts.
theorem accepted_outcome {s : State} (accepted : Accepted s.2) : outcome s = (List.replicate s.2.sent.length .ok,false) := by
  have errs : s.2.sent.map Transfer.err = List.replicate s.2.sent.length .ok := by
    apply List.eq_replicate_iff.mpr
    constructor
    · exact List.length_map _
    · intro err member
      obtain ⟨x,sent,rfl⟩ := List.mem_map.mp member
      exact accepted.2 x sent
  rw [outcome,errs,accepted.1]

theorem sends_all {w : World} (t : Task) (addr len : UInt32) (ready : Ready w buf.blk) : Attains (recorder.act t) (espSipWriteMem addr buf len) outcome
    (w,unused) (List.replicate ((len.toNat + 235) / 236) .ok,false) := by
  obtain ⟨trace,ret,s',run,accepted⟩ := accepted_run (espSipWriteMem_ready addr len buf) t w
  have count := congrArg List.length (MemoryPackets.accepted_packets ready run accepted)
  rw [List.length_map,List.length_map,blockPlan_length] at count
  refine ⟨trace,ret,s',run,?_⟩
  rw [accepted_outcome accepted,count]

theorem packetOf_fc {fc fc' : List UInt8} {c : WriteMemory} (same : packetOf fc c = packetOf fc' c) : fc = fc' := by
  simp only [packetOf,List.append_assoc] at same
  exact List.append_cancel_right same

theorem writeMem_alike_iff (ready : Ready one buf.blk) (alike : Alike (transmitBuf one).blk one two) :
    SeenAlike (recorder.act t) (espSipWriteMem addr buf len) outcome onBus (one,unused) (two,unused) ↔
      len = 0 ∨ SameFc one.mem two.mem (transmitBuf one) := by
  have sip : two.sip = one.sip := by rw [alike.rest]
  have fresh : two.fresh = one.fresh := by rw [alike.rest]
  have raw : transmitBuf two = transmitBuf one := by rw [transmitBuf,transmitBuf,sip,fresh]
  have other : buf.blk ≠ (transmitBuf one).blk := by
    cases holds : one.sip.rawbuf with
    | none =>
        rw [transmitBuf,holds,Option.getD_none]
        exact Nat.ne_of_lt ready.old
    | some p =>
        rw [transmitBuf,holds,Option.getD_some]
        exact Ne.symm (ready.apart p holds)
  have ready' : Ready two buf.blk := by
    constructor
    · rw [fresh]
      exact ready.old
    · rw [sip]
      exact ready.apart
  rw [seenAlike_iff (espSipWriteMem_shows ready) (espSipWriteMem_shows ready')]
  simp only [shownBy,raw,sip,alike.elsewhere _ other]
  constructor
  · intro agree
    by_cases none : len = 0
    · exact .inl none
    · right
      apply sameFc_iff.mp
      have some := (toNat_ne_zero len).mp none
      have same := agree _ (sends_all t addr len ready) (sends_all t addr len ready')
      rw [List.length_replicate,← blockPlan_length (one.mem buf.blk) buf.off addr one.sip.txseq len.toNat,List.take_length,
        blockPlan_piece _ _ _ _ some] at same
      exact packetOf_fc (List.cons.inj same).1
  · intro cause o _ _
    rcases cause with rfl | same
    · rw [show (0 : UInt32).toNat = 0 from rfl,blockPlan_none,List.take_nil]
      rfl
    · rw [sameFc_iff.mpr same]

end
end ExtConn.OldContents
