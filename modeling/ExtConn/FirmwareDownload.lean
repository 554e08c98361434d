import ExtConn.ExtBoot
import ExtConn.Sequential
import ExtConn.Footprint

namespace ExtConn.FirmwareDownload
open Effects ByteMemory ExtConn.Sequential

-- What the slave makes of a `SIP_CMD_WRITE_MEMORY` packet.
structure WriteMemory where
  seq : UInt32
  addr : UInt32
  payload : List UInt8
  deriving DecidableEq

-- Memory of the slave, and the effect of a payload on it.
abbrev SlaveMem := UInt32 → UInt8

def poke (m : SlaveMem) (c : WriteMemory) : SlaveMem := fun a =>
  if (a - c.addr).toNat < c.payload.length then c.payload.getD (a - c.addr).toNat 0 else m a

def pokes (m : SlaveMem) (cs : List WriteMemory) : SlaveMem := cs.foldl poke m

structure Block where
  addr : UInt32
  data : List UInt8
  deriving DecidableEq

namespace Block

def bytes (b : Block) : List UInt8 := le32 b.addr ++ leBytes 4 b.data.length ++ b.data
def rounded (b : Block) : Nat := (b.data.length + 3) / 4 * 4
def packets (b : Block) : Nat := (b.data.length + 235) / 236
def covers (b : Block) (a : Nat) : Prop := b.addr.toNat ≤ a ∧ a < b.addr.toNat + b.rounded

end Block

-- A firmware image: `rest` is the header behind the block count together with
-- the 16 bytes that follow it.
structure Image where
  rest : List UInt8
  blocks : List Block
  header : rest.length = 22
  count : blocks.length ≤ 255
  size : 24 + (blocks.flatMap Block.bytes).length < 2 ^ 32
  placed : ∀ b ∈ blocks, b.addr.toNat + b.rounded ≤ 2 ^ 32
  disjoint : blocks.Pairwise fun b c => ∀ a, ¬ (b.covers a ∧ c.covers a)

def Image.bytes (image : Image) : List UInt8 :=
  firmwareMagicHeader :: UInt8.ofNat image.blocks.length :: (image.rest ++ image.blocks.flatMap Block.bytes)

-- The packets of a block whose data stands at `off`: pieces of 236 bytes, the
-- last one filled up to a multiple of four with whatever follows.
def bytesAt (img : Nat → UInt8) (off n : Nat) : List UInt8 := (List.range n).map fun i => img (off + i)

def pieceLen (len : Nat) : Nat := min 236 ((len + 3) / 4 * 4)

def blockPlan (img : Nat → UInt8) (off : Nat) (addr seq : UInt32) (len : Nat) : List WriteMemory :=
  (List.range ((len + 235) / 236)).map fun i =>
    ⟨seq + UInt32.ofNat i,addr + UInt32.ofNat (236 * i),bytesAt img (off + 236 * i) (pieceLen (len - 236 * i))⟩

def plan (img : Nat → UInt8) : Nat → UInt32 → List Block → List WriteMemory
  | _,_,[] => []
  | off,seq,b :: rest =>
    blockPlan img (off + 8) b.addr seq b.data.length ++
      plan img (off + 8 + b.data.length) (seq + UInt32.ofNat b.packets) rest

@[simp] theorem bytesAt_length (img : Nat → UInt8) (off n : Nat) : (bytesAt img off n).length = n := by simp [bytesAt]

theorem bytesAt_get (img : Nat → UInt8) (off : Nat) (inside : i < n) : (bytesAt img off n).getD i 0 = img (off + i) := by
  simp [bytesAt,inside]

theorem blockPlan_length (img : Nat → UInt8) (off : Nat) (addr seq : UInt32) (len : Nat) :
    (blockPlan img off addr seq len).length = (len + 235) / 236 := by simp [blockPlan]

theorem blockPlan_none (img : Nat → UInt8) (off : Nat) (addr seq : UInt32) : blockPlan img off addr seq 0 = [] := rfl

theorem blockPlan_piece (img : Nat → UInt8) (off : Nat) (addr seq : UInt32) (some : 0 < len) :
    blockPlan img off addr seq len =
      ⟨seq,addr,bytesAt img off (pieceLen len)⟩ :: blockPlan img (off + 236) (addr + 236) (seq + 1) (len - 236) := by
  have count : (len + 235) / 236 = (len - 236 + 235) / 236 + 1 := by omega
  unfold blockPlan
  rw [count,List.range_succ_eq_map,List.map_cons,List.map_map]
  congr 1
  · simp
  · apply List.map_congr_left
    intro i _
    have seqs : seq + UInt32.ofNat (i + 1) = seq + 1 + UInt32.ofNat i := by
      rw [UInt32.ofNat_add,UInt32.add_comm (UInt32.ofNat i),UInt32.add_assoc]
      rfl
    have addrs : addr + UInt32.ofNat (236 * (i + 1)) = addr + 236 + UInt32.ofNat (236 * i) := by
      rw [Nat.mul_add,UInt32.ofNat_add,UInt32.add_comm (UInt32.ofNat (236 * i)),UInt32.add_assoc]
      rfl
    have offs : off + 236 * (i + 1) = off + 236 + 236 * i := by omega
    have lens : len - 236 * (i + 1) = len - 236 - 236 * i := by omega
    simp only [Function.comp,Nat.succ_eq_add_one,seqs,addrs,offs,lens]

theorem pokes_append (m : SlaveMem) (one two : List WriteMemory) : pokes m (one ++ two) = pokes (pokes m one) two :=
  List.foldl_append

-- A block's packets write its rounded range and nothing else.
theorem blockPlan_pokes (img : Nat → UInt8) (m : SlaveMem) (off : Nat) (addr seq : UInt32) {len : Nat}
    (fits : (len + 3) / 4 * 4 ≤ 2 ^ 32) (a : UInt32) : pokes m (blockPlan img off addr seq len) a =
      if (a - addr).toNat < (len + 3) / 4 * 4 then img (off + (a - addr).toNat) else m a := by
  induction len using Nat.strongRecOn generalizing off addr seq m with
  | _ len ih =>
      by_cases none : len = 0
      · subst none
        rfl
      · have rest := ih (len - 236) (by omega) (poke m ⟨seq,addr,bytesAt img off (pieceLen len)⟩) (off + 236) (addr + 236)
          (seq + 1) (by omega)
        rw [blockPlan_piece img off addr seq (by omega)]
        show pokes (poke m _) _ a = _
        rw [rest]
        have bound := (a - addr).toNat_lt
        have step : (a - (addr + 236)).toNat = (2 ^ 32 - 236 + (a - addr).toNat) % 2 ^ 32 := by
          have one := a.toNat_lt
          have two := addr.toNat_lt
          have piece : (236 : UInt32).toNat = 236 := rfl
          rw [UInt32.toNat_sub,UInt32.toNat_add,UInt32.toNat_sub,piece]
          omega
        have piece : (bytesAt img off (pieceLen len)).length = min 236 ((len + 3) / 4 * 4) := bytesAt_length ..
        by_cases beyond : 236 ≤ (a - addr).toNat
        · have later : (a - (addr + 236)).toNat = (a - addr).toNat - 236 := by omega
          have outside : ¬ (a - addr).toNat < (bytesAt img off (pieceLen len)).length := by omega
          have same : off + 236 + ((a - addr).toNat - 236) = off + (a - addr).toNat := by omega
          rw [later,same]
          simp only [poke,if_neg outside]
          by_cases inside : (a - addr).toNat < (len + 3) / 4 * 4
          · rw [if_pos inside,if_pos (by omega)]
          · rw [if_neg inside,if_neg (by omega)]
        · have wrapped : ¬ (a - (addr + 236)).toNat < (len - 236 + 3) / 4 * 4 := by omega
          rw [if_neg wrapped]
          simp only [poke]
          by_cases inside : (a - addr).toNat < (len + 3) / 4 * 4
          · rw [if_pos inside,if_pos (by omega)]
            have first : (a - addr).toNat < pieceLen len := by
              unfold pieceLen
              omega
            exact bytesAt_get img off first
          · rw [if_neg inside,if_neg (by omega)]

theorem covers_iff {b : Block} (fits : b.addr.toNat + b.rounded ≤ 2 ^ 32) (a : UInt32) :
    b.covers a.toNat ↔ (a - b.addr).toNat < b.rounded := by
  have bound := a.toNat_lt
  have from_ := b.addr.toNat_lt
  rw [UInt32.toNat_sub]
  unfold Block.covers
  omega

theorem block_pokes (img : Nat → UInt8) (m : SlaveMem) (off : Nat) (seq : UInt32) {b : Block}
    (fits : b.addr.toNat + b.rounded ≤ 2 ^ 32) (a : UInt32) : pokes m (blockPlan img off b.addr seq b.data.length) a =
      if (a - b.addr).toNat < b.rounded then img (off + (a - b.addr).toNat) else m a :=
  blockPlan_pokes img m off b.addr seq (Nat.le_trans (Nat.le_add_left _ _) fits) a

theorem plan_outside (img : Nat → UInt8) (m : SlaveMem) (off : Nat) (seq : UInt32) {blocks : List Block}
    (placed : ∀ b ∈ blocks, b.addr.toNat + b.rounded ≤ 2 ^ 32) {a : UInt32} (outside : ∀ b ∈ blocks, ¬ b.covers a.toNat) :
    pokes m (plan img off seq blocks) a = m a := by
  induction blocks generalizing m off seq with
  | nil => rfl
  | cons b rest ih =>
      have fits := placed b List.mem_cons_self
      have apart := outside b List.mem_cons_self
      rw [covers_iff fits] at apart
      rw [plan,pokes_append]
      rw [ih _ _ _ (fun c member => placed c (List.mem_cons_of_mem b member)) fun c member => outside c (List.mem_cons_of_mem b member)]
      rw [block_pokes img m _ seq fits,if_neg apart]

theorem bytesAt_append (img : Nat → UInt8) (off n k : Nat) : bytesAt img off (n + k) = bytesAt img off n ++ bytesAt img (off + n) k := by
  simp [bytesAt,List.range_add,Nat.add_assoc]

-- `bytes` stand at `off`.
def Lies (img : Nat → UInt8) (off : Nat) (bytes : List UInt8) : Prop := bytesAt img off bytes.length = bytes

theorem lies_append {img : Nat → UInt8} {off : Nat} {one two : List UInt8} (lies : Lies img off (one ++ two)) :
    Lies img off one ∧ Lies img (off + one.length) two := by
  unfold Lies at lies
  rw [List.length_append,bytesAt_append] at lies
  exact List.append_inj lies (bytesAt_length ..)

theorem lies_get {img : Nat → UInt8} {off : Nat} {bytes : List UInt8} (lies : Lies img off bytes) (inside : i < bytes.length) :
    img (off + i) = bytes.getD i 0 := by
  rw [← bytesAt_get img off inside,show bytesAt img off bytes.length = bytes from lies]

-- The parts of a block in the image.
theorem block_lies {img : Nat → UInt8} {off : Nat} {b : Block} {rest : List Block} (lies : Lies img off ((b :: rest).flatMap Block.bytes)) :
    Lies img off (le32 b.addr) ∧ Lies img (off + 4) (leBytes 4 b.data.length) ∧ Lies img (off + 8) b.data ∧
      Lies img (off + 8 + b.data.length) (rest.flatMap Block.bytes) := by
  rw [List.flatMap_cons,Block.bytes] at lies
  have four : ∀ n, (leBytes 4 n).length = 4 := leBytes_length 4
  obtain ⟨whole,others⟩ := lies_append lies
  obtain ⟨head,data⟩ := lies_append whole
  obtain ⟨addr,len⟩ := lies_append head
  simp only [le32,List.length_append,four] at addr len data others
  exact ⟨addr,len,data,by rw [Nat.add_assoc]; exact others⟩

-- Every byte of every block arrives at its place.
theorem plan_delivers {img : Nat → UInt8} (m : SlaveMem) {off : Nat} (seq : UInt32) {blocks : List Block}
    (lies : Lies img off (blocks.flatMap Block.bytes)) (placed : ∀ b ∈ blocks, b.addr.toNat + b.rounded ≤ 2 ^ 32)
    (disjoint : blocks.Pairwise fun b c => ∀ a, ¬ (b.covers a ∧ c.covers a)) {b : Block} (member : b ∈ blocks)
    (inside : i < b.data.length) : pokes m (plan img off seq blocks) (b.addr + UInt32.ofNat i) = b.data.getD i 0 := by
  have reach : ∀ {b : Block}, i < b.data.length → b.addr.toNat + b.rounded ≤ 2 ^ 32 →
      (b.addr + UInt32.ofNat i - b.addr).toNat = i ∧ i < b.rounded := by
    intro b inside fits
    have larger : i < b.rounded := by
      unfold Block.rounded
      omega
    rw [UInt32.add_comm,UInt32.add_sub_cancel,UInt32.toNat_ofNat_of_lt' (by unfold UInt32.size; omega)]
    exact ⟨rfl,larger⟩
  induction blocks generalizing m off seq with
  | nil => cases member
  | cons c rest ih =>
      obtain ⟨_,_,data,others⟩ := block_lies lies
      obtain ⟨apart,disjoint⟩ := List.pairwise_cons.mp disjoint
      have fits : ∀ b ∈ rest, b.addr.toNat + b.rounded ≤ 2 ^ 32 := fun b member => placed b (List.mem_cons_of_mem c member)
      rw [plan,pokes_append]
      cases List.mem_cons.mp member with
      | inr later => exact ih _ _ others fits disjoint later
      | inl here =>
          subst here
          have whole := placed b List.mem_cons_self
          obtain ⟨back,within⟩ := reach inside whole
          have covered : b.covers (b.addr + UInt32.ofNat i).toNat := by
            rw [covers_iff whole,back]
            exact within
          rw [plan_outside img _ _ _ fits fun d member both => apart d member _ ⟨covered,both⟩]
          rw [block_pokes img m _ seq whole,back,if_pos within]
          exact lies_get data inside

theorem plan_length (img : Nat → UInt8) (off : Nat) (seq : UInt32) (blocks : List Block) :
    (plan img off seq blocks).length = (blocks.map Block.packets).sum := by
  induction blocks generalizing off seq with
  | nil => rfl
  | cons b rest ih =>
      rw [plan,List.length_append,blockPlan_length,ih]
      rfl

-- Sequence numbers run on through the blocks.
theorem plan_seq (img : Nat → UInt8) (off : Nat) (seq : UInt32) {blocks : List Block}
    (found : (plan img off seq blocks)[i]? = some c) : c.seq = seq + UInt32.ofNat i := by
  induction blocks generalizing off seq i with
  | nil => cases found
  | cons b rest ih =>
      rw [plan,List.getElem?_append] at found
      split at found
      · rename_i inside
        rw [blockPlan_length] at inside
        simp only [blockPlan,List.getElem?_map,List.getElem?_range inside,Option.map_some,Option.some.injEq] at found
        rw [← found]
      · rename_i beyond
        rw [blockPlan_length] at beyond found
        rw [ih _ _ found,UInt32.add_assoc,← UInt32.ofNat_add]
        unfold Block.packets
        congr 2
        omega

-- Every bus write that was attempted, with its outcome, and whether the
-- allocation of `rawbuf` was refused.
structure Transfer where
  function : UInt32
  addr : UInt32
  bytes : List UInt8
  err : EspErr
  deriving DecidableEq

structure Recorded where
  sent : List Transfer
  refused : Bool

def recorder : Slave Recorded where
  answers _ w o ans d := match o with
    | .sdmmcIoWrite function addr _ src size => some {d with sent := d.sent ++ [⟨function,addr,src.get size.toNat w.mem,ans.err⟩]}
    | .malloc _ => some {d with refused := d.refused || !ans.flag}
    | _ => some d
  moves d d' := d' = d

abbrev State := World × Recorded

-- A packet in the window of function 1 that is a well-formed memory command.
def decode (x : Transfer) : Option WriteMemory :=
  let hdr := sipHdrOf x.bytes
  if x.function = 1 ∧ (espSlaveCmd53EndAddr - x.addr).toNat = x.bytes.length ∧ hdr.isCtrl ∧ hdr.u = sipCmdWriteMemory ∧
    hdr.len.toNat = x.bytes.length ∧ field x.bytes 16 4 = x.bytes.length - 20
  then some ⟨hdr.seq,UInt32.ofNat (field x.bytes 12 4),x.bytes.drop 20⟩ else none

-- `rawbuf` as `esp_sip_write_mem` prepares it before its loop.
structure Header (m : Mem) (raw : Ptr) : Prop where
  type : sipHdrGetType (m raw.blk raw.off) = sipCtrl
  cmdid : m.read (raw.add 4) 4 = le32 sipCmdWriteMemory

-- The stores of one iteration.
def packetMem (m : Mem) (raw : Ptr) (len : UInt16) (seq addr size : UInt32) (payload : List UInt8) : Mem :=
  ((((m.write (raw.add 2) (leBytes 2 len.toNat)).write (raw.add 8) (le32 seq)).write (raw.add 16) (le32 size)).write
    (raw.add 12) (le32 addr)).write (raw.add 20) payload

theorem header_below {m : Mem} {raw p : Ptr} {bytes : List UInt8} (header : Header m raw) (above : raw.off + 8 ≤ p.off) :
    Header (m.write p bytes) raw := by
  constructor
  · have before : m.write p bytes raw.blk raw.off = m raw.blk raw.off := by
      rw [Mem.write,if_neg (by omega)]
    rw [before]
    exact header.type
  · rw [read_write_other _ _ _ _ (by right; left; exact above)]
    exact header.cmdid

structure Fields (m : Mem) (raw : Ptr) (len : UInt16) (seq addr size : UInt32) (payload : List UInt8) : Prop where
  header : Header m raw
  len : m.read (raw.add 2) 2 = leBytes 2 len.toNat
  seq : m.read (raw.add 8) 4 = le32 seq
  addr : m.read (raw.add 12) 4 = le32 addr
  size : m.read (raw.add 16) 4 = le32 size
  payload : m.read (raw.add 20) payload.length = payload

theorem packet_fields {m : Mem} {raw : Ptr} (header : Header m raw) (len : UInt16) (seq addr size : UInt32) (payload : List UInt8) :
    Fields (packetMem m raw len seq addr size payload) raw len seq addr size payload := by
  have two : (leBytes 2 len.toNat).length = 2 := leBytes_length 2 _
  have four := le32_length
  refine ⟨⟨?_,?_⟩,?_,?_,?_,?_,?_⟩
  · have before : packetMem m raw len seq addr size payload raw.blk raw.off = m raw.blk raw.off := by
      simp only [packetMem,Mem.write,Ptr.add_blk,Ptr.add_off]
      rw [if_neg (by omega),if_neg (by omega),if_neg (by omega),if_neg (by omega),if_neg (by omega)]
    rw [before]
    exact header.type
  all_goals
    simp only [packetMem]
    repeat first
      | rw [read_back _ _ _ (by first | exact four _ | exact two | rfl)]
      | rw [read_write_other _ _ _ _ (by simp only [Ptr.add_off,four,two]; omega)]
  exact header.cmdid

theorem packet_decoded {m : Mem} {raw : Ptr} {len : UInt16} {seq addr size : UInt32} {payload : List UInt8} (err : EspErr)
    (fields : Fields m raw len seq addr size payload) (whole : len.toNat = 20 + payload.length)
    (count : size.toNat = payload.length) :
    decode ⟨1,espSlaveCmd53EndAddr - len.toUInt32,m.read raw len.toNat,err⟩ = some ⟨seq,addr,payload⟩ := by
  have word : ∀ x : UInt32, UInt32.ofNat (leNat (le32 x)) = x := by
    intro x
    rw [leNat_le32]
    exact UInt32.ofNat_toNat
  have part : ∀ off width, off + width ≤ 20 → field (m.read raw len.toNat) off width = leNat (m.read (raw.add off) width) :=
    fun off width inside => field_read m raw (by omega)
  have type : (m.read raw len.toNat).getD 0 0 = m raw.blk raw.off := by
    rw [List.getD_eq_getElem?_getD,read_get m raw (by omega)]
    rfl
  have hdrLen : UInt16.ofNat (field (m.read raw len.toNat) 2 2) = len := by
    apply UInt16.toNat_inj.mp
    rw [part 2 2 (by decide),fields.len,leNat_leBytes]
    simp
  have hdr : sipHdrOf (m.read raw len.toNat) = ⟨m raw.blk raw.off,(m.read raw len.toNat).getD 1 0,len,sipCmdWriteMemory,seq⟩ := by
    simp only [sipHdrOf,type,hdrLen,part 4 4 (by decide),part 8 4 (by decide),fields.header.cmdid,fields.seq,word]
  have window : (espSlaveCmd53EndAddr - (espSlaveCmd53EndAddr - len.toUInt32)).toNat = len.toNat := by
    have bound := len.toNat_lt
    have top : espSlaveCmd53EndAddr.toNat = 129024 := rfl
    rw [UInt32.toNat_sub,UInt32.toNat_sub,top,UInt16.toNat_toUInt32]
    omega
  have size : field (m.read raw len.toNat) 16 4 = (m.read raw len.toNat).length - 20 := by
    rw [part 16 4 (by decide),fields.size,leNat_le32,read_length]
    omega
  have rest : (m.read raw len.toNat).drop 20 = payload := by
    rw [whole,read_drop]
    exact fields.payload
  unfold decode
  simp only [hdr]
  rw [if_pos ⟨trivial,by rw [window,read_length],fields.header.type,trivial,(read_length ..).symm,size⟩,rest,part 12 4 (by decide),
    fields.addr,word]

-- One iteration of the loop of `esp_sip_write_mem`, from the choice of `bufsize` on.
def sendPiece (raw src : Ptr) (loadaddr : UInt32) (bufsize : UInt16) (next : EspErr → Code EspErr) : Code EspErr :=
  .op (.store (raw.add 2) (leBytes 2 (bufsize + 20).toNat)) fun _ =>
    .op .sipGet fun sip => .op (.sipSet (.txseq (sip.txseq + 1))) fun _ =>
      .op (.store (raw.add 8) (le32 sip.txseq)) fun _ => .op (.store (raw.add 16) (le32 bufsize.toUInt32)) fun _ =>
        .op (.store (raw.add 12) (le32 loadaddr)) fun _ => .op (.taskDelay 1) fun _ =>
          .op (.load src bufsize.toNat) fun bytes => .op (.store (raw.add 20) bytes) fun _ =>
            (extconnSdioWriteBytes 1 (espSlaveCmd53EndAddr - (bufsize + 20).toUInt32) (.mem raw)
              (((bufsize + 20).toUInt32 + 3) &&& ~~~3)).bind next

def afterPiece (raw buf : Ptr) (addr len : UInt32) (fuel : Nat) (remains : UInt32) (err : EspErr) : Code EspErr :=
  if err ≠ .ok then .pure .fail else writeMemLoop raw buf addr len fuel remains

theorem writeMemLoop_last {remains : UInt32} (raw buf : Ptr) (addr len : UInt32) (fuel : Nat) (some : remains ≠ 0)
    (small : remains < 236) : writeMemLoop raw buf addr len (fuel + 1) remains =
      .op (.store (raw.add 20) (List.replicate (roundup remains 4).toUInt16.toNat 0)) fun _ =>
        sendPiece raw (buf.add (len - remains).toNat) (addr + (len - remains)) (roundup remains 4).toUInt16
          (afterPiece raw buf addr len fuel 0) := by
  have last : remains < sipBootBufSize - (sipCtrlHdrLen + sizeofSipCmdWriteMemory) := small
  rw [writeMemLoop]
  simp only [if_neg some,if_pos last,memcpy,sipHdrSetLen,sipHdrSetSeq,espSipIncreaseTxseq,espExtconnSdioWriteBytes,
    Prog.bind_def,issue_bind,Prog.op_bind,Prog.pure_bind,Prog.pure_def]
  rfl

theorem writeMemLoop_full {remains : UInt32} (raw buf : Ptr) (addr len : UInt32) (fuel : Nat) (some : remains ≠ 0)
    (large : ¬ remains < 236) : writeMemLoop raw buf addr len (fuel + 1) remains =
      sendPiece raw (buf.add (len - remains).toNat) (addr + (len - remains)) 236
        (afterPiece raw buf addr len fuel (remains - 236)) := by
  have full : ¬ remains < sipBootBufSize - (sipCtrlHdrLen + sizeofSipCmdWriteMemory) := large
  rw [writeMemLoop]
  simp only [if_neg some,if_neg full,memcpy,sipHdrSetLen,sipHdrSetSeq,espSipIncreaseTxseq,espExtconnSdioWriteBytes,
    Prog.bind_def,issue_bind,Prog.op_bind,Prog.pure_bind,Prog.pure_def]
  rfl

theorem poked_other {m : Mem} {raw : Ptr} {blk n : Nat} {bytes : List UInt8} (other : blk ≠ raw.blk) :
    (m.write (raw.add n) bytes) blk = m blk :=
  write_other other

-- The world after `n` packets: `rawbuf` rewritten and `n` sequence numbers used.
structure PacketsSent (raw : Ptr) (n : Nat) (w w' : World) : Prop where
  header : Header w'.mem raw
  frame : ∀ blk, blk ≠ raw.blk → w'.mem blk = w.mem blk
  sip : w'.sip = {w.sip with txseq := w.sip.txseq + UInt32.ofNat n}
  fresh : w'.fresh = w.fresh

theorem packetsSent_none {w : World} {raw : Ptr} (header : Header w.mem raw) : PacketsSent raw 0 w w :=
  ⟨header,fun _ _ => rfl,by simp,rfl⟩

theorem packetsSent_trans {raw : Ptr} {one two three : World} (first : PacketsSent raw n one two) (second : PacketsSent raw k two three) :
    PacketsSent raw (n + k) one three := by
  refine ⟨second.header,fun blk other => ?_,?_,second.fresh.trans first.fresh⟩
  · rw [second.frame blk other,first.frame blk other]
  · rw [second.sip,first.sip,UInt32.add_assoc,← UInt32.ofNat_add]

theorem sendPiece_wp {t : Task} {w : World} {d : Recorded} {raw src : Ptr} {loadaddr : UInt32} {bufsize : UInt16}
    {next : EspErr → Code EspErr} {post : EspErr → State → Prop} (header : Header w.mem raw) (apart : src.blk ≠ raw.blk)
    (aligned : bufsize.toNat % 4 = 0) (small : bufsize.toNat ≤ 236)
    (rest : ∀ w' x, PacketsSent raw 1 w w' → decode x = some ⟨w.sip.txseq,loadaddr,bytesAt (w.mem src.blk) src.off bufsize.toNat⟩ →
      wp (alone recorder t) (next x.err) post (w',{d with sent := d.sent ++ [x]})) :
    wp (alone recorder t) (sendPiece raw src loadaddr bufsize next) post (w,d) := by
  have len : (bufsize + 20).toNat = 20 + bufsize.toNat := by
    have hdrs : (20 : UInt16).toNat = 20 := rfl
    rw [UInt16.toNat_add,hdrs]
    omega
  have whole : ((bufsize + 20).toUInt32 + 3) &&& ~~~3 = (bufsize + 20).toUInt32 := by
    apply UInt32.toNat_inj.mp
    rw [Words.round_four _ (by rw [UInt16.toNat_toUInt32,len]; omega),UInt16.toNat_toUInt32,len]
    omega
  let filled := (((w.mem.write (raw.add 2) (leBytes 2 (bufsize + 20).toNat)).write (raw.add 8) (le32 w.sip.txseq)).write
    (raw.add 16) (le32 bufsize.toUInt32)).write (raw.add 12) (le32 loadaddr)
  have payload : filled.read src bufsize.toNat = bytesAt (w.mem src.blk) src.off bufsize.toNat := by
    have same : filled src.blk = w.mem src.blk := by
      simp only [filled,poked_other apart]
    show bytesAt (filled src.blk) src.off bufsize.toNat = _
    rw [same]
  let body := bytesAt (w.mem src.blk) src.off bufsize.toNat
  let mem := packetMem w.mem raw (bufsize + 20) w.sip.txseq loadaddr bufsize.toUInt32 body
  let after : World := {w with mem := mem,sip := {w.sip with txseq := w.sip.txseq + 1}}
  have fields : Fields after.mem raw (bufsize + 20) w.sip.txseq loadaddr bufsize.toUInt32 body := packet_fields header ..
  have sent : PacketsSent raw 1 w after := by
    refine ⟨fields.header,fun blk other => ?_,rfl,rfl⟩
    simp only [after,mem,packetMem,poked_other other]
  have write : wp (alone recorder t) (Prog.op (.sdmmcIoWrite 1 (espSlaveCmd53EndAddr - (bufsize + 20).toUInt32)
      {increment := incrementFor 1} (.mem raw) (bufsize + 20).toUInt32) next : Code EspErr) post (after,d) := by
    apply alone_op
    intro ans r w' d' ran answered
    cases ran
    cases answered
    have count : bufsize.toNat = body.length := (bytesAt_length ..).symm
    have decoded := packet_decoded ans.err fields (by rw [len,count]) (by rw [UInt16.toNat_toUInt32,count])
    exact rest after ⟨1,espSlaveCmd53EndAddr - (bufsize + 20).toUInt32,after.mem.read raw (bufsize + 20).toNat,ans.err⟩ sent decoded
  unfold sendPiece
  rw [whole,writeBytes_aligned _ _ _ (by rw [UInt16.toNat_toUInt32,len]; omega) (by rw [UInt16.toNat_toUInt32,len]; omega)]
  simp only [Prog.op_bind,Prog.pure_bind]
  repeat apply alone_exec (fun _ => rfl) (fun _ => rfl)
  simp only [after,mem,body,← payload] at write
  exact write

-- What was put on the bus of the packets `cs`, and what came back for it: every
-- packet was accepted, or the last one that went out was not.
inductive Attempted : List WriteMemory → EspErr → List Transfer → Prop
  | done : Attempted [] .ok []
  | failed {x : Transfer} : decode x = some c → x.err ≠ .ok → ret ≠ .ok → Attempted (c :: cs) ret [x]
  | sent {x : Transfer} : decode x = some c → x.err = .ok → Attempted cs ret added → Attempted (c :: cs) ret (x :: added)

theorem attempted_append (first : Attempted cs .ok one) (second : Attempted ds ret two) : Attempted (cs ++ ds) ret (one ++ two) := by
  generalize success : EspErr.ok = r at first
  induction first with
  | done => exact second
  | failed _ _ wrong => exact absurd success.symm wrong
  | sent decoded taken _ ih => exact .sent decoded taken (ih success)

theorem attempted_stop (first : Attempted cs ret one) (wrong : ret ≠ .ok) : Attempted (cs ++ ds) ret one := by
  induction first with
  | done => exact absurd rfl wrong
  | failed decoded lost returned => exact .failed decoded lost returned
  | sent decoded taken _ ih => exact .sent decoded taken (ih wrong)

theorem attempted_packets (attempted : Attempted cs ret added) : added.map decode = (cs.take added.length).map some := by
  induction attempted with
  | done => rfl
  | failed decoded _ _ => simp [decoded]
  | sent decoded _ _ ih => simp [decoded,ih]

theorem attempted_whole (attempted : Attempted cs .ok added) : added.length = cs.length := by
  generalize success : EspErr.ok = r at attempted
  induction attempted with
  | done => rfl
  | failed _ _ wrong => exact absurd success.symm wrong
  | sent _ _ _ ih => exact congrArg (· + 1) (ih success)

theorem attempted_accepted (attempted : Attempted cs ret added) (accepted : ∀ x ∈ added, x.err = .ok) : ret = .ok := by
  induction attempted with
  | done => rfl
  | failed _ lost _ => exact absurd (accepted _ List.mem_cons_self) lost
  | sent _ _ _ ih => exact ih fun x member => accepted x (List.mem_cons_of_mem _ member)

theorem attempted_lost {x : Transfer} (attempted : Attempted cs ret added) (found : added[k]? = some x) (lost : x.err ≠ .ok) :
    added.length = k + 1 ∧ ret ≠ .ok := by
  induction attempted generalizing k with
  | done => cases found
  | failed _ _ wrong =>
      cases k with
      | zero => exact ⟨rfl,wrong⟩
      | succ k => cases found
  | sent _ taken _ ih =>
      cases k with
      | zero =>
          cases found
          exact absurd taken lost
      | succ k =>
          obtain ⟨last,wrong⟩ := ih found
          exact ⟨congrArg (· + 1) last,wrong⟩

theorem afterPiece_wp {t : Task} {s : State} {raw buf : Ptr} {addr len remains : UInt32} {fuel : Nat} {err : EspErr}
    {post : EspErr → State → Prop} (lost : err ≠ .ok → post .fail s)
    (taken : err = .ok → wp (alone recorder t) (writeMemLoop raw buf addr len fuel remains) post s) :
    wp (alone recorder t) (afterPiece raw buf addr len fuel remains err) post s := by
  unfold afterPiece
  by_cases success : err = .ok
  · rw [if_neg (not_not_intro success)]
    exact taken success
  · rw [if_pos success]
    exact lost success

-- The packets of the last `remains` bytes of a block of `len` bytes.
abbrev tailPlan (img : Nat → UInt8) (buf : Ptr) (addr len seq remains : UInt32) : List WriteMemory :=
  blockPlan img (buf.off + (len - remains).toNat) (addr + (len - remains)) seq remains.toNat

theorem tailPlan_full {remains : UInt32} (img : Nat → UInt8) (buf : Ptr) (addr len seq : UInt32) (within : remains.toNat ≤ len.toNat)
    (large : 236 ≤ remains.toNat) : tailPlan img buf addr len seq remains =
      ⟨seq,addr + (len - remains),bytesAt img (buf.add (len - remains).toNat).off 236⟩ ::
        tailPlan img buf addr len (seq + 1) (remains - 236) := by
  have piece : (236 : UInt32).toNat = 236 := rfl
  have below : (remains - 236).toNat = remains.toNat - 236 :=
    UInt32.toNat_sub_of_le _ _ (by rw [UInt32.le_iff_toNat_le,piece]; exact large)
  have next : len - (remains - 236) = len - remains + 236 := by
    apply UInt32.toNat_inj.mp
    have bound := len.toNat_lt
    rw [UInt32.toNat_sub,below,UInt32.toNat_add,UInt32.toNat_sub,piece]
    omega
  have offset : (len - remains + 236).toNat = (len - remains).toNat + 236 := by
    have bound := len.toNat_lt
    rw [UInt32.toNat_add,UInt32.toNat_sub_of_le _ _ (by rw [UInt32.le_iff_toNat_le]; exact within),piece]
    omega
  have whole : pieceLen remains.toNat = 236 := by
    unfold pieceLen
    omega
  rw [tailPlan,blockPlan_piece _ _ _ _ (by omega),whole,tailPlan,next,offset,below,UInt32.add_assoc,Nat.add_assoc]
  rfl

theorem tailPlan_last {remains : UInt32} (img : Nat → UInt8) (buf : Ptr) (addr len seq : UInt32) (positive : 0 < remains.toNat)
    (small : remains.toNat < 236) : tailPlan img buf addr len seq remains =
      [⟨seq,addr + (len - remains),bytesAt img (buf.add (len - remains).toNat).off (roundup remains 4).toUInt16.toNat⟩] := by
  have rounded : (roundup remains 4).toUInt16.toNat = pieceLen remains.toNat := by
    have value : (roundup remains 4).toNat = (remains.toNat + 3) / 4 * 4 := Words.round_four remains (by omega)
    unfold pieceLen
    rw [UInt32.toNat_toUInt16,value]
    omega
  have none : remains.toNat - 236 = 0 := by omega
  rw [tailPlan,blockPlan_piece _ _ _ _ positive,none,blockPlan_none,rounded]
  rfl

-- One packet ahead of those that `cs` stands for.
theorem nextPiece_wp {t : Task} {w : World} {d : Recorded} {raw src buf : Ptr} {loadaddr addr len remains : UInt32} {bufsize : UInt16}
    {fuel : Nat} {post : EspErr → State → Prop} (cs : List WriteMemory) (header : Header w.mem raw) (apart : src.blk ≠ raw.blk)
    (aligned : bufsize.toNat % 4 = 0) (small : bufsize.toNat ≤ 236)
    (rest : ∀ ret w' added,
      Attempted (⟨w.sip.txseq,loadaddr,bytesAt (w.mem src.blk) src.off bufsize.toNat⟩ :: cs) ret added →
      PacketsSent raw added.length w w' → post ret (w',{d with sent := d.sent ++ added}))
    (later : ∀ w' d', PacketsSent raw 1 w w' → (∀ ret w'' added, Attempted cs ret added → PacketsSent raw added.length w' w'' →
      post ret (w'',{d' with sent := d'.sent ++ added})) → wp (alone recorder t) (writeMemLoop raw buf addr len fuel remains) post (w',d')) :
    wp (alone recorder t) (sendPiece raw src loadaddr bufsize (afterPiece raw buf addr len fuel remains)) post (w,d) := by
  apply sendPiece_wp header apart aligned small
  intro w' x sent decoded
  apply afterPiece_wp
  · intro lost
    exact rest .fail w' [x] (.failed decoded lost (by decide)) sent
  · intro taken
    apply later w' _ sent
    intro ret w'' added attempted more
    have both := packetsSent_trans sent more
    rw [Nat.add_comm] at both
    have result := rest ret w'' (x :: added) (.sent decoded taken attempted) both
    rw [List.append_cons] at result
    exact result

-- The loop of `esp_sip_write_mem`, by induction on the iterations left.
theorem writeMemLoop_wp {t : Task} {w : World} {d : Recorded} {raw buf : Ptr} {addr len remains : UInt32} {fuel : Nat}
    {post : EspErr → State → Prop} (header : Header w.mem raw) (apart : buf.blk ≠ raw.blk) (within : remains.toNat ≤ len.toNat)
    (enough : remains.toNat ≤ fuel)
    (rest : ∀ ret w' added, Attempted (tailPlan (w.mem buf.blk) buf addr len w.sip.txseq remains) ret added →
      PacketsSent raw added.length w w' → post ret (w',{d with sent := d.sent ++ added})) :
    wp (alone recorder t) (writeMemLoop raw buf addr len fuel remains) post (w,d) := by
  have empty : ∀ {w : World} {d : Recorded} {fuel : Nat}, Header w.mem raw →
      (∀ ret w' added, Attempted [] ret added → PacketsSent raw added.length w w' → post ret (w',{d with sent := d.sent ++ added})) →
      wp (alone recorder t) (writeMemLoop raw buf addr len fuel 0) post (w,d) := by
    intro w d fuel header rest
    have result := rest .ok w [] .done (packetsSent_none header)
    rw [List.append_nil] at result
    cases fuel <;> exact result
  induction fuel generalizing w d remains with
  | zero =>
      obtain rfl : remains = 0 := UInt32.toNat_inj.mp (Nat.le_zero.mp enough)
      exact empty header rest
  | succ fuel ih =>
      by_cases none : remains = 0
      · subst none
        exact empty header rest
      have positive := (toNat_ne_zero remains).mp none
      have source : (buf.add (len - remains).toNat).blk ≠ raw.blk := apart
      have piece : (236 : UInt32).toNat = 236 := rfl
      by_cases small : remains < 236
      · have size : remains.toNat < 236 := by rwa [UInt32.lt_iff_toNat_lt,piece] at small
        have value : (roundup remains 4).toUInt16.toNat = (remains.toNat + 3) / 4 * 4 := by
          rw [UInt32.toNat_toUInt16,show (roundup remains 4).toNat = _ from Words.round_four remains (by omega)]
          omega
        let cleared : World := {w with mem := w.mem.write (raw.add 20) (List.replicate (roundup remains 4).toUInt16.toNat 0)}
        have same : cleared.mem buf.blk = w.mem buf.blk := poked_other apart
        have clear : PacketsSent raw 0 w cleared :=
          ⟨header_below header (by simp),fun blk other => poked_other other,(packetsSent_none header).sip,rfl⟩
        rw [writeMemLoop_last raw buf addr len fuel none small]
        apply alone_exec (fun _ => rfl) (fun _ => rfl)
        apply nextPiece_wp [] clear.header source (by omega) (by omega)
        · intro ret w' added attempted sent
          have whole := packetsSent_trans clear sent
          rw [Nat.zero_add] at whole
          rw [tailPlan_last _ _ _ _ _ positive size] at rest
          exact rest ret w' added (same ▸ attempted) whole
        · intro w' d' sent more
          exact empty sent.header more
      · have large : 236 ≤ remains.toNat := by
          rw [UInt32.lt_iff_toNat_lt,piece] at small
          omega
        have below : (remains - 236).toNat = remains.toNat - 236 :=
          UInt32.toNat_sub_of_le _ _ (by rw [UInt32.le_iff_toNat_le,piece]; exact large)
        rw [writeMemLoop_full raw buf addr len fuel none small]
        rw [tailPlan_full _ _ _ _ _ within large] at rest
        apply nextPiece_wp _ header source (by decide) (by decide) rest
        intro w' d' sent more
        apply ih sent.header (by omega) (by omega)
        rw [sent.frame _ apart,sent.sip]
        exact more

-- Block `blk` is none that an allocation may give or that `rawbuf` lies in.
structure Ready (w : World) (blk : Nat) : Prop where
  old : blk < w.fresh
  apart : ∀ raw, w.sip.rawbuf = some raw → raw.blk ≠ blk

-- What a call of `esp_sip_write_mem` leaves after `n` packets.
structure Written (blk n : Nat) (w w' : World) : Prop where
  image : w'.mem blk = w.mem blk
  txseq : w'.sip.txseq = w.sip.txseq + UInt32.ofNat n
  ready : Ready w' blk
  rawbuf : w'.sip.rawbuf ≠ none

-- The stores ahead of the loop.
def prepared (m : Mem) (raw : Ptr) : Mem :=
  (m.write raw [(((m.read raw 1).getD 0 0) &&& ~~~sipTypeMask) ||| (sipCtrl &&& sipTypeMask)]).write (raw.add 4) (le32 sipCmdWriteMemory)

theorem prepared_header (m : Mem) (raw : Ptr) : Header (prepared m raw) raw := by
  constructor
  · have type : sipHdrGetType ((((m.read raw 1).getD 0 0) &&& ~~~sipTypeMask) ||| (sipCtrl &&& sipTypeMask)) = sipCtrl := type_set ..
    simp only [prepared,Mem.write,Ptr.add_blk,Ptr.add_off]
    rw [if_neg (by omega),if_pos (by simp)]
    simpa using type
  · exact read_back _ _ _ (le32_length _)

theorem prepared_other {m : Mem} {raw : Ptr} (other : blk ≠ raw.blk) : prepared m raw blk = m blk := by
  rw [prepared,poked_other other]
  exact write_other other

-- `esp_sip_write_mem` from the first use of `rawbuf` on.
def fillAndSend (addr : UInt32) (buf : Ptr) (len : UInt32) : Code EspErr :=
  .op .sipGet fun sip => match sip.rawbuf with
    | none => .pure .noMem
    | some raw => .op (.load raw 1) fun fc0 =>
      .op (.store raw [(fc0.getD 0 0 &&& ~~~sipTypeMask) ||| (sipCtrl &&& sipTypeMask)]) fun _ =>
        .op (.store (raw.add 4) (le32 sipCmdWriteMemory)) fun _ => writeMemLoop raw buf addr len len.toNat len

theorem espSipWriteMem_eq (addr len : UInt32) (buf : Ptr) : espSipWriteMem addr buf len =
    .op .sipGet fun sip =>
      if sip.rawbuf = none then
        .op (.malloc sipBootBufSize) fun p => .op (.sipSet (.rawbuf p)) fun _ =>
          if p = none then .pure .noMem else fillAndSend addr buf len
      else fillAndSend addr buf len := by
  unfold espSipWriteMem fillAndSend
  simp only [Prog.bind_def,issue_bind,Prog.pure_def]
  refine congrArg (Prog.op _) (funext fun sip => ?_)
  by_cases absent : sip.rawbuf = none
  · rw [if_pos absent,if_pos absent]
    refine congrArg (Prog.op _) (funext fun p => congrArg (Prog.op _) (funext fun _ => ?_))
    by_cases refused : p = none
    · rw [if_pos refused,if_pos refused]
    · rw [if_neg refused,if_neg refused]
      refine congrArg (Prog.op _) (funext fun now => ?_)
      cases now.rawbuf <;> rfl
  · rw [if_neg absent,if_neg absent]
    refine congrArg (Prog.op _) (funext fun now => ?_)
    cases now.rawbuf <;> rfl

theorem fillAndSend_wp {t : Task} {w : World} {d : Recorded} {addr len : UInt32} {raw buf : Ptr} {post : EspErr → State → Prop}
    (ready : Ready w buf.blk) (holds : w.sip.rawbuf = some raw)
    (rest : ∀ ret w' added, Attempted (blockPlan (w.mem buf.blk) buf.off addr w.sip.txseq len.toNat) ret added →
      Written buf.blk added.length w w' → post ret (w',{d with sent := d.sent ++ added})) :
    wp (alone recorder t) (fillAndSend addr buf len) post (w,d) := by
  have other : buf.blk ≠ raw.blk := Ne.symm (ready.apart raw holds)
  let filled : World := {w with mem := prepared w.mem raw}
  have same : filled.mem buf.blk = w.mem buf.blk := prepared_other other
  have loop : wp (alone recorder t) (writeMemLoop raw buf addr len len.toNat len) post (filled,d) := by
    apply writeMemLoop_wp (prepared_header w.mem raw) other (Nat.le_refl _) (Nat.le_refl _)
    intro ret w' added attempted sent
    rw [same,tailPlan,UInt32.sub_self] at attempted
    have whole : addr + 0 = addr := UInt32.add_zero addr
    rw [whole] at attempted
    apply rest ret w' added attempted
    constructor
    · rw [sent.frame _ other,same]
    · rw [sent.sip]
    · constructor
      · rw [sent.fresh]
        exact ready.old
      · rw [sent.sip]
        exact ready.apart
    · rw [sent.sip]
      show w.sip.rawbuf ≠ none
      rw [holds]
      exact Option.some_ne_none raw
  unfold fillAndSend
  apply alone_exec (fun _ => rfl) (fun _ => rfl)
  simp only [holds]
  repeat apply alone_exec (fun _ => rfl) (fun _ => rfl)
  exact loop

theorem espSipWriteMem_wp {t : Task} {w : World} {d : Recorded} {addr len : UInt32} {buf : Ptr} {post : EspErr → State → Prop}
    (ready : Ready w buf.blk) (refused : w.sip.rawbuf = none → ∀ w', post .noMem (w',{d with refused := true}))
    (rest : ∀ ret w' added, Attempted (blockPlan (w.mem buf.blk) buf.off addr w.sip.txseq len.toNat) ret added →
      Written buf.blk added.length w w' → post ret (w',{d with sent := d.sent ++ added})) :
    wp (alone recorder t) (espSipWriteMem addr buf len) post (w,d) := by
  rw [espSipWriteMem_eq]
  apply alone_exec (fun _ => rfl) (fun _ => rfl)
  apply wp_ite
  · intro none
    apply alone_op
    intro ans p w₁ d₁ ran answered
    cases answered
    cases granted : ans.flag with
    | false =>
        simp only [World.exec,granted] at ran
        cases ran
        apply alone_exec (fun _ => rfl) (fun _ => rfl)
        simpa using refused none _
    | true =>
        simp only [World.exec,granted] at ran
        cases ran
        apply alone_exec (fun _ => rfl) (fun _ => rfl)
        let owned : World := {(w.alloc sipBootBufSize).2 with sip := {w.sip with rawbuf := some ⟨w.fresh,0⟩}}
        have later : Ready owned buf.blk := by
          constructor
          · exact Nat.lt_succ_of_lt ready.old
          · intro raw same
            cases same
            exact Ne.symm (Nat.ne_of_lt ready.old)
        have loop : wp (alone recorder t) (fillAndSend addr buf len) post (owned,d) := by
          apply fillAndSend_wp later rfl
          intro ret w' added attempted written
          exact rest ret w' added attempted ⟨written.image,written.txseq,written.ready,written.rawbuf⟩
        rw [if_neg (Option.some_ne_none _)]
        show wp _ (fillAndSend addr buf len) post (owned,{d with refused := d.refused || !true})
        rw [Bool.not_true,Bool.or_false]
        exact loop
  · intro holds
    obtain ⟨raw,holds⟩ := Option.ne_none_iff_exists'.mp holds
    exact fillAndSend_wp ready holds rest

-- A 32-bit number that stands in memory.
theorem load32_at {m : Mem} {p : Ptr} {bytes : List UInt8} (lies : Lies (m p.blk) p.off bytes) (four : bytes.length = 4) :
    m.read p 4 = bytes := by
  rw [← four]
  exact lies

def afterBlock (fw : Ptr) (blocks : Nat) (offset : UInt32) (ret : EspErr) : Code EspErr :=
  if ret ≠ .ok then .pure ret else .op (.load ((fw.add offset.toNat).add 4) 4) fun len =>
    fwDownloadLoop fw blocks (offset + sizeofEspFwBlkHdr + UInt32.ofNat (leNat len))

theorem fwDownloadLoop_step (fw : Ptr) (blocks : Nat) (offset : UInt32) : fwDownloadLoop fw (blocks + 1) offset =
    .op (.load (fw.add offset.toNat) 4) fun addr => .op (.load ((fw.add offset.toNat).add 4) 4) fun len =>
      (espSipWriteMem (UInt32.ofNat (leNat addr)) (fw.add (offset + sizeofEspFwBlkHdr).toNat) (UInt32.ofNat (leNat len))).bind
        (afterBlock fw blocks offset) := by
  simp only [fwDownloadLoop,load32,Prog.bind_def,issue_bind,Prog.op_bind,Prog.pure_bind,Prog.pure_def]
  rfl

theorem fwDownloadLoop_wp {t : Task} {w : World} {d : Recorded} {fw : Ptr} {offset : UInt32} {blocks : List Block}
    {post : EspErr → State → Prop} (ready : Ready w fw.blk)
    (lies : Lies (w.mem fw.blk) (fw.off + offset.toNat) (blocks.flatMap Block.bytes))
    (fits : offset.toNat + (blocks.flatMap Block.bytes).length < 2 ^ 32)
    (refused : w.sip.rawbuf = none → ∀ w', post .noMem (w',{d with refused := true}))
    (rest : ∀ ret w' added, Attempted (plan (w.mem fw.blk) (fw.off + offset.toNat) w.sip.txseq blocks) ret added →
      post ret (w',{d with sent := d.sent ++ added})) :
    wp (alone recorder t) (fwDownloadLoop fw blocks.length offset) post (w,d) := by
  induction blocks generalizing w d offset with
  | nil =>
      have result := rest .ok w [] .done
      rw [List.append_nil] at result
      exact result
  | cons b others ih =>
      obtain ⟨addr,len,_,tail⟩ := block_lies lies
      have length : ((b :: others).flatMap Block.bytes).length = 8 + b.data.length + (others.flatMap Block.bytes).length := by
        simp [Block.bytes,le32_length]
        omega
      rw [length] at fits
      have eight : (offset + sizeofEspFwBlkHdr).toNat = offset.toNat + 8 := by
        have size : sizeofEspFwBlkHdr.toNat = 8 := rfl
        rw [UInt32.toNat_add,size]
        omega
      have dataLen : (UInt32.ofNat b.data.length).toNat = b.data.length := UInt32.toNat_ofNat_of_lt' (by unfold UInt32.size; omega)
      have next : (offset + sizeofEspFwBlkHdr + UInt32.ofNat b.data.length).toNat = offset.toNat + 8 + b.data.length := by
        rw [UInt32.toNat_add,eight,dataLen]
        omega
      have readAddr : UInt32.ofNat (leNat (w.mem.read (fw.add offset.toNat) 4)) = b.addr := by
        rw [load32_at addr (le32_length _),leNat_le32,UInt32.ofNat_toNat]
      have readLen : ∀ m : Mem, m fw.blk = w.mem fw.blk →
          UInt32.ofNat (leNat (m.read ((fw.add offset.toNat).add 4) 4)) = UInt32.ofNat b.data.length := by
        intro m same
        have lies : Lies (m fw.blk) (fw.off + offset.toNat + 4) (leBytes 4 b.data.length) := same ▸ len
        rw [load32_at lies (leBytes_length 4 _),leNat_leBytes,Nat.mod_eq_of_lt (by omega)]
      have block : wp (alone recorder t) ((espSipWriteMem b.addr (fw.add (offset + sizeofEspFwBlkHdr).toNat)
          (UInt32.ofNat b.data.length)).bind (afterBlock fw others.length offset)) post (w,d) := by
        rw [wp_bind]
        have here : Ready w (fw.add (offset + sizeofEspFwBlkHdr).toNat).blk := ready
        apply espSipWriteMem_wp here
        · intro none w'
          exact refused none w'
        · intro ret w' added attempted written
          rw [dataLen,Ptr.add_off,eight,Ptr.add_blk] at attempted
          apply wp_ite
          · intro wrong
            exact rest ret w' added (attempted_stop attempted wrong)
          · intro success
            obtain rfl : ret = .ok := Decidable.not_not.mp success
            have image : w'.mem fw.blk = w.mem fw.blk := written.image
            have reread := readLen w'.mem image
            apply alone_exec (fun _ => rfl) (fun _ => rfl)
            have later : wp (alone recorder t) (fwDownloadLoop fw others.length (offset + sizeofEspFwBlkHdr + UInt32.ofNat b.data.length))
                post (w',{d with sent := d.sent ++ added}) := by
              apply ih written.ready
              · rw [image,next,← Nat.add_assoc,← Nat.add_assoc]
                exact tail
              · omega
              · intro none
                exact absurd none written.rawbuf
              · intro ret w'' more continued
                rw [image,next,written.txseq] at continued
                have count : added.length = b.packets := (attempted_whole attempted).trans (blockPlan_length ..)
                rw [count,← Nat.add_assoc,← Nat.add_assoc] at continued
                have result := rest ret w'' (added ++ more) (attempted_append attempted continued)
                rw [← List.append_assoc] at result
                exact result
            rw [← reread] at later
            exact later
      rw [List.length_cons,fwDownloadLoop_step]
      apply alone_exec (fun _ => rfl) (fun _ => rfl)
      apply alone_exec (fun _ => rfl) (fun _ => rfl)
      rw [readAddr,readLen w.mem rfl]
      exact block

theorem espFwDownload_eq (fw : Ptr) : espFwDownload fw = .op (.load fw 1) fun magic =>
    if magic.getD 0 0 ≠ firmwareMagicHeader then .pure .fail else .op (.load (fw.add 1) 1) fun blocks =>
      fwDownloadLoop fw (blocks.getD 0 0).toNat (sizeofEspFwHdr + 16) := by
  simp only [espFwDownload,Prog.bind_def,issue_bind,Prog.pure_def]

theorem read_byte (m : Mem) (p : Ptr) : (m.read p 1).getD 0 0 = m p.blk p.off := rfl

theorem wrong_magic {t : Task} {w : World} {d : Recorded} {fw : Ptr} (wrong : w.mem fw.blk fw.off ≠ firmwareMagicHeader) :
    wp (alone recorder t) (espFwDownload fw) (fun ret s => ret = .fail ∧ s = (w,d)) (w,d) := by
  rw [espFwDownload_eq]
  apply alone_exec (fun _ => rfl) (fun _ => rfl)
  apply wp_ite
  · intro _
    exact ⟨rfl,rfl⟩
  · intro magic
    rw [read_byte] at magic
    exact absurd (Decidable.not_not.mp magic) wrong

-- The packets that a download reproduces the image with.
structure Reproduces (image : Image) (seq : UInt32) (cs : List WriteMemory) : Prop where
  count : cs.length = (image.blocks.map Block.packets).sum
  seqs : ∀ i c, cs[i]? = some c → c.seq = seq + UInt32.ofNat i
  bytes : ∀ m, ∀ b ∈ image.blocks, ∀ i < b.data.length, pokes m cs (b.addr + UInt32.ofNat i) = b.data.getD i 0

-- The parts of an image in memory.
theorem image_lies {img : Nat → UInt8} {off : Nat} (image : Image) (lies : Lies img off image.bytes) :
    img off = firmwareMagicHeader ∧ img (off + 1) = UInt8.ofNat image.blocks.length ∧
      Lies img (off + 24) (image.blocks.flatMap Block.bytes) := by
  have magic := lies_get lies (i := 0) (by simp [Image.bytes])
  have count := lies_get lies (i := 1) (by simp [Image.bytes])
  have parts : image.bytes = (firmwareMagicHeader :: UInt8.ofNat image.blocks.length :: image.rest) ++
      image.blocks.flatMap Block.bytes := rfl
  rw [parts] at lies
  have tail := (lies_append lies).2
  rw [List.length_cons,List.length_cons,image.header] at tail
  exact ⟨magic,count,tail⟩

theorem espFwDownload_wp {t : Task} {w : World} {d : Recorded} {fw : Ptr} {image : Image} {post : EspErr → State → Prop}
    (ready : Ready w fw.blk) (lies : Lies (w.mem fw.blk) fw.off image.bytes)
    (refused : ∀ w', post .noMem (w',{d with refused := true}))
    (rest : ∀ ret w' added, Attempted (plan (w.mem fw.blk) (fw.off + 24) w.sip.txseq image.blocks) ret added →
      post ret (w',{d with sent := d.sent ++ added})) : wp (alone recorder t) (espFwDownload fw) post (w,d) := by
  obtain ⟨magic,count,tail⟩ := image_lies image lies
  have blocks : (UInt8.ofNat image.blocks.length).toNat = image.blocks.length := by
    have bound := image.count
    rw [UInt8.toNat_ofNat']
    omega
  have loop : wp (alone recorder t) (fwDownloadLoop fw image.blocks.length 24) post (w,d) :=
    fwDownloadLoop_wp ready tail image.size (fun _ => refused) rest
  rw [espFwDownload_eq]
  apply alone_exec (fun _ => rfl) (fun _ => rfl)
  apply wp_ite
  · intro wrong
    exact absurd magic wrong
  · intro _
    apply alone_exec (fun _ => rfl) (fun _ => rfl)
    rw [read_byte]
    show wp _ (fwDownloadLoop fw (w.mem fw.blk (fw.off + 1)).toNat 24) post (w,d)
    rw [count,blocks]
    exact loop

theorem plan_reproduces {img : Nat → UInt8} {off : Nat} {image : Image} (seq : UInt32)
    (lies : Lies img off (image.blocks.flatMap Block.bytes)) : Reproduces image seq (plan img off seq image.blocks) := by
  constructor
  · exact plan_length img off seq image.blocks
  · intro i c found
    exact plan_seq img off seq found
  · intro m b member i inside
    exact plan_delivers m seq lies image.placed image.disjoint member inside

-- None of the operations can block.
def unblocked : Op → Bool
  | .load .. | .store .. | .sipGet | .sipSet _ | .taskDelay _ | .malloc _ | .sdmmcIoWrite .. => true
  | _ => false

theorem writeBytesLoop_ready (function : UInt32) (arg : Cmd53Arg) (fuel : Nat) (addr : UInt32) (src : Src) (size : UInt32) :
    (writeBytesLoop function arg fuel addr src size).All (unblocked · = true) := by
  induction fuel generalizing addr src size with
  | zero => exact trivial
  | succ fuel ih =>
      rw [writeBytesLoop]
      apply Prog.All.ite
      · intro _
        refine ⟨rfl,fun err => ?_⟩
        exact Prog.All.ite (fun _ => trivial) fun _ => ih _ _ _
      · intro _
        exact trivial

theorem sendPiece_ready {next : EspErr → Code EspErr} (raw src : Ptr) (loadaddr : UInt32) (bufsize : UInt16)
    (rest : ∀ err, (next err).All (unblocked · = true)) : (sendPiece raw src loadaddr bufsize next).All (unblocked · = true) := by
  unfold sendPiece extconnSdioWriteBytes
  repeat
    refine ⟨rfl,fun _ => ?_⟩
  exact Prog.All.bind (writeBytesLoop_ready _ _ _ _ _ _) rest

theorem writeMemLoop_ready (raw buf : Ptr) (addr len : UInt32) (fuel : Nat) (remains : UInt32) :
    (writeMemLoop raw buf addr len fuel remains).All (unblocked · = true) := by
  induction fuel generalizing remains with
  | zero => exact trivial
  | succ fuel ih =>
      have after : ∀ remains err, (afterPiece raw buf addr len fuel remains err).All (unblocked · = true) :=
        fun remains err => Prog.All.ite (fun _ => trivial) fun _ => ih remains
      by_cases none : remains = 0
      · subst none
        exact trivial
      by_cases small : remains < 236
      · rw [writeMemLoop_last raw buf addr len fuel none small]
        exact ⟨rfl,fun _ => sendPiece_ready _ _ _ _ (after 0)⟩
      · rw [writeMemLoop_full raw buf addr len fuel none small]
        exact sendPiece_ready _ _ _ _ (after _)

theorem espSipWriteMem_ready (addr len : UInt32) (buf : Ptr) : (espSipWriteMem addr buf len).All (unblocked · = true) := by
  have later : (fillAndSend addr buf len).All (unblocked · = true) := by
    refine ⟨rfl,fun sip => ?_⟩
    dsimp only
    cases sip.rawbuf with
    | none => exact trivial
    | some raw => exact ⟨rfl,fun _ => ⟨rfl,fun _ => ⟨rfl,fun _ => writeMemLoop_ready _ _ _ _ _ _⟩⟩⟩
  rw [espSipWriteMem_eq]
  refine ⟨rfl,fun sip => ?_⟩
  apply Prog.All.ite
  · intro _
    exact ⟨rfl,fun p => ⟨rfl,fun _ => Prog.All.ite (fun _ => trivial) fun _ => later⟩⟩
  · intro _
    exact later

theorem fwDownloadLoop_ready (fw : Ptr) (blocks : Nat) (offset : UInt32) :
    (fwDownloadLoop fw blocks offset).All (unblocked · = true) := by
  induction blocks generalizing offset with
  | zero => exact trivial
  | succ blocks ih =>
      rw [fwDownloadLoop_step]
      refine ⟨rfl,fun addr => ⟨rfl,fun len => ?_⟩⟩
      apply Prog.All.bind (espSipWriteMem_ready _ _ _)
      intro ret
      exact Prog.All.ite (fun _ => trivial) fun _ => ⟨rfl,fun _ => ih _⟩

theorem espFwDownload_ready (fw : Ptr) : (espFwDownload fw).All (unblocked · = true) := by
  rw [espFwDownload_eq]
  exact ⟨rfl,fun _ => Prog.All.ite (fun _ => trivial) fun _ => ⟨rfl,fun _ => fwDownloadLoop_ready _ _ _⟩⟩

theorem ready_exec {o : Op} (ready : unblocked o = true) (t : Task) (w : World) : ∃ r w', World.exec t o {} w = some (r,w') := by
  cases o with
  | load | store | sipGet | sipSet | taskDelay | malloc | sdmmcIoWrite => exact ⟨_,_,rfl⟩
  | _ => cases ready

-- The bus accepts every write and the heap every request.
def accepting (t : Task) : Meaning signature State := fun o s r s' => recorder.exec t o {} s = some (r,s')

def Accepted (d : Recorded) : Prop := d.refused = false ∧ ∀ x ∈ d.sent, x.err = .ok

theorem accepting_keeps {t : Task} {o : Op} {r : o.Answer} {s s' : State} (acted : accepting t o s r s') (held : Accepted s.2) :
    Accepted s'.2 := by
  obtain ⟨w',d'⟩ := s'
  obtain ⟨_,answered⟩ := exec_iff.mp acted
  unfold recorder at answered
  cases o with
  | sdmmcIoWrite =>
      cases answered
      refine ⟨held.1,fun x member => ?_⟩
      cases List.mem_append.mp member with
      | inl before => exact held.2 x before
      | inr last =>
          cases List.mem_singleton.mp last
          rfl
  | malloc =>
      cases answered
      exact ⟨by simp [held.1],held.2⟩
  | _ =>
      cases answered
      exact held

theorem accepting_free {p : Code α} (ready : p.All (unblocked · = true)) (t : Task) : p.All fun o => ∀ s, ∃ r s', accepting t o s r s' := by
  apply ready.mono
  intro o ready s
  obtain ⟨r,w',ran⟩ := ready_exec ready t s.1
  have answered : ∃ d, recorder.answers t s.1 o {} s.2 = some d := by
    cases o <;> exact ⟨_,rfl⟩
  obtain ⟨d,answered⟩ := answered
  exact ⟨r,(w',d),exec_iff.mpr ⟨ran,answered⟩⟩

-- A run in which nothing fails is a run, and nothing has failed in it.
theorem accepting_run {t : Task} {p : Code α} {w : World} {s' : State} (ready : p.All (unblocked · = true))
    (run : Runs Eq (accepting t) p (w,⟨[],false⟩) trace ret s') :
    Runs Eq (recorder.act t) p (w,⟨[],false⟩) trace ret s' ∧ Accepted s'.2 := by
  have start : Accepted (w,(⟨[],false⟩ : Recorded)).2 := ⟨rfl,fun _ member => absurd member List.not_mem_nil⟩
  have accepted : Accepted s'.2 := by
    apply Runs.keeps (I := fun s => Accepted s.2) ready _ _ start run
    · intro s s' held same
      exact same ▸ held
    · intro o s r s' _ held acted
      exact accepting_keeps acted held
  exact ⟨run.map id (fun same => same) fun acted => ⟨{},acted⟩,accepted⟩

theorem accepted_run {p : Code α} (ready : p.All (unblocked · = true)) (t : Task) (w : World) :
    ∃ trace ret s', Runs Eq (recorder.act t) p (w,⟨[],false⟩) trace ret s' ∧ Accepted s'.2 := by
  obtain ⟨trace,ret,s',run⟩ := (accepting_free ready t).runs (fun s => (rfl : s = s)) (w,⟨[],false⟩)
  exact ⟨trace,ret,s',accepting_run ready run⟩

-- Every run of the download, whatever the bus answers; there is one in which
-- nothing fails.
theorem image_reproduced {t : Task} {w : World} {fw : Ptr} (ready : Ready w fw.blk) :
    (∃ trace ret s', Runs Eq (recorder.act t) (espFwDownload fw) (w,⟨[],false⟩) trace ret s' ∧ Accepted s'.2) ∧
    ∀ trace ret s', Runs Eq (recorder.act t) (espFwDownload fw) (w,⟨[],false⟩) trace ret s' →
      (∀ image : Image, w.mem.read fw image.bytes.length = image.bytes → ∃ cs, Reproduces image w.sip.txseq cs ∧
        s'.2.sent.map decode = (cs.take s'.2.sent.length).map some ∧
        (Accepted s'.2 → ret = .ok ∧ s'.2.sent.length = cs.length) ∧
        ∀ k x, s'.2.sent[k]? = some x → x.err ≠ .ok → s'.2.sent.length = k + 1 ∧ ret ≠ .ok) ∧
      (w.mem fw.blk fw.off ≠ firmwareMagicHeader → s'.2.sent = [] ∧ ret ≠ .ok) := by
  constructor
  · exact accepted_run (espFwDownload_ready fw) t w
  intro trace ret s' run
  constructor
  · intro image lies
    have tail := (image_lies image lies).2.2
    refine ⟨plan (w.mem fw.blk) (fw.off + 24) w.sip.txseq image.blocks,plan_reproduces _ tail,?_⟩
    apply alone_runs _ run
    apply espFwDownload_wp ready lies
    · intro w'
      exact ⟨rfl,fun accepted => absurd accepted.1 Bool.noConfusion,nofun⟩
    · intro ret w' added attempted
      refine ⟨attempted_packets attempted,fun accepted => ?_,fun k x found lost => attempted_lost attempted found lost⟩
      obtain rfl := attempted_accepted attempted accepted.2
      exact ⟨rfl,attempted_whole attempted⟩
  · intro wrong
    obtain ⟨returned,same⟩ := alone_runs (wrong_magic wrong) run
    rw [returned,same]
    exact ⟨rfl,nofun⟩

-- A block of two packets and one whose only packet is filled up.
def sample : Image where
  rest := List.replicate 22 0
  blocks := [⟨0x40100000,(List.range 300).map UInt8.ofNat⟩,⟨0x40101000,[1,2,3]⟩]
  header := rfl
  count := by decide
  size := by decide +kernel
  placed := by decide +kernel
  disjoint := by
    rw [List.pairwise_pair]
    rintro a ⟨⟨_,first⟩,second,_⟩
    simp only [Block.rounded,List.length_map,List.length_range,UInt32.reduceToNat] at first second
    omega

def sampleWorld : World := {World.initial espSipInit with mem := Mem.write (fun _ _ => 0) ⟨0,0⟩ sample.bytes}

theorem sample_reproduced : ∃ trace s' cs, Runs Eq (recorder.act .appMain) (espFwDownload ⟨0,0⟩) (sampleWorld,⟨[],false⟩) trace .ok s' ∧
    s'.2.sent.map decode = cs.map some ∧ cs.length = 3 ∧ Reproduces sample 0 cs := by
  have ready : Ready sampleWorld (⟨0,0⟩ : Ptr).blk := ⟨by decide,nofun⟩
  obtain ⟨⟨trace,ret,s',run,accepted⟩,every⟩ := image_reproduced ready
  obtain ⟨cs,reproduces,sent,done,-⟩ := (every trace ret s' run).1 sample (read_write _ _ _)
  obtain ⟨rfl,length⟩ := done accepted
  rw [length,List.take_length] at sent
  exact ⟨trace,s',cs,run,sent,reproduces.count.trans (by decide +kernel),reproduces⟩

end ExtConn.FirmwareDownload
