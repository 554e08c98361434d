import ExtConn.Sequential
import ExtConn.Transport
import ExtConn.Words

namespace ExtConn.WifiPacket
open Effects ByteMemory ExtConn.Sequential

-- A slave that takes part in bus transfers and notes only.
def aside : Op → Bool
  | .load .. | .store .. | .sipGet | .sipSet _ | .semTake .. | .semGive _ | .hostGet | .hostSet _ | .taskDelay _
  | .isTxCallback _ | .net80211EnTxdq _ | .espSipTxdPost | .espSipRecycle _ | .listWaitItem | .listRemove => true
  | _ => false

def Ignores (slave : Slave δ) (t : Task) : Prop :=
  ∀ w o ans d, aside o = true → slave.answers t w o ans d = some d

-- Commands are queued with their header; data is queued without one.
def IsCommand (b : EsfBuf) : Prop := b.type = esfBufTxSip ∨ b.type = esfBufTxSipTest
instance (b : EsfBuf) : Decidable (IsCommand b) := inferInstanceAs (Decidable (_ ∨ _))

def packetLength (b : EsfBuf) : Nat := if IsCommand b then b.dataLen.toNat else b.dsLength.val + sizeofSipHdr

def setType (fc0 type : UInt8) : UInt8 := (fc0 &&& ~~~sipTypeMask) ||| (type &&& sipTypeMask)

-- A queued command behind the two assignments to its header.
def marked : List UInt8 → List UInt8
  | fc0 :: fc1 :: rest => setType fc0 sipCtrl :: (fc1 ||| sipHdrFSync) :: rest
  | short => short

def commandBytes (m : Mem) (b : EsfBuf) : List UInt8 :=
  let raw := m.read b.bufBegin b.dataLen.toNat
  marked (raw ++ List.replicate (sizeofSipHdr - raw.length) 0)

def dataType (b : EsfBuf) : UInt8 := if b.flags &&& ppFAmpdu ≠ 0 then sipDataAmpdu else sipData

def dataHeader (b : EsfBuf) : List UInt8 :=
  [setType 0 (dataType b),sipHdrFSync] ++ leBytes 2 (UInt32.ofNat b.dsLength.val + sipCtrlHdrLen).toUInt16.toNat ++
    [UInt8.ofNat b.tid.val,UInt8.ofNat b.ac.val,UInt8.ofNat (2 * b.cryptoType.val),b.kid,0,0,0,0]

-- What `send_buf` begins with once the packet has been built.
def packetBytes (m : Mem) (b : EsfBuf) : List UInt8 :=
  if IsCommand b then commandBytes m b else dataHeader b ++ m.read b.dsBuf b.dsLength.val

def sendLen (b : EsfBuf) (blks : UInt16) : UInt32 := roundup (UInt32.ofNat (packetLength b)) blks.toUInt32

theorem marked_length (bytes : List UInt8) : (marked bytes).length = bytes.length := by
  unfold marked
  split
  · rfl
  · rfl

theorem dataHeader_length (b : EsfBuf) : (dataHeader b).length = sizeofSipHdr := rfl

theorem packetBytes_length (m : Mem) (b : EsfBuf) : (packetBytes m b).length = max (packetLength b) sizeofSipHdr := by
  unfold packetBytes packetLength
  split
  · rw [commandBytes,marked_length]
    simp only [List.length_append,List.length_replicate,read_length]
    omega
  · rw [List.length_append,dataHeader_length,read_length]
    omega

section
variable {slave : Slave δ} {t : Task} {w : World} {d : δ}

theorem load_op {p : Ptr} {n : Nat} {next : List UInt8 → Code α} {post : α → World × δ → Prop} (ignores : Ignores slave t)
    (rest : wp (alone slave t) (next (w.mem.read p n)) post (w,d)) : wp (alone slave t) (.op (.load p n) next) post (w,d) :=
  alone_exec (fun _ => ignores _ _ _ _ rfl) (fun _ => rfl) rest

theorem store_op {p : Ptr} {bytes : List UInt8} {next : Unit → Code α} {post : α → World × δ → Prop} (ignores : Ignores slave t)
    (rest : wp (alone slave t) (next ()) post ({w with mem := w.mem.write p bytes},d)) :
    wp (alone slave t) (.op (.store p bytes) next) post (w,d) :=
  alone_exec (fun _ => ignores _ _ _ _ rfl) (fun _ => rfl) rest

-- One byte read, changed and stored back in what has just been written.
theorem poke_byte (m : Mem) (p : Ptr) (f : UInt8 → UInt8) {k : Nat} {before : List UInt8} {x : UInt8} {rest : List UInt8}
    (length : before.length = k) :
    (m.write p (before ++ x :: rest)).write (p.add k) [f (((m.write p (before ++ x :: rest)).read (p.add k) 1).getD 0 0)] =
      m.write p (before ++ f x :: rest) := by
  have fits : k + 1 ≤ (before ++ x :: rest).length := by
    rw [List.length_append,List.length_cons]
    omega
  have shown : (m.write p (before ++ x :: rest)).read (p.add k) 1 = [x] := by
    rw [read_inside m p _ fits,← length,List.drop_left]
    rfl
  have skip : (before ++ x :: rest).drop (k + [f x].length) = rest := by
    rw [← length]
    simp
  rw [shown,write_at m p _ _ (by omega)]
  show m.write p ((before ++ x :: rest).take k ++ [f x] ++ (before ++ x :: rest).drop (k + [f x].length)) = _
  rw [skip,← length,List.take_left,List.append_assoc]
  rfl

-- The task's buffer is not the one it copies from.
def sourceOf (b : EsfBuf) : Ptr := if IsCommand b then b.bufBegin else b.dsBuf
def Apart (sendBuf : Ptr) (b : EsfBuf) : Prop := (sourceOf b).blk ≠ sendBuf.blk

def placed (w : World) (sendBuf : Ptr) (bytes : List UInt8) : World := {w with mem := w.mem.write sendBuf bytes}

theorem marks (m : Mem) (sendBuf : Ptr) {base : List UInt8} (whole : 2 ≤ base.length) :
    (((m.write sendBuf base).write sendBuf [setType (((m.write sendBuf base).read sendBuf 1).getD 0 0) sipCtrl]).write (sendBuf.add 1)
      [(((m.write sendBuf base).write sendBuf [setType (((m.write sendBuf base).read sendBuf 1).getD 0 0) sipCtrl]).read (sendBuf.add 1) 1).getD 0 0
        ||| sipHdrFSync]) = m.write sendBuf (marked base) := by
  match base,whole with
  | fc0 :: fc1 :: rest,_ =>
      have first := @poke_byte m sendBuf (setType · sipCtrl) 0 [] fc0 (fc1 :: rest) rfl
      have second := @poke_byte m sendBuf (· ||| sipHdrFSync) 1 [setType fc0 sipCtrl] fc1 rest rfl
      simp only [List.nil_append,Ptr.add_zero] at first
      rw [first]
      exact second

theorem buildCommand_wp {sendBuf : Ptr} {b : EsfBuf} {post : UInt32 → World × δ → Prop} {len : UInt32} (ignores : Ignores slave t)
    (apart : b.bufBegin.blk ≠ sendBuf.blk) (rest : post len (placed w sendBuf (commandBytes w.mem b),d)) :
    wp (alone slave t) (do
      memcpy sendBuf b.bufBegin b.dataLen.toNat
      sipHdrSetType sendBuf sipCtrl
      sipHdrSetSync sendBuf
      return len) post (placed w sendBuf (List.replicate sizeofSipHdr 0),d) := by
  unfold memcpy sipHdrSetType sipHdrSetSync
  simp only [Prog.bind_def,issue_bind,Prog.op_bind,Prog.pure_def]
  apply load_op ignores
  apply store_op ignores
  apply load_op ignores
  apply store_op ignores
  apply load_op ignores
  apply store_op ignores
  have source : (w.mem.write sendBuf (List.replicate sizeofSipHdr 0)).read b.bufBegin b.dataLen.toNat =
      w.mem.read b.bufBegin b.dataLen.toNat := read_write_other _ _ _ _ (.inl apart)
  have base : (w.mem.write sendBuf (List.replicate sizeofSipHdr 0)).write sendBuf (w.mem.read b.bufBegin b.dataLen.toNat) =
      w.mem.write sendBuf (w.mem.read b.bufBegin b.dataLen.toNat ++
        List.replicate (sizeofSipHdr - (w.mem.read b.bufBegin b.dataLen.toNat).length) 0) := by
    have overwritten := write_at w.mem sendBuf (List.replicate sizeofSipHdr 0) (k := 0) (w.mem.read b.bufBegin b.dataLen.toNat) (Nat.zero_le _)
    simpa [List.drop_replicate] using overwritten
  have whole : 2 ≤ (w.mem.read b.bufBegin b.dataLen.toNat ++
      List.replicate (sizeofSipHdr - (w.mem.read b.bufBegin b.dataLen.toNat).length) 0).length := by
    simp only [List.length_append,List.length_replicate,sizeofSipHdr]
    omega
  have final := marks w.mem sendBuf whole
  simp only [placed,source,base]
  show post len ({w with mem := _},d)
  unfold setType at final
  rw [final]
  exact rest

theorem placed_load {sendBuf : Ptr} {bytes : List UInt8} {k n : Nat} {next : List UInt8 → Code α} {post : α → World × δ → Prop}
    (ignores : Ignores slave t) (inside : k + n ≤ bytes.length)
    (rest : wp (alone slave t) (next ((bytes.drop k).take n)) post (placed w sendBuf bytes,d)) :
    wp (alone slave t) (.op (.load (sendBuf.add k) n) next) post (placed w sendBuf bytes,d) := by
  apply load_op ignores
  show wp _ (next ((w.mem.write sendBuf bytes).read (sendBuf.add k) n)) _ _
  rw [read_inside w.mem sendBuf bytes inside]
  exact rest

theorem placed_store {sendBuf : Ptr} {bytes part after : List UInt8} {k : Nat} {next : Unit → Code α} {post : α → World × δ → Prop}
    (ignores : Ignores slave t) (inside : k ≤ bytes.length) (same : bytes.take k ++ part ++ bytes.drop (k + part.length) = after)
    (rest : wp (alone slave t) (next ()) post (placed w sendBuf after,d)) :
    wp (alone slave t) (.op (.store (sendBuf.add k) part) next) post (placed w sendBuf bytes,d) := by
  apply store_op ignores
  show wp _ (next ()) _ ({w with mem := (w.mem.write sendBuf bytes).write (sendBuf.add k) part},d)
  rw [write_at w.mem sendBuf bytes part inside,same]
  exact rest

-- The two bytes of the length field of a data packet.
def low (b : EsfBuf) : UInt8 := UInt8.ofNat (UInt32.ofNat b.dsLength.val + sipCtrlHdrLen).toUInt16.toNat
def high (b : EsfBuf) : UInt8 := UInt8.ofNat ((UInt32.ofNat b.dsLength.val + sipCtrlHdrLen).toUInt16.toNat / 256)

theorem buildData_wp {sendBuf : Ptr} {b : EsfBuf} {post : UInt32 → World × δ → Prop} {len : UInt32} (ignores : Ignores slave t)
    (apart : b.dsBuf.blk ≠ sendBuf.blk) (rest : post len (placed w sendBuf (dataHeader b ++ w.mem.read b.dsBuf b.dsLength.val),d)) :
    wp (alone slave t) (do
      sipHdrSetType sendBuf (if b.flags &&& ppFAmpdu ≠ 0 then sipDataAmpdu else sipData)
      sipHdrSetSync sendBuf
      sipHdrSetLen sendBuf (UInt32.ofNat b.dsLength.val + sipCtrlHdrLen).toUInt16
      issue (.store (sendBuf.add 4) [UInt8.ofNat b.tid.val])
      issue (.store (sendBuf.add 5) [UInt8.ofNat b.ac.val])
      let old ← issue (.load (sendBuf.add 6) 1)
      issue (.store (sendBuf.add 6) [old.getD 0 0 &&& 0xfe])
      let old ← issue (.load (sendBuf.add 6) 1)
      issue (.store (sendBuf.add 6) [(old.getD 0 0 &&& 1) ||| UInt8.ofNat (2 * b.cryptoType.val)])
      issue (.store (sendBuf.add 7) [b.kid])
      memcpy (sendBuf.add sizeofSipHdr) b.dsBuf b.dsLength.val
      return len) post (placed w sendBuf (List.replicate sizeofSipHdr 0),d) := by
  unfold memcpy sipHdrSetType sipHdrSetSync sipHdrSetLen
  simp only [Prog.bind_def,issue_bind,Prog.op_bind,Prog.pure_def]
  have bytes : leBytes 2 (UInt32.ofNat b.dsLength.val + sipCtrlHdrLen).toUInt16.toNat = [low b,high b] := rfl
  rw [bytes]
  have ble : ∀ {x y : Nat}, Nat.ble x y = true → x ≤ y := Nat.le_of_ble_eq_true
  apply placed_load (k := 0) ignores (by decide)
  apply placed_store (k := 0) ignores (by decide) rfl
  show wp (alone slave t) _ post (placed w sendBuf [setType 0 (dataType b),0,0,0,0,0,0,0,0,0,0,0],d)
  apply placed_load (k := 1) ignores (ble rfl)
  apply placed_store (k := 1) ignores (ble rfl) rfl
  have sync : (0 ||| sipHdrFSync : UInt8) = sipHdrFSync := by decide
  show wp (alone slave t) _ post (placed w sendBuf [setType 0 (dataType b),0 ||| sipHdrFSync,0,0,0,0,0,0,0,0,0,0],d)
  rw [sync]
  apply placed_store (k := 2) ignores (ble rfl) rfl
  show wp (alone slave t) _ post (placed w sendBuf [setType 0 (dataType b),sipHdrFSync,low b,high b,0,0,0,0,0,0,0,0],d)
  apply placed_store (k := 4) ignores (ble rfl) rfl
  apply placed_store (k := 5) ignores (ble rfl) rfl
  show wp (alone slave t) _ post (placed w sendBuf [setType 0 (dataType b),sipHdrFSync,low b,high b,
    UInt8.ofNat b.tid.val,UInt8.ofNat b.ac.val,0,0,0,0,0,0],d)
  apply placed_load (k := 6) ignores (ble rfl)
  apply placed_store (k := 6) ignores (ble rfl) rfl
  have p2p : (0 &&& 0xfe : UInt8) = 0 := by decide
  show wp (alone slave t) _ post (placed w sendBuf [setType 0 (dataType b),sipHdrFSync,low b,high b,
    UInt8.ofNat b.tid.val,UInt8.ofNat b.ac.val,0 &&& 0xfe,0,0,0,0,0],d)
  rw [p2p]
  apply placed_load (k := 6) ignores (ble rfl)
  apply placed_store (k := 6) ignores (ble rfl) rfl
  apply placed_store (k := 7) ignores (ble rfl) rfl
  have crypto : (0 &&& 1 ||| UInt8.ofNat (2 * b.cryptoType.val) : UInt8) = UInt8.ofNat (2 * b.cryptoType.val) := by simp
  show wp (alone slave t) _ post (placed w sendBuf [setType 0 (dataType b),sipHdrFSync,low b,high b,
    UInt8.ofNat b.tid.val,UInt8.ofNat b.ac.val,0 &&& 1 ||| UInt8.ofNat (2 * b.cryptoType.val),b.kid,0,0,0,0],d)
  rw [crypto]
  have source : (w.mem.write sendBuf (dataHeader b)).read b.dsBuf b.dsLength.val = w.mem.read b.dsBuf b.dsLength.val :=
    read_write_other _ _ _ _ (.inl apart)
  show wp (alone slave t) _ post (placed w sendBuf (dataHeader b),d)
  apply load_op ignores
  show wp (alone slave t) (.op (.store (sendBuf.add sizeofSipHdr) ((w.mem.write sendBuf (dataHeader b)).read b.dsBuf b.dsLength.val))
    fun _ => .pure len) post (placed w sendBuf (dataHeader b),d)
  rw [source]
  have behind : (dataHeader b).take sizeofSipHdr ++ w.mem.read b.dsBuf b.dsLength.val ++
      (dataHeader b).drop (sizeofSipHdr + (w.mem.read b.dsBuf b.dsLength.val).length) = dataHeader b ++ w.mem.read b.dsBuf b.dsLength.val := by
    have none : (dataHeader b).drop (sizeofSipHdr + (w.mem.read b.dsBuf b.dsLength.val).length) = [] :=
      List.drop_of_length_le (Nat.le_add_right _ _)
    rw [none,List.append_nil]
    rfl
  apply placed_store ignores (ble rfl) behind
  exact rest

-- The packet stands at the beginning of `send_buf`; nothing else has changed.
theorem wifiBuildPacket_wp {sendBuf : Ptr} {eb : EbPtr} {post : UInt32 → World × δ → Prop} {d' : δ} (ignores : Ignores slave t)
    (fetched : ∀ ans, slave.answers t (placed w sendBuf (List.replicate sizeofSipHdr 0)) (.esfGet eb) ans d = some d')
    (apart : Apart sendBuf (w.esf eb))
    (rest : post (sendLen (w.esf eb) w.sip.txBlksz) (placed w sendBuf (packetBytes w.mem (w.esf eb)),d')) :
    wp (alone slave t) (wifiBuildPacket sendBuf eb) post (w,d) := by
  unfold wifiBuildPacket wifiFillPacket espSipGetTxBlks
  simp only [Prog.bind_def,issue_bind,Prog.op_bind,Prog.pure_def,Prog.pure_bind]
  apply store_op ignores
  apply alone_op
  intro ans b w' d₁ ran answered
  cases ran
  cases (fetched ans).symm.trans answered
  apply alone_exec (fun _ => ignores _ _ _ _ rfl) (fun _ => rfl)
  apply wp_ite
  · intro (command : IsCommand (w.esf eb))
    have length : UInt32.ofNat (packetLength (w.esf eb)) = (w.esf eb).dataLen.toUInt32 := by
      rw [packetLength,if_pos command]
      exact UInt32.ofNat_uInt16ToNat _
    rw [sendLen,length,packetBytes,if_pos command] at rest
    rw [Apart,sourceOf,if_pos command] at apart
    exact buildCommand_wp ignores apart rest
  · intro (data : ¬ IsCommand (w.esf eb))
    have length : UInt32.ofNat (packetLength (w.esf eb)) = UInt32.ofNat (w.esf eb).dsLength.val + sipCtrlHdrLen := by
      rw [packetLength,if_neg data,UInt32.ofNat_add]
      rfl
    rw [sendLen,length,packetBytes,if_neg data] at rest
    rw [Apart,sourceOf,if_neg data] at apart
    exact buildData_wp ignores apart rest

end

end ExtConn.WifiPacket
