import ExtConn.BlockRounding
import ExtConn.WifiIteration

namespace ExtConn.WifiFraming
open Effects ByteMemory ExtConn.Sequential WifiPacket WifiIteration

-- The buffer that a call from the stack has put into the list.
def queueing : Slave (Option EbPtr) where
  answers _ _ o _ d := match o with
    | .listInsert eb | .listHeadInsert eb => some (some eb)
    | _ => some d
  moves _ _ := True

-- The bytes passed to `esp_extconn_sdio_send_packet`.
def handed : Slave (List (List UInt8)) where
  answers _ w o _ d := match o with
    | .note (.sendPacket _ start length) => some (d ++ [w.mem.read start length.toNat])
    | _ => some d
  moves _ _ := True

-- What the stack asks for, a command with its arguments or a data buffer.
inductive Request where
  | cmd (cid cmdlen : UInt32) (cmd : Ptr)
  | data (eb : EbPtr)

def Request.call : Request → StackCall
  | .cmd cid cmdlen args => .cmd cid cmdlen (some args)
  | .data eb => .data eb

structure CommandRecovered (cid : UInt32) (cmdlen : Nat) (args packet : List UInt8) : Prop where
  sync : (sipHdrOf packet).fc1 &&& sipHdrFSync ≠ 0
  type : (sipHdrOf packet).isCtrl
  len : (sipHdrOf packet).len.toNat = cmdlen + 12
  cmdid : (sipHdrOf packet).u = cid
  payload : packet.drop 12 = args

structure DataRecovered (b : EsfBuf) (bytes packet : List UInt8) : Prop where
  sync : (sipHdrOf packet).fc1 &&& sipHdrFSync ≠ 0
  ampdu : (sipHdrOf packet).isAmpdu ↔ b.flags &&& ppFAmpdu ≠ 0
  data : (sipHdrOf packet).isData ↔ b.flags &&& ppFAmpdu = 0
  len : (sipHdrOf packet).len.toNat = b.dsLength.val + 12
  tid : (packet.getD 4 0).toNat = b.tid.val
  ac : (packet.getD 5 0).toNat = b.ac.val
  p2p : (packet.getD 6 0).toNat % 2 = 0
  encFlag : (packet.getD 6 0).toNat / 2 = b.cryptoType.val
  kid : packet.getD 7 0 = b.kid
  payload : packet.drop 12 = bytes

-- The request as it was made in `w`.
def Recovered (w : World) : Request → List UInt8 → Prop
  | .cmd cid cmdlen args,packet => CommandRecovered cid cmdlen.toNat (w.mem.read args cmdlen.toNat) packet
  | .data eb,packet => DataRecovered (w.esf eb) (w.mem.read (w.esf eb).dsBuf (w.esf eb).dsLength.val) packet

-- Commands whose length with the header is a 16-bit number.
def Request.Fits : Request → Prop
  | .cmd _ cmdlen _ => cmdlen.toNat + 12 < 2 ^ 16
  | .data _ => True

-- The memory that a request names is there when it is made; a data buffer is one
-- of the stack's, which gives its commands types of their own.
def Request.Given (w : World) : Request → Prop
  | .cmd _ _ args => args.blk < w.fresh
  | .data eb => ¬ IsCommand (w.esf eb)

def cmdHeader (cid : UInt32) (len : UInt16) : List UInt8 :=
  [setType 0 sipCtrl,0] ++ leBytes 2 len.toNat ++ le32 cid ++ [0,0,0,0]

-- A command in the list.
structure CommandQueued (w : World) (cid cmdlen : UInt32) (cmd : Ptr) (w₁ : World) (eb : EbPtr) : Prop where
  command : IsCommand (w₁.esf eb)
  begins : (w₁.esf eb).bufBegin = ⟨w.fresh,0⟩
  dataLen : (w₁.esf eb).dataLen = (cmdlen + sipCtrlHdrLen).toUInt16
  mem : w₁.mem = w.mem.write ⟨w.fresh,0⟩ (cmdHeader cid (cmdlen + sipCtrlHdrLen).toUInt16 ++ w.mem.read cmd cmdlen.toNat)

section
variable {t : Task} {w : World} {cid cmdlen : UInt32} {cmd : Ptr} {post : EspErr → World × Option EbPtr → Prop}

theorem queueing_ignores (t : Task) : Ignores queueing t := by
  intro w o ans d here
  cases o <;> first | rfl | cases here

-- `wifi_send_cmd` behind the copy: nothing but the list changes.
theorem insert_wp {eb : EbPtr} {w₁ : World} (rest : ∀ ret w₂, w₂.mem = w₁.mem → w₂.esf = w₁.esf → post ret (w₂,some eb)) :
    wp (alone queueing t) ((wifiClearStale cid (some cmd)).bind fun _ =>
      if cid = sipCmdTest then issue (.listHeadInsert eb) else issue (.listInsert eb)) post (w₁,none) := by
  have insert : ∀ w₂ : World, w₂.mem = w₁.mem → w₂.esf = w₁.esf →
      wp (alone queueing t) (if cid = sipCmdTest then issue (.listHeadInsert eb) else issue (.listInsert eb)) post (w₂,none) := by
    intro w₂ mem esf
    apply wp_ite
    · intro _
      apply alone_op
      intro ans ret w₃ d ran answered
      cases ran
      cases answered
      exact rest _ _ mem esf
    · intro _
      apply alone_op
      intro ans ret w₃ d ran answered
      cases ran
      cases answered
      exact rest _ _ mem esf
  unfold wifiClearStale loadSet
  simp only [Prog.bind_def,issue_bind,Prog.pure_def,wp_bind]
  apply wp_ite
  · intro _
    apply load_op (queueing_ignores t)
    apply wp_ite
    · intro _
      apply alone_op
      intro ans dropped w₂ d ran answered
      cases answered
      obtain ⟨_,_,same⟩ := Option.map_eq_some_iff.mp ran
      cases same
      exact insert _ rfl rfl
    · intro _
      exact insert _ rfl rfl
  · intro _
    exact insert _ rfl rfl

theorem wifiSendCmd_wp (given : cmd.blk < w.fresh) (refused : post .fail (w,none))
    (rest : ∀ ret w₁ eb, CommandQueued w cid cmdlen cmd w₁ eb → post ret (w₁,some eb)) :
    wp (alone queueing t) (wifiSendCmd cid cmdlen (some cmd)) post (w,none) := by
  have ignores := queueing_ignores t
  have ble : ∀ {x y : Nat}, Nat.ble x y = true → x ≤ y := Nat.le_of_ble_eq_true
  unfold wifiSendCmd wifiCopyCmd memcpy sipHdrSetType sipHdrSetLen sipHdrSetCmdid
  simp only [Prog.bind_def,issue_bind,Prog.op_bind,Prog.pure_def]
  generalize length : (cmdlen + sipCtrlHdrLen).toUInt16 = len at *
  apply alone_op
  intro ans eb w₀ d ran answered
  cases answered
  by_cases null : ans.num = nullEb
  · simp only [World.exec,if_pos null] at ran
    cases ran
    rw [if_pos rfl]
    exact refused
  · simp only [World.exec,if_neg null] at ran
    cases ran
    rw [if_neg null]
    let b : EsfBuf := {w.esf ans.num with
      type := if cid = sipCmdTest then esfBufTxSipTest else esfBufTxSip,bufBegin := ⟨w.fresh,0⟩,dataLen := len}
    let w₁ : World := {(w.alloc len.toUInt32).2 with esf := Function.update w.esf ans.num b}
    show wp _ _ post (w₁,none)
    have fetched : w₁.esf ans.num = b := Function.update_self ..
    have command : IsCommand b := by
      show (if cid = sipCmdTest then esfBufTxSipTest else esfBufTxSip) = _ ∨ _
      by_cases test : cid = sipCmdTest
      · exact .inr (if_pos test)
      · exact .inl (if_neg test)
    apply alone_exec (fun _ => rfl) (fun _ => rfl)
    rw [fetched]
    let at_ (bytes : List UInt8) : World := placed w₁ ⟨w.fresh,0⟩ bytes
    apply store_op ignores
    show wp _ _ post (at_ (List.replicate sizeofSipHdr 0),none)
    apply placed_load (k := 0) ignores (ble rfl)
    apply placed_store (k := 0) ignores (ble rfl) rfl
    apply placed_store (k := 2) ignores (ble rfl) rfl
    apply placed_store (k := 4) ignores (ble rfl) rfl
    show wp _ _ post (at_ (cmdHeader cid len),none)
    apply load_op ignores
    have source : (at_ (cmdHeader cid len)).mem.read cmd cmdlen.toNat = w.mem.read cmd cmdlen.toNat :=
      read_write_other _ _ _ _ (.inl (Nat.ne_of_lt given))
    have behind : (cmdHeader cid len).take 12 ++ w.mem.read cmd cmdlen.toNat ++
        (cmdHeader cid len).drop (12 + (w.mem.read cmd cmdlen.toNat).length) = cmdHeader cid len ++ w.mem.read cmd cmdlen.toNat := by
      have none : (cmdHeader cid len).drop (12 + (w.mem.read cmd cmdlen.toNat).length) = [] := List.drop_of_length_le (Nat.le_add_right _ _)
      rw [none,List.append_nil]
      rfl
    rw [source]
    apply placed_store (k := 12) ignores (ble rfl) behind
    apply insert_wp
    intro ret w₂ mem esf
    apply rest
    have fetched : w₂.esf ans.num = b := by
      rw [esf]
      exact fetched
    constructor
    · rw [fetched]
      exact command
    · rw [fetched]
    · rw [fetched]
      exact length.symm
    · rw [mem,length]
      rfl

end

-- The bytes of a command once the task has marked and numbered it.
theorem command_bytes {m : Mem} {b : EsfBuf} {cid : UInt32} {args : List UInt8} (seq : UInt32) (command : IsCommand b)
    (raw : m.read b.bufBegin b.dataLen.toNat = cmdHeader cid b.dataLen ++ args) :
    numbered (packetBytes m b) seq = [setType (setType 0 sipCtrl) sipCtrl,0 ||| sipHdrFSync] ++ leBytes 2 b.dataLen.toNat ++ le32 cid ++
      le32 seq ++ args := by
  have whole : ¬ 12 ≤ 0 := by decide
  have short : sizeofSipHdr - (cmdHeader cid b.dataLen ++ args).length = 0 := by
    rw [List.length_append]
    exact Nat.sub_eq_zero_of_le (Nat.le_add_right 12 _)
  rw [packetBytes,if_pos command,commandBytes]
  simp only [raw,short,List.replicate_zero,List.append_nil]
  rfl

theorem data_bytes {m : Mem} {b : EsfBuf} (seq : UInt32) (data : ¬ IsCommand b) :
    numbered (packetBytes m b) seq = [setType 0 (dataType b),sipHdrFSync] ++
      leBytes 2 (UInt32.ofNat b.dsLength.val + sipCtrlHdrLen).toUInt16.toNat ++
      [UInt8.ofNat b.tid.val,UInt8.ofNat b.ac.val,UInt8.ofNat (2 * b.cryptoType.val),b.kid] ++ le32 seq ++ m.read b.dsBuf b.dsLength.val := by
  rw [packetBytes,if_neg data]
  rfl

-- The same bytes read as a header and a payload.
theorem command_recovered {cid seq : UInt32} {len : UInt16} {cmdlen : Nat} {args : List UInt8} (fits : len.toNat = cmdlen + 12) :
    CommandRecovered cid cmdlen args ([setType (setType 0 sipCtrl) sipCtrl,0 ||| sipHdrFSync] ++ leBytes 2 len.toNat ++ le32 cid ++
      le32 seq ++ args) := by
  constructor
  · show (0 ||| sipHdrFSync : UInt8) &&& sipHdrFSync ≠ 0
    decide
  · exact type_set _ _
  · show (UInt16.ofNat (leNat (leBytes 2 len.toNat))).toNat = _
    have bound := len.toNat_lt
    have small : len.toNat % 256 ^ 2 = len.toNat := Nat.mod_eq_of_lt (by omega)
    rw [leNat_leBytes,small,UInt16.ofNat_toNat]
    exact fits
  · exact ofNat_le32 cid
  · rfl

theorem data_recovered {b : EsfBuf} {seq : UInt32} {bytes : List UInt8} :
    DataRecovered b bytes ([setType 0 (dataType b),sipHdrFSync] ++
      leBytes 2 (UInt32.ofNat b.dsLength.val + sipCtrlHdrLen).toUInt16.toNat ++
      [UInt8.ofNat b.tid.val,UInt8.ofNat b.ac.val,UInt8.ofNat (2 * b.cryptoType.val),b.kid] ++ le32 seq ++ bytes) := by
  have length := b.dsLength.isLt
  have tid := b.tid.isLt
  have ac := b.ac.isLt
  have crypto := b.cryptoType.isLt
  have small : ∀ n, n < 256 → (UInt8.ofNat n).toNat = n := fun n less => UInt8.toNat_ofNat_of_lt' less
  have enc : (UInt8.ofNat (2 * b.cryptoType.val)).toNat = 2 * b.cryptoType.val := small _ (by omega)
  have type : ∀ hdr : SipHdr, hdr.fc0 = setType 0 (dataType b) → sipHdrGetType hdr.fc0 = dataType b &&& sipTypeMask := by
    intro hdr first
    rw [first]
    exact type_set 0 (dataType b)
  constructor
  · show sipHdrFSync &&& sipHdrFSync ≠ 0
    decide
  · unfold SipHdr.isAmpdu
    rw [type _ rfl,dataType]
    split
    · rename_i set
      exact ⟨fun _ => set,fun _ => by decide⟩
    · rename_i clear
      exact ⟨fun wrong => absurd wrong (by decide),fun set => absurd set clear⟩
  · unfold SipHdr.isData
    rw [type _ rfl,dataType]
    split
    · rename_i set
      exact ⟨fun wrong => absurd wrong (by decide),fun clear => absurd clear set⟩
    · rename_i clear
      exact ⟨fun _ => Decidable.not_not.mp clear,fun _ => by decide⟩
  · show (UInt16.ofNat (leNat (leBytes 2 _))).toNat = _
    have twelve : sipCtrlHdrLen.toNat = 12 := rfl
    have len : (UInt32.ofNat b.dsLength.val + sipCtrlHdrLen).toUInt16.toNat = b.dsLength.val + 12 := by
      rw [UInt32.toNat_toUInt16,UInt32.toNat_add,UInt32.toNat_ofNat_of_lt' (Nat.lt_trans length (by decide)),twelve]
      omega
    rw [leNat_leBytes,len,UInt16.toNat_ofNat']
    omega
  · exact small _ (by omega)
  · exact small _ (by omega)
  · show (UInt8.ofNat (2 * b.cryptoType.val)).toNat % 2 = 0
    rw [enc]
    omega
  · show (UInt8.ofNat (2 * b.cryptoType.val)).toNat / 2 = _
    rw [enc]
    omega
  · rfl
  · rfl

-- Any packet that the task hands over in an iteration.
theorem handed_wp {w : World} {sendBuf : Ptr} {actualSize : UInt32} {eb : EbPtr} (n : Nat) (apart : Apart sendBuf (w.esf eb)) :
    wp (alone handed .wifiSend) (iteration n sendBuf actualSize eb) (fun _ s => ∀ bytes ∈ s.2,
      bytes = (w.mem.write sendBuf (numbered (packetBytes w.mem (w.esf eb)) w.sip.txseq)).read sendBuf
        (sendLen (w.esf eb) w.sip.txBlksz).toNat) (w,[]) := by
  have ignores : Ignores handed .wifiSend := by
    intro w o ans d here
    cases o <;> first | rfl | cases here
  have nothing : ∀ {P : List UInt8 → Prop}, ∀ bytes ∈ ([] : List (List UInt8)), P bytes := fun _ member => absurd member List.not_mem_nil
  apply iteration_wp ignores
  · exact ⟨fun _ _ _ _ _ _ _ => rfl,fun _ _ _ _ => rfl⟩
  · exact fun _ => rfl
  · exact apart
  · exact fun _ _ => nothing
  · exact fun _ _ => nothing
  · intro _ w₁ mem _
    rw [wifiSendPacket_eq]
    apply alone_op
    intro ans r w₂ d ran answered
    cases answered
    have same := idle_exec rfl ran
    apply alone_op
    intro ans r w₃ d ran answered
    cases ran
    cases answered
    let still : Op → Prop := fun o => idle o = true ∧ ∀ w ans d, handed.answers .wifiSend w o ans d = some d
    have rest : (wifiSendRest ⟨sendBuf,actualSize,eb,sendLen (w.esf eb) w.sip.txBlksz⟩).All still := by
      have both : ∀ {o : Op}, idle o = true → (∀ w ans d, handed.answers .wifiSend w o ans d = some d) → still o :=
        fun quiet ignored => ⟨quiet,ignored⟩
      apply wifiSendRest_all
      case write => exact fun _ _ _ => ⟨rfl,fun _ _ _ => rfl⟩
      case count => exact fun _ => ⟨rfl,fun _ _ _ => rfl⟩
      all_goals exact ⟨rfl,fun _ _ _ => rfl⟩
    apply idle_wp rest (fun _ here => here)
    intro _ w₄ _ bytes member
    cases List.mem_singleton.mp member
    rw [same.mem,mem]

-- At least the packet is handed over, and it begins the bytes handed over.
theorem handed_packet {m : Mem} {sendBuf : Ptr} {b : EsfBuf} {blk : UInt16} {seq : UInt32} (nonzero : blk ≠ 0) :
    packetLength b ≤ (sendLen b blk).toNat ∧
    ((m.write sendBuf (numbered (packetBytes m b) seq)).read sendBuf (sendLen b blk).toNat).take (packetLength b) =
      (numbered (packetBytes m b) seq).take (packetLength b) := by
  have bound := BlockRounding.packetLength_lt b
  have block := blk.toNat_lt
  have length : (UInt32.ofNat (packetLength b)).toNat = packetLength b := UInt32.toNat_ofNat_of_lt' (Nat.lt_trans bound (by decide))
  have size : blk.toUInt32.toNat = blk.toNat := UInt16.toNat_toUInt32 blk
  have positive : 0 < blk.toUInt32.toNat := by
    rw [size]
    exact Nat.pos_of_ne_zero fun none => nonzero (UInt16.toNat_inj.mp none)
  have least : packetLength b ≤ (sendLen b blk).toNat := by
    have atLeast : (UInt32.ofNat (packetLength b)).toNat ≤ (sendLen b blk).toNat := BlockRounding.roundup_le positive (by omega)
    rw [length] at atLeast
    exact atLeast
  have within : 0 + packetLength b ≤ (numbered (packetBytes m b) seq).length := by
    rw [numbered_length (packet_whole m b),packetBytes_length]
    omega
  refine ⟨least,?_⟩
  rw [read_take _ _ least]
  exact read_inside m sendBuf _ within

-- Between the call and the iteration the descriptor and the bytes it points to stay.
structure Kept (eb : EbPtr) (w₁ w₂ : World) : Prop where
  esf : w₂.esf eb = w₁.esf eb
  mem : w₂.mem (sourceOf (w₁.esf eb)).blk = w₁.mem (sourceOf (w₁.esf eb)).blk

-- Nothing of the packet is lost, and it is what was asked for in `w`.
structure Lossless (w : World) (r : Request) (b : EsfBuf) (bytes : List UInt8) : Prop where
  whole : packetLength b ≤ bytes.length
  recovered : Recovered w r (bytes.take (packetLength b))

theorem take_numbered {m : Mem} {b : EsfBuf} {seq : UInt32} (header : 12 ≤ packetLength b) :
    (numbered (packetBytes m b) seq).take (packetLength b) = numbered (packetBytes m b) seq := by
  apply List.take_of_length_le
  rw [numbered_length (packet_whole m b),packetBytes_length]
  exact Nat.max_le.mpr ⟨Nat.le_refl _,header⟩

theorem command_lossless {w w₁ w₂ : World} {cid cmdlen seq : UInt32} {cmd : Ptr} {eb : EbPtr} (queued : CommandQueued w cid cmdlen cmd w₁ eb)
    (kept : Kept eb w₁ w₂) : Recovered w (.cmd cid cmdlen cmd) ((numbered (packetBytes w₂.mem (w₂.esf eb)) seq).take (packetLength (w₂.esf eb))) ↔
      cmdlen.toNat + 12 < 2 ^ 16 := by
  constructor
  · intro recovered
    have len : _ = cmdlen.toNat + 12 := recovered.len
    rw [← len]
    exact UInt16.toNat_lt _
  · intro fits
    have twelve : sipCtrlHdrLen.toNat = 12 := rfl
    have dataLen : (w₂.esf eb).dataLen.toNat = cmdlen.toNat + 12 := by
      rw [kept.esf,queued.dataLen,UInt32.toNat_toUInt16,UInt32.toNat_add,twelve]
      omega
    have command : IsCommand (w₂.esf eb) := by
      rw [kept.esf]
      exact queued.command
    have length : packetLength (w₂.esf eb) = cmdlen.toNat + 12 := by
      rw [packetLength,if_pos command,dataLen]
    have raw : w₂.mem.read (w₂.esf eb).bufBegin (w₂.esf eb).dataLen.toNat =
        cmdHeader cid (w₂.esf eb).dataLen ++ w.mem.read cmd cmdlen.toNat := by
      have block := kept.mem
      rw [sourceOf,if_pos queued.command] at block
      have same : w₂.mem.read (w₁.esf eb).bufBegin (w₂.esf eb).dataLen.toNat = w₁.mem.read (w₁.esf eb).bufBegin (w₂.esf eb).dataLen.toNat :=
        read_congr fun _ _ => congrFun block _
      rw [kept.esf] at same dataLen ⊢
      rw [same,queued.mem,queued.begins,queued.dataLen]
      apply read_back
      rw [List.length_append,read_length,← queued.dataLen,dataLen]
      exact Nat.add_comm 12 cmdlen.toNat
    rw [take_numbered (by omega),command_bytes seq command raw]
    exact command_recovered dataLen

theorem data_lossless {w w₁ w₂ : World} {seq : UInt32} {eb : EbPtr} (data : ¬ IsCommand (w.esf eb)) (esf : w₁.esf = w.esf) (mem : w₁.mem = w.mem)
    (kept : Kept eb w₁ w₂) :
    Recovered w (.data eb) ((numbered (packetBytes w₂.mem (w₂.esf eb)) seq).take (packetLength (w₂.esf eb))) := by
  obtain ⟨same,block⟩ := kept
  rw [esf] at same block
  rw [mem,sourceOf,if_neg data] at block
  have bytes : w₂.mem.read (w.esf eb).dsBuf (w.esf eb).dsLength.val = w.mem.read (w.esf eb).dsBuf (w.esf eb).dsLength.val :=
    read_congr fun _ _ => congrFun block _
  have length : packetLength (w.esf eb) = (w.esf eb).dsLength.val + 12 := if_neg data
  rw [same,take_numbered (by omega),data_bytes seq data,bytes]
  exact data_recovered

-- What a request leaves in the list.
theorem serve_queues {t : Task} {w w₁ : World} {r : Request} {eb : EbPtr} (given : r.Given w)
    (called : Runs Eq (queueing.act t) (wifiStackServe r.call) (w,none) trace value (w₁,some eb)) : match r with
      | .cmd cid cmdlen cmd => CommandQueued w cid cmdlen cmd w₁ eb
      | .data eb' => eb = eb' ∧ w₁.esf = w.esf ∧ w₁.mem = w.mem := by
  cases r with
  | cmd cid cmdlen cmd =>
      have holds : wp (alone queueing t) ((wifiSendCmd cid cmdlen (some cmd)).bind fun _ => .pure ())
          (fun _ s => s.2 = some eb → CommandQueued w cid cmdlen cmd s.1 eb) (w,none) := ?_
      · exact alone_runs holds called rfl
      rw [wp_bind]
      apply wifiSendCmd_wp given
      · exact nofun
      · intro ret w₁ eb' queued same
        cases same
        exact queued
  | data eb' =>
      have holds : wp (alone queueing t) ((wifiSendData eb').bind fun _ => .pure ())
          (fun _ s => s.2 = some eb → eb = eb' ∧ s.1.esf = w.esf ∧ s.1.mem = w.mem) (w,none) := ?_
      · exact alone_runs holds called rfl
      unfold wifiSendData
      rw [wp_bind]
      apply wp_ite
      · exact fun _ => nofun
      · intro _
        apply alone_op
        intro ans ret w₁ d ran answered
        cases ran
        cases answered
        intro same
        cases same
        exact ⟨rfl,rfl,rfl⟩

-- A request is called, and later its buffer is sent in an iteration of the task.
theorem lossless_iff {w w₁ w₂ : World} {r : Request} {eb : EbPtr} {sendBuf : Ptr} {actualSize : UInt32} {s' : World × List (List UInt8)}
    {n : Nat} (given : r.Given w) (called : Runs Eq (queueing.act .wifiStack) (wifiStackServe r.call) (w,none) trace value (w₁,some eb))
    (kept : Kept eb w₁ w₂) (apart : Apart sendBuf (w₂.esf eb)) (nonzero : w₂.sip.txBlksz ≠ 0)
    (run : Runs Eq (handed.act .wifiSend) (iteration n sendBuf actualSize eb) (w₂,[]) trace' label s') (sent : bytes ∈ s'.2) :
    Lossless w r (w₂.esf eb) bytes ↔ r.Fits := by
  have passed := alone_runs (handed_wp n apart) run bytes sent
  obtain ⟨least,packet⟩ := @handed_packet w₂.mem sendBuf (w₂.esf eb) w₂.sip.txBlksz w₂.sip.txseq nonzero
  rw [← passed] at packet
  have length : bytes.length = (sendLen (w₂.esf eb) w₂.sip.txBlksz).toNat := by rw [passed,read_length]
  have split : Lossless w r (w₂.esf eb) bytes ↔ Recovered w r (bytes.take (packetLength (w₂.esf eb))) :=
    ⟨fun both => both.recovered,fun recovered => ⟨by rw [length]; exact least,recovered⟩⟩
  rw [split,packet]
  have queued := serve_queues given called
  cases r with
  | cmd cid cmdlen cmd => exact command_lossless queued kept
  | data eb' =>
      obtain ⟨rfl,esf,mem⟩ := queued
      exact iff_of_true (data_lossless given esf mem kept) trivial

-- A command with four bytes of arguments, one so long that its length wraps to zero,
-- and a data buffer.
def asking : World :=
  {World.initial {espSipInit with txBlksz := 512} with
    mem := Mem.write (fun _ _ => 0) ⟨0,0⟩ [1,2,3,4]
    esf := fun _ => (EsfBuf.holding 0 ⟨0,0⟩ 4 4).described 5 2 3 7}

def configOf (cmdlen : UInt32) : Request := .cmd sipCmdConfig cmdlen ⟨0,0⟩

def callAnswers : Request → List Ans
  | .cmd .. => List.replicate 13 {num := 1}
  | .data _ => [{}]

def called (r : Request) : Option (List Op × Unit × World × Option EbPtr) :=
  execute (queueing.exec .wifiStack) (wifiStackServe r.call) (callAnswers r) (asking,none)

theorem call_runs {r : Request} {trace : List Op} {value : Unit} {s : World × Option EbPtr} (ran : called r = some (trace,value,s)) :
    Runs Eq (queueing.act .wifiStack) (wifiStackServe r.call) (asking,none) trace value s :=
  execute_runs (fun _ => rfl) (fun _ ans _ _ _ acted => ⟨ans,acted⟩) ran

abbrev sendBuffer : Ptr := ⟨9,0⟩
def sendAnswers : List Ans := List.replicate 40 {data := [0,0,1,0]}

-- The call with the buffer it queues, and the packet that is handed over for it.
structure Passed (r : Request) (eb : EbPtr) (w₁ : World) (bytes : List UInt8) : Prop where
  called : ∃ trace value, Runs Eq (queueing.act .wifiStack) (wifiStackServe r.call) (asking,none) trace value (w₁,some eb)
  run : ∃ trace label s', Runs Eq (handed.act .wifiSend) (iteration 1 sendBuffer wifiSendBufferLen eb) (w₁,[]) trace label s' ∧ bytes ∈ s'.2

-- Both runs, up to what the iteration hands over.
theorem sent_after (r : Request) (eb : EbPtr) (passed : (called r).any (fun called => decide (called.2.2.2 = some eb) &&
      decide ((sourceOf (called.2.2.1.esf eb)).blk ≠ sendBuffer.blk) && decide (called.2.2.1.sip.txBlksz ≠ 0) &&
      (execute (handed.exec .wifiSend) (iteration 1 sendBuffer wifiSendBufferLen eb) sendAnswers (called.2.2.1,[])).any
        (fun result => result.2.2.2 ≠ [])) = true) :
    ∃ w₁ bytes, Passed r eb w₁ bytes ∧ Apart sendBuffer (w₁.esf eb) ∧ w₁.sip.txBlksz ≠ 0 := by
  cases ran : called r with
  | none => simp [ran] at passed
  | some result =>
      obtain ⟨trace,value,w₁,d⟩ := result
      simp only [ran,Option.any_some,Bool.and_eq_true,decide_eq_true_eq] at passed
      obtain ⟨⟨⟨rfl,apart⟩,nonzero⟩,passed⟩ := passed
      obtain ⟨trace',label,s',run,some_⟩ := slave_executes handed .wifiSend (fun s => (rfl : s = s)) _ sendAnswers _
        (fun _ s => s.2 ≠ []) passed
      obtain ⟨bytes,sent⟩ := List.exists_mem_of_ne_nil _ (of_decide_eq_true some_)
      exact ⟨w₁,bytes,⟨⟨trace,value,call_runs ran⟩,trace',label,s',run,sent⟩,apart,nonzero⟩

theorem config_given (cmdlen : UInt32) : (configOf cmdlen).Given asking := Nat.zero_lt_one

theorem both_lossless :
    (∃ w₁ bytes, Passed (configOf 4) 1 w₁ bytes ∧ Lossless asking (configOf 4) (w₁.esf 1) bytes) ∧
    ∃ w₁ bytes, Passed (.data 2) 2 w₁ bytes ∧ Lossless asking (.data 2) (w₁.esf 2) bytes := by
  constructor
  · obtain ⟨w₁,bytes,passed,apart,nonzero⟩ := sent_after (configOf 4) 1 (by decide +kernel)
    obtain ⟨_,_,called⟩ := passed.called
    obtain ⟨_,_,_,run,sent⟩ := passed.run
    have fits : (4 : UInt32).toNat + 12 < 2 ^ 16 := by decide
    exact ⟨w₁,bytes,passed,(lossless_iff (config_given 4) called ⟨rfl,rfl⟩ apart nonzero run sent).mpr fits⟩
  · obtain ⟨w₁,bytes,passed,apart,nonzero⟩ := sent_after (.data 2) 2 (by decide +kernel)
    obtain ⟨_,_,called⟩ := passed.called
    obtain ⟨_,_,_,run,sent⟩ := passed.run
    have given : (Request.data 2).Given asking := show ¬ IsCommand (asking.esf 2) by decide
    exact ⟨w₁,bytes,passed,(lossless_iff given called ⟨rfl,rfl⟩ apart nonzero run sent).mpr trivial⟩

theorem wrapped_length_lost : ¬ ∀ (w w₁ w₂ : World) (r : Request) (eb : EbPtr) (sendBuf : Ptr) (actualSize : UInt32) (n : Nat)
    (s' : World × List (List UInt8)) (trace : List Op) (value : Unit) (trace' : List Op) (label : Label) (bytes : List UInt8), r.Given w →
    Runs Eq (queueing.act .wifiStack) (wifiStackServe r.call) (w,none) trace value (w₁,some eb) → Kept eb w₁ w₂ →
    Apart sendBuf (w₂.esf eb) → w₂.sip.txBlksz ≠ 0 →
    Runs Eq (handed.act .wifiSend) (iteration n sendBuf actualSize eb) (w₂,[]) trace' label s' → bytes ∈ s'.2 →
    Lossless w r (w₂.esf eb) bytes := by
  intro every
  obtain ⟨w₁,bytes,passed,apart,nonzero⟩ := sent_after (configOf 65524) 1 (by decide +kernel)
  obtain ⟨_,_,called⟩ := passed.called
  obtain ⟨_,_,_,run,sent⟩ := passed.run
  have lossless := every _ _ _ _ _ _ _ _ _ _ _ _ _ _ (config_given 65524) called ⟨rfl,rfl⟩ apart nonzero run sent
  have len : _ = (65524 : UInt32).toNat + 12 := lossless.recovered.len
  have bound := UInt16.toNat_lt (sipHdrOf (bytes.take (packetLength (w₁.esf 1)))).len
  rw [len] at bound
  exact absurd bound (by decide)

end ExtConn.WifiFraming
