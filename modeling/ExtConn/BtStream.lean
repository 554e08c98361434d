import ExtConn.HeapWatch
import ExtConn.SendToken
import ExtConn.Transfers

namespace ExtConn.BtStream
open Effects ByteMemory Interleaving HeapBooks HeapWatch

-- The Bluetooth messages from the call of `bt_send_data` to the slave. `accepted`
-- is what the calls were to send for which there was room in `tx_que`, `waiting`
-- what the messages in it are to carry, `taken` what those carried that
-- `bt_tx_task` has received, and `started` the payloads it has a header for. The
-- slave puts the bytes of a packet together and keeps the packets it has whole.
structure BtLink where
  calling : List UInt8 := []
  accepted : List (Option (List UInt8)) := []
  waiting : List (Option (List UInt8)) := []
  taken : List (Option (List UInt8)) := []
  started : List (List UInt8) := []
  unserved : Nat := 0
  expected : Nat := 0
  incoming : List UInt8 := []
  received : List (List UInt8) := []
  failures : Nat := 0

def BtLink.current (d : BtLink) : List UInt8 := d.taken.getLast?.join.getD []

def BtLink.onWrite (d : BtLink) (bytes : List UInt8) : BtLink :=
  if d.incoming.length < d.expected ∧ d.expected ≤ d.incoming.length + bytes.length then
    {d with incoming := d.incoming ++ bytes,received := d.received ++ [(d.incoming ++ bytes).take d.expected]}
  else {d with incoming := d.incoming ++ bytes}

def BtLink.accept (d : BtLink) (msg : TxMsg) : BtLink :=
  let payload := msg.data.map fun _ => d.calling
  {d with accepted := d.accepted ++ [payload],waiting := d.waiting ++ [payload]}

def follow : Record BtLink := fun t w o ans d => match o with
  | .btHostCall => {d with calling := ans.data}
  | .queueSend msg _ => if w.txQue.length < 25 then d.accept msg else d
  | .queueReceive => {d with waiting := d.waiting.tail,taken := d.taken ++ [d.waiting.head?.join]}
  | .malloc _ =>
    if t = .btTx then
      if ans.flag then {d with started := d.started ++ [d.current]} else {d with unserved := d.unserved + 1}
    else d
  | .note (.sendPacket function _ length) =>
    if function = extConnBtSdioFunc then {d with expected := length.toNat,incoming := []} else d
  | .sdmmcIoWrite function _ _ src size =>
    if function = extConnBtSdioFunc then
      if ans.err = .ok then d.onWrite (src.get size.toNat w.mem) else {d with failures := d.failures + 1}
    else d
  | _ => d

-- `sbp_hdr_t` with its payload.
def frame (seq : Nat) (payload : List UInt8) : List UInt8 :=
  leBytes 3 (8 + payload.length) ++ [0] ++ le32 (UInt32.ofNat seq) ++ payload

theorem frame_length (seq : Nat) (payload : List UInt8) : (frame seq payload).length = 8 + payload.length := by
  simp [frame,le32]
  omega

def payloads (taken : List (Option (List UInt8))) : List (List UInt8) := (taken.filterMap id).filter (· ≠ [])

abbrev State := HeapWatch.State BtLink

-- What `bt_tx_task` alone moves.
structure SameLists (d d' : BtLink) : Prop where
  taken : d'.taken = d.taken
  started : d'.started = d.started
  unserved : d'.unserved = d.unserved
  received : d'.received = d.received
  failures : d'.failures = d.failures

structure SameSender (d d' : BtLink) : Prop extends SameLists d d' where
  expected : d'.expected = d.expected
  incoming : d'.incoming = d.incoming

theorem SameSender.refl (d : BtLink) : SameSender d d := ⟨⟨rfl,rfl,rfl,rfl,rfl⟩,rfl,rfl⟩

theorem SameSender.trans {a b c : BtLink} (one : SameSender a b) (two : SameSender b c) : SameSender a c :=
  ⟨⟨two.taken.trans one.taken,two.started.trans one.started,two.unserved.trans one.unserved,two.received.trans one.received,
    two.failures.trans one.failures⟩,two.expected.trans one.expected,two.incoming.trans one.incoming⟩

-- A message carries what the call gave, in memory that is the message's.
def Carries (m : Mem) (msg : TxMsg) (payload : Option (List UInt8)) : Prop :=
  msg.len.toNat < 2 ^ 16 ∧ payload = msg.data.map fun p => m.read p msg.len.toNat

structure Good (s : State) : Prop where
  inv : Inv (heap s)
  history : s.2.2.accepted = s.2.2.taken ++ s.2.2.waiting
  queue : List.Forall₂ (Carries s.1.mem) s.1.txQue s.2.2.waiting

structure Moves (t : Task) (s s' : State) : Prop where
  leaves : Leaves t (heap s) (heap s')
  sender : t ≠ .btTx → SameSender s.2.2 s'.2.2
  calling : t ≠ .btHost → s'.2.2.calling = s.2.2.calling
  good : Good s → Good s'

structure Rests (t : Task) (s s' : State) : Prop where
  stays : Stays t (heap s) (heap s')
  sender : t = .btTx → SameSender s.2.2 s'.2.2
  calling : t = .btHost → s'.2.2.calling = s.2.2.calling
  good : Good s → Good s'

theorem Rests.refl (t : Task) (s : State) : Rests t s s := ⟨.refl t _,fun _ => .refl _,fun _ => rfl,id⟩

theorem Rests.trans {t : Task} {a b c : State} (one : Rests t a b) (two : Rests t b c) : Rests t a c :=
  ⟨one.stays.trans two.stays,fun here => (one.sender here).trans (two.sender here),
    fun here => (two.calling here).trans (one.calling here),fun good => two.good (one.good good)⟩

theorem Moves.rests {t u : Task} {s s' : State} (moves : Moves t s s') (other : u ≠ t) : Rests u s s' := by
  refine ⟨moves.leaves.stays other,fun here => ?_,fun here => ?_,moves.good⟩
  · subst here
    exact moves.sender other.symm
  · subst here
    exact moves.calling other.symm

def contract (cfg : Build) (t : Task) : Contract signature State := ⟨(heaped cfg follow).act t,Rests t,Moves t,fun _ _ => True⟩

section
variable {cfg : Build} {t : Task} {s s' : State}

-- Messages in the queue are nobody's to write.
theorem queue_kept (inv : Inv (heap s)) (leaves : Leaves t (heap s) (heap s')) (queue : List.Forall₂ (Carries s.1.mem) xs ws)
    (inside : ∀ msg ∈ xs, msg ∈ s.1.txQue) : List.Forall₂ (Carries s'.1.mem) xs ws := by
  induction queue with
  | nil => exact .nil
  | cons carries rest ih =>
      rename_i msg payload xs ws
      refine .cons ⟨carries.1,?_⟩ (ih fun m member => inside m (List.mem_cons_of_mem _ member))
      rw [carries.2]
      cases data : msg.data with
      | none => rfl
      | some p =>
          have waits : p.blk ∈ queued s.1 := by
            refine List.mem_filterMap.mpr ⟨msg,inside msg List.mem_cons_self,?_⟩
            rw [data]
            rfl
          have same : s'.1.mem p.blk = s.1.mem p.blk := leaves.mem p.blk _ ((inv.messages p.blk).mp waits) fun same => by cases same
          have read : s'.1.mem.read p msg.len.toNat = s.1.mem.read p msg.len.toNat :=
            read_congr fun i _ => by rw [same]
          simp only [Option.map_some,read]

structure SameQueue (d d' : BtLink) : Prop where
  accepted : d'.accepted = d.accepted
  taken : d'.taken = d.taken
  waiting : d'.waiting = d.waiting

theorem SameQueue.refl (d : BtLink) : SameQueue d d := ⟨rfl,rfl,rfl⟩

theorem good_kept (leaves : Leaves t (heap s) (heap s')) (queue : s'.1.txQue = s.1.txQue) (same : SameQueue s.2.2 s'.2.2)
    (good : Good s) : Good s' := by
  refine ⟨leaves.inv good.inv,?_,?_⟩
  · rw [same.accepted,same.taken,same.waiting]
    exact good.history
  · rw [queue,same.waiting]
    exact queue_kept good.inv leaves good.queue fun _ member => member

-- The tasks that have nothing to do with Bluetooth transmission.
theorem follow_note {n : Note} (wifi : n.sending 1 = true ∨ ∀ f p l, n ≠ .sendPacket f p l) (w : World) (ans : Ans) (d : BtLink) :
    follow t w (.note n) ans d = d := by
  cases n
  case sendPacket f p l =>
    rcases wifi with sending | never
    · have first : f = 1 := of_decide_eq_true sending
      subst first
      rfl
    · exact absurd rfl (never f p l)
  all_goals rfl

theorem follow_calm {o : Op} (sender : t ≠ .btTx) (calm : (o.quiet || accesses o) = true) (w : World) (ans : Ans) (d : BtLink) :
    follow t w o ans d = d := by
  cases o
  case malloc => exact if_neg sender
  all_goals first
    | rfl
    | cases calm

theorem follow_other {o : Op} (sender : t ≠ .btTx) (host : t ≠ .btHost) (may : mayIssue t o) (w : World) (ans : Ans) (d : BtLink) :
    follow t w o ans d = d := by
  rcases may with calm | own
  · exact follow_calm sender calm w ans d
  · have write : ∀ function addr arg src size, o = .sdmmcIoWrite function addr arg src size → function = 1 := by
      rintro function addr arg src size rfl
      cases t
      case transRecv => exact own.1
      case wifiSend => exact own
      case appMain => exact own
      all_goals first
        | exact absurd rfl sender
        | cases own
    have note : ∀ n, o = .note n → n.sending 1 = true ∨ ∀ f p l, n ≠ .sendPacket f p l := by
      rintro n rfl
      cases t
      case transRecv =>
        obtain ⟨buf,rfl⟩ := own
        exact .inr fun _ _ _ same => by cases same
      case wifiSend =>
        rcases own with sending | ⟨size,rfl⟩
        · exact .inl sending
        · exact .inr fun _ _ _ same => by cases same
      case appMain => exact .inl own
      all_goals first
        | exact absurd rfl sender
        | cases own
    cases o
    case sdmmcIoWrite function addr arg src size =>
      have first := write function addr arg src size rfl
      subst first
      rfl
    case note n => exact follow_note (note n rfl) w ans d
    case malloc => exact if_neg sender
    case btHostCall | queueSend | queueReceive =>
      cases t <;> first | exact absurd rfl sender | exact absurd rfl host | cases own
    all_goals rfl

theorem queue_other {o : Op} (sender : t ≠ .btTx) (host : t ≠ .btHost) (may : mayIssue t o) : movesTxQue o = false := by
  rcases may with calm | own
  · cases o <;> first | rfl | cases calm
  · cases o
    case queueSend | queueReceive =>
      cases t <;> first | exact absurd rfl sender | exact absurd rfl host | cases own
    all_goals rfl

theorem other_moves {o : Op} {r : o.Answer} (sender : t ≠ .btTx) (host : t ≠ .btHost) (may : mayIssue t o)
    (acted : (heaped cfg follow).act t o s r s') : Moves t s s' := by
  have stepped := heaped_stepped acted
  obtain ⟨ans,ran,recorded⟩ := stepped.ran
  rw [follow_other sender host may] at recorded
  have queue : s'.1.txQue = s.1.txQue := (exec_frame ran).txQue (queue_other sender host may)
  refine ⟨stepped.leaves,fun _ => ?_,fun _ => by rw [recorded],good_kept stepped.leaves queue (by rw [recorded]; exact .refl _)⟩
  rw [recorded]
  exact .refl _

-- A task's own blocks between its steps.
theorem owned_stays (moved : Rests t s s') (owned : s.2.1.book b = some (.task t)) :
    s'.2.1.book b = some (.task t) ∧ s'.1.mem b = s.1.mem b := by
  refine ⟨?_,moved.stays.mem b owned⟩
  have member : b ∈ (heap s').2.book.heldBy (.task t) := by
    rw [moved.stays.held]
    exact owned
  exact member

theorem read_stays {p : Ptr} (same : s'.1.mem p.blk = s.1.mem p.blk) (n : Nat) : s'.1.mem.read p n = s.1.mem.read p n :=
  read_congr fun i _ => by rw [same]

-- Operations that leave the records alone.
theorem quiet_moves {o : Op} {r : o.Answer} (acted : (heaped cfg follow).act t o s r s') (same : ∀ w ans d, follow t w o ans d = d)
    (queue : movesTxQue o = false) : Moves t s s' ∧ s'.2.2 = s.2.2 := by
  have stepped := heaped_stepped acted
  obtain ⟨ans,ran,recorded⟩ := stepped.ran
  rw [same] at recorded
  refine ⟨⟨stepped.leaves,fun _ => ?_,fun _ => by rw [recorded],?_⟩,recorded⟩
  · rw [recorded]
    exact .refl _
  · exact good_kept stepped.leaves ((exec_frame ran).txQue queue) (by rw [recorded]; exact .refl _)

-- What `bt_send_data` has in hand when it comes to the queue.
structure Prepared (p : Ptr) (data : List UInt8) (s : State) : Prop where
  calling : s.2.2.calling = data
  owned : s.2.1.book p.blk = some (.task .btHost)
  bytes : s.1.mem.read p data.length = data

theorem prepared_stable {p : Ptr} {data : List UInt8} (prepared : Prepared p data s) (moved : Rests .btHost s s') :
    Prepared p data s' := by
  obtain ⟨owned,mem⟩ := owned_stays moved prepared.owned
  exact ⟨(moved.calling rfl).trans prepared.calling,owned,(read_stays mem _).trans prepared.bytes⟩

theorem call_steps {r : List UInt8} (acted : (heaped cfg follow).act .btHost .btHostCall s r s') :
    Moves .btHost s s' ∧ s'.2.2.calling = r ∧ r.length < 2 ^ 16 := by
  have stepped := heaped_stepped acted
  obtain ⟨ans,ran,recorded⟩ := stepped.ran
  have answer : (if ans.data.length < 2 ^ 16 then some (ans.data,s.1) else none) = some (r,s'.1) := ran
  split at answer
  · rename_i short
    obtain ⟨rfl,world⟩ := Prod.mk.inj (Option.some.inj answer)
    have calling : s'.2.2 = {s.2.2 with calling := ans.data} := recorded
    refine ⟨⟨stepped.leaves,fun _ => ?_,fun other => absurd rfl other,?_⟩,by rw [calling],short⟩
    · rw [calling]
      exact ⟨⟨rfl,rfl,rfl,rfl,rfl⟩,rfl,rfl⟩
    · exact good_kept stepped.leaves (by rw [← world]) (by rw [calling]; exact ⟨rfl,rfl,rfl⟩)
  · cases answer

theorem send_steps {msg : TxMsg} {data : List UInt8} {r : Bool} {wait : UInt32} (length : msg.len.toNat = data.length)
    (short : data.length < 2 ^ 16) (prepared : ∀ p, msg.data = some p → Prepared p data s) (calling : s.2.2.calling = data)
    (acted : (heaped cfg follow).act .btHost (.queueSend msg wait) s r s') : Moves .btHost s s' := by
  have stepped := heaped_stepped acted
  obtain ⟨ans,ran,recorded⟩ := stepped.ran
  have answer : (if s.1.txQue.length < 25 then some (true,{s.1 with txQue := s.1.txQue ++ [msg]}) else some (false,s.1)) =
    some (r,s'.1) := ran
  have record : s'.2.2 = if s.1.txQue.length < 25 then s.2.2.accept msg else s.2.2 := recorded
  by_cases room : s.1.txQue.length < 25
  · rw [if_pos room] at answer record
    obtain ⟨_,world⟩ := Prod.mk.inj (Option.some.inj answer)
    refine ⟨stepped.leaves,fun _ => ?_,fun other => absurd rfl other,fun good => ⟨stepped.leaves.inv good.inv,?_,?_⟩⟩
    · rw [record]
      exact ⟨⟨rfl,rfl,rfl,rfl,rfl⟩,rfl,rfl⟩
    · rw [record,BtLink.accept]
      simp only [good.history,List.append_assoc]
    · have before := queue_kept good.inv stepped.leaves good.queue fun _ member => member
      rw [← world] at before ⊢
      rw [record]
      refine List.rel_append before (.cons ⟨by rw [length]; exact short,?_⟩ .nil)
      cases given : msg.data with
      | none => rfl
      | some p =>
          have ready := prepared p given
          simp only [Option.map_some,calling,length]
          rw [ready.bytes]
  · rw [if_neg room] at answer record
    obtain ⟨_,world⟩ := Prod.mk.inj (Option.some.inj answer)
    refine ⟨stepped.leaves,fun _ => ?_,fun _ => by rw [record],good_kept stepped.leaves (by rw [← world]) ?_⟩
    all_goals
      rw [record]
      exact .refl _

theorem btHost_wp (s : State) : wp (contract cfg .btHost) btHost (fun l _ => labelsOf .btHost l) s := by
  unfold btHost btSendData
  simp only [Prog.bind_def,issue_bind,Prog.op_bind,Prog.pure_def]
  refine fun s _ => ⟨trivial,fun data s₁ called => ?_⟩
  obtain ⟨moves,calling,short⟩ := call_steps called
  refine ⟨moves,?_⟩
  have length : (UInt32.ofNat data.length).toNat = data.length := by
    rw [UInt32.toNat_ofNat',Nat.mod_eq_of_lt (by omega)]
  refine fun s₂ around => ⟨trivial,fun p s₃ allocated => ?_⟩
  have held : s₂.2.2.calling = data := (around.calling rfl).trans calling
  obtain ⟨moves,record⟩ := quiet_moves allocated (fun _ _ _ => rfl) rfl
  refine ⟨moves,?_⟩
  rw [← record] at held
  rcases calloc_taken (heaped_stepped allocated).acted with ⟨rfl,_⟩ | ⟨rfl,taken⟩
  · refine fun s₄ around => ⟨trivial,fun _ s₅ looked => ?_⟩
    have calling := (around.calling rfl).trans held
    obtain ⟨moves,record⟩ := quiet_moves looked (fun _ _ _ => rfl) rfl
    rw [← record] at calling
    refine ⟨moves,fun s₆ around => ⟨trivial,fun r s₇ sent => ⟨?_,trivial⟩⟩⟩
    exact send_steps length short (fun p same => by cases same) ((around.calling rfl).trans calling) sent
  · have owned : s₃.2.1.book s₂.1.fresh = some (.task .btHost) := by
      have book : s₃.2.1.book = s₂.2.1.book.move (· = s₂.1.fresh) (some (.task .btHost)) := taken.book
      rw [book,Custody.move_self]
    refine fun s₄ around => ⟨trivial,fun _ s₅ stored => ?_⟩
    have mine := (owned_stays around owned).1
    have called := (around.calling rfl).trans held
    obtain ⟨moves,record⟩ := quiet_moves stored (fun _ _ _ => rfl) rfl
    refine ⟨moves,fun s₆ around => ⟨trivial,fun r s₇ sent => ⟨?_,trivial⟩⟩⟩
    obtain ⟨ans,ran,answered⟩ := act_iff.mp (heaped_stepped stored).acted
    have world : s₅.1 = {s₄.1 with mem := s₄.1.mem.write ⟨s₂.1.fresh,0⟩ data} := (Prod.mk.inj (Option.some.inj ran)).2.symm
    have books : s₅.2.1 = s₄.2.1 := (Option.some.inj answered).symm
    have prepared : Prepared ⟨s₂.1.fresh,0⟩ data s₅ := by
      refine ⟨by rw [record]; exact called,by rw [books]; exact mine,?_⟩
      rw [world]
      exact read_write s₄.1.mem ⟨s₂.1.fresh,0⟩ data
    refine send_steps length short (fun p same => ?_) (prepared_stable prepared around).calling sent
    cases same
    exact prepared_stable prepared around

-- What `bt_tx_task` does outside of the queue.
theorem onWrite_keeps (d : BtLink) (bytes : List UInt8) : (d.onWrite bytes).calling = d.calling ∧ SameQueue d (d.onWrite bytes) := by
  unfold BtLink.onWrite
  split
  · exact ⟨rfl,rfl,rfl,rfl⟩
  · exact ⟨rfl,rfl,rfl,rfl⟩

def aside : Op → Bool
  | .btHostCall | .queueSend _ _ | .queueReceive => false
  | _ => true

theorem follow_keeps {o : Op} (apart : aside o = true) (w : World) (ans : Ans) (d : BtLink) :
    (follow t w o ans d).calling = d.calling ∧ SameQueue d (follow t w o ans d) := by
  cases o
  case btHostCall | queueSend | queueReceive => cases apart
  case malloc =>
    unfold follow
    dsimp only
    split
    · split
      · exact ⟨rfl,rfl,rfl,rfl⟩
      · exact ⟨rfl,rfl,rfl,rfl⟩
    · exact ⟨rfl,rfl,rfl,rfl⟩
  case sdmmcIoWrite function addr arg src size =>
    unfold follow
    dsimp only
    split
    · split
      · exact onWrite_keeps _ _
      · exact ⟨rfl,rfl,rfl,rfl⟩
    · exact ⟨rfl,rfl,rfl,rfl⟩
  case note n =>
    cases n
    case sendPacket function length =>
      unfold follow
      dsimp only
      split
      · exact ⟨rfl,rfl,rfl,rfl⟩
      · exact ⟨rfl,rfl,rfl,rfl⟩
    all_goals exact ⟨rfl,rfl,rfl,rfl⟩
  all_goals exact ⟨rfl,rfl,rfl,rfl⟩

theorem tx_moves {o : Op} {r : o.Answer} (apart : aside o = true) (acted : (heaped cfg follow).act .btTx o s r s') : Moves .btTx s s' := by
  have stepped := heaped_stepped acted
  obtain ⟨ans,ran,recorded⟩ := stepped.ran
  obtain ⟨calling,queue⟩ := follow_keeps (t := .btTx) apart s.1 ans s.2.2
  rw [← recorded] at calling queue
  refine ⟨stepped.leaves,fun other => absurd rfl other,fun _ => calling,good_kept stepped.leaves ((exec_frame ran).txQue ?_) queue⟩
  cases o <;> first | rfl | cases apart

-- The records at the head of its loop, and while the packet of a payload is on its way.
structure AtHead (n : UInt32) (d : BtLink) : Prop where
  seq : n = UInt32.ofNat d.started.length
  order : d.received.Sublist (d.started.mapIdx frame)
  complete : d.received.length + d.failures = d.started.length
  served : d.started.Sublist (payloads d.taken)
  skipped : (payloads d.taken).length = d.started.length + d.unserved

structure Midway (n : UInt32) (before : List (List UInt8)) (bytes : List UInt8) (d : BtLink) : Prop where
  started : d.started = before ++ [bytes]
  seq : n = UInt32.ofNat before.length
  order : d.received.Sublist (before.mapIdx frame)
  complete : d.received.length + d.failures = before.length
  served : d.started.Sublist (payloads d.taken)
  skipped : (payloads d.taken).length = d.started.length + d.unserved

theorem head_same {n : UInt32} {d d' : BtLink} (head : AtHead n d) (same : SameLists d d') : AtHead n d' := by
  refine ⟨?_,?_,?_,?_,?_⟩
  · rw [same.started]
    exact head.seq
  · rw [same.received,same.started]
    exact head.order
  · rw [same.received,same.failures,same.started]
    exact head.complete
  · rw [same.started,same.taken]
    exact head.served
  · rw [same.taken,same.started,same.unserved]
    exact head.skipped

theorem midway_same {n : UInt32} {d d' : BtLink} (midway : Midway n before bytes d) (same : SameLists d d') :
    Midway n before bytes d' := by
  refine ⟨same.started.trans midway.started,midway.seq,?_,?_,?_,?_⟩
  · rw [same.received]
    exact midway.order
  · rw [same.received,same.failures]
    exact midway.complete
  · rw [same.started,same.taken]
    exact midway.served
  · rw [same.taken,same.started,same.unserved]
    exact midway.skipped

theorem next_seq (before : List (List UInt8)) (bytes : List UInt8) :
    UInt32.ofNat before.length + 1 = UInt32.ofNat (before ++ [bytes]).length := by
  rw [List.length_append,List.length_singleton,UInt32.ofNat_add]
  rfl

-- A packet that is whole, and one that is not.
theorem midway_sent {n : UInt32} {d d' : BtLink} (midway : Midway n before bytes d)
    (received : d'.received = d.received ++ [frame before.length bytes])
    (rest : d'.started = d.started ∧ d'.taken = d.taken ∧ d'.unserved = d.unserved ∧ d'.failures = d.failures) : AtHead (n + 1) d' := by
  obtain ⟨started,taken,unserved,failures⟩ := rest
  have complete := midway.complete
  refine ⟨?_,?_,?_,?_,?_⟩
  · rw [started,midway.started,midway.seq]
    exact next_seq before bytes
  · rw [received,started,midway.started,List.mapIdx_concat]
    exact midway.order.append (.refl _)
  · rw [received,started,midway.started,failures]
    simp only [List.length_append,List.length_singleton]
    omega
  · rw [started,taken]
    exact midway.served
  · rw [taken,started,unserved]
    exact midway.skipped

theorem midway_failed {n : UInt32} {d d' : BtLink} (midway : Midway n before bytes d) (received : d'.received = d.received)
    (failures : d'.failures = d.failures + 1)
    (rest : d'.started = d.started ∧ d'.taken = d.taken ∧ d'.unserved = d.unserved) : AtHead (n + 1) d' := by
  obtain ⟨started,taken,unserved⟩ := rest
  have complete := midway.complete
  refine ⟨?_,?_,?_,?_,?_⟩
  · rw [started,midway.started,midway.seq]
    exact next_seq before bytes
  · rw [received,started,midway.started,List.mapIdx_concat]
    exact midway.order.trans (List.sublist_append_left _ _)
  · rw [received,started,midway.started,failures]
    simp only [List.length_append,List.length_singleton]
    omega
  · rw [started,taken]
    exact midway.served
  · rw [taken,started,unserved]
    exact midway.skipped

def Resting (n : UInt32) (s : State) : Prop := Good s ∧ AtHead n s.2.2

theorem resting_stable {n : UInt32} (s s' : State) (resting : Resting n s) (moved : Rests .btTx s s') : Resting n s' :=
  ⟨moved.good resting.1,head_same resting.2 (moved.sender rfl).toSameLists⟩

def silent (o : Op) : Prop := aside o = true ∧ ∀ w ans d, follow .btTx w o ans d = d

theorem silent_keeps {n : UInt32} {o : Op} (still : silent o) : KeepsOp (contract cfg .btTx) (Resting n) o := by
  intro s resting
  refine ⟨trivial,fun r s' acted => ?_⟩
  have moves := tx_moves still.1 acted
  obtain ⟨ans,_,recorded⟩ := (heaped_stepped acted).ran
  rw [still.2] at recorded
  refine ⟨moves,moves.good resting.1,?_⟩
  rw [recorded]
  exact resting.2

theorem resting_op {n : UInt32} {o : Op} {next : o.Answer → Code α} {post : α → State → Prop} (still : silent o) (rested : Resting n s)
    (rest : ∀ r s, Resting n s → wp (contract cfg .btTx) (next r) post s) : wp (contract cfg .btTx) (Prog.op o next : Code α) post s := by
  intro s₁ around
  obtain ⟨safe,steps⟩ := silent_keeps still s₁ (resting_stable s s₁ rested around)
  exact ⟨safe,fun r s₂ acted => ⟨(steps r s₂ acted).1,rest r s₂ (steps r s₂ acted).2⟩⟩

-- A packet in the buffer of `bt_tx_task`, from its header on.
structure OnWay (n : UInt32) (before : List (List UInt8)) (bytes : List UInt8) (hdr : Ptr) (s : State) : Prop where
  good : Good s
  owned : s.2.1.book hdr.blk = some (.task .btTx)
  packet : s.1.mem.read hdr (8 + bytes.length) = frame before.length bytes
  midway : Midway n before bytes s.2.2

theorem onWay_stable {n : UInt32} {hdr : Ptr} (way : OnWay n before bytes hdr s) (moved : Rests .btTx s s') :
    OnWay n before bytes hdr s' := by
  obtain ⟨owned,mem⟩ := owned_stays moved way.owned
  exact ⟨moved.good way.good,owned,(read_stays mem _).trans way.packet,midway_same way.midway (moved.sender rfl).toSameLists⟩

-- One write: the slave takes the bytes, or the transfer fails.
theorem write_steps {addr size : UInt32} {arg : Cmd53Arg} {p : Ptr} {r : EspErr}
    (acted : (heaped cfg follow).act .btTx (.sdmmcIoWrite extConnBtSdioFunc addr arg (.mem p) size) s r s') :
    s'.1 = s.1 ∧ s'.2.1 = s.2.1 ∧
      s'.2.2 = if r = .ok then s.2.2.onWrite (s.1.mem.read p size.toNat) else {s.2.2 with failures := s.2.2.failures + 1} := by
  have stepped := heaped_stepped acted
  obtain ⟨ans,ran,recorded⟩ := stepped.ran
  obtain ⟨_,_,answered⟩ := act_iff.mp stepped.acted
  obtain ⟨same,world⟩ := Prod.mk.inj (Option.some.inj ran)
  rw [← same]
  exact ⟨world.symm,(Option.some.inj answered).symm,recorded⟩

theorem onWrite_part {d : BtLink} {bytes : List UInt8} (open_ : d.incoming.length + bytes.length < d.expected) :
    d.onWrite bytes = {d with incoming := d.incoming ++ bytes} := by
  rw [BtLink.onWrite,if_neg]
  omega

theorem onWrite_last {d : BtLink} {bytes : List UInt8} (below : d.incoming.length < d.expected)
    (enough : d.expected ≤ d.incoming.length + bytes.length) : d.onWrite bytes =
      {d with incoming := d.incoming ++ bytes,received := d.received ++ [(d.incoming ++ bytes).take d.expected]} := by
  rw [BtLink.onWrite,if_pos ⟨below,enough⟩]

theorem way_failed {n : UInt32} {hdr : Ptr} (way : OnWay n before bytes hdr s) (good : Good s → Good s')
    (record : s'.2.2 = {s.2.2 with failures := s.2.2.failures + 1}) : Resting (n + 1) s' := by
  refine ⟨good way.good,midway_failed way.midway ?_ ?_ ⟨?_,?_,?_⟩⟩
  all_goals rw [record]

-- The last write of a packet, behind the part that is with the slave already.
theorem last_write {n addr len : UInt32} {hdr : Ptr} (done : Nat) (length : done + len.toNat = 8 + bytes.length) (small : len.toNat < 512)
    (positive : 0 < len.toNat) (way : OnWay n before bytes hdr s) (expected : s.2.2.expected = 8 + bytes.length)
    (incoming : s.2.2.incoming = s.1.mem.read hdr done) :
    wp (contract cfg .btTx) (writeTail extConnBtSdioFunc addr (hdr.add done) len) (fun _ s => Resting (n + 1) s) s := by
  intro s₁ around
  have way₁ := onWay_stable way around
  have same := around.sender rfl
  have mem := (owned_stays around way.owned).2
  refine ⟨trivial,fun r s₂ acted => ⟨tx_moves rfl acted,?_⟩⟩
  have good := (tx_moves rfl acted).good
  obtain ⟨world,books,record⟩ := write_steps acted
  have rounded := roundFour_toNat small
  by_cases success : r = .ok
  · rw [if_pos success] at record
    have expected₁ : s₁.2.2.expected = 8 + bytes.length := same.expected.trans expected
    have incoming₁ : s₁.2.2.incoming = s₁.1.mem.read hdr done := by
      rw [same.incoming,incoming]
      exact (read_stays mem _).symm
    have joined : s₁.2.2.incoming ++ s₁.1.mem.read (hdr.add done) (roundFour len).toNat =
        s₁.1.mem.read hdr (done + (roundFour len).toNat) := by rw [incoming₁,read_append]
    have whole : (s₁.2.2.incoming ++ s₁.1.mem.read (hdr.add done) (roundFour len).toNat).take s₁.2.2.expected =
        frame before.length bytes := by
      rw [joined,expected₁,read_take _ _ (by omega)]
      exact way₁.packet
    have short : s₁.2.2.incoming.length = done := by rw [incoming₁,read_length]
    rw [onWrite_last (by omega) (by rw [read_length]; omega)] at record
    refine ⟨good way₁.good,midway_sent way₁.midway ?_ ⟨?_,?_,?_,?_⟩⟩
    · rw [record,whole]
    all_goals rw [record]
  · rw [if_neg success] at record
    exact way_failed way₁ good record

theorem chunks_wp {n addr len : UInt32} {hdr : Ptr} (length : len.toNat = 8 + bytes.length) (way : OnWay n before bytes hdr s)
    (expected : s.2.2.expected = 8 + bytes.length) (incoming : s.2.2.incoming = []) :
    wp (contract cfg .btTx) (sendPacketChunks extConnBtSdioFunc addr (len.toNat + 1) hdr len) (fun _ s => Resting (n + 1) s) s := by
  have blocks := blocksOf_toNat len
  have tail := tailOf_toNat len
  by_cases small : len.toNat < 512
  · rw [sendPacketChunks_tail _ _ _ _ (by omega) small]
    exact last_write 0 (by omega) small (by omega) way expected incoming
  · obtain ⟨fuel,bound⟩ : ∃ fuel, len.toNat = fuel + 1 := ⟨len.toNat - 1,by omega⟩
    rw [bound,sendPacketChunks_blocks _ _ _ _ (by omega)]
    intro s₁ around
    have way₁ := onWay_stable way around
    have same := around.sender rfl
    refine ⟨trivial,fun r s₂ acted => ⟨tx_moves rfl acted,?_⟩⟩
    have good := (tx_moves rfl acted).good
    obtain ⟨world,books,record⟩ := write_steps acted
    have expected₁ : s₁.2.2.expected = 8 + bytes.length := same.expected.trans expected
    have incoming₁ : s₁.2.2.incoming = [] := same.incoming.trans incoming
    refine wp_ite (fun failed => ?_) fun passed => wp_ite (fun done => ?_) fun more => ?_
    · rw [if_neg failed] at record
      exact way_failed way₁ good record
    · have zero : (tailOf len).toNat = 0 := by rw [done]; rfl
      rw [if_pos (not_not.mp passed),
        onWrite_last (by rw [incoming₁,List.length_nil]; omega) (by rw [incoming₁,List.length_nil,read_length]; omega)] at record
      refine ⟨good way₁.good,midway_sent way₁.midway ?_ ⟨?_,?_,?_,?_⟩⟩
      · rw [record,incoming₁,List.nil_append,expected₁,read_take _ _ (by omega)]
        exact congrArg (s₁.2.2.received ++ [·]) way₁.packet
      all_goals rw [record]
    · have positive : 0 < (tailOf len).toNat := (toNat_ne_zero _).mp more
      have part : s₁.2.2.incoming.length + (s₁.1.mem.read hdr (blocksOf len).toNat).length < s₁.2.2.expected := by
        rw [incoming₁,List.length_nil,read_length]
        omega
      rw [if_pos (not_not.mp passed),onWrite_part part] at record
      have way₂ : OnWay n before bytes hdr s₂ := by
        refine ⟨good way₁.good,?_,?_,midway_same way₁.midway (by rw [record]; exact ⟨rfl,rfl,rfl,rfl,rfl⟩)⟩
        · rw [books]
          exact way₁.owned
        · rw [world]
          exact way₁.packet
      refine last_write (blocksOf len).toNat (by omega) (by omega) positive way₂ ?_ ?_
      · rw [record]
        exact expected₁
      · rw [record,world,incoming₁,List.nil_append]

-- A packet is whole once its bytes have been written one behind the other.
structure Building (before : List (List UInt8)) (bytes : List UInt8) (n : UInt32) (data hdr : Ptr) (written : List UInt8) (s : State) : Prop where
  good : Good s
  source : s.2.1.book data.blk = some (.task .btTx) ∧ s.1.mem.read data bytes.length = bytes
  owned : s.2.1.book hdr.blk = some (.task .btTx)
  apart : data.blk ≠ hdr.blk
  packet : s.1.mem.read hdr written.length = written
  midway : Midway n before bytes s.2.2

theorem building_stable {n : UInt32} {data hdr : Ptr} (s s' : State) (building : Building before bytes n data hdr written s)
    (moved : Rests .btTx s s') : Building before bytes n data hdr written s' := by
  obtain ⟨sourced,same⟩ := owned_stays moved building.source.1
  obtain ⟨owned,mem⟩ := owned_stays moved building.owned
  exact ⟨moved.good building.good,⟨sourced,(read_stays same _).trans building.source.2⟩,owned,building.apart,
    (read_stays mem _).trans building.packet,midway_same building.midway (moved.sender rfl).toSameLists⟩

theorem read_extended {m : Mem} {p : Ptr} {front : List UInt8} (more : List UInt8) (there : m.read p front.length = front) :
    (m.write (p.add front.length) more).read p (front ++ more).length = front ++ more := by
  rw [List.length_append,read_append,read_write,read_write_other _ _ _ _ (.inr (.inl (Nat.le_refl _))),there]

theorem store_wp {n : UInt32} {data hdr : Ptr} {next : Unit → Code α} {post : α → State → Prop} {p : Ptr} {more : List UInt8}
    (place : p = hdr.add written.length) (building : Building before bytes n data hdr written s)
    (rest : ∀ s, Building before bytes n data hdr (written ++ more) s → wp (contract cfg .btTx) (next ()) post s) :
    wp (contract cfg .btTx) (Prog.op (.store p more) next : Code α) post s := by
  intro s₁ around
  have building₁ := building_stable s s₁ building around
  refine ⟨trivial,fun r s₂ acted => ?_⟩
  have moves := tx_moves rfl acted
  have stepped := heaped_stepped acted
  obtain ⟨ans,ran,recorded⟩ := stepped.ran
  obtain ⟨_,_,answered⟩ := act_iff.mp stepped.acted
  have world : s₂.1 = {s₁.1 with mem := s₁.1.mem.write p more} := (Prod.mk.inj (Option.some.inj ran)).2.symm
  have books : s₂.2.1 = s₁.2.1 := (Option.some.inj answered).symm
  have record : s₂.2.2 = s₁.2.2 := recorded
  refine ⟨moves,rest s₂ ⟨moves.good building₁.good,⟨?_,?_⟩,?_,building₁.apart,?_,?_⟩⟩
  · rw [books]
    exact building₁.source.1
  · rw [world,place]
    exact (read_write_other _ (hdr.add _) _ _ (.inl building₁.apart)).trans building₁.source.2
  · rw [books]
    exact building₁.owned
  · rw [world,place]
    exact read_extended more building₁.packet
  · rw [record]
    exact building₁.midway

-- The payload behind the header.
theorem copy_wp {n : UInt32} {data hdr : Ptr} {next : Unit → Code α} {post : α → State → Prop} {p : Ptr}
    (place : p = hdr.add written.length) (building : Building before bytes n data hdr written s)
    (rest : ∀ s, Building before bytes n data hdr (written ++ bytes) s → wp (contract cfg .btTx) (next ()) post s) :
    wp (contract cfg .btTx) ((memcpy p data bytes.length).bind next : Code α) post s := by
  intro s₁ around
  have building₁ := building_stable s s₁ building around
  refine ⟨trivial,fun r s₂ acted => ?_⟩
  have moves := tx_moves rfl acted
  have stepped := heaped_stepped acted
  obtain ⟨ans,ran,recorded⟩ := stepped.ran
  obtain ⟨_,_,answered⟩ := act_iff.mp stepped.acted
  obtain ⟨loaded,world⟩ := Prod.mk.inj (Option.some.inj ran)
  have same : r = bytes := loaded.symm.trans building₁.source.2
  have unmoved : s₂ = s₁ := Prod.ext world.symm (Prod.ext (Option.some.inj answered).symm recorded)
  refine ⟨moves,?_⟩
  rw [same,unmoved]
  exact store_wp place building₁ rest

-- Operations in between that neither the records nor the memory notice.
theorem building_op {n : UInt32} {data hdr : Ptr} {o : Op} {next : o.Answer → Code α} {post : α → State → Prop} (still : silent o)
    (plain : o.handles = false) (none : o.block = none) (building : Building before bytes n data hdr written s)
    (rest : ∀ r s, Building before bytes n data hdr written s → wp (contract cfg .btTx) (next r) post s) :
    wp (contract cfg .btTx) (Prog.op o next : Code α) post s := by
  intro s₁ around
  have building₁ := building_stable s s₁ building around
  refine ⟨trivial,fun r s₂ acted => ?_⟩
  have moves := tx_moves still.1 acted
  have stepped := heaped_stepped acted
  obtain ⟨ans,ran,recorded⟩ := stepped.ran
  obtain ⟨_,_,answered⟩ := act_iff.mp stepped.acted
  have world := plain_exec plain ran
  have books : s₂.2.1 = s₁.2.1 := plain_books plain answered
  have mem : ∀ b, s₂.1.mem b = s₁.1.mem b := fun b => world.mem b (.inl (by rw [none]; exact fun same => by cases same))
  rw [still.2] at recorded
  refine ⟨moves,rest r s₂ ⟨moves.good building₁.good,?_,?_,building₁.apart,?_,?_⟩⟩
  · rw [books]
    exact ⟨building₁.source.1,(read_stays (mem _) _).trans building₁.source.2⟩
  · rw [books]
    exact building₁.owned
  · exact (read_stays (mem _) _).trans building₁.packet
  · rw [recorded]
    exact building₁.midway

theorem afterChunks_rests {n function length : UInt32} (err : EspErr) (bt : function = extConnBtSdioFunc) :
    Keeps (contract cfg .btTx) (Resting n) (afterChunks function length err) := by
  have all : (afterChunks function length err).All silent :=
    afterChunks_all ⟨rfl,fun _ _ _ => rfl⟩ ⟨rfl,fun _ _ _ => rfl⟩ (fun other => absurd bt other) err
  exact (all.mono fun _ => silent_keeps).keeps resting_stable

-- The transfer of a packet that is in place.
theorem send_wp {n len : UInt32} {data hdr : Ptr} {next : EspErr → Code α} {post : α → State → Prop}
    (length : len.toNat = 8 + bytes.length) (building : Building before bytes n data hdr (frame before.length bytes) s)
    (rest : ∀ err s, Resting (n + 1) s → wp (contract cfg .btTx) (next err) post s) :
    wp (contract cfg .btTx) ((espExtconnSdioSendPacket extConnBtSdioFunc hdr len).bind next : Code α) post s := by
  rw [sendPacket_eq,Prog.op_bind]
  intro s₁ around
  have building₁ := building_stable s s₁ building around
  refine ⟨trivial,fun r s₂ acted => ?_⟩
  have moves := tx_moves rfl acted
  have stepped := heaped_stepped acted
  obtain ⟨ans,ran,recorded⟩ := stepped.ran
  obtain ⟨_,_,answered⟩ := act_iff.mp stepped.acted
  have world : s₂.1 = s₁.1 := (Prod.mk.inj (Option.some.inj ran)).2.symm
  have books : s₂.2.1 = s₁.2.1 := (Option.some.inj answered).symm
  have record : s₂.2.2 = {s₁.2.2 with expected := len.toNat,incoming := []} := recorded
  have way : OnWay n before bytes hdr s₂ := by
    refine ⟨moves.good building₁.good,?_,?_,midway_same building₁.midway (by rw [record]; exact ⟨rfl,rfl,rfl,rfl,rfl⟩)⟩
    · rw [books]
      exact building₁.owned
    · rw [world,← frame_length before.length bytes]
      exact building₁.packet
  refine ⟨moves,?_⟩
  unfold sendPacketRest
  rw [Prog.bind_assoc,wp_bind]
  refine wp_mono (chunks_wp length way (by rw [record]; exact length) (by rw [record])) fun err s rested => ?_
  rw [wp_bind]
  exact wp_mono (afterChunks_rests err rfl s rested) rest

-- Where `bt_tx_task` is between two messages.
def Loops (l : Label) (s : State) : Prop := ∃ n, l = .btTxTask n ∧ Resting n s

theorem btTxPacket_wp {n len : UInt32} {data hdr : Ptr} (length : len.toNat = bytes.length) (small : bytes.length < 2 ^ 16)
    (building : Building before bytes n data hdr [] s) : wp (contract cfg .btTx) (btTxPacket n data len hdr) Loops s := by
  have header : ((sizeofSbpHdr + len) &&& 0xffffff).toNat = 8 + bytes.length := by
    rw [SendToken.hdrLen_toNat (by omega),length]
  have seq := building.midway.seq
  unfold btTxPacket espExtconnSdioLock espExtconnSdioUnlock
  simp only [Prog.bind_def,issue_bind,Prog.op_bind,Prog.pure_bind,Prog.pure_def,length]
  refine store_wp rfl building fun s building => store_wp rfl building fun s building => store_wp rfl building fun s building => ?_
  refine copy_wp rfl building fun s building => ?_
  refine building_op ⟨rfl,fun _ _ _ => rfl⟩ rfl rfl building fun _ s building => ?_
  have packet : [] ++ leBytes 3 ((sizeofSbpHdr + len) &&& 0xffffff).toNat ++ [0] ++ le32 n ++ bytes = frame before.length bytes := by
    rw [header,seq]
    rfl
  rw [packet] at building
  refine send_wp header building fun err s rested => ?_
  refine resting_op ⟨rfl,fun _ _ _ => rfl⟩ rested fun _ s rested => resting_op ⟨rfl,fun _ _ _ => rfl⟩ rested fun _ s rested => ?_
  exact resting_op ⟨rfl,fun _ _ _ => rfl⟩ rested fun _ s rested => ⟨_,rfl,rested⟩

-- The records when the payload of a message has just been received.
structure Facing (n : UInt32) (bytes : List UInt8) (d : BtLink) : Prop where
  seq : n = UInt32.ofNat d.started.length
  order : d.received.Sublist (d.started.mapIdx frame)
  complete : d.received.length + d.failures = d.started.length
  current : d.current = bytes
  served : ∃ earlier, payloads d.taken = earlier ++ [bytes] ∧ d.started.Sublist earlier ∧ earlier.length = d.started.length + d.unserved

structure Faced (n : UInt32) (bytes : List UInt8) (data : Ptr) (s : State) : Prop where
  good : Good s
  source : s.2.1.book data.blk = some (.task .btTx) ∧ s.1.mem.read data bytes.length = bytes
  facing : Facing n bytes s.2.2

theorem faced_stable {n : UInt32} {data : Ptr} (faced : Faced n bytes data s) (moved : Rests .btTx s s') : Faced n bytes data s' := by
  obtain ⟨sourced,mem⟩ := owned_stays moved faced.source.1
  have same := (moved.sender rfl).toSameLists
  obtain ⟨seq,order,complete,current,served⟩ := faced.facing
  refine ⟨moved.good faced.good,⟨sourced,(read_stays mem _).trans faced.source.2⟩,?_⟩
  unfold BtLink.current at current
  rw [← same.taken,← same.started,← same.unserved] at served
  refine ⟨?_,?_,?_,?_,served⟩
  · rw [same.started]
    exact seq
  · rw [same.received,same.started]
    exact order
  · rw [same.received,same.failures,same.started]
    exact complete
  · rw [BtLink.current,same.taken]
    exact current

theorem payloads_append (taken : List (Option (List UInt8))) (last : Option (List UInt8)) :
    payloads (taken ++ [last]) = payloads taken ++ if last.getD [] = [] then [] else [last.getD []] := by
  unfold payloads
  rw [List.filterMap_append,List.filter_append]
  cases last with
  | none => simp
  | some bytes => by_cases empty : bytes = [] <;> simp [empty]

-- What is received is what the message was to carry.
theorem receive_steps {n : UInt32} {r : Option TxMsg} (rested : Resting n s)
    (acted : (heaped cfg follow).act .btTx .queueReceive s r s') : ∃ msg, r = some msg ∧ Moves .btTx s s' ∧ Good s' ∧
      msg.len.toNat < 2 ^ 16 ∧ (∀ p, msg.data = some p → s'.2.1.book p.blk = some (.task .btTx)) ∧
      s'.2.2 = {s.2.2 with
        waiting := s.2.2.waiting.tail
        taken := s.2.2.taken ++ [msg.data.map fun p => s'.1.mem.read p msg.len.toNat]} := by
  have stepped := heaped_stepped acted
  obtain ⟨ans,ran,recorded⟩ := stepped.ran
  obtain ⟨_,_,answered⟩ := act_iff.mp stepped.acted
  have record : s'.2.2 = {s.2.2 with waiting := s.2.2.waiting.tail,taken := s.2.2.taken ++ [s.2.2.waiting.head?.join]} := recorded
  obtain ⟨good,head⟩ := rested
  cases queue : s.1.txQue with
  | nil =>
      simp only [World.exec,queue] at ran
      cases ran
  | cons msg rest =>
      simp only [World.exec,queue] at ran
      obtain ⟨answer,world⟩ := Prod.mk.inj (Option.some.inj ran)
      have carried := good.queue
      rw [queue] at carried
      obtain ⟨payload,ws,carries,remaining,waiting⟩ := List.forall₂_cons_left_iff.mp carried
      have still : s'.1.mem = s.1.mem := by rw [← world]
      have kept : Good s' := by
        refine ⟨stepped.leaves.inv good.inv,?_,?_⟩
        · rw [record,good.history,waiting]
          simp only [List.head?_cons,List.tail_cons,Option.join_some,List.append_assoc,List.cons_append,List.nil_append]
        · rw [← world,record,waiting]
          exact remaining
      have moves : Moves .btTx s s' := by
        refine ⟨stepped.leaves,fun other => absurd rfl other,fun _ => by rw [record],fun good => ?_⟩
        exact kept
      refine ⟨msg,answer.symm,moves,kept,carries.1,fun p given => ?_,?_⟩
      · have books : s'.2.1 = s.2.1.receive .btTx p.blk msg.len := by
          have first : s.1.txQue = ⟨some p,msg.len⟩ :: rest := by rw [queue,← given]
          exact (Option.some.inj ((books_given first _ _).symm.trans answered)).symm
        rw [books]
        exact Custody.move_self _
      · rw [record,still,waiting,carries.2]
        rfl

-- The records after it, by what there is in the message.
theorem received_nothing {n : UInt32} {d : BtLink} {last : Option (List UInt8)} (head : AtHead n d) (empty : last.getD [] = []) (waiting) :
    AtHead n {d with waiting := waiting,taken := d.taken ++ [last]} := by
  have same : payloads (d.taken ++ [last]) = payloads d.taken := by rw [payloads_append,if_pos empty,List.append_nil]
  refine ⟨head.seq,head.order,head.complete,?_,?_⟩
  · rw [same]
    exact head.served
  · rw [same]
    exact head.skipped

theorem received_some {n : UInt32} {d : BtLink} {bytes : List UInt8} (head : AtHead n d) (proper : bytes ≠ []) (waiting) :
    Facing n bytes {d with waiting := waiting,taken := d.taken ++ [some bytes]} := by
  refine ⟨head.seq,head.order,head.complete,?_,payloads d.taken,?_,head.served,head.skipped⟩
  · simp [BtLink.current]
  · rw [payloads_append]
    exact congrArg (payloads d.taken ++ ·) (if_neg proper)

theorem unserved_head {n : UInt32} {d : BtLink} {bytes : List UInt8} (facing : Facing n bytes d) :
    AtHead n {d with unserved := d.unserved + 1} := by
  obtain ⟨earlier,split,served,skipped⟩ := facing.served
  refine ⟨facing.seq,facing.order,facing.complete,?_,?_⟩
  · rw [split]
    exact served.trans (List.sublist_append_left _ _)
  · rw [split,List.length_append,skipped]
    exact Nat.add_assoc _ _ _

theorem served_midway {n : UInt32} {d : BtLink} {bytes : List UInt8} (facing : Facing n bytes d) :
    Midway n d.started bytes {d with started := d.started ++ [d.current]} := by
  obtain ⟨earlier,split,served,skipped⟩ := facing.served
  rw [facing.current]
  refine ⟨rfl,facing.seq,facing.order,facing.complete,?_,?_⟩
  · rw [split]
    exact served.append (.refl _)
  · rw [split]
    simp only [List.length_append,List.length_singleton]
    omega

-- The header is allocated, or the payload is dropped.
theorem malloc_wp {n len : UInt32} {data : Ptr} {next : Option Ptr → Code α} {post : α → State → Prop} (faced : Faced n bytes data s)
    (failed : ∀ s, Resting n s → wp (contract cfg .btTx) (next none) post s)
    (given : ∀ hdr before s, Building before bytes n data hdr [] s → wp (contract cfg .btTx) (next (some hdr)) post s) :
    wp (contract cfg .btTx) (Prog.op (.malloc len) next : Code α) post s := by
  intro s₁ around
  have faced₁ := faced_stable faced around
  refine ⟨trivial,fun r s₂ acted => ?_⟩
  have moves := tx_moves rfl acted
  have stepped := heaped_stepped acted
  obtain ⟨ans,ran,recorded⟩ := stepped.ran
  have record : s₂.2.2 = if ans.flag then {s₁.2.2 with started := s₁.2.2.started ++ [s₁.2.2.current]}
    else {s₁.2.2 with unserved := s₁.2.2.unserved + 1} := recorded
  refine ⟨moves,?_⟩
  have good := moves.good faced₁.good
  rcases malloc_taken stepped.acted with ⟨rfl,same⟩ | ⟨rfl,taken⟩
  · have refused : ans.flag = false := by
      cases flag : ans.flag with
      | false => rfl
      | true =>
          simp only [World.exec,flag] at ran
          cases ran
    rw [refused] at record
    refine failed s₂ ⟨good,?_⟩
    rw [record]
    exact unserved_head faced₁.facing
  · have granted : ans.flag = true := by
      cases flag : ans.flag with
      | true => rfl
      | false =>
          simp only [World.exec,flag] at ran
          cases ran
    rw [granted] at record
    obtain ⟨other,kept⟩ := taken.keeps faced₁.good.inv faced₁.source.1
    have owned : s₂.2.1.book s₁.1.fresh = some (.task .btTx) := by
      have book : s₂.2.1.book = s₁.2.1.book.move (· = s₁.1.fresh) (some (.task .btTx)) := taken.book
      rw [book,Custody.move_self]
    refine given ⟨s₁.1.fresh,0⟩ s₁.2.2.started s₂ ⟨good,⟨kept,?_⟩,owned,other,rfl,?_⟩
    · exact (read_stays (taken.grows.mem _ other) _).trans faced₁.source.2
    · rw [record]
      exact served_midway faced₁.facing

theorem btTxTask_wp {n : UInt32} (rested : Resting n s) : wp (contract cfg .btTx) (btTxTask n) Loops s := by
  rw [btTxTask_eq]
  refine resting_op ⟨rfl,fun _ _ _ => rfl⟩ rested fun _ s rested s₁ around => ⟨trivial,fun r s₂ acted => ?_⟩
  have rested₁ := resting_stable s s₁ rested around
  obtain ⟨msg,rfl,moves,good,small,owned,record⟩ := receive_steps rested₁ acted
  refine ⟨moves,?_⟩
  obtain ⟨data,len⟩ := msg
  cases data with
  | none =>
      refine ⟨n,rfl,good,?_⟩
      rw [record]
      exact received_nothing rested₁.2 rfl _
  | some data =>
      simp only [Option.map_some] at record ⊢
      refine wp_ite (fun empty => ⟨n,rfl,good,?_⟩) fun nonempty => ?_
      · rw [record]
        refine received_nothing rested₁.2 ?_ _
        rw [empty]
        rfl
      · have positive : 0 < len.toNat := (toNat_ne_zero _).mp nonempty
        have length : (s₂.1.mem.read data len.toNat).length = len.toNat := read_length _ _ _
        have proper : s₂.1.mem.read data len.toNat ≠ [] := List.ne_nil_of_length_pos (by omega)
        have faced : Faced n (s₂.1.mem.read data len.toNat) data s₂ := by
          refine ⟨good,⟨owned data rfl,by rw [length]⟩,?_⟩
          rw [record]
          exact received_some rested₁.2 proper _
        refine malloc_wp faced (fun s rested => ?_) fun hdr before s building => ?_
        · exact resting_op ⟨rfl,fun _ _ _ => rfl⟩ rested fun _ s rested => ⟨n,rfl,rested⟩
        · exact btTxPacket_wp length.symm (by rw [length]; exact small) building

-- The receive task does not notice Bluetooth transmission either.
def unseen (o : Op) : Prop := movesTxQue o = false ∧ ∀ t w ans d, t ≠ .btTx → follow t w o ans d = d

theorem unseen_keeps {o : Op} (sender : t ≠ .btTx) (calm : unseen o) : KeepsOp (contract cfg t) (fun _ => True) o := by
  refine fun s _ => ⟨trivial,fun r s' acted => ⟨?_,trivial⟩⟩
  have stepped := heaped_stepped acted
  obtain ⟨ans,ran,recorded⟩ := stepped.ran
  rw [calm.2 t s.1 ans s.2.2 sender] at recorded
  refine ⟨stepped.leaves,fun _ => ?_,fun _ => by rw [recorded],good_kept stepped.leaves ((exec_frame ran).txQue calm.1) ?_⟩
  all_goals
    rw [recorded]
    exact .refl _

theorem quiet_unseen {o : Op} (quiet : o.quiet = true) : unseen o := by
  refine ⟨?_,fun t w ans d sender => follow_calm sender (by rw [quiet]; rfl) w ans d⟩
  cases o <;> first | rfl | cases quiet

theorem plain_unseen {o : Op} (queue : movesTxQue o = false) (same : ∀ t w ans d, follow t w o ans d = d) : unseen o :=
  ⟨queue,fun t w ans d _ => same t w ans d⟩

theorem may_unseen {o : Op} (sender : t ≠ .btTx) (host : t ≠ .btHost) (may : mayIssue t o) : KeepsOp (contract cfg t) (fun _ => True) o :=
  fun _ _ => ⟨trivial,fun _ _ acted => ⟨other_moves sender host may acted,trivial⟩⟩

theorem targetOn_unseen (cfg : Build) : (parseTargetOn cfg).All unseen := by
  have note : ∀ n : Note, (n.sending 1 = true ∨ ∀ f p l, n ≠ .sendPacket f p l) → unseen (.note n) :=
    fun n wifi => plain_unseen rfl fun t w ans d => follow_note wifi w ans d
  have send := sendChipInit_all (P := unseen) (fun _ => quiet_unseen) (fun _ _ => plain_unseen rfl fun _ _ _ _ => rfl)
    (fun _ _ => plain_unseen rfl fun _ _ _ _ => rfl) (plain_unseen rfl fun _ _ _ _ => rfl) (plain_unseen rfl fun _ _ _ _ => rfl)
    (fun n sending => note n (.inl sending)) (fun _ _ _ _ => plain_unseen rfl fun _ _ _ _ => rfl)
    (fun _ => plain_unseen rfl fun _ _ _ _ => rfl) cfg
  unfold parseTargetOn
  simp only [Prog.bind_def,issue_bind,Prog.pure_def]
  refine ⟨quiet_unseen rfl,fun sip => Prog.All.ite (fun _ => ?_) fun _ => ⟨note _ (.inr fun _ _ _ same => by cases same),fun _ => trivial⟩⟩
  refine ⟨plain_unseen rfl fun _ _ _ _ => rfl,fun _ => Prog.All.bind send fun ret => ?_⟩
  exact Prog.All.ite (fun _ => ⟨plain_unseen rfl fun _ _ _ _ => rfl,fun _ => trivial⟩) fun _ => trivial

theorem recv_keeps (cfg : Build) : ReceiveKeeps cfg (contract cfg .transRecv) (fun _ => True) fun _ => True := by
  have recv : Task.transRecv ≠ .btTx ∧ Task.transRecv ≠ .btHost := by decide
  have calm : ∀ {p : Code EspErr}, p.All unseen → Keeps (contract cfg .transRecv) (fun _ => True) p :=
    fun all => (all.mono fun _ => unseen_keeps recv.1).keeps fun _ _ _ _ => trivial
  refine ⟨fun _ _ _ _ => trivial,fun _ _ _ _ => trivial,?_,?_,?_,?_,?_,?_⟩
  · exact may_unseen recv.1 recv.2 (.inr trivial)
  · exact may_unseen recv.1 recv.2 (.inr trivial)
  · exact fun _ own => may_unseen recv.1 recv.2 own.1
  · exact fun _ own _ => may_unseen recv.1 recv.2 own.1
  · refine events_keep (fun _ _ _ _ => trivial) (fun _ may _ _ => may_unseen recv.1 recv.2 may) (calm (targetOn_unseen cfg)) fun buf => ?_
    exact calm (parseBootup_all (fun _ => quiet_unseen) (plain_unseen rfl fun _ _ _ _ => rfl) (plain_unseen rfl fun _ _ _ _ => rfl)
      (plain_unseen rfl fun _ _ _ _ => rfl))
  · exact calm (handleIntr1Tohost_all (plain_unseen rfl fun _ _ _ _ => rfl) (plain_unseen rfl fun _ _ _ _ => rfl)
      (plain_unseen rfl fun _ _ _ _ => rfl) (plain_unseen rfl fun _ _ _ _ => rfl) (plain_unseen rfl fun _ _ _ _ => rfl))

theorem other_wp {p : Code Label} (sender : t ≠ .btTx) (host : t ≠ .btHost) (all : p.All (mayIssue t)) (s : State) :
    wp (contract cfg t) p (fun _ _ => True) s :=
  (all.mono fun _ => may_unseen sender host).keeps (fun _ _ _ _ => trivial) s trivial

end

def entry (t : Task) (l : Label) (s : State) : Prop := labelsOf t l ∧ (t = .btTx → Loops l s)

theorem block_wp (cfg : Build) {t : Task} {l : Label} {s : State} (here : entry t l s) :
    wp (contract cfg t) (block cfg l) (entry t) s := by
  obtain ⟨known,loops⟩ := here
  have aside : t ≠ .btTx → wp (contract cfg t) (block cfg l) (fun _ _ => True) s → wp (contract cfg t) (block cfg l) (entry t) s := by
    intro sender kept
    refine wp_mono (wp_returns (block_returns cfg known) kept) fun l s held => ⟨held.1,fun same => absurd same sender⟩
  cases t
  case btTx =>
    obtain ⟨n,rfl,rested⟩ := loops rfl
    refine wp_mono (btTxTask_wp rested) ?_
    rintro _ s ⟨m,rfl,rested⟩
    exact ⟨trivial,fun _ => ⟨m,rfl,rested⟩⟩
  case btHost =>
    cases l <;> first | exact False.elim known | skip
    exact wp_mono (btHost_wp s) fun l s known => ⟨known,fun same => by cases same⟩
  case transRecv =>
    refine aside (by decide) ?_
    cases l <;> first | exact False.elim known | skip
    · exact (recv_keeps cfg).task s trivial
    · exact trivial
  case wifiSend => exact aside (by decide) (other_wp (by decide) (by decide) (wifiSend_all cfg known) s)
  case appMain => exact aside (by decide) (other_wp (by decide) (by decide) (appMain_all cfg known) s)
  case wifiStack => exact aside (by decide) (other_wp (by decide) (by decide) (wifiStack_all cfg known) s)

def streamOutline (cfg : Build) : Outline (heaped cfg follow) where
  rely := Rests
  guar := Moves
  safe _ _ _ := True
  entry := entry
  transitive one two := one.trans two
  compatible other moves := moves.rests other
  surroundings := by
    rintro t ⟨w,d⟩ ⟨w',d'⟩ ⟨same,still⟩
    cases same
    cases still
    exact .refl t _
  stable := by
    rintro t l s s' ⟨known,loops⟩ moved
    refine ⟨known,fun here => ?_⟩
    subst here
    obtain ⟨n,rfl,rested⟩ := loops rfl
    exact ⟨n,rfl,resting_stable s s' rested moved⟩
  verified _ _ _ here := block_wp cfg here

-- The tasks stand at their first blocks, and nothing has been sent.
structure Ready (c : Config BtLink) : Prop where
  opened : Opened c
  sender : c.running .btTx = .pure (.btTxTask 0)
  queue : c.shared.1.txQue = []
  link : c.shared.2.2 = {}

theorem at_label {t : Task} {l : Label} {s : HeapBooks.State} (here : At t l s) : labelsOf t l := by
  obtain ⟨share,label,_⟩ := here
  cases t <;> cases l <;> trivial

theorem ready_good {c : Config BtLink} (ready : Ready c) : Good c.shared := by
  obtain ⟨l,_,share,_,has⟩ := ready.opened .transRecv
  refine ⟨has.inv,?_,?_⟩
  · rw [ready.link]
    rfl
  · rw [ready.queue,ready.link]
    exact .nil

theorem ready_holds (cfg : Build) {c : Config BtLink} (ready : Ready c) : (streamOutline cfg).Holds c := by
  refine (streamOutline cfg).holds_resting fun t => ?_
  obtain ⟨l,here,has⟩ := ready.opened t
  refine ⟨l,here,at_label has,fun sender => ?_⟩
  subst sender
  cases ready.sender.symm.trans here
  refine ⟨0,rfl,ready_good ready,?_⟩
  rw [ready.link]
  exact ⟨rfl,.slnil,rfl,.slnil,rfl⟩

theorem reached_good {cfg : Build} {start c : Config BtLink} (ready : Ready start) (path : Reached (heaped cfg follow) start c) :
    Good c.shared := by
  refine (streamOutline cfg).reached_keeps Rests.refl (fun t a b (good : Good a) moves => moves.good good) ?_ (ready_holds cfg ready)
    (ready_good ready) path
  rintro ⟨w,d⟩ ⟨w',d'⟩ good ⟨same,still⟩
  cases same
  cases still
  exact good

-- Between two packets, the slave has the accepted payloads in their order and
-- numbered through, each behind its header and as the host gave it. What is
-- missing of them is still in the queue, had no header or met a failed transfer.
theorem stream_delivered (cfg : Build) (start c : Config BtLink) (ready : Ready start) (path : Reached (recorded cfg follow) start c)
    (n : UInt32) (here : c.running .btTx = .pure (.btTxTask n)) :
    c.shared.2.2.accepted = c.shared.2.2.taken ++ c.shared.2.2.waiting ∧
    List.Forall₂ (Carries c.shared.1.mem) c.shared.1.txQue c.shared.2.2.waiting ∧
    c.shared.2.2.started.Sublist (payloads c.shared.2.2.taken) ∧
    (payloads c.shared.2.2.taken).length = c.shared.2.2.started.length + c.shared.2.2.unserved ∧
    c.shared.2.2.received.Sublist (c.shared.2.2.started.mapIdx frame) ∧
    c.shared.2.2.received.length + c.shared.2.2.failures = c.shared.2.2.started.length ∧
    n = UInt32.ofNat c.shared.2.2.started.length ∧
    (c.shared.2.2.unserved = 0 → c.shared.2.2.failures = 0 → c.shared.2.2.received = (payloads c.shared.2.2.taken).mapIdx frame) := by
  have heapPath := reached_heaped ready.opened path
  have good := reached_good ready heapPath
  have valid := (streamOutline cfg).reached_holds Rests.refl (ready_holds cfg ready) heapPath
  obtain ⟨_,loops⟩ := valid.entry here
  obtain ⟨m,same,_,head⟩ := loops rfl
  cases same
  refine ⟨good.history,good.queue,head.served,head.skipped,head.order,head.complete,head.seq,fun served passed => ?_⟩
  have skipped := head.skipped
  have complete := head.complete
  have all : c.shared.2.2.started = payloads c.shared.2.2.taken := head.served.eq_of_length (by omega)
  rw [← all]
  exact head.order.eq_of_length (by rw [List.length_mapIdx]; omega)

def servingStream : Config BtLink := ⟨(serving.shared.1,serving.shared.2,{}),serving.running⟩

theorem servingStream_ready : Ready servingStream := ⟨serving_opening,rfl,rfl,rfl⟩

-- Where no operation of `bt_tx_task` is under way, it is between two messages.
theorem pending_stands {cfg : Build} {start c : Config BtLink} (ready : Ready start) (path : Reached (recorded cfg follow) start c)
    (idle : c.pending .btTx = none) : ∃ n, c.running .btTx = .pure (.btTxTask n) := by
  have valid := (streamOutline cfg).reached_holds Rests.refl (ready_holds cfg ready) (reached_heaped ready.opened path)
  cases here : c.running .btTx with
  | op o next =>
      rw [pending_iff.mpr ⟨next,here⟩] at idle
      cases idle
  | pure l =>
      obtain ⟨_,loops⟩ := valid.entry here
      obtain ⟨n,rfl,_⟩ := loops rfl
      exact ⟨n,rfl⟩

-- The slave acknowledges a packet.
def acknowledging : List (Task × Ans) :=
  ([[],[],[],[0,0,0,0],[1,0,0,0],[],[],[],[1,0,0,0],[],[]] : List (List UInt8)).map fun data => (.transRecv,{data := data})

def sending : List (Task × Ans) := List.replicate 16 (.btTx,{flag := true})

def threeMessages : List (Task × Ans) :=
  List.replicate 5 (.btHost,{data := [7]}) ++ List.replicate 5 (.btHost,{data := [1,2,3]}) ++ List.replicate 5 (.btHost,{data := []}) ++
  sending ++ acknowledging ++ sending ++ acknowledging ++ List.replicate 3 (.btTx,{flag := true})

-- Of three messages the last one has no bytes.
theorem messages_delivered : ∃ c n, Reached (recorded ⟨true,true⟩ follow) servingStream c ∧ c.running .btTx = .pure (.btTxTask n) ∧
    c.shared.2.2.taken = [some [7],some [1,2,3],some []] ∧
    c.shared.2.2.received = [[9,0,0,0,0,0,0,0,7],[11,0,0,0,1,0,0,0,1,2,3]] ∧
    c.shared.2.2.received = (payloads c.shared.2.2.taken).mapIdx frame := by
  have passed : (schedule (block ⟨true,true⟩) (beside follow).exec threeMessages servingStream).any (fun c =>
      c.pending .btTx = none && c.shared.2.2.taken = [some [7],some [1,2,3],some []] &&
        c.shared.2.2.received = [[9,0,0,0,0,0,0,0,7],[11,0,0,0,1,0,0,0,1,2,3]] &&
        c.shared.2.2.unserved = 0 && c.shared.2.2.failures = 0) = true := by decide +kernel
  obtain ⟨c,path,ends⟩ := schedule_exists (m := recorded ⟨true,true⟩ follow) (fun _ _ ans _ _ _ ran => ⟨ans,ran⟩) _ passed
  simp only [Bool.and_eq_true,decide_eq_true_eq] at ends
  obtain ⟨⟨⟨⟨idle,taken⟩,received⟩,served⟩,passed⟩ := ends
  obtain ⟨n,here⟩ := pending_stands servingStream_ready path idle
  obtain ⟨_,_,_,_,_,_,_,whole⟩ := stream_delivered ⟨true,true⟩ servingStream c servingStream_ready path n here
  exact ⟨c,n,path,here,taken,received,whole served passed⟩

end ExtConn.BtStream
