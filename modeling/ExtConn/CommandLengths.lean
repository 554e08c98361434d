import ExtConn.Sequential
import ExtConn.System

namespace ExtConn.CommandLengths
open Effects ByteMemory ExtConn.Sequential

-- A packet when it is queued or handed to the bus: the size of its block, its header
-- and what is in the block.
structure Built where
  size : Option Nat
  header : List UInt8
  content : Nat → UInt8

-- What a call has done: whether an allocation was refused, whether every store
-- into the block it allocated was inside, and the packets it has let go.
structure Account where
  refused : Bool
  inside : Bool
  built : List Built

def storedInside (own : Nat) (w : World) (p : Ptr) (n : Nat) : Bool :=
  p.blk ≠ own || (w.blocks own).any fun size => p.off + n ≤ size

def account (own : Nat) : Slave Account where
  answers _ w o ans d := match o with
    | .calloc _ => some {d with refused := d.refused || !ans.flag}
    | .esfBufAlloc .. => some {d with refused := d.refused || ans.num = nullEb}
    | .store p bytes => some {d with inside := d.inside && storedInside own w p bytes.length}
    | .listInsert _ | .listHeadInsert _ | .note (.sendPacket ..) =>
      some {d with built := d.built ++ [⟨w.blocks own,w.mem.read ⟨own,0⟩ sizeofSipHdr,w.mem own⟩]}
    | _ => some d
  moves _ _ := True

abbrev State := World × Account

-- The two encoders; `cmd` of the second stands for the bytes at its pointer.
inductive Encoder where
  | wifiSendCmd (cid cmdlen : UInt32) (cmd : Option Ptr)
  | espSipSendCmd (cid cmdlen : UInt32) (cmd : List UInt8) (length : cmd.length = cmdlen.toNat)

namespace Encoder

def code : Encoder → Code EspErr
  | wifiSendCmd cid cmdlen cmd => ExtConn.wifiSendCmd cid cmdlen cmd
  | espSipSendCmd cid cmdlen cmd _ => ExtConn.espSipSendCmd cid cmdlen cmd

def cmdlen : Encoder → Nat
  | wifiSendCmd _ cmdlen _ => cmdlen.toNat
  | espSipSendCmd _ cmdlen _ _ => cmdlen.toNat

-- The arguments, where there are any and their block is there before the call.
def arguments (w : World) : Encoder → Option (List UInt8)
  | wifiSendCmd _ cmdlen (some p) => if p.blk < w.fresh then some (w.mem.read p cmdlen.toNat) else none
  | wifiSendCmd _ _ none => none
  | espSipSendCmd _ _ cmd _ => some cmd

end Encoder

def Built.payload (p : Built) (n : Nat) : List UInt8 := (List.range n).map fun i => p.content (12 + i)

structure Whole (cmdlen : Nat) (args : Option (List UInt8)) (p : Built) : Prop where
  size : ∃ k, p.size = some k ∧ 12 + cmdlen ≤ k
  len : (sipHdrOf p.header).len.toNat = 12 + cmdlen
  payload : ∀ bytes, args = some bytes → p.payload cmdlen = bytes

-- An error and no packet, or packets as long as they say, with the arguments and
-- nothing beside them.
def Untruncated (cmdlen : Nat) (args : Option (List UInt8)) (ret : EspErr) (d : Account) : Prop :=
  (ret ≠ .ok ∧ d.built = []) ∨ (d.built ≠ [] ∧ d.inside = true ∧ ∀ p ∈ d.built, Whole cmdlen args p)

def encodedLen (cmdlen : UInt32) : UInt16 := (cmdlen + sipCtrlHdrLen).toUInt16

theorem encodedLen_toNat (cmdlen : UInt32) : (encodedLen cmdlen).toNat = (cmdlen.toNat + 12) % 2 ^ 16 := by
  have twelve : sipCtrlHdrLen.toNat = 12 := rfl
  rw [encodedLen,UInt32.toNat_toUInt16,UInt32.toNat_add,twelve]
  omega

-- The block of the packet while it is filled; `set` once its length field is, and
-- `held` are the arguments once they are copied. The other memory is still `m`.
structure Filling (own : Nat) (len : UInt16) (fits : Prop) (m : Mem) (held : List UInt8) (set : Bool) (s : State) : Prop where
  size : s.1.blocks own = some len.toNat
  others : ∀ p n, p.blk ≠ own → s.1.mem.read p n = m.read p n
  content : s.1.mem.read ((⟨own,0⟩ : Ptr).add 12) held.length = held
  field : set = true → s.1.mem.read ((⟨own,0⟩ : Ptr).add 2) 2 = leBytes 2 len.toNat
  granted : s.2.refused = false
  none : s.2.built = []
  inside : fits → s.2.inside = true

-- The packet has been let go.
structure Gone (len : UInt16) (fits : Prop) (held : List UInt8) (d : Account) : Prop where
  granted : d.refused = false
  built : ∃ p, d.built = [p] ∧ p.size = some len.toNat ∧ (sipHdrOf p.header).len = len ∧ p.payload held.length = held
  inside : fits → d.inside = true

section
variable {t : Task} {own : Nat} {len : UInt16} {fits : Prop} {m : Mem} {held : List UInt8} {set : Bool} {s : State}

theorem filling_stable (s s' : State) (filling : Filling own len fits m held set s) (same : s = s') : Filling own len fits m held set s' := same ▸ filling

theorem stored_inside {w : World} {k n : Nat} (size : w.blocks own = some len.toNat) (bound : k + n ≤ len.toNat) :
    storedInside own w ((⟨own,0⟩ : Ptr).add k) n = true := by
  simpa [storedInside,size] using bound

-- A store beside the length field, in front of the arguments.
theorem filling_store {k : Nat} {bytes : List UInt8} (bound : fits → k + bytes.length ≤ len.toNat)
    (beside : set = true → 4 ≤ k ∨ k + bytes.length ≤ 2) (front : k + bytes.length ≤ 12) :
    KeepsOp (alone (account own) t) (Filling own len fits m held set) (.store ((⟨own,0⟩ : Ptr).add k) bytes) := by
  intro s filling
  refine ⟨trivial,fun r s' acted => ⟨trivial,?_⟩⟩
  obtain ⟨w,d⟩ := s
  obtain ⟨w',d'⟩ := s'
  obtain ⟨ans,ran,answered⟩ := act_iff.mp acted
  cases ran
  cases answered
  refine ⟨filling.size,fun p n other => (read_write_other _ _ _ _ (.inl other)).trans (filling.others p n other),?_,fun ready => ?_,filling.granted,
    filling.none,fun fit => ?_⟩
  · have apart : (Ptr.add ⟨own,0⟩ k).off + bytes.length ≤ (Ptr.add ⟨own,0⟩ 12).off := by
      simp only [Ptr.add_off]
      omega
    exact (read_write_other _ _ _ _ (.inr (.inr apart))).trans filling.content
  · show (w.mem.write ((⟨own,0⟩ : Ptr).add k) bytes).read ((⟨own,0⟩ : Ptr).add 2) 2 = _
    have apart : (Ptr.add ⟨own,0⟩ 2).off + 2 ≤ (Ptr.add ⟨own,0⟩ k).off ∨
        (Ptr.add ⟨own,0⟩ k).off + bytes.length ≤ (Ptr.add ⟨own,0⟩ 2).off := by
      simp only [Ptr.add_off]
      cases beside ready with
      | inl above =>
          left
          omega
      | inr below =>
          right
          omega
    rw [read_write_other _ _ _ _ (.inr apart)]
    exact filling.field ready
  · show (d.inside && storedInside own w ((⟨own,0⟩ : Ptr).add k) bytes.length) = true
    rw [stored_inside filling.size (bound fit),filling.inside fit]
    rfl

theorem early_store {k : Nat} {bytes : List UInt8} (bound : fits → 12 ≤ len.toNat) (less : k + bytes.length ≤ 12) :
    KeepsOp (alone (account own) t) (Filling own len fits m held false) (.store ((⟨own,0⟩ : Ptr).add k) bytes) :=
  filling_store (fun fit => Nat.le_trans less (bound fit)) nofun less

theorem late_store {k : Nat} {bytes : List UInt8} (bound : fits → 12 ≤ len.toNat) (above : 4 ≤ k) (less : k + bytes.length ≤ 12) :
    KeepsOp (alone (account own) t) (Filling own len fits m held true) (.store ((⟨own,0⟩ : Ptr).add k) bytes) :=
  filling_store (fun fit => Nat.le_trans less (bound fit)) (fun _ => .inl above) less

theorem filling_len (bound : fits → 12 ≤ len.toNat) : LeadsOp (alone (account own) t) (Filling own len fits m held false) (Filling own len fits m held true)
    (.store ((⟨own,0⟩ : Ptr).add 2) (leBytes 2 len.toNat)) := by
  intro s filling
  refine ⟨trivial,fun r s' acted => ⟨trivial,?_⟩⟩
  obtain ⟨w,d⟩ := s
  obtain ⟨w',d'⟩ := s'
  obtain ⟨ans,ran,answered⟩ := act_iff.mp acted
  cases ran
  cases answered
  refine ⟨filling.size,fun p n other => (read_write_other _ _ _ _ (.inl other)).trans (filling.others p n other),?_,
    fun _ => read_back _ _ _ (leBytes_length 2 _),filling.granted,filling.none,fun fit => ?_⟩
  · exact (read_write_other _ _ _ _ (.inr (.inr (by rw [leBytes_length]; exact Nat.le_of_ble_eq_true rfl)))).trans filling.content
  show (d.inside && storedInside own w ((⟨own,0⟩ : Ptr).add 2) (leBytes 2 len.toNat).length) = true
  rw [leBytes_length,stored_inside filling.size (Nat.le_trans (Nat.le_of_ble_eq_true rfl) (bound fit)),filling.inside fit]
  rfl

-- Operations that leave memory and the account alone.
def plain : Op → Bool
  | .load .. | .derefNull _ | .esfGet _ | .sipGet | .sipSet _ | .semTake .sdioMutex _ | .unspecified _ | .listClear
  | .note (.sipCmd _) => true
  | _ => false

theorem filling_plain {o : Op} (here : plain o = true) : KeepsOp (alone (account own) t) (Filling own len fits m held set) o := by
  intro s filling
  refine ⟨trivial,fun r s' acted => ⟨trivial,?_⟩⟩
  obtain ⟨w,d⟩ := s
  obtain ⟨w',d'⟩ := s'
  obtain ⟨ans,ran,answered⟩ := act_iff.mp acted
  have same : d' = d ∧ w'.blocks = w.blocks ∧ w'.mem = w.mem := by
    cases o
    case semTake sem wait =>
      cases sem
      case sdioMutex =>
        cases answered
        simp only [World.exec] at ran
        split at ran
        · cases ran
          exact ⟨rfl,rfl,rfl⟩
        · cases ran
      all_goals cases here
    case unspecified | derefNull =>
      cases answered
      simp only [World.exec] at ran
      split at ran
      · cases ran
        exact ⟨rfl,rfl,rfl⟩
      · cases ran
    case listClear =>
      cases answered
      obtain ⟨_,_,same⟩ := Option.map_eq_some_iff.mp ran
      cases same
      exact ⟨rfl,rfl,rfl⟩
    case note n =>
      cases n
      case sipCmd =>
        cases answered
        cases ran
        exact ⟨rfl,rfl,rfl⟩
      all_goals cases here
    case load | esfGet | sipGet | sipSet =>
      cases answered
      cases ran
      exact ⟨rfl,rfl,rfl⟩
    all_goals cases here
  obtain ⟨rfl,blocks,mem⟩ := same
  constructor
  · rw [blocks]
    exact filling.size
  · rw [mem]
    exact filling.others
  · rw [mem]
    exact filling.content
  · rw [mem]
    exact filling.field
  · exact filling.granted
  · exact filling.none
  · exact filling.inside

-- The packet is queued or handed over.
theorem filling_gone {w : World} {d : Account} (filling : Filling own len fits m held true (w,d)) :
    Gone len fits held {d with built := d.built ++ [⟨w.blocks own,w.mem.read ⟨own,0⟩ sizeofSipHdr,w.mem own⟩]} := by
  let p : Built := ⟨w.blocks own,w.mem.read ⟨own,0⟩ sizeofSipHdr,w.mem own⟩
  have alone : d.built ++ [p] = [p] := by
    rw [filling.none]
    rfl
  have kept : p.payload held.length = w.mem.read ((⟨own,0⟩ : Ptr).add 12) held.length := rfl
  refine ⟨filling.granted,⟨p,alone,filling.size,?_,kept.trans filling.content⟩,filling.inside⟩
  · show UInt16.ofNat (field (w.mem.read ⟨own,0⟩ 12) 2 2) = len
    rw [field_read w.mem _ (by decide),filling.field rfl,leNat_leBytes]
    apply UInt16.toNat_inj.mp
    rw [UInt16.toNat_ofNat']
    have bound := len.toNat_lt
    omega

theorem gone_op {o : Op} (records : ∀ w ans d, (account own).answers t w o ans d =
      some {d with built := d.built ++ [⟨w.blocks own,w.mem.read ⟨own,0⟩ sizeofSipHdr,w.mem own⟩]}) :
    LeadsOp (alone (account own) t) (Filling own len fits m held true) (fun s => Gone len fits held s.2) o := by
  intro s filling
  refine ⟨trivial,fun r s' acted => ⟨trivial,?_⟩⟩
  obtain ⟨w,d⟩ := s
  obtain ⟨w',d'⟩ := s'
  obtain ⟨ans,_,answered⟩ := act_iff.mp acted
  cases (records w ans d).symm.trans answered
  exact filling_gone filling

-- What comes behind is not accounted for.
def unaccounted : Op → Bool
  | .calloc _ | .esfBufAlloc .. | .store .. | .listInsert _ | .listHeadInsert _ | .note (.sendPacket ..) => false
  | _ => true

theorem gone_keeps {p : Code α} (all : p.All (unaccounted · = true)) : Keeps (alone (account own) t) (fun s => Gone len fits held s.2) p := by
  apply (all.mono ?_).keeps
  · exact fun _ _ gone same => same ▸ gone
  · intro o here s gone
    refine ⟨trivial,fun r s' acted => ⟨trivial,?_⟩⟩
    obtain ⟨w,d⟩ := s
    obtain ⟨w',d'⟩ := s'
    obtain ⟨ans,ran,answered⟩ := act_iff.mp acted
    have same : d' = d := by
      cases o
      case note n =>
        cases n
        case sendPacket => cases here
        all_goals
          cases answered
          rfl
      case calloc | esfBufAlloc | store | listInsert | listHeadInsert => cases here
      all_goals
        cases answered
        rfl
    rw [same]
    exact gone

-- The arguments are stored.
theorem filling_held {bytes : List UInt8} (bound : fits → 12 + bytes.length ≤ len.toNat) :
    LeadsOp (alone (account own) t) (Filling own len fits m held true) (Filling own len fits m bytes true)
      (.store ((⟨own,0⟩ : Ptr).add 12) bytes) := by
  intro s filling
  refine ⟨trivial,fun r s' acted => ⟨trivial,?_⟩⟩
  obtain ⟨w,d⟩ := s
  obtain ⟨w',d'⟩ := s'
  obtain ⟨ans,ran,answered⟩ := act_iff.mp acted
  cases ran
  cases answered
  refine ⟨filling.size,fun p n other => (read_write_other _ _ _ _ (.inl other)).trans (filling.others p n other),read_back _ _ _ rfl,fun _ => ?_,
    filling.granted,filling.none,fun fit => ?_⟩
  · exact (read_write_other _ _ _ _ (.inr (.inl (Nat.le_of_ble_eq_true rfl)))).trans (filling.field rfl)
  · show (d.inside && storedInside own w ((⟨own,0⟩ : Ptr).add 12) bytes.length) = true
    rw [stored_inside filling.size (bound fit),filling.inside fit]
    rfl

-- The copy stores what it loads.
theorem copy_leads {src : Ptr} {n : Nat} (bound : fits → 12 + n ≤ len.toNat) :
    ∀ s, Filling own len fits m [] true s → wp (alone (account own) t) (memcpy ((⟨own,0⟩ : Ptr).add 12) src n)
      (fun _ => Filling own len fits m (s.1.mem.read src n) true) s := by
  intro s filling
  unfold memcpy
  simp only [Prog.bind_def,issue_bind]
  apply alone_op
  intro ans bytes w d ran answered
  cases ran
  cases answered
  have store : LeadsOp (alone (account own) t) (Filling own len fits m [] true) (Filling own len fits m (s.1.mem.read src n) true)
      (.store ((⟨own,0⟩ : Ptr).add 12) (s.1.mem.read src n)) := by
    apply filling_held
    rw [read_length]
    exact bound
  exact leads_op filling_stable store (fun _ => keeps_pure _) _ filling

-- What the copy puts into the packet of a command: nothing without arguments.
def copied (m : Mem) (own : Nat) (cmdlen : UInt32) : Option Ptr → List UInt8 → Prop
  | none,held => held = []
  | some p,held => p.blk < own → held = m.read p cmdlen.toNat

theorem copyCmd_copies {cmdlen : UInt32} (cmd : Option Ptr) (bound : fits → 12 + cmdlen.toNat ≤ len.toNat)
    (filling : Filling own len fits m [] true s) : wp (alone (account own) t) (wifiCopyCmd ⟨own,0⟩ cmdlen cmd)
      (fun _ s => ∃ held, copied m own cmdlen cmd held ∧ Filling own len fits m held true s) s := by
  cases cmd with
  | none => exact ⟨[],rfl,filling⟩
  | some src =>
      refine wp_mono (copy_leads bound s filling) fun _ s' held => ⟨_,fun before => ?_,held⟩
      exact filling.others src _ (Nat.ne_of_lt before)

theorem clearStale_keeps (cid : UInt32) (cmd : Option Ptr) :
    Keeps (alone (account own) t) (Filling own len fits m held set) (wifiClearStale cid cmd) := by
  have all : (wifiClearStale cid cmd).All (plain · = true) := by
    unfold wifiClearStale loadSet
    apply Prog.All.ite
    · intro _
      cases cmd with
      | none => exact ⟨rfl,fun _ => Prog.All.ite (fun _ => ⟨rfl,fun _ => trivial⟩) fun _ => trivial⟩
      | some src => exact ⟨rfl,fun _ => Prog.All.ite (fun _ => ⟨rfl,fun _ => trivial⟩) fun _ => trivial⟩
    · exact fun _ => trivial
  exact (all.mono fun _ here => filling_plain here).keeps filling_stable

-- How a call ends.
def Outcome (len : UInt16) (fits : Prop) (held : List UInt8 → Prop) (ret : EspErr) (d : Account) : Prop :=
  (d.refused = true ∧ ret ≠ .ok ∧ d.built = []) ∨ ∃ bytes, held bytes ∧ Gone len fits bytes d

theorem inside_len {cmdlen : UInt32} (k n : Nat) (less : k + n ≤ 12 + cmdlen.toNat) (fit : cmdlen.toNat + 12 < 2 ^ 16) :
    k + n ≤ (encodedLen cmdlen).toNat := by
  rw [encodedLen_toNat]
  omega

theorem wifiSendCmd_outcome {w : World} {cid cmdlen : UInt32} {cmd : Option Ptr} :
    wp (alone (account w.fresh) t) (wifiSendCmd cid cmdlen cmd) (fun ret s => Outcome (encodedLen cmdlen)
      (cmdlen.toNat + 12 < 2 ^ 16) (copied w.mem w.fresh cmdlen cmd) ret s.2) (w,⟨false,true,[]⟩) := by
  have header := @inside_len cmdlen 12 0 (Nat.le_add_right 12 _)
  unfold wifiSendCmd sipHdrSetType sipHdrSetLen sipHdrSetCmdid
  simp only [Prog.bind_def,issue_bind,Prog.op_bind,Prog.pure_def]
  apply alone_op
  intro ans eb w₀ d ran answered
  cases answered
  by_cases null : ans.num = nullEb
  · simp only [World.exec,if_pos null] at ran
    cases ran
    rw [if_pos rfl]
    exact .inl ⟨by simp [null],(fun wrong => by cases wrong),rfl⟩
  · simp only [World.exec,if_neg null] at ran
    cases ran
    rw [if_neg null]
    let b : EsfBuf := {w.esf ans.num with
      type := if cid = sipCmdTest then esfBufTxSipTest else esfBufTxSip,bufBegin := ⟨w.fresh,0⟩,dataLen := encodedLen cmdlen}
    let w₁ : World := {(w.alloc (encodedLen cmdlen).toUInt32).2 with esf := Function.update w.esf ans.num b}
    let d₁ : Account := ⟨false || decide (ans.num = nullEb),true,[]⟩
    have fine : d₁ = ⟨false,true,[]⟩ := by
      show (⟨false || decide (ans.num = nullEb),true,[]⟩ : Account) = _
      rw [decide_eq_false null]
      rfl
    show wp _ _ _ (w₁,d₁)
    rw [fine]
    have fetched : w₁.esf ans.num = b := Function.update_self ..
    have start : Filling w.fresh (encodedLen cmdlen) (cmdlen.toNat + 12 < 2 ^ 16) w.mem [] false ((w₁,⟨false,true,[]⟩) : State) := by
      refine ⟨?_,fun _ _ _ => rfl,rfl,(fun wrong => by cases wrong),rfl,rfl,fun _ => rfl⟩
      exact (Function.update_self ..).trans (congrArg some (UInt16.toNat_toUInt32 _))
    apply alone_exec (fun _ => rfl) (fun _ => rfl)
    rw [fetched]
    have insert (held : List UInt8) : Leads (alone (account w.fresh) t)
        (Filling w.fresh (encodedLen cmdlen) (cmdlen.toNat + 12 < 2 ^ 16) w.mem held true)
        (fun s => Gone (encodedLen cmdlen) (cmdlen.toNat + 12 < 2 ^ 16) held s.2)
        (if cid = sipCmdTest then issue (.listHeadInsert ans.num) else issue (.listInsert ans.num) : Code EspErr) := by
      apply Leads.ite
      · exact leads_op filling_stable (gone_op fun _ _ _ => rfl) fun _ => keeps_pure _
      · exact leads_op filling_stable (gone_op fun _ _ _ => rfl) fun _ => keeps_pure _
    have zeros : KeepsOp (alone (account w.fresh) t) (Filling w.fresh (encodedLen cmdlen) (cmdlen.toNat + 12 < 2 ^ 16) w.mem [] false)
      (.store ((⟨w.fresh,0⟩ : Ptr).add 0) (List.replicate sizeofSipHdr 0)) := early_store header (Nat.le_refl 12)
    apply wp_mono _ fun ret s gone => .inr gone
    refine leads_op filling_stable zeros (fun _ => ?_) _ start
    refine leads_op filling_stable (filling_plain rfl) fun fc0 => ?_
    refine leads_op filling_stable (early_store (k := 0) header (Nat.le_of_ble_eq_true rfl)) fun _ => ?_
    refine leads_op filling_stable (filling_len header) fun _ => ?_
    refine leads_op filling_stable (late_store (k := 4) header (Nat.le_refl 4) (Nat.le_of_ble_eq_true rfl)) fun _ => ?_
    refine Leads.bind (fun s filling => copyCmd_copies cmd (inside_len _ _ (Nat.le_refl _)) filling) fun _ => ?_
    rintro s ⟨held,copies,filling⟩
    exact wp_mono ((clearStale_keeps cid cmd).bind (fun _ => insert held) s filling) fun _ s' gone => ⟨held,copies,gone⟩

theorem handOver_leads {buffer : Ptr} {length : UInt32} :
    Leads (alone (account own) t) (Filling own len fits m held true) (fun s => Gone len fits held s.2)
      (.op (.semTake .sdioMutex none) fun _ => (espExtconnSdioSendPacket 1 buffer length).bind fun err =>
        .op (.semGive .sdioMutex) fun _ => .op (.free buffer) fun _ => (.pure err : Code EspErr)) := by
  rw [sendPacket_eq]
  refine leads_op filling_stable (filling_plain rfl) fun taken => ?_
  refine leads_op filling_stable (gone_op fun _ _ _ => rfl) fun _ => ?_
  have sending : (sendPacketRest 1 buffer length).All fun o => unaccounted o = true :=
    sendPacketRest_all (P := fun o => unaccounted o = true) (fun _ _ _ => rfl) rfl rfl (fun _ _ => rfl) buffer
  exact gone_keeps (Prog.All.bind sending fun err => ⟨rfl,fun _ => ⟨rfl,fun _ => trivial⟩⟩)

theorem espSipSendCmdBuffer_leads {cid : UInt32} {cmd : List UInt8} (room : fits → 12 + cmd.length ≤ len.toNat) :
    Leads (alone (account own) t) (Filling own len fits m [] false) (fun s => Gone len fits cmd s.2)
      (espSipSendCmdBuffer cid len cmd ⟨own,0⟩) := by
  have least (fit : fits) : 12 ≤ len.toNat := Nat.le_trans (Nat.le_add_right 12 _) (room fit)
  have rest : Leads (alone (account own) t) (Filling own len fits m [] true) (fun s => Gone len fits cmd s.2)
      (sendFilled ⟨own,0⟩ cmd len.toUInt32) := by
    have seq : KeepsOp (alone (account own) t) (Filling own len fits m [] true) (.store ((⟨own,0⟩ : Ptr).add 8) (le32 0)) :=
      late_store least (Nat.le_of_ble_eq_true rfl) (Nat.le_of_ble_eq_true rfl)
    exact leads_op filling_stable seq fun _ => leads_op filling_stable (filling_held room) fun _ => handOver_leads
  rw [sendCmdBuffer_eq]
  have zeros : KeepsOp (alone (account own) t) (Filling own len fits m [] false)
    (.store ((⟨own,0⟩ : Ptr).add 0) (List.replicate sizeofSipHdr 0)) := early_store least (Nat.le_refl 12)
  refine leads_op filling_stable zeros fun _ => ?_
  refine leads_op filling_stable (filling_plain rfl) fun fc0 => ?_
  refine leads_op filling_stable (early_store (k := 0) least (Nat.le_of_ble_eq_true rfl)) fun _ => ?_
  refine leads_op filling_stable (filling_plain rfl) fun fc1 => ?_
  refine leads_op filling_stable (early_store (k := 1) least (Nat.le_of_ble_eq_true rfl)) fun _ => ?_
  refine leads_op filling_stable (filling_len least) fun _ => ?_
  have cmdid : KeepsOp (alone (account own) t) (Filling own len fits m [] true) (.store ((⟨own,0⟩ : Ptr).add 4) (le32 cid)) :=
    late_store least (Nat.le_refl 4) (Nat.le_of_ble_eq_true rfl)
  refine leads_op filling_stable cmdid fun _ => ?_
  apply Leads.ite
  · refine leads_op filling_stable (filling_plain rfl) fun _ => ?_
    exact leads_op filling_stable (filling_plain rfl) fun _ => rest
  · apply Leads.ite
    · refine leads_op filling_stable (filling_plain rfl) fun sip => ?_
      exact leads_op filling_stable (filling_plain rfl) fun _ => rest
    · exact rest

theorem espSipSendCmd_outcome {w : World} {cid cmdlen : UInt32} {cmd : List UInt8} (length : cmd.length = cmdlen.toNat) :
    wp (alone (account w.fresh) t) (espSipSendCmd cid cmdlen cmd)
      (fun ret s => Outcome (encodedLen cmdlen) (cmdlen.toNat + 12 < 2 ^ 16) (· = cmd) ret s.2) (w,⟨false,true,[]⟩) := by
  unfold espSipSendCmd
  simp only [Prog.bind_def,issue_bind]
  apply alone_exec (fun _ => rfl) (fun _ => rfl)
  apply alone_op
  intro ans buffer w₀ d ran answered
  cases answered
  by_cases granted : ans.flag = true
  · simp only [World.exec,if_pos granted] at ran
    cases ran
    have fine : (⟨false || !ans.flag,true,[]⟩ : Account) = ⟨false,true,[]⟩ := by
      rw [granted]
      rfl
    let zeroed := w.mem.write ⟨w.fresh,0⟩ (List.replicate (encodedLen cmdlen).toUInt32.toNat 0)
    have start : Filling w.fresh (encodedLen cmdlen) (cmdlen.toNat + 12 < 2 ^ 16) zeroed [] false
        (({(w.alloc (encodedLen cmdlen).toUInt32).2 with mem := zeroed},⟨false || !ans.flag,true,[]⟩) : State) := by
      rw [fine]
      refine ⟨?_,fun _ _ _ => rfl,rfl,(fun wrong => by cases wrong),rfl,rfl,fun _ => rfl⟩
      exact (Function.update_self ..).trans (congrArg some (UInt16.toNat_toUInt32 _))
    have room (fit : cmdlen.toNat + 12 < 2 ^ 16) : 12 + cmd.length ≤ (encodedLen cmdlen).toNat := by
      rw [length]
      exact inside_len _ _ (Nat.le_refl _) fit
    exact wp_mono (espSipSendCmdBuffer_leads room _ start) fun ret s gone => .inr ⟨cmd,rfl,gone⟩
  · simp only [World.exec,if_neg granted] at ran
    cases ran
    refine .inl ⟨?_,(fun wrong => by cases wrong),rfl⟩
    simp [granted]

theorem gone_iff {n : Nat} {args : Option (List UInt8)} {ret : EspErr} {d : Account} (gone : Gone len fits held d)
    (given : ∀ bytes, args = some bytes → bytes = held ∧ bytes.length = n) (fit : fits ↔ n + 12 < 2 ^ 16)
    (same : len.toNat = (n + 12) % 2 ^ 16) : Untruncated n args ret d ↔ n + 12 < 2 ^ 16 := by
  obtain ⟨p,built,size,field,payload⟩ := gone.built
  constructor
  · intro untruncated
    cases untruncated with
    | inl none => exact absurd (none.2.symm.trans built) nofun
    | inr sent =>
        obtain ⟨_,_,whole⟩ := sent
        obtain ⟨k,known,room⟩ := (whole p (by rw [built]; exact List.mem_singleton_self _)).size
        cases known.symm.trans size
        have bound := len.toNat_lt
        omega
  · intro short
    refine .inr ⟨by rw [built]; exact List.cons_ne_nil _ _,gone.inside (fit.mpr short),fun q one => ?_⟩
    rw [built,List.mem_singleton] at one
    subst one
    refine ⟨⟨_,size,?_⟩,?_,fun bytes here => ?_⟩
    · omega
    · rw [field]
      omega
    · obtain ⟨rfl,rfl⟩ := given bytes here
      exact payload

theorem outcome_iff {cmdlen : UInt32} {args : Option (List UInt8)} {copies : List UInt8 → Prop} {ret : EspErr} {d : Account}
    (outcome : Outcome (encodedLen cmdlen) (cmdlen.toNat + 12 < 2 ^ 16) copies ret d)
    (given : ∀ held, copies held → ∀ bytes, args = some bytes → bytes = held ∧ bytes.length = cmdlen.toNat) :
    Untruncated cmdlen.toNat args ret d ↔ cmdlen.toNat + 12 < 2 ^ 16 ∨ d.refused = true := by
  cases outcome with
  | inl refused =>
      obtain ⟨flag,failed,none⟩ := refused
      exact ⟨fun _ => .inr flag,fun _ => .inl ⟨failed,none⟩⟩
  | inr sent =>
      obtain ⟨held,copied,gone⟩ := sent
      rw [gone_iff gone (given held copied) Iff.rfl (encodedLen_toNat cmdlen)]
      constructor
      · exact .inl
      · intro either
        cases either with
        | inl short => exact short
        | inr flag => exact absurd (gone.granted.symm.trans flag) nofun

end

theorem arguments_copied {w : World} {cid cmdlen : UInt32} {cmd : Option Ptr} {held bytes : List UInt8}
    (copies : copied w.mem w.fresh cmdlen cmd held) (here : (Encoder.wifiSendCmd cid cmdlen cmd).arguments w = some bytes) : bytes = held ∧ bytes.length = cmdlen.toNat := by
  cases cmd with
  | none => cases here
  | some src =>
      simp only [Encoder.arguments] at here
      split at here
      case isTrue before =>
        cases here
        exact ⟨(copies before).symm,read_length ..⟩
      case isFalse => cases here

theorem untruncated_iff {t : Task} {e : Encoder} {w : World} {trace : List Op} {ret : EspErr} {s' : State}
    (run : Runs Eq ((account w.fresh).act t) e.code (w,⟨false,true,[]⟩) trace ret s') :
    Untruncated e.cmdlen (e.arguments w) ret s'.2 ↔ e.cmdlen + 12 < 2 ^ 16 ∨ s'.2.refused = true := by
  cases e with
  | wifiSendCmd cid cmdlen cmd =>
      exact outcome_iff (alone_runs wifiSendCmd_outcome run) fun _ copies _ here => arguments_copied copies here
  | espSipSendCmd cid cmdlen cmd length =>
      refine outcome_iff (alone_runs (espSipSendCmd_outcome length) run) ?_
      rintro held rfl bytes here
      cases here
      exact ⟨rfl,length⟩

-- Block 1 holds the arguments.
def handed : World := {World.initial espSipInit with
  mem := fun _ i => UInt8.ofNat i,blocks := Function.update (World.initial espSipInit).blocks 1 (some 65524),fresh := 2}
def grants : List Ans := List.replicate 40 {num := 1,flag := true}

theorem long_arguments_untruncated : ∃ trace ret s', Runs Eq ((account handed.fresh).act .wifiStack)
    (Encoder.wifiSendCmd 9 65523 (some ⟨1,0⟩)).code (handed,⟨false,true,[]⟩) trace ret s' ∧ s'.2.built ≠ [] ∧
    Untruncated 65523 (some (handed.mem.read ⟨1,0⟩ 65523)) ret s'.2 := by
  let e := Encoder.wifiSendCmd 9 65523 (some ⟨1,0⟩)
  obtain ⟨trace,ret,s',run,sent⟩ := slave_executes (account handed.fresh) .wifiStack (fun s => (rfl : s = s)) e.code grants
    (handed,⟨false,true,[]⟩) (fun _ s => s.2.built.length = 1) (by decide +kernel)
  have fits : e.cmdlen + 12 < 2 ^ 16 := by decide
  have before : (⟨1,0⟩ : Ptr).blk < handed.fresh := Nat.lt_succ_self 1
  have here : e.arguments handed = some (handed.mem.read ⟨1,0⟩ 65523) := if_pos (e := none) before
  refine ⟨trace,ret,s',run,?_,?_⟩
  · intro none
    rw [none] at sent
    cases sent
  · rw [← here]
    exact (untruncated_iff run).mpr (.inl fits)

theorem longer_arguments_truncated : ¬ ∀ (t : Task) (e : Encoder) (w : World) (trace : List Op) (ret : EspErr) (s' : State),
    Runs Eq ((account w.fresh).act t) e.code (w,⟨false,true,[]⟩) trace ret s' → Untruncated e.cmdlen (e.arguments w) ret s'.2 := by
  intro every
  obtain ⟨trace,ret,s',run,sent⟩ := slave_executes (account handed.fresh) .wifiStack (fun s => (rfl : s = s))
    (Encoder.wifiSendCmd 9 65524 (some ⟨1,0⟩)).code grants (handed,⟨false,true,[]⟩) (fun _ s => s.2.built.length = 1 && !s.2.inside)
    (by decide +kernel)
  simp only [Bool.and_eq_true,decide_eq_true_eq,Bool.not_eq_true'] at sent
  cases every _ _ _ _ _ _ run with
  | inl none =>
      rw [none.2] at sent
      exact absurd sent.1 nofun
  | inr whole => exact absurd (sent.2.symm.trans whole.2.1) nofun

end ExtConn.CommandLengths
