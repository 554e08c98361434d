import ExtConn.AllocationLedger
import ExtConn.RegisterWindow
import ExtConn.Sequential
import ExtConn.Transport

namespace ExtConn.AdapterInit
open Effects ByteMemory ExtConn.Sequential AllocationLedger

-- `esp_extconn_sdio_init` with the static pointer `host`, before the call and
-- after it; nothing but the allocation assigns it.
def sdioInitHost (host : Option Ptr) (retries : Nat) : Code (Option (EspErr × Option Ptr)) := do
  if host.isSome then return some (.invalidState,host)
  let some p ← issue (.calloc sizeofSdioHost) | return some (.noMem,none)
  let some ret ← espExtconnSdioStart retries | return none
  if ret ≠ .ok then return some (ret,some p)
  let ret ← espExtconnSdioInitSlaveLink
  return some (ret,some p)

theorem init_result (host : Option Ptr) (retries : Nat) :
    (sdioInitHost host retries).bind (fun result => .pure (result.map Prod.fst)) = espExtconnSdioInit host.isSome retries := by
  unfold sdioInitHost espExtconnSdioInit
  simp only [Prog.bind_def,issue_bind,Prog.pure_def]
  cases host with
  | some p => rfl
  | none =>
      have absent : ¬ (none : Option Ptr).isSome = true := Bool.false_ne_true
      rw [if_neg absent,if_neg absent,Prog.op_bind]
      congr 1
      funext allocated
      cases allocated with
      | none => rfl
      | some p =>
          simp only [Prog.bind_assoc]
          congr 1
          funext started
          cases started with
          | none => rfl
          | some ret =>
              by_cases success : ret = .ok
              · simp only [success,ne_eq,not_true_eq_false,if_false,Prog.bind_assoc,Prog.pure_bind,Option.map_some]
              · simp only [success,ne_eq,not_false_eq_true,if_true,Prog.pure_bind,Option.map_some]

-- What a call does with the heap, and whether anything that the code checks has
-- failed: an allocation, or a transfer whose result is looked at.
structure Heap where
  ledger : Ledger Ptr
  fault : Bool

-- Calls whose result is ignored: block sizes, and the interrupt enable register.
def ignored : Op → Bool
  | .sdmmcIoReadByte _ addr | .sdmmcIoWriteByte _ addr _ => 0x100 ≤ addr
  | .sdmmcIoRead _ addr .. | .sdmmcIoWrite _ addr .. => addr = espSdioFunc1IntEna
  | _ => false

def faulty (o : Op) (ans : Ans) : Bool := match o with
  | .sdmmcSendCmdGoIdleState => ans.err ≠ .ok && ans.err ≠ .invalidResponse
  | .sdmmcIoReadByte .. | .sdmmcIoWriteByte .. | .sdmmcIoRead .. | .sdmmcIoWrite .. => !ignored o && ans.err ≠ .ok
  | _ => false

def heap : Slave Heap where
  answers _ w o ans d := match o with
    | .malloc _ | .calloc _ => if ans.flag then some {d with ledger := d.ledger.alloc ⟨w.fresh,0⟩} else some {d with fault := true}
    | .free p => some {d with ledger := d.ledger.free p}
    | o => some {d with fault := d.fault || faulty o ans}
  moves _ _ := True

abbrev State := World × Heap

-- An error leaves no host and no block behind, a success the host alone.
def LeavesNothing (result : Option (EspErr × Option Ptr)) (l : Ledger Ptr) : Prop :=
  ∀ err host, result = some (err,host) →
    (err ≠ .ok → host = none ∧ ∀ p ∈ l.allocated, l.freed.count p = 1) ∧
    (err = .ok → ∃ p, host = some p ∧ p ∈ l.allocated ∧ ∀ q ∈ l.allocated, l.freed.count q = if q = p then 0 else 1)

section
variable {t : Task} {live : List Ptr} {s : State}

-- Nothing has failed, and the blocks in `live` are those not freed yet.
structure Good (live : List Ptr) (s : State) : Prop where
  fine : s.2.fault = false
  balanced : Balanced live s.2.ledger
  below : ∀ p ∈ s.2.ledger.allocated, p.blk < s.1.fresh

-- The end of a function: with a success all is well, an error comes from a fault.
structure Step (live : List Ptr) (err : EspErr) (s : State) : Prop where
  good : err = .ok → Good live s
  fault : err ≠ .ok → s.2.fault = true

theorem good_step (good : Good live s) : Step live .ok s := ⟨fun _ => good,fun wrong => absurd rfl wrong⟩

theorem fault_step {err : EspErr} (wrong : err ≠ .ok) (fault : s.2.fault = true) : Step live err s :=
  ⟨fun success => absurd success wrong,fun _ => fault⟩

-- The result that the code sees of a transfer.
def errOf : (o : Op) → o.Answer → EspErr
  | .sdmmcIoRead ..,r => r.1
  | .sdmmcIoReadByte ..,r => r.1
  | .sdmmcIoWriteByte ..,r => r.1
  | .sdmmcIoWrite ..,r => r
  | _,_ => .ok

def transfer : Op → Bool
  | .sdmmcIoRead .. | .sdmmcIoReadByte .. | .sdmmcIoWriteByte .. | .sdmmcIoWrite .. => true
  | _ => false

def plain : Op → Bool
  | .load .. | .store .. | .taskDelay _ => true
  | _ => false

theorem transfer_acts {o : Op} {r : o.Answer} {s' : State} (here : transfer o = true) (acted : heap.act t o s r s') :
    s'.1.fresh = s.1.fresh ∧ s'.2 = {s.2 with fault := s.2.fault || (!ignored o && errOf o r ≠ .ok)} := by
  obtain ⟨w,d⟩ := s
  obtain ⟨w',d'⟩ := s'
  obtain ⟨ans,ran,answered⟩ := act_iff.mp acted
  cases o
  case sdmmcIoRead =>
    obtain ⟨rfl,rfl,_⟩ := read_exec ran
    cases answered
    exact ⟨rfl,rfl⟩
  case sdmmcIoReadByte | sdmmcIoWriteByte | sdmmcIoWrite =>
    cases ran
    cases answered
    exact ⟨rfl,rfl⟩
  all_goals cases here

theorem plain_acts {o : Op} {r : o.Answer} {s' : State} (here : plain o = true) (acted : heap.act t o s r s') :
    s'.1.fresh = s.1.fresh ∧ s'.2 = s.2 := by
  obtain ⟨w,d⟩ := s
  obtain ⟨w',d'⟩ := s'
  obtain ⟨ans,ran,answered⟩ := act_iff.mp acted
  cases o
  case load | store | taskDelay =>
    cases ran
    cases answered
    refine ⟨rfl,?_⟩
    show ({d with fault := d.fault || false} : Heap) = d
    rw [Bool.or_false]
  all_goals cases here

theorem Good.on {s' : State} (good : Good live s) (fresh : s'.1.fresh = s.1.fresh) (same : s'.2 = s.2) : Good live s' :=
  ⟨same ▸ good.fine,same ▸ good.balanced,by rw [same,fresh]; exact good.below⟩

theorem plain_op {o : Op} {next : o.Answer → Code α} {post : α → State → Prop} (good : Good live s) (here : plain o = true)
    (rest : ∀ r s', Good live s' → wp (alone heap t) (next r) post s') : wp (alone heap t) (Prog.op o next : Code α) post s := by
  intro s₁ same
  cases same
  refine ⟨trivial,fun r s' acted => ⟨trivial,?_⟩⟩
  obtain ⟨fresh,kept⟩ := plain_acts here acted
  exact rest r s' (good.on fresh kept)

theorem transfer_op {o : Op} {next : o.Answer → Code α} {post : α → State → Prop} (good : Good live s) (here : transfer o = true)
    (seen : ignored o = false) (rest : ∀ r s', Step live (errOf o r) s' → wp (alone heap t) (next r) post s') :
    wp (alone heap t) (Prog.op o next : Code α) post s := by
  intro s₁ same
  cases same
  refine ⟨trivial,fun r s' acted => ⟨trivial,?_⟩⟩
  obtain ⟨fresh,kept⟩ := transfer_acts here acted
  apply rest r s'
  rw [seen,good.fine] at kept
  by_cases success : errOf o r = .ok
  · rw [success]
    apply good_step
    refine good.on fresh (kept.trans ?_)
    obtain ⟨w,⟨ledger,fault⟩⟩ := s
    have fine : fault = false := good.fine
    simp [success,fine]
  · apply fault_step success
    rw [kept]
    simp [success]

theorem ignored_op {o : Op} {next : o.Answer → Code α} {post : α → State → Prop} (good : Good live s) (here : transfer o = true)
    (unseen : ignored o = true) (rest : ∀ r s', Good live s' → wp (alone heap t) (next r) post s') :
    wp (alone heap t) (Prog.op o next : Code α) post s := by
  intro s₁ same
  cases same
  refine ⟨trivial,fun r s' acted => ⟨trivial,?_⟩⟩
  obtain ⟨fresh,kept⟩ := transfer_acts here acted
  have quiet : s'.2 = s.2 := by
    rw [kept,unseen,Bool.not_true,Bool.false_and,Bool.or_false]
  exact rest r s' (good.on fresh quiet)

theorem malloc_op {size : UInt32} {next : Option Ptr → Code α} {post : α → State → Prop} (good : Good live s)
    (refused : ∀ s', s'.2.fault = true → wp (alone heap t) (next none) post s')
    (granted : ∀ p s', p ∉ live → Good (p :: live) s' → wp (alone heap t) (next (some p)) post s') :
    wp (alone heap t) (Prog.op (.malloc size) next : Code α) post s := by
  obtain ⟨w,d⟩ := s
  apply alone_op
  intro ans r w' d' ran answered
  have unused : (⟨w.fresh,0⟩ : Ptr) ∉ d.ledger.allocated := fun member => Nat.lt_irrefl _ (good.below _ member)
  by_cases flag : ans.flag = true
  · simp only [World.exec,if_pos flag] at ran
    simp only [heap,if_pos flag] at answered
    cases ran
    cases answered
    apply granted
    · exact fun member => unused (good.balanced.held _ member)
    · refine ⟨good.fine,good.balanced.alloc unused,fun p member => ?_⟩
      rcases Ledger.mem_alloc.mp member with old | rfl
      · exact Nat.lt_succ_of_lt (good.below p old)
      · exact Nat.lt_succ_self _
  · simp only [World.exec,if_neg flag] at ran
    simp only [heap,if_neg flag] at answered
    cases ran
    cases answered
    exact refused _ rfl

theorem free_op {rest_ : List Ptr} {p : Ptr} {next : Unit → Code α} {post : α → State → Prop} (good : Good live s) (member : p ∈ live)
    (without : ∀ q, q ∈ rest_ ↔ q ∈ live ∧ q ≠ p) (rest : ∀ s', Good rest_ s' → wp (alone heap t) (next ()) post s') :
    wp (alone heap t) (Prog.op (.free p) next : Code α) post s := by
  obtain ⟨w,d⟩ := s
  apply alone_op
  intro ans r w' d' ran answered
  cases ran
  cases answered
  exact rest _ ⟨good.fine,good.balanced.free member without,good.below⟩

-- A fault stays on record, and so does an allocation.
theorem heap_grows {o : Op} {w : World} {ans : Ans} {d d' : Heap} (answered : heap.answers t w o ans d = some d') :
    (d.fault = true → d'.fault = true) ∧ (d.ledger.allocated ≠ [] → d'.ledger.allocated ≠ []) := by
  have allocates : (if ans.flag then some {d with ledger := d.ledger.alloc ⟨w.fresh,0⟩} else some {d with fault := true}) = some d' →
      (d.fault = true → d'.fault = true) ∧ (d.ledger.allocated ≠ [] → d'.ledger.allocated ≠ []) := by
    intro answered
    split at answered
    · cases answered
      exact ⟨id,fun _ => List.append_ne_nil_of_right_ne_nil _ (List.cons_ne_nil _ _)⟩
    · cases answered
      exact ⟨fun _ => rfl,id⟩
  cases o
  case malloc | calloc => exact allocates answered
  case free =>
    cases answered
    exact ⟨id,id⟩
  all_goals
    cases answered
    exact ⟨fun fault => by rw [fault]; rfl,id⟩

theorem grows_keeps {keep : Heap → Prop} (grows : ∀ o w ans d d', heap.answers t w o ans d = some d' → keep d → keep d') (p : Code α) :
    Keeps (alone heap t) (fun s => keep s.2) p := by
  apply every_keeps
  · intro o s held
    refine ⟨trivial,fun r s' acted => ⟨trivial,?_⟩⟩
    obtain ⟨ans,_,answered⟩ := act_iff.mp acted
    exact grows _ _ _ _ _ answered held
  · exact fun s s' held same => same ▸ held

theorem fault_keeps (p : Code α) : Keeps (alone heap t) (fun s => s.2.fault = true) p :=
  grows_keeps (fun _ _ _ _ _ answered => (heap_grows answered).1) p

theorem allocated_keeps (p : Code α) : Keeps (alone heap t) (fun s => s.2.ledger.allocated ≠ []) p :=
  grows_keeps (fun _ _ _ _ _ answered => (heap_grows answered).2) p

-- The way out after an error.
theorem fails {p : Code EspErr} {err : EspErr} (wrong : err ≠ .ok) (returns : p.Returns fun r => r = err) (fault : s.2.fault = true) :
    wp (alone heap t) p (Step live) s := by
  apply wp_mono (wp_returns returns (fault_keeps p s fault))
  intro r s' ended
  rw [ended.1]
  exact fault_step wrong ended.2

theorem released {p q : Ptr} (outside : p ∉ live) : q ∈ live ↔ q ∈ p :: live ∧ q ≠ p := by
  rw [List.mem_cons]
  exact ⟨fun held => ⟨.inr held,fun same => outside (same ▸ held)⟩,fun both => both.1.resolve_left both.2⟩

theorem read_window {regAddr : UInt32} {value : Ptr} (inside : regAddr >>> 2 ≤ 0x7f) (good : Good live s) :
    wp (alone heap t) (espExtconnSdioReadRegWindow regAddr value) (Step live) s := by
  rw [readRegWindow_eq value inside]
  apply malloc_op good
  · exact fun s' fault => fault_step nofun fault
  · intro p s₁ outside good
    apply plain_op good rfl
    intro _ s₂ good
    apply plain_op good rfl
    intro _ s₃ good
    apply transfer_op good rfl rfl
    intro ret s₄ written
    apply wp_ite
    · intro success
      apply transfer_op (written.good success) rfl rfl
      intro r s₅ read
      apply wp_ite
      · intro success
        apply plain_op (read.good success) rfl
        intro bytes s₆ good
        apply plain_op good rfl
        intro _ s₇ good
        apply free_op good List.mem_cons_self fun q => released outside
        intro s₈ good
        rw [success]
        exact good_step good
      · intro wrong
        exact fails wrong (fun _ => rfl) (read.fault wrong)
    · intro wrong
      exact fails wrong (fun _ => rfl) (written.fault wrong)

theorem write_window {regAddr : UInt32} {value : Ptr} (inside : regAddr >>> 2 ≤ 0x7f) (good : Good live s) :
    wp (alone heap t) (espExtconnSdioWriteRegWindow regAddr value) (Step live) s := by
  rw [writeRegWindow_eq value inside]
  apply malloc_op good
  · exact fun s' fault => fault_step nofun fault
  · intro p s₁ outside good
    apply plain_op good rfl
    intro bytes s₂ good
    apply plain_op good rfl
    intro _ s₃ good
    apply plain_op good rfl
    intro _ s₄ good
    apply plain_op good rfl
    intro _ s₅ good
    apply transfer_op good rfl rfl
    intro ret s₆ written
    by_cases success : ret = .ok
    · apply free_op (written.good success) List.mem_cons_self fun q => released outside
      intro s₇ good
      rw [success]
      exact good_step good
    · exact fails success (fun _ => rfl) (written.fault success)

theorem or_into {p : Ptr} {bits : UInt32} {f : Unit → Code α} {post : α → State → Prop} (good : Good live s)
    (rest : ∀ s', Good live s' → wp (alone heap t) (f ()) post s') : wp (alone heap t) ((orInto p bits).bind f) post s := by
  unfold orInto load32
  simp only [Prog.bind_def,issue_bind,Prog.op_bind,Prog.pure_bind,Prog.pure_def]
  apply plain_op good rfl
  intro bytes s₁ good
  apply plain_op good rfl
  intro _ s₂ good
  exact rest s₂ good

-- A callee whose result is checked; on an error the caller returns one as well.
theorem checked {held : List Ptr} {p rest : Code EspErr} {f : EspErr → EspErr} (kept : ∀ err, err ≠ .ok → f err ≠ .ok)
    (callee : wp (alone heap t) p (Step held) s) (next : ∀ s', Good held s' → wp (alone heap t) rest (Step live) s') :
    wp (alone heap t) (p.bind fun err => if err ≠ .ok then .pure (f err) else rest) (Step live) s := by
  rw [wp_bind]
  apply wp_mono callee
  intro err s' step
  by_cases success : err = .ok
  · rw [if_neg (not_not_intro success)]
    exact next s' (step.good success)
  · rw [if_pos success]
    exact fault_step (kept err success) (step.fault success)

theorem set_bits {regAddr : UInt32} {tbuf : Ptr} {bits : UInt32} (inside : regAddr >>> 2 ≤ 0x7f) (good : Good live s) :
    wp (alone heap t) (setWindowBits regAddr tbuf bits) (Step live) s := by
  unfold setWindowBits
  simp only [Prog.bind_def,Prog.pure_def]
  apply or_into good
  intro s₁ good
  apply checked (f := fun _ => .fail) (fun _ _ => nofun) (write_window inside good)
  intro s₂ good
  apply checked (f := fun _ => .fail) (fun _ _ => nofun) (read_window inside good)
  exact fun s₃ good => good_step good

theorem enable_interrupt {tbuf : Ptr} (outside : tbuf ∉ live) (good : Good (tbuf :: live) s) :
    wp (alone heap t) (enableTargetInterrupt tbuf) (Step live) s := by
  rw [enableTargetInterrupt_eq]
  apply malloc_op good
  · exact fun s' fault => fault_step nofun fault
  · intro val s₁ apart good
    apply ignored_op good rfl rfl
    intro _ s₂ good
    apply plain_op good rfl
    intro bytes s₃ good
    apply plain_op good rfl
    intro _ s₄ good
    apply ignored_op good rfl rfl
    intro _ s₅ good
    have distinct : val ≠ tbuf := fun same => apart (same ▸ List.mem_cons_self)
    have kept : ∀ q, q ∈ val :: live ↔ q ∈ val :: tbuf :: live ∧ q ≠ tbuf := by
      intro q
      simp only [List.mem_cons]
      constructor
      · intro held
        rcases held with rfl | old
        · exact ⟨.inl rfl,distinct⟩
        · exact ⟨.inr (.inr old),fun same => outside (same ▸ old)⟩
      · intro both
        rcases both.1 with same | same | old
        · exact .inl same
        · exact absurd same both.2
        · exact .inr old
    apply free_op good (List.mem_cons_of_mem _ List.mem_cons_self) kept
    intro s₆ good
    apply free_op good List.mem_cons_self fun q => released fun held => apart (List.mem_cons_of_mem _ held)
    intro s₇ good
    exact good_step good

theorem slave_link (good : Good live s) : wp (alone heap t) espExtconnSdioInitSlaveLink (Step live) s := by
  have conf1 : espSlcConf1Reg >>> 2 ≤ 0x7f := by decide
  have lenConf : espSlc0LenConfReg >>> 2 ≤ 0x7f := by decide
  unfold espExtconnSdioInitSlaveLink
  simp only [Prog.bind_def,issue_bind,Prog.pure_def]
  apply malloc_op good
  · exact fun s' fault => fault_step nofun fault
  · intro tbuf s₁ outside good
    apply checked (f := id) (fun _ => id) (read_window conf1 good)
    intro s₂ good
    apply checked (f := id) (fun _ => id) (set_bits conf1 good)
    intro s₃ good
    apply checked (f := fun _ => .fail) (fun _ _ => nofun) (read_window lenConf good)
    intro s₄ good
    apply checked (f := id) (fun _ => id) (set_bits lenConf good)
    intro s₅ good
    exact enable_interrupt outside good

theorem block_size {offset : UInt32} {post : Unit → State → Prop} (known : offset = 0x100 ∨ offset = 0x200) (good : Good live s)
    (rest : ∀ s', Good live s' → post () s') : wp (alone heap t) (setBlockSize offset) post s := by
  have below : ∀ r : UInt32, r = sdIoCccrBlksizel ∨ r = sdIoCccrBlksizeh → decide (0x100 ≤ offset + r) = true := by
    rcases known with rfl | rfl
    all_goals
      rintro r (rfl | rfl)
      all_goals decide
  have low := below _ (.inl rfl)
  have high := below _ (.inr rfl)
  unfold setBlockSize
  simp only [Prog.bind_def,issue_bind]
  apply ignored_op good rfl
  · exact low
  intro _ s₁ good
  apply ignored_op good rfl
  · exact high
  intro _ s₂ good
  apply ignored_op good rfl
  · exact low
  intro _ s₃ good
  apply ignored_op good rfl
  · exact high
  intro _ s₄ good
  apply ignored_op good rfl
  · exact low
  intro _ s₅ good
  apply ignored_op good rfl
  · exact high
  intro _ s₆ good
  exact rest s₆ good

-- A transfer whose result is checked at once.
theorem checked_op {o : Op} {next : o.Answer → Code EspErr} (good : Good live s) (here : transfer o = true) (seen : ignored o = false)
    (rest : ∀ r s', Good live s' → wp (alone heap t) (next r) (Step live) s') :
    wp (alone heap t) (Prog.op o fun r => if errOf o r ≠ .ok then .pure (errOf o r) else next r : Code EspErr) (Step live) s := by
  apply transfer_op good here seen
  intro r s' step
  apply wp_ite
  · exact fun wrong => fault_step wrong (step.fault wrong)
  · exact fun success => rest r s' (step.good (not_not.mp success))

theorem configured (good : Good live s) : wp (alone heap t) sdioStartConfigure (Step live) s := by
  unfold sdioStartConfigure
  simp only [Prog.bind_def,issue_bind,Prog.pure_def]
  apply checked_op good rfl rfl
  intro _ s₁ good
  apply checked_op good rfl rfl
  intro _ s₂ good
  apply checked_op good rfl rfl
  intro _ s₃ good
  apply checked_op good rfl rfl
  intro _ s₄ good
  rw [wp_bind]
  apply block_size (.inl rfl) good
  intro s₅ good
  rw [wp_bind]
  apply block_size (.inr rfl) good
  intro s₆ good
  exact good_step good

-- The loop around the idle command comes to an end with a result, or not at all.
def Started (live : List Ptr) (result : Option EspErr) (s : State) : Prop :=
  (result = none → Good live s) ∧ ∀ err, result = some err → Step live err s

theorem idle_loop {retries : Nat} (good : Good live s) : wp (alone heap t) (goIdleLoop retries) (Started live) s := by
  induction retries generalizing s with
  | zero => exact ⟨fun _ => good,nofun⟩
  | succ retries ih =>
      obtain ⟨w,d⟩ := s
      unfold goIdleLoop
      simp only [Prog.bind_def,issue_bind,Prog.pure_def]
      apply alone_op
      intro ans err w' d' ran answered
      cases ran
      cases answered
      have fine : d.fault = false := good.fine
      by_cases again : ans.err = .invalidResponse
      · rw [if_pos again]
        have same : ({d with fault := d.fault || faulty .sdmmcSendCmdGoIdleState ans} : Heap) = d := by
          obtain ⟨ledger,fault⟩ := d
          simp [faulty,again]
        have good : Good live ((w,{d with fault := d.fault || faulty .sdmmcSendCmdGoIdleState ans}) : State) := by
          rw [same]
          exact good
        apply plain_op good rfl
        intro _ s₁ good
        exact ih good
      · rw [if_neg again]
        refine ⟨nofun,fun err same => ?_⟩
        cases same
        by_cases success : ans.err = .ok
        · have same : ({d with fault := d.fault || faulty .sdmmcSendCmdGoIdleState ans} : Heap) = d := by
            obtain ⟨ledger,fault⟩ := d
            simp [faulty,success]
          rw [success]
          apply good_step
          show Good live (w,{d with fault := d.fault || faulty .sdmmcSendCmdGoIdleState ans})
          rw [same]
          exact good
        · apply fault_step success
          show (d.fault || faulty .sdmmcSendCmdGoIdleState ans) = true
          simp [faulty,success,again]

theorem started {retries : Nat} (good : Good live s) : wp (alone heap t) (espExtconnSdioStart retries) (Started live) s := by
  unfold espExtconnSdioStart
  simp only [Prog.bind_def,Prog.pure_def,wp_bind]
  apply wp_mono (idle_loop good)
  intro result s₁ idle
  cases result with
  | none => exact ⟨idle.1,fun _ same => by cases same⟩
  | some err =>
      have step := idle.2 err rfl
      apply wp_ite
      · intro wrong
        exact ⟨(fun same => by cases same),fun err' same => by cases same; exact step⟩
      · intro success
        rw [wp_bind]
        apply wp_mono (configured (step.good (not_not.mp success)))
        intro err' s₂ step
        exact ⟨(fun same => by cases same),fun err'' same => by cases same; exact step⟩

-- The end of the call once the host is there.
inductive End (p : Ptr) : Option (EspErr × Option Ptr) → State → Prop where
  | waiting {s : State} : Good [p] s → End p none s
  | failed {err : EspErr} {s : State} : err ≠ .ok → s.2.fault = true → End p (some (err,some p)) s
  | linked {s : State} : Good [p] s → End p (some (.ok,some p)) s

theorem step_end {p : Ptr} {err : EspErr} (step : Step [p] err s) : End p (some (err,some p)) s := by
  by_cases success : err = .ok
  · rw [success]
    exact .linked (step.good success)
  · exact .failed success (step.fault success)

-- `sdioInitHost` from the allocation of the host on.
def initRest (p : Ptr) (retries : Nat) : Code (Option (EspErr × Option Ptr)) := do
  let some ret ← espExtconnSdioStart retries | return none
  if ret ≠ .ok then return some (ret,some p)
  let ret ← espExtconnSdioInitSlaveLink
  return some (ret,some p)

theorem init_eq (retries : Nat) : sdioInitHost none retries = .op (.calloc sizeofSdioHost) fun p => match p with
    | some p => initRest p retries
    | none => .pure (some (.noMem,none)) := by
  unfold sdioInitHost initRest
  simp only [Prog.bind_def,issue_bind,Prog.pure_def]
  rw [if_neg nofun]
  congr 1
  funext p
  cases p with
  | none => rfl
  | some p => rfl

theorem init_end {p : Ptr} {retries : Nat} (good : Good [p] s) : wp (alone heap t) (initRest p retries) (End p) s := by
  unfold initRest
  simp only [Prog.bind_def,Prog.pure_def,wp_bind]
  apply wp_mono (started good)
  intro result s₁ start
  cases result with
  | none => exact .waiting (start.1 rfl)
  | some err =>
      have step := start.2 err rfl
      apply wp_ite
      · exact fun wrong => .failed wrong (step.fault wrong)
      · intro success
        rw [wp_bind]
        apply wp_mono (slave_link (step.good (not_not.mp success)))
        intro ret s₂ step
        exact step_end step

theorem good_leaves {p : Ptr} (good : Good [p] s) : LeavesNothing (some (.ok,some p)) s.2.ledger := by
  intro err host same
  cases same
  refine ⟨fun wrong => absurd rfl wrong,fun _ => ⟨p,rfl,good.balanced.held p List.mem_cons_self,fun q member => ?_⟩⟩
  simpa using good.balanced.counted q member

theorem end_iff {p : Ptr} {result : Option (EspErr × Option Ptr)} (ended : End p result s) :
    LeavesNothing result s.2.ledger ↔ s.2.fault = false := by
  cases ended with
  | waiting good => exact ⟨fun _ => good.fine,fun _ => nofun⟩
  | failed wrong fault =>
      constructor
      · intro leaves
        exact absurd ((leaves _ _ rfl).1 wrong).1 nofun
      · intro none
        exact absurd (none.symm.trans fault) nofun
  | linked good => exact ⟨fun _ => good.fine,fun _ => good_leaves good⟩

-- The host is allocated first of all.
theorem host_allocated {w : World} {size : UInt32} {r : Option Ptr} {s' : State}
    (acted : heap.act t (.calloc size) (w,⟨⟨[],[]⟩,false⟩) r s') :
    (r = none ∧ s'.2.ledger = ⟨[],[]⟩) ∨ ∃ p, r = some p ∧ Good [p] s' := by
  obtain ⟨w',d'⟩ := s'
  obtain ⟨ans,ran,answered⟩ := act_iff.mp acted
  by_cases flag : ans.flag = true
  · simp only [World.exec,if_pos flag] at ran
    simp only [heap,if_pos flag] at answered
    cases ran
    cases answered
    right
    refine ⟨⟨w.fresh,0⟩,rfl,rfl,?_,?_⟩
    · exact balanced_nil.alloc (List.not_mem_nil)
    · intro p member
      rw [List.mem_singleton.mp member]
      exact Nat.lt_succ_self _
  · simp only [World.exec,if_neg flag] at ran
    simp only [heap,if_neg flag] at answered
    cases ran
    cases answered
    exact .inl ⟨rfl,rfl⟩

end

theorem leaves_nothing_iff {t : Task} {w : World} {retries : Nat} {trace : List Op} {result : Option (EspErr × Option Ptr)} {s' : State}
    (run : Runs Eq (heap.act t) (sdioInitHost none retries) (w,⟨⟨[],[]⟩,false⟩) trace result s') :
    LeavesNothing result s'.2.ledger ↔ s'.2.ledger.allocated = [] ∨ s'.2.fault = false := by
  rw [init_eq] at run
  obtain ⟨s₁,host,s₂,rest,rfl,same,acted,run⟩ := runs_op.mp run
  cases same
  rcases host_allocated acted with ⟨rfl,empty⟩ | ⟨p,rfl,good⟩
  · obtain ⟨_,rfl,same⟩ := runs_pure.mp run
    cases same
    rw [empty]
    refine iff_of_true (fun err host same => ?_) (.inl rfl)
    cases same
    exact ⟨fun _ => ⟨rfl,nofun⟩,nofun⟩
  · have some_ := alone_runs (allocated_keeps _ _ (List.ne_nil_of_mem (good.balanced.held p List.mem_cons_self))) run
    rw [end_iff (alone_runs (init_end good) run)]
    exact ⟨.inr,fun either => either.resolve_left some_⟩

-- A card that answers every call, and one that does not answer the idle command.
def start : State := (World.initial espSipInit,⟨⟨[],[]⟩,false⟩)
def answering : List Ans := List.replicate 80 {data := List.replicate 4 0}

theorem nothing_left : ∃ trace result s', Runs Eq (heap.act .appMain) (sdioInitHost none 1) start trace result s' ∧
    s'.2.ledger.allocated.length = 9 ∧ LeavesNothing result s'.2.ledger := by
  obtain ⟨trace,result,s',run,passed⟩ := slave_executes heap .appMain (fun s => (rfl : s = s)) (sdioInitHost none 1) answering start
    (fun _ s => decide (s.2.ledger.allocated.length = 9 ∧ s.2.fault = false)) (by decide +kernel)
  obtain ⟨blocks,fine⟩ : s'.2.ledger.allocated.length = 9 ∧ s'.2.fault = false := of_decide_eq_true passed
  exact ⟨trace,result,s',run,blocks,(leaves_nothing_iff run).mpr (.inr fine)⟩

theorem host_left : ¬ ∀ (t : Task) (w : World) (retries : Nat) (trace : List Op) (result : Option (EspErr × Option Ptr)) (s' : State),
    Runs Eq (heap.act t) (sdioInitHost none retries) (w,⟨⟨[],[]⟩,false⟩) trace result s' → LeavesNothing result s'.2.ledger := by
  intro every
  obtain ⟨trace,result,s',run,passed⟩ := slave_executes heap .appMain (fun s => (rfl : s = s)) (sdioInitHost none 1)
    [{},{err := .timeout}] start (fun result _ => decide (result = some (.timeout,some ⟨1,0⟩))) (by decide +kernel)
  have leaves := every _ _ _ _ _ _ run
  rw [of_decide_eq_true passed] at leaves
  exact absurd ((leaves _ _ rfl).1 nofun).1 nofun

end ExtConn.AdapterInit
