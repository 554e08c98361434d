import ExtConn.BlockAccess
import ExtConn.Custody
import ExtConn.System
import ExtConn.TxDeque

namespace ExtConn.HeapBooks
open Effects ByteMemory Interleaving Custody TxDeque

-- Who answers for a block of memory: a task, the message that waits with it in
-- `tx_que`, the buffer that waits with it in the transmit list, or the software
-- above, which lends its buffers and gets them back.
inductive Holder where
  | task (t : Task)
  | message
  | buffer (eb : EbPtr)
  | outside
  deriving DecidableEq

-- `out` are the buffers that the software above has handed over and not got back,
-- `empty` the blocks of the messages of no length that `bt_tx_task` has received,
-- `refused` those of the messages for which there was no room. `work` are the block
-- of `send_buf` and, behind it, that of the packet which `wifi_send_task` took from
-- the list last.
structure Books where
  book : Book Nat Holder
  out : EbPtr → Bool
  empty : List Nat
  refused : List Nat
  work : List Nat

def Books.move (d : Books) (blk : Nat) (h : Option Holder) : Books := {d with book := d.book.move (· = blk) h}

def lend (w : World) (call : StackCall) (d : Books) : Option Books :=
  match call with
  | .cmd _ _ none => some d
  | .cmd _ _ (some p) => if d.book p.blk = some .outside then some d else none
  | .data eb =>
    if eb = nullEb then some d else
    if d.out eb = false ∧ d.book (payload (w.esf eb)).blk = some .outside then
      some {d.move (payload (w.esf eb)).blk (some (.task .wifiStack)) with out := Function.update d.out eb true}
    else none

def Books.refuse (d : Books) (blk : Nat) : Books := {d with refused := blk :: d.refused}

def Books.receive (d : Books) (t : Task) (blk : Nat) (len : UInt32) : Books :=
  {d.move blk (some (.task t)) with empty := if len = 0 then blk :: d.empty else d.empty}

def Books.allocate (d : Books) (t : Task) (blk : Nat) : Books :=
  {d.move blk (some (.task t)) with work := if t = .wifiSend then [blk] else d.work}

def Books.remove (d : Books) (t : Task) (blk : Nat) : Books :=
  {d.move blk (some (.task t)) with work := if t = .wifiSend then d.work.take 1 ++ [blk] else d.work}

def Books.recycle (d : Books) (w : World) (ebs : List EbPtr) : Books :=
  {d with
    book := d.book.move (fun b => ∃ eb ∈ ebs, (payload (w.esf eb)).blk = b) (some .outside)
    out := fun eb => d.out eb && !decide (eb ∈ ebs)}

-- The books follow the operations by which blocks change hands. The software
-- above does not hand in what is out already, nor does the allocator of buffers
-- return it, and it leaves alone what it has lent.
def books : Slave Books where
  answers t w o ans d := match o with
    | .malloc _ | .calloc _ => some (if ans.flag then d.allocate t w.fresh else d)
    | .free p => some (d.move p.blk none)
    | .queueSend ⟨some p,_⟩ _ => some (if w.txQue.length < 25 then d.move p.blk (some .message) else d.refuse p.blk)
    | .queueReceive => match w.txQue with
      | ⟨some p,len⟩ :: _ => some (d.receive t p.blk len)
      | _ => some d
    | .wifiStackCall => lend w ans.call d
    | .esfBufAlloc _ _ =>
      if ans.num = nullEb then some d else if d.out ans.num then none
      else some {d.move w.fresh (some (.task t)) with out := Function.update d.out ans.num true}
    | .listInsert eb | .listHeadInsert eb =>
      some (if eb = nullEb then d else d.move (payload (w.esf eb)).blk (some (.buffer eb)))
    | .listRemove =>
      let eb := (listRemove w.wifiTx).1
      some (if eb = nullEb then d else d.remove t (payload (w.esf eb)).blk)
    | .listClear => (listClear w.dropOnClear ans.num w.wifiTx).map fun cleared => d.recycle w cleared.1
    | .net80211EnTxdq eb | .espSipRecycle eb => some (d.recycle w [eb])
    | _ => some d
  moves d d' := d' = d

abbrev State := World × Books

def queued (w : World) : List Nat := w.txQue.filterMap fun msg => msg.data.map Ptr.blk

structure Listed (s : State) (xs : List EbPtr) : Prop where
  represents : Represents s.1.wifiTx xs
  out : ∀ eb ∈ xs, s.2.out eb = true
  kept : ∀ eb ∈ xs, s.2.book (payload (s.1.esf eb)).blk = some (.buffer eb)
  only : ∀ b eb, s.2.book b = some (.buffer eb) → eb ∈ xs ∧ (payload (s.1.esf eb)).blk = b

-- A block is allocated exactly as long as somebody answers for it, and what waits
-- in the queue or in the list is what is booked there.
structure Inv (s : State) : Prop where
  live : ∀ b, s.1.blocks b ≠ none ↔ s.2.book b ≠ none
  fresh : ∀ b, s.1.fresh ≤ b → s.2.book b = none
  messages : ∀ b, b ∈ queued s.1 ↔ s.2.book b = some .message
  distinct : (queued s.1).Nodup
  listed : ∃ xs, Listed s xs

-- Data of one task alone, behind its blocks.
def rawbufOf (t : Task) (s : State) : Option Ptr := if t = .transRecv then s.1.sip.rawbuf else none

def notedOf (t : Task) (s : State) : List Nat :=
  match t with
  | .btTx => s.2.empty
  | .btHost => s.2.refused
  | .wifiSend => s.2.work
  | _ => []

def InHand (t : Task) (s : State) (eb : EbPtr) : Prop :=
  s.2.out eb = true ∧ s.2.book (payload (s.1.esf eb)).blk = some (.task t)

def inserts : Op → Option EbPtr
  | .listInsert eb | .listHeadInsert eb => if eb = nullEb then none else some eb
  | _ => none

-- What a task may do: use its own blocks, read those lent to it, and put into the
-- list the buffers it has in hand. The entry points that the software above calls
-- go on where they got no memory or no arguments.
def allowed (t : Task) (o : Op) (s : State) : Prop :=
  (∀ b, o.block = some b → s.2.book b = some (.task t) ∨ (t = .wifiStack ∧ o.reads = true ∧ s.2.book b = some .outside)) ∧
    (∀ eb, inserts o = some eb → InHand t s eb) ∧ (o.null = true → t = .btHost ∨ t = .wifiStack)

theorem inserts_cases {o : Op} (puts : inserts o = some eb) : eb ≠ nullEb ∧ (o = .listInsert eb ∨ o = .listHeadInsert eb) := by
  cases o
  case listInsert x =>
    obtain ⟨proper,same⟩ := Option.ite_none_left_eq_some.mp puts
    cases same
    exact ⟨proper,.inl rfl⟩
  case listHeadInsert x =>
    obtain ⟨proper,same⟩ := Option.ite_none_left_eq_some.mp puts
    cases same
    exact ⟨proper,.inr rfl⟩
  all_goals cases puts

theorem inserts_block {o : Op} (puts : inserts o = some eb) : o.block = none := by
  obtain ⟨_,rfl | rfl⟩ := inserts_cases puts
  · rfl
  · rfl

theorem plain_inserts {o : Op} (plain : o.handles = false) : inserts o = none := by
  cases o <;> first | rfl | cases plain

theorem inserts_proper {o : Op} (puts : inserts o = some eb) : o.null = false := by
  obtain ⟨_,rfl | rfl⟩ := inserts_cases puts
  · rfl
  · rfl

theorem plain_proper {o : Op} (plain : o.handles = false) : o.null = false := by
  cases o <;> first | rfl | cases plain

theorem allowed_plain {t : Task} {o : Op} {s : State} (free : o.block = none) (away : inserts o = none) (proper : o.null = false) :
    allowed t o s := by
  refine ⟨fun b some => ?_,fun eb some => ?_,fun null => ?_⟩
  · rw [free] at some
    cases some
  · rw [away] at some
    cases some
  · rw [proper] at null
    cases null

-- What the others leave to task `t` and what it leaves to them.
structure Left (t : Task) (s s' : State) : Prop where
  held : s'.2.book.heldBy (.task t) = s.2.book.heldBy (.task t)
  mem : ∀ b, s.2.book b = some (.task t) → s'.1.mem b = s.1.mem b
  rawbuf : rawbufOf t s' = rawbufOf t s
  noted : notedOf t s' = notedOf t s
  hand : ∀ eb, InHand t s eb → InHand t s' eb ∧ s'.1.esf eb = s.1.esf eb

structure Stays (t : Task) (s s' : State) : Prop extends Left t s s' where
  inv : Inv s → Inv s'
  lent : t = .wifiStack → ∀ b, s.2.book b = some .outside → s'.2.book b = some .outside

structure Leaves (t : Task) (s s' : State) : Prop where
  inv : Inv s → Inv s'
  others : ∀ u, u ≠ t → Left u s s'
  lent : t ≠ .wifiStack → ∀ b, s.2.book b = some .outside → s'.2.book b = some .outside
  mem : ∀ b h, s.2.book b = some h → h ≠ .task t → s'.1.mem b = s.1.mem b

theorem Left.refl (t : Task) (s : State) : Left t s s := ⟨rfl,fun _ _ => rfl,rfl,rfl,fun _ held => ⟨held,rfl⟩⟩

theorem Stays.refl (t : Task) (s : State) : Stays t s s := ⟨.refl t s,id,fun _ _ => id⟩

theorem Leaves.refl (t : Task) (s : State) : Leaves t s s := ⟨id,fun u _ => .refl u s,fun _ _ known => known,fun _ _ _ _ => rfl⟩

theorem Left.trans {t : Task} {a b c : State} (one : Left t a b) (two : Left t b c) : Left t a c := by
  refine ⟨two.held.trans one.held,fun blk owned => ?_,two.rawbuf.trans one.rawbuf,two.noted.trans one.noted,fun eb here => ?_⟩
  · have still : blk ∈ b.2.book.heldBy (.task t) := by
      rw [one.held]
      exact owned
    exact (two.mem blk still).trans (one.mem blk owned)
  · obtain ⟨kept,same⟩ := one.hand eb here
    obtain ⟨kept',same'⟩ := two.hand eb kept
    exact ⟨kept',same'.trans same⟩

theorem Stays.trans {t : Task} {a b c : State} (one : Stays t a b) (two : Stays t b c) : Stays t a c :=
  ⟨one.toLeft.trans two.toLeft,fun inv => two.inv (one.inv inv),
    fun stack blk lent => two.lent stack blk (one.lent stack blk lent)⟩

theorem Leaves.stays {t u : Task} {s s' : State} (leaves : Leaves t s s') (other : u ≠ t) : Stays u s s' :=
  ⟨leaves.others u other,leaves.inv,fun stack => leaves.lent fun same => other (stack.trans same.symm)⟩

-- An operation by which nothing changes hands: what it leaves of the world.
structure PlainStep (o : Op) (w w' : World) : Prop where
  blocks : w'.blocks = w.blocks
  fresh : w'.fresh = w.fresh
  esf : w'.esf = w.esf
  rawbuf : w'.sip.rawbuf = w.sip.rawbuf
  txQue : w'.txQue = w.txQue
  wifiTx : w'.wifiTx = w.wifiTx
  mem : ∀ b, o.block ≠ some b ∨ o.reads = true → w'.mem b = w.mem b

theorem PlainStep.refl (o : Op) (w : World) : PlainStep o w w := ⟨rfl,rfl,rfl,rfl,rfl,rfl,fun _ _ => rfl⟩

theorem plain_exec {t : Task} {o : Op} {r : o.Answer} {w w' : World} (plain : o.handles = false)
    (ran : World.exec t o ans w = some (r,w')) : PlainStep o w w' := by
  cases o
  case sdmmcIoRead function addr arg dst size =>
    obtain ⟨_,rfl,_⟩ := read_exec ran
    refine {PlainStep.refl (.sdmmcIoRead function addr arg dst size) w with mem := fun b other => ?_}
    cases dst with
    | reg => rfl
    | mem p =>
        rcases other with other | reads
        · exact write_other fun same => other (congrArg some same.symm)
        · cases reads
  case store p bytes =>
    cases ran
    refine {PlainStep.refl (.store p bytes) w with mem := fun b other => ?_}
    rcases other with other | reads
    · exact write_other fun same => other (congrArg some same.symm)
    · cases reads
  case semTake sem wait =>
    cases sem <;> simp only [World.exec] at ran
    case bootSem =>
      split at ran
      · split at ran <;> cases ran
        exact .refl _ w
      · cases ran
        exact {PlainStep.refl _ w with}
      · cases ran
        exact .refl _ w
    all_goals
      split at ran <;> cases ran
      exact {PlainStep.refl _ w with}
  case semGive sem =>
    cases sem
    case bootSem =>
      simp only [World.exec] at ran
      split at ran <;> cases ran
      · exact {PlainStep.refl _ w with}
      · exact .refl _ w
    all_goals
      cases ran
      exact {PlainStep.refl _ w with}
  case sipSet a =>
    cases a
    case rawbuf => cases plain
    all_goals
      cases ran
      exact {PlainStep.refl _ w with}
  all_goals first
    | (cases plain; done)
    | (cases ran; exact {PlainStep.refl _ w with})
    | (simp only [World.exec] at ran
       split at ran <;> first | (cases ran; done) | (cases ran; exact {PlainStep.refl _ w with}))

theorem plain_books {t : Task} {o : Op} {w : World} {d d' : Books} (plain : o.handles = false)
    (answered : books.answers t w o ans d = some d') : d' = d := by
  cases o
  all_goals first
    | exact (Option.some.inj answered).symm
    | cases plain

-- A task's share of the memory, with the data that depends on it.
structure Share where
  own : Set Nat
  lent : Set Nat := ∅
  rawbuf : Option Ptr := none
  noted : List Nat := []
  hand : List (EbPtr × EsfBuf) := []

def Share.received (share : Share) (blk : Nat) (len : UInt32) : Share :=
  {share with own := insert blk share.own,noted := if len = 0 then blk :: share.noted else share.noted,hand := []}

def Share.holding (share : Share) (eb : EbPtr) (b : EsfBuf) : Share :=
  {share with own := insert (payload b).blk share.own,hand := [(eb,b)]}

structure Has (t : Task) (share : Share) (s : State) : Prop where
  inv : Inv s
  own : s.2.book.heldBy (.task t) = share.own
  lent : ∀ b ∈ share.lent, t = .wifiStack ∧ s.2.book b = some .outside
  rawbuf : rawbufOf t s = share.rawbuf
  noted : notedOf t s = share.noted
  hand : ∀ x ∈ share.hand, InHand t s x.1 ∧ s.1.esf x.1 = x.2

def contract (t : Task) : Contract signature State := ⟨books.act t,Stays t,Leaves t,allowed t⟩

section
variable {t : Task} {share : Share} {s s' : State}

theorem Has.owns (has : Has t share s) (member : b ∈ share.own) : s.2.book b = some (.task t) := by
  have held : b ∈ s.2.book.heldBy (.task t) := by
    rw [has.own]
    exact member
  exact held

theorem has_stable (s s' : State) (has : Has t share s) (moved : Stays t s s') : Has t share s' := by
  refine ⟨moved.inv has.inv,moved.held.trans has.own,fun b member => ?_,moved.rawbuf.trans has.rawbuf,
    moved.noted.trans has.noted,fun x member => ?_⟩
  · obtain ⟨stack,known⟩ := has.lent b member
    exact ⟨stack,moved.lent stack b known⟩
  · obtain ⟨here,same⟩ := has.hand x member
    obtain ⟨kept,still⟩ := moved.hand x.1 here
    exact ⟨kept,still.trans same⟩

theorem inv_same (inv : Inv s) (blocks : s'.1.blocks = s.1.blocks) (fresh : s'.1.fresh = s.1.fresh) (esf : s'.1.esf = s.1.esf)
    (txQue : s'.1.txQue = s.1.txQue) (wifiTx : s'.1.wifiTx = s.1.wifiTx) (book : s'.2.book = s.2.book) (out : s'.2.out = s.2.out) :
    Inv s' := by
  have queues : queued s'.1 = queued s.1 := by rw [queued,queued,txQue]
  refine ⟨?_,?_,?_,?_,?_⟩
  · rw [blocks,book]
    exact inv.live
  · rw [fresh,book]
    exact inv.fresh
  · rw [queues,book]
    exact inv.messages
  · rw [queues]
    exact inv.distinct
  · obtain ⟨xs,listed⟩ := inv.listed
    refine ⟨xs,?_,?_,?_,?_⟩
    · rw [wifiTx]
      exact listed.represents
    · rw [out]
      exact listed.out
    · rw [book,esf]
      exact listed.kept
    · rw [book,esf]
      exact listed.only

-- One block changes hands.
structure OneMove (blk : Nat) (dest : Option Holder) (s s' : State) : Prop where
  book : s'.2.book = s.2.book.move (· = blk) dest
  blocks : ∀ b, b ≠ blk → s'.1.blocks b = s.1.blocks b
  alive : s'.1.blocks blk ≠ none ↔ dest ≠ none
  fresh : s.1.fresh ≤ s'.1.fresh
  below : blk < s'.1.fresh
  waits : ∀ b, b ≠ blk → (b ∈ queued s'.1 ↔ b ∈ queued s.1)
  waiting : blk ∈ queued s'.1 ↔ dest = some .message

theorem OneMove.inv (moved : OneMove blk dest s s') (inv : Inv s) (distinct : (queued s'.1).Nodup) (listed : ∃ xs, Listed s' xs) :
    Inv s' := by
  refine ⟨fun b => ?_,fun b above => ?_,fun b => ?_,distinct,listed⟩
  all_goals
    rw [moved.book]
    by_cases here : b = blk
  · rw [here,move_self]
    exact moved.alive
  · rw [move_other here,moved.blocks b here]
    exact inv.live b
  · exact absurd (here ▸ moved.below) (Nat.not_lt.mpr above)
  · rw [move_other here]
    exact inv.fresh b (Nat.le_trans moved.fresh above)
  · rw [here,move_self]
    exact moved.waiting
  · rw [move_other here,moved.waits b here]
    exact inv.messages b

-- A block that neither comes from the list nor goes into it.
theorem OneMove.listed (moved : OneMove blk dest s s') (inv : Inv s) (comes : ∀ eb, s.2.book blk ≠ some (.buffer eb))
    (into : ∀ eb, dest ≠ some (.buffer eb)) (wifiTx : s'.1.wifiTx = s.1.wifiTx)
    (buffers : ∀ eb, s.2.out eb = true → s'.2.out eb = true ∧ s'.1.esf eb = s.1.esf eb) : ∃ xs, Listed s' xs := by
  obtain ⟨xs,listed⟩ := inv.listed
  refine ⟨xs,?_,fun eb member => (buffers eb (listed.out eb member)).1,fun eb member => ?_,fun b eb known => ?_⟩
  · rw [wifiTx]
    exact listed.represents
  · have kept := listed.kept eb member
    rw [(buffers eb (listed.out eb member)).2,moved.book,move_other]
    · exact kept
    · intro same
      rw [same] at kept
      exact comes eb kept
  · rw [moved.book] at known
    by_cases here : b = blk
    · rw [here,move_self] at known
      exact absurd known (into eb)
    · rw [move_other here] at known
      obtain ⟨member,same⟩ := listed.only b eb known
      rw [(buffers eb (listed.out eb member)).2]
      exact ⟨member,same⟩

theorem Inv.below (inv : Inv s) (known : s.2.book b = some h) : b < s.1.fresh := by
  by_contra above
  rw [inv.fresh b (Nat.not_lt.mp above)] at known
  cases known

theorem Inv.alive (inv : Inv s) (known : s.2.book b = some h) : s.1.blocks b ≠ none := by
  rw [inv.live,known]
  exact Option.some_ne_none h

-- What has to be looked at to see what a step leaves to the others.
theorem leaves_of (inv : Inv s → Inv s') (held : ∀ u, u ≠ t → s'.2.book.heldBy (.task u) = s.2.book.heldBy (.task u))
    (mem : ∀ b h, s.2.book b = some h → h ≠ .task t → s'.1.mem b = s.1.mem b)
    (rawbuf : t ≠ .transRecv → s'.1.sip.rawbuf = s.1.sip.rawbuf) (empty : t ≠ .btTx → s'.2.empty = s.2.empty)
    (refused : t ≠ .btHost → s'.2.refused = s.2.refused) (work : t ≠ .wifiSend → s'.2.work = s.2.work)
    (lent : t ≠ .wifiStack → ∀ b, s.2.book b = some .outside → s'.2.book b = some .outside)
    (hand : ∀ u, u ≠ t → ∀ eb, InHand u s eb → s'.2.out eb = true ∧ s'.1.esf eb = s.1.esf eb) : Leaves t s s' := by
  refine ⟨inv,fun u other => ⟨held u other,fun b owned => ?_,?_,?_,fun eb here => ?_⟩,lent,mem⟩
  · exact mem b _ owned fun same => other (Holder.task.inj same)
  · cases u <;> first | rfl | exact rawbuf other.symm
  · cases u
    case btTx => exact empty other.symm
    case btHost => exact refused other.symm
    case wifiSend => exact work other.symm
    all_goals rfl
  · obtain ⟨out,same⟩ := hand u other eb here
    refine ⟨⟨out,?_⟩,same⟩
    rw [same]
    have held' : (payload (s.1.esf eb)).blk ∈ s'.2.book.heldBy (.task u) := by
      rw [held u other]
      exact here.2
    exact held'

-- Operations by which nothing changes hands.
theorem plain_leaves {o : Op} {r : o.Answer} (plain : o.handles = false) (safe : allowed t o s)
    (acted : books.act t o s r s') : Leaves t s s' := by
  obtain ⟨ans,ran,answered⟩ := act_iff.mp acted
  have step := plain_exec plain ran
  have same := plain_books plain answered
  refine leaves_of (fun inv => ?_) ?_ ?_ ?_ ?_ ?_ ?_ ?_ ?_
  · exact inv_same inv step.blocks step.fresh step.esf step.txQue step.wifiTx (by rw [same]) (by rw [same])
  · rw [same]
    exact fun _ _ => rfl
  · intro b h known other
    apply step.mem
    by_cases here : o.block = some b
    · rcases safe.1 b here with own | ⟨_,reads,_⟩
      · rw [known] at own
        exact absurd (Option.some.inj own) other
      · exact .inr reads
    · exact .inl here
  · exact fun _ => step.rawbuf
  · rw [same]
    exact fun _ => rfl
  · rw [same]
    exact fun _ => rfl
  · rw [same]
    exact fun _ => rfl
  · rw [same]
    exact fun _ _ known => known
  · intro u _ eb here
    refine ⟨?_,by rw [step.esf]⟩
    rw [same]
    exact here.1

theorem within_allowed {o : Op} (inside : within share.own share.lent o) (has : Has t share s) : allowed t o s := by
  refine ⟨fun b here => ?_,fun eb some => ?_,fun null => ?_⟩
  · rcases inside.2 b here with owned | ⟨reads,known⟩
    · exact .inl (has.owns owned)
    · exact .inr ⟨(has.lent b known).1,reads,(has.lent b known).2⟩
  · rw [plain_inserts inside.1] at some
    cases some
  · rw [plain_proper inside.1] at null
    cases null

theorem within_keeps {o : Op} (inside : within share.own share.lent o) : KeepsOp (contract t) (Has t share) o := by
  intro s has
  refine ⟨within_allowed inside has,fun r s' acted => ?_⟩
  have leaves := plain_leaves inside.1 (within_allowed inside has) acted
  obtain ⟨ans,ran,answered⟩ := act_iff.mp acted
  have step := plain_exec inside.1 ran
  have same := plain_books inside.1 answered
  refine ⟨leaves,leaves.inv has.inv,by rw [same]; exact has.own,by rw [same]; exact has.lent,?_,?_,fun x member => ?_⟩
  · rw [← has.rawbuf,rawbufOf,rawbufOf,step.rawbuf]
  · rw [← has.noted]
    unfold notedOf
    rw [same]
  · rw [InHand,step.esf,same]
    exact has.hand x member

theorem within_all {p : Code α} (all : p.All (within share.own share.lent)) : Keeps (contract t) (Has t share) p :=
  (all.mono fun _ => within_keeps).keeps has_stable

theorem within_op {o : Op} {next : o.Answer → Code α} {after : State → Prop} (inside : within share.own share.lent o)
    (rest : ∀ r, Leads (contract t) (Has t share) after (next r)) : Leads (contract t) (Has t share) after (Prog.op o next : Code α) :=
  leads_op has_stable (within_keeps inside) rest

-- A block that did not exist before, for the task that asked for it.
structure Grows (w w' : World) : Prop where
  blocks : ∃ n, w'.blocks = Function.update w.blocks w.fresh (some n)
  fresh : w'.fresh = w.fresh + 1
  rawbuf : w'.sip.rawbuf = w.sip.rawbuf
  txQue : w'.txQue = w.txQue
  wifiTx : w'.wifiTx = w.wifiTx
  mem : ∀ b, b ≠ w.fresh → w'.mem b = w.mem b

structure Taken (t : Task) (s s' : State) : Prop where
  grows : Grows s.1 s'.1
  book : s'.2.book = s.2.book.move (· = s.1.fresh) (some (.task t))
  buffers : ∀ eb, s.2.out eb = true → s'.2.out eb = true ∧ s'.1.esf eb = s.1.esf eb
  empty : s'.2.empty = s.2.empty
  refused : s'.2.refused = s.2.refused
  work : t ≠ .wifiSend → s'.2.work = s.2.work

theorem Taken.keeps (taken : Taken t s s') (inv : Inv s) (known : s.2.book b = some h) : b ≠ s.1.fresh ∧ s'.2.book b = some h := by
  have other : b ≠ s.1.fresh := by
    rintro rfl
    rw [inv.fresh _ (Nat.le_refl _)] at known
    cases known
  refine ⟨other,?_⟩
  rw [taken.book,move_other other]
  exact known

theorem Taken.inv (taken : Taken t s s') (inv : Inv s) : Inv s' := by
  have queues : queued s'.1 = queued s.1 := by rw [queued,queued,taken.grows.txQue]
  obtain ⟨n,blocks⟩ := taken.grows.blocks
  have unknown := inv.fresh s.1.fresh (Nat.le_refl _)
  have moved : OneMove s.1.fresh (some (.task t)) s s' := by
    refine ⟨taken.book,fun b other => ?_,?_,?_,?_,fun b _ => by rw [queues],?_⟩
    · rw [blocks,Function.update_of_ne other]
    · rw [blocks,Function.update_self]
      exact ⟨fun _ => Option.some_ne_none _,fun _ => Option.some_ne_none _⟩
    · rw [taken.grows.fresh]
      exact Nat.le_succ _
    · rw [taken.grows.fresh]
      exact Nat.lt_succ_self _
    · rw [queues,inv.messages,unknown]
      exact ⟨fun same => (by cases same),fun same => (by cases same)⟩
  refine moved.inv inv ?_ (moved.listed inv (fun eb known => ?_) (fun _ same => by cases same) taken.grows.wifiTx taken.buffers)
  · rw [queues]
    exact inv.distinct
  · rw [unknown] at known
    cases known

theorem Taken.leaves (taken : Taken t s s') (inv : Inv s) : Leaves t s s' := by
  refine leaves_of taken.inv (fun u other => ?_) (fun b h known _ => ?_) (fun _ => taken.grows.rawbuf) (fun _ => taken.empty)
    (fun _ => taken.refused) taken.work (fun _ b known => (taken.keeps inv known).2) (fun u _ eb here => taken.buffers eb here.1)
  · rw [taken.book]
    refine heldBy_bystander (fun same => other (Holder.task.inj (Option.some.inj same)).symm) fun b here known => ?_
    exact (taken.keeps inv known).1 here
  · exact taken.grows.mem b (taken.keeps inv known).1

theorem Taken.noted (taken : Taken t s s') (other : t ≠ .wifiSend) : notedOf t s' = notedOf t s := by
  unfold notedOf
  rw [taken.empty,taken.refused,taken.work other]

theorem Taken.has (taken : Taken t s s') (has : Has t share s) :
    Has t {share with own := insert s.1.fresh share.own,noted := notedOf t s'} s' := by
  refine ⟨taken.inv has.inv,?_,fun b member => ?_,?_,rfl,fun x member => ?_⟩
  · rw [taken.book,heldBy_receiver,has.own]
    rfl
  · obtain ⟨stack,known⟩ := has.lent b member
    exact ⟨stack,(taken.keeps has.inv known).2⟩
  · rw [← has.rawbuf,rawbufOf,rawbufOf,taken.grows.rawbuf]
  · obtain ⟨here,same⟩ := has.hand x member
    obtain ⟨out,still⟩ := taken.buffers x.1 here.1
    refine ⟨⟨out,?_⟩,still.trans same⟩
    rw [still]
    exact (taken.keeps has.inv here.2).2

theorem malloc_taken {r : Option Ptr} (acted : books.act t (.malloc size) s r s') :
    (r = none ∧ s' = s) ∨ (r = some ⟨s.1.fresh,0⟩ ∧ Taken t s s') := by
  obtain ⟨w',d'⟩ := s'
  obtain ⟨ans,ran,answered⟩ := act_iff.mp acted
  have book : (if ans.flag then s.2.allocate t s.1.fresh else s.2) = d' := Option.some.inj answered
  cases given : ans.flag with
  | false =>
      rw [given] at book
      simp only [World.exec,given] at ran
      cases ran
      cases book
      exact .inl ⟨rfl,rfl⟩
  | true =>
      rw [given] at book
      simp only [World.exec,given] at ran
      cases ran
      cases book
      exact .inr ⟨rfl,⟨⟨_,rfl⟩,rfl,rfl,rfl,rfl,fun _ _ => rfl⟩,rfl,fun _ out => ⟨out,rfl⟩,rfl,rfl,fun other => if_neg other⟩

theorem malloc_sendBuf {p : Ptr} (acted : books.act .wifiSend (.malloc size) s (some p) s') : notedOf .wifiSend s' = [p.blk] := by
  obtain ⟨w',d'⟩ := s'
  obtain ⟨ans,ran,answered⟩ := act_iff.mp acted
  have book : (if ans.flag then s.2.allocate .wifiSend s.1.fresh else s.2) = d' := Option.some.inj answered
  cases given : ans.flag with
  | false =>
      simp only [World.exec,given] at ran
      cases ran
  | true =>
      rw [given] at book
      simp only [World.exec,given] at ran
      cases ran
      cases book
      rfl

theorem calloc_taken {r : Option Ptr} (acted : books.act t (.calloc size) s r s') :
    (r = none ∧ s' = s) ∨ (r = some ⟨s.1.fresh,0⟩ ∧ Taken t s s') := by
  obtain ⟨w',d'⟩ := s'
  obtain ⟨ans,ran,answered⟩ := act_iff.mp acted
  have book : (if ans.flag then s.2.allocate t s.1.fresh else s.2) = d' := Option.some.inj answered
  cases given : ans.flag with
  | false =>
      rw [given] at book
      simp only [World.exec,given] at ran
      cases ran
      cases book
      exact .inl ⟨rfl,rfl⟩
  | true =>
      rw [given] at book
      simp only [World.exec,given] at ran
      cases ran
      cases book
      exact .inr ⟨rfl,⟨⟨_,rfl⟩,rfl,rfl,rfl,rfl,fun _ other => write_other other⟩,rfl,fun _ out => ⟨out,rfl⟩,rfl,rfl,fun other => if_neg other⟩

-- The task goes on with the block, or without one.
theorem taken_steps {r : Option Ptr} {next : Option Ptr → Code α} {post : α → State → Prop} (has : Has t share s) (other : t ≠ .wifiSend)
    (taken : (r = none ∧ s' = s) ∨ (r = some ⟨s.1.fresh,0⟩ ∧ Taken t s s')) (failed : wp (contract t) (next none) post s)
    (given : ∀ p s', p.blk ∉ share.own → Has t {share with own := insert p.blk share.own} s' →
      wp (contract t) (next (some p)) post s') : Leaves t s s' ∧ wp (contract t) (next r) post s' := by
  rcases taken with ⟨rfl,rfl⟩ | ⟨rfl,taken⟩
  · exact ⟨.refl _ _,failed⟩
  · have later := taken.has has
    rw [taken.noted other,has.noted] at later
    refine ⟨taken.leaves has.inv,given ⟨s.1.fresh,0⟩ s' (fun member => ?_) later⟩
    exact (taken.keeps has.inv (has.owns member)).1 rfl

theorem malloc_wp {next : Option Ptr → Code α} {post : α → State → Prop} (has : Has t share s) (other : t ≠ .wifiSend)
    (failed : ∀ s, Has t share s → wp (contract t) (next none) post s)
    (given : ∀ p s, p.blk ∉ share.own → Has t {share with own := insert p.blk share.own} s → wp (contract t) (next (some p)) post s) :
    wp (contract t) (Prog.op (.malloc size) next : Code α) post s := by
  intro s₁ moved
  have has₁ := has_stable s s₁ has moved
  exact ⟨allowed_plain rfl rfl rfl,fun r s₂ acted => taken_steps has₁ other (malloc_taken acted) (failed s₁ has₁) given⟩

theorem calloc_wp {next : Option Ptr → Code α} {post : α → State → Prop} (has : Has t share s) (other : t ≠ .wifiSend)
    (failed : ∀ s, Has t share s → wp (contract t) (next none) post s)
    (given : ∀ p s, p.blk ∉ share.own → Has t {share with own := insert p.blk share.own} s → wp (contract t) (next (some p)) post s) :
    wp (contract t) (Prog.op (.calloc size) next : Code α) post s := by
  intro s₁ moved
  have has₁ := has_stable s s₁ has moved
  exact ⟨allowed_plain rfl rfl rfl,fun r s₂ acted => taken_steps has₁ other (calloc_taken acted) (failed s₁ has₁) given⟩

-- The block that `wifi_send_task` asks for is `send_buf`.
theorem sendBuf_wp {next : Option Ptr → Code α} {post : α → State → Prop} (has : Has .wifiSend share s)
    (failed : ∀ s, Has .wifiSend share s → wp (contract .wifiSend) (next none) post s)
    (given : ∀ p s, p.blk ∉ share.own → Has .wifiSend {share with own := insert p.blk share.own,noted := [p.blk]} s →
      wp (contract .wifiSend) (next (some p)) post s) :
    wp (contract .wifiSend) (Prog.op (.malloc size) next : Code α) post s := by
  intro s₁ moved
  have has₁ := has_stable s s₁ has moved
  refine ⟨allowed_plain rfl rfl rfl,fun r s₂ acted => ?_⟩
  rcases malloc_taken acted with ⟨rfl,rfl⟩ | ⟨rfl,taken⟩
  · exact ⟨.refl _ _,failed s₂ has₁⟩
  · have later := taken.has has₁
    rw [malloc_sendBuf acted] at later
    refine ⟨taken.leaves has₁.inv,given ⟨s₁.1.fresh,0⟩ s₂ (fun member => ?_) later⟩
    exact (taken.keeps has₁.inv (has₁.owns member)).1 rfl

-- An access that no block is for leaves everything as it is.
theorem null_wp {next : List UInt8 → Code α} {post : α → State → Prop} (unchecked : t = .btHost ∨ t = .wifiStack) (has : Has t share s)
    (rest : ∀ bytes s, Has t share s → wp (contract t) (next bytes) post s) :
    wp (contract t) (Prog.op (.derefNull n) next : Code α) post s := by
  intro s₁ moved
  have has₁ := has_stable s s₁ has moved
  refine ⟨⟨fun b some => (by cases some),fun eb some => (by cases some),fun _ => unchecked⟩,fun r s₂ acted => ?_⟩
  obtain ⟨w₂,d₂⟩ := s₂
  obtain ⟨ans,ran,answered⟩ := act_iff.mp acted
  obtain ⟨_,given⟩ := Option.ite_none_right_eq_some.mp ran
  cases given
  cases answered
  exact ⟨.refl _ _,rest _ s₁ has₁⟩

-- A task parts with one of its blocks.
structure Passes (t : Task) (blk : Nat) (dest : Option Holder) (s s' : State) : Prop where
  owned : s.2.book blk = some (.task t)
  away : ∀ u, dest ≠ some (.task u)
  inv : Inv s → Inv s'
  book : s'.2.book = s.2.book.move (· = blk) dest
  mem : s'.1.mem = s.1.mem
  rawbuf : s'.1.sip.rawbuf = s.1.sip.rawbuf
  empty : s'.2.empty = s.2.empty
  refused : s'.2.refused = s.2.refused
  work : s'.2.work = s.2.work
  buffers : ∀ eb, s.2.out eb = true → (∃ u, u ≠ t ∧ s.2.book (payload (s.1.esf eb)).blk = some (.task u)) →
    s'.2.out eb = true ∧ s'.1.esf eb = s.1.esf eb

theorem Passes.leaves (passes : Passes t blk dest s s') : Leaves t s s' := by
  have elsewhere : ∀ b h, s.2.book b = some h → h ≠ .task t → b ≠ blk := by
    rintro b h known other rfl
    rw [passes.owned] at known
    exact other (Option.some.inj known).symm
  refine leaves_of passes.inv (fun u other => ?_) (fun _ _ _ _ => by rw [passes.mem]) (fun _ => passes.rawbuf)
    (fun _ => passes.empty) (fun _ => passes.refused) (fun _ => passes.work) (fun _ b known => ?_) fun u other eb here => passes.buffers eb here.1 ⟨u,other,here.2⟩
  · rw [passes.book]
    exact heldBy_bystander (passes.away u) fun b here known => elsewhere b _ known (fun same => other (Holder.task.inj same)) here
  · rw [passes.book,move_other (elsewhere b _ known fun same => by cases same)]
    exact known

theorem Passes.has (passes : Passes t blk dest s s') (has : Has t share s) :
    Has t {share with own := share.own \ {blk},hand := []} s' := by
  refine ⟨passes.inv has.inv,?_,fun b member => ?_,?_,?_,fun x member => absurd member List.not_mem_nil⟩
  · rw [passes.book,heldBy_giver (passes.away t),has.own]
    rfl
  · obtain ⟨stack,known⟩ := has.lent b member
    refine ⟨stack,?_⟩
    rw [passes.book,move_other]
    · exact known
    · rintro rfl
      rw [passes.owned] at known
      cases known
  · rw [← has.rawbuf,rawbufOf,rawbufOf,passes.rawbuf]
  · rw [← has.noted]
    unfold notedOf
    rw [passes.empty,passes.refused,passes.work]

-- A task comes by a block that waited somewhere.
structure Accepts (t : Task) (blk : Nat) (s s' : State) : Prop where
  waited : ∃ h, s.2.book blk = some h ∧ (∀ u, h ≠ .task u) ∧ (h = .outside → t = .wifiStack)
  inv : Inv s → Inv s'
  book : s'.2.book = s.2.book.move (· = blk) (some (.task t))
  mem : s'.1.mem = s.1.mem
  rawbuf : s'.1.sip.rawbuf = s.1.sip.rawbuf
  empty : t ≠ .btTx → s'.2.empty = s.2.empty
  refused : s'.2.refused = s.2.refused
  work : t ≠ .wifiSend → s'.2.work = s.2.work
  buffers : ∀ eb, s.2.out eb = true → s'.2.out eb = true ∧ s'.1.esf eb = s.1.esf eb

theorem Accepts.leaves (accepts : Accepts t blk s s') : Leaves t s s' := by
  obtain ⟨h,waited,nobody,lender⟩ := accepts.waited
  refine leaves_of accepts.inv (fun u other => ?_) (fun _ _ _ _ => by rw [accepts.mem]) (fun _ => accepts.rawbuf) accepts.empty
    (fun _ => accepts.refused) accepts.work (fun stack b known => ?_) fun u _ eb here => accepts.buffers eb here.1
  · rw [accepts.book]
    refine heldBy_bystander (fun same => other (Holder.task.inj (Option.some.inj same)).symm) ?_
    rintro b rfl known
    rw [waited] at known
    exact nobody u (Option.some.inj known)
  · rw [accepts.book,move_other]
    · exact known
    · rintro rfl
      rw [waited] at known
      exact stack (lender (Option.some.inj known))

theorem Accepts.has (accepts : Accepts t blk s s') (has : Has t share s) (unlent : blk ∉ share.lent) (hand : List (EbPtr × EsfBuf))
    (held : ∀ x ∈ hand, InHand t s' x.1 ∧ s'.1.esf x.1 = x.2) :
    Has t {share with own := insert blk share.own,noted := notedOf t s',hand := hand} s' := by
  refine ⟨accepts.inv has.inv,?_,fun b member => ?_,?_,rfl,held⟩
  · rw [accepts.book,heldBy_receiver,has.own]
    rfl
  · obtain ⟨stack,known⟩ := has.lent b member
    refine ⟨stack,?_⟩
    rw [accepts.book,move_other]
    · exact known
    · exact fun same => unlent (same ▸ member)
  · rw [← has.rawbuf,rawbufOf,rawbufOf,accepts.rawbuf]

-- What waits in the queue is not with a task.
theorem queued_apart (inv : Inv s) (owned : s.2.book blk = some (.task t)) : blk ∉ queued s.1 := by
  intro waits
  rw [(inv.messages blk).mp waits] at owned
  cases owned

theorem free_inv {p : Ptr} (inv : Inv s) (owned : s.2.book p.blk = some (.task t)) :
    Inv ({s.1 with blocks := Function.update s.1.blocks p.blk none},s.2.move p.blk none) := by
  have moved : OneMove p.blk none s ({s.1 with blocks := Function.update s.1.blocks p.blk none},s.2.move p.blk none) := by
    refine ⟨rfl,fun b other => Function.update_of_ne other _ _,?_,Nat.le_refl _,inv.below owned,fun _ _ => Iff.rfl,?_⟩
    · exact ⟨fun some => absurd (Function.update_self ..) some,fun some => absurd rfl some⟩
    · exact ⟨fun waits => absurd waits (queued_apart (s := s) inv owned),fun same => by cases same⟩
  refine moved.inv inv inv.distinct (moved.listed inv (fun eb known => ?_) (fun _ same => by cases same) rfl fun _ out => ⟨out,rfl⟩)
  rw [owned] at known
  cases known

theorem free_wp {next : Unit → Code α} {post : α → State → Prop} {p : Ptr} (has : Has t share s) (owned : p.blk ∈ share.own)
    (rest : ∀ s, Has t {share with own := share.own \ {p.blk},hand := []} s → wp (contract t) (next ()) post s) :
    wp (contract t) (Prog.op (.free p) next : Code α) post s := by
  intro s₁ moved
  have has₁ := has_stable s s₁ has moved
  have mine := has₁.owns owned
  refine ⟨⟨fun b here => ?_,fun eb some => (by cases some),fun null => by cases null⟩,fun r s₂ acted => ?_⟩
  · cases here
    exact .inl mine
  · obtain ⟨w₂,d₂⟩ := s₂
    obtain ⟨ans,ran,answered⟩ := act_iff.mp acted
    cases ran
    cases answered
    have passes : Passes t p.blk none s₁ ({s₁.1 with blocks := Function.update s₁.1.blocks p.blk none},s₁.2.move p.blk none) :=
      ⟨mine,fun u same => (by cases same),fun inv => free_inv inv mine,rfl,rfl,rfl,rfl,rfl,rfl,fun eb out _ => ⟨out,rfl⟩⟩
    exact ⟨passes.leaves,rest _ (passes.has has₁)⟩

-- A message goes into the queue with its block, or keeps it for want of room.
theorem send_inv {p : Ptr} {len : UInt32} (inv : Inv s) (owned : s.2.book p.blk = some (.task t)) :
    Inv ({s.1 with txQue := s.1.txQue ++ [⟨some p,len⟩]},s.2.move p.blk (some .message)) := by
  have apart := queued_apart inv owned
  have queues : queued {s.1 with txQue := s.1.txQue ++ [⟨some p,len⟩]} = queued s.1 ++ [p.blk] := by
    simp [queued,List.filterMap_append]
  have moved : OneMove p.blk (some .message) s
      ({s.1 with txQue := s.1.txQue ++ [⟨some p,len⟩]},s.2.move p.blk (some .message)) := by
    refine ⟨rfl,fun _ _ => rfl,?_,Nat.le_refl _,inv.below owned,fun b other => ?_,?_⟩
    · exact ⟨fun _ => Option.some_ne_none _,fun _ => inv.alive owned⟩
    · rw [queues,List.mem_append,List.mem_singleton]
      exact ⟨fun waits => waits.resolve_right other,.inl⟩
    · rw [queues]
      exact ⟨fun _ => rfl,fun _ => List.mem_append_right _ List.mem_cons_self⟩
  refine moved.inv inv ?_ (moved.listed inv (fun eb known => ?_) (fun _ same => by cases same) rfl fun _ out => ⟨out,rfl⟩)
  · rw [queues]
    refine List.nodup_append.mpr ⟨inv.distinct,List.nodup_singleton _,?_⟩
    intro b before c last same
    rw [List.mem_singleton.mp last] at same
    exact apart (same ▸ before)
  · rw [owned] at known
    cases known

theorem send_wp {next : Bool → Code α} {post : α → State → Prop} {p : Ptr} {len wait : UInt32} (has : Has .btHost share s)
    (owned : p.blk ∈ share.own)
    (queued : ∀ s, Has .btHost {share with own := share.own \ {p.blk},hand := []} s → wp (contract .btHost) (next true) post s)
    (refused : ∀ s, Has .btHost {share with noted := p.blk :: share.noted} s → wp (contract .btHost) (next false) post s) :
    wp (contract .btHost) (Prog.op (.queueSend ⟨some p,len⟩ wait) next : Code α) post s := by
  intro s₁ moved
  have has₁ := has_stable s s₁ has moved
  have mine := has₁.owns owned
  refine ⟨allowed_plain rfl rfl rfl,fun r s₂ acted => ?_⟩
  obtain ⟨w₂,d₂⟩ := s₂
  obtain ⟨ans,ran,answered⟩ := act_iff.mp acted
  have book : (if s₁.1.txQue.length < 25 then s₁.2.move p.blk (some .message) else s₁.2.refuse p.blk) = d₂ := Option.some.inj answered
  by_cases room : s₁.1.txQue.length < 25
  · simp only [World.exec,if_pos room] at ran
    rw [if_pos room] at book
    cases ran
    cases book
    have passes : Passes .btHost p.blk (some .message) s₁
        ({s₁.1 with txQue := s₁.1.txQue ++ [⟨some p,len⟩]},s₁.2.move p.blk (some .message)) :=
      ⟨mine,fun u same => (by cases same),fun inv => send_inv inv mine,rfl,rfl,rfl,rfl,rfl,rfl,fun eb out _ => ⟨out,rfl⟩⟩
    exact ⟨passes.leaves,queued _ (passes.has has₁)⟩
  · simp only [World.exec,if_neg room] at ran
    rw [if_neg room] at book
    cases ran
    cases book
    refine ⟨?_,refused _ ⟨?_,has₁.own,has₁.lent,has₁.rawbuf,congrArg (p.blk :: ·) has₁.noted,has₁.hand⟩⟩
    · refine leaves_of (fun inv => inv_same inv rfl rfl rfl rfl rfl rfl rfl) (fun _ _ => rfl) (fun _ _ _ _ => rfl) (fun _ => rfl)
        (fun _ => rfl) (fun other => absurd rfl other) (fun _ => rfl) (fun _ _ known => known) fun _ _ _ here => ⟨here.1,rfl⟩
    · exact inv_same has₁.inv rfl rfl rfl rfl rfl rfl rfl

-- A message without a block moves through the queue without any effect.
theorem bare_inv {w' : World} (inv : Inv s) (queues : queued w' = queued s.1) (world : w' = {s.1 with txQue := w'.txQue}) :
    Inv (w',s.2) := by
  rw [world] at queues ⊢
  obtain ⟨xs,listed⟩ := inv.listed
  refine ⟨inv.live,inv.fresh,fun b => ?_,?_,⟨xs,listed.represents,listed.out,listed.kept,listed.only⟩⟩
  · rw [queues]
    exact inv.messages b
  · rw [queues]
    exact inv.distinct

theorem bare_leaves {w' : World} (queues : queued w' = queued s.1) (world : w' = {s.1 with txQue := w'.txQue}) :
    Leaves t s (w',s.2) := by
  refine leaves_of (fun inv => bare_inv inv queues world) (fun _ _ => rfl) (fun _ _ _ _ => ?_) (fun _ => ?_) (fun _ => rfl)
    (fun _ => rfl) (fun _ => rfl) (fun _ _ known => known) fun _ _ eb here => ⟨here.1,?_⟩
  all_goals rw [world]

theorem bare_has {w' : World} (has : Has t share s) (queues : queued w' = queued s.1) (world : w' = {s.1 with txQue := w'.txQue}) :
    Has t share (w',s.2) := by
  refine ⟨bare_inv has.inv queues world,has.own,has.lent,?_,?_,fun x member => ?_⟩
  · rw [← has.rawbuf,rawbufOf,rawbufOf,world]
  · rw [← has.noted]
    cases t <;> rfl
  · rw [InHand,world]
    exact has.hand x member

theorem sendBare_wp {next : Bool → Code α} {post : α → State → Prop} {len wait : UInt32} (has : Has .btHost share s)
    (rest : ∀ r s, Has .btHost share s → wp (contract .btHost) (next r) post s) :
    wp (contract .btHost) (Prog.op (.queueSend ⟨none,len⟩ wait) next : Code α) post s := by
  intro s₁ moved
  have has₁ := has_stable s s₁ has moved
  refine ⟨allowed_plain rfl rfl rfl,fun r s₂ acted => ?_⟩
  obtain ⟨w₂,d₂⟩ := s₂
  obtain ⟨ans,ran,answered⟩ := act_iff.mp acted
  cases answered
  have queues : queued w₂ = queued s₁.1 ∧ w₂ = {s₁.1 with txQue := w₂.txQue} := by
    simp only [World.exec] at ran
    split at ran
    · cases ran
      exact ⟨by simp [queued,List.filterMap_append],rfl⟩
    · cases ran
      exact ⟨rfl,rfl⟩
  exact ⟨bare_leaves queues.1 queues.2,rest r _ (bare_has has₁ queues.1 queues.2)⟩

theorem receive_inv {p : Ptr} {len : UInt32} {rest : List TxMsg} (inv : Inv s) (first : s.1.txQue = ⟨some p,len⟩ :: rest) :
    Inv ({s.1 with txQue := rest},s.2.receive t p.blk len) := by
  have queues : queued s.1 = p.blk :: queued {s.1 with txQue := rest} := by
    rw [queued,first]
    rfl
  have waited : s.2.book p.blk = some .message := (inv.messages p.blk).mp (by rw [queues]; exact List.mem_cons_self)
  have distinct := inv.distinct
  rw [queues] at distinct
  obtain ⟨gone,remaining⟩ := List.nodup_cons.mp distinct
  have moved : OneMove p.blk (some (.task t)) s ({s.1 with txQue := rest},s.2.receive t p.blk len) := by
    refine ⟨rfl,fun _ _ => rfl,?_,Nat.le_refl _,inv.below waited,fun b other => ?_,?_⟩
    · exact ⟨fun _ => Option.some_ne_none _,fun _ => inv.alive waited⟩
    · rw [queues,List.mem_cons]
      exact ⟨.inr,fun waits => waits.resolve_left other⟩
    · exact ⟨fun waits => absurd waits gone,fun same => by cases same⟩
  refine moved.inv inv remaining (moved.listed inv (fun eb known => ?_) (fun _ same => by cases same) rfl fun _ out => ⟨out,rfl⟩)
  rw [waited] at known
  cases known

theorem books_given {w : World} {p : Ptr} {len : UInt32} {rest : List TxMsg} (first : w.txQue = ⟨some p,len⟩ :: rest) (ans : Ans)
    (d : Books) : books.answers t w .queueReceive ans d = some (d.receive t p.blk len) := by
  unfold books
  simp only [first]

theorem books_bare {w : World} {len : UInt32} {rest : List TxMsg} (first : w.txQue = ⟨none,len⟩ :: rest) (ans : Ans) (d : Books) :
    books.answers t w .queueReceive ans d = some d := by
  unfold books
  simp only [first]

theorem receive_wp {next : Option TxMsg → Code α} {post : α → State → Prop} (has : Has .btTx share s) (unlent : share.lent = ∅)
    (bare : ∀ len s, Has .btTx share s → wp (contract .btTx) (next (some ⟨none,len⟩)) post s)
    (given : ∀ p len s, p.blk ∉ share.own → Has .btTx (share.received p.blk len) s →
      wp (contract .btTx) (next (some ⟨some p,len⟩)) post s) :
    wp (contract .btTx) (Prog.op .queueReceive next : Code α) post s := by
  intro s₁ moved
  have has₁ := has_stable s s₁ has moved
  refine ⟨allowed_plain rfl rfl rfl,fun r s₂ acted => ?_⟩
  obtain ⟨w₂,d₂⟩ := s₂
  obtain ⟨ans,ran,answered⟩ := act_iff.mp acted
  obtain ⟨w₁,d₁⟩ := s₁
  cases first : w₁.txQue with
  | nil =>
      simp only [World.exec,first] at ran
      cases ran
  | cons msg rest =>
      obtain ⟨data,len⟩ := msg
      simp only [World.exec,first] at ran
      cases ran
      cases data with
      | none =>
          rw [books_bare first] at answered
          cases answered
          have queues : queued {w₁ with txQue := rest} = queued w₁ := by
            rw [queued,queued,first]
            rfl
          exact ⟨bare_leaves queues rfl,bare len _ (bare_has has₁ queues rfl)⟩
      | some p =>
          rw [books_given first] at answered
          cases answered
          have waited : d₁.book p.blk = some .message := by
            apply (has₁.inv.messages _).mp
            rw [queued,first]
            exact List.mem_cons_self
          have accepts : Accepts .btTx p.blk (w₁,d₁) ({w₁ with txQue := rest},d₁.receive .btTx p.blk len) :=
            ⟨⟨_,waited,fun u same => (by cases same),fun same => (by cases same)⟩,fun inv => receive_inv inv first,rfl,rfl,rfl,
              fun other => absurd rfl other,rfl,fun _ => rfl,fun eb out => ⟨out,rfl⟩⟩
          refine ⟨accepts.leaves,given p len _ (fun member => ?_) ?_⟩
          · rw [has₁.owns member] at waited
            cases waited
          have later := accepts.has has₁ (by rw [unlent]; exact Set.notMem_empty _) [] fun x member => absurd member List.not_mem_nil
          have noted : notedOf .btTx ({w₁ with txQue := rest},d₁.receive .btTx p.blk len) =
              if len = 0 then p.blk :: share.noted else share.noted := by
            rw [← has₁.noted]
            rfl
          rw [noted] at later
          exact later

end
end ExtConn.HeapBooks
