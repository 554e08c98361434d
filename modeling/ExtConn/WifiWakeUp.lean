import ExtConn.System

namespace ExtConn.WifiWakeUp
open Effects Interleaving

-- The bit says at least as much as the list: what is queued is announced.
def Flagged (q : WifiTx) : Prop := q.txHead ≠ nullEb → q.listEvent = true

theorem insert_flagged (eb : EbPtr) (q : WifiTx) (held : Flagged q) : Flagged (listInsert eb q).2 := by
  unfold listInsert
  by_cases null : eb = nullEb
  · rw [if_pos null]
    exact held
  · rw [if_neg null]
    exact fun _ => rfl

theorem headInsert_flagged (eb : EbPtr) (q : WifiTx) (held : Flagged q) : Flagged (listHeadInsert eb q).2 := by
  unfold listHeadInsert
  by_cases null : eb = nullEb
  · rw [if_pos null]
    exact held
  · rw [if_neg null]
    exact fun _ => rfl

-- The bit stays as it is where a buffer is taken, and is cleared with the list
-- found empty.
theorem remove_event (q : WifiTx) : (listRemove q).2.listEvent = if q.txHead = nullEb then false else q.listEvent := by
  unfold listRemove
  by_cases empty : q.txHead = nullEb
  · simp [empty]
  · simp [empty]

theorem remove_flagged (q : WifiTx) (held : Flagged q) : Flagged (listRemove q).2 := by
  intro queued
  rw [remove_event]
  by_cases empty : q.txHead = nullEb
  · refine absurd ?_ queued
    simp [listRemove,empty]
  · rw [if_neg empty]
    exact held empty

theorem clearBody_event (drop : EbPtr → Bool) (q : WifiTx) (l : ClearLocals) :
    (listClearBody drop q l).1.listEvent = q.listEvent := by
  simp only [listClearBody]
  split
  · rfl
  · split <;> rfl

theorem clearLoop_event {drop : EbPtr → Bool} {q q' : WifiTx} {l l' : ClearLocals}
    (ran : listClearLoop drop fuel q l = some (q',l')) : q'.listEvent = q.listEvent := by
  induction fuel generalizing q l with
  | zero => cases ran
  | succ fuel ih =>
      simp only [listClearLoop] at ran
      split at ran
      · cases ran
        rfl
      · split at ran
        · cases ran
          exact clearBody_event drop q l
        · rw [ih ran]
          exact clearBody_event drop q l

-- `list_clear` leaves the bit alone and makes no list out of an empty one.
theorem clear_event {drop : EbPtr → Bool} {q q' : WifiTx} (ran : listClear drop fuel q = some (recycled,q')) :
    q'.listEvent = q.listEvent ∧ (q.txHead = nullEb → q'.txHead = nullEb) := by
  obtain ⟨⟨q₁,l₁⟩,looped,same⟩ := Option.map_eq_some_iff.mp ran
  cases same
  refine ⟨(clearLoop_event looped : q₁.listEvent = q.listEvent),fun empty => ?_⟩
  cases fuel with
  | zero => cases looped
  | succ fuel =>
      rw [listClearLoop,if_pos empty] at looped
      cases looped
      rfl

theorem clear_flagged {drop : EbPtr → Bool} {q q' : WifiTx} (held : Flagged q)
    (ran : listClear drop fuel q = some (recycled,q')) : Flagged q' := by
  obtain ⟨event,empty⟩ := clear_event ran
  intro queued
  rw [event]
  exact held fun none => queued (empty none)

theorem exec_flagged {t : Task} {o : Op} {r : o.Answer} {w w' : World} (held : Flagged w.wifiTx)
    (ran : World.exec t o ans w = some (r,w')) : Flagged w'.wifiTx := by
  cases o
  case listRemove =>
    cases ran
    exact remove_flagged _ held
  case listInsert eb =>
    cases ran
    exact insert_flagged eb _ held
  case listHeadInsert eb =>
    cases ran
    exact headInsert_flagged eb _ held
  case listClear =>
    obtain ⟨⟨recycled,q⟩,cleared,same⟩ := Option.map_eq_some_iff.mp ran
    cases same
    exact clear_flagged held cleared
  all_goals
    rw [list_kept rfl ran]
    exact held

-- Only `list_remove` on an empty list takes the bit away.
theorem exec_clears {t : Task} {o : Op} {r : o.Answer} {w w' : World} (ran : World.exec t o ans w = some (r,w'))
    (before : w.wifiTx.listEvent = true) (after : w'.wifiTx.listEvent = false) : o = .listRemove ∧ w.wifiTx.txHead = nullEb := by
  cases o
  case listRemove =>
    cases ran
    refine ⟨rfl,?_⟩
    have event := (remove_event w.wifiTx).symm.trans after
    split at event
    · assumption
    · rw [before] at event
      cases event
  case listInsert eb =>
    cases ran
    unfold listInsert at after
    split at after
    · rw [before] at after
      cases after
    · cases after
  case listHeadInsert eb =>
    cases ran
    unfold listHeadInsert at after
    split at after
    · rw [before] at after
      cases after
    · cases after
  case listClear =>
    obtain ⟨⟨recycled,q⟩,cleared,same⟩ := Option.map_eq_some_iff.mp ran
    cases same
    rw [(clear_event cleared).1,before] at after
    cases after
  all_goals
    rw [list_kept rfl ran,before] at after
    cases after

section
variable {ι : Type} [DecidableEq ι]

abbrev Config (ι : Type) := Interleaving.Config signature (Option ι) Label (World × Unit)

-- Any number of producers, and nothing known about what is outside.
def producers (cfg : Build) : Machine signature (Option ι) Label (World × Unit) := transmitPath cfg fun _ => openSlave

def queueOf (c : Config ι) : WifiTx := c.shared.1.wifiTx

structure Awake (cfg : Build) (c : Config ι) : Prop where
  flagged : Flagged (queueOf c)
  woken : ∀ t, c.pending t = some .listWaitItem → (queueOf c).txHead ≠ nullEb →
    ∃ r s', (producers cfg).act t .listWaitItem c.shared r s'
  cleared : ∀ next, Step (producers cfg) c next → (queueOf c).listEvent = true → (queueOf next).listEvent = false →
    ∃ t, c.pending t = some .listRemove ∧ (queueOf c).txHead = nullEb ∧ queueOf next = (listRemove (queueOf c)).2

theorem step_flagged {cfg : Build} {c next : Config ι} (held : Flagged (queueOf c)) (step : Step (producers cfg) c next) :
    Flagged (queueOf next) := by
  cases step with
  | op t here acted =>
      obtain ⟨ans,ran⟩ := act_exec acted
      exact exec_flagged held ran
  | jump t here => exact held
  | env moved =>
      unfold queueOf
      rw [moved.1]
      exact held

theorem step_clears {cfg : Build} {c d : Config ι} (step : Step (producers cfg) c d)
    (before : (queueOf c).listEvent = true) (after : (queueOf d).listEvent = false) :
    ∃ t, c.pending t = some .listRemove ∧ (queueOf c).txHead = nullEb ∧ queueOf d = (listRemove (queueOf c)).2 := by
  cases step with
  | op t here acted =>
      obtain ⟨ans,ran⟩ := act_exec acted
      obtain ⟨rfl,empty⟩ := exec_clears ran before after
      refine ⟨t,pending_iff.mpr ⟨_,here⟩,empty,?_⟩
      exact congrArg (fun result => result.2.wifiTx) (Option.some.inj ran).symm
  | jump t here => exact absurd (before.symm.trans after) nofun
  | env moved =>
      unfold queueOf at before after
      rw [moved.1,before] at after
      cases after

theorem wake_up_kept (cfg : Build) {start c : Config ι} (fresh : Flagged (queueOf start))
    (path : Reached (producers cfg) start c) : Awake cfg c := by
  have flagged : Flagged (queueOf c) :=
    reached_invariant (fun c => Flagged (queueOf c)) fresh (fun _ _ held step => step_flagged held step) path
  refine ⟨flagged,fun t waiting queued => ?_,fun next step => step_clears step⟩
  have awake : c.shared.1.wifiTx.listEvent = true := flagged queued
  refine ⟨(),c.shared,{flag := true},?_⟩
  rw [exec_iff]
  exact ⟨by rw [World.exec,if_pos awake],rfl⟩

end

-- Two producers, everything at its head and nothing queued.
def idle : Config (Fin 2) where
  shared := (World.initial {espSipInit with state := .run},())
  running
    | none => .pure .wifiSendTask
    | some _ => .pure .wifiStack

-- Both hand in a buffer while the transmit task is on its way to wait for one.
def handedIn : List ((Option (Fin 2)) × Ans) :=
  List.replicate 3 (some 0,{call := .data 1}) ++ List.replicate 3 (some 1,{call := .data 2}) ++
    List.replicate 4 (none,{word := 2048})

theorem idle_woken : ∃ c, Reached (producers ⟨true,true⟩) idle c ∧ c.pending none = some .listWaitItem ∧
    (queueOf c).txHead = 1 ∧ Awake ⟨true,true⟩ c := by
  have passed : (schedule (block ⟨true,true⟩) (fun t => openSlave.exec (roleOf t)) handedIn idle).any
      (fun c => c.pending none = some .listWaitItem && decide ((queueOf c).txHead = 1)) = true := by decide +kernel
  obtain ⟨c,path,waiting⟩ := schedule_exists (m := producers ⟨true,true⟩) (fun _ _ ans _ _ _ ran => ⟨ans,ran⟩) _ passed
  simp only [Bool.and_eq_true,decide_eq_true_eq] at waiting
  exact ⟨c,path,waiting.1,waiting.2,wake_up_kept ⟨true,true⟩ (fun queued => absurd rfl queued) path⟩

end ExtConn.WifiWakeUp
