import ExtConn.Registers

namespace ExtConn

-- An `esf_buf_t *`; 0 is NULL.
abbrev EbPtr := Nat
def nullEb : EbPtr := 0

-- `wifi_tx_ctx_t` together with the `bqentry.stqe_next` field of every buffer.
-- `listEvent` is the WIFI_NEED_SEND bit of the event group. The operations
-- below are the critical sections of `list_lock`.
structure WifiTx where
  txHead : EbPtr
  txTail : EbPtr
  next : EbPtr → EbPtr
  listEvent : Bool

def WifiTx.setNext (q : WifiTx) (eb value : EbPtr) : WifiTx := {q with next := Function.update q.next eb value}

@[simp] theorem setNext_head (q : WifiTx) : (q.setNext eb value).txHead = q.txHead := rfl
@[simp] theorem setNext_tail (q : WifiTx) : (q.setNext eb value).txTail = q.txTail := rfl
@[simp] theorem setNext_event (q : WifiTx) : (q.setNext eb value).listEvent = q.listEvent := rfl

def listRemove (q : WifiTx) : EbPtr × WifiTx :=
  let (eb,q) :=
    if q.txHead ≠ nullEb then
      let eb := q.txHead
      let q := {q with txHead := q.next q.txHead}
      (eb,q.setNext eb nullEb)
    else (nullEb,{q with txTail := nullEb})
  if eb = nullEb then (eb,{q with listEvent := false}) else (eb,q)

def listInsert (eb : EbPtr) (q : WifiTx) : EspErr × WifiTx :=
  if eb = nullEb then (.invalidArg,q) else
  let q :=
    if q.txHead = nullEb then
      let q := {q with txHead := eb}
      let q := q.setNext q.txHead nullEb
      {q with txTail := q.txHead}
    else
      let q := q.setNext q.txTail eb
      let q := q.setNext eb nullEb
      {q with txTail := q.next q.txTail}
  (.ok,{q with listEvent := true})

def listHeadInsert (eb : EbPtr) (q : WifiTx) : EspErr × WifiTx :=
  if eb = nullEb then (.invalidArg,q) else
  let q :=
    if q.txHead = nullEb then
      let q := {q with txHead := eb}
      let q := q.setNext q.txHead nullEb
      {q with txTail := q.txHead}
    else
      let q := q.setNext eb q.txHead
      {q with txHead := eb}
  (.ok,{q with listEvent := true})

-- The local variables of `list_clear`; `recycled` records the calls of
-- `esf_buf_recycle` in order.
structure ClearLocals where
  ebHead : EbPtr := nullEb
  ebEnd : EbPtr := nullEb
  recycled : List EbPtr := []

-- One iteration on a non-NULL head, up to the test of the new head.
def listClearBody (drop : EbPtr → Bool) (q : WifiTx) (l : ClearLocals) : WifiTx × ClearLocals :=
  let eb := q.txHead
  let q := {q with txHead := q.next q.txHead}
  let q := q.setNext eb nullEb
  if drop eb then (q,{l with recycled := l.recycled ++ [eb]})
  else if l.ebEnd = nullEb then (q.setNext eb nullEb,{l with ebHead := eb,ebEnd := eb})
  else ((q.setNext l.ebEnd eb).setNext eb nullEb,{l with ebEnd := eb})

-- The loop is bounded by fuel because nothing but the invariant of the list
-- makes it end; `none` is a loop that is still running.
def listClearLoop (drop : EbPtr → Bool) : Nat → WifiTx → ClearLocals → Option (WifiTx × ClearLocals)
  | 0,_,_ => none
  | fuel+1,q,l =>
    if q.txHead = nullEb then some (q,l) else
    let (q,l) := listClearBody drop q l
    if q.txHead = nullEb then some ({q with txTail := nullEb},l)
    else listClearLoop drop fuel q l

def listClear (drop : EbPtr → Bool) (fuel : Nat) (q : WifiTx) : Option (List EbPtr × WifiTx) :=
  (listClearLoop drop fuel q {}).map fun (q,l) => (l.recycled,{q with txHead := l.ebHead,txTail := l.ebEnd})

end ExtConn
