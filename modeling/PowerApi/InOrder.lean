import PowerApi.Conduit
import PowerApi.Authority

/-!
# Requests and responses keep their order (`sockclient.c`, `server.c`)

A request passes through four places: the queue of its library, the connection, the
queue of the server with what the service thread has popped, and then, as a response,
the queue of responses. Each may give something up: a full queue its oldest entry, a
connection that is lost what was on its way. Each of them is a `Conduit`, and so is the
path through all four: whatever the processes and the two threads of the server do, and
in whatever order, what the server carries out for a process are requests that it
queued, with the content that they had, in the order in which it queued them, and what
is written to the process answers some of these, in the same order, and each once.
-/

namespace PowerApi

open Transition

/-- What a process asks for with a request. -/
structure Order where
  optType : UInt16
  seqId : UInt32
  taskNo : UInt32
  dataLen : UInt32
  payload : Bytes
  deriving DecidableEq

/-- What a message asks for, whichever process it is from. -/
def PwrMsg.order (m : PwrMsg) : Order where
  optType := m.head.optType
  seqId := m.head.seqId
  taskNo := m.head.taskNo
  dataLen := m.head.dataLen
  payload := m.payload.take m.head.dataLen.toNat

def Order.key (o : Order) : ReqKey := ⟨o.optType, o.seqId⟩

@[simp] theorem key_order (m : PwrMsg) : m.order.key = m.key := rfl

theorem take_of_copyData {m : PwrMsg} {n : ℕ} {bs : Bytes} (h : copyData m 0 n = .ok bs) :
    bs.take n = m.payload.take n := by
  unfold copyData at h
  split at h
  · rename_i hn
    rw [hn, List.take_zero, List.take_zero]
  · rcases m with ⟨head, _ | ⟨a, data⟩ | a⟩
    · cases h
    · dsimp only at h
      split at h
      · obtain rfl := Except.ok.inj h
        rw [List.drop_zero, List.take_take, Nat.min_self]
        rfl
      · cases h
    · cases h

/-- A copy of a message asks for the same. -/
theorem order_clonePwrMsg {msg copy : PwrMsg} {addr : UInt64}
    (h : clonePwrMsg msg addr = .ok copy) : copy.order = msg.order := by
  have hhead := head_clonePwrMsg h
  unfold clonePwrMsg at h
  split at h
  · rename_i hnull
    obtain rfl := Except.ok.inj h
    simp only [PwrMsg.order, PwrMsg.payload, hnull]
  · cases hdata : copyData msg 0 msg.head.dataLen.toNat with
    | error f =>
      rw [hdata] at h
      cases h
    | ok bs =>
      rw [hdata] at h
      obtain rfl := Except.ok.inj h
      have htake := take_of_copyData hdata
      simp only [PwrMsg.order]
      exact congrArg _ htake

namespace Clients

variable {s s' : Clients} {e : Event} {c p : UInt32}

/-! ## The four places -/

/-- What is in the queue of the library. -/
def queued (s : Clients) (p : UInt32) : List Order := (s.app p).sendBuff.toList.map PwrMsg.order

/-- What is on its way to the server. -/
def wired (s : Clients) (p : UInt32) : List Order := (s.app p).sent.map fun m => m.2.order

/-- What the server has received and not carried out. -/
def pending (s : Clients) (p : UInt32) : List Order := (received s.srv p).map PwrMsg.order

/-- The responses that the server has not sent. -/
def responding (s : Clients) (p : UInt32) : List ReqKey :=
  (s.srv.srv.sendBuff.toList.filter fun m => m.head.sysId = p).map PwrMsg.key

/-- What a step puts into the queue of the library. -/
def asks (p : UInt32) (s : Clients) : Event → List Order
  | .queue q i _ =>
    if q = p ∧ (s.app p).conn ≠ none then
      ((s.app p).calls[i]?.bind ApiCall.req).toList.map PwrMsg.order
    else []
  | _ => []

/-- What a step writes to the connection. -/
def sends (p : UInt32) (s : Clients) : Event → List Order
  | .transmit q =>
    if q = p then (popFromBufferHead (s.app p).sendBuff).1.toList.map PwrMsg.order else []
  | _ => []

/-- What a step reads from the connection. -/
def reads (p : UInt32) (s : Clients) : Event → List Order
  | .receive i =>
    if (s.srv.srv.pwrClients i).sysId = p then (s.app p).sent.head?.toList.map fun m => m.2.order
    else []
  | _ => []

/-- What a step carries out. -/
def serves (p : UInt32) (s : Clients) : Event → List Order
  | .serve _ => (s.srv.cur.toList.filter fun m => m.head.sysId = p).map PwrMsg.order
  | _ => []

/-- What a step answers: the response is written to the connection that the process has. -/
def answers (p : UInt32) (s : Clients) : Event → List ReqKey
  | .send =>
    ((popFromBufferHead s.srv.srv.sendBuff).1.toList.filter fun m =>
      m.head.sysId = p ∧ (s.app p).conn.map Int.ofNat =
        some (s.srv.srv.pwrClients.getFdBySysId p)).map PwrMsg.key
  | _ => []

/-- What a step does to the requests of a process and their responses. -/
structure Flow (p : UInt32) (s : Clients) (e : Event) (s' : Clients) : Prop where
  queue : (sends p s e ++ s'.queued p).Sublist (s.queued p ++ asks p s e)
  wire : (reads p s e ++ s'.wired p).Sublist (s.wired p ++ sends p s e)
  server : (serves p s e ++ s'.pending p).Sublist (s.pending p ++ reads p s e)
  responses : (answers p s e ++ s'.responding p).Sublist
    (s.responding p ++ (serves p s e).map Order.key)

/-- A step that passes nothing on. -/
structure Still (p : UInt32) (s : Clients) (e : Event) : Prop where
  asks : asks p s e = []
  sends : sends p s e = []
  reads : reads p s e = []
  serves : serves p s e = []
  answers : answers p s e = []

/-- Where nothing is passed on, only losses matter. -/
theorem Still.flow (h : Still p s e) (hqueue : (s'.queued p).Sublist (s.queued p))
    (hwire : (s'.wired p).Sublist (s.wired p)) (hserver : (s'.pending p).Sublist (s.pending p))
    (hresponses : (s'.responding p).Sublist (s.responding p)) : Flow p s e s' := by
  obtain ⟨hasks, hsends, hreads, hserves, hanswers⟩ := h
  constructor
  · simpa [hasks, hsends] using hqueue
  · simpa [hsends, hreads] using hwire
  · simpa [hreads, hserves] using hserver
  · simpa [hserves, hanswers] using hresponses

/-- A step of a process by which it at most loses something. -/
theorem Still.flow_app {q : UInt32} {a : App} (h : Still p s e) (hsrv : s'.srv = s.srv)
    (happ : s'.app = Function.update s.app q a)
    (hqueue : a.sendBuff.toList.Sublist (s.app q).sendBuff.toList)
    (hwire : a.sent.Sublist (s.app q).sent) : Flow p s e s' := by
  have hserver : s'.pending p = s.pending p := by rw [pending, pending, hsrv]
  have hresponses : s'.responding p = s.responding p := by rw [responding, responding, hsrv]
  by_cases hq : p = q
  · subst hq
    have hself : s'.app p = a := by rw [happ, Function.update_self]
    refine h.flow ?_ ?_ (by rw [hserver]) (by rw [hresponses])
    · rw [queued, queued, hself]
      exact hqueue.map _
    · rw [wired, wired, hself]
      exact hwire.map _
  · have hself : s'.app p = s.app p := by rw [happ, Function.update_of_ne hq]
    refine h.flow ?_ ?_ (by rw [hserver]) (by rw [hresponses])
    · rw [queued, queued, hself]
    · rw [wired, wired, hself]

/-- The library has the same queue, and has sent the same. -/
theorem Still.flow_kept {q : UInt32} {a : App} (h : Still p s e)
    (hqueue : a.sendBuff = (s.app q).sendBuff) (hwire : a.sent = (s.app q).sent) :
    Flow p s e (s.setApp q a) := by
  refine h.flow_app rfl rfl ?_ ?_
  · rw [hqueue]
  · rw [hwire]

/-- A step of the server that leaves both of its queues alone. -/
theorem Still.flow_srv (h : Still p s e) (hqueue : (s'.app p).sendBuff = (s.app p).sendBuff)
    (hwire : (s'.app p).sent.Sublist (s.app p).sent) (hcur : s'.srv.cur = s.srv.cur)
    (hrecv : s'.srv.srv.recvBuff = s.srv.srv.recvBuff)
    (hsend : s'.srv.srv.sendBuff = s.srv.srv.sendBuff) : Flow p s e s' := by
  refine h.flow ?_ (hwire.map _) ?_ ?_
  · rw [queued, queued, hqueue]
  · rw [pending, pending, received_of_same hcur hrecv]
  · rw [responding, responding, hsend]

theorem app_setApp_of_ne {q : UInt32} {a : App} (h : p ≠ q) : (s.setApp q a).app p = s.app p :=
  Function.update_of_ne h ..

theorem sent_setApp_sublist {q : UInt32} {sent : List (ℕ × PwrMsg)}
    (h : sent.Sublist (s.app q).sent) :
    ((s.setApp q { s.app q with sent := sent }).app p).sent.Sublist (s.app p).sent := by
  by_cases hq : p = q
  · subst hq
    rw [app_setApp]
    exact h
  · rw [app_setApp_of_ne hq]

theorem sendBuff_setApp {q : UInt32} {sent : List (ℕ × PwrMsg)} :
    ((s.setApp q { s.app q with sent := sent }).app p).sendBuff = (s.app p).sendBuff := by
  by_cases hq : p = q
  · subst hq
    rw [app_setApp]
  · rw [app_setApp_of_ne hq]

/-- A request goes into the queue, of which the oldest may be given up. -/
theorem flow_queue {q : UInt32} {i : ℕ} {addr : UInt64} {call : ApiCall} {req : PwrMsg} {a : App}
    (hcall : (s.app q).calls[i]? = some call) (hreq : call.req = some req)
    (ha : queueCall (s.app q) i call req addr = some a) :
    Flow p s (.queue q i addr) (s.setApp q a) := by
  by_cases hq : q = p
  · subst hq
    have hasks : asks q s (.queue q i addr) =
        if (s.app q).conn = none then [] else [req.order] := by
      simp only [asks, true_and, ne_eq, ite_not, hcall, Option.bind_some, hreq, Option.toList_some,
        List.map_cons, List.map_nil]
    obtain ⟨hsent, l, hl, hqueue⟩ : a.sent = (s.app q).sent ∧
        ∃ l : List PwrMsg, l.Sublist (s.app q).sendBuff.toList ∧
          a.sendBuff.toList.map PwrMsg.order =
            l.map PwrMsg.order ++ asks q s (.queue q i addr) := by
      rw [hasks]
      rw [queueCall] at ha
      dsimp only at ha
      split at ha
      · rename_i hconn
        obtain rfl := Option.some.inj ha
        exact ⟨rfl, _, List.Sublist.refl _, by rw [if_pos hconn, List.append_nil]⟩
      · rename_i hconn
        obtain ⟨copy, hcopy, rfl⟩ := Option.map_eq_some_iff.mp ha
        obtain ⟨l, hl, heq⟩ := toList_enqueue (s.app q).sendBuff copy
        refine ⟨rfl, l, hl.sublist, ?_⟩
        rw [if_neg hconn, heq, List.map_append, List.map_singleton,
          order_clonePwrMsg (toOption_eq_some hcopy)]
    constructor
    · rw [queued, app_setApp, hqueue]
      exact (hl.map _).append_right _
    · rw [wired, app_setApp, hsent]
      simp [reads, sends, wired]
    · simp [serves, reads, pending, setApp]
    · simp [answers, serves, responding, setApp]
  · have hstill : Still p s (.queue q i addr) :=
      ⟨by simp [asks, hq], rfl, rfl, rfl, rfl⟩
    have hother : (s.setApp q a).app p = s.app p := app_setApp_of_ne (Ne.symm hq)
    refine hstill.flow ?_ ?_ (List.Sublist.refl _) (List.Sublist.refl _)
    · rw [queued, queued, hother]
    · rw [wired, wired, hother]

/-- A request goes from the queue to the connection. -/
theorem flow_transmit {q : UInt32} {conn : ℕ} {msg : Option PwrMsg}
    {sendBuff : PwrMsgBuffer PwrMsg}
    (hpop : popFromBufferHead (s.app q).sendBuff = (msg, sendBuff)) :
    Flow p s (.transmit q) (s.setApp q { s.app q with
      sendBuff := sendBuff
      sent := (s.app q).sent ++ msg.toList.map fun msg => (conn, msg) }) := by
  by_cases hq : q = p
  · subst hq
    have hsends : sends q s (.transmit q) = msg.toList.map PwrMsg.order := by
      simp only [sends, if_true, hpop]
    have hqueue : (s.app q).sendBuff.toList = msg.toList ++ sendBuff.toList := by
      cases msg with
      | none => exact (toList_of_pop_none hpop).symm
      | some msg => exact toList_of_pop_some hpop
    constructor
    · rw [hsends, queued, queued, app_setApp, hqueue, List.map_append]
      simp [asks]
    · rw [hsends, wired, wired, app_setApp, List.map_append, List.map_map]
      exact List.Sublist.refl _
    · simp [serves, reads, pending, setApp]
    · simp [answers, serves, responding, setApp]
  · have hstill : Still p s (.transmit q) := ⟨rfl, by simp [sends, hq], rfl, rfl, rfl⟩
    refine hstill.flow ?_ ?_ (List.Sublist.refl _) (List.Sublist.refl _)
    · rw [queued, queued, app_setApp_of_ne (Ne.symm hq)]
    · rw [wired, wired, app_setApp_of_ne (Ne.symm hq)]

/-- A request goes from the connection into the queue of the server, with the id of the
process that the connection was opened by. -/
theorem flow_receive {i : Fin maxClientNum} {conn : ℕ} {msg : PwrMsg} {sent : List (ℕ × PwrMsg)}
    (hsent : (s.app (s.srv.srv.pwrClients i).sysId).sent = (conn, msg) :: sent) :
    let q := (s.srv.srv.pwrClients i).sysId
    Flow p s (.receive i) { s.setApp q { s.app q with sent := sent } with
      srv := { s.srv with
        srv := s.srv.srv.withRecv ⟨{ msg.head with sysId := q }, msg.data⟩ } } := by
  dsimp only
  obtain ⟨l, hl, heq⟩ := @received_receive p s.srv
    ⟨{ msg.head with sysId := (s.srv.srv.pwrClients i).sysId }, msg.data⟩
  by_cases hq : (s.srv.srv.pwrClients i).sysId = p
  · have hreads : reads p s (.receive i) = [msg.order] := by
      rw [hq] at hsent
      simp only [reads, if_pos hq, hsent, List.head?_cons, Option.toList_some, List.map_cons,
        List.map_nil]
    subst hq
    constructor
    · simp [sends, asks, queued, setApp]
    · rw [hreads, wired, wired, hsent]
      simp [sends, setApp]
    · rw [hreads, pending, pending, heq, if_pos rfl, List.map_append]
      exact (hl.map _).append_right _
    · simp [answers, serves, responding, Server.withRecv]
  · have hstill : Still p s (.receive i) := ⟨rfl, rfl, by simp [reads, hq], rfl, rfl⟩
    rw [if_neg hq, List.append_nil] at heq
    refine hstill.flow ?_ ?_ ?_ (List.Sublist.refl _)
    · simp [queued, setApp, Ne.symm hq]
    · simp [wired, setApp, Ne.symm hq]
    · rw [pending, pending, heq]
      exact hl.map _

/-- A request is carried out, and its response is queued if there is one. -/
theorem flow_serve {m : Machine} {req : PwrMsg} {srv' : Server} (hcur : s.srv.cur = some req)
    (hserve : s.srv.srv.processReqMsg m req = .ok srv') :
    Flow p s (.serve m) { s with srv := { s.srv with srv := srv', cur := none } } := by
  obtain ⟨-, hrecv⟩ := Server.processReqMsg_frame hserve
  have hserves : serves p s (.serve m) = if req.head.sysId = p then [req.order] else [] := by
    by_cases hp : req.head.sysId = p <;> simp [serves, hcur, hp]
  have hqueue : ∃ l, l.Sublist s.srv.srv.sendBuff.toList ∧
      (srv'.sendBuff.toList = l ∨ ∃ rsp : PwrMsg, rsp.head.sysId = req.head.sysId ∧
        rsp.key = req.key ∧ srv'.sendBuff.toList = l ++ [rsp]) := by
    rcases Server.responds_processReqMsg hserve with rfl | ⟨rspCode, data, len, -, rfl⟩
    · exact ⟨_, List.Sublist.refl _, .inl (by rw [decided_frame (m := m)])⟩
    · obtain ⟨l, hl, heq⟩ := toList_enqueue (s.srv.srv.decided m req).sendBuff
        (generateRspMsg req rspCode data len)
      rw [decided_frame (m := m)] at hl
      exact ⟨l, hl.sublist, .inr ⟨generateRspMsg req rspCode data len, rfl, rfl, heq⟩⟩
  constructor
  · simp [sends, asks, queued]
  · simp [reads, sends, wired]
  · rw [hserves, pending, pending, received, received, hcur, hrecv]
    by_cases hp : req.head.sysId = p <;> simp [reads, hp]
  · rw [hserves, responding, responding]
    obtain ⟨l, hl, heq | ⟨rsp, hsys, hkey, heq⟩⟩ := hqueue
    · simp only [answers, List.nil_append, heq]
      exact ((hl.filter _).map _).trans (List.sublist_append_left _ _)
    · by_cases hp : req.head.sysId = p
      · simp only [answers, List.nil_append, heq, List.filter_append, List.map_append, if_pos hp]
        refine ((hl.filter _).map _).append ?_
        simp [hsys, hp, hkey]
      · simp only [answers, List.nil_append, heq, List.filter_append, List.map_append, if_neg hp]
        refine ((hl.filter _).map _).append ?_
        simp [hsys, hp]

/-- A response leaves the queue, for the connection of its process if there is one. -/
theorem flow_send {msg : Option PwrMsg} {sendBuff : PwrMsgBuffer PwrMsg}
    (hpop : popFromBufferHead s.srv.srv.sendBuff = (msg, sendBuff))
    (hsrv : s'.srv = { s.srv with srv := { s.srv.srv with sendBuff := sendBuff } })
    (hqueue : (s'.app p).sendBuff = (s.app p).sendBuff)
    (hwire : (s'.app p).sent = (s.app p).sent) : Flow p s .send s' := by
  constructor
  · simp [sends, asks, queued, hqueue]
  · simp [reads, sends, wired, hwire]
  · have hreceived : received s'.srv p = received s.srv p :=
      received_of_same (by rw [hsrv]) (by rw [hsrv])
    simp [serves, reads, pending, hreceived]
  · rw [responding, responding, hsrv, answers, hpop]
    cases msg with
    | none => simp [toList_of_pop_none hpop, serves]
    | some msg =>
      rw [toList_of_pop_some hpop]
      by_cases hp : msg.head.sysId = p
      · by_cases hconn : (s.app p).conn.map Int.ofNat =
            some (s.srv.srv.pwrClients.getFdBySysId p) <;> simp [hp, hconn, serves]
      · simp [hp, serves]

/-- What one step of any process or of the server does to the requests and the responses
of a process. -/
theorem flow_of_step (p : UInt32) (hs : step s e = some s') : Flow p s e s' := by
  cases e with
  | register q =>
    obtain ⟨-, h'⟩ := Option.ite_none_left_eq_some.mp hs
    cases Option.some.inj h'
    exact Still.flow_app ⟨rfl, rfl, rfl, rfl, rfl⟩ rfl rfl (by simp) (List.Sublist.refl _)
  | registerFailed q =>
    obtain ⟨-, h'⟩ := Option.ite_none_left_eq_some.mp hs
    cases Option.some.inj h'
    exact Still.flow_app ⟨rfl, rfl, rfl, rfl, rfl⟩ rfl rfl (by simp [App.finiSockClient])
      (List.Sublist.refl _)
  | unregister q =>
    cases Option.some.inj hs
    exact Still.flow_app ⟨rfl, rfl, rfl, rfl, rfl⟩ rfl rfl (by simp [App.finiSockClient])
      (List.Sublist.refl _)
  | enter q op =>
    obtain ⟨-, h'⟩ := Option.ite_none_right_eq_some.mp hs
    cases Option.some.inj h'
    exact Still.flow_kept ⟨rfl, rfl, rfl, rfl, rfl⟩ rfl rfl
  | create q i taskNo dataLen data =>
    obtain ⟨call, -, h'⟩ := Option.bind_eq_some_iff.mp hs
    obtain ⟨-, h'⟩ := Option.ite_none_right_eq_some.mp h'
    cases Option.some.inj h'
    exact Still.flow_kept ⟨rfl, rfl, rfl, rfl, rfl⟩ rfl rfl
  | queue q i addr =>
    obtain ⟨call, hcall, h'⟩ := Option.bind_eq_some_iff.mp hs
    obtain ⟨req, hreq, h'⟩ := Option.bind_eq_some_iff.mp h'
    obtain ⟨-, h'⟩ := Option.ite_none_left_eq_some.mp h'
    obtain ⟨a, ha, rfl⟩ := Option.map_eq_some_iff.mp h'
    exact flow_queue hcall hreq ha
  | transmit q =>
    obtain ⟨conn, -, rfl⟩ := Option.map_eq_some_iff.mp hs
    exact flow_transmit rfl
  | deliver q k i =>
    obtain ⟨rsp, -, h'⟩ := Option.bind_eq_some_iff.mp hs
    obtain ⟨call, -, h'⟩ := Option.bind_eq_some_iff.mp h'
    obtain ⟨-, h'⟩ := Option.ite_none_right_eq_some.mp h'
    cases Option.some.inj h'
    exact Still.flow_kept ⟨rfl, rfl, rfl, rfl, rfl⟩ rfl rfl
  | loseResponse q k =>
    cases Option.some.inj hs
    exact Still.flow_kept ⟨rfl, rfl, rfl, rfl, rfl⟩ rfl rfl
  | leave q i =>
    obtain ⟨call, -, rfl⟩ := Option.map_eq_some_iff.mp hs
    exact Still.flow_kept ⟨rfl, rfl, rfl, rfl, rfl⟩ rfl rfl
  | disconnect q =>
    cases Option.some.inj hs
    exact Still.flow_kept ⟨rfl, rfl, rfl, rfl, rfl⟩ rfl rfl
  | reconnect q =>
    obtain ⟨-, h'⟩ := Option.ite_none_right_eq_some.mp hs
    cases Option.some.inj h'
    exact Still.flow_app ⟨rfl, rfl, rfl, rfl, rfl⟩ rfl rfl (List.Sublist.refl _)
      (List.Sublist.refl _)
  | accept =>
    obtain ⟨q, -, h'⟩ := Option.bind_eq_some_iff.mp hs
    obtain ⟨srv, hsrv, rfl⟩ := Option.map_eq_some_iff.mp h'
    obtain ⟨hcur, hrecv, hsend, -⟩ := accept_move hsrv
    exact Still.flow_srv ⟨rfl, rfl, rfl, rfl, rfl⟩ sendBuff_setApp
      (sent_setApp_sublist List.filter_sublist) hcur hrecv hsend
  | receive i =>
    rw [step] at hs
    dsimp only at hs
    split at hs
    · cases hs
    · rename_i conn msg sent hsent
      obtain ⟨-, h'⟩ := Option.ite_none_right_eq_some.mp hs
      obtain ⟨srv, hsrv, rfl⟩ := Option.map_eq_some_iff.mp h'
      cases Threads.move_of_step hsrv with
      | receive _ _ _ _ _ => exact flow_receive hsent
  | loseRequest q k =>
    cases Option.some.inj hs
    exact Still.flow_app ⟨rfl, rfl, rfl, rfl, rfl⟩ rfl rfl (List.Sublist.refl _)
      (List.eraseIdx_sublist _ k)
  | lose idx =>
    obtain ⟨srv, hsrv, rfl⟩ := Option.map_eq_some_iff.mp hs
    cases Threads.move_of_step hsrv with
    | lose _ _ =>
      cases idx with
      | none =>
        exact Still.flow_srv ⟨rfl, rfl, rfl, rfl, rfl⟩ rfl (List.Sublist.refl _) rfl rfl rfl
      | some i =>
        exact Still.flow_srv ⟨rfl, rfl, rfl, rfl, rfl⟩ sendBuff_setApp
          (sent_setApp_sublist List.filter_sublist) rfl rfl rfl
  | clean =>
    obtain ⟨srv, hsrv, rfl⟩ := Option.map_eq_some_iff.mp hs
    cases Threads.move_of_step hsrv with
    | clean cleaning hc =>
      obtain ⟨idx, pc⟩ := cleaning
      cases pc <;>
        exact Still.flow_srv ⟨rfl, rfl, rfl, rfl, rfl⟩ rfl (List.Sublist.refl _) rfl rfl rfl
  | send =>
    obtain ⟨srv, hsrv, rfl⟩ := Option.map_eq_some_iff.mp hs
    cases Threads.move_of_step hsrv with
    | send _ =>
      cases hpop : popFromBufferHead s.srv.srv.sendBuff with
      | mk msg sendBuff =>
        cases msg with
        | none => exact flow_send hpop rfl rfl rfl
        | some msg =>
          dsimp only
          split
          · refine flow_send hpop rfl ?_ ?_ <;>
              by_cases hp : p = msg.head.sysId <;> simp [setApp, hp]
          · exact flow_send hpop rfl rfl rfl
  | pop =>
    obtain ⟨srv, hsrv, rfl⟩ := Option.map_eq_some_iff.mp hs
    cases Threads.move_of_step hsrv with
    | pop msg recvBuff hcur hpop =>
      refine Still.flow ⟨rfl, rfl, rfl, rfl, rfl⟩ (List.Sublist.refl _) (List.Sublist.refl _) ?_
        (List.Sublist.refl _)
      rw [pending, pending, received_pop hcur hpop]
  | serve m =>
    obtain ⟨srv, hsrv, rfl⟩ := Option.map_eq_some_iff.mp hs
    cases Threads.move_of_step hsrv with
    | serve _ req srv' hcur hserve => exact flow_serve hcur hserve

/-! ## The path of a request -/

/-- The queue of the library. -/
def queueConduit (p : UInt32) : Conduit step Order where
  enters s e _ := asks p s e
  leaves s e _ := sends p s e
  held s := s.queued p
  passes hs := (flow_of_step p hs).queue

/-- The connection. -/
def wireConduit (p : UInt32) : Conduit step Order where
  enters s e _ := sends p s e
  leaves s e _ := reads p s e
  held s := s.wired p
  passes hs := (flow_of_step p hs).wire

/-- The queue of the server, and what has been popped. -/
def serverConduit (p : UInt32) : Conduit step Order where
  enters s e _ := reads p s e
  leaves s e _ := serves p s e
  held s := s.pending p
  passes hs := (flow_of_step p hs).server

/-- The queue of responses. -/
def responseConduit (p : UInt32) : Conduit step ReqKey where
  enters s e _ := (serves p s e).map Order.key
  leaves s e _ := answers p s e
  held s := s.responding p
  passes hs := (flow_of_step p hs).responses

/-- From the library to where a request is carried out. -/
def requestConduit (p : UInt32) : Conduit step Order :=
  ((queueConduit p).andThen (wireConduit p) rfl).andThen (serverConduit p) rfl

/-- From the library and back. -/
def callConduit (p : UInt32) : Conduit step ReqKey :=
  ((requestConduit p).map Order.key).andThen (responseConduit p) rfl

/-- What the server carries out for a process in a run. -/
def servedTo (p : UInt32) (events : List Event) : List Order :=
  noted step (fun s e _ => serves p s e) init events

/-- What a process queues in a run. -/
def askedBy (p : UInt32) (events : List Event) : List Order :=
  noted step (fun s e _ => asks p s e) init events

/-- The responses that are written to a process in a run. -/
def answeredTo (p : UInt32) (events : List Event) : List ReqKey :=
  noted step (fun s e _ => answers p s e) init events

end Clients

end PowerApi
