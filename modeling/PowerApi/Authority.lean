import PowerApi.Clients
import PowerApi.Licence
import PowerApi.Gone

/-!
# Who has the authority (`powerapi.c`, `comservice.c`, `server.c`)

The server carries out a control operation whoever asks for it: that only the
owner of the authority asks is up to `g_status` in each library. So the authority
exists twice, and the two copies have to agree. `Agrees` says when they do: what a
process has under way is covered by the authority it has, and so is what it may
send next.

They come apart when the server takes the authority from a process that still
believes to have it, be it because it cleans up after a connection
(`reconnected_not_owner`), or because a release was carried out of which its caller
does not learn. `Aligned` excludes the steps by which they do, and
`control_by_owner` says that in a run without such steps every control operation
is carried out for the owner.
-/

namespace PowerApi

/-- The operations that take the authority to control. -/
def OperationType.isControl : OperationType → Bool
  | sysSetPowerState => true
  | cpuSetFreqGovernor => true
  | cpuSetCurFreq => true
  | cpuSetFreqRange => true
  | _ => false

/-- What a request is about. -/
structure ReqKey where
  optType : UInt16
  seqId : UInt32
  deriving DecidableEq

def PwrMsg.key (m : PwrMsg) : ReqKey := ⟨m.head.optType, m.head.seqId⟩

/-- The request is for a control operation. -/
def Controls (k : ReqKey) : Prop :=
  ∃ op, OperationType.ofCode k.optType = some op ∧ op.isControl = true

/-- The request is for a release of the authority. -/
def Releases (k : ReqKey) : Prop := k.optType = OperationType.comReleaseControlAuth.code

instance (k : ReqKey) : Decidable (Controls k) :=
  decidable_of_iff (∃ op ∈ OperationType.ofCode k.optType, op.isControl = true) Iff.rfl

instance (k : ReqKey) : Decidable (Releases k) :=
  inferInstanceAs (Decidable (k.optType = OperationType.comReleaseControlAuth.code))

theorem code_inj {op op' : OperationType} (h : op.code = op'.code) : op = op' := by
  have hcode := congrArg OperationType.ofCode h
  simpa using hcode

theorem controls_iff {k : ReqKey} {op : OperationType} (hcode : k.optType = op.code) :
    Controls k ↔ op.isControl = true := by
  simp [Controls, hcode]

/-- `CHECK_STATUS` lets a control operation pass with the authority only. -/
theorem authed_of_check {status : ApiStatus} {op : OperationType} (hop : op.isControl = true)
    (h : status.check op.neededStatus = true) : status = .authed := by
  cases op <;> simp [OperationType.isControl] at hop <;> cases status <;> first | rfl | cases h

namespace App

/-- A release is under way. -/
def Releasing (a : App) : Prop := ∃ call ∈ a.calls, call.op = .comReleaseControlAuth

/-- A control operation has passed its check, and its request is not queued yet. -/
def Poised (a : App) : Prop := ∃ call ∈ a.calls, call.op.isControl = true ∧ call.queued = false

/-- A request for the authority is under way. -/
def Asking (a : App) : Prop := ∃ call ∈ a.calls, call.op = .comRequestControlAuth

/-- The requests that the calls have created. -/
def created (a : App) : List ReqKey :=
  a.calls.filterMap fun call => call.req.map PwrMsg.key

end App

namespace Clients

variable {s s' : Clients} {e : Event} {c p : UInt32}

/-- The requests of a process that the server has received, in order. -/
def received (srv : Threads) (c : UInt32) : List PwrMsg :=
  (srv.cur.toList ++ srv.srv.recvBuff.toList).filter fun m => m.head.sysId = c

/-- The requests of a process that are under way, in the order in which they are served. -/
def pipe (s : Clients) (c : UInt32) : List ReqKey :=
  (received s.srv c).map PwrMsg.key ++
    (((s.app c).sent.map fun m => m.2.key) ++ (s.app c).sendBuff.toList.map PwrMsg.key)

/-- The requests of a process of which something is left, there or in a call. -/
def asked (s : Clients) (c : UInt32) : List ReqKey := s.pipe c ++ (s.app c).created

/-- The responses to a process that are under way. -/
def responses (s : Clients) (c : UInt32) : List PwrMsg :=
  (s.srv.srv.sendBuff.toList.filter fun m => m.head.sysId = c) ++ (s.app c).back

/-- The process has the authority, as the server sees it. -/
def Owns (s : Clients) (c : UInt32) : Prop := s.srv.srv.auth.Owns c

/-- A call for the authority has succeeded, or will by a response that is under way. -/
def Granted (s : Clients) (c : UInt32) : Prop :=
  ∃ call ∈ (s.app c).calls, call.op = .comRequestControlAuth ∧
    (call.succeeded = true ∨
      ∃ rsp ∈ s.responses c, call.seqId = some rsp.head.seqId ∧ rsp.head.rspCode = 0)

/-- The process believes to have the authority, or is about to. -/
def Believes (s : Clients) (c : UInt32) : Prop :=
  (s.app c).status = .authed ∨ (s.app c).Poised ∨ s.Granted c

/-- The step does not let the two copies of the authority come apart. -/
def Aligned (s : Clients) : Event → Prop
  | .enter p op =>
    (op = .comReleaseControlAuth → ¬ (s.app p).Poised ∧ ¬ (s.app p).Asking) ∧
      (op = .comRequestControlAuth ∨ op.isControl = true → ¬ (s.app p).Releasing)
  | .create p _ _ _ _ =>
    let seqId := (generateSeqId (s.app p).factory).1
    (∀ k ∈ s.asked p, k.seqId ≠ seqId) ∧ ∀ rsp ∈ s.responses p, rsp.head.seqId ≠ seqId
  | .leave p i => ∀ call ∈ (s.app p).calls[i]?, call.op = .comReleaseControlAuth →
      (∃ other ∈ (s.app p).calls.eraseIdx i, other.op = .comReleaseControlAuth) ∨
        (∀ k ∈ s.pipe p, ¬ Releases k) ∧
          (call.succeeded = false → (s.app p).status = .authed → s.Owns p)
  | .clean => ∀ cleaning ∈ s.srv.cleaning, cleaning.pc = .auth →
      let owner := (s.srv.srv.pwrClients 0).sysId
      s.Owns owner → (∀ k ∈ s.pipe owner, ¬ Controls k) ∧
        ((s.app owner).Releasing ∨ ¬ s.Believes owner)
  | _ => True

/-- A control operation is carried out for the owner of the authority only. -/
def ByOwner (s : Clients) : Event → Prop
  | .serve _ => ∀ req ∈ s.srv.cur, Controls req.key → s.Owns req.head.sysId
  | _ => True

instance (s : Clients) : DecidablePred s.Aligned := fun e => by
  cases e <;> dsimp only [Aligned, Believes, Granted, App.Releasing, App.Poised, App.Asking, Owns] <;>
    infer_instance

instance (s : Clients) : DecidablePred s.ByOwner := fun e => by
  cases e <;> dsimp only [ByOwner, Owns] <;> infer_instance

/-- The copies of the authority agree about a process. -/
structure Agrees (s : Clients) (c : UInt32) : Prop where
  covered : Licence.Covered Controls Releases (s.pipe c) (s.Owns c)
  /-- a release under way has a caller -/
  releasing : ∀ k ∈ s.pipe c, Releases k → (s.app c).Releasing
  /-- besides which nothing is called that needs the authority, or gets it -/
  alone : (s.app c).Releasing → ¬ (s.app c).Poised ∧ ¬ (s.app c).Asking
  owner : ¬ (s.app c).Releasing → s.Believes c → s.Owns c
  /-- the request with a call's id is the call's -/
  typed : ∀ call ∈ (s.app c).calls, ∀ k ∈ s.asked c, call.seqId = some k.seqId → k.optType = call.op.code

theorem agrees_init (c : UInt32) : init.Agrees c := by
  have hpipe : init.pipe c = [] := by
    simp [pipe, received, init, Threads.init, Server.init, App.init]
  refine ⟨?_, ?_, ?_, ?_, ?_⟩
  · rw [hpipe]
    trivial
  · rw [hpipe]
    intro k hk
    cases hk
  · rintro ⟨call, hcall, -⟩
    cases hcall
  · rintro - (hstatus | ⟨call, hcall, -⟩ | ⟨call, hcall, -⟩)
    · cases hstatus
    · cases hcall
    · cases hcall
  · rintro call hcall
    cases hcall

/-- From `s` to `s'` the process makes no call, and messages of it only drop out. -/
structure Quiet (s s' : Clients) (c : UInt32) : Prop where
  status : (s'.app c).status = .authed → (s.app c).status = .authed
  calls : (s'.app c).calls = (s.app c).calls
  pipe : (s'.pipe c).Sublist (s.pipe c)
  responses : ∀ rsp ∈ s'.responses c, rsp ∈ s.responses c
  owns : s.Owns c → s'.Owns c

theorem Agrees.of_quiet (h : s.Agrees c) (hq : Quiet s s' c) : s'.Agrees c := by
  obtain ⟨hstatus, hcalls, hpipe, hresponses, howns⟩ := hq
  have hreleasing : (s'.app c).Releasing ↔ (s.app c).Releasing := by
    unfold App.Releasing
    rw [hcalls]
  have hpoised : (s'.app c).Poised ↔ (s.app c).Poised := by
    unfold App.Poised
    rw [hcalls]
  have hasking : (s'.app c).Asking ↔ (s.app c).Asking := by
    unfold App.Asking
    rw [hcalls]
  refine ⟨(h.covered.sublist hpipe).mono howns, fun k hk hr => ?_, ?_, fun hnot hbel => ?_,
    fun call hcall k hk => ?_⟩
  · exact hreleasing.mpr (h.releasing k (hpipe.mem hk) hr)
  · rw [hreleasing, hpoised, hasking]
    exact h.alone
  · refine howns (h.owner (fun hr => hnot (hreleasing.mpr hr)) ?_)
    rcases hbel with hauthed | hp | ⟨call, hcall, hop, hgrant⟩
    · exact .inl (hstatus hauthed)
    · exact .inr (.inl (hpoised.mp hp))
    · refine .inr (.inr ⟨call, hcalls ▸ hcall, hop, hgrant.imp_right ?_⟩)
      rintro ⟨rsp, hrsp, hid⟩
      exact ⟨rsp, hresponses rsp hrsp, hid⟩
  · refine h.typed call (hcalls ▸ hcall) k ?_
    rw [asked, App.created, hcalls] at hk
    exact (hpipe.append_right _).mem hk

/-! ## Steps that are quiet -/

/-- A step of one process, for the others. -/
theorem quiet_of_app (hsrv : s'.srv = s.srv) (happ : s'.app c = s.app c) : Quiet s s' c := by
  have hpipe : s'.pipe c = s.pipe c := by rw [pipe, pipe, hsrv, happ]
  have hresponses : s'.responses c = s.responses c := by rw [responses, responses, hsrv, happ]
  refine ⟨by rw [happ]; exact id, by rw [happ], ?_, ?_, ?_⟩
  · rw [hpipe]
  · rw [hresponses]
    exact fun _ => id
  · rw [Owns, Owns, hsrv]
    exact id

/-- Only one process makes a step. -/
theorem agrees_of_app {a : App} (h : ∀ c, s.Agrees c) (hsrv : s'.srv = s.srv)
    (happ : s'.app = Function.update s.app p a) (hp : s'.Agrees p) : ∀ c, s'.Agrees c := by
  intro c
  by_cases hc : c = p
  · exact hc ▸ hp
  · exact (h c).of_quiet (quiet_of_app hsrv (by rw [happ, Function.update_of_ne hc]))

/-- A step of a process that is not one of its calls. -/
theorem quiet_of_update {a : App} (hsrv : s'.srv = s.srv)
    (happ : s'.app = Function.update s.app p a)
    (hstatus : a.status = .authed → (s.app p).status = .authed) (hcalls : a.calls = (s.app p).calls)
    (hpipe : ((a.sent.map fun m => m.2.key) ++ a.sendBuff.toList.map PwrMsg.key).Sublist
      (((s.app p).sent.map fun m => m.2.key) ++ (s.app p).sendBuff.toList.map PwrMsg.key))
    (hback : ∀ rsp ∈ a.back, rsp ∈ (s.app p).back) (c : UInt32) : Quiet s s' c := by
  by_cases hc : c = p
  · subst hc
    have hself : s'.app c = a := by rw [happ, Function.update_self]
    refine ⟨?_, ?_, ?_, fun rsp hrsp => ?_, ?_⟩
    · rw [hself]
      exact hstatus
    · rw [hself, hcalls]
    · rw [pipe, pipe, hself, hsrv]
      exact hpipe.append_left _
    · rw [responses, hself, hsrv] at hrsp
      rcases List.mem_append.mp hrsp with hsend | hrsp
      · exact List.mem_append_left _ hsend
      · exact List.mem_append_right _ (hback rsp hrsp)
    · rw [Owns, Owns, hsrv]
      exact id
  · exact quiet_of_app hsrv (by rw [happ, Function.update_of_ne hc])

theorem quiet_setApp {a : App} (hstatus : a.status = .authed → (s.app p).status = .authed)
    (hcalls : a.calls = (s.app p).calls)
    (hpipe : ((a.sent.map fun m => m.2.key) ++ a.sendBuff.toList.map PwrMsg.key).Sublist
      (((s.app p).sent.map fun m => m.2.key) ++ (s.app p).sendBuff.toList.map PwrMsg.key))
    (hback : ∀ rsp ∈ a.back, rsp ∈ (s.app p).back) : Quiet s (s.setApp p a) c :=
  quiet_of_update (by rfl) (by rfl) hstatus hcalls hpipe hback c

/-- A connection is made, from a state of the process in which less is queued. -/
theorem quiet_connect {a : App} (hstatus : a.status = .authed → (s.app p).status = .authed)
    (hcalls : a.calls = (s.app p).calls) (hsent : a.sent = (s.app p).sent)
    (hqueue : a.sendBuff.toList.Sublist (s.app p).sendBuff.toList) :
    Quiet s (s.connect p a) c := by
  have hpipe : ((a.sent.map fun m => m.2.key) ++ a.sendBuff.toList.map PwrMsg.key).Sublist
      (((s.app p).sent.map fun m => m.2.key) ++ (s.app p).sendBuff.toList.map PwrMsg.key) := by
    rw [hsent]
    exact (hqueue.map _).append_left _
  exact quiet_of_update (a := { a with back := [], conn := some s.conns.length }) (by rfl) (by rfl)
    hstatus hcalls hpipe (fun rsp hrsp => by cases hrsp) c

/-- `FiniSockClient`, whatever becomes of `g_status`. -/
theorem quiet_fini {status : ApiStatus}
    (hstatus : status = .authed → (s.app p).status = .authed) :
    Quiet s (s.setApp p { (s.app p).finiSockClient with status := status }) c := by
  refine quiet_setApp ?_ ?_ ?_ ?_
  · exact hstatus
  · rfl
  · simp [App.finiSockClient]
  · intro rsp hrsp
    cases hrsp

/-- A step of the server by which at most some requests and responses get lost. -/
theorem quiet_of_srv (hstatus : (s'.app c).status = (s.app c).status)
    (hcalls : (s'.app c).calls = (s.app c).calls)
    (hsendBuff : (s'.app c).sendBuff = (s.app c).sendBuff)
    (hreceived : (received s'.srv c).Sublist (received s.srv c))
    (hsent : (s'.app c).sent.Sublist (s.app c).sent)
    (hresponses : ∀ rsp ∈ s'.responses c, rsp ∈ s.responses c) (howns : s.Owns c → s'.Owns c) :
    Quiet s s' c := by
  refine ⟨by rw [hstatus]; exact id, hcalls, ?_, hresponses, howns⟩
  rw [pipe, pipe, hsendBuff]
  exact (hreceived.map _).append ((hsent.map _).append_right _)

theorem received_of_same {srv srv' : Threads} (hcur : srv'.cur = srv.cur)
    (hrecv : srv'.srv.recvBuff = srv.srv.recvBuff) : received srv' c = received srv c := by
  rw [received, received, hcur, hrecv]

/-- The queue of requests is the same before and after a pop. -/
theorem received_pop {srv : Threads} {msg : Option PwrMsg} {recvBuff : PwrMsgBuffer PwrMsg}
    (hcur : srv.cur = none) (hpop : popFromBufferHead srv.srv.recvBuff = (msg, recvBuff)) :
    received { srv with srv := { srv.srv with recvBuff := recvBuff }, cur := msg } c =
      received srv c := by
  unfold received
  rw [hcur]
  cases msg with
  | none => rw [toList_of_pop_none hpop]
  | some msg =>
    rw [toList_of_pop_some hpop]
    rfl

/-- A request that is received goes to the end of those of its process, and may push
some request out. -/
theorem received_receive {srv : Threads} {msg : PwrMsg} : ∃ l : List PwrMsg,
    l.Sublist (received srv c) ∧
      received { srv with srv := srv.srv.withRecv msg } c =
        l ++ if msg.head.sysId = c then [msg] else [] := by
  obtain ⟨l, hl, heq⟩ := toList_enqueue srv.srv.recvBuff msg
  refine ⟨(srv.cur.toList ++ l).filter fun m => m.head.sysId = c,
    (hl.sublist.append_left _).filter _, ?_⟩
  have hrecv : (srv.srv.withRecv msg).recvBuff = enqueue srv.srv.recvBuff msg := rfl
  rw [received, hrecv, heq, ← List.append_assoc, List.filter_append]
  congr 1
  by_cases hmsg : msg.head.sysId = c <;> simp [hmsg]

theorem quiet_receive {i : Fin maxClientNum} {conn : ℕ} {msg : PwrMsg} {sent : List (ℕ × PwrMsg)}
    (hsent : (s.app (s.srv.srv.pwrClients i).sysId).sent = (conn, msg) :: sent) (c : UInt32) :
    let slot := s.srv.srv.pwrClients i
    Quiet s { s.setApp slot.sysId { s.app slot.sysId with sent := sent } with
      srv := { s.srv with
        srv := s.srv.srv.withRecv ⟨{ msg.head with sysId := slot.sysId }, msg.data⟩ } } c := by
  dsimp only
  obtain ⟨l, hl, heq⟩ := @received_receive c s.srv
    ⟨{ msg.head with sysId := (s.srv.srv.pwrClients i).sysId }, msg.data⟩
  by_cases hc : c = (s.srv.srv.pwrClients i).sysId
  · subst hc
    refine ⟨by simp [setApp], by simp [setApp], ?_, by simp [setApp, responses, Server.withRecv], id⟩
    -- the request goes from the connection into the queue
    rw [pipe, pipe, heq, hsent]
    simp only [setApp, Function.update_self, if_true, List.map_append, List.map_cons, List.map_nil,
      List.append_assoc, List.cons_append, List.nil_append]
    exact (hl.map _).append_right _
  · rw [if_neg (Ne.symm hc), List.append_nil] at heq
    refine quiet_of_srv ?_ ?_ ?_ (heq ▸ hl) ?_ ?_ id
    · simp [setApp, hc]
    · simp [setApp, hc]
    · simp [setApp, hc]
    · simp [setApp, hc]
    · simp [setApp, hc, responses, Server.withRecv]

theorem quiet_send (c : UInt32) {msg : Option PwrMsg} {sendBuff : PwrMsgBuffer PwrMsg}
    (hpop : popFromBufferHead s.srv.srv.sendBuff = (msg, sendBuff))
    (hsrv : s'.srv = { s.srv with srv := { s.srv.srv with sendBuff := sendBuff } })
    (hother : ∀ a, (s'.app a).status = (s.app a).status ∧ (s'.app a).calls = (s.app a).calls ∧
      (s'.app a).sendBuff = (s.app a).sendBuff ∧ (s'.app a).sent = (s.app a).sent)
    (hback : ∀ rsp ∈ (s'.app c).back,
      rsp ∈ (s.app c).back ∨ msg = some rsp ∧ rsp.head.sysId = c) : Quiet s s' c := by
  obtain ⟨hstatus, hcalls, hsendBuff, hsent⟩ := hother c
  refine quiet_of_srv hstatus hcalls hsendBuff ?_ (by rw [hsent]) (fun rsp hrsp => ?_) ?_
  · have hsame : received s'.srv c = received s.srv c :=
      received_of_same (by rw [hsrv]) (by rw [hsrv])
    rw [hsame]
  · have hqueue : ∀ m ∈ sendBuff.toList, m ∈ s.srv.srv.sendBuff.toList := by
      cases msg with
      | none =>
        rw [toList_of_pop_none hpop]
        exact fun _ => id
      | some msg =>
        rw [toList_of_pop_some hpop]
        exact fun m hm => List.mem_cons_of_mem _ hm
    rw [responses, hsrv] at hrsp
    rcases List.mem_append.mp hrsp with hsend | hrsp
    · obtain ⟨hin, hc⟩ := List.mem_filter.mp hsend
      exact List.mem_append_left _ (List.mem_filter.mpr ⟨hqueue rsp hin, hc⟩)
    · rcases hback rsp hrsp with hold | ⟨rfl, hc⟩
      · exact List.mem_append_right _ hold
      · refine List.mem_append_left _ (List.mem_filter.mpr ⟨?_, by simpa using hc⟩)
        rw [toList_of_pop_some hpop]
        exact List.mem_cons_self
  · rw [Owns, Owns, hsrv]
    exact id

/-- A response that is sent goes to the end of those of its process. -/
theorem quiet_answer {msg : PwrMsg} {sendBuff : PwrMsgBuffer PwrMsg}
    (hpop : popFromBufferHead s.srv.srv.sendBuff = (some msg, sendBuff)) :
    let p := msg.head.sysId
    Quiet s { s.setApp p { s.app p with back := (s.app p).back ++ [msg] } with
      srv := { s.srv with srv := { s.srv.srv with sendBuff := sendBuff } } } c := by
  refine quiet_send c hpop rfl (fun a => ?_) fun rsp hrsp => ?_
  · by_cases ha : a = msg.head.sysId
    · subst ha
      simp [setApp]
    · simp [setApp, ha]
  · by_cases hc : c = msg.head.sysId
    · subst hc
      simp only [setApp, Function.update_self] at hrsp
      rcases List.mem_append.mp hrsp with hold | hnew
      · exact .inl hold
      · obtain rfl := List.mem_singleton.mp hnew
        exact .inr ⟨rfl, rfl⟩
    · simp only [setApp, Function.update_of_ne hc] at hrsp
      exact .inl hrsp

/-! ## Calls -/

section Calls

variable {a : App}

theorem app_setApp : (s.setApp p a).app p = a := Function.update_self ..

theorem pipe_setApp : (s.setApp p a).pipe p = (received s.srv p).map PwrMsg.key ++
    ((a.sent.map fun m => m.2.key) ++ a.sendBuff.toList.map PwrMsg.key) := by
  rw [pipe, app_setApp]
  rfl

theorem responses_setApp : (s.setApp p a).responses p =
    (s.srv.srv.sendBuff.toList.filter fun m => m.head.sysId = p) ++ a.back := by
  rw [responses, app_setApp]
  rfl

theorem asked_setApp : (s.setApp p a).asked p = (received s.srv p).map PwrMsg.key ++
    ((a.sent.map fun m => m.2.key) ++ a.sendBuff.toList.map PwrMsg.key) ++ a.created := by
  rw [asked, pipe_setApp, app_setApp]

theorem exists_created {call : ApiCall} {seqId : UInt32} (hcall : call ∈ a.calls)
    (hid : call.seqId = some seqId) : ∃ k ∈ a.created, k.seqId = seqId := by
  obtain ⟨req, hreq, rfl⟩ := Option.map_eq_some_iff.mp hid
  exact ⟨req.key, List.mem_filterMap.mpr ⟨call, hcall, by rw [hreq]; rfl⟩, rfl⟩

theorem split_of_getElem? {α : Type} {l : List α} {i : ℕ} {x : α} (h : l[i]? = some x) :
    ∃ u v, l = u ++ x :: v ∧ l.eraseIdx i = u ++ v ∧ ∀ y, l.set i y = u ++ y :: v := by
  obtain ⟨hi, rfl⟩ := List.getElem?_eq_some_iff.mp h
  refine ⟨l.take i, l.drop (i + 1), ?_, List.eraseIdx_eq_take_drop_succ l i, fun y => ?_⟩
  · rw [List.getElem_cons_drop, List.take_append_drop]
  · rw [List.set_eq_take_append_cons_drop, if_pos hi]

theorem exists_mem_middle {α : Type} {u v : List α} {x : α} {P : α → Prop} :
    (∃ y ∈ u ++ x :: v, P y) ↔ P x ∨ ∃ y ∈ u ++ v, P y := by
  simp only [List.mem_append, List.mem_cons]
  constructor
  · rintro ⟨y, hy | rfl | hy, hP⟩
    · exact .inr ⟨y, .inl hy, hP⟩
    · exact .inl hP
    · exact .inr ⟨y, .inr hy, hP⟩
  · rintro (hP | ⟨y, hy | hy, hP⟩)
    · exact ⟨x, .inr (.inl rfl), hP⟩
    · exact ⟨y, .inl hy, hP⟩
    · exact ⟨y, .inr (.inr hy), hP⟩

theorem exists_mem_set {α : Type} {l : List α} {i : ℕ} {x y : α} {P : α → Prop}
    (h : l[i]? = some x) (hP : P y ↔ P x) : (∃ z ∈ l.set i y, P z) ↔ ∃ z ∈ l, P z := by
  obtain ⟨u, v, hl, -, hset⟩ := split_of_getElem? h
  rw [hset, hl, exists_mem_middle, exists_mem_middle, hP]

theorem mem_middle {α : Type} {u v : List α} {x y : α} (h : y ∈ u ++ v) : y ∈ u ++ x :: v :=
  List.Sublist.mem h ((List.sublist_cons_self x v).append_left u)

/-- A `PWR_` function is called. -/
theorem agrees_enter (h : s.Agrees p) {op : OperationType}
    (hcheck : (s.app p).status.check op.neededStatus = true) (hg : s.Aligned (.enter p op)) :
    (s.setApp p { s.app p with
      calls := (s.app p).calls ++ [⟨op, none, false, none⟩] }).Agrees p := by
  obtain ⟨hrelease, hother⟩ := hg
  have hreleasing : App.Releasing { s.app p with
      calls := (s.app p).calls ++ [⟨op, none, false, none⟩] } ↔
        (s.app p).Releasing ∨ op = .comReleaseControlAuth := by
    simp [App.Releasing, or_and_right, exists_or]
  have hpoised : App.Poised { s.app p with
      calls := (s.app p).calls ++ [⟨op, none, false, none⟩] } ↔
        (s.app p).Poised ∨ op.isControl = true := by
    simp [App.Poised, or_and_right, exists_or]
  have hasking : App.Asking { s.app p with
      calls := (s.app p).calls ++ [⟨op, none, false, none⟩] } ↔
        (s.app p).Asking ∨ op = .comRequestControlAuth := by
    simp [App.Asking, or_and_right, exists_or]
  refine ⟨?_, ?_, ?_, ?_, ?_⟩
  · rw [pipe_setApp]
    exact h.covered
  · rw [pipe_setApp, app_setApp, hreleasing]
    exact fun k hk hr => .inl (h.releasing k hk hr)
  · rw [app_setApp, hreleasing, hpoised, hasking]
    rintro (hr | rfl)
    · obtain ⟨hnotPoised, hnotAsking⟩ := h.alone hr
      refine ⟨?_, ?_⟩
      · rintro (hp | hcontrol)
        · exact hnotPoised hp
        · exact hother (.inr hcontrol) hr
      · rintro (hask | hop)
        · exact hnotAsking hask
        · exact hother (.inl hop) hr
    · obtain ⟨hnotPoised, hnotAsking⟩ := hrelease rfl
      exact ⟨fun hp => hp.elim hnotPoised nofun, fun hask => hask.elim hnotAsking nofun⟩
  · rw [app_setApp, hreleasing]
    intro hnot hbel
    refine h.owner (fun hr => hnot (.inl hr)) ?_
    rw [Believes, app_setApp, hpoised] at hbel
    rcases hbel with hauthed | (hp | hcontrol) | ⟨call, hcall, hop, hgrant⟩
    · exact .inl hauthed
    · exact .inr (.inl hp)
    · exact .inl (authed_of_check hcontrol hcheck)
    · rw [responses_setApp] at hgrant
      rw [app_setApp] at hcall
      rcases List.mem_append.mp hcall with hcall | hcall
      · exact .inr (.inr ⟨call, hcall, hop, hgrant⟩)
      · -- a call that has just begun has no response
        obtain rfl := List.mem_singleton.mp hcall
        rcases hgrant with hsucc | ⟨rsp, -, hid, -⟩
        · cases hsucc
        · cases hid
  · have hcreated : App.created { s.app p with
        calls := (s.app p).calls ++ [⟨op, none, false, none⟩] } = (s.app p).created := by
      simp [App.created, List.filterMap_append]
    rw [asked_setApp, app_setApp, hcreated]
    intro call hcall k hk hid
    rcases List.mem_append.mp hcall with hcall | hcall
    · exact h.typed call hcall k hk hid
    · obtain rfl := List.mem_singleton.mp hcall
      cases hid

/-- A call goes on with its operation, and nothing is granted by that. -/
theorem agrees_setCall (h : s.Agrees p) {i : ℕ} {call call' : ApiCall}
    (hcall : (s.app p).calls[i]? = some call) (hcalls : a.calls = (s.app p).calls.set i call')
    (hop : call'.op = call.op) (hqueued : call'.queued = call.queued)
    (hstatus : a.status = (s.app p).status)
    (hsent : a.sent = (s.app p).sent) (hsendBuff : a.sendBuff = (s.app p).sendBuff)
    (hgranted : (s.setApp p a).Granted p → s.Granted p)
    (htyped : ∀ other ∈ a.calls, ∀ k ∈ (s.setApp p a).asked p, other.seqId = some k.seqId →
      k.optType = other.op.code) : (s.setApp p a).Agrees p := by
  have hpipe : (s.setApp p a).pipe p = s.pipe p := by
    rw [pipe_setApp, hsent, hsendBuff]
    rfl
  have hreleasing : a.Releasing ↔ (s.app p).Releasing := by
    rw [App.Releasing, hcalls]
    exact exists_mem_set hcall (by rw [hop])
  have hpoised : a.Poised ↔ (s.app p).Poised := by
    rw [App.Poised, hcalls]
    exact exists_mem_set hcall (by rw [hop, hqueued])
  have hasking : a.Asking ↔ (s.app p).Asking := by
    rw [App.Asking, hcalls]
    exact exists_mem_set hcall (by rw [hop])
  refine ⟨?_, ?_, ?_, ?_, ?_⟩
  · rw [hpipe]
    exact h.covered
  · rw [hpipe, app_setApp, hreleasing]
    exact h.releasing
  · rw [app_setApp, hreleasing, hpoised, hasking]
    exact h.alone
  · rw [app_setApp, hreleasing, Believes, app_setApp, hpoised, hstatus]
    exact fun hnot hbel => h.owner hnot (hbel.imp_right (Or.imp_right hgranted))
  · rw [app_setApp]
    exact htyped

/-- A call gets a response. -/
theorem agrees_deliver (h : s.Agrees p) {k i : ℕ} {rsp : PwrMsg} {call : ApiCall}
    (hrsp : (s.app p).back[k]? = some rsp) (hcall : (s.app p).calls[i]? = some call)
    (hid : call.seqId = some rsp.head.seqId) :
    (s.setApp p { s.app p with
      back := (s.app p).back.eraseIdx k
      calls := (s.app p).calls.set i { call with rsp := some rsp } }).Agrees p := by
  obtain ⟨u, v, hcalls, -, hset⟩ := split_of_getElem? hcall
  have hcreated : App.created { s.app p with
      back := (s.app p).back.eraseIdx k
      calls := (s.app p).calls.set i { call with rsp := some rsp } } = (s.app p).created := by
    rw [App.created, App.created, hset, hcalls, List.filterMap_append, List.filterMap_append]
    rfl
  have hin : call ∈ (s.app p).calls := List.mem_of_getElem? hcall
  have hresponses : ∀ r ∈ (s.srv.srv.sendBuff.toList.filter fun m => m.head.sysId = p) ++
      (s.app p).back.eraseIdx k, r ∈ s.responses p := by
    intro r hr
    rcases List.mem_append.mp hr with hr | hr
    · exact List.mem_append_left _ hr
    · exact List.mem_append_right _ (List.mem_of_mem_eraseIdx hr)
  refine agrees_setCall h hcall rfl rfl rfl rfl rfl rfl ?_ ?_
  · intro hgranted
    rw [Granted, app_setApp, responses_setApp, hset, exists_mem_middle] at hgranted
    rcases hgranted with ⟨hop, hsucc | ⟨r, hr, hrid⟩⟩ | ⟨other, hother, hop, hsucc | ⟨r, hr, hrid⟩⟩
    · -- the response was a grant on its way
      exact ⟨call, hin, hop, .inr ⟨rsp, List.mem_append_right _ (List.mem_of_getElem? hrsp), hid,
        beq_iff_eq.mp hsucc⟩⟩
    · exact ⟨call, hin, hop, .inr ⟨r, hresponses r hr, hrid⟩⟩
    · exact ⟨other, hcalls ▸ mem_middle hother, hop, .inl hsucc⟩
    · exact ⟨other, hcalls ▸ mem_middle hother, hop, .inr ⟨r, hresponses r hr, hrid⟩⟩
  · rw [asked_setApp, hcreated]
    intro other hother key hkey hkid
    rcases List.mem_or_eq_of_mem_set hother with hold | rfl
    · exact h.typed other hold key hkey hkid
    · exact h.typed call hin key hkey hkid

/-- The request of a call is created. -/
theorem agrees_create (h : s.Agrees p) {i : ℕ} {call : ApiCall} {taskNo dataLen : UInt32}
    {data : DataPtr} {req : PwrMsg} {factory : MsgFactory}
    (hcall : (s.app p).calls[i]? = some call)
    (hreq : createReqMsg (s.app p).factory call.op taskNo dataLen data = (req, factory))
    (hg : s.Aligned (.create p i taskNo dataLen data)) :
    (s.setApp p { s.app p with
      factory := factory
      calls := (s.app p).calls.set i { call with req := some req } }).Agrees p := by
  obtain ⟨hkeyFresh, hrspFresh⟩ := hg
  have hkey : req.key = ⟨call.op.code, (generateSeqId (s.app p).factory).1⟩ := by
    cases hreq
    rfl
  obtain ⟨u, v, hcalls, -, hset⟩ := split_of_getElem? hcall
  have hin : call ∈ (s.app p).calls := List.mem_of_getElem? hcall
  refine agrees_setCall h hcall rfl rfl rfl rfl rfl rfl ?_ ?_
  · intro hgranted
    rw [Granted, app_setApp, responses_setApp, hset, exists_mem_middle] at hgranted
    rcases hgranted with ⟨hop, hsucc | ⟨r, hr, hid, -⟩⟩ | ⟨other, hother, hop, hgrant⟩
    · exact ⟨call, hin, hop, .inl hsucc⟩
    · have hseq : req.head.seqId = r.head.seqId := Option.some.inj hid
      exact absurd (hseq.symm.trans (congrArg ReqKey.seqId hkey)) (hrspFresh r hr)
    · exact ⟨other, hcalls ▸ mem_middle hother, hop, hgrant⟩
  · -- the new key is the new call's alone
    have hasked : ∀ k ∈ (s.setApp p { s.app p with
        factory := factory
        calls := (s.app p).calls.set i { call with req := some req } }).asked p,
          k ∈ s.asked p ∨ k = req.key := by
      intro k hk
      rw [asked_setApp, App.created] at hk
      rcases List.mem_append.mp hk with hk | hk
      · exact .inl (List.mem_append_left _ hk)
      · obtain ⟨other, hother, hk⟩ := List.mem_filterMap.mp hk
        rcases List.mem_or_eq_of_mem_set hother with hother | rfl
        · exact .inl (List.mem_append_right _ (List.mem_filterMap.mpr ⟨other, hother, hk⟩))
        · exact .inr (Option.some.inj hk).symm
    have hold : ∀ other ∈ (s.app p).calls, ∀ k, k ∈ s.asked p ∨ k = req.key →
        other.seqId = some k.seqId → k.optType = other.op.code := by
      rintro other hother k (hk | rfl) hid
      · exact h.typed other hother k hk hid
      · obtain ⟨k, hk, hid'⟩ := exists_created hother hid
        exact absurd (hid'.trans (congrArg ReqKey.seqId hkey)) (hkeyFresh k (List.mem_append_right _ hk))
    intro other hother k hk hid
    rcases List.mem_or_eq_of_mem_set hother with hother | rfl
    · exact hold other hother k (hasked k hk) hid
    · have hseq : req.head.seqId = k.seqId := Option.some.inj hid
      rcases hasked k hk with hk | rfl
      · exact absurd (hseq.symm.trans (congrArg ReqKey.seqId hkey)) (hkeyFresh k hk)
      · exact congrArg ReqKey.optType hkey

/-- The request of a call is queued, if there is a connection. -/
theorem agrees_queue (h : s.Agrees p) {i : ℕ} {call : ApiCall} {req : PwrMsg} {addr : UInt64}
    {a : App} (hcall : (s.app p).calls[i]? = some call) (hreq : call.req = some req)
    (hqueued : call.queued = false) (ha : queueCall (s.app p) i call req addr = some a) :
    (s.setApp p a).Agrees p := by
  obtain ⟨u, v, hcalls, -, hset⟩ := split_of_getElem? hcall
  have hin : call ∈ (s.app p).calls := List.mem_of_getElem? hcall
  have hkey : req.key ∈ s.asked p :=
    List.mem_append_right _ (List.mem_filterMap.mpr ⟨call, hin, by rw [hreq]; rfl⟩)
  have hcode : req.key.optType = call.op.code :=
    h.typed call hin req.key hkey (by rw [ApiCall.seqId, hreq]; rfl)
  -- what is new is one request at the end of the queue, if any
  obtain ⟨hstatus, hcalls', hsent, hback, l, hl, hqueue⟩ : a.status = (s.app p).status ∧
      a.calls = (s.app p).calls.set i { call with queued := true } ∧
      a.sent = (s.app p).sent ∧ a.back = (s.app p).back ∧
      ∃ l : List PwrMsg, l.Sublist (s.app p).sendBuff.toList ∧
        (a.sendBuff.toList.map PwrMsg.key = l.map PwrMsg.key ∨
          a.sendBuff.toList.map PwrMsg.key = l.map PwrMsg.key ++ [req.key]) := by
    rw [queueCall] at ha
    dsimp only at ha
    split at ha
    · obtain rfl := Option.some.inj ha
      exact ⟨rfl, rfl, rfl, rfl, _, List.Sublist.refl _, .inl rfl⟩
    · obtain ⟨copy, hcopy, rfl⟩ := Option.map_eq_some_iff.mp ha
      have hhead := head_clonePwrMsg (toOption_eq_some hcopy)
      obtain ⟨l, hl, heq⟩ := toList_enqueue (s.app p).sendBuff copy
      refine ⟨rfl, rfl, rfl, rfl, l, hl.sublist, .inr ?_⟩
      rw [heq, List.map_append, List.map_singleton]
      simp only [PwrMsg.key, hhead]
  have hreleasing : a.Releasing ↔ (s.app p).Releasing := by
    rw [App.Releasing, App.Releasing, hcalls']
    exact exists_mem_set hcall Iff.rfl
  have hasking : a.Asking ↔ (s.app p).Asking := by
    rw [App.Asking, App.Asking, hcalls']
    exact exists_mem_set hcall Iff.rfl
  have hpoised : a.Poised → (s.app p).Poised := by
    rw [App.Poised, App.Poised, hcalls', hset, hcalls, exists_mem_middle, exists_mem_middle]
    rintro (⟨-, hfalse⟩ | hother)
    · cases hfalse
    · exact .inr hother
  have hcreated : a.created = (s.app p).created := by
    rw [App.created, App.created, hcalls', hset, hcalls, List.filterMap_append,
      List.filterMap_append]
    rfl
  have hsub : ((received s.srv p).map PwrMsg.key ++
      ((s.app p).sent.map (fun m => m.2.key) ++ l.map PwrMsg.key)).Sublist (s.pipe p) :=
    ((hl.map _).append_left _).append_left _
  have hpipe : (s.setApp p a).pipe p = (received s.srv p).map PwrMsg.key ++
        ((s.app p).sent.map (fun m => m.2.key) ++ l.map PwrMsg.key) ∨
      (s.setApp p a).pipe p = ((received s.srv p).map PwrMsg.key ++
        ((s.app p).sent.map (fun m => m.2.key) ++ l.map PwrMsg.key)) ++ [req.key] := by
    rw [pipe_setApp, hsent]
    rcases hqueue with hqueue | hqueue
    · exact .inl (by rw [hqueue])
    · exact .inr (by rw [hqueue, List.append_assoc, List.append_assoc])
  have hkeys : ∀ k ∈ (s.setApp p a).pipe p, k ∈ s.pipe p ∨ k = req.key := by
    intro k hk
    rcases hpipe with heq | heq <;> rw [heq] at hk
    · exact .inl (hsub.mem hk)
    · rcases List.mem_append.mp hk with hk | hk
      · exact .inl (hsub.mem hk)
      · exact .inr (List.mem_singleton.mp hk)
  refine ⟨?_, fun k hk hr => ?_, ?_, ?_, ?_⟩
  · rcases hpipe with heq | heq <;> rw [heq]
    · exact h.covered.sublist hsub
    · refine Licence.covered_append.mpr ⟨h.covered.sublist hsub, fun hcontrol => ?_, trivial⟩
      -- a control operation was let pass, and no release is under way
      have hp : (s.app p).Poised := ⟨call, hin, (controls_iff hcode).mp hcontrol, hqueued⟩
      have hnot : ¬ (s.app p).Releasing := fun hr => (h.alone hr).1 hp
      exact ⟨h.owner hnot (.inr (.inl hp)), fun k hk hr => hnot (h.releasing k (hsub.mem hk) hr)⟩
  · rw [app_setApp, hreleasing]
    rcases hkeys k hk with hk | rfl
    · exact h.releasing k hk hr
    · exact ⟨call, hin, code_inj (hcode.symm.trans hr)⟩
  · rw [app_setApp, hreleasing, hasking]
    exact fun hr => ⟨fun hp => (h.alone hr).1 (hpoised hp), (h.alone hr).2⟩
  · rw [app_setApp, hreleasing, Believes, app_setApp, hstatus]
    intro hnot hbel
    refine h.owner hnot ?_
    rcases hbel with hauthed | hp | hgranted
    · exact .inl hauthed
    · exact .inr (.inl (hpoised hp))
    · rw [Granted, app_setApp, responses_setApp, hback, hcalls'] at hgranted
      refine .inr (.inr ((exists_mem_set hcall ?_).mp hgranted))
      rfl
  · have hasked : ∀ k ∈ (s.setApp p a).asked p, k ∈ s.asked p := by
      intro k hk
      rw [asked, app_setApp, hcreated] at hk
      rcases List.mem_append.mp hk with hk | hk
      · rcases hkeys k hk with hk | rfl
        · exact List.mem_append_left _ hk
        · exact hkey
      · exact List.mem_append_right _ hk
    rw [app_setApp, hcalls']
    intro other hother k hk hid
    rcases List.mem_or_eq_of_mem_set hother with hold | rfl
    · exact h.typed other hold k (hasked k hk) hid
    · exact h.typed call hin k (hasked k hk) hid

/-- A `PWR_` function returns. -/
theorem agrees_leave (h : s.Agrees p) {i : ℕ} {call : ApiCall}
    (hcall : (s.app p).calls[i]? = some call) (hg : s.Aligned (.leave p i)) :
    (s.setApp p { s.app p with
      status := (s.app p).status.after call
      calls := (s.app p).calls.eraseIdx i }).Agrees p := by
  have hleave := hg call hcall
  obtain ⟨u, v, hcalls, herase, -⟩ := split_of_getElem? hcall
  rw [herase] at hleave ⊢
  have hin : call ∈ (s.app p).calls := List.mem_of_getElem? hcall
  have hsub : ∀ other ∈ u ++ v, other ∈ (s.app p).calls := fun other hother =>
    hcalls ▸ mem_middle hother
  -- whether a release is under way changes only if this was one
  have hreleasing : (s.app p).Releasing ↔ call.op = .comReleaseControlAuth ∨
      ∃ other ∈ u ++ v, other.op = .comReleaseControlAuth := by
    rw [App.Releasing, hcalls, exists_mem_middle]
  have hsome : ∀ other ∈ u ++ v, other.op = .comReleaseControlAuth → (s.app p).Releasing :=
    fun other hother hop => ⟨other, hsub other hother, hop⟩
  refine ⟨?_, ?_, ?_, ?_, ?_⟩
  · rw [pipe_setApp]
    exact h.covered
  · rw [pipe_setApp, app_setApp]
    intro k hk hr
    rcases hreleasing.mp (h.releasing k hk hr) with hop | hother
    · rcases hleave hop with hother | ⟨hnone, -⟩
      · exact hother
      · exact absurd hr (hnone k hk)
    · exact hother
  · rw [app_setApp]
    rintro ⟨other, hother, hop⟩
    obtain ⟨hnotPoised, hnotAsking⟩ := h.alone (hsome other hother hop)
    refine ⟨?_, ?_⟩
    · rintro ⟨c, hc, hp⟩
      exact hnotPoised ⟨c, hsub c hc, hp⟩
    · rintro ⟨c, hc, hp⟩
      exact hnotAsking ⟨c, hsub c hc, hp⟩
  · rw [app_setApp]
    intro hnot hbel
    rw [Believes, Granted, app_setApp, responses_setApp] at hbel
    -- besides `g_status`, the process has no more reason to believe than it had
    have hold : (s.app p).status.after call = .authed ∨ s.Believes p := by
      rcases hbel with hauthed | ⟨c, hc, hp⟩ | ⟨c, hc, hp⟩
      · exact .inl hauthed
      · exact .inr (.inr (.inl ⟨c, hsub c hc, hp⟩))
      · exact .inr (.inr (.inr ⟨c, hsub c hc, hp⟩))
    by_cases hop : call.op = .comReleaseControlAuth
    · rcases hleave hop with hother | ⟨-, howns⟩
      · exact absurd hother hnot
      · obtain ⟨hnotPoised, hnotAsking⟩ := h.alone (hreleasing.mpr (.inl hop))
        have hauthed : (s.app p).status.after call = .authed := by
          rcases hbel with hauthed | ⟨c, hc, hp⟩ | ⟨c, hc, hop', -⟩
          · exact hauthed
          · exact absurd ⟨c, hsub c hc, hp⟩ hnotPoised
          · exact absurd ⟨c, hsub c hc, hop'⟩ hnotAsking
        rw [ApiStatus.after, hop] at hauthed
        cases hsucc : call.succeeded with
        | true =>
          rw [hsucc] at hauthed
          cases hauthed
        | false =>
          rw [hsucc] at hauthed
          exact howns hsucc hauthed
    · have hnotReleasing : ¬ (s.app p).Releasing := fun hr =>
        (hreleasing.mp hr).elim hop hnot
      refine h.owner hnotReleasing ?_
      rcases hold with hauthed | hbel
      · by_cases hask : call.op = .comRequestControlAuth
        · rw [ApiStatus.after, hask] at hauthed
          cases hsucc : call.succeeded with
          | true => exact .inr (.inr ⟨call, hin, hask, .inl hsucc⟩)
          | false =>
            rw [hsucc] at hauthed
            exact .inl hauthed
        · refine .inl ?_
          rw [ApiStatus.after] at hauthed
          split at hauthed
          · exact absurd ‹_› hask
          · exact absurd ‹_› hop
          · exact hauthed
      · exact hbel
  · intro other hother k hk
    rw [app_setApp] at hother
    rw [asked_setApp] at hk
    refine h.typed other (hsub other hother) k ?_
    rcases List.mem_append.mp hk with hk | hk
    · exact List.mem_append_left _ hk
    · obtain ⟨call, hcall, hkey⟩ := List.mem_filterMap.mp hk
      exact List.mem_append_right _ (List.mem_filterMap.mpr ⟨call, hsub call hcall, hkey⟩)

end Calls

/-! ## Steps of the server -/

/-- A request takes the authority from nobody but, as a release, from its sender. -/
theorem owns_decided_of {srv : Server} {m : Machine} {req : PwrMsg} (h : srv.auth.Owns c)
    (hreq : req.head.sysId = c → ¬ Releases req.key) : (srv.decided m req).auth.Owns c := by
  unfold Server.decided
  split
  · split <;> exact h
  · split <;> exact h
  · exact h.doAuthRequest
  · rename_i hop
    have hne : c ≠ req.head.sysId := fun hc =>
      hreq hc.symm (OperationType.code_of_ofCode hop).symm
    exact (Auth.owns_doAuthRelease_iff hne).mpr h
  · exact h

theorem decided_frame {srv : Server} {m : Machine} {req : PwrMsg} :
    (srv.decided m req).sendBuff = srv.sendBuff := by
  unfold Server.decided
  split
  · split <;> rfl
  · split <;> rfl
  · rfl
  · rfl
  · rfl

/-- A grant is told to the new owner only. -/
theorem owns_of_code {srv : Server} {m : Machine} {req : PwrMsg} {rspCode : Int}
    (hop : req.head.optType = OperationType.comRequestControlAuth.code)
    (hfits : srv.CodeFits req rspCode) (hcode : UInt16.ofInt rspCode = 0) :
    (srv.decided m req).auth.Owns req.head.sysId := by
  have hof : OperationType.ofCode req.head.optType = some .comRequestControlAuth :=
    OperationType.ofCode_eq_some.mpr hop
  have hrsp : rspCode = (srv.auth.doAuthRequest req.head.sysId).1.code :=
    hfits _ (by simp [Server.authCode, hof])
  have hsuccess : (srv.auth.doAuthRequest req.head.sysId).1 = .success := by
    rw [hrsp] at hcode
    unfold Auth.doAuthRequest at hcode ⊢
    split at hcode
    · split at hcode
      · have hne : UInt16.ofInt RtnCode.errControlAuthRequested.code ≠ 0 := by decide
        exact absurd hcode hne
      · rw [if_pos ‹_›, if_neg ‹_›]
    · rw [if_neg ‹_›]
  have howns := Auth.doAuthRequest_success.mp hsuccess
  simpa [Server.decided, hof] using howns

/-- A request is served. -/
theorem agrees_serve (h : ∀ c, s.Agrees c) {m : Machine} {req : PwrMsg} {srv' : Server}
    (hcur : s.srv.cur = some req) (hserve : s.srv.srv.processReqMsg m req = .ok srv') :
    (Controls req.key → s.Owns req.head.sysId) ∧
      ∀ c, Agrees { s with srv := { s.srv with srv := srv', cur := none } } c := by
  have hrecv := (Server.processReqMsg_frame hserve).2
  -- the request leaves the queue, and at most one response to its sender is new
  obtain ⟨hauth, hrsps⟩ : srv'.auth = (s.srv.srv.decided m req).auth ∧
      ∀ rsp ∈ srv'.sendBuff.toList, rsp ∈ s.srv.srv.sendBuff.toList ∨
        rsp.head.sysId = req.head.sysId ∧ rsp.head.seqId = req.head.seqId ∧
          (req.head.optType = OperationType.comRequestControlAuth.code → rsp.head.rspCode = 0 →
            (s.srv.srv.decided m req).auth.Owns req.head.sysId) := by
    rcases Server.responds_processReqMsg hserve with rfl | ⟨rspCode, data, len, hfits, rfl⟩
    · exact ⟨rfl, fun rsp hrsp => .inl (decided_frame (m := m) ▸ hrsp)⟩
    · refine ⟨rfl, fun rsp hrsp => ?_⟩
      rcases mem_toList_enqueue hrsp with hold | rfl
      · exact .inl (decided_frame (m := m) ▸ hold)
      · exact .inr ⟨rfl, rfl, fun hop hcode => owns_of_code hop hfits hcode⟩
  have hreceived : ∀ c, received s.srv c = (if req.head.sysId = c then [req] else []) ++
      received { s.srv with srv := srv', cur := none } c := by
    intro c
    rw [received, received, hcur, hrecv]
    by_cases hc : req.head.sysId = c <;> simp [hc]
  have hpipe : s.pipe req.head.sysId = req.key :: Clients.pipe
      { s with srv := { s.srv with srv := srv', cur := none } } req.head.sysId := by
    rw [pipe, pipe, hreceived, if_pos rfl]
    rfl
  have hself := h req.head.sysId
  have hcovered := hself.covered
  rw [hpipe] at hcovered
  have hin : req.key ∈ s.pipe req.head.sysId := by
    rw [hpipe]
    exact List.mem_cons_self
  refine ⟨hcovered.1, fun c => ?_⟩
  by_cases hc : req.head.sysId = c
  · subst hc
    have howns : s.Owns req.head.sysId → ¬ Releases req.key →
        Clients.Owns { s with srv := { s.srv with srv := srv', cur := none } } req.head.sysId := by
      intro howns hnot
      rw [Owns, hauth]
      exact owns_decided_of howns fun _ => hnot
    have hsub : ∀ k ∈ Clients.pipe { s with srv := { s.srv with srv := srv', cur := none } }
        req.head.sysId, k ∈ s.pipe req.head.sysId := fun k hk =>
      hpipe ▸ List.mem_cons_of_mem _ hk
    have hasked : ∀ k ∈ Clients.asked { s with srv := { s.srv with srv := srv', cur := none } }
        req.head.sysId, k ∈ s.asked req.head.sysId := by
      intro k hk
      rcases List.mem_append.mp hk with hk | hk
      · exact List.mem_append_left _ (hsub k hk)
      · exact List.mem_append_right _ hk
    refine ⟨hcovered.2.mono fun hand => howns hand.1 hand.2, fun k hk => hself.releasing k (hsub k hk),
      hself.alone, fun hnot hbel => ?_,
      fun call hcall k hk => hself.typed call hcall k (hasked k hk)⟩
    have hnotRelease : ¬ Releases req.key := fun hr => hnot (hself.releasing _ hin hr)
    rcases hbel with hauthed | hp | ⟨call, hcall, hop, hsucc | ⟨rsp, hrsp, hid, hcode⟩⟩
    · exact howns (hself.owner hnot (.inl hauthed)) hnotRelease
    · exact howns (hself.owner hnot (.inr (.inl hp))) hnotRelease
    · exact howns (hself.owner hnot (.inr (.inr ⟨call, hcall, hop, .inl hsucc⟩))) hnotRelease
    · have hold : rsp ∈ s.responses req.head.sysId →
          Clients.Owns { s with srv := { s.srv with srv := srv', cur := none } }
            req.head.sysId := fun hr =>
        howns (hself.owner hnot (.inr (.inr ⟨call, hcall, hop, .inr ⟨rsp, hr, hid, hcode⟩⟩)))
          hnotRelease
      rcases List.mem_append.mp hrsp with hsend | hback
      · obtain ⟨hsend, hc⟩ := List.mem_filter.mp hsend
        rcases hrsps rsp hsend with hr | ⟨-, hseq, hgrant⟩
        · exact hold (List.mem_append_left _ (List.mem_filter.mpr ⟨hr, hc⟩))
        · -- the response is a grant: its request was the one of the call
          have htyped := hself.typed call hcall req.key (List.mem_append_left _ hin)
            (by rw [hid, hseq]; rfl)
          rw [hop] at htyped
          rw [Owns, hauth]
          exact hgrant htyped hcode
      · exact hold (List.mem_append_right _ hback)
  · refine (h c).of_quiet (quiet_of_srv rfl rfl rfl ?_ (List.Sublist.refl _) (fun rsp hrsp => ?_)
      fun howns => ?_)
    · rw [hreceived c, if_neg hc]
      exact List.Sublist.refl _
    · rcases List.mem_append.mp hrsp with hsend | hback
      · obtain ⟨hsend, hsys⟩ := List.mem_filter.mp hsend
        rcases hrsps rsp hsend with hr | ⟨hto, -⟩
        · exact List.mem_append_left _ (List.mem_filter.mpr ⟨hr, hsys⟩)
        · exact absurd (hto.symm.trans (by simpa using hsys)) hc
      · exact List.mem_append_right _ hback
    · rw [Owns, hauth]
      exact owns_decided_of howns fun hto => absurd hto hc

/-- One of the calls of a clean-up. -/
theorem agrees_clean (h : ∀ c, s.Agrees c) {cleaning : Cleaning}
    (hc : s.srv.cleaning = some cleaning) (hg : s.Aligned .clean) (c : UInt32) :
    Agrees { s with srv := s.srv.cleanCall cleaning } c := by
  obtain ⟨idx, pc⟩ := cleaning
  cases pc with
  | auth =>
    by_cases howner : c = (s.srv.srv.pwrClients 0).sysId ∧ s.Owns c
    · -- the authority is taken from a process that does not rely on it
      obtain ⟨rfl, howns⟩ := howner
      obtain ⟨hnone, hbelieves⟩ := hg _ hc rfl howns
      have hself := h (s.srv.srv.pwrClients 0).sysId
      refine ⟨Licence.covered_of_not_needs hnone, hself.releasing, hself.alone,
        fun hnot hbel => ?_, hself.typed⟩
      rcases hbelieves with hr | hb
      · exact absurd hr hnot
      · exact absurd hbel hb
    · refine (h c).of_quiet (quiet_of_srv rfl rfl rfl (List.Sublist.refl _) (List.Sublist.refl _)
        (fun _ => id) fun howns => ?_)
      have hne : c ≠ (s.srv.srv.pwrClients 0).sysId := fun heq => howner ⟨heq, howns⟩
      exact (Auth.owns_doAuthRelease_iff hne).mpr howns
  | tasks =>
    exact (h c).of_quiet (quiet_of_srv rfl rfl rfl (List.Sublist.refl _) (List.Sublist.refl _)
      (fun _ => id) id)
  | list =>
    exact (h c).of_quiet (quiet_of_srv rfl rfl rfl (List.Sublist.refl _) (List.Sublist.refl _)
      (fun _ => id) id)

theorem accept_move {srv srv' : Threads} {newClient : PwrClient}
    (h : srv.step (.accept newClient) = some srv') :
    srv'.cur = srv.cur ∧ srv'.srv.recvBuff = srv.srv.recvBuff ∧
      srv'.srv.sendBuff = srv.srv.sendBuff ∧ srv'.srv.auth = srv.srv.auth := by
  cases Threads.move_of_step h with
  | accept _ _ => exact ⟨rfl, rfl, rfl, rfl⟩

/-- A server step by which of one process at most some requests on its way get lost. -/
theorem quiet_of_lost {f : ℕ × PwrMsg → Bool}
    (happ : s'.app = Function.update s.app p { s.app p with sent := (s.app p).sent.filter f })
    (hcur : s'.srv.cur = s.srv.cur)
    (hrecv : s'.srv.srv.recvBuff = s.srv.srv.recvBuff)
    (hsend : s'.srv.srv.sendBuff = s.srv.srv.sendBuff)
    (hauth : s'.srv.srv.auth = s.srv.srv.auth) : Quiet s s' c := by
  have hreceived : received s'.srv c = received s.srv c := received_of_same hcur hrecv
  have howns : s.Owns c → s'.Owns c := by
    rw [Owns, Owns, hauth]
    exact id
  by_cases hc : c = p
  · subst hc
    refine quiet_of_srv ?_ ?_ ?_ (by rw [hreceived]) ?_ ?_ howns <;>
      simp [happ, responses, hsend]
  · refine quiet_of_srv ?_ ?_ ?_ (by rw [hreceived]) ?_ ?_ howns <;>
      simp [happ, hc, responses, hsend]

/-- **One step** of any process or of the server. -/
theorem agrees_step (h : ∀ c, s.Agrees c) (hs : step s e = some s') (hg : s.Aligned e) :
    (∀ c, s'.Agrees c) ∧ s.ByOwner e := by
  cases e with
  | register p =>
    obtain ⟨-, h'⟩ := Option.ite_none_left_eq_some.mp hs
    cases Option.some.inj h'
    refine ⟨fun c => (h c).of_quiet (quiet_connect ?_ ?_ ?_ ?_), trivial⟩
    · dsimp only
      split
      · exact fun hauthed => by cases hauthed
      · exact id
    · rfl
    · rfl
    · simp
  | registerFailed p =>
    obtain ⟨-, h'⟩ := Option.ite_none_left_eq_some.mp hs
    cases Option.some.inj h'
    exact ⟨fun c => (h c).of_quiet (quiet_fini id), trivial⟩
  | unregister p =>
    cases Option.some.inj hs
    exact ⟨fun c => (h c).of_quiet (quiet_fini fun hauthed => by cases hauthed), trivial⟩
  | enter p op =>
    obtain ⟨hcheck, h'⟩ := Option.ite_none_right_eq_some.mp hs
    cases Option.some.inj h'
    exact ⟨agrees_of_app h rfl rfl (agrees_enter (h p) hcheck hg), trivial⟩
  | create p i taskNo dataLen data =>
    obtain ⟨call, hcall, h'⟩ := Option.bind_eq_some_iff.mp hs
    obtain ⟨-, h'⟩ := Option.ite_none_right_eq_some.mp h'
    cases Option.some.inj h'
    exact ⟨agrees_of_app h rfl rfl (agrees_create (h p) hcall rfl hg), trivial⟩
  | queue p i addr =>
    obtain ⟨call, hcall, h'⟩ := Option.bind_eq_some_iff.mp hs
    obtain ⟨req, hreq, h'⟩ := Option.bind_eq_some_iff.mp h'
    obtain ⟨hqueued, h'⟩ := Option.ite_none_left_eq_some.mp h'
    obtain ⟨a, ha, rfl⟩ := Option.map_eq_some_iff.mp h'
    exact ⟨agrees_of_app h rfl rfl (agrees_queue (h p) hcall hreq (by simpa using hqueued) ha),
      trivial⟩
  | transmit p =>
    obtain ⟨conn, -, rfl⟩ := Option.map_eq_some_iff.mp hs
    refine ⟨fun c => (h c).of_quiet ?_, trivial⟩
    cases hpop : popFromBufferHead (s.app p).sendBuff with
    | mk msg sendBuff =>
      refine quiet_setApp ?_ ?_ ?_ ?_
      · exact id
      · rfl
      · -- the request goes from the queue to the connection
        cases msg with
        | none => simp [toList_of_pop_none hpop]
        | some msg => simp [toList_of_pop_some hpop]
      · exact fun _ => id
  | deliver p k i =>
    obtain ⟨rsp, hrsp, h'⟩ := Option.bind_eq_some_iff.mp hs
    obtain ⟨call, hcall, h'⟩ := Option.bind_eq_some_iff.mp h'
    obtain ⟨⟨-, hid⟩, h'⟩ := Option.ite_none_right_eq_some.mp h'
    cases Option.some.inj h'
    exact ⟨agrees_of_app h rfl rfl (agrees_deliver (h p) hrsp hcall hid), trivial⟩
  | loseResponse p k =>
    cases Option.some.inj hs
    refine ⟨fun c => (h c).of_quiet (quiet_setApp ?_ ?_ ?_ ?_), trivial⟩
    · exact id
    · rfl
    · exact List.Sublist.refl _
    · exact fun _ => List.mem_of_mem_eraseIdx
  | leave p i =>
    obtain ⟨call, hcall, rfl⟩ := Option.map_eq_some_iff.mp hs
    exact ⟨agrees_of_app h rfl rfl (agrees_leave (h p) hcall hg), trivial⟩
  | disconnect p =>
    cases Option.some.inj hs
    refine ⟨fun c => (h c).of_quiet (quiet_setApp ?_ ?_ ?_ ?_), trivial⟩
    · exact id
    · rfl
    · exact List.Sublist.refl _
    · intro rsp hrsp
      cases hrsp
  | reconnect p =>
    obtain ⟨-, h'⟩ := Option.ite_none_right_eq_some.mp hs
    cases Option.some.inj h'
    exact ⟨fun c => (h c).of_quiet (quiet_connect id rfl rfl (List.Sublist.refl _)), trivial⟩
  | accept =>
    obtain ⟨p, -, h'⟩ := Option.bind_eq_some_iff.mp hs
    obtain ⟨srv, hsrv, rfl⟩ := Option.map_eq_some_iff.mp h'
    obtain ⟨hcur, hrecv, hsend, hauth⟩ := accept_move hsrv
    refine ⟨fun c => (h c).of_quiet ?_, trivial⟩
    exact quiet_of_lost (p := p) (f := fun m => s.accepted ≤ m.1) (by rfl) hcur hrecv hsend hauth
  | receive i =>
    rw [step] at hs
    dsimp only at hs
    split at hs
    · cases hs
    · rename_i conn msg sent hsent
      obtain ⟨-, h'⟩ := Option.ite_none_right_eq_some.mp hs
      obtain ⟨srv, hsrv, rfl⟩ := Option.map_eq_some_iff.mp h'
      cases Threads.move_of_step hsrv with
      | receive _ _ _ _ _ => exact ⟨fun c => (h c).of_quiet (quiet_receive hsent c), trivial⟩
  | loseRequest p k =>
    cases Option.some.inj hs
    refine ⟨fun c => (h c).of_quiet (quiet_setApp ?_ ?_ ?_ ?_), trivial⟩
    · exact id
    · rfl
    · exact ((List.eraseIdx_sublist _ k).map _).append_right _
    · exact fun _ => id
  | lose idx =>
    obtain ⟨srv, hsrv, rfl⟩ := Option.map_eq_some_iff.mp hs
    cases Threads.move_of_step hsrv with
    | lose _ _ =>
      refine ⟨fun c => (h c).of_quiet ?_, trivial⟩
      cases idx with
      | none =>
        exact quiet_of_srv rfl rfl rfl (List.Sublist.refl _) (List.Sublist.refl _) (fun _ => id) id
      | some i =>
        let slot := s.srv.srv.pwrClients i
        refine quiet_of_lost (p := slot.sysId) (f := fun m => slot.fd ≠ m.1) ?_ ?_ ?_ ?_ ?_ <;> rfl
  | clean =>
    obtain ⟨srv, hsrv, rfl⟩ := Option.map_eq_some_iff.mp hs
    cases Threads.move_of_step hsrv with
    | clean cleaning hc => exact ⟨agrees_clean h hc hg, trivial⟩
  | send =>
    obtain ⟨srv, hsrv, rfl⟩ := Option.map_eq_some_iff.mp hs
    cases Threads.move_of_step hsrv with
    | send _ =>
      refine ⟨fun c => (h c).of_quiet ?_, trivial⟩
      cases hpop : popFromBufferHead s.srv.srv.sendBuff with
      | mk msg sendBuff =>
        cases msg with
        | none => exact quiet_send c hpop rfl (fun _ => ⟨rfl, rfl, rfl, rfl⟩) fun _ hr => .inl hr
        | some msg =>
          dsimp only
          split
          · exact quiet_answer hpop
          · -- nobody reads it
            exact quiet_send c hpop rfl (fun _ => ⟨rfl, rfl, rfl, rfl⟩) fun _ hr => .inl hr
  | pop =>
    obtain ⟨srv, hsrv, rfl⟩ := Option.map_eq_some_iff.mp hs
    cases Threads.move_of_step hsrv with
    | pop msg recvBuff hcur hpop =>
      refine ⟨fun c => (h c).of_quiet (quiet_of_srv rfl rfl rfl ?_ (List.Sublist.refl _)
        (fun _ => id) id), trivial⟩
      rw [received_pop hcur hpop]
  | serve m =>
    obtain ⟨srv, hsrv, rfl⟩ := Option.map_eq_some_iff.mp hs
    cases Threads.move_of_step hsrv with
    | serve _ req srv' hcur hserve =>
      obtain ⟨howner, hagrees⟩ := agrees_serve h hcur hserve
      refine ⟨hagrees, fun req' hreq' hcontrol => ?_⟩
      obtain rfl := Option.some.inj (hcur.symm.trans hreq')
      exact howner hcontrol

/-- **The authority is exclusive**: in a run in which no step lets the copies of the
authority come apart, every control operation is carried out for the owner. -/
theorem control_by_owner (events : List Event)
    (haligned : Transition.Along step (fun s e _ => s.Aligned e) init events) :
    Transition.Along step (fun s e _ => s.ByOwner e) init events :=
  Transition.Along.of_invariant (I := fun s => ∀ c, s.Agrees c)
    (fun h hs hg => agrees_step h hs hg) agrees_init haligned

/-- A call of process `p`, which the server knows in slot `i`, up to where its request has
been served. -/
def served (p : UInt32) (i : Fin maxClientNum) (op : OperationType) (dataLen : UInt32)
    (data : DataPtr) : List Event :=
  [.enter p op, .create p 0 0 dataLen data, .queue p 0 2, .transmit p, .receive i, .pop,
    .serve Server.bareMachine]

/-- Then its response gets back. -/
def answered (p : UInt32) : List Event := [.send, .deliver p 0 0, .leave p 0]

/-- `PWR_RequestControlAuth`. -/
def granted (p : UInt32) (i : Fin maxClientNum) : List Event :=
  served p i .comRequestControlAuth 0 .null ++ answered p

/-- `PWR_SYS_SetPowerState`. -/
def suspended (p : UInt32) (i : Fin maxClientNum) : List Event :=
  served p i .sysSetPowerState 3 (.heap 1 (text "mem"))

/-- Process 1 gets the authority, uses it and gives it back, and then process 2 gets it. -/
def handedOver : List Event :=
  [.register 1, .accept, .register 2, .accept] ++ granted 1 0 ++ suspended 1 0 ++ answered 1 ++
    served 1 0 .comReleaseControlAuth 0 .null ++ answered 1 ++ granted 2 1 ++ suspended 2 1

theorem control_by_owner_handedOver :
    (Transition.run step init handedOver).isSome = true ∧
      Transition.Along step (fun s e _ => s.ByOwner e) init handedOver :=
  ⟨by decide +kernel, control_by_owner handedOver (by decide +kernel)⟩

/-- Process 1 has the authority when its connection is lost. The server takes it back and
grants it to process 2, and the library of process 1 connects again. -/
def reconnected : List Event :=
  [.register 1, .accept] ++ granted 1 0 ++
    [.lose (some 0), .clean, .clean, .clean, .disconnect 1, .reconnect 1, .accept, .register 2,
      .accept] ++ granted 2 1 ++ suspended 1 0

/-- Then it controls, while the authority is that of process 2. -/
theorem reconnected_not_owner :
    ¬ Transition.Along step (fun s e _ => s.ByOwner e) init reconnected := by
  decide +kernel

end Clients

end PowerApi
