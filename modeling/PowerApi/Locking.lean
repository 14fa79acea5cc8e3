import PowerApi.Locks

/-!
# The locks of the server and of the library

What the functions of `server.c`, `taskservice.c`, `sockclient.c`, `pwrbuffer.c` and `pwrmsg.c` do
with the mutexes and with each other's threads, and nothing else: a function is the language of
the sequences it can run through. A test of something that is no lock is a choice here, and a loop
may be left after any round; `Logger` takes no lock.

In the server a request to stop a task, or a connection that is lost, makes the thread that deals
with it wait, with `g_taskListMutex`, for the thread of the task, which is not short of work: it
may be about to send samples and needs other locks for that. `server_never_stuck` says that it
gets them, whatever the other threads do; `library_never_stuck` says it of a process that calls
the library from any number of threads, and from the callback.

A mutex that is initialised or destroyed while threads use it is no lock any more, and this is
not modelled: the server is followed from its start to the call of `StopServer`, which destroys
`g_taskListMutex` before it waits for the threads, and a process registers and unregisters while
none of its other threads is in the library.
-/

namespace PowerApi

namespace Locking

open Locks Transition Computability

/-! ## The server -/

namespace Server

inductive Mutex where
  /-- `g_listenFdLock` -/
  | listenFd
  /-- `g_taskListMutex` -/
  | taskList
  /-- that of `g_sendBuff` -/
  | sendBuff
  /-- that of `g_recvBuff` -/
  | recvBuff
  /-- `g_waitMsgMutex` -/
  | waitMsg
  /-- `g_seqLock` -/
  | seq
  deriving DecidableEq

inductive Thread where
  | main
  /-- `g_sockProcThread` -/
  | sockProc
  /-- `g_serviceThread` -/
  | service
  /-- the `collThread` of the tasks, one after the other -/
  | coll (n : ℕ)
  deriving DecidableEq

abbrev Program := Language (Act Mutex Thread)

/-- The functions of `pwrbuffer.c` for a queue. -/
def addToBufferTail (smb : Mutex) : Program := critical smb 1

def popFromBufferHead (smb : Mutex) : Program := critical smb 1

def generateSeqId : Program := critical .seq 1

/-- `FiniThreadInfo`, of a thread that was created. -/
def finiThreadInfo (t : Thread) : Program := {[.join t]}

/-- `FiniTask`: which thread it is depends on the list. -/
def finiTask : Program := ⨆ n, finiThreadInfo (.coll n)

/-- `DeleteSubscriber`. -/
def deleteSubscriber : Program := 1 + finiTask

/-- `CreateNewTask`, when it fails and when it does not. -/
def createNewTask : Program := 1 + ⨆ n, {[.spawn (.coll n)]}

/-- `CreateTask`: `AddSubscriber` takes no lock. -/
def createTask : Program := critical .taskList (1 + createNewTask)

def deleteTask : Program := critical .taskList (1 + deleteSubscriber)

def deleteAllTaskByClient : Program := critical .taskList deleteSubscriber∗

/-- `SendRspToClient`. -/
def sendRspToClient : Program := 1 + addToBufferTail .sendBuff

/-- `SendMetadataToClient`. -/
def sendMetadataToClient : Program := 1 + generateSeqId * addToBufferTail .sendBuff

/-- `RunDcTaskProcess`: in every round `SendMetadataToSubscribers`. -/
def runDcTaskProcess : Program := (sendMetadataToClient∗)∗

/-- `ProcessReqMsg`: of the handlers only two take other locks than for the response. -/
def processReqMsg : Program :=
  createTask * sendRspToClient + deleteTask * sendRspToClient + sendRspToClient

/-- `WaitForMsg`: `pthread_cond_timedwait` gives the mutex back for as long as it waits. -/
def waitForMsg : Program := critical .waitMsg 1 * critical .waitMsg 1

/-- `RunServiceProcess`. -/
def runServiceProcess : Program :=
  ((1 + waitForMsg) * popFromBufferHead .recvBuff * (1 + processReqMsg))∗

/-- `AcceptConnection`. -/
def acceptConnection : Program := critical .listenFd 1

/-- `CleanClientResource`: of the three functions only `CleanDataCollTaskByClient` takes a lock. -/
def cleanClientResource : Program := deleteAllTaskByClient

/-- `ProcessRecvMsgFromClient`: there is no memory, or one of the calls of `ReadMsg` fails, or the
message is queued and signalled. -/
def processRecvMsgFromClient : Program :=
  1 + cleanClientResource + addToBufferTail .recvBuff * critical .waitMsg 1

/-- `WriteMsg`. -/
def writeMsg : Program := 1 + cleanClientResource

/-- `ProcessSendMsgToClient`: what does not fit one call of `WriteMsg` takes more. -/
def processSendMsgToClient : Program := (popFromBufferHead .sendBuff * writeMsg∗)∗

/-- `RunServerSocketProcess`. -/
def runServerSocketProcess : Program :=
  ((1 + processSendMsgToClient) * (1 + acceptConnection) * processRecvMsgFromClient∗)∗

/-- `main` up to `StopServer`: `StartServer` creates the two threads, and the loop takes no lock. -/
def main : Program := {[.spawn .service]} * {[.spawn .sockProc]}

def program : Thread → Program
  | .main => main
  | .sockProc => runServerSocketProcess
  | .service => runServiceProcess
  | .coll _ => runDcTaskProcess

def rank : Mutex → ℕ
  | .listenFd => 2
  | .taskList => 2
  | .sendBuff => 4
  | .recvBuff => 4
  | .waitMsg => 4
  | .seq => 4

def rankT : Thread → ℕ
  | .main => 0
  | .sockProc => 1
  | .service => 1
  | .coll _ => 3

section Within

variable {r : ℕ}

theorem within_buffer {l : Mutex} (hl : r ≤ rank l) : Within rank rankT r (critical l 1) :=
  within_one.critical hl

theorem within_finiTask (hr : r ≤ 3) : Within rank rankT r finiTask := .iSup fun _ => within_join hr

theorem within_deleteSubscriber (hr : r ≤ 3) : Within rank rankT r deleteSubscriber :=
  within_one.add (within_finiTask hr)

theorem within_createTask (hr : r ≤ 2) : Within rank rankT r createTask :=
  (within_one.add (within_one.add (.iSup fun _ => within_spawn _))).critical hr

theorem within_deleteTask (hr : r ≤ 2) : Within rank rankT r deleteTask :=
  (within_one.add (within_deleteSubscriber le_rfl)).critical hr

theorem within_cleanClientResource (hr : r ≤ 2) : Within rank rankT r cleanClientResource :=
  (within_deleteSubscriber le_rfl).kstar.critical hr

theorem within_sendRspToClient (hr : r ≤ 4) : Within rank rankT r sendRspToClient :=
  within_one.add (within_buffer hr)

theorem within_runDcTaskProcess : Within rank rankT 4 runDcTaskProcess :=
  have hseq : Within rank rankT 4 generateSeqId := within_buffer (by decide)
  have hadd : Within rank rankT 4 (addToBufferTail .sendBuff) := within_buffer (by decide)
  (within_one.add (hseq.mul hadd)).kstar.kstar

theorem within_processReqMsg : Within rank rankT 2 processReqMsg :=
  have hrsp := within_sendRspToClient (r := 2) (by decide)
  ((within_createTask le_rfl).mul hrsp).add ((within_deleteTask le_rfl).mul hrsp) |>.add hrsp

theorem within_runServiceProcess : Within rank rankT 2 runServiceProcess :=
  have hwait : Within rank rankT 2 (critical .waitMsg 1) := within_buffer (by decide)
  have hpop : Within rank rankT 2 (popFromBufferHead .recvBuff) := within_buffer (by decide)
  (((within_one.add (hwait.mul hwait)).mul hpop).mul (within_one.add within_processReqMsg)).kstar

theorem within_processRecvMsgFromClient : Within rank rankT 2 processRecvMsgFromClient :=
  have hadd : Within rank rankT 2 (addToBufferTail .recvBuff) := within_buffer (by decide)
  have hsignal : Within rank rankT 2 (critical .waitMsg 1) := within_buffer (by decide)
  (within_one.add (within_cleanClientResource le_rfl)).add (hadd.mul hsignal)

theorem within_processSendMsgToClient : Within rank rankT 2 processSendMsgToClient :=
  have hpop : Within rank rankT 2 (popFromBufferHead .sendBuff) := within_buffer (by decide)
  (hpop.mul (within_one.add (within_cleanClientResource le_rfl)).kstar).kstar

theorem within_runServerSocketProcess : Within rank rankT 2 runServerSocketProcess :=
  (((within_one.add within_processSendMsgToClient).mul (within_one.add (within_buffer le_rfl))).mul
    within_processRecvMsgFromClient.kstar).kstar

theorem within_main : Within rank rankT 1 main := (within_spawn _).mul (within_spawn _)

end Within

theorem ordered_program {t : Thread} {w : List (Act Mutex Thread)} (hw : w ∈ program t) :
    Ordered rank rankT (rankT t) [] w := by
  cases t with
  | main => exact within_main.ordered hw (by decide)
  | sockProc => exact within_runServerSocketProcess.ordered hw (by decide)
  | service => exact within_runServiceProcess.ordered hw (by decide)
  | coll n => exact within_runDcTaskProcess.ordered hw (Nat.lt_succ_self 3)

/-- **The running server never gets stuck**: whatever its threads have to do, and in whatever order
they have done some of it, one that is not at its end can go on, or waits, over however many
others, for one that can. -/
theorem server_never_stuck {prog : Thread → List (Act Mutex Thread)}
    (hprog : ∀ t, prog t ∈ program t) {events : List Thread} {s : ThreadSystem Mutex Thread}
    (h : run (ThreadSystem.step prog) (ThreadSystem.start prog .main) events = some s) {t : Thread}
    (ht : s.Alive t) :
    ∃ u, Relation.ReflTransGen s.WaitsFor t u ∧ (ThreadSystem.step prog s u).isSome :=
  exists_waitsFor_free (fun t => ordered_program (hprog t))
    (fun l => show rank l ≤ 4 by cases l <;> decide)
    (fun t => show rankT t ≤ 4 by cases t <;> simp [rankT]) h ht

/-- A task is created and deleted, and a connection is lost. -/
def deleting : Thread → List (Act Mutex Thread)
  | .main => [.spawn .service, .spawn .sockProc]
  | .sockProc => [.lock .taskList, .unlock .taskList]
  | .service => [.lock .recvBuff, .unlock .recvBuff, .lock .taskList, .spawn (.coll 0),
      .unlock .taskList, .lock .recvBuff, .unlock .recvBuff, .lock .taskList, .join (.coll 0),
      .unlock .taskList]
  | .coll _ => [.lock .seq, .unlock .seq, .lock .sendBuff, .unlock .sendBuff]

/-- A round of `RunServiceProcess` for a request without a response. -/
theorem mem_runServiceProcess {w : List (Act Mutex Thread)} (hw : w ∈ processReqMsg) :
    [Act.lock .recvBuff, .unlock .recvBuff] ++ w ∈
      (1 + waitForMsg) * popFromBufferHead .recvBuff * (1 + processReqMsg) :=
  Language.append_mem_mul
    (Language.append_mem_mul (a := []) (.inl rfl) (mem_critical_one Mutex.recvBuff)) (.inr hw)

theorem deleting_mem (t : Thread) : deleting t ∈ program t := by
  cases t with
  | main => exact Language.append_mem_mul (a := [Act.spawn Thread.service]) rfl rfl
  | sockProc =>
    have hclean : deleting .sockProc ∈ deleteAllTaskByClient :=
      mem_critical (Language.nil_mem_kstar _)
    have hrecv : deleting .sockProc ∈ processRecvMsgFromClient := .inl (.inr hclean)
    have hidle : [] ∈ (1 + processSendMsgToClient) * (1 + acceptConnection) :=
      Language.append_mem_mul (a := []) (.inl rfl) (.inl rfl)
    exact mem_kstar_of_mem (Language.append_mem_mul (a := []) hidle (mem_kstar_of_mem hrecv))
  | service =>
    have hcreate : [Act.lock .taskList, .spawn (.coll 0), .unlock .taskList] ∈ createTask :=
      mem_critical (w := [Act.spawn (Thread.coll 0)])
        (.inr (.inr (Language.mem_iSup.mpr ⟨(0 : ℕ), rfl⟩)))
    have hdelete : [Act.lock .taskList, .join (.coll 0), .unlock .taskList] ∈ deleteTask :=
      mem_critical (w := [Act.join (Thread.coll 0)])
        (.inr (.inr (Language.mem_iSup.mpr ⟨(0 : ℕ), rfl⟩)))
    have hfirst := mem_runServiceProcess (.inl (.inl (Language.append_mem_mul hcreate (.inl rfl))))
    have hsecond := mem_runServiceProcess (.inl (.inr (Language.append_mem_mul hdelete (.inl rfl))))
    refine Language.join_mem_kstar
      (L := [(deleting .service).take 5, (deleting .service).drop 5]) fun w hw => ?_
    obtain rfl | hw := List.mem_cons.mp hw
    · exact hfirst
    · obtain rfl := List.mem_singleton.mp hw
      exact hsecond
  | coll n =>
    have hsend : deleting (.coll n) ∈ sendMetadataToClient :=
      .inr (Language.append_mem_mul (mem_critical_one Mutex.seq) (mem_critical_one Mutex.sendBuff))
    exact mem_kstar_of_mem (mem_kstar_of_mem hsend)

/-- The thread that cleans up waits for the one that deletes the task, and that one for the thread
of the task. -/
theorem server_never_stuck_deleting : ∃ s, run (ThreadSystem.step deleting)
      (ThreadSystem.start deleting .main) ([.main, .main] ++ List.replicate 8 .service) = some s ∧
    (ThreadSystem.step deleting s .sockProc).isNone ∧
      ∃ u, Relation.ReflTransGen s.WaitsFor .sockProc u ∧
        (ThreadSystem.step deleting s u).isSome :=
  have hrun : run (ThreadSystem.step deleting) (ThreadSystem.start deleting .main)
      ([.main, .main] ++ List.replicate 8 .service) = some _ := rfl
  ⟨_, hrun, rfl, server_never_stuck deleting_mem hrun ⟨_, _, rfl⟩⟩

end Server

/-! ## The library -/

namespace Library

inductive Mutex where
  /-- `g_seqLock` -/
  | seq
  /-- that of `g_sendBuff` -/
  | sendBuff
  /-- that of `g_recvBuff` -/
  | recvBuff
  /-- that of `g_waitList` -/
  | waitList
  /-- `waitMutex` of a node -/
  | node (k : ℕ)
  deriving DecidableEq

inductive Thread where
  /-- the thread of the process that registers it and unregisters it -/
  | main
  /-- another thread of the process -/
  | caller (n : ℕ)
  /-- `g_sockThread`, of one `PWR_Register` after the other -/
  | sock (n : ℕ)
  deriving DecidableEq

abbrev Program := Language (Act Mutex Thread)

/-- `CreateReqMsg`. -/
def createReqMsg : Program := 1 + critical .seq 1

def addToBufferTail (smb : Mutex) : Program := critical smb 1

def popFromBufferHead (smb : Mutex) : Program := critical smb 1

def resetPwrMsgBuffer (smb : Mutex) : Program := critical smb 1

def addToWaitingListTail : Program := critical .waitList 1

def findAndMoveWaitingMsg : Program := critical .waitList 1

def moveOutWaitingMsg : Program := critical .waitList 1

/-- `WaitingForResponse`: `pthread_cond_timedwait` gives the mutex back for as long as it waits. -/
def waitingForResponse (k : ℕ) : Program := critical (.node k) 1 * critical (.node k) 1

def doRspToWaitingMsg (k : ℕ) : Program := critical (.node k) 1

def releaseResultWaitingMsgNode (k : ℕ) : Program := critical (.node k) 1

def resetResultWaitingList : Program := critical .waitList (⨆ k, releaseResultWaitingMsgNode k)∗

/-- `SendMsgSyn`, with the node that it makes. -/
def sendMsgSyn (k : ℕ) : Program :=
  1 + addToBufferTail .sendBuff *
    (1 + addToWaitingListTail * waitingForResponse k * (1 + moveOutWaitingMsg) *
      releaseResultWaitingMsgNode k)

/-- `SendReqAndWaitForRsp`. -/
def sendReqAndWaitForRsp : Program := 1 + createReqMsg * (1 + ⨆ k, sendMsgSyn k)

/-- `FiniSockClient`: the thread is waited for if there is one. -/
def finiSockClient (sockThread : Option ℕ) : Program :=
  (sockThread.elim 1 fun n => {[.join (.sock n)]}) * resetPwrMsgBuffer .sendBuff *
    resetPwrMsgBuffer .recvBuff * resetResultWaitingList

/-- `ProcessRspMsg`. -/
def processRspMsg : Program := findAndMoveWaitingMsg * (1 + ⨆ k, doRspToWaitingMsg k)

/-- `RecvMsgFromSocket`, with the callback of the process. -/
def recvMsgFromSocket (callback : Program) : Program := 1 + processRspMsg + callback

/-- `SendMsgToSocket`. -/
def sendMsgToSocket : Program := (popFromBufferHead .sendBuff)∗

/-- `RunSocketProcess`: `CreateConnection` takes no lock. -/
def runSocketProcess (callback : Program) : Program :=
  ((1 + sendMsgToSocket) * (1 + recvMsgFromSocket callback))∗

/-- What the process does while it is registered: it sends requests and starts threads, and waits
for these in the end. -/
def registered : Program :=
  {w | ∃ u ∈ (sendReqAndWaitForRsp + ⨆ n, {[.spawn (.caller n)]} : Program)∗,
    ∃ v ∈ (⨆ n, {[.join (.caller n)]} : Program)∗, w = u ++ v ∧
      ∀ n, .spawn (.caller n) ∈ u → .join (.caller n) ∈ v}

/-- `PWR_Register`, which fails or starts the thread, and then all up to `PWR_UnRegister`. -/
def session (n : ℕ) : Program :=
  finiSockClient none + {[.spawn (.sock n)]} * registered * finiSockClient (some n)

def program (callback : Program) : Thread → Program
  | .main => (⨆ n, session n)∗
  | .caller _ => sendReqAndWaitForRsp∗
  | .sock _ => runSocketProcess callback

def rank : Mutex → ℕ
  | .node _ => 3
  | _ => 2

def rankT : Thread → ℕ
  | .main => 0
  | .caller _ => 1
  | .sock _ => 1

section Within

variable {r : ℕ}

theorem within_lock (l : Mutex) (hr : r ≤ 2) : Within rank rankT r (critical l 1) :=
  within_one.critical (hr.trans (by cases l <;> simp [rank]))

theorem within_sendReqAndWaitForRsp (hr : r ≤ 2) : Within rank rankT r sendReqAndWaitForRsp := by
  have hlock : ∀ l, Within rank rankT r (critical l 1) := fun l => within_lock l hr
  refine within_one.add ((within_one.add (hlock .seq)).mul (within_one.add (.iSup fun k => ?_)))
  have hwait : Within rank rankT r
      (addToWaitingListTail * waitingForResponse k * (1 + moveOutWaitingMsg)) :=
    ((hlock .waitList).mul ((hlock (.node k)).mul (hlock (.node k)))).mul
      (within_one.add (hlock .waitList))
  exact within_one.add ((hlock .sendBuff).mul (within_one.add (hwait.mul (hlock (.node k)))))

theorem within_resetResultWaitingList (hr : r ≤ 2) :
    Within rank rankT r resetResultWaitingList :=
  (Within.kstar (.iSup fun k => within_one.critical (le_refl (rank (.node k))))).critical hr

theorem within_finiSockClient (sockThread : Option ℕ) :
    Within rank rankT 1 (finiSockClient sockThread) :=
  have hjoin : Within rank rankT 1 (sockThread.elim 1 fun n => {[.join (.sock n)]}) := by
    cases sockThread with
    | none => exact within_one
    | some n => exact within_join (le_refl (rankT (.sock n)))
  ((hjoin.mul (within_lock .sendBuff (by decide))).mul (within_lock .recvBuff (by decide))).mul
    (within_resetResultWaitingList (by decide))

theorem within_registered : Within rank rankT 1 registered := by
  have hcalls : Within rank rankT 1 (sendReqAndWaitForRsp + ⨆ n, {[.spawn (.caller n)]}) :=
    (within_sendReqAndWaitForRsp (by decide)).add (.iSup fun _ => within_spawn _)
  have hjoins : Within rank rankT 1 (⨆ n, {[.join (.caller n)]}) :=
    .iSup fun n => within_join (le_refl (rankT (.caller n)))
  rintro w ⟨u, hu, v, hv, rfl, -⟩
  exact hcalls.kstar.mul hjoins.kstar _ (Language.append_mem_mul hu hv)

theorem within_session (n : ℕ) : Within rank rankT 1 (session n) :=
  (within_finiSockClient none).add
    (((within_spawn _).mul within_registered).mul (within_finiSockClient (some n)))

theorem within_runSocketProcess {callback : Program} (h : callback ≤ sendReqAndWaitForRsp∗) :
    Within rank rankT 2 (runSocketProcess callback) := by
  have hcallback : Within rank rankT 2 callback := fun w hw =>
    (within_sendReqAndWaitForRsp le_rfl).kstar w (h hw)
  have hrsp : Within rank rankT 2 processRspMsg :=
    (within_lock .waitList le_rfl).mul
      (within_one.add (.iSup fun k => within_lock (.node k) le_rfl))
  exact ((within_one.add (within_lock .sendBuff le_rfl).kstar).mul
    (within_one.add ((within_one.add hrsp).add hcallback))).kstar

end Within

theorem ordered_program {callback : Program} (h : callback ≤ sendReqAndWaitForRsp∗) {t : Thread}
    {w : List (Act Mutex Thread)} (hw : w ∈ program callback t) :
    Ordered rank rankT (rankT t) [] w := by
  cases t with
  | main => exact (Within.iSup within_session).kstar.ordered hw Nat.zero_lt_one
  | caller n => exact (within_sendReqAndWaitForRsp le_rfl).kstar.ordered hw Nat.one_lt_two
  | sock n => exact (within_runSocketProcess h).ordered hw Nat.one_lt_two

/-- **The library never gets stuck**, however many threads send requests while the process is
registered, and also where the callback calls functions that send a request themselves. -/
theorem library_never_stuck {callback : Program} (hcallback : callback ≤ sendReqAndWaitForRsp∗)
    {prog : Thread → List (Act Mutex Thread)} (hprog : ∀ t, prog t ∈ program callback t)
    {events : List Thread} {s : ThreadSystem Mutex Thread}
    (h : run (ThreadSystem.step prog) (ThreadSystem.start prog .main) events = some s)
    {t : Thread} (ht : s.Alive t) :
    ∃ u, Relation.ReflTransGen s.WaitsFor t u ∧ (ThreadSystem.step prog s u).isSome :=
  exists_waitsFor_free (fun t => ordered_program hcallback (hprog t))
    (fun l => show rank l ≤ 3 by cases l <;> simp [rank])
    (fun t => show rankT t ≤ 3 by cases t <;> simp [rankT]) h ht

/-- `PWR_Register`, and `PWR_UnRegister` before the queue is empty. -/
def leaving : Thread → List (Act Mutex Thread)
  | .main => [.spawn (.sock 0), .join (.sock 0), .lock .sendBuff, .unlock .sendBuff,
      .lock .recvBuff, .unlock .recvBuff, .lock .waitList, .unlock .waitList]
  | .caller _ => []
  | .sock _ => [.lock .sendBuff, .unlock .sendBuff]

theorem leaving_mem (t : Thread) : leaving t ∈ program sendReqAndWaitForRsp t := by
  cases t with
  | main =>
    have hlist : [Act.lock .waitList, .unlock .waitList] ∈ resetResultWaitingList :=
      mem_critical (Language.nil_mem_kstar _)
    have hjoin : [Act.join (.sock 0)] ∈ ({[.join (.sock 0)]} : Program) := rfl
    have hfini : (leaving .main).tail ∈ finiSockClient (some 0) :=
      Language.append_mem_mul (Language.append_mem_mul (Language.append_mem_mul hjoin
        (mem_critical_one Mutex.sendBuff)) (mem_critical_one Mutex.recvBuff)) hlist
    have hidle : [] ∈ registered :=
      ⟨[], Language.nil_mem_kstar _, [], Language.nil_mem_kstar _, rfl, fun n hn => by cases hn⟩
    have hspawn : [Act.spawn (.sock 0)] ∈ ({[.spawn (.sock 0)]} : Program) := rfl
    have hsession : leaving .main ∈ session 0 :=
      .inr (Language.append_mem_mul (Language.append_mem_mul hspawn hidle) hfini)
    exact mem_kstar_of_mem (Language.mem_iSup.mpr ⟨0, hsession⟩)
  | caller n => exact Language.nil_mem_kstar _
  | sock n =>
    have hsend : leaving (.sock n) ∈ sendMsgToSocket :=
      mem_kstar_of_mem (mem_critical_one Mutex.sendBuff)
    have hround : leaving (.sock n) ++ [] ∈
        (1 + sendMsgToSocket) * (1 + recvMsgFromSocket sendReqAndWaitForRsp) :=
      Language.append_mem_mul (.inr hsend) (.inl rfl)
    exact mem_kstar_of_mem hround

/-- `PWR_UnRegister` waits for the thread that sends. -/
theorem library_never_stuck_leaving : ∃ s, run (ThreadSystem.step leaving)
      (ThreadSystem.start leaving .main) [.main, .sock 0] = some s ∧
    (ThreadSystem.step leaving s .main).isNone ∧
      ∃ u, Relation.ReflTransGen s.WaitsFor .main u ∧
        (ThreadSystem.step leaving s u).isSome :=
  have hrun : run (ThreadSystem.step leaving) (ThreadSystem.start leaving .main)
      [.main, .sock 0] = some _ := rfl
  ⟨_, hrun, rfl, library_never_stuck le_kstar leaving_mem hrun ⟨_, _, rfl⟩⟩

end Library

end Locking

end PowerApi
