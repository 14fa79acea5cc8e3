import PowerApi.Peers
import PowerApi.ConfigItems
import PowerApi.Transition

/-!
# Where the daemon listens, and whether a client finds it (`config.c`, `server.c`, `sockclient.c`)

The daemon takes the path of its socket from the configuration if there is a file of that name, and
else listens at `pwrserver.sock`. It removes what stands at the path, and binds to as much of it as
a `struct sockaddr` has room for: the file that is removed need not be the one that is bound to,
and a socket file stays behind when the daemon ends, however it ends. A client connects to the path
it is told.

`meets_iff`: a client that is told the path of the configuration finds the daemon after every start
there is, however often that has been stopped or has died before, if and only if the 14 bytes that
are bound to name the same file, which is no directory, and the file is there at first or is the
one that the daemon turns to otherwise.
-/

namespace PowerApi

open Transition

/-- What stands at a place in the file system. -/
inductive FileNode where
  /-- a socket is bound to it, or was -/
  | socket
  | file
  | directory
  deriving DecidableEq

/-- The file system, and the place of the socket that the daemon listens to. -/
structure SocketHost (α : Type) where
  nodes : α → Option FileNode
  listening : Option α

/-- `sizeof(struct sockaddr)` without the family: what `bind` is given of `sun_path`. -/
def boundPathSize : ℕ := 14

/-- What the system calls in `StartUnxListen` and `ListenStart` answer. -/
structure ListenEnv where
  socketOk : Bool
  reuseOk : Bool
  listenOk : Bool

/-- No call fails for want of anything. -/
def ListenEnv.works : ListenEnv := ⟨true, true, true⟩

/-- `MAX_PATH_LEN`, the size of `SERVER_ADDR`. -/
def maxServerPath : ℕ := 128

/-- The path that `CreateConnection` connects to, of the one that `SetServerInfo` was given. -/
def connectPath (socketPath : Bytes) : Bytes :=
  (socketPath.take (maxServerPath - 1)).take (sunPathSize - 1)

theorem connectPath_eq {value : Bytes} (hlen : value.length < sunPathSize) :
    connectPath value = value := by
  rw [sunPathSize] at hlen
  rw [connectPath, sunPathSize, maxServerPath, List.take_of_length_le (l := value) (by omega),
    List.take_of_length_le (by omega)]

namespace SocketHost

/-- The daemon is started, or it comes to its end. -/
inductive Event where
  | start (env : ListenEnv)
  | stop

variable {α : Type} (resolve : Bytes → Option α) (value : Bytes)

/-- `access` finds something at a path. -/
def access (h : SocketHost α) (path : Bytes) : Bool := ((resolve path).bind h.nodes).isSome

/-- `sock_file` after the configuration with this value of it is loaded. -/
def sockFile (h : SocketHost α) : Bytes :=
  (updateServCfg (h.access resolve) .init .skf value).2.sockFile

variable {resolve value} in
theorem sockFile_eq {h : SocketHost α} (hlen : value.length < sunPathSize) :
    h.sockFile resolve value =
      if h.access resolve value then value else ServCfg.init.sockFile := by
  have htake : value.take (maxFileName - 1) = value :=
    List.take_of_length_le (by rw [sunPathSize] at hlen; rw [maxFileName]; omega)
  unfold sockFile updateServCfg
  cases h.access resolve value <;> simp [htake]

variable [DecidableEq α]

/-- `unlink`, which does nothing to a directory. -/
def unlink (h : SocketHost α) (path : Bytes) : SocketHost α :=
  match resolve path with
  | none => h
  | some f =>
    if h.nodes f = some .directory then h else { h with nodes := Function.update h.nodes f none }

/-- `ListenStart`, with the path in `sun_path`. -/
def listenStart (h : SocketHost α) (env : ListenEnv) (sunPath : Bytes) : RtnCode × SocketHost α :=
  if env.reuseOk = false then (.errSysException, h)
  else
    match resolve (sunPath.take boundPathSize) with
    | none => (.errSysException, h)
    | some f =>
      if h.nodes f ≠ none then (.errSysException, h)
      else
        let h := { h with nodes := Function.update h.nodes f (some .socket) }
        if env.listenOk = false then (.errSysException, h)
        else (.success, { h with listening := some f })

/-- `StartUnxListen`: `strcpy` does not ask how long the path is. -/
def startUnxListen (h : SocketHost α) (env : ListenEnv) (localFileName : Bytes) :
    Except Fault (RtnCode × SocketHost α) :=
  if sunPathSize ≤ localFileName.length then .error .overrun
  else
    let h := h.unlink resolve localFileName
    if env.socketOk = false then .ok (.errSysException, h)
    else .ok (h.listenStart resolve env localFileName)

/-- The start of the daemon, as far as its socket goes. -/
def startDaemon (h : SocketHost α) (env : ListenEnv) : Except Fault (RtnCode × SocketHost α) :=
  h.startUnxListen resolve env (h.sockFile resolve value)

/-- There is one daemon at a time. Its socket file stays when it ends. -/
def step (h : SocketHost α) : Event → Option (SocketHost α)
  | .start env =>
    if h.listening = none then (h.startDaemon resolve value env).toOption.map Prod.snd else none
  | .stop => some { h with listening := none }

/-- A client that connects to this path finds the daemon. -/
def Reaches (h : SocketHost α) (socketPath : Bytes) : Prop :=
  ∃ f, resolve (connectPath socketPath) = some f ∧ h.listening = some f

/-- The daemon can be started, and clients that are told the path of the configuration find it. -/
def Meets (h : SocketHost α) : Prop :=
  ∃ h', h.startDaemon resolve value .works = .ok (.success, h') ∧ h'.Reaches resolve value

/-- The system calls of the event work. -/
def Event.Works : Event → Prop
  | .start env => env = .works
  | .stop => True

section

variable {resolve value} {h h' : SocketHost α} {f : α}

theorem nodes_unlink {path : Bytes} (hf : resolve path = some f)
    (hdir : h.nodes f ≠ some .directory) : (h.unlink resolve path).nodes f = none := by
  simp [unlink, hf, hdir]

theorem nodes_unlink_directory {path : Bytes} (hf : resolve path = some f)
    (hdir : h.nodes f = some .directory) : (h.unlink resolve path).nodes f ≠ none := by
  simp [unlink, hf, hdir]

/-- With all calls at work a start depends on what stands at the file that is bound to. -/
theorem listenStart_success {path : Bytes} :
    h.listenStart resolve .works path = (.success, h') ↔
      ∃ f, resolve (path.take boundPathSize) = some f ∧ h.nodes f = none ∧
        h' = ⟨Function.update h.nodes f (some .socket), some f⟩ := by
  unfold listenStart
  cases hf : resolve (path.take boundPathSize) with
  | none => simp [ListenEnv.works]
  | some f =>
    by_cases hnode : h.nodes f = none
    · simp [ListenEnv.works, hnode, eq_comm]
    · simp [ListenEnv.works, hnode]

theorem startDaemon_success :
    h.startDaemon resolve value .works = .ok (.success, h') ↔
      (h.sockFile resolve value).length < sunPathSize ∧
        (h.unlink resolve (h.sockFile resolve value)).listenStart resolve .works
          (h.sockFile resolve value) = (.success, h') := by
  unfold startDaemon startUnxListen
  split
  · rename_i hlong
    exact iff_of_false nofun fun hshort => absurd hshort.1 (not_lt.mpr hlong)
  · rename_i hshort
    simp [ListenEnv.works, not_le.mp hshort]

/-- The file that clients connect to is the one that the daemon binds to, and if the daemon does not
find it, it is the one that it turns to. -/
structure Agrees (resolve : Bytes → Option α) (value : Bytes) (f : α) (h : SocketHost α) :
    Prop where
  connected : resolve value = some f
  bound : resolve (value.take boundPathSize) = some f
  no_directory : h.nodes f ≠ some .directory
  found : h.nodes f ≠ none ∨ resolve ServCfg.init.sockFile = some f

/-- A start then leaves a socket at that file, and nothing else changes. -/
theorem Agrees.startDaemon (ha : Agrees resolve value f h) (hlen : value.length < sunPathSize) :
    h.startDaemon resolve value .works =
      .ok (.success, ⟨Function.update h.nodes f (some .socket), some f⟩) := by
  obtain ⟨hconnected, hbound, hdir, hfound⟩ := ha
  have hdefault : ServCfg.init.sockFile.take boundPathSize = ServCfg.init.sockFile := by
    decide +kernel
  have hsock : resolve (h.sockFile resolve value) = some f ∧
      resolve ((h.sockFile resolve value).take boundPathSize) = some f ∧
        (h.sockFile resolve value).length < sunPathSize := by
    rw [sockFile_eq hlen]
    cases haccess : h.access resolve value with
    | true => exact ⟨hconnected, hbound, hlen⟩
    | false =>
      have hnone : h.nodes f = none := by simpa [access, hconnected] using haccess
      have hturn := hfound.resolve_left fun hne => hne hnone
      rw [if_neg Bool.false_ne_true, hdefault]
      exact ⟨hturn, hturn, by decide +kernel⟩
  obtain ⟨hfile, htaken, hshort⟩ := hsock
  refine startDaemon_success.mpr ⟨hshort, listenStart_success.mpr
    ⟨f, htaken, nodes_unlink hfile hdir, ?_⟩⟩
  simp [unlink, hfile, hdir]

theorem Agrees.step (ha : Agrees resolve value f h) (hlen : value.length < sunPathSize) {e : Event}
    (he : e.Works) (hs : h.step resolve value e = some h') : Agrees resolve value f h' := by
  cases e with
  | start env =>
    obtain rfl : env = .works := he
    rw [SocketHost.step] at hs
    split at hs
    · rw [ha.startDaemon hlen] at hs
      obtain rfl := Option.some.inj hs
      exact ⟨ha.connected, ha.bound, by simp, .inl (by simp)⟩
    · cases hs
  | stop =>
    obtain rfl := Option.some.inj hs
    exact ⟨ha.connected, ha.bound, ha.no_directory, ha.found⟩

theorem Agrees.meets (ha : Agrees resolve value f h) (hlen : value.length < sunPathSize) :
    h.Meets resolve value :=
  ⟨_, ha.startDaemon hlen, f, by rw [connectPath_eq hlen, ha.connected], rfl⟩

/-- A file that is found, and through which client and daemon meet, is the one they agree on. -/
theorem agrees_of_found (hlen : value.length < sunPathSize) (hf : resolve value = some f)
    (hfound : h.nodes f ≠ none) (hmeets : h.Meets resolve value) : Agrees resolve value f h := by
  obtain ⟨h', hstart, g, hg, hlistening⟩ := hmeets
  have haccess : h.access resolve value = true := by
    simpa [access, hf, Option.isSome_iff_ne_none] using hfound
  obtain ⟨-, hlisten⟩ := startDaemon_success.mp hstart
  rw [sockFile_eq hlen, if_pos haccess] at hlisten
  obtain ⟨g', hbound, hfree, rfl⟩ := listenStart_success.mp hlisten
  rw [connectPath_eq hlen, hf] at hg
  obtain rfl := Option.some.inj hg
  obtain rfl := Option.some.inj hlistening
  exact ⟨hf, hbound, fun hdir => nodes_unlink_directory hf hdir hfree, .inl hfound⟩

theorem run_start_stop (hnew : h.listening = none)
    (hstart : h.startDaemon resolve value .works = .ok (.success, h')) :
    run (step resolve value) h [.start .works, .stop] = some { h' with listening := none } := by
  simp [run_cons, step, hnew, hstart, Except.toOption]

/-- **Client and daemon meet** after every start, over every run of starts and ends of the daemon,
if and only if they agree on a file. -/
theorem meets_iff (hlen : value.length < sunPathSize) (hnew : h.listening = none) :
    (∀ events h', (∀ e ∈ events, e.Works) → run (step resolve value) h events = some h' →
        h'.listening = none → h'.Meets resolve value) ↔
      ∃ f, Agrees resolve value f h := by
  constructor
  · intro hall
    have hmeets := hall [] h (by simp) rfl hnew
    cases haccess : h.access resolve value with
    | true =>
      obtain ⟨f, hf, hfound⟩ : ∃ f, resolve value = some f ∧ h.nodes f ≠ none := by
        obtain ⟨node, hnode⟩ := Option.isSome_iff_exists.mp haccess
        obtain ⟨f, hf, hnode⟩ := Option.bind_eq_some_iff.mp hnode
        exact ⟨f, hf, by simp [hnode]⟩
      exact ⟨f, agrees_of_found hlen hf hfound hmeets⟩
    | false =>
      -- the daemon turns to its own path, and at the next start it finds what it left there
      obtain ⟨h', hstart, f, hf, hlistening⟩ := hmeets
      rw [connectPath_eq hlen] at hf
      have hnone : h.nodes f = none := by simpa [access, hf] using haccess
      obtain ⟨-, hlisten⟩ := startDaemon_success.mp hstart
      rw [sockFile_eq hlen, haccess, if_neg Bool.false_ne_true] at hlisten
      obtain ⟨g, hbound, -, rfl⟩ := listenStart_success.mp hlisten
      obtain rfl := Option.some.inj hlistening
      have hagain := agrees_of_found hlen hf (by simp)
        (hall _ _ (by simp [Event.Works]) (run_start_stop hnew hstart) rfl)
      have hdefault : ServCfg.init.sockFile.take boundPathSize = ServCfg.init.sockFile := by
        decide +kernel
      rw [hdefault] at hbound
      exact ⟨g, hf, hagain.bound, by simp [hnone], .inr hbound⟩
  · rintro ⟨f, ha⟩ events h' hworks hrun -
    have hkeeps : Agrees resolve value f h' :=
      run_invariant_on (fun ha he hs => ha.step hlen he hs) hworks ha hrun
    exact hkeeps.meets hlen

end

/-- A path of 13 bytes, and one that is shipped as the configured one: the 14 bytes of it that are
bound to are `/etc/sysconfig`. -/
def shortPath : Bytes := text "/run/pwr.sock"

def shippedPath : Bytes := text "/etc/sysconfig/pwrapis/pwrserver.sock"

/-- A file system in which there is a file at a path, and which knows files by their paths. -/
def withFile (path : Bytes) : SocketHost Bytes :=
  ⟨fun p => if p = path then some .file else none, none⟩

theorem meets_iff_paths :
    (∀ events h', (∀ e ∈ events, Event.Works e) →
        run (step some shortPath) (withFile shortPath) events = some h' →
          h'.listening = none → h'.Meets some shortPath) ∧
      ¬ ∀ events h', (∀ e ∈ events, Event.Works e) →
        run (step some shippedPath) (withFile shippedPath) events = some h' →
          h'.listening = none → h'.Meets some shippedPath := by
  constructor
  · refine (meets_iff (by decide +kernel) rfl).mpr ⟨shortPath, rfl, by decide +kernel, ?_, .inl ?_⟩
    · simp [withFile]
    · simp [withFile]
  · intro hall
    obtain ⟨f, hf, hbound, -⟩ := (meets_iff (by decide +kernel) rfl).mp hall
    obtain rfl := Option.some.inj hf
    exact absurd (Option.some.inj hbound) (by decide +kernel)

end SocketHost

end PowerApi
