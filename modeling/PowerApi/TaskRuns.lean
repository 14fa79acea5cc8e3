import PowerApi.TaskRegistry

/-!
# Sequences of task operations

The four operations that reach the registry (`CreateTask`, `DeleteTask`,
`DeleteAllTaskByClient`, `FiniAllTask`) as data, and their log: each executed
operation with the code it returned. The log is what the registry can be
compared with: who is subscribed to what can be read off it.
-/

namespace PowerApi

/-- A client's system id: 0 marks free subscriber slots. -/
abbrev ClientId := {s : UInt32 // s ≠ 0}

/-- One operation on the registry. -/
inductive TaskOp where
  | createTask (info : BasicDcTaskInfo) (s : ClientId) (env : CreateEnv)
  | deleteTask (dataType : UInt32) (s : ClientId)
  | deleteAllTaskByClient (s : ClientId)
  | finiAllTask

namespace TaskOp

/-- Execute the operation; the two that return `void` count as successful. -/
def exec (r : TaskReg) : TaskOp → RtnCode × TaskReg
  | createTask info s env => r.createTask info s.1 env
  | deleteTask dataType s => r.deleteTask dataType s.1
  | deleteAllTaskByClient s => (.success, r.deleteAllTaskByClient s.1)
  | finiAllTask => (.success, r.finiAllTask)

/-- Whether the operation with this result is about client `s` and type `ty`. A
failed create is about nothing. -/
def Concerns (s : ClientId) (ty : UInt32) : TaskOp × RtnCode → Prop
  | (createTask info s' _, ret) => ret = .success ∧ s' = s ∧ info.dataType = ty
  | (deleteTask dataType s', _) => s' = s ∧ dataType = ty
  | (deleteAllTaskByClient s', _) => s' = s
  | (finiAllTask, _) => True

instance (s : ClientId) (ty : UInt32) : DecidablePred (Concerns s ty)
  | (createTask _ _ _, _) => inferInstanceAs (Decidable (_ ∧ _ ∧ _))
  | (deleteTask _ _, _) => inferInstanceAs (Decidable (_ ∧ _))
  | (deleteAllTaskByClient _, _) => inferInstanceAs (Decidable (_ = _))
  | (finiAllTask, _) => inferInstanceAs (Decidable True)

def IsCreate : TaskOp → Prop
  | createTask .. => True
  | _ => False

end TaskOp

/-- The registry and the operations it has executed, the newest first. -/
structure TaskLog where
  reg : TaskReg
  log : List (TaskOp × RtnCode)

namespace TaskLog

/-- After `InitTaskService`. -/
def start : TaskLog := ⟨TaskReg.empty.initTaskService, []⟩

def step (st : TaskLog) (op : TaskOp) : TaskLog :=
  let (ret, reg) := op.exec st.reg
  ⟨reg, (op, ret) :: st.log⟩

def run (ops : List TaskOp) : TaskLog := ops.foldl step start

/-- The last operation about this client and this type. -/
def lastOn (st : TaskLog) (s : ClientId) (ty : UInt32) : Option TaskOp :=
  (st.log.find? fun e => decide (TaskOp.Concerns s ty e)).map Prod.fst

/-- The subscriptions are those that the log tells. -/
structure Inv (st : TaskLog) : Prop where
  wf : st.reg.WF
  subscribed : ∀ (s : ClientId) ty,
    st.reg.Subscribed s.1 ty ↔ ∃ op, st.lastOn s ty = some op ∧ op.IsCreate

end TaskLog

open TaskReg

theorem TaskOp.wf_exec {r : TaskReg} (hwf : r.WF) (op : TaskOp) : (op.exec r).2.WF := by
  cases op with
  | createTask info s env => exact hwf.createTask info s.2 env
  | deleteTask ty s => exact hwf.deleteTask ty s.2
  | deleteAllTaskByClient s => exact hwf.deleteAllTaskByClient s.2
  | finiAllTask => exact hwf.finiAllTask

/-- An operation that returns an error leaves the registry unchanged. -/
theorem TaskOp.exec_of_error {r : TaskReg} {op : TaskOp} (h : (op.exec r).1 ≠ .success) :
    (op.exec r).2 = r := by
  cases op with
  | createTask info s env => exact createTask_of_error h
  | deleteTask ty s =>
    revert h
    dsimp only [exec]
    unfold TaskReg.deleteTask
    split
    · exact fun h => absurd rfl h
    · exact fun h => absurd rfl h
  | deleteAllTaskByClient s => exact absurd rfl h
  | finiAllTask => exact absurd rfl h

/-- An operation that is about a client and a type decides whether the client is
subscribed to it ... -/
theorem TaskOp.subscribed_exec {r : TaskReg} (hwf : r.WF) {op : TaskOp} {s : ClientId}
    {ty : UInt32} (h : Concerns s ty (op, (op.exec r).1)) :
    (op.exec r).2.Subscribed s.1 ty ↔ op.IsCreate := by
  cases op with
  | createTask info s' env =>
    obtain ⟨hret, rfl, rfl⟩ := h
    obtain ⟨sub, hid, -, hsub⟩ := hasSub_createTask_self hwf s'.2 hret
    exact iff_of_true ⟨sub, hid, hsub⟩ trivial
  | deleteTask ty' s' =>
    obtain ⟨rfl, rfl⟩ := h
    refine iff_of_false ?_ id
    rintro ⟨sub, hid, hsub⟩
    exact ((hasSub_deleteTask hwf s'.2).mp hsub).2 ⟨rfl, hid⟩
  | deleteAllTaskByClient s' =>
    obtain rfl : s' = s := h
    refine iff_of_false ?_ id
    rintro ⟨sub, hid, hsub⟩
    exact ((hasSub_deleteAllTaskByClient hwf s'.2).mp hsub).2 hid
  | finiAllTask =>
    refine iff_of_false ?_ id
    rintro ⟨sub, -, hsub⟩
    exact not_hasSub_finiAllTask hsub

/-- ... and one that is not leaves it as it was. -/
theorem TaskOp.subscribed_exec_other {r : TaskReg} (hwf : r.WF) {op : TaskOp} {s : ClientId}
    {ty : UInt32} (h : ¬ Concerns s ty (op, (op.exec r).1)) :
    (op.exec r).2.Subscribed s.1 ty ↔ r.Subscribed s.1 ty := by
  cases op with
  | createTask info s' env =>
    by_cases hret : (r.createTask info s'.1 env).1 = .success
    · refine exists_congr fun sub => and_congr_right fun hid => ?_
      refine hasSub_createTask_other hwf s'.2 ?_
      rintro ⟨hty, hid'⟩
      exact h ⟨hret, Subtype.ext (hid'.symm.trans hid), hty.symm⟩
    · dsimp only [exec]
      rw [createTask_of_error hret]
  | deleteTask ty' s' =>
    refine exists_congr fun sub => and_congr_right fun hid => ?_
    refine (hasSub_deleteTask hwf s'.2).trans (and_iff_left ?_)
    rintro ⟨hty, hid'⟩
    exact h ⟨Subtype.ext (hid'.symm.trans hid), hty.symm⟩
  | deleteAllTaskByClient s' =>
    refine exists_congr fun sub => and_congr_right fun hid => ?_
    refine (hasSub_deleteAllTaskByClient hwf s'.2).trans (and_iff_left ?_)
    exact fun hid' => h (Subtype.ext (hid'.symm.trans hid))
  | finiAllTask => exact absurd trivial h

namespace TaskLog

theorem Inv.step {st : TaskLog} (h : st.Inv) (op : TaskOp) : (st.step op).Inv where
  wf := op.wf_exec h.wf
  subscribed s ty := by
    have hlast : (st.step op).lastOn s ty =
        if TaskOp.Concerns s ty (op, (op.exec st.reg).1) then some op else st.lastOn s ty := by
      dsimp only [lastOn, TaskLog.step]
      rw [List.find?_cons]
      by_cases hc : TaskOp.Concerns s ty (op, (op.exec st.reg).1)
      · simp [hc]
      · simp [hc]
    rw [hlast]
    split
    · rename_i hc
      refine (op.subscribed_exec h.wf hc).trans ?_
      simp
    · rename_i hc
      exact (op.subscribed_exec_other h.wf hc).trans (h.subscribed s ty)

theorem inv_start : start.Inv where
  wf := wf_empty.initTaskService
  subscribed s ty := by
    refine iff_of_false ?_ (by simp [lastOn, start])
    rintro ⟨sub, -, hsub⟩
    exact not_hasSub_empty hsub

theorem inv_run (ops : List TaskOp) : (run ops).Inv :=
  List.foldlRecOn ops _ inv_start fun _ h op _ => h.step op

end TaskLog

/-- The task registry after any sequence of operations: its encodings agree, a
client is subscribed to a type exactly when the last operation about both was
its successful create, and an operation that returns an error changes nothing. -/
theorem task_registry_runs (ops : List TaskOp) :
    (TaskLog.run ops).reg.WF ∧
      (∀ (s : ClientId) ty, (TaskLog.run ops).reg.Subscribed s.1 ty ↔
        ∃ op, (TaskLog.run ops).lastOn s ty = some op ∧ op.IsCreate) ∧
      ∀ op, (TaskOp.exec (TaskLog.run ops).reg op).1 ≠ .success →
        (TaskOp.exec (TaskLog.run ops).reg op).2 = (TaskLog.run ops).reg :=
  ⟨(TaskLog.inv_run ops).wf, (TaskLog.inv_run ops).subscribed, fun _ => TaskOp.exec_of_error⟩

end PowerApi
