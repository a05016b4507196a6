import NvmeSnsd.Lib.Mutex
import NvmeSnsd.ConnPeon.Sched

/-! Where the functions of the scheduler take `peon_list_lock` and give it back. The
bodies in between are those of the scheduler's steps. -/
namespace NvmeSnsd.ConnPeon.Calls
open Lib Lib.Locked

def ENOMEM : ℤ := 12
def EINVAL : ℤ := 22

/-- What the allocator and the kernel answer a call of `peon_task_add`. -/
structure Answers where
  task : Bool
  ctx : Bool
  peon : Bool
  thread : Bool
  deriving DecidableEq

def setPeon (s : Sched) (ref : PeonRef) (p : Peon) : Sched :=
  { s with peon := Function.update s.peon ref p }

/-- `calloc` and the list heads in `peon_construct`. -/
def freshPeon (s : Sched) (ref : PeonRef) : Sched :=
  setPeon (s.setList (Function.update (Function.update s.list (.wait ref) []) (.proc ref) [])) ref
    ⟨0, 0, 0⟩

/-- The thread of a worker is there. -/
def startWorker (s : Sched) (ref : PeonRef) (i : ℕ) : Sched :=
  setPeon (s.setWorker ref i .idle) ref
    { s.peon ref with workerNum := (s.peon ref).workerNum+1 }

/-- `peon_deconstruct`: the workers are told to stop and joined first. To join a thread
that was never made is undefined; here that call returns. -/
def peonDeconstruct (ref : PeonRef) (others : Sched → Sched) : Locked Sched Unit := do
  lock others
  change fun s => (s.setList (Function.update s.list (.wait ref) [])).emit
    ((s.list (.wait ref)).map .freed)
  unlock

/-- The loop of `peon_construct`. -/
def constructWorkers (ref : PeonRef) (threads : ℕ → Bool) (others : Sched → Sched) :
    List ℕ → Locked Sched Bool
  | [] => pure true
  | i :: is =>
    if threads i then do
      change fun s => startWorker s ref i
      constructWorkers ref threads others is
    else do
      peonDeconstruct ref others
      return false

/-- `peon_construct`; without a routine no thread is made. -/
def peonConstruct (ref : PeonRef) (num : ℕ) (threads : Option (ℕ → Bool)) (alloc : Bool)
    (others : Sched → Sched) : Locked Sched Bool :=
  if alloc then do
    change fun s => freshPeon s ref
    match threads with
    | none => return true
    | some threads => constructWorkers ref threads others (List.range num)
  else pure false

def peonDynCreate (task : Task) (a : Answers) (others : Sched → Sched) : Locked Sched Bool := do
  let s ← look
  let ref := PeonRef.dyn s.nextDyn
  if ← peonConstruct ref peonDynDisconnWorkerNum none a.peon others then
    change fun s => setPeon (s.addTail (.wait ref) task) ref
      ⟨s.cfgRestrainTime, peonDynDisconnWorkerNum, 1⟩
    if a.thread then
      change fun s => { s.setWorker ref 0 .idle with nextDyn := s.nextDyn+1 }
      return true
    else
      change fun s => s.del (.wait ref) task.id
      peonDeconstruct ref others
      return false
  else return false

/-- The first half under the lock: a peon of its own for the task, if the static one has no
worker for it. -/
def tryDynamic (type : PeonType) (task : Task) (a : Answers) (others : Sched → Sched) (s : Sched) :
    Locked Sched Bool :=
  if DynWanted s (.static type) then peonDynCreate task a others else pure false

/-- The queue of the static peon. -/
def queued (s : Sched) (type : PeonType) (task : Task) : Sched :=
  (s.addTail (.wait (.static type)) task).count (.static type) 1

/-- `peon_task_add` on `task`, as it is filled. -/
def peonTaskAdd (type : PeonType) (task : Task) (a : Answers) (others : Sched → Sched) :
    Locked Sched ℤ :=
  if a.task = false then pure (-ENOMEM)
  else if task.toolbox.ctxInit && !a.ctx then pure (-EINVAL)
  else do
    lock others
    let s ← look
    let dynamicPeon ← tryDynamic type task a others s
    change fun s => if dynamicPeon then { s with dynWorkerNum := s.dynWorkerNum+1 }
      else queued s type task
    unlock
    return 0

/-- The loop of `peon_task_get` over what was waiting; `clock` is read for each task. -/
def getLoop (ref : PeonRef) (i : ℕ) (clock : ℕ → ℕ) : List ℕ → Sched → Sched
  | [], s => s.setHolder .free
  | id :: rest, s =>
    match findTask (s.list (.wait ref)) id with
    | none => getLoop ref i clock rest s
    | some p =>
      let t := peonTaskGetOne s ref i rest p (clock id)
      if t.worker (ref, i) = .running p.id then t else getLoop ref i clock rest t

def peonTaskGet (ref : PeonRef) (i : ℕ) (clock : ℕ → ℕ) (others : Sched → Sched) :
    Locked Sched (Option Task) := do
  lock others
  change fun s => getLoop ref i clock ((s.list (.wait ref)).map (·.id)) s
  let s ← look
  unlock
  match s.worker (ref, i) with
  | .running id => return findTask (s.list (.proc ref)) id
  | _ => return none

def peonTaskComplete (ref : PeonRef) (id : ℕ) (result : ℤ) (now : ℕ) (others : Sched → Sched) :
    Locked Sched Unit := do
  lock others
  change fun s => match findTask (s.list (.proc ref)) id with
    | some p => ConnPeon.peonTaskComplete s ref p result now
    | none => s
  unlock

/-- What one round of a worker meets: the clock, the result of the handler, and what other
threads do whenever they may. -/
structure Round where
  clock : ℕ → ℕ
  ret : ℤ
  now : ℕ
  others : ℕ → Sched → Sched

def peonTaskProc (ref : PeonRef) (i : ℕ) (r : Round) : Locked Sched Unit := do
  match ← peonTaskGet ref i r.clock (r.others 0) with
  | none => return ()
  | some task =>
    -- a handler adds tasks, so it must not be called with the lock
    outside (r.others 1)
    peonTaskComplete ref task.id (if task.toolbox.handle then r.ret else 0) r.now (r.others 2)

/-- The loop of `peon_run_recheck`. -/
def recheckLoop (answer : ℕ → ℤ) (clock : ℕ → ℕ) : List ℕ → Sched → Sched
  | [], s => s.setHolder .free
  | id :: rest, s =>
    match findTask (s.list (.wait (.static .recheck))) id with
    | none => recheckLoop answer clock rest s
    | some p => recheckLoop answer clock rest (peonRunRecheckOne s rest p (answer id) (clock id))

/-- The functions that it calls under the lock read sysfs and the context of the task. -/
def peonRunRecheck (answer : ℕ → ℤ) (clock : ℕ → ℕ) (others : Sched → Sched) :
    Locked Sched Unit := do
  lock others
  change fun s => recheckLoop answer clock ((s.list (.wait (.static .recheck))).map (·.id)) s
  unlock

def PEON_WORKER_PERIOD_NORMAL : ℕ := 10
def PEON_WORKER_PERIOD_FAST : ℕ := 1
def PEON_RECHECK_WORKER_PERIOD : ℕ := 60

def peonWorkerAdjustPeriod (ref : PeonRef) (others : Sched → Sched) : Locked Sched ℕ := do
  lock others
  let s ← look
  unlock
  if ref.type = .recheck then return PEON_RECHECK_WORKER_PERIOD
  else if (s.list (.wait ref)).isEmpty then return PEON_WORKER_PERIOD_NORMAL
  else return PEON_WORKER_PERIOD_FAST

/-- The rounds of `peon_worker_thread` until it is told to stop. -/
def peonWorkerThread (type : PeonType) (i : ℕ) (rounds : List Round) : Locked Sched Unit :=
  rounds.forM fun r => do
    if type = .recheck then peonRunRecheck (fun _ => r.ret) r.clock (r.others 0)
    else peonTaskProc (.static type) i r
    let _ ← peonWorkerAdjustPeriod (.static type) (r.others 3)

def peonDynamicDisconnThread (k : ℕ) (r : Round) : Locked Sched Unit := do
  peonTaskProc (.dyn k) 0 r
  peonDeconstruct (.dyn k) (r.others 3)
  lock (r.others 4)
  change fun s => { s with dynWorkerNum := s.dynWorkerNum-1 }
  unlock

def peonExitInner (types : List PeonType) (others : Sched → Sched) : Locked Sched Unit :=
  types.forM fun type => peonDeconstruct (.static type) others

def peonWorkerNum : PeonType → ℕ
  | .connect => peonConnectWorkerNum
  | .disconn => peonDisconnWorkerNum
  | .dcbatch => peonDcbatchWorkerNum
  | .recheck => peonRecheckWorkerNum

/-- The loop of `peon_init`, with the peons that are there. -/
def initPeons (alloc : PeonType → Bool) (threads : PeonType → ℕ → Bool) (others : Sched → Sched) :
    List PeonType → List PeonType → Locked Sched ℤ
  | _, [] => pure 0
  | done, type :: types => do
    if ← peonConstruct (.static type) (peonWorkerNum type) (some (threads type)) (alloc type) others then
      initPeons alloc threads others (done ++ [type]) types
    else
      peonExitInner done others
      return -ENOMEM

/-- A call into the scheduler, or one of its threads, with all that it is answered. -/
inductive Operation
  | add (type : PeonType) (task : Task) (a : Answers) (others : Sched → Sched)
  | proc (ref : PeonRef) (i : ℕ) (r : Round)
  | recheck (answer : ℕ → ℤ) (clock : ℕ → ℕ) (others : Sched → Sched)
  | period (ref : PeonRef) (others : Sched → Sched)
  | worker (type : PeonType) (i : ℕ) (rounds : List Round)
  | dynamic (k : ℕ) (r : Round)
  | construct (ref : PeonRef) (num : ℕ) (threads : Option (ℕ → Bool)) (alloc : Bool)
    (others : Sched → Sched)
  | deconstruct (ref : PeonRef) (others : Sched → Sched)
  | init (alloc : PeonType → Bool) (threads : PeonType → ℕ → Bool) (others : Sched → Sched)
  | exit (others : Sched → Sched)

/-- The four peons in their order. -/
def peonTypes : List PeonType := [.connect, .disconn, .dcbatch, .recheck]

def Operation.run : Operation → Locked Sched Unit
  | add type task a others => do let _ ← peonTaskAdd type task a others
  | proc ref i r => peonTaskProc ref i r
  | recheck answer clock others => peonRunRecheck answer clock others
  | period ref others => do let _ ← peonWorkerAdjustPeriod ref others
  | worker type i rounds => peonWorkerThread type i rounds
  | dynamic k r => peonDynamicDisconnThread k r
  | construct ref num threads alloc others => do
    let _ ← peonConstruct ref num threads alloc others
  | deconstruct ref others => peonDeconstruct ref others
  | init alloc threads others => do let _ ← initPeons alloc threads others [] peonTypes
  | exit others => peonExitInner peonTypes others

/-! Every function but `peon_task_add` comes back without the lock. -/

section Moves
variable {ref : PeonRef} {others : Sched → Sched}

theorem moves_deconstruct : Moves false false (peonDeconstruct ref others) :=
  (moves_lock others).bind fun _ => (moves_change _).bind fun _ => moves_unlock

theorem moves_constructWorkers (threads : ℕ → Bool) (is : List ℕ) :
    Moves false false (constructWorkers ref threads others is) := by
  induction is with
  | nil => exact moves_pure true
  | cons i is ih =>
    rw [constructWorkers]
    split
    · exact (moves_change _).bind fun _ => ih
    · exact moves_deconstruct.bind fun _ => moves_pure false

theorem moves_construct (num : ℕ) (threads : Option (ℕ → Bool)) (alloc : Bool) :
    Moves false false (peonConstruct ref num threads alloc others) := by
  cases alloc with
  | false => exact moves_pure false
  | true =>
    apply (moves_change _).bind
    intro _
    cases threads with
    | none => exact moves_pure true
    | some threads => exact moves_constructWorkers threads _

theorem moves_get (i : ℕ) (clock : ℕ → ℕ) :
    Moves false false (peonTaskGet ref i clock others) := by
  apply (moves_lock others).bind
  intro _
  apply (moves_change _).bind
  intro _
  apply moves_look.bind
  intro s
  apply moves_unlock.bind
  intro _
  split
  · exact moves_pure _
  · exact moves_pure _

theorem moves_complete (id : ℕ) (result : ℤ) (now : ℕ) :
    Moves false false (peonTaskComplete ref id result now others) :=
  (moves_lock others).bind fun _ => (moves_change _).bind fun _ => moves_unlock

theorem moves_proc (i : ℕ) (r : Round) : Moves false false (peonTaskProc ref i r) := by
  apply (moves_get i r.clock).bind
  intro task
  cases task with
  | none => exact moves_pure ()
  | some task => exact (moves_outside _).bind fun _ => moves_complete _ _ _

theorem moves_recheck (answer : ℕ → ℤ) (clock : ℕ → ℕ) :
    Moves false false (peonRunRecheck answer clock others) :=
  (moves_lock others).bind fun _ => (moves_change _).bind fun _ => moves_unlock

theorem moves_period : Moves false false (peonWorkerAdjustPeriod ref others) := by
  apply (moves_lock others).bind
  intro _
  apply moves_look.bind
  intro s
  apply moves_unlock.bind
  intro _
  split_ifs <;> exact moves_pure _

theorem moves_worker (type : PeonType) (i : ℕ) (rounds : List Round) :
    Moves false false (peonWorkerThread type i rounds) := by
  apply moves_forM
  intro r
  have hperiod : Moves false false (do
      let _ ← peonWorkerAdjustPeriod (.static type) (r.others 3) : Locked Sched Unit) :=
    moves_period.bind fun _ => moves_pure ()
  by_cases htype : type = .recheck
  · simp only [htype, if_true]
    rw [htype] at hperiod
    exact (moves_recheck _ _).bind fun _ => hperiod
  · simp only [htype, if_false]
    exact (moves_proc i r).bind fun _ => hperiod

theorem moves_dynamic (k : ℕ) (r : Round) : Moves false false (peonDynamicDisconnThread k r) := by
  apply (moves_proc 0 r).bind
  intro _
  apply moves_deconstruct.bind
  intro _
  exact (moves_lock _).bind fun _ => (moves_change _).bind fun _ => moves_unlock

theorem moves_exitInner (types : List PeonType) :
    Moves false false (peonExitInner types others) :=
  moves_forM (fun _ => moves_deconstruct) types

theorem moves_initPeons (alloc : PeonType → Bool) (threads : PeonType → ℕ → Bool)
    (done types : List PeonType) :
    Moves false false (initPeons alloc threads others done types) := by
  induction types generalizing done with
  | nil => exact moves_pure 0
  | cons type types ih =>
    apply (moves_construct _ _ _).bind
    intro made
    cases made with
    | true => exact ih (done ++ [type])
    | false => exact (moves_exitInner done).bind fun _ => moves_pure _

end Moves

/-! `peon_task_add`, by what it is answered. -/

/-- A task with its context wants a peon of its own. -/
def WantsPeon (type : PeonType) (task : Task) (a : Answers) (s : Sched) : Prop :=
  a.task = true ∧ (task.toolbox.ctxInit = true → a.ctx = true) ∧ DynWanted s (.static type)

section Add
variable {type : PeonType} {task : Task} {a : Answers} {others : Sched → Sched} {s : Sched}

theorem dynCreate_noPeon (hp : a.peon = false) :
    peonDynCreate task a others (true, s) = .ok (false, true, s) := by
  simp only [peonDynCreate, hp]
  rfl

theorem dynCreate_noThread (hp : a.peon = true) (ht : a.thread = false) :
    peonDynCreate task a others (true, s) = .error .relock := by
  simp only [peonDynCreate, hp, ht]
  rfl

/-- The new peon with its worker. -/
def withDynamic (s : Sched) (task : Task) : Sched :=
  let ref := PeonRef.dyn s.nextDyn
  let t := setPeon ((freshPeon s ref).addTail (.wait ref) task) ref
    ⟨s.cfgRestrainTime, peonDynDisconnWorkerNum, 1⟩
  { t.setWorker ref 0 .idle with nextDyn := s.nextDyn+1 }

theorem dynCreate_ok (hp : a.peon = true) (ht : a.thread = true) :
    peonDynCreate task a others (true, s) = .ok (true, true, withDynamic s task) := by
  simp only [peonDynCreate, hp, ht]
  rfl

/-- The call with its task filled, from the lock on. -/
theorem add_filled (htask : a.task = true) (hctx : task.toolbox.ctxInit = true → a.ctx = true) :
    peonTaskAdd type task a others (false, s) = (do
      let dynamicPeon ← tryDynamic type task a others (others s)
      change fun s => if dynamicPeon then { s with dynWorkerNum := s.dynWorkerNum+1 }
        else queued s type task
      unlock
      return 0 : Locked Sched ℤ) (true, others s) := by
  have hnot : ¬(task.toolbox.ctxInit && !a.ctx) = true := by
    rw [Bool.and_eq_true, not_and]
    intro h
    rw [hctx h]
    decide
  rw [peonTaskAdd, if_neg (by rw [htask]; decide), if_neg hnot]
  rfl

theorem add_rejected (h : ¬(a.task = true ∧ (task.toolbox.ctxInit = true → a.ctx = true))) :
    ∃ err, peonTaskAdd type task a others (false, s) = .ok (err, false, s) := by
  rw [peonTaskAdd]
  by_cases htask : a.task = false
  · rw [if_pos htask]
    exact ⟨_, rfl⟩
  · have hctx : (task.toolbox.ctxInit && !a.ctx) = true := by
      rw [Bool.not_eq_false] at htask
      have hnot : ¬(task.toolbox.ctxInit = true → a.ctx = true) := fun hc => h ⟨htask, hc⟩
      obtain ⟨hinit, hno⟩ := Classical.not_imp.mp hnot
      rw [hinit, Bool.not_eq_true _ |>.mp hno]
      rfl
    rw [if_neg htask, if_pos hctx]
    exact ⟨_, rfl⟩

/-- Without a peon of its own the task is with the static one. -/
theorem add_queued (htask : a.task = true) (hctx : task.toolbox.ctxInit = true → a.ctx = true)
    (h : DynWanted (others s) (.static type) → a.peon = false) :
    peonTaskAdd type task a others (false, s) = .ok (0, false, queued (others s) type task) := by
  have hnone : tryDynamic type task a others (others s) (true, others s) =
      .ok (false, true, others s) := by
    rw [tryDynamic]
    split_ifs with hwanted
    · exact dynCreate_noPeon (h hwanted)
    · rfl
  rw [add_filled htask hctx, bind_ok hnone]
  rfl

theorem add_dynamic (h : WantsPeon type task a (others s)) (hp : a.peon = true)
    (ht : a.thread = true) :
    peonTaskAdd type task a others (false, s) = .ok (0, false,
      { withDynamic (others s) task with dynWorkerNum := (others s).dynWorkerNum+1 }) := by
  obtain ⟨htask, hctx, hwanted⟩ := h
  have hmade : tryDynamic type task a others (others s) (true, others s) =
      .ok (true, true, withDynamic (others s) task) := by
    rw [tryDynamic, if_pos hwanted]
    exact dynCreate_ok hp ht
  rw [add_filled htask hctx, bind_ok hmade]
  rfl

/-- The peon is taken down under the lock that this takes. -/
theorem add_relock (h : WantsPeon type task a (others s)) (hp : a.peon = true)
    (ht : a.thread = false) :
    peonTaskAdd type task a others (false, s) = .error .relock := by
  obtain ⟨htask, hctx, hwanted⟩ := h
  have hfault : tryDynamic type task a others (others s) (true, others s) = .error .relock := by
    rw [tryDynamic, if_pos hwanted]
    exact dynCreate_noThread hp ht
  rw [add_filled htask hctx, bind_error hfault]

/-! It is the step of the scheduler, where the task leaves the list of filled ones. -/

def Answers.create (a : Answers) : DynCreate :=
  if a.peon then if a.thread then .ok else .noThread else .noPeon

/-- A peon of which there is nothing yet. -/
theorem freshPeon_new {f : Sched} {ref : PeonRef} {id : ℕ} (hwait : f.list (.wait ref) = [])
    (hproc : f.list (.proc ref) = []) :
    freshPeon (f.del .pending id) ref = setPeon (f.del .pending id) ref ⟨0, 0, 0⟩ := by
  have hlist : Function.update (Function.update (f.del .pending id).list (.wait ref) [])
      (.proc ref) [] = (f.del .pending id).list := by
    have hdel : ∀ r, r ≠ .pending → (f.del .pending id).list r = f.list r :=
      fun r hr => Function.update_of_ne hr _ _
    rw [Function.update_eq_self_iff.mpr, Function.update_eq_self_iff.mpr]
    · rw [hdel _ (by simp), hwait]
    · rw [Function.update_of_ne (by simp), hdel _ (by simp), hproc]
  rw [freshPeon, hlist]
  rfl

/-- The step that adds the task, and its call. -/
theorem add_step (htask : a.task = true) (hctx : task.toolbox.ctxInit = true → a.ctx = true)
    {f : Sched} (hothers : others s = f.del .pending task.id)
    (hwait : f.list (.wait (.dyn f.nextDyn)) = []) (hproc : f.list (.proc (.dyn f.nextDyn)) = []) :
    (∃ t, peonTaskAdd type task a others (false, s) = .ok (0, false, t) ∧
      peonTaskAddLocked f (.static type) task a.create = t.emit [.added task]) ∨
    (peonTaskAdd type task a others (false, s) = .error .relock ∧
      (peonTaskAddLocked f (.static type) task a.create).holder = .stuck) := by
  have hsame : DynWanted (others s) (.static type) ↔ DynWanted f (.static type) := by
    rw [hothers]
    exact Iff.rfl
  by_cases hwanted : DynWanted f (.static type)
  · have hw : WantsPeon type task a (others s) := ⟨htask, hctx, hsame.mpr hwanted⟩
    cases hp : a.peon with
    | false =>
      have hcreate : a.create = .noPeon := by
        rw [Answers.create, hp]
        rfl
      refine Or.inl ⟨_, add_queued htask hctx fun _ => hp, ?_⟩
      rw [hcreate, hothers]
      exact if_pos hwanted
    | true =>
      cases ht : a.thread with
      | false =>
        have hcreate : a.create = .noThread := by
          rw [Answers.create, hp, ht]
          rfl
        refine Or.inr ⟨add_relock hw hp ht, ?_⟩
        rw [hcreate]
        exact congrArg Sched.holder (if_pos hwanted)
      | true =>
        have hcreate : a.create = .ok := by
          rw [Answers.create, hp, ht]
          rfl
        refine Or.inl ⟨_, add_dynamic hw hp ht, ?_⟩
        have hfresh : freshPeon (f.del .pending task.id) (.dyn f.nextDyn) =
            setPeon (f.del .pending task.id) (.dyn f.nextDyn) ⟨0, 0, 0⟩ :=
          freshPeon_new hwait hproc
        have hmade : withDynamic (f.del .pending task.id) task =
            { ConnPeon.peonDynCreate (f.del .pending task.id) task with
              dynWorkerNum := f.dynWorkerNum } := by
          unfold withDynamic
          dsimp only
          rw [show (f.del .pending task.id).nextDyn = f.nextDyn from rfl, hfresh]
          simp only [setPeon, Sched.addTail, Sched.setWorker, Function.update_idem]
          rfl
        rw [hcreate, hothers, hmade]
        exact if_pos hwanted
  · refine Or.inl ⟨_, add_queued htask hctx fun h => absurd (hsame.mp h) hwanted, ?_⟩
    rw [hothers]
    exact if_neg hwanted

end Add

/-! What is asked of an operation. -/

/-- It takes the lock only without having it, and gives it back. -/
def Returns (op : Operation) (s : Sched) : Prop := ∃ s', op.run (false, s) = .ok ((), false, s')

/-- The task is in this list once and in no other. -/
def QueuedOnce (l : Lists) (r : ListRef) (task : Task) : Prop :=
  (l r).count task = 1 ∧ ∀ r', r' ≠ r → task ∉ l r'

/-- No task in the lists has the memory of this one. -/
def NewMemory (l : Lists) (task : Task) : Prop := ∀ r, ∀ t ∈ l r, t.id ≠ task.id

/-- If no dynamic peon can be made, the task is with the static one. -/
def FallsBack : Operation → Sched → Prop
  | .add type task a others, s =>
    WantsPeon type task a (others s) → ¬(a.peon = true ∧ a.thread = true) →
      NewMemory (others s).list task →
      ∃ s', (Operation.add type task a others).run (false, s) = .ok ((), false, s') ∧
        QueuedOnce s'.list (.wait (.static .disconn)) task ∧
        s'.dynWorkerNum = (others s).dynWorkerNum
  | _, _ => True

/-- A dynamic peon is there and its thread is not. -/
def TornDown : Operation → Sched → Prop
  | .add type task a others, s =>
    WantsPeon type task a (others s) ∧ a.peon = true ∧ a.thread = false
  | _, _ => False

theorem queued_once {s : Sched} {type : PeonType} {task : Task} (h : NewMemory s.list task) :
    QueuedOnce (queued s type task).list (.wait (.static type)) task := by
  have hnot : ∀ r, task ∉ s.list r := fun r ht => h r task ht rfl
  constructor
  · have hlist : (queued s type task).list (.wait (.static type)) =
        s.list (.wait (.static type)) ++ [task] := Function.update_self _ _ _
    rw [hlist, List.count_append, List.count_eq_zero.mpr (hnot _), List.count_singleton_self]
  · intro r' hr'
    have hlist : (queued s type task).list r' = s.list r' := Function.update_of_ne hr' _ _
    rw [hlist]
    exact hnot r'

/-- The lock is right and the fallback works but when the thread of a new peon cannot be
made. -/
theorem lock_discipline (op : Operation) (s : Sched) :
    (Returns op s ∧ FallsBack op s) ↔ ¬TornDown op s := by
  have hother (op : Operation) (h : Moves false false op.run) :
      (∃ s', op.run (false, s) = .ok ((), false, s')) ∧ True ↔ ¬False := by
    obtain ⟨⟨⟩, s', hs'⟩ := h s
    exact iff_of_true ⟨⟨s', hs'⟩, trivial⟩ not_false
  cases op with
  | add type task a others =>
    have hrun {r : ℤ} {t : Sched} (h : peonTaskAdd type task a others (false, s) = .ok (r, false, t)) :
        (Operation.add type task a others).run (false, s) = .ok ((), false, t) :=
      (bind_ok h).trans rfl
    constructor
    · rintro ⟨⟨t, ht⟩, -⟩ ⟨hwants, hpeon, hthread⟩
      have hfault : (Operation.add type task a others).run (false, s) = .error .relock :=
        bind_error (add_relock hwants hpeon hthread)
      exact absurd (hfault.symm.trans ht) (by simp)
    · intro hnot
      by_cases hfilled : a.task = true ∧ (task.toolbox.ctxInit = true → a.ctx = true)
      · obtain ⟨htask, hctx⟩ := hfilled
        by_cases hmade : DynWanted (others s) (.static type) ∧ a.peon = true
        · have hwants : WantsPeon type task a (others s) := ⟨htask, hctx, hmade.1⟩
          have hthread : a.thread = true := by
            by_contra hno
            exact hnot ⟨hwants, hmade.2, Bool.not_eq_true _ |>.mp hno⟩
          exact ⟨⟨_, hrun (add_dynamic hwants hmade.2 hthread)⟩,
            fun _ hfails => absurd ⟨hmade.2, hthread⟩ hfails⟩
        · have hqueued := add_queued htask hctx fun hw =>
            Bool.not_eq_true _ |>.mp fun hp => hmade ⟨hw, hp⟩
          refine ⟨⟨_, hrun hqueued⟩, fun hwants _ hnew => ⟨_, hrun hqueued, ?_, rfl⟩⟩
          obtain rfl : type = .disconn := hwants.2.2.1
          exact queued_once hnew
      · obtain ⟨err, herr⟩ : ∃ err, peonTaskAdd type task a others (false, s) = .ok (err, false, s) :=
          add_rejected hfilled
        exact ⟨⟨_, hrun herr⟩, fun hwants => absurd ⟨hwants.1, hwants.2.1⟩ hfilled⟩
  | proc ref i r => exact hother (.proc ref i r) (moves_proc i r)
  | recheck answer clock others =>
    exact hother (.recheck answer clock others) (moves_recheck answer clock)
  | period ref others =>
    exact hother (.period ref others) (moves_period.bind fun _ => moves_pure ())
  | worker type i rounds => exact hother (.worker type i rounds) (moves_worker type i rounds)
  | dynamic k r => exact hother (.dynamic k r) (moves_dynamic k r)
  | construct ref num threads alloc others =>
    exact hother (.construct ref num threads alloc others)
      ((moves_construct num threads alloc).bind fun _ => moves_pure ())
  | deconstruct ref others => exact hother (.deconstruct ref others) moves_deconstruct
  | init alloc threads others =>
    exact hother (.init alloc threads others)
      ((moves_initPeons alloc threads [] peonTypes).bind fun _ => moves_pure ())
  | exit others => exact hother (.exit others) (moves_exitInner peonTypes)

/-- Sixteen disconnects take the workers of the static peon. -/
def sixteen : List Label := (List.range 16).flatMap fun id =>
  [.request .disconn sampleParam sampleToolbox 0, .add id .ok]

/-- The seventeenth gets memory for a task and a peon, and no thread. -/
def seventeenth : Operation :=
  .add .disconn ⟨16, 0, 0, 17, .live, sampleToolbox, sampleParam, ⟨.disconn, 16, false⟩⟩
    ⟨true, true, true, false⟩ id

theorem seventeenth_relock : ∃ s, run step (Sched.init 3) sixteen = some s ∧
    seventeenth.run (false, s) = .error .relock ∧
    ¬(Returns seventeenth s ∧ FallsBack seventeenth s) := by
  have hrun : ∃ s, run step (Sched.init 3) sixteen = some s ∧
      DynWanted s (.static .disconn) := by
    refine ⟨_, rfl, ?_⟩
    decide
  obtain ⟨s, hs, hwanted⟩ := hrun
  have hfault : seventeenth.run (false, s) = .error .relock :=
    bind_error (add_relock ⟨rfl, fun _ => rfl, hwanted⟩ rfl rfl)
  refine ⟨s, hs, hfault, ?_⟩
  rintro ⟨⟨t, ht⟩, -⟩
  exact absurd (hfault.symm.trans ht) (by simp)

end NvmeSnsd.ConnPeon.Calls
