import NvmeSnsd.Lib.Run
import NvmeSnsd.ConnPeon.Task

/-! The scheduler as a system: callers that add tasks, workers that poll their
peon, and the list lock between them. A step is what one thread does between
two points at which another thread can be seen; the loops of `peon_task_get`
and `peon_run_recheck` take a step for each task they look at. -/
namespace NvmeSnsd.ConnPeon
open Lib

def peonConnectWorkerNum : ℕ := 1
def peonDisconnWorkerNum : ℕ := 16
def peonDcbatchWorkerNum : ℕ := 1
def peonRecheckWorkerNum : ℕ := 1
def peonDynDisconnWorkerNum : ℕ := 1
def peonDynDisconnWorkerLimit : ℕ := 512
def peonDefaultRestrainTime : ℕ := 3
def peonFailRetryInterval : ℕ := 60

/-- `peons[type]`, or the `k`-th peon that `peon_dyn_create` made. -/
inductive PeonRef
  | static (type : PeonType)
  | dyn (k : ℕ)
  deriving DecidableEq, Repr

/-- The `type` field: a dynamic peon disconnects. -/
def PeonRef.type : PeonRef → PeonType
  | static type => type
  | dyn _ => .disconn

/-- Where a task is: in a list of a peon, or with the call of `peon_task_add`
that has filled it and does not have the lock yet. -/
inductive ListRef
  | pending
  | wait (ref : PeonRef)
  | proc (ref : PeonRef)
  deriving DecidableEq, Repr

abbrev Lists := ListRef → List Task

/-- `struct peon` without its lists and workers. -/
structure Peon where
  restrainTime : ℕ
  workerNum : ℕ
  workerAllCount : ℤ
  deriving DecidableEq

/-- Where a worker thread stands. A dynamic one leaves after one task: it takes
its peon down, and then counts itself out. -/
inductive Worker
  | absent
  | idle
  | running (id : ℕ)
  | handled (id : ℕ) (ret : ℤ)
  | leaving
  | exiting
  deriving DecidableEq

/-- Who holds `peon_list_lock`, with the tasks its loop has not come to. -/
inductive Holder
  | free
  | get (ref : PeonRef) (i : ℕ) (rest : List ℕ)
  | recheck (rest : List ℕ)
  | stuck
  deriving DecidableEq

/-- A request from outside, as it was issued. -/
structure Request where
  type : PeonType
  param : ConnectParam
  sn : ℕ
  deriving DecidableEq

/-- What happened to tasks. -/
inductive Event
  | added (t : Task)
  | handled (t : Task) (ret : ℤ)
  | markedDead (t other : Task)
  | discarded (t other : Task)
  | relived (t : Task)
  | freed (t : Task)
  deriving DecidableEq

/-- The scheduler. `requests`, `log` and the two counters of names are history. -/
structure Sched where
  list : Lists
  peon : PeonRef → Peon
  worker : PeonRef × ℕ → Worker
  holder : Holder
  snGen : ℕ
  dynWorkerNum : ℕ
  cfgRestrainTime : ℕ
  nextId : ℕ
  nextDyn : ℕ
  requests : List Request
  log : List Event

/-- `peon_init` with `peon_set_disconn_restrain_time`. -/
def Sched.init (cfgRestrainTime : ℕ) : Sched where
  list := fun _ => []
  peon
    | .static .connect =>
      ⟨if cfgRestrainTime = 0 then peonDefaultRestrainTime else 0, peonConnectWorkerNum, 0⟩
    | .static .disconn => ⟨cfgRestrainTime, peonDisconnWorkerNum, 0⟩
    | .static .dcbatch => ⟨0, peonDcbatchWorkerNum, 0⟩
    | .static .recheck => ⟨0, peonRecheckWorkerNum, 0⟩
    | .dyn _ => ⟨0, 0, 0⟩
  worker
    | (.static .connect, i) => if i < peonConnectWorkerNum then .idle else .absent
    | (.static .disconn, i) => if i < peonDisconnWorkerNum then .idle else .absent
    | (.static .dcbatch, i) => if i < peonDcbatchWorkerNum then .idle else .absent
    | (.static .recheck, i) => if i < peonRecheckWorkerNum then .idle else .absent
    | (.dyn _, _) => .absent
  holder := .free
  snGen := 0
  dynWorkerNum := 0
  cfgRestrainTime := cfgRestrainTime
  nextId := 0
  nextDyn := 0
  requests := []
  log := []

/-! `peon_task_action_judge` -/

/-- One call of `peon_task_scan_list`. -/
structure Scan where
  list : ListRef
  isbatch : Bool
  iswait : Bool
  deriving DecidableEq

/-- The calls that a task of each kind leads to, in their order. -/
def judgeScans : PeonType → List Scan
  | .connect =>
    [⟨.wait (.static .disconn), false, true⟩,
     ⟨.proc (.static .disconn), false, false⟩,
     ⟨.wait (.static .dcbatch), true, true⟩,
     ⟨.proc (.static .dcbatch), true, false⟩,
     ⟨.wait (.static .connect), false, true⟩,
     ⟨.proc (.static .connect), false, false⟩,
     ⟨.wait (.static .recheck), false, true⟩]
  | .disconn =>
    [⟨.wait (.static .connect), false, true⟩,
     ⟨.proc (.static .connect), false, false⟩,
     ⟨.wait (.static .recheck), false, true⟩]
  | .dcbatch =>
    [⟨.wait (.static .connect), true, true⟩,
     ⟨.proc (.static .connect), true, false⟩]
  | .recheck => []

def peonTaskActionJudge (l : Lists) (type : PeonType) (task : Task) : Lists × TaskAction :=
  (judgeScans type).foldl (fun acc sc =>
    let r := peonTaskScanList (acc.1 sc.list) task sc.isbatch sc.iswait
    (Function.update acc.1 sc.list r.1, acc.2.or r.2)) (l, .none)

/-- The tasks that judging `task` marks dead. -/
def judgeDead (l : Lists) (type : PeonType) (task : Task) : List Event :=
  (judgeScans type).flatMap fun sc =>
    ((l sc.list).filter (outdated task sc.isbatch)).map fun p => .markedDead p task

/-- The tasks for which judging `task` discards it. -/
def judgeDiscard (l : Lists) (type : PeonType) (task : Task) : List Event :=
  (judgeScans type).flatMap fun sc =>
    ((l sc.list).filter (newer task sc.isbatch)).map fun p => .discarded task p

/-! Single operations on the lists. -/

def findTask (l : List Task) (id : ℕ) : Option Task := l.find? fun t => t.id == id

def dropTask (l : List Task) (id : ℕ) : List Task := l.filter fun t => t.id != id

/-- `list_del` of the task with this address. -/
def listDel (l : Lists) (r : ListRef) (id : ℕ) : Lists := Function.update l r (dropTask (l r) id)

/-- `list_add_tail` -/
def listAddTail (l : Lists) (r : ListRef) (t : Task) : Lists := Function.update l r (l r ++ [t])

namespace Sched
variable (s : Sched)

@[simps -fullyApplied list worker holder log snGen requests nextId nextDyn]
def setList (l : Lists) : Sched := { s with list := l }

@[simps -fullyApplied list worker holder log snGen requests nextId nextDyn]
def del (r : ListRef) (id : ℕ) : Sched := { s with list := listDel s.list r id }

@[simps -fullyApplied list worker holder log snGen requests nextId nextDyn]
def addTail (r : ListRef) (t : Task) : Sched := { s with list := listAddTail s.list r t }

@[simps -fullyApplied list worker holder log snGen requests nextId nextDyn]
def emit (es : List Event) : Sched := { s with log := s.log ++ es }

@[simps -fullyApplied list worker holder log snGen requests nextId nextDyn]
def free (t : Task) : Sched := { s with log := s.log ++ [.freed t] }

@[simps -fullyApplied list worker holder log snGen requests nextId nextDyn]
def count (ref : PeonRef) (d : ℤ) : Sched :=
  { s with
    peon := Function.update s.peon ref
      { s.peon ref with workerAllCount := (s.peon ref).workerAllCount+d } }

@[simps -fullyApplied list worker holder log snGen requests nextId nextDyn]
def setWorker (ref : PeonRef) (i : ℕ) (w : Worker) : Sched :=
  { s with worker := Function.update s.worker (ref, i) w }

@[simps -fullyApplied list worker holder log snGen requests nextId nextDyn]
def setHolder (h : Holder) : Sched := { s with holder := h }

@[simps -fullyApplied list worker holder log snGen requests nextId nextDyn]
def setGen (sn : ℕ) : Sched := { s with snGen := sn }

/-- The request is out; its number is the generator's latest. -/
@[simps -fullyApplied list worker holder log snGen requests nextId nextDyn]
def issue (r : Request) : Sched := { s with snGen := r.sn, requests := s.requests ++ [r] }

/-- The batch handler is inside `peon_add_disconn_task_inherit`. -/
def inheriting : Bool := (s.list .pending).any fun t => t.origin.inherited

end Sched

/-- Where a worker goes after a round: a static one waits for the next. -/
def afterRound : PeonRef → Worker
  | .static _ => .idle
  | .dyn _ => .leaving

section Get
variable (s : Sched) (ref : PeonRef) (i : ℕ) (rest : List ℕ)

/-- `peon_task_get` looks at the waiting task `p`. -/
def peonTaskGetOne (p : Task) (now : ℕ) : Sched :=
  if p.state = .dead then
    (((s.del (.wait ref) p.id).free p).count ref (-1)).setHolder (.get ref i rest)
  else
    let r := peonTaskActionJudge s.list ref.type p
    let t := (s.setList r.1).emit (judgeDead s.list ref.type p)
    if r.2.wait then t.setHolder (.get ref i rest)
    else if r.2.discard then
      ((((t.del (.wait ref) p.id).emit (judgeDiscard s.list ref.type p)).free p).count ref
        (-1)).setHolder (.get ref i rest)
    else if peonTaskRestrainTimeout now p (s.peon ref).restrainTime then
      (((t.del (.wait ref) p.id).addTail (.proc ref) p).setWorker ref i (.running p.id)).setHolder
        .free
    else t.setHolder (.get ref i rest)

end Get

/-- `peon_task_complete` for the processed task `p`. -/
def peonTaskComplete (s : Sched) (ref : PeonRef) (p : Task) (result : ℤ) (now : ℕ) : Sched :=
  let t := s.del (.proc ref) p.id
  let t :=
    if p.state = .live then
      if result ≠ 0 then
        t.addTail (.wait ref) { p with nextRun := now+peonFailRetryInterval }
      else if ref.type = .connect then t.addTail (.wait (.static .recheck)) { p with sn := 0 }
      else t.free p
    else t.free p
  t.count ref (-1)

/-- `peon_run_recheck` looks at `p`; `ret` is what its `recheck` returns. -/
def peonRunRecheckOne (s : Sched) (rest : List ℕ) (p : Task) (ret : ℤ) (now : ℕ) : Sched :=
  if p.state = .dead || !p.toolbox.recheck then
    ((s.del (.wait (.static .recheck)) p.id).free p).setHolder (.recheck rest)
  else if ret = 0 then s.setHolder (.recheck rest)
  else
    let sn := peonSnGenerate s.snGen
    let q := { p with tm := now, nextRun := 0, sn := sn, state := .live }
    let t := (s.setGen sn).del (.wait (.static .recheck)) p.id
    ((t.addTail (.wait (.static .connect)) q).emit [.relived q]).setHolder (.recheck rest)

/-- How `peon_dyn_create` ends. -/
inductive DynCreate
  | ok
  | noPeon
  | noThread
  deriving DecidableEq

/-- A dynamic peon with its one task and its worker about to start. -/
@[simps -fullyApplied list worker holder log snGen requests nextId nextDyn]
def peonDynCreate (s : Sched) (task : Task) : Sched :=
  let ref := PeonRef.dyn s.nextDyn
  { (s.addTail (.wait ref) task).setWorker ref 0 .idle with
    peon := Function.update s.peon ref ⟨s.cfgRestrainTime, peonDynDisconnWorkerNum, 1⟩
    dynWorkerNum := s.dynWorkerNum+1
    nextDyn := s.nextDyn+1 }

/-- A task for this peon wants a peon of its own: every worker has its task. -/
abbrev DynWanted (s : Sched) (ref : PeonRef) : Prop :=
  ref.type = .disconn ∧ (s.peon ref).workerAllCount ≥ (s.peon ref).workerNum ∧
    s.dynWorkerNum ≤ peonDynDisconnWorkerLimit

/-- The end of `peon_task_add`, from taking the lock. Without a thread for its
worker the dynamic peon is torn down under the lock, which that takes again: the
call does not come back. -/
def peonTaskAddLocked (s : Sched) (ref : PeonRef) (task : Task) (create : DynCreate) : Sched :=
  let t := s.del .pending task.id
  let fallback := ((t.addTail (.wait ref) task).count ref 1).emit [.added task]
  if DynWanted s ref then
    match create with
    | .ok => (peonDynCreate t task).emit [.added task]
    | .noPeon => fallback
    | .noThread => s.setHolder .stuck
  else fallback

/-- Why `peon_task_add` fails before it comes to the lock. -/
inductive AddError
  | enomem
  | einval
  deriving DecidableEq

/-- One step of some thread. -/
inductive Label
  | request (type : PeonType) (param : ConnectParam) (toolbox : ConnToolbox) (tm : ℕ)
  | inherit (param : ConnectParam) (toolbox : ConnToolbox) (tm : ℕ)
  | addFail (id : ℕ) (err : AddError)
  | add (id : ℕ) (create : DynCreate)
  | poll (ref : PeonRef) (i : ℕ)
  | get (now : ℕ)
  | handle (ref : PeonRef) (i : ℕ) (ret : ℤ)
  | complete (ref : PeonRef) (i : ℕ) (now : ℕ)
  | recheck
  | recheckOne (ret : ℤ) (now : ℕ)
  | unlock
  | deconstruct (k : ℕ)
  | exit (k : ℕ)
  deriving DecidableEq

/-- `peon_task_add` up to the lock. -/
@[simps -fullyApplied list worker holder log snGen requests nextId nextDyn]
def peonTaskAddFill (s : Sched) (sn : ℕ) (param : ConnectParam) (toolbox : ConnToolbox) (tm : ℕ)
    (origin : TaskOrigin) : Sched :=
  { s.addTail .pending ⟨s.nextId, tm, 0, sn, .live, toolbox, param, origin⟩ with
    nextId := s.nextId+1 }

/-- `peon_add_*_task` up to the lock. There is no such call for the recheck peon. -/
def requestStep (s : Sched) (type : PeonType) (param : ConnectParam) (toolbox : ConnToolbox)
    (tm : ℕ) : Option Sched :=
  if type = .recheck then none
  else
    let sn := peonSnGenerate s.snGen
    some ((peonTaskAddFill s sn param toolbox tm ⟨type, s.requests.length, false⟩).issue
      ⟨type, param, sn⟩)

/-- `peon_add_disconn_task_inherit` up to the lock, called by the handler of the
batch that the dcbatch worker runs, for a controller on the host side of it. -/
def inheritStep (s : Sched) (param : ConnectParam) (toolbox : ConnToolbox) (tm : ℕ) :
    Option Sched :=
  match s.worker (.static .dcbatch, 0) with
  | .running id =>
    (findTask (s.list (.proc (.static .dcbatch))) id).bind fun b =>
      if peonTaskMatch param b.param true ∧ s.inheriting = false then
        some (peonTaskAddFill s b.sn param toolbox tm ⟨.disconn, b.origin.request, true⟩)
      else none
  | _ => none

def addFailStep (s : Sched) (id : ℕ) (err : AddError) : Option Sched :=
  (findTask (s.list .pending) id).bind fun t =>
    if err = .einval → t.toolbox.ctxInit then some (s.del .pending id) else none

def addStep (s : Sched) (id : ℕ) (create : DynCreate) : Option Sched :=
  match s.holder with
  | .free =>
    (findTask (s.list .pending) id).map fun t =>
      peonTaskAddLocked s (.static t.origin.type) t create
  | _ => none

def pollStep (s : Sched) (ref : PeonRef) (i : ℕ) : Option Sched :=
  if s.holder = .free ∧ s.worker (ref, i) = .idle ∧ ref ≠ .static .recheck then
    some (s.setHolder (.get ref i ((s.list (.wait ref)).map (·.id))))
  else none

def getStep (s : Sched) (now : ℕ) : Option Sched :=
  match s.holder with
  | .get ref i (id :: rest) =>
    (findTask (s.list (.wait ref)) id).map fun p => peonTaskGetOne s ref i rest p now
  | _ => none

/-- Without a `handle` function the result is 0. A batch is not through while a
disconnect of its own is being added. -/
def handleStep (s : Sched) (ref : PeonRef) (i : ℕ) (ret : ℤ) : Option Sched :=
  match s.worker (ref, i) with
  | .running id =>
    (findTask (s.list (.proc ref)) id).bind fun p =>
      if (p.toolbox.handle ∨ ret = 0) ∧ (ref = .static .dcbatch → s.inheriting = false) then
        some ((s.setWorker ref i (.handled id ret)).emit [.handled p ret])
      else none
  | _ => none

def completeStep (s : Sched) (ref : PeonRef) (i now : ℕ) : Option Sched :=
  match s.holder, s.worker (ref, i) with
  | .free, .handled id ret =>
    (findTask (s.list (.proc ref)) id).map fun p =>
      (peonTaskComplete s ref p ret now).setWorker ref i (afterRound ref)
  | _, _ => none

def recheckStep (s : Sched) : Option Sched :=
  if s.holder = .free ∧ s.worker (.static .recheck, 0) = .idle then
    some (s.setHolder (.recheck ((s.list (.wait (.static .recheck))).map (·.id))))
  else none

def recheckOneStep (s : Sched) (ret : ℤ) (now : ℕ) : Option Sched :=
  match s.holder with
  | .recheck (id :: rest) =>
    (findTask (s.list (.wait (.static .recheck))) id).map fun p => peonRunRecheckOne s rest p ret now
  | _ => none

/-- The loop is through: the lock is given back, and a worker without a task
ends its round. -/
def unlockStep (s : Sched) : Option Sched :=
  match s.holder with
  | .get ref i [] => some ((s.setHolder .free).setWorker ref i (afterRound ref))
  | .recheck [] => some (s.setHolder .free)
  | _ => none

/-- `peon_deconstruct` of a dynamic peon by its own worker. -/
def deconstructStep (s : Sched) (k : ℕ) : Option Sched :=
  if s.holder = .free ∧ s.worker (.dyn k, 0) = .leaving then
    some (((s.setList (Function.update s.list (.wait (.dyn k)) [])).emit ((s.list (.wait (.dyn k))).map .freed)).setWorker
      (.dyn k) 0 .exiting)
  else none

def exitStep (s : Sched) (k : ℕ) : Option Sched :=
  if s.holder = .free ∧ s.worker (.dyn k, 0) = .exiting then
    some { s.setWorker (.dyn k) 0 .absent with dynWorkerNum := s.dynWorkerNum-1 }
  else none

def step (s : Sched) : Label → Option Sched
  | .request type param toolbox tm => requestStep s type param toolbox tm
  | .inherit param toolbox tm => inheritStep s param toolbox tm
  | .addFail id err => addFailStep s id err
  | .add id create => addStep s id create
  | .poll ref i => pollStep s ref i
  | .get now => getStep s now
  | .handle ref i ret => handleStep s ref i ret
  | .complete ref i now => completeStep s ref i now
  | .recheck => recheckStep s
  | .recheckOne ret now => recheckOneStep s ret now
  | .unlock => unlockStep s
  | .deconstruct k => deconstructStep s k
  | .exit k => exitStep s k

/-- One controller and the functions of the RoCE layer, for runs on fixed inputs. -/
def sampleParam : ConnectParam := ⟨1, 4420, AF_INET, [192, 168, 1, 1], [192, 168, 1, 2]⟩

def sampleToolbox : ConnToolbox := ⟨true, true, true⟩

end NvmeSnsd.ConnPeon
