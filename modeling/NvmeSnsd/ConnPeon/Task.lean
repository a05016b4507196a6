import NvmeSnsd.Snsd

/-! Tasks, the targets they are for, and the scan of one list for the tasks of
a target. -/
namespace NvmeSnsd.ConnPeon
open Lib

/-- The kinds of peon; `peons[]` has one of each. -/
inductive PeonType
  | connect
  | disconn
  | dcbatch
  | recheck
  deriving DecidableEq, Repr

/-- The part of `struct snsd_connect_param` that the scheduler reads. -/
structure ConnectParam where
  protocol : ℕ
  portid : ℕ
  family : ℕ
  traddr : Bytes
  hostTraddr : Bytes
  deriving DecidableEq, Repr

/-- Which functions of a `struct snsd_conn_toolbox` are present. -/
structure ConnToolbox where
  ctxInit : Bool
  handle : Bool
  recheck : Bool
  deriving DecidableEq, Repr

/-- `enum peon_task_state` -/
inductive TaskState
  | live
  | dead
  deriving DecidableEq, Repr

/-- Which request a task serves: the peon that `peon_task_add` is called for, the
number of the request, and whether a batch added the task. The latter two are
history. -/
structure TaskOrigin where
  type : PeonType
  request : ℕ
  inherited : Bool
  deriving DecidableEq, Repr

/-- `struct peon_task`; `id` stands for its address. -/
structure Task where
  id : ℕ
  tm : ℕ
  nextRun : ℕ
  sn : ℕ
  state : TaskState
  toolbox : ConnToolbox
  param : ConnectParam
  origin : TaskOrigin
  deriving DecidableEq, Repr

/-- The new generator value, which is also the number handed out. -/
def peonSnGenerate (gen : ℕ) : ℕ :=
  let sn := u64 (gen+1)
  if sn = 0 then u64 (sn+1) else sn

/-- `peon_task_match`: with `isbatch` only the host side counts. -/
def peonTaskMatch (p1 p2 : ConnectParam) (isbatch : Bool) : Bool :=
  if p1.protocol ≠ p2.protocol || p1.family ≠ p2.family ||
      !snsdIpMatch p1.family p1.hostTraddr p2.hostTraddr then false
  else if isbatch then true
  else if p1.portid ≠ p2.portid || !snsdIpMatch p1.family p1.traddr p2.traddr then false
  else true

/-- The bits of `enum peon_task_action`. -/
structure TaskAction where
  discard : Bool
  wait : Bool
  deriving DecidableEq, Repr

def TaskAction.none : TaskAction := ⟨false, false⟩

def TaskAction.or (a b : TaskAction) : TaskAction := ⟨a.discard || b.discard, a.wait || b.wait⟩

/-- One turn of the loop in `peon_task_scan_list`: what becomes of `p`, and the
bit it adds. -/
def peonTaskScanOne (task : Task) (isbatch iswait : Bool) (p : Task) : Task × TaskAction :=
  if p.state = .dead then (p, .none)
  else if !peonTaskMatch p.param task.param isbatch then (p, .none)
  else if task.sn = p.sn then (p, .none)
  else if task.sn < p.sn then (p, ⟨true, false⟩)
  else ({ p with state := .dead }, ⟨false, !iswait⟩)

def peonTaskScanList (list : List Task) (task : Task) (isbatch iswait : Bool) :
    List Task × TaskAction :=
  list.foldl (fun acc p =>
    let r := peonTaskScanOne task isbatch iswait p
    (acc.1 ++ [r.1], acc.2.or r.2)) ([], .none)

/-- `peon_task_restrain_timeout`: the clock may have been set back. -/
def peonTaskRestrainTimeout (now : ℕ) (task : Task) (restrainTime : ℕ) : Bool :=
  if restrainTime = 0 || now < task.tm || now ≥ task.tm+restrainTime then now ≥ task.nextRun
  else false

theorem peonTaskMatch_iff {p q : ConnectParam} {b : Bool} :
    peonTaskMatch p q b = true ↔ p.protocol = q.protocol ∧ p.family = q.family ∧
      snsdIpMatch p.family p.hostTraddr q.hostTraddr = true ∧
      (b = false → p.portid = q.portid ∧ snsdIpMatch p.family p.traddr q.traddr = true) := by
  rw [peonTaskMatch]
  cases b <;> by_cases h1 : p.protocol = q.protocol <;> by_cases h2 : p.family = q.family <;>
    by_cases h3 : p.portid = q.portid <;>
    cases snsdIpMatch p.family p.hostTraddr q.hostTraddr <;> simp [h1, h2, h3]

theorem peonTaskMatch_symm {p q : ConnectParam} {b : Bool} (h : peonTaskMatch p q b = true) :
    peonTaskMatch q p b = true := by
  obtain ⟨h1, h2, h3, h4⟩ := peonTaskMatch_iff.mp h
  rw [peonTaskMatch_iff, ← h2]
  exact ⟨h1.symm, rfl, snsdIpMatch_symm h3, fun hb => ⟨(h4 hb).1.symm, snsdIpMatch_symm (h4 hb).2⟩⟩

/-- Two targets that match a third match each other, at the coarser of the two. -/
theorem peonTaskMatch_trans {p q r : ConnectParam} {b c : Bool} (h : peonTaskMatch p q b = true)
    (h' : peonTaskMatch q r c = true) : peonTaskMatch p r (b || c) = true := by
  obtain ⟨h1, h2, h3, h4⟩ := peonTaskMatch_iff.mp h
  obtain ⟨h1', h2', h3', h4'⟩ := peonTaskMatch_iff.mp h'
  rw [← h2] at h2' h3' h4'
  refine peonTaskMatch_iff.mpr ⟨h1.trans h1', h2', snsdIpMatch_trans h3 h3', fun hbc => ?_⟩
  obtain ⟨hb, hc⟩ := Bool.or_eq_false_iff.mp hbc
  exact ⟨(h4 hb).1.trans (h4' hc).1, snsdIpMatch_trans (h4 hb).2 (h4' hc).2⟩

/-- A target is on its host side. -/
theorem peonTaskMatch_isbatch {p q : ConnectParam} {b : Bool} (h : peonTaskMatch p q b = true) :
    peonTaskMatch p q true = true := by
  obtain ⟨h1, h2, h3, -⟩ := peonTaskMatch_iff.mp h
  exact peonTaskMatch_iff.mpr ⟨h1, h2, h3, nofun⟩

/-! What a scan does, without the loop. -/

/-- `p` is for the same target as `task`, alive, and older. -/
def outdated (task : Task) (isbatch : Bool) (p : Task) : Bool :=
  p.state == .live && peonTaskMatch p.param task.param isbatch && p.sn < task.sn

/-- `p` is for the same target as `task`, alive, and newer. -/
def newer (task : Task) (isbatch : Bool) (p : Task) : Bool :=
  p.state == .live && peonTaskMatch p.param task.param isbatch && task.sn < p.sn

theorem outdated_iff {task p : Task} {b : Bool} : outdated task b p = true ↔
    p.state = .live ∧ peonTaskMatch p.param task.param b = true ∧ p.sn < task.sn := by
  simp [outdated, and_assoc]

theorem newer_iff {task p : Task} {b : Bool} : newer task b p = true ↔
    p.state = .live ∧ peonTaskMatch p.param task.param b = true ∧ task.sn < p.sn := by
  simp [newer, and_assoc]

def markDead (task : Task) (isbatch : Bool) (p : Task) : Task :=
  if outdated task isbatch p then { p with state := .dead } else p

theorem peonTaskScanOne_eq (task : Task) (isbatch iswait : Bool) (p : Task) :
    peonTaskScanOne task isbatch iswait p = (markDead task isbatch p,
      ⟨newer task isbatch p, !iswait && outdated task isbatch p⟩) := by
  rw [peonTaskScanOne, markDead, outdated, newer]
  cases hs : p.state with
  | dead => simp [TaskAction.none]
  | live =>
    cases hm : peonTaskMatch p.param task.param isbatch with
    | false => simp [TaskAction.none]
    | true =>
      rcases lt_trichotomy task.sn p.sn with h | h | h
      · simp [h, h.ne, h.not_gt]
      · simp [h, TaskAction.none]
      · simp [h, h.ne', h.not_gt]

theorem peonTaskScanList_eq (list : List Task) (task : Task) (isbatch iswait : Bool) :
    peonTaskScanList list task isbatch iswait = (list.map (markDead task isbatch),
      ⟨list.any (newer task isbatch), !iswait && list.any (outdated task isbatch)⟩) := by
  -- the loop from any point, with what it has gathered so far
  have hloop : ∀ (l done : List Task) (a : TaskAction),
      l.foldl (fun acc p =>
        let r := peonTaskScanOne task isbatch iswait p
        (acc.1 ++ [r.1], acc.2.or r.2)) (done, a) =
      (done ++ l.map (markDead task isbatch),
        a.or ⟨l.any (newer task isbatch), !iswait && l.any (outdated task isbatch)⟩) := by
    intro l
    induction l with
    | nil =>
      intro done a
      simp [TaskAction.or]
    | cons p l ih =>
      intro done a
      rw [List.foldl_cons, ih, peonTaskScanOne_eq]
      simp [TaskAction.or, Bool.and_or_distrib_left, Bool.or_assoc]
  rw [peonTaskScanList, hloop, List.nil_append]
  simp [TaskAction.or, TaskAction.none]

end NvmeSnsd.ConnPeon
