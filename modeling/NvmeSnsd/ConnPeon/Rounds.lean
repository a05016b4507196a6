import NvmeSnsd.ConnPeon.Walk
import NvmeSnsd.ConnPeon.Ownership
import NvmeSnsd.ConnPeon.Lock

/-! The loops of the scheduler, as the source has them, against the steps they are made of. -/
namespace NvmeSnsd.ConnPeon
open Lib Lib.Locked

/-- The steps of `peon_task_get` at the tasks with these names. -/
def getSteps (clock : ℕ → ℕ) (ids : List ℕ) : List Label := ids.map fun id => .get (clock id)

def recheckSteps (answer : ℕ → ℤ) (clock : ℕ → ℕ) (ids : List ℕ) : List Label :=
  ids.map fun id => .recheckOne (answer id) (clock id)

/-- The body of the loop does not look at who has the lock. -/
theorem getOne_setHolder (s : Sched) (h : Holder) (ref : PeonRef) (i : ℕ) (rest : List ℕ)
    (p : Task) (now : ℕ) :
    peonTaskGetOne (s.setHolder h) ref i rest p now = peonTaskGetOne s ref i rest p now := by
  have hpeon : (s.setHolder h).peon = s.peon := rfl
  unfold peonTaskGetOne
  dsimp only
  simp only [Sched.setHolder_list, hpeon]
  split_ifs <;> rfl

theorem recheckOne_setHolder (s : Sched) (h : Holder) (rest : List ℕ) (p : Task) (ret : ℤ)
    (now : ℕ) :
    peonRunRecheckOne (s.setHolder h) rest p ret now = peonRunRecheckOne s rest p ret now := by
  unfold peonRunRecheckOne
  split_ifs <;> rfl

theorem getLoop_setHolder (s : Sched) (h : Holder) (ref : PeonRef) (i : ℕ) (clock : ℕ → ℕ)
    (ids : List ℕ) (hids : ∀ id ∈ ids, ∃ p, findTask (s.list (.wait ref)) id = some p) :
    Calls.getLoop ref i clock ids (s.setHolder h) = Calls.getLoop ref i clock ids s := by
  cases ids with
  | nil => rfl
  | cons id ids =>
    obtain ⟨p, hp⟩ := hids id List.mem_cons_self
    have hp' : findTask ((s.setHolder h).list (.wait ref)) id = some p := hp
    simp only [Calls.getLoop, hp, hp', getOne_setHolder]

/-- Where a worker stands after it has looked at a task. -/
theorem getOne_holder {s s' : Sched} {ref : PeonRef} {i id now : ℕ} {rest : List ℕ}
    (hidle : s.worker (ref, i) = .idle) (hh : s.holder = .get ref i (id :: rest))
    (hs : step s (.get now) = some s') :
    s'.worker (ref, i) = .running id ∧ s'.holder = .free ∨
      s'.worker (ref, i) = .idle ∧ s'.holder = .get ref i rest := by
  cases step_cases hs with
  | getDead hh' | getLeave hh' | getDiscard hh' =>
    obtain ⟨rfl, rfl, hr⟩ := Holder.get.inj (hh.symm.trans hh')
    obtain ⟨-, rfl⟩ := List.cons.inj hr
    exact Or.inr ⟨hidle, rfl⟩
  | getPick hh' =>
    obtain ⟨rfl, rfl, hr⟩ := Holder.get.inj (hh.symm.trans hh')
    obtain ⟨rfl, -⟩ := List.cons.inj hr
    exact Or.inl ⟨by simp, rfl⟩

/-- The rest of a walk of `peon_task_get` is a run: a look at each task up to the one it
takes, or at all of them and then the end of the round. -/
theorem getLoop_run {s : Sched} {type : PeonType} {i : ℕ} {rest : List ℕ} (clock : ℕ → ℕ)
    (hb : Base s) (hw : WalkOk s) (hh : s.holder = .get (.static type) i rest) :
    ∃ ls u, u = Calls.getLoop (.static type) i clock rest s ∧ run step s ls = some u ∧
      (ls = getSteps clock rest ++ [.unlock] ∧ u.worker (.static type, i) = .idle ∨
        ∃ n id, ls = getSteps clock (rest.take n) ∧ u.worker (.static type, i) = .running id) := by
  induction rest generalizing s with
  | nil =>
    have hidle := (hb.workers.holder _ _ _ hh).1
    refine ⟨[.unlock], _, rfl, ?_, .inl ⟨rfl, hidle⟩⟩
    have hsame : (s.setHolder .free).setWorker (.static type) i (afterRound (.static type)) =
        s.setHolder .free := by
      unfold Sched.setWorker
      rw [show afterRound (.static type) = (s.setHolder .free).worker (.static type, i) from
        hidle.symm, Function.update_eq_self]
    simp only [run, step, unlockStep, hh, Option.bind_some, Calls.getLoop, hsame]
  | cons id rest ih =>
    have hidle := (hb.workers.holder _ _ _ hh).1
    have hsub := hw (.wait (.static type)) (by rw [hh]; rfl)
    rw [hh] at hsub
    obtain ⟨p, hp, rfl⟩ := List.mem_map.mp (hsub.subset List.mem_cons_self)
    have hf := findTask_of_mem hb.ids hp
    have hstep : step s (.get (clock p.id)) =
        some (peonTaskGetOne s (.static type) i rest p (clock p.id)) := by
      simp only [step, getStep, hh, hf, Option.map_some]
    set t := peonTaskGetOne s (.static type) i rest p (clock p.id) with ht
    have hloop : Calls.getLoop (.static type) i clock (p.id :: rest) s =
        if t.worker (.static type, i) = .running p.id then t
        else Calls.getLoop (.static type) i clock rest t := by
      simp only [Calls.getLoop, hf, ht]
    rcases getOne_holder hidle hh hstep with ⟨hrun, -⟩ | ⟨hrun, hhold⟩
    · -- it takes this one
      refine ⟨[.get (clock p.id)], t, ?_, run_cons.mpr ⟨t, hstep, rfl⟩,
        .inr ⟨1, p.id, by simp [getSteps], hrun⟩⟩
      rw [hloop, if_pos hrun]
    · obtain ⟨ls, u, hu, hr, hls⟩ := ih (base_step hb hstep) (walkOk_step hb.ids hw hstep) hhold
      refine ⟨.get (clock p.id) :: ls, u, ?_, run_cons.mpr ⟨t, hstep, hr⟩, ?_⟩
      · rw [hloop, if_neg (by rw [hrun]; simp), hu]
      · rcases hls with ⟨rfl, hidle⟩ | ⟨n, id, rfl, hid⟩
        · exact Or.inl ⟨by simp [getSteps], hidle⟩
        · exact Or.inr ⟨n+1, id, by simp [getSteps], hid⟩

/-- The rest of a walk of `peon_run_recheck` is a run. -/
theorem recheckLoop_run {s : Sched} {rest : List ℕ} (answer : ℕ → ℤ) (clock : ℕ → ℕ)
    (hb : Base s) (hw : WalkOk s) (hh : s.holder = .recheck rest) :
    run step s (recheckSteps answer clock rest ++ [.unlock]) =
      some (Calls.recheckLoop answer clock rest s) := by
  induction rest generalizing s with
  | nil => simp [recheckSteps, run, step, unlockStep, hh, Calls.recheckLoop]
  | cons id rest ih =>
    have hsub := hw (.wait (.static .recheck)) (by rw [hh]; rfl)
    rw [hh] at hsub
    obtain ⟨p, hp, rfl⟩ := List.mem_map.mp (hsub.subset List.mem_cons_self)
    have hf := findTask_of_mem hb.ids hp
    have hstep : step s (.recheckOne (answer p.id) (clock p.id)) =
        some (peonRunRecheckOne s rest p (answer p.id) (clock p.id)) := by
      simp only [step, recheckOneStep, hh, hf, Option.map_some]
    have hhold : (peonRunRecheckOne s rest p (answer p.id) (clock p.id)).holder =
        .recheck rest := by
      unfold peonRunRecheckOne
      split_ifs <;> rfl
    have hr := ih (base_step hb hstep) (walkOk_step hb.ids hw hstep) hhold
    simp only [Calls.recheckLoop, hf]
    exact run_cons.mpr ⟨_, hstep, hr⟩

/-! A function that waits for the lock gets it in a state `s` that the other threads leave. -/

/-- The functions that run under the lock, called until they come back, do what steps of the
scheduler do from `s`. -/
structure CallsRun (s : Sched) : Prop where
  add : ∀ t ∈ s.list .pending, ∀ a others s₀, others s₀ = s.del .pending t.id → a.task = true →
    (t.toolbox.ctxInit = true → a.ctx = true) →
      (∃ u, Calls.peonTaskAdd t.origin.type t a others (false, s₀) = .ok (0, false, u) ∧
        step s (.add t.id a.create) = some (u.emit [.added t])) ∨
      (Calls.peonTaskAdd t.origin.type t a others (false, s₀) = .error .relock ∧
        ∃ u, step s (.add t.id a.create) = some u ∧ u.holder = .stuck)
  get : ∀ type i clock others s₀, type ≠ .recheck → s.worker (.static type, i) = .idle →
    others s₀ = s → ∃ u ls, run step s (.poll (.static type) i :: ls) = some u ∧
      (∀ l ∈ ls, l.isWalk = true) ∧
      ∃ task, Calls.peonTaskGet (.static type) i clock others (false, s₀) = .ok (task, false, u) ∧
        (task = none ∧ u.worker (.static type, i) = .idle ∨
          ∃ p ∈ u.list (.proc (.static type)), task = some p ∧
            u.worker (.static type, i) = .running p.id)
  complete : ∀ ref i id ret now others s₀, s.worker (ref, i) = .handled id ret → others s₀ = s →
    ∃ u, Calls.peonTaskComplete ref id ret now others (false, s₀) = .ok ((), false, u) ∧
      step s (.complete ref i now) = some (u.setWorker ref i (afterRound ref))
  recheck : ∀ answer clock others s₀, s.worker (.static .recheck, 0) = .idle → others s₀ = s →
    ∃ u, Calls.peonRunRecheck answer clock others (false, s₀) = .ok ((), false, u) ∧
      run step s (.recheck :: recheckSteps answer clock
        ((s.list (.wait (.static .recheck))).map Task.id) ++ [.unlock]) = some u

/-- The whole of `peon_task_get`. -/
theorem get_run {s : Sched} {type : PeonType} {i : ℕ} (clock : ℕ → ℕ) (hb : Base s)
    (hfree : s.holder = .free) (htype : type ≠ .recheck)
    (hidle : s.worker (.static type, i) = .idle) :
    ∃ ls u, u = Calls.getLoop (.static type) i clock
        ((s.list (.wait (.static type))).map Task.id) s ∧
      run step s (.poll (.static type) i :: ls) = some u ∧
      (ls = getSteps clock ((s.list (.wait (.static type))).map Task.id) ++ [.unlock] ∧
          u.worker (.static type, i) = .idle ∨
        ∃ n id, ls = getSteps clock (((s.list (.wait (.static type))).map Task.id).take n) ∧
          u.worker (.static type, i) = .running id) := by
  set ids := (s.list (.wait (.static type))).map Task.id with hids
  have hpoll : step s (.poll (.static type) i) = some (s.setHolder (.get (.static type) i ids)) :=
    if_pos ⟨hfree, hidle, by simpa using htype⟩
  have hwalk : WalkOk s := WalkOk.of_none (congrArg Holder.walked hfree)
  obtain ⟨ls, u, hu, hr, hls⟩ :=
    getLoop_run clock (base_step hb hpoll) (walkOk_step hb.ids hwalk hpoll) rfl
  refine ⟨ls, u, ?_, run_cons.mpr ⟨_, hpoll, hr⟩, hls⟩
  rw [hu]
  apply getLoop_setHolder
  intro id hid
  obtain ⟨p, hp, rfl⟩ := List.mem_map.mp hid
  exact ⟨p, findTask_of_mem hb.ids hp⟩

theorem recheck_run {s : Sched} (answer : ℕ → ℤ) (clock : ℕ → ℕ) (hb : Base s)
    (hfree : s.holder = .free) (hidle : s.worker (.static .recheck, 0) = .idle) :
    run step s (.recheck :: recheckSteps answer clock
      ((s.list (.wait (.static .recheck))).map Task.id) ++ [.unlock]) =
        some (Calls.recheckLoop answer clock ((s.list (.wait (.static .recheck))).map Task.id) s) := by
  set ids := (s.list (.wait (.static .recheck))).map Task.id with hids
  have hstart : step s .recheck = some (s.setHolder (.recheck ids)) := if_pos ⟨hfree, hidle⟩
  have hwalk : WalkOk s := WalkOk.of_none (congrArg Holder.walked hfree)
  have hr := recheckLoop_run answer clock (base_step hb hstart) (walkOk_step hb.ids hwalk hstart) rfl
  refine run_cons.mpr ⟨_, hstart, hr.trans (congrArg some ?_)⟩
  cases hc : ids with
  | nil => rfl
  | cons id rest =>
    have hmem : id ∈ ids := by
      rw [hc]
      exact List.mem_cons_self
    obtain ⟨p, hp, hid⟩ := List.mem_map.mp hmem
    have hf : findTask (s.list (.wait (.static .recheck))) id = some p :=
      hid ▸ findTask_of_mem hb.ids hp
    have hf' : findTask ((s.setHolder (.recheck (id :: rest))).list (.wait (.static .recheck))) id =
        some p := hf
    simp only [Calls.recheckLoop, hf, hf', recheckOne_setHolder]

theorem isWalk_getSteps {clock : ℕ → ℕ} {ids : List ℕ} :
    ∀ l ∈ getSteps clock ids, l.isWalk = true := by
  intro l hl
  obtain ⟨id, -, rfl⟩ := List.mem_map.mp hl
  rfl

section TaskGet
variable {ref : PeonRef} {i : ℕ} {clock : ℕ → ℕ} {others : Sched → Sched} {s₀ u : Sched}
  (hu : u = Calls.getLoop ref i clock (((others s₀).list (.wait ref)).map Task.id) (others s₀))
include hu

theorem taskGet_none (h : u.worker (ref, i) = .idle) :
    Calls.peonTaskGet ref i clock others (false, s₀) = .ok (none, false, u) := by
  unfold Calls.peonTaskGet
  simp only [bind_eq, Locked.lock, Locked.change, Locked.look, Locked.unlock, Bool.false_eq_true,
    if_false, if_true, Except.bind, ← hu, h]
  rfl

theorem taskGet_some {id : ℕ} {p : Task} (h : u.worker (ref, i) = .running id)
    (hp : findTask (u.list (.proc ref)) id = some p) :
    Calls.peonTaskGet ref i clock others (false, s₀) = .ok (some p, false, u) := by
  unfold Calls.peonTaskGet
  simp only [bind_eq, Locked.lock, Locked.change, Locked.look, Locked.unlock, Bool.false_eq_true,
    if_false, if_true, Except.bind, ← hu, h, hp]
  rfl

end TaskGet

/-- `peon_task_get` comes back with no task after it has seen all that wait, or with the task
that its worker has in execution. -/
theorem get_returns {s s₀ : Sched} {type : PeonType} {i : ℕ} {others : Sched → Sched}
    (clock : ℕ → ℕ) (hb : Base s) (hst : Staffed s) (hfree : s.holder = .free)
    (htype : type ≠ .recheck) (hidle : s.worker (.static type, i) = .idle)
    (hothers : others s₀ = s) :
    ∃ ls u, run step s (.poll (.static type) i :: ls) = some u ∧ (∀ l ∈ ls, l.isWalk = true) ∧
      (ls = getSteps clock ((s.list (.wait (.static type))).map Task.id) ++ [.unlock] ∧
          u.worker (.static type, i) = .idle ∧
          Calls.peonTaskGet (.static type) i clock others (false, s₀) = .ok (none, false, u) ∨
        ∃ p ∈ u.list (.proc (.static type)), u.worker (.static type, i) = .running p.id ∧
          Calls.peonTaskGet (.static type) i clock others (false, s₀) = .ok (some p, false, u)) := by
  obtain ⟨ls, u, hu, hrun, hls⟩ := get_run clock hb hfree htype hidle
  have hloop : u = Calls.getLoop (.static type) i clock
      (((others s₀).list (.wait (.static type))).map Task.id) (others s₀) := by
    rw [hu, hothers]
  refine ⟨ls, u, hrun, ?_, ?_⟩
  · rcases hls with ⟨rfl, -⟩ | ⟨n, id, rfl, -⟩
    · intro l hl
      rcases List.mem_append.mp hl with hl | hl
      · exact isWalk_getSteps l hl
      · obtain rfl := List.mem_singleton.mp hl
        rfl
    · exact isWalk_getSteps
  · rcases hls with ⟨hall, hend⟩ | ⟨n, id, -, hend⟩
    · exact Or.inl ⟨hall, hend, taskGet_none hloop hend⟩
    · have hafter : Base u ∧ Staffed u := by
        apply run_invariant (I := fun s => Base s ∧ Staffed s) _ ⟨hb, hst⟩ hrun
        rintro s l s' ⟨hb, h⟩ hs
        exact ⟨base_step hb hs, staffed_step hb h hs⟩
      have htaken : takenBy u (.static type, i) = some (.static type, id) := by
        rw [takenBy, hend]
        rfl
      obtain ⟨p, hp, rfl⟩ := hafter.2.tasks.is_out _ _ htaken
      exact Or.inr ⟨p, hp, hend, taskGet_some hloop hend (findTask_of_mem hafter.1.ids hp)⟩

end NvmeSnsd.ConnPeon
