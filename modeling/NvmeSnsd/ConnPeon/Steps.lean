import NvmeSnsd.ConnPeon.Judge

/-! Everything a step of the scheduler can be. -/
namespace NvmeSnsd.ConnPeon
open Lib

theorem findTask_some {l : List Task} {id : ℕ} {t : Task} (h : findTask l id = some t) :
    t ∈ l ∧ t.id = id :=
  ⟨List.mem_of_find?_eq_some h, by simpa using List.find?_some h⟩

theorem not_live {st : TaskState} (h : st ≠ .live) : st = .dead := by
  cases st with
  | live => exact absurd rfl h
  | dead => rfl

theorem not_dead {st : TaskState} (h : st ≠ .dead) : st = .live := by
  cases st with
  | live => rfl
  | dead => exact absurd rfl h

/-- The state after judging `p` for a worker of `ref`. -/
@[simps -fullyApplied list worker holder log snGen requests nextId nextDyn]
def judged (s : Sched) (ref : PeonRef) (p : Task) : Sched :=
  { s with
    list := judgeLists s.list ref.type p
    log := s.log ++ judgeDead s.list ref.type p }

/-- `p` with its next run put off. -/
def Task.retried (p : Task) (now : ℕ) : Task := { p with nextRun := now+peonFailRetryInterval }

def Task.rechecked (p : Task) : Task := { p with sn := 0 }

def Task.relived (p : Task) (sn now : ℕ) : Task :=
  { p with tm := now, nextRun := 0, sn := sn, state := .live }

/-- The time that `peon_task_get` wants to have passed for `p` has passed. -/
abbrev Due (s : Sched) (ref : PeonRef) (p : Task) (now : ℕ) : Prop :=
  peonTaskRestrainTimeout now p (s.peon ref).restrainTime = true

inductive StepCase (s : Sched) : Label → Sched → Prop
  | request {type param toolbox tm} (htype : type ≠ .recheck) :
    StepCase s (.request type param toolbox tm)
      ((peonTaskAddFill s (peonSnGenerate s.snGen) param toolbox tm
        ⟨type, s.requests.length, false⟩).issue ⟨type, param, peonSnGenerate s.snGen⟩)
  | inherit {b param toolbox tm} (hw : s.worker (.static .dcbatch, 0) = .running b.id)
      (hb : b ∈ s.list (.proc (.static .dcbatch))) (hm : peonTaskMatch param b.param true = true) :
    StepCase s (.inherit param toolbox tm)
      (peonTaskAddFill s b.sn param toolbox tm ⟨.disconn, b.origin.request, true⟩)
  | addFail {t err} (ht : t ∈ s.list .pending) :
    StepCase s (.addFail t.id err) (s.del .pending t.id)
  | add {t create} (hh : s.holder = .free) (ht : t ∈ s.list .pending)
      (hc : create = .noPeon ∨ ¬DynWanted s (.static t.origin.type)) :
    StepCase s (.add t.id create)
      ((((s.del .pending t.id).addTail (.wait (.static t.origin.type)) t).count
        (.static t.origin.type) 1).emit [.added t])
  | addDyn {t} (hh : s.holder = .free) (ht : t ∈ s.list .pending)
      (hc : DynWanted s (.static t.origin.type)) :
    StepCase s (.add t.id .ok) ((peonDynCreate (s.del .pending t.id) t).emit [.added t])
  | addStuck {t} (hh : s.holder = .free) (ht : t ∈ s.list .pending)
      (hc : DynWanted s (.static t.origin.type)) :
    StepCase s (.add t.id .noThread) (s.setHolder .stuck)
  | poll {ref i} (hh : s.holder = .free) (hw : s.worker (ref, i) = .idle)
      (hr : ref ≠ .static .recheck) :
    StepCase s (.poll ref i) (s.setHolder (.get ref i ((s.list (.wait ref)).map (·.id))))
  | getDead {ref i rest p now} (hh : s.holder = .get ref i (p.id :: rest))
      (hp : p ∈ s.list (.wait ref)) (hdead : p.state = .dead) :
    StepCase s (.get now)
      ((((s.del (.wait ref) p.id).free p).count ref (-1)).setHolder (.get ref i rest))
  | getLeave {ref i rest p now} (hh : s.holder = .get ref i (p.id :: rest))
      (hp : p ∈ s.list (.wait ref)) (hlive : p.state = .live)
      (hl : blocked s.list ref.type p = true ∨
        superseded s.list ref.type p = false ∧ ¬Due s ref p now) :
    StepCase s (.get now) ((judged s ref p).setHolder (.get ref i rest))
  | getDiscard {ref i rest p now} (hh : s.holder = .get ref i (p.id :: rest))
      (hp : p ∈ s.list (.wait ref)) (hlive : p.state = .live)
      (hb : blocked s.list ref.type p = false) (hs : superseded s.list ref.type p = true) :
    StepCase s (.get now)
      ((((((judged s ref p).del (.wait ref) p.id).emit (judgeDiscard s.list ref.type p)).free
        p).count ref (-1)).setHolder (.get ref i rest))
  | getPick {ref i rest p now} (hh : s.holder = .get ref i (p.id :: rest))
      (hp : p ∈ s.list (.wait ref)) (hlive : p.state = .live)
      (hb : blocked s.list ref.type p = false) (hs : superseded s.list ref.type p = false)
      (hd : Due s ref p now) :
    StepCase s (.get now)
      (((((judged s ref p).del (.wait ref) p.id).addTail (.proc ref) p).setWorker ref i
        (.running p.id)).setHolder .free)
  | handle {ref i p ret} (hw : s.worker (ref, i) = .running p.id) (hp : p ∈ s.list (.proc ref))
      (hret : p.toolbox.handle = true ∨ ret = 0) :
    StepCase s (.handle ref i ret) ((s.setWorker ref i (.handled p.id ret)).emit [.handled p ret])
  | completeRetry {ref i p ret now} (hh : s.holder = .free)
      (hw : s.worker (ref, i) = .handled p.id ret) (hp : p ∈ s.list (.proc ref))
      (hlive : p.state = .live) (hret : ret ≠ 0) :
    StepCase s (.complete ref i now)
      ((((s.del (.proc ref) p.id).addTail (.wait ref) (p.retried now)).count ref (-1)).setWorker
        ref i (afterRound ref))
  | completeRecheck {ref i p ret now} (hh : s.holder = .free)
      (hw : s.worker (ref, i) = .handled p.id ret) (hp : p ∈ s.list (.proc ref))
      (hlive : p.state = .live) (hret : ret = 0) (hc : ref.type = .connect) :
    StepCase s (.complete ref i now)
      ((((s.del (.proc ref) p.id).addTail (.wait (.static .recheck)) p.rechecked).count ref
        (-1)).setWorker ref i (afterRound ref))
  | completeFree {ref i p ret now} (hh : s.holder = .free)
      (hw : s.worker (ref, i) = .handled p.id ret) (hp : p ∈ s.list (.proc ref))
      (hf : p.state = .dead ∨ ret = 0 ∧ ref.type ≠ .connect) :
    StepCase s (.complete ref i now)
      ((((s.del (.proc ref) p.id).free p).count ref (-1)).setWorker ref i (afterRound ref))
  | recheck (hh : s.holder = .free) (hw : s.worker (.static .recheck, 0) = .idle) :
    StepCase s .recheck
      (s.setHolder (.recheck ((s.list (.wait (.static .recheck))).map (·.id))))
  | recheckDrop {rest p ret now} (hh : s.holder = .recheck (p.id :: rest))
      (hp : p ∈ s.list (.wait (.static .recheck)))
      (hd : p.state = .dead ∨ p.toolbox.recheck = false) :
    StepCase s (.recheckOne ret now)
      (((s.del (.wait (.static .recheck)) p.id).free p).setHolder (.recheck rest))
  | recheckKeep {rest p ret now} (hh : s.holder = .recheck (p.id :: rest))
      (hp : p ∈ s.list (.wait (.static .recheck))) (hret : ret = 0) :
    StepCase s (.recheckOne ret now) (s.setHolder (.recheck rest))
  | relive {rest p ret now} (hh : s.holder = .recheck (p.id :: rest))
      (hp : p ∈ s.list (.wait (.static .recheck))) (hlive : p.state = .live)
      (hc : p.toolbox.recheck = true) (hret : ret ≠ 0) :
    StepCase s (.recheckOne ret now)
      (((((s.setGen (peonSnGenerate s.snGen)).del (.wait (.static .recheck)) p.id).addTail
        (.wait (.static .connect)) (p.relived (peonSnGenerate s.snGen) now)).emit
        [.relived (p.relived (peonSnGenerate s.snGen) now)]).setHolder (.recheck rest))
  | unlockGet {ref i} (hh : s.holder = .get ref i []) :
    StepCase s .unlock ((s.setHolder .free).setWorker ref i (afterRound ref))
  | unlockRecheck (hh : s.holder = .recheck []) : StepCase s .unlock (s.setHolder .free)
  | deconstruct {k} (hh : s.holder = .free) (hw : s.worker (.dyn k, 0) = .leaving) :
    StepCase s (.deconstruct k)
      (((s.setList (Function.update s.list (.wait (.dyn k)) [])).emit
        ((s.list (.wait (.dyn k))).map .freed)).setWorker (.dyn k) 0 .exiting)
  | exit {k} (hh : s.holder = .free) (hw : s.worker (.dyn k, 0) = .exiting) :
    StepCase s (.exit k) { s.setWorker (.dyn k) 0 .absent with dynWorkerNum := s.dynWorkerNum-1 }

theorem addStep_cases {s s' : Sched} {id : ℕ} {create : DynCreate}
    (h : addStep s id create = some s') : StepCase s (.add id create) s' := by
  rw [addStep] at h
  split at h
  · rename_i hh
    obtain ⟨t, hf, rfl⟩ := Option.map_eq_some_iff.mp h
    obtain ⟨ht, rfl⟩ := findTask_some hf
    unfold peonTaskAddLocked
    dsimp only
    by_cases hc : DynWanted s (.static t.origin.type)
    · rw [if_pos hc]
      cases create with
      | ok => exact .addDyn hh ht hc
      | noPeon => exact .add hh ht (.inl rfl)
      | noThread => exact .addStuck hh ht hc
    · rw [if_neg hc]
      exact .add hh ht (.inr hc)
  · cases h

theorem getStep_cases {s s' : Sched} {now : ℕ} (h : getStep s now = some s') :
    StepCase s (.get now) s' := by
  rw [getStep] at h
  split at h
  · rename_i ref i id rest hh
    obtain ⟨p, hf, rfl⟩ := Option.map_eq_some_iff.mp h
    obtain ⟨hp, rfl⟩ := findTask_some hf
    rw [peonTaskGetOne, peonTaskActionJudge_eq]
    cases hst : p.state with
    | dead => exact .getDead hh hp hst
    | live =>
      rw [if_neg nofun]
      dsimp only
      split
      · rename_i hb
        exact .getLeave hh hp hst (.inl hb)
      · rename_i hb
        split
        · rename_i hs
          exact .getDiscard hh hp hst (by simpa using hb) hs
        · rename_i hs
          split
          · rename_i hd
            exact .getPick hh hp hst (by simpa using hb) (by simpa using hs) hd
          · rename_i hd
            exact .getLeave hh hp hst (.inr ⟨by simpa using hs, hd⟩)
  · cases h

theorem completeStep_cases {s s' : Sched} {ref : PeonRef} {i now : ℕ}
    (h : completeStep s ref i now = some s') : StepCase s (.complete ref i now) s' := by
  rw [completeStep] at h
  split at h
  · rename_i id ret hh hw
    obtain ⟨p, hf, rfl⟩ := Option.map_eq_some_iff.mp h
    obtain ⟨hp, rfl⟩ := findTask_some hf
    rw [peonTaskComplete]
    by_cases hst : p.state = .live
    · rw [if_pos hst]
      split
      · rename_i hr
        exact .completeRetry hh hw hp hst hr
      · rename_i hr
        split
        · rename_i hc
          exact .completeRecheck hh hw hp hst (not_ne_iff.mp hr) hc
        · rename_i hc
          exact .completeFree hh hw hp (.inr ⟨not_ne_iff.mp hr, hc⟩)
    · rw [if_neg hst]
      exact .completeFree hh hw hp (.inl (not_live hst))
  · cases h

theorem recheckOneStep_cases {s s' : Sched} {ret : ℤ} {now : ℕ}
    (h : recheckOneStep s ret now = some s') : StepCase s (.recheckOne ret now) s' := by
  rw [recheckOneStep] at h
  split at h
  · rename_i id rest hh
    obtain ⟨p, hf, rfl⟩ := Option.map_eq_some_iff.mp h
    obtain ⟨hp, rfl⟩ := findTask_some hf
    rw [peonRunRecheckOne]
    split
    · rename_i hd
      exact .recheckDrop hh hp (by simpa using hd)
    · rename_i hd
      obtain ⟨hlive, hc⟩ : p.state = .live ∧ p.toolbox.recheck = true := by
        cases hst : p.state <;> simp_all
      split
      · rename_i hr
        exact .recheckKeep hh hp hr
      · rename_i hr
        exact .relive hh hp hlive hc hr
  · cases h

theorem step_cases {s s' : Sched} {l : Label} (h : step s l = some s') : StepCase s l s' := by
  cases l with
  | request type param toolbox tm =>
    rw [step, requestStep] at h
    split at h
    · cases h
    · rename_i htype
      obtain rfl := Option.some.inj h
      exact .request htype
  | inherit param toolbox tm =>
    rw [step, inheritStep] at h
    split at h
    · rename_i id hw
      obtain ⟨b, hf, hs⟩ := Option.bind_eq_some_iff.mp h
      obtain ⟨hb, rfl⟩ := findTask_some hf
      split at hs
      · rename_i hm
        obtain rfl := Option.some.inj hs
        exact .inherit hw hb hm.1
      · cases hs
    · cases h
  | addFail id err =>
    rw [step, addFailStep] at h
    obtain ⟨t, hf, hs⟩ := Option.bind_eq_some_iff.mp h
    obtain ⟨ht, rfl⟩ := findTask_some hf
    split at hs
    · obtain rfl := Option.some.inj hs
      exact .addFail ht
    · cases hs
  | add id create => exact addStep_cases h
  | poll ref i =>
    rw [step, pollStep] at h
    split at h
    · rename_i hc
      obtain rfl := Option.some.inj h
      exact .poll hc.1 hc.2.1 hc.2.2
    · cases h
  | get now => exact getStep_cases h
  | handle ref i ret =>
    rw [step, handleStep] at h
    split at h
    · rename_i id hw
      obtain ⟨p, hf, hs⟩ := Option.bind_eq_some_iff.mp h
      obtain ⟨hp, rfl⟩ := findTask_some hf
      split at hs
      · rename_i hc
        obtain rfl := Option.some.inj hs
        exact .handle hw hp hc.1
      · cases hs
    · cases h
  | complete ref i now => exact completeStep_cases h
  | recheck =>
    rw [step, recheckStep] at h
    split at h
    · rename_i hc
      obtain rfl := Option.some.inj h
      exact .recheck hc.1 hc.2
    · cases h
  | recheckOne ret now => exact recheckOneStep_cases h
  | unlock =>
    rw [step, unlockStep] at h
    split at h
    · rename_i ref i hh
      obtain rfl := Option.some.inj h
      exact .unlockGet hh
    · rename_i hh
      obtain rfl := Option.some.inj h
      exact .unlockRecheck hh
    · cases h
  | deconstruct k =>
    rw [step, deconstructStep] at h
    split at h
    · rename_i hc
      obtain rfl := Option.some.inj h
      exact .deconstruct hc.1 hc.2
    · cases h
  | exit k =>
    rw [step, exitStep] at h
    split at h
    · rename_i hc
      obtain rfl := Option.some.inj h
      exact .exit hc.1 hc.2
    · cases h

end NvmeSnsd.ConnPeon
