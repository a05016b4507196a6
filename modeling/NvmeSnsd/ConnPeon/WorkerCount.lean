import NvmeSnsd.ConnPeon.Invariant

/-! The counter of a peon against the tasks in its two lists. -/
namespace NvmeSnsd.ConnPeon
open Lib

/-- The tasks that a peon has in its lists. -/
def tasksOf (l : Lists) (ref : PeonRef) : ℤ :=
  ((l (.wait ref)).length + (l (.proc ref)).length : ℕ)

/-- The counters of the three peons that `peon_task_add` is called for. -/
def CountsTasks (s : Sched) : Prop :=
  ∀ type : PeonType, type ≠ .recheck →
    (s.peon (.static type)).workerAllCount = tasksOf s.list (.static type)

/-- What a task in the list adds to the tasks of a peon. -/
def ListRef.weight (r : ListRef) (ref : PeonRef) : ℤ :=
  match r with
  | .pending => 0
  | .wait x | .proc x => if x = ref then 1 else 0

@[simp] theorem weight_pending (ref : PeonRef) : ListRef.pending.weight ref = 0 := rfl

@[simp] theorem weight_wait (x ref : PeonRef) :
    (ListRef.wait x).weight ref = if x = ref then 1 else 0 := rfl

@[simp] theorem weight_proc (x ref : PeonRef) :
    (ListRef.proc x).weight ref = if x = ref then 1 else 0 := rfl

section Tasks
variable {l : Lists} {ref : PeonRef} {t : Task} {r : ListRef}

theorem tasksOf_addTail : tasksOf (listAddTail l r t) ref = tasksOf l ref + r.weight ref := by
  unfold tasksOf listAddTail
  cases r with
  | pending => simp
  | wait x =>
    by_cases hx : x = ref
    · subst hx
      simp
      omega
    · rw [Function.update_of_ne (by simpa using Ne.symm hx),
        Function.update_of_ne (by simp), weight_wait, if_neg hx, add_zero]
  | proc x =>
    by_cases hx : x = ref
    · subst hx
      simp
      omega
    · rw [Function.update_of_ne (by simp),
        Function.update_of_ne (by simpa using Ne.symm hx), weight_proc, if_neg hx, add_zero]

theorem dropTask_length {ts : List Task} (hn : (ts.map Task.id).Nodup) (ht : t ∈ ts) :
    (dropTask ts t.id).length + 1 = ts.length := by
  obtain ⟨a, b, rfl⟩ := List.append_of_mem ht
  rw [List.map_append, List.map_cons, List.nodup_append] at hn
  obtain ⟨-, hb, hab⟩ := hn
  have hkeep (c : List Task) (hc : ∀ x ∈ c, x.id ≠ t.id) : dropTask c t.id = c := by
    apply List.filter_eq_self.mpr
    intro x hx
    simpa using hc x hx
  have hda := hkeep a fun x hx => hab _ (List.mem_map_of_mem hx) _ List.mem_cons_self
  have hdb := hkeep b fun x hx he =>
    (List.nodup_cons.mp hb).1 (he ▸ List.mem_map_of_mem hx)
  have hdrop : dropTask (a ++ t :: b) t.id = dropTask a t.id ++ dropTask b t.id := by
    simp [dropTask]
  rw [hdrop, hda, hdb]
  simp
  omega

theorem tasksOf_del {n : ℕ} (h : Ids l n) (ht : t ∈ l r) :
    tasksOf (listDel l r t.id) ref = tasksOf l ref - r.weight ref := by
  have hlen := dropTask_length (h.nodup r) ht
  unfold tasksOf listDel
  cases r with
  | pending => simp
  | wait x =>
    by_cases hx : x = ref
    · subst hx
      simp
      omega
    · rw [Function.update_of_ne (by simpa using Ne.symm hx),
        Function.update_of_ne (by simp), weight_wait, if_neg hx, sub_zero]
  | proc x =>
    by_cases hx : x = ref
    · subst hx
      simp
      omega
    · rw [Function.update_of_ne (by simp),
        Function.update_of_ne (by simpa using Ne.symm hx), weight_proc, if_neg hx, sub_zero]

theorem tasksOf_judge (type : PeonType) (p : Task) :
    tasksOf (judgeLists l type p) ref = tasksOf l ref := by
  unfold tasksOf judgeLists
  rw [List.length_map, List.length_map]

end Tasks

/-- The result of a worker of the three peons is a success or comes too late, and
no pass of the recheck peon finds a device missing. -/
def NoneAgain (s : Sched) : Label → Prop
  | .complete (.static type) i _ => ∀ id ret, s.worker (.static type, i) = .handled id ret →
      ∀ p ∈ s.list (.proc (.static type)), p.id = id → p.state = .live → ret = 0
  | .recheckOne ret _ => ∀ id rest, s.holder = .recheck (id :: rest) →
      ∀ p ∈ s.list (.wait (.static .recheck)), p.id = id → p.state = .live →
        p.toolbox.recheck = true → ret = 0
  | _ => True

theorem count_count (s : Sched) (ref x : PeonRef) (d : ℤ) :
    ((s.count ref d).peon x).workerAllCount =
      (s.peon x).workerAllCount + if ref = x then d else 0 := by
  unfold Sched.count
  by_cases hx : x = ref
  · subst hx
    simp
  · dsimp only
    rw [Function.update_of_ne hx, if_neg (Ne.symm hx), add_zero]

/-- One step keeps the counters, unless it puts a task back. -/
theorem countsTasks_step {s s' : Sched} {l : Label} (hi : Ids s.list s.nextId)
    (h : CountsTasks s) (hok : NoneAgain s l) (hs : step s l = some s') : CountsTasks s' := by
  intro type htype
  have hc := h type htype
  cases step_cases hs with
  | request | inherit =>
    refine hc.trans ?_
    change _ = tasksOf (listAddTail _ .pending _) _
    rw [tasksOf_addTail, weight_pending, add_zero]
  | addFail ht =>
    refine hc.trans ?_
    change _ = tasksOf (listDel _ .pending _) _
    rw [tasksOf_del hi ht, weight_pending, sub_zero]
  | @add t create hh ht =>
    change ((Sched.count _ _ 1).peon _).workerAllCount =
      tasksOf (listAddTail (listDel _ _ _) _ _) _
    rw [count_count, tasksOf_addTail, tasksOf_del hi ht]
    change (s.peon _).workerAllCount + _ = _
    rw [hc]
    simp
  | @addDyn t hh ht =>
    change (s.peon (.static type)).workerAllCount = tasksOf (listAddTail (listDel _ _ _) _ _) _
    rw [tasksOf_addTail, tasksOf_del hi ht, hc]
    simp
  | addStuck | poll | handle | recheck | recheckKeep | unlockGet | unlockRecheck | exit => exact hc
  | getDead hh hp =>
    change ((Sched.count _ _ (-1)).peon _).workerAllCount = tasksOf (listDel _ _ _) _
    rw [count_count, tasksOf_del hi hp]
    change (s.peon _).workerAllCount + _ = _
    rw [hc]
    simp only [weight_wait]
    split <;> omega
  | getLeave => exact hc.trans (tasksOf_judge _ _).symm
  | @getDiscard ref i rest p now hh hp =>
    change ((Sched.count _ _ (-1)).peon _).workerAllCount = tasksOf (listDel _ _ _) _
    rw [count_count]
    change (s.peon _).workerAllCount + _ = tasksOf (listDel (judgeLists _ _ _) _ _) _
    rw [tasksOf_del (hi.judge ref.type p) (mem_judged_self hp), tasksOf_judge, hc]
    simp only [weight_wait]
    split <;> omega
  | @getPick ref i rest p now hh hp =>
    change (s.peon _).workerAllCount = tasksOf (listAddTail (listDel (judgeLists _ _ _) _ _) _ _) _
    rw [tasksOf_addTail, tasksOf_del (hi.judge ref.type p) (mem_judged_self hp), tasksOf_judge, hc]
    simp only [weight_wait, weight_proc]
    omega
  | @completeRetry ref i p ret now hh hw hp hlive hret =>
    cases ref with
    | static x => exact absurd (hok _ _ hw _ hp rfl hlive) hret
    | dyn k =>
      -- the task waits for its next try in a peon that is not among the three
      change ((Sched.count _ _ (-1)).peon _).workerAllCount =
        tasksOf (listAddTail (listDel _ _ _) _ _) _
      rw [count_count, tasksOf_addTail, tasksOf_del hi hp]
      change (s.peon _).workerAllCount + _ = _
      rw [hc]
      simp
  | @completeRecheck ref i p ret now hh hw hp =>
    change ((Sched.count _ _ (-1)).peon _).workerAllCount =
      tasksOf (listAddTail (listDel _ _ _) _ _) _
    rw [count_count, tasksOf_addTail, tasksOf_del hi hp]
    change (s.peon _).workerAllCount + _ = _
    have hne : PeonRef.static .recheck ≠ .static type := fun he => htype (PeonRef.static.inj he).symm
    rw [hc]
    simp only [weight_wait, weight_proc, if_neg hne]
    split <;> omega
  | @completeFree ref i p ret now hh hw hp =>
    change ((Sched.count _ _ (-1)).peon _).workerAllCount = tasksOf (listDel _ _ _) _
    rw [count_count, tasksOf_del hi hp]
    change (s.peon _).workerAllCount + _ = _
    rw [hc]
    simp only [weight_proc]
    split <;> omega
  | recheckDrop hh hp =>
    change (s.peon _).workerAllCount = tasksOf (listDel _ _ _) _
    have hne : PeonRef.static .recheck ≠ .static type := fun he => htype (PeonRef.static.inj he).symm
    rw [tasksOf_del hi hp, hc]
    simp only [weight_wait, if_neg hne, sub_zero]
  | relive hh hp hlive hcheck hret =>
    exact absurd (hok _ _ hh _ hp rfl hlive hcheck) hret
  | @deconstruct k =>
    refine hc.trans ?_
    change _ = tasksOf (Function.update s.list (.wait (.dyn k)) []) _
    unfold tasksOf
    simp

/-- As long as no task is put back, each counter is the number of tasks in the
lists of its peon. -/
theorem counts_tasks (cfgRestrainTime : ℕ) (ls : List Label) (s : Sched)
    (hok : RunMeets step NoneAgain (Sched.init cfgRestrainTime) ls)
    (hr : run step (Sched.init cfgRestrainTime) ls = some s) : CountsTasks s := by
  have hinv : Ids s.list s.nextId ∧ CountsTasks s := by
    apply run_meets_invariant (I := fun s => Ids s.list s.nextId ∧ CountsTasks s) _ _ hok hr
    · exact fun s l s' h hok hs => ⟨ids_step h.1 hs, countsTasks_step h.1 h.2 hok hs⟩
    · refine ⟨(base_init cfgRestrainTime).ids, fun type _ => ?_⟩
      cases type <;> rfl
  exact hinv.2

/-- A connect that is tried once and succeeds. -/
theorem counts_tasks_sample :
    ∃ ls s, run step (Sched.init 3) ls = some s ∧ s.list (.wait (.static .recheck)) ≠ [] ∧
      CountsTasks s := by
  let ls : List Label := [.request .connect sampleParam sampleToolbox 0, .add 0 .ok,
    .poll (.static .connect) 0, .get 5, .handle (.static .connect) 0 0,
    .complete (.static .connect) 0 6]
  obtain ⟨s, hs⟩ : ∃ s, run step (Sched.init 3) ls = some s := ⟨_, rfl⟩
  refine ⟨ls, s, hs, ?_, counts_tasks 3 ls s ?_ hs⟩
  · obtain rfl := Option.some.inj hs
    decide
  · refine ⟨trivial, fun s₁ h₁ => ⟨trivial, fun s₂ h₂ => ⟨trivial, fun s₃ h₃ => ⟨trivial,
      fun s₄ h₄ => ⟨trivial, fun s₅ h₅ => ⟨?_, fun _ _ => trivial⟩⟩⟩⟩⟩⟩
    obtain rfl := Option.some.inj h₁
    obtain rfl := Option.some.inj h₂
    obtain rfl := Option.some.inj h₃
    obtain rfl := Option.some.inj h₄
    obtain rfl := Option.some.inj h₅
    intro id ret hw
    cases hw
    exact fun _ _ _ _ => rfl

/-- A connect that fails waits for its next try, and is not counted. -/
theorem retry_not_counted :
    ¬∀ cfgRestrainTime ls s, run step (Sched.init cfgRestrainTime) ls = some s →
      CountsTasks s := by
  intro h
  let ls : List Label := [.request .connect sampleParam sampleToolbox 0, .add 0 .ok,
    .poll (.static .connect) 0, .get 5, .handle (.static .connect) 0 (-5),
    .complete (.static .connect) 0 6]
  have hcount := h 3 ls _ rfl .connect (by decide)
  exact absurd hcount (by decide)

/-! The counter of dynamic workers. -/

/-- The dynamic peons whose worker thread has not counted itself out. -/
def dynThreads (s : Sched) : Finset ℕ :=
  (Finset.range s.nextDyn).filter fun k => s.worker (.dyn k, 0) ≠ .absent

theorem mem_dynThreads {s : Sched} (hd : DynWorkers s) {k : ℕ} :
    k ∈ dynThreads s ↔ s.worker (.dyn k, 0) ≠ .absent := by
  rw [dynThreads, Finset.mem_filter, Finset.mem_range]
  exact ⟨fun h => h.2, fun h => ⟨hd.lt rfl h, h⟩⟩

/-- `peon_dyn_worker_num` is the number of these threads, which has a bound. -/
structure CountsThreads (s : Sched) : Prop where
  count : s.dynWorkerNum = (dynThreads s).card
  bound : s.dynWorkerNum ≤ peonDynDisconnWorkerLimit+1

/-- Whoever is there stays there, and nobody comes. -/
theorem CountsThreads.of_same {s s' : Sched} (h : CountsThreads s)
    (hn : s'.dynWorkerNum = s.dynWorkerNum) (hd : s'.nextDyn = s.nextDyn)
    (hw : ∀ k, s'.worker (.dyn k, 0) = .absent ↔ s.worker (.dyn k, 0) = .absent) :
    CountsThreads s' := by
  have hset : dynThreads s' = dynThreads s := by
    ext k
    simp only [dynThreads, Finset.mem_filter, hd, ne_eq, hw]
  exact ⟨by rw [hn, hset, h.count], hn ▸ h.bound⟩

/-- A worker that is there goes on to `w`, and is still there. -/
theorem absent_update_iff {f : PeonRef × ℕ → Worker} {x y : PeonRef × ℕ} {w : Worker}
    (hx : f x ≠ .absent) (hw : w ≠ .absent) :
    Function.update f x w y = .absent ↔ f y = .absent := by
  by_cases hy : y = x
  · subst hy
    rw [Function.update_self]
    exact iff_of_false hw hx
  · rw [Function.update_of_ne hy]

theorem afterRound_ne_absent (ref : PeonRef) : afterRound ref ≠ .absent := by
  cases ref <;> simp [afterRound]

theorem countsThreads_step {s s' : Sched} {l : Label} (hb : Base s) (h : CountsThreads s)
    (hs : step s l = some s') : CountsThreads s' := by
  have hd : DynWorkers s' := (base_step hb hs).dyn
  cases step_cases hs with
  | request | inherit | addFail | add | addStuck | poll | getDead | getLeave | getDiscard |
    recheck | recheckDrop | recheckKeep | relive | unlockRecheck =>
    exact h.of_same rfl rfl fun _ => Iff.rfl
  | getPick hh | unlockGet hh =>
    have hidle := (hb.workers.holder _ _ _ hh).1
    exact h.of_same rfl rfl fun _ => absent_update_iff (hidle ▸ by simp)
      (by first | exact afterRound_ne_absent _ | simp)
  | handle hw => exact h.of_same rfl rfl fun _ => absent_update_iff (hw ▸ by simp) (by simp)
  | completeRetry _ hw | completeRecheck _ hw | completeFree _ hw =>
    exact h.of_same rfl rfl fun _ => absent_update_iff (hw ▸ by simp) (afterRound_ne_absent _)
  | deconstruct _ hw =>
    exact h.of_same rfl rfl fun _ => absent_update_iff (hw ▸ by simp) (by simp)
  | @addDyn t hh ht hc =>
    -- one more, and there were not too many yet
    have hnone : s.nextDyn ∉ dynThreads s := by
      rw [mem_dynThreads hb.dyn, not_not]
      exact (hb.dyn.fresh s.nextDyn le_rfl).1
    have hset : dynThreads ((peonDynCreate (s.del .pending t.id) t).emit [.added t]) =
        insert s.nextDyn (dynThreads s) := by
      ext k
      rw [mem_dynThreads hd, Finset.mem_insert, mem_dynThreads hb.dyn]
      change Function.update s.worker (.dyn s.nextDyn, 0) .idle (.dyn k, 0) ≠ .absent ↔ _
      by_cases hk : k = s.nextDyn
      · subst hk
        simp
      · rw [Function.update_of_ne (by simpa using hk)]
        simp [hk]
    refine ⟨?_, Nat.succ_le_succ hc.2.2⟩
    rw [hset, Finset.card_insert_of_notMem hnone, ← h.count]
    rfl
  | @exit k hh hw =>
    have hthere : k ∈ dynThreads s := by
      rw [mem_dynThreads hb.dyn, hw]
      simp
    have hset : dynThreads { s.setWorker (.dyn k) 0 .absent with
        dynWorkerNum := s.dynWorkerNum-1 } = (dynThreads s).erase k := by
      ext j
      rw [mem_dynThreads hd, Finset.mem_erase, mem_dynThreads hb.dyn]
      change Function.update s.worker (.dyn k, 0) .absent (.dyn j, 0) ≠ .absent ↔ _
      by_cases hj : j = k
      · subst hj
        simp
      · rw [Function.update_of_ne (by simpa using hj)]
        simp [hj]
    refine ⟨?_, (Nat.sub_le _ _).trans h.bound⟩
    rw [hset, Finset.card_erase_of_mem hthere, ← h.count]

/-- In every run the counter of dynamic workers is the number of their threads, which is 513 at
most, so that it is not counted down below zero. -/
theorem counts_threads (cfgRestrainTime : ℕ) (ls : List Label) (s : Sched)
    (hr : run step (Sched.init cfgRestrainTime) ls = some s) :
    CountsThreads s ∧ ∀ k i, s.worker (.dyn k, i) = .exiting → 0 < s.dynWorkerNum := by
  have hinv : Base s ∧ CountsThreads s := by
    apply run_invariant (I := fun s => Base s ∧ CountsThreads s) _ _ hr
    · rintro s l s' ⟨hb, h⟩ hs
      exact ⟨base_step hb hs, countsThreads_step hb h hs⟩
    · exact ⟨base_init cfgRestrainTime, rfl, Nat.zero_le _⟩
  obtain ⟨hb, h⟩ := hinv
  refine ⟨h, fun k i hw => ?_⟩
  obtain rfl := hb.dyn.zero hw (by simp)
  rw [h.count, Finset.card_pos]
  exact ⟨k, (mem_dynThreads hb.dyn).mpr (by rw [hw]; simp)⟩

/-- Seventeen disconnects, the last of which has a peon of its own. -/
theorem counts_threads_sample :
    ∃ ls s, run step (Sched.init 3) ls = some s ∧ s.dynWorkerNum = 1 ∧
      CountsThreads s ∧ ∀ k i, s.worker (.dyn k, i) = .exiting → 0 < s.dynWorkerNum := by
  let ls : List Label := (List.range 17).flatMap fun id =>
    [.request .disconn sampleParam sampleToolbox 0, .add id .ok]
  obtain ⟨s, hs⟩ : ∃ s, run step (Sched.init 3) ls = some s := ⟨_, rfl⟩
  refine ⟨ls, s, hs, ?_, counts_threads 3 ls s hs⟩
  obtain rfl := Option.some.inj hs
  decide

end NvmeSnsd.ConnPeon
