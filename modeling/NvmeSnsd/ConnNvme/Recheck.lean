import NvmeSnsd.ConnPeon.History
import NvmeSnsd.ConnNvme.Call

/-! The scheduler with the contexts of its connect tasks, the calls of
`snsd_nvme_connect` and `snsd_nvme_recheck`, and the controllers that come and go. -/
namespace NvmeSnsd.ConnNvme
open Lib ConnPeon

/-- `connect_toolbox` of a template. -/
def connectToolbox : ConnToolbox := ⟨true, true, true⟩

/-- The scheduler, the contexts of the tasks by their addresses, where the calls for
them stand, and the directories of the class. -/
structure Host where
  sched : Sched
  ctx : ℕ → Ctx
  call : ℕ → Call
  sysfs : List SysCtrl

def Host.init (cfgRestrainTime : ℕ) (sysfs : List SysCtrl) : Host where
  sched := Sched.init cfgRestrainTime
  ctx := fun _ => Ctx.zero
  call := fun _ => .start
  sysfs := sysfs

/-- A step of the scheduler, of the call that the connect worker makes, or of the
kernel. -/
inductive HostLabel
  | sched (l : Label)
  | call (i : ℕ) (l : CallLabel)
  | remove (dname : Bytes)
  | create (c : SysCtrl)
  | state (dname : Bytes) (state : Option Bytes)

/-- `recheck` is called for the task, which a pass does not discard. -/
abbrev IsRechecked (p : Task) : Prop := p.state = .live ∧ p.toolbox.recheck = true

/-- What becomes of the contexts and the calls in a step of the scheduler; none
where the functions of the toolbox do not let it come to the step. -/
def schedEffect (ntop : Ntop) (s : Host) : Label → Option ((ℕ → Ctx) × (ℕ → Call))
  | .request .connect param toolbox _ =>
    if toolbox = connectToolbox then
      some (Function.update s.ctx s.sched.nextId ((snsdNvmeCtxNessaryInit ntop param).getD Ctx.zero),
        s.call)
    else none
  | .add id _ =>
    -- without a context the task has been freed again
    if ∀ t ∈ s.sched.list .pending, t.id = id → t.origin.type = .connect →
        (snsdNvmeCtxNessaryInit ntop t.param).isSome then some (s.ctx, s.call)
    else none
  | .handle (.static .connect) i ret =>
    match s.sched.worker (.static .connect, i) with
    | .running id => if s.call id = .returns ret then some (s.ctx, s.call) else none
    | _ => none
  | .complete (.static .connect) i _ =>
    match s.sched.worker (.static .connect, i) with
    | .handled id _ => some (s.ctx, Function.update s.call id .start)
    | _ => none
  | .recheckOne ret _ =>
    match s.sched.holder with
    | .recheck (id :: _) =>
      (findTask (s.sched.list (.wait (.static .recheck))) id).bind fun p =>
        if IsRechecked p then
          if ret = snsdNvmeRecheck s.sysfs (s.ctx id) then
            some (if ret = 0 then s.ctx
              else Function.update s.ctx id (snsdNvmeCtxReinit (s.ctx id)), s.call)
          else none
        else some (s.ctx, s.call)
    | _ => none
  | _ => some (s.ctx, s.call)

/-- The instance number that the kernel gives next: the lowest one that is free, which
is not beyond the number of the controllers. -/
def freeInstance (sysfs : List SysCtrl) : Option ℕ :=
  (lowestFree (fun n => sysfs.any fun c => c.dname = nvmeName n) (sysfs.length+1)).filter (· < 2^31)

def hostStep (ntop : Ntop) (s : Host) : HostLabel → Option Host
  | .sched l =>
    (schedEffect ntop s l).bind fun e =>
      (step s.sched l).map fun t => { s with sched := t, ctx := e.1, call := e.2 }
  | .call i l =>
    match s.sched.worker (.static .connect, i) with
    | .running id =>
      (callStep s.sysfs (s.ctx id) (s.call id) l).map fun r =>
        { s with ctx := Function.update s.ctx id r.1, call := Function.update s.call id r.2 }
    | _ => none
  | .remove dname => some { s with sysfs := s.sysfs.filter fun c => c.dname != dname }
  | .create c =>
    (freeInstance s.sysfs).map fun n => { s with sysfs := s.sysfs ++ [{ c with dname := nvmeName n }] }
  | .state dname state =>
    some { s with sysfs := s.sysfs.map fun c => if c.dname = dname then { c with state := state } else c }

/-- A pass keeps a live task only when a controller matches its context. -/
def RecheckSound (ntop : Ntop) (s : Host) : Prop :=
  ∀ ret now s', hostStep ntop s (.sched (.recheckOne ret now)) = some s' →
    ∀ id rest, s.sched.holder = .recheck (id :: rest) →
      ∀ p ∈ s'.sched.list (.wait (.static .recheck)), p.id = id → p.state = .live →
        ∃ c ∈ s.sysfs, CtrlMatches (s.ctx id) c

/-- Only a matching controller is given a name that a live task of the recheck list has
in its context, or that the call for a live connect task is reading or has taken. -/
def NameKept (s : Host) : HostLabel → Prop
  | .create c =>
    match freeInstance s.sysfs with
    | some n =>
      (∀ p ∈ s.sched.list (.wait (.static .recheck)), p.state = .live →
        (s.ctx p.id).dname.text = nvmeName n → CtrlMatches (s.ctx p.id) c) ∧
      ∀ p ∈ s.sched.list (.proc (.static .connect)), p.state = .live →
        (s.call p.id).name (s.ctx p.id) = some (nvmeName n) → CtrlMatches (s.ctx p.id) c
    | none => True
  | _ => True

instance (s : Host) (l : HostLabel) : Decidable (NameKept s l) := by
  unfold NameKept
  split
  · split
    · infer_instance
    · infer_instance
  · infer_instance

/-! The scheduler, back over a step. -/

section Back
variable {s t : Sched} {l : Label}

/-- Who is being connected was so before, or has just been picked, with no other in
execution. -/
theorem proc_back (hb : Base s) (hs : step s l = some t) {p : Task}
    (hp : p ∈ t.list (.proc (.static .connect))) (hl : p.state = .live) :
    p ∈ s.list (.proc (.static .connect)) ∨ connectIds s.list = [] := by
  cases step_cases hs with
  | request | inherit | addFail | add | addDyn | getDead | completeRetry | completeRecheck |
    completeFree | recheckDrop | relive | deconstruct =>
    simp [mem_listAddTail, mem_listDel] at hp
    tauto
  | getLeave => exact Or.inl (mem_judgeLists_live hp hl).1
  | @getDiscard ref i rest q =>
    have hp : p ∈ listDel (judgeLists s.list ref.type q) (.wait ref) q.id
        (.proc (.static .connect)) := hp
    exact Or.inl (mem_judgeLists_live (mem_listDel.mp hp).1 hl).1
  | @getPick ref i rest q now hh =>
    rcases mem_listAddTail.mp hp with hp | ⟨he, -⟩
    · have hp : p ∈ listDel (judgeLists s.list ref.type q) (.wait ref) q.id
          (.proc (.static .connect)) := hp
      exact Or.inl (mem_judgeLists_live (mem_listDel.mp hp).1 hl).1
    · cases he
      exact Or.inr (hb.workers.connect_zero (hb.workers.holder _ _ _ hh).1 nofun).2
  | addStuck | poll | handle | recheck | recheckKeep | unlockGet | unlockRecheck | exit =>
    exact Or.inl hp

theorem mem_connectIds {l : Lists} {id : ℕ} :
    id ∈ connectIds l ↔ ∃ p ∈ l (.proc (.static .connect)), p.id = id := List.mem_map

/-- A task being connected stays so until it is completed. -/
theorem connectIds_kept (hs : step s l = some t) {id : ℕ} (hid : id ∈ connectIds s.list) :
    id ∈ connectIds t.list ∨ ∃ i now ret, l = .complete (.static .connect) i now ∧
      s.worker (.static .connect, i) = .handled id ret := by
  -- a task leaves the list of `ref`
  have hround : ∀ {ref : PeonRef} {i now : ℕ} {ret : ℤ} {p : Task} {m : Lists},
      s.worker (ref, i) = .handled p.id ret → connectIds m = connectIds (listDel s.list (.proc ref) p.id) →
      id ∈ connectIds m ∨ ∃ j now' ret', (.complete ref i now : Label) = .complete (.static .connect) j now' ∧
        s.worker (.static .connect, j) = .handled id ret' := by
    intro ref i now ret p m hw hm
    obtain ⟨q, hq, rfl⟩ := mem_connectIds.mp hid
    by_cases hr : ref = .static .connect ∧ q.id = p.id
    · obtain ⟨rfl, he⟩ := hr
      exact Or.inr ⟨i, now, ret, rfl, he ▸ hw⟩
    · left
      rw [hm, mem_connectIds]
      refine ⟨q, mem_listDel.mpr ⟨hq, fun hx he => hr ⟨?_, he⟩⟩, rfl⟩
      exact (ListRef.proc.inj hx).symm
  cases step_cases hs with
  | request | inherit => exact Or.inl ((connectIds_add .pending nofun).symm ▸ hid)
  | addFail => exact Or.inl ((connectIds_del .pending nofun).symm ▸ hid)
  | add | addDyn =>
    exact Or.inl (((connectIds_add (.wait _) nofun).trans (connectIds_del .pending nofun)).symm ▸ hid)
  | getDead | recheckDrop => exact Or.inl ((connectIds_del (.wait _) nofun).symm ▸ hid)
  | getLeave => exact Or.inl ((connectIds_judge ..).symm ▸ hid)
  | getDiscard =>
    exact Or.inl (((connectIds_del (.wait _) nofun).trans (connectIds_judge ..)).symm ▸ hid)
  | @getPick ref i rest p =>
    left
    have hid' : id ∈ connectIds (listDel (judgeLists s.list ref.type p) (.wait ref) p.id) := by
      rw [connectIds_del (.wait ref) nofun, connectIds_judge]
      exact hid
    obtain ⟨q, hq, he⟩ := mem_connectIds.mp hid'
    exact mem_connectIds.mpr ⟨q, mem_listAddTail.mpr (Or.inl hq), he⟩
  | completeRetry _ hw => exact hround hw (connectIds_add (.wait _) nofun)
  | completeRecheck _ hw => exact hround hw (connectIds_add (.wait _) nofun)
  | completeFree _ hw => exact hround hw rfl
  | relive =>
    exact Or.inl (((connectIds_add (.wait _) nofun).trans (connectIds_del (.wait _) nofun)).symm ▸ hid)
  | addStuck | poll | handle | recheck | recheckKeep | unlockGet | unlockRecheck | deconstruct |
    exit => exact Or.inl hid

/-- Whose call has returned has just come back, or had done so before and is not being
completed. -/
theorem handled_back (hs : step s l = some t) {i id : ℕ} {ret : ℤ}
    (hw : t.worker (.static .connect, i) = .handled id ret) :
    (s.worker (.static .connect, i) = .handled id ret ∧ ∀ now, l ≠ .complete (.static .connect) i now) ∨
      l = .handle (.static .connect) i ret ∧ s.worker (.static .connect, i) = .running id := by
  -- some worker has gone on to `w`, which is not this
  have hset : ∀ {ref : PeonRef} {j : ℕ} (w : Worker),
      t.worker = Function.update s.worker (ref, j) w → w ≠ .handled id ret →
      s.worker (.static .connect, i) = .handled id ret ∧ (ref, j) ≠ (.static .connect, i) := by
    intro ref j w he hne
    rw [he] at hw
    by_cases hk : (PeonRef.static .connect, i) = (ref, j)
    · rw [hk, Function.update_self] at hw
      exact absurd hw hne
    · rw [Function.update_of_ne hk] at hw
      exact ⟨hw, Ne.symm hk⟩
  -- a round ends
  have hround : ∀ {ref : PeonRef} {j now : ℕ},
      t.worker = Function.update s.worker (ref, j) (afterRound ref) →
      s.worker (.static .connect, i) = .handled id ret ∧
        ∀ now', (.complete ref j now : Label) ≠ .complete (.static .connect) i now' := by
    intro ref j now he
    obtain ⟨hw, hne⟩ := hset (afterRound ref) he (by cases ref <;> simp [afterRound])
    refine ⟨hw, fun now' hl => hne ?_⟩
    cases hl
    rfl
  cases step_cases hs with
  | addDyn => exact Or.inl ⟨(hset .idle rfl (by simp)).1, by simp⟩
  | @getPick ref j rest p => exact Or.inl ⟨(hset (.running p.id) rfl (by simp)).1, by simp⟩
  | @handle ref j p ret' hw' =>
    by_cases hk : Worker.handled p.id ret' = .handled id ret ∧ (ref, j) = (.static .connect, i)
    · obtain ⟨he, hk⟩ := hk
      obtain ⟨rfl, rfl⟩ := Prod.mk.inj hk
      obtain ⟨rfl, rfl⟩ := Worker.handled.inj he
      exact Or.inr ⟨rfl, hw'⟩
    · have hw : Function.update s.worker (ref, j) (.handled p.id ret') (.static .connect, i) =
          .handled id ret := hw
      have hne : (PeonRef.static .connect, i) ≠ (ref, j) := by
        intro he
        rw [he, Function.update_self] at hw
        exact hk ⟨hw, he.symm⟩
      rw [Function.update_of_ne hne] at hw
      exact Or.inl ⟨hw, by simp⟩
  | completeRetry | completeRecheck | completeFree => exact Or.inl (hround rfl)
  | @unlockGet ref j =>
    exact Or.inl ⟨(hset (afterRound ref) rfl (by cases ref <;> simp [afterRound])).1, by simp⟩
  | deconstruct => exact Or.inl ⟨(hset .exiting rfl (by simp)).1, by simp⟩
  | exit => exact Or.inl ⟨(hset .absent rfl (by simp)).1, by simp⟩
  | request | inherit | addFail | add | addStuck | poll | getDead | getLeave | getDiscard | recheck |
    recheckDrop | recheckKeep | relive | unlockRecheck => exact Or.inl ⟨hw, by simp⟩

/-- A task whose `recheck` fails goes over to the connect peon. -/
theorem relive_mem {id : ℕ} {rest : List ℕ} {p : Task} {ret : ℤ} {now : ℕ}
    (hh : s.holder = .recheck (id :: rest))
    (hf : findTask (s.list (.wait (.static .recheck))) id = some p) (hc : IsRechecked p)
    (hret : ret ≠ 0) (hs : step s (.recheckOne ret now) = some t) :
    ∃ q ∈ t.list (.wait (.static .connect)), q.id = id := by
  simp only [step, recheckOneStep, hh, hf, Option.map_some] at hs
  obtain rfl := Option.some.inj hs
  rw [peonRunRecheckOne, if_neg (by simp [hc.1, hc.2]), if_neg hret]
  refine ⟨p.relived (peonSnGenerate s.snGen) now, ?_, (findTask_some hf).2⟩
  simp [mem_listAddTail, Task.relived]

/-- A task that is not rechecked leaves the list. -/
theorem recheck_drop {id : ℕ} {rest : List ℕ} {p : Task} {ret : ℤ} {now : ℕ}
    (hh : s.holder = .recheck (id :: rest))
    (hf : findTask (s.list (.wait (.static .recheck))) id = some p) (hc : ¬IsRechecked p)
    (hs : step s (.recheckOne ret now) = some t) :
    ∀ q ∈ t.list (.wait (.static .recheck)), q.id ≠ id := by
  have hd : (p.state = .dead || !p.toolbox.recheck) = true := by
    cases hst : p.state with
    | dead => simp
    | live => simpa [IsRechecked, hst] using hc
  simp only [step, recheckOneStep, hh, hf, Option.map_some] at hs
  obtain rfl := Option.some.inj hs
  rw [peonRunRecheckOne, if_pos hd]
  intro q hq
  have hq : q ∈ listDel s.list (.wait (.static .recheck)) p.id (.wait (.static .recheck)) := hq
  rw [← (findTask_some hf).2]
  exact (mem_listDel.mp hq).2 rfl

end Back

/-! What becomes of the contexts and of the calls. -/

section Effect
variable {ntop : Ntop} {s : Host} {l : Label} {e : (ℕ → Ctx) × (ℕ → Call)} {t : Sched}

/-- The contexts change of a new task, and of one that goes over to the connect peon. -/
theorem effect_ctx (hb : Base s.sched) (he : schedEffect ntop s l = some e)
    (hs : step s.sched l = some t) {r : ListRef} (hr : r ≠ .wait (.static .connect)) {p : Task}
    (hp : p ∈ t.list r) (hlt : p.id < s.sched.nextId) : e.1 p.id = s.ctx p.id := by
  unfold schedEffect at he
  split at he
  · split_ifs at he
    obtain rfl := Option.some.inj he
    exact Function.update_of_ne hlt.ne _ _
  · split_ifs at he
    obtain rfl := Option.some.inj he
    rfl
  · split at he
    · split_ifs at he
      obtain rfl := Option.some.inj he
      rfl
    · cases he
  · split at he
    · obtain rfl := Option.some.inj he
      rfl
    · cases he
  · split at he
    · rename_i id rest hh
      obtain ⟨q, hq, he⟩ := Option.bind_eq_some_iff.mp he
      split_ifs at he with hc hret hz
      · obtain rfl := Option.some.inj he
        rfl
      · obtain rfl := Option.some.inj he
        obtain ⟨u, hu, rfl⟩ := relive_mem hh hq hc hz hs
        refine Function.update_of_ne (fun hid => hr ?_) _ _
        exact (base_step hb hs).ids.place _ _ p hp u hu hid
      · obtain rfl := Option.some.inj he
        rfl
    · cases he
  · obtain rfl := Option.some.inj he
    rfl

/-- The calls stand as they did, but for that of a task that is completed. -/
theorem effect_call (he : schedEffect ntop s l = some e) :
    e.2 = s.call ∨ ∃ i now id ret, l = .complete (.static .connect) i now ∧
      s.sched.worker (.static .connect, i) = .handled id ret ∧
        e.2 = Function.update s.call id .start := by
  unfold schedEffect at he
  split at he
  · split_ifs at he
    obtain rfl := Option.some.inj he
    exact Or.inl rfl
  · split_ifs at he
    obtain rfl := Option.some.inj he
    exact Or.inl rfl
  · split at he
    · split_ifs at he
      obtain rfl := Option.some.inj he
      exact Or.inl rfl
    · cases he
  · split at he
    · rename_i id ret hw
      obtain rfl := Option.some.inj he
      exact Or.inr ⟨_, _, id, ret, rfl, hw, rfl⟩
    · cases he
  · split at he
    · obtain ⟨q, hq, he⟩ := Option.bind_eq_some_iff.mp he
      split_ifs at he <;> obtain rfl := Option.some.inj he <;> exact Or.inl rfl
    · cases he
  · obtain rfl := Option.some.inj he
    exact Or.inl rfl

theorem effect_start (he : schedEffect ntop s l = some e) (id : ℕ) :
    e.2 id = s.call id ∨ e.2 id = .start := by
  rcases effect_call he with hc | ⟨i, now, id', ret, -, -, hc⟩
  · exact Or.inl (congrFun hc id)
  · rw [hc]
    by_cases hid : id = id'
    · exact Or.inr (hid ▸ Function.update_self ..)
    · exact Or.inl (Function.update_of_ne hid _ _)

theorem effect_complete {i now id : ℕ} {ret : ℤ}
    (hw : s.sched.worker (.static .connect, i) = .handled id ret)
    (he : schedEffect ntop s (.complete (.static .connect) i now) = some e) : e.2 id = .start := by
  simp only [schedEffect, hw] at he
  obtain rfl := Option.some.inj he
  exact Function.update_self ..

theorem effect_handle {i id : ℕ} {ret : ℤ}
    (hw : s.sched.worker (.static .connect, i) = .running id)
    (he : schedEffect ntop s (.handle (.static .connect) i ret) = some e) :
    s.call id = .returns ret := by
  simp only [schedEffect, hw] at he
  split_ifs at he with hc
  exact hc

end Effect

/-- What holds in every state, as long as names are kept: of the name that a live task
has in its context, or that its call is about to leave there, it is known that only a
matching controller bears it. -/
structure HostOk (s : Host) : Prop where
  base : Base s.sched
  sysfs : SysfsOk s.sysfs
  rechecks : ∀ p ∈ s.sched.list (.wait (.static .recheck)), p.state = .live →
    Known s.sysfs (some (s.ctx p.id).dname.text) (CtrlMatches (s.ctx p.id))
  calls : ∀ p ∈ s.sched.list (.proc (.static .connect)), p.state = .live →
    Known s.sysfs ((s.call p.id).name (s.ctx p.id)) ((s.call p.id).Knows (s.ctx p.id))
  started : ∀ id, s.call id ≠ .start → id ∈ connectIds s.sched.list
  handled : ∀ i id ret, s.sched.worker (.static .connect, i) = .handled id ret →
    s.call id = .returns ret

theorem hostOk_init (cfgRestrainTime : ℕ) {sysfs : List SysCtrl} (h : SysfsOk sysfs) :
    HostOk (Host.init cfgRestrainTime sysfs) where
  base := base_init cfgRestrainTime
  sysfs := h
  rechecks := nofun
  calls := nofun
  started := fun id hid => absurd rfl hid
  handled := by
    intro i id ret hw
    have hw : (if i < peonConnectWorkerNum then Worker.idle else .absent) = .handled id ret := hw
    split at hw <;> cases hw

section Step
variable {ntop : Ntop} {s s' : Host}

/-- A step of the scheduler. -/
theorem hostOk_sched (h : HostOk s) {l : Label} (hs : hostStep ntop s (.sched l) = some s') :
    HostOk s' := by
  obtain ⟨e, he, hs⟩ := Option.bind_eq_some_iff.mp hs
  obtain ⟨t, ht, rfl⟩ := Option.map_eq_some_iff.mp hs
  have hids := h.base.ids
  refine ⟨base_step h.base ht, h.sysfs, ?_, ?_, ?_, ?_⟩
  · intro p hp hl
    show Known s.sysfs (some (e.1 p.id).dname.text) (CtrlMatches (e.1 p.id))
    rcases recheck_back h.base ht hp hl with hold | ⟨q, hq, hql, ⟨hid, -⟩, i, hw⟩
    · rw [effect_ctx h.base he ht (by simp) hp (hids.lt _ _ hold)]
      exact h.rechecks p hold hl
    · -- its call has returned 0, and has left the name in the context
      have hlt := hids.lt _ _ hq
      rw [hid] at hlt hw
      have hk := h.calls q hq hql
      rw [hid, h.handled i _ 0 hw] at hk
      rw [effect_ctx h.base he ht (by simp) hp hlt]
      exact hk
  · intro p hp hl
    show Known s.sysfs ((e.2 p.id).name (e.1 p.id)) ((e.2 p.id).Knows (e.1 p.id))
    rcases effect_start he p.id with hcall | hcall
    · rw [hcall]
      rcases proc_back h.base ht hp hl with hold | hnone
      · rw [effect_ctx h.base he ht (by simp) hp (hids.lt _ _ hold)]
        exact h.calls p hold hl
      · -- nothing was in execution, so its call has not begun
        have hstart : s.call p.id = .start := by
          by_contra hne
          have hmem := h.started p.id hne
          rw [hnone] at hmem
          cases hmem
        rw [hstart]
        exact known_none _ _
    · rw [hcall]
      exact known_none _ _
  · intro id hne
    have hold : s.call id ≠ .start := (effect_start he id).elim (fun hc => hc ▸ hne)
      fun hc => absurd hc hne
    rcases connectIds_kept ht (h.started id hold) with hid | ⟨i, now, ret, rfl, hw⟩
    · exact hid
    · exact absurd (effect_complete hw he) hne
  · intro i id ret hw
    show e.2 id = .returns ret
    rcases handled_back ht hw with ⟨hw, hne⟩ | ⟨rfl, hw⟩
    · rcases effect_call he with hcall | ⟨j, now, id', ret', rfl, hw', -⟩
      · rw [hcall]
        exact h.handled i id ret hw
      · -- the peon has one worker
        have hi := (h.base.workers.connect_zero hw nofun).1
        have hj := (h.base.workers.connect_zero hw' nofun).1
        exact absurd (by rw [hi, hj]) (hne now)
    · rcases effect_call he with hcall | ⟨j, now, id', ret', hl, -⟩
      · rw [hcall]
        exact effect_handle hw he
      · cases hl

/-- A step of the call that the connect worker makes. -/
theorem hostOk_call (h : HostOk s) {i : ℕ} {l : CallLabel}
    (hs : hostStep ntop s (.call i l) = some s') : HostOk s' := by
  rw [hostStep] at hs
  split at hs
  · rename_i id hw
    obtain ⟨⟨ctx', call'⟩, hc, rfl⟩ := Option.map_eq_some_iff.mp hs
    obtain ⟨rfl, hproc⟩ := h.base.workers.connect_zero hw nofun
    have hmem : id ∈ connectIds s.sched.list := by
      rw [show connectIds s.sched.list = [id] from hproc]
      exact List.mem_singleton_self id
    refine ⟨h.base, h.sysfs, ?_, ?_, ?_, ?_⟩
    · intro p hp hl
      obtain ⟨q, hq, rfl⟩ := mem_connectIds.mp hmem
      have hne : p.id ≠ q.id := by
        intro he
        cases h.base.ids.place _ _ p hp q hq he
      dsimp only
      rw [Function.update_of_ne hne]
      exact h.rechecks p hp hl
    · intro p hp hl
      dsimp only
      by_cases he : p.id = id
      · subst he
        rw [Function.update_self, Function.update_self]
        exact call_known h.sysfs (h.calls p hp hl) hc
      · rw [Function.update_of_ne he, Function.update_of_ne he]
        exact h.calls p hp hl
    · intro x hx
      by_cases he : x = id
      · exact he ▸ hmem
      · have hx : Function.update s.call id call' x ≠ .start := hx
        rw [Function.update_of_ne he] at hx
        exact h.started x hx
    · intro j x ret hw'
      obtain rfl := (h.base.workers.connect_zero hw' nofun).1
      rw [hw] at hw'
      cases hw'
  · cases hs

/-- The kernel makes of the directories what it likes, as long as what is known of
them stays true. -/
theorem HostOk.set (h : HostOk s) {sysfs : List SysCtrl} (hok : SysfsOk sysfs)
    (hr : ∀ p ∈ s.sched.list (.wait (.static .recheck)), p.state = .live →
      Known sysfs (some (s.ctx p.id).dname.text) (CtrlMatches (s.ctx p.id)))
    (hc : ∀ p ∈ s.sched.list (.proc (.static .connect)), p.state = .live →
      Known sysfs ((s.call p.id).name (s.ctx p.id)) ((s.call p.id).Knows (s.ctx p.id))) :
    HostOk { s with sysfs := sysfs } :=
  ⟨h.base, hok, hr, hc, h.started, h.handled⟩

theorem freeInstance_some {sysfs : List SysCtrl} {n : ℕ} (h : freeInstance sysfs = some n) :
    n < 2^31 ∧ ∀ c ∈ sysfs, c.dname ≠ nvmeName n := by
  obtain ⟨h, hn⟩ := Option.filter_eq_some_iff.mp h
  refine ⟨by simpa using hn, fun c hc he => ?_⟩
  have hused := (lowestFree_eq_some.mp h).1
  rw [List.any_eq_false] at hused
  exact hused c hc (by simpa using he)

theorem hostOk_step (h : HostOk s) {l : HostLabel} (hk : NameKept s l)
    (hs : hostStep ntop s l = some s') : HostOk s' := by
  cases l with
  | sched l => exact hostOk_sched h hs
  | call i l => exact hostOk_call h hs
  | remove dname =>
    obtain rfl := Option.some.inj hs
    have hsub : (s.sysfs.filter fun c => c.dname != dname) ⊆ s.sysfs := List.filter_subset_self _
    apply h.set
    · exact ⟨h.sysfs.nodup.sublist (List.filter_sublist.map _), fun c hc => h.sysfs.named c (hsub hc)⟩
    · exact fun p hp hl => (h.rechecks p hp hl).subset hsub
    · exact fun p hp hl => (h.calls p hp hl).subset hsub
  | create c =>
    obtain ⟨n, hn, rfl⟩ := Option.map_eq_some_iff.mp hs
    obtain ⟨hlt, hfree⟩ := freeInstance_some hn
    simp only [NameKept, hn] at hk
    apply h.set
    · refine ⟨?_, fun x hx => ?_⟩
      · rw [List.map_append, List.nodup_append]
        refine ⟨h.sysfs.nodup, List.nodup_singleton _, ?_⟩
        intro a ha b hb
        obtain ⟨x, hx, rfl⟩ := List.mem_map.mp ha
        obtain rfl := List.mem_singleton.mp hb
        exact hfree x hx
      · rcases List.mem_append.mp hx with hx | hx
        · exact h.sysfs.named x hx
        · obtain rfl := List.mem_singleton.mp hx
          exact ⟨n, hlt, rfl⟩
    · intro p hp hl
      refine (h.rechecks p hp hl).concat fun hd => ?_
      exact hk.1 p hp hl (Option.some.inj hd)
    · intro p hp hl
      refine (h.calls p hp hl).concat fun hd => ?_
      exact (s.call p.id).knows_of_matches (hk.2 p hp hl hd)
  | state dname state =>
    obtain rfl := Option.some.inj hs
    have hname : ∀ c : SysCtrl,
        (if c.dname = dname then { c with state := state } else c).dname = c.dname := by
      intro c
      split <;> rfl
    apply h.set
    · refine ⟨?_, fun x hx => ?_⟩
      · rw [List.map_map]
        exact (List.map_congr_left fun c _ => hname c) ▸ h.sysfs.nodup
      · obtain ⟨c, hc, rfl⟩ := List.mem_map.mp hx
        rw [hname]
        exact h.sysfs.named c hc
    · intro p hp hl
      refine (h.rechecks p hp hl).map hname fun c hc => ?_
      split
      · exact hc
      · exact hc
    · intro p hp hl
      refine (h.calls p hp hl).map hname fun c hc => ?_
      split
      · exact (s.call p.id).knows_state state hc
      · exact hc

/-- In such a state a pass does not keep a task in vain. -/
theorem recheckSound_of_ok (h : HostOk s) : RecheckSound ntop s := by
  intro ret now s' hs id rest hh p hp hid hl
  obtain ⟨e, he, hs⟩ := Option.bind_eq_some_iff.mp hs
  obtain ⟨t, ht, rfl⟩ := Option.map_eq_some_iff.mp hs
  simp only [schedEffect, hh] at he
  obtain ⟨q, hq, he⟩ := Option.bind_eq_some_iff.mp he
  obtain ⟨hqm, hqid⟩ := findTask_some hq
  by_cases hc : IsRechecked q
  · rw [if_pos hc] at he
    have hret : ret = snsdNvmeRecheck s.sysfs (s.ctx id) := by
      by_contra hret
      rw [if_neg hret] at he
      cases he
    have hz : ret = 0 := by
      by_contra hz
      obtain ⟨u, hu, huid⟩ := relive_mem hh hq hc hz ht
      cases (base_step h.base ht).ids.place _ _ p hp u hu (hid.trans huid.symm)
    have hk := h.rechecks q hqm hc.1
    rw [hqid] at hk
    obtain ⟨hne, hbears⟩ := hk _ rfl
    rw [hz, snsdNvmeRecheck] at hret
    split_ifs at hret with hex
    · obtain ⟨c, hc, hname⟩ := hex.resolve_left hne
      exact ⟨c, hc, hbears c hc hname⟩
    · exact absurd hret (by decide)
  · exact absurd hid (recheck_drop hh hq hc ht p hp)

end Step

/-- As long as only matching controllers are given the names that live connect tasks go
by, a recheck pass keeps a live task only while a controller matches its context,
whatever else comes and goes. -/
theorem recheck_sound_of_kept (ntop : Ntop) (cfgRestrainTime : ℕ) (sysfs : List SysCtrl)
    (hsys : SysfsOk sysfs) (ls : List HostLabel) (s : Host)
    (hok : RunMeets (hostStep ntop) NameKept (Host.init cfgRestrainTime sysfs) ls)
    (hr : run (hostStep ntop) (Host.init cfgRestrainTime sysfs) ls = some s) :
    RecheckSound ntop s := by
  have h := run_meets_invariant (I := HostOk) (fun s l s' h hk hs => hostOk_step h hk hs)
    (hostOk_init cfgRestrainTime hsys) hok hr
  exact recheckSound_of_ok h

/-- A controller of the sample target, or of another one on its port. -/
def addrCtrl (traddr : String) : SysCtrl where
  dname := []
  subsysnqn := some (ascii "nqn.a\n")
  transport := some (ascii "rdma\n")
  address := some (ascii ("traddr=" ++ traddr ++ ",trsvcid=4420,host_traddr=192.168.1.2\n"))
  state := some (ascii "live\n")

/-- The sample target is connected, as `nvme0`, and this controller goes away. -/
def connectedOnce : List HostLabel :=
  [.sched (.request .connect sampleParam connectToolbox 0), .sched (.add 0 .ok),
    .sched (.poll (.static .connect) 0), .sched (.get 5),
    .call 0 (.discover (.ok (CStr.clip SNSD_NQN_MAX_LEN_pos (ascii "nqn.a")))),
    .call 0 (.search false), .call 0 (.search false), .call 0 .go,
    .create (addrCtrl "192.168.1.1"), .call 0 (.create 0)] ++
  List.replicate 5 (.call 0 (.search false)) ++
  [.call 0 .go, .sched (.handle (.static .connect) 0 0), .sched (.complete (.static .connect) 0 6),
    .remove (nvmeName 0)]

/-- Another controller comes, and a pass begins. -/
def comesBack (traddr : String) : List HostLabel :=
  connectedOnce ++ [.create (addrCtrl traddr), .sched .recheck]

theorem sysfsOk_nil : SysfsOk [] := ⟨List.nodup_nil, nofun⟩

theorem recheck_sound_back : ∃ s, run (hostStep plainNtop) (Host.init 0 []) (comesBack "192.168.1.1") =
    some s ∧ s.sched.holder = .recheck [0] ∧ RecheckSound plainNtop s := by
  have hrun : (run (hostStep plainNtop) (Host.init 0 []) (comesBack "192.168.1.1")).any
      (fun s => s.sched.holder = .recheck [0]) = true := by decide +kernel
  obtain ⟨s, hs, hh⟩ := (Option.any_eq_true _ _).mp hrun
  refine ⟨s, hs, by simpa using hh, ?_⟩
  exact recheck_sound_of_kept plainNtop 0 [] sysfsOk_nil _ s (by decide +kernel) hs

/-- The controller of another target is `nvme0` now, and the task for the sample target
is kept. -/
theorem recheck_keeps_stranger : ¬∀ ntop cfgRestrainTime sysfs, SysfsOk sysfs → ∀ ls s,
    run (hostStep ntop) (Host.init cfgRestrainTime sysfs) ls = some s → RecheckSound ntop s := by
  intro h
  have hrun : (run (hostStep plainNtop) (Host.init 0 []) (comesBack "192.168.1.9")).any (fun s =>
      s.sched.holder = .recheck [0] ∧ (¬∃ c ∈ s.sysfs, CtrlMatches (s.ctx 0) c) ∧
        (hostStep plainNtop s (.sched (.recheckOne 0 9))).any fun s' =>
          ∃ p ∈ s'.sched.list (.wait (.static .recheck)), p.id = 0 ∧ p.state = .live) = true := by
    decide +kernel
  obtain ⟨s, hs, hs'⟩ := (Option.any_eq_true _ _).mp hrun
  obtain ⟨hh, hnone, hkeep⟩ := of_decide_eq_true hs'
  obtain ⟨s', hstep, hp⟩ := (Option.any_eq_true _ _).mp hkeep
  obtain ⟨p, hp, hid, hl⟩ := of_decide_eq_true hp
  exact hnone (h plainNtop 0 [] sysfsOk_nil _ s hs 0 9 s' hstep 0 [] hh p hp hid hl)

end NvmeSnsd.ConnNvme
