import NvmeSnsd.Lib.Assigned
import NvmeSnsd.ConnPeon.History

/-! Who executes which task. -/
namespace NvmeSnsd.ConnPeon
open Lib

/-- The task that a worker has taken and not completed. -/
def Worker.task : Worker → Option ℕ
  | .running id | .handled id _ => some id
  | .absent | .idle | .leaving | .exiting => none

@[simp] theorem afterRound_task (ref : PeonRef) : (afterRound ref).task = none := by
  cases ref <;> rfl

/-- The task of a worker, along with the peon it is for. -/
def takenBy (s : Sched) (w : PeonRef × ℕ) : Option (PeonRef × ℕ) :=
  (s.worker w).task.map (w.1, ·)

/-- A task that is in execution, along with its peon. -/
def InProc (l : Lists) (x : PeonRef × ℕ) : Prop := ∃ p ∈ l (.proc x.1), p.id = x.2

theorem takenBy_eq_some {s : Sched} {w x : PeonRef × ℕ} :
    takenBy s w = some x ↔ w.1 = x.1 ∧ (s.worker w).task = some x.2 := by
  rw [takenBy, Option.map_eq_some_iff]
  constructor
  · rintro ⟨id, hid, rfl⟩
    exact ⟨rfl, hid⟩
  · rintro ⟨hw, hid⟩
    exact ⟨x.2, hid, Prod.ext hw rfl⟩

theorem takenBy_update {s s' : Sched} {ref : PeonRef} {i : ℕ} {w : Worker}
    (h : s'.worker = Function.update s.worker (ref, i) w) :
    takenBy s' = Function.update (takenBy s) (ref, i) (w.task.map (ref, ·)) := by
  funext x
  rw [takenBy, h]
  by_cases hx : x = (ref, i)
  · subst hx
    rw [Function.update_self, Function.update_self]
  · rw [Function.update_of_ne hx, Function.update_of_ne hx, takenBy]

/-- Worker and `proc_list` agree, and no worker is there that the peon does not have. -/
structure Staffed (s : Sched) : Prop where
  tasks : Assigned (takenBy s) (InProc s.list)
  absent : ∀ ref i, (s.peon ref).workerNum ≤ i → s.worker (ref, i) = .absent

/-! What is in execution after an operation on the lists. -/

section InProc
variable {l : Lists} {x : PeonRef × ℕ}

theorem inProc_addTail {r : ListRef} {q : Task} (h : ∀ ref, r ≠ .proc ref) :
    InProc (listAddTail l r q) x ↔ InProc l x := by
  rw [InProc, InProc, listAddTail, Function.update_of_ne (h x.1).symm]

theorem inProc_del {r : ListRef} {id : ℕ} (h : ∀ ref, r ≠ .proc ref) :
    InProc (listDel l r id) x ↔ InProc l x := by
  rw [InProc, InProc, listDel, Function.update_of_ne (h x.1).symm]

theorem inProc_judge (type : PeonType) (p : Task) :
    InProc (judgeLists l type p) x ↔ InProc l x := by
  simp only [InProc, judgeLists, List.mem_map, exists_exists_and_eq_and, judgeMark_id]

theorem inProc_pick (ref : PeonRef) (p : Task) :
    InProc (listAddTail l (.proc ref) p) x ↔ InProc l x ∨ x = (ref, p.id) := by
  constructor
  · rintro ⟨t, ht, hid⟩
    rcases mem_listAddTail.mp ht with ht | ⟨hr, rfl⟩
    · exact Or.inl ⟨t, ht, hid⟩
    · exact Or.inr (Prod.ext (ListRef.proc.inj hr) hid.symm)
  · rintro (⟨t, ht, hid⟩ | rfl)
    · exact ⟨t, mem_listAddTail.mpr (.inl ht), hid⟩
    · exact ⟨p, mem_listAddTail.mpr (.inr ⟨rfl, rfl⟩), rfl⟩

theorem inProc_complete (ref : PeonRef) (id : ℕ) :
    InProc (listDel l (.proc ref) id) x ↔ InProc l x ∧ x ≠ (ref, id) := by
  constructor
  · rintro ⟨t, ht, hid⟩
    obtain ⟨ht, hne⟩ := mem_listDel.mp ht
    refine ⟨⟨t, ht, hid⟩, ?_⟩
    rintro rfl
    exact hne rfl hid
  · rintro ⟨⟨t, ht, hid⟩, hne⟩
    refine ⟨t, mem_listDel.mpr ⟨ht, fun hr htid => hne ?_⟩, hid⟩
    exact Prod.ext (ListRef.proc.inj hr) (hid.symm.trans htid)

end InProc

namespace Staffed
variable {s s' : Sched}

/-- No worker moves, and no task comes to or leaves a `proc_list`. -/
theorem of_same (h : Staffed s) (hw : s'.worker = s.worker)
    (hl : ∀ x, InProc s'.list x ↔ InProc s.list x)
    (hp : ∀ ref, (s'.peon ref).workerNum = (s.peon ref).workerNum) : Staffed s' := by
  refine ⟨h.tasks.congr (fun w => ?_) hl, fun ref i hi => ?_⟩
  · rw [takenBy, takenBy, hw]
  · rw [hw]
    exact h.absent ref i (hp ref ▸ hi)

/-- A worker that is there goes on to `w`. -/
theorem absent_update (h : Staffed s) {ref : PeonRef} {i : ℕ} {w : Worker}
    (hthere : s.worker (ref, i) ≠ .absent)
    (hw : s'.worker = Function.update s.worker (ref, i) w)
    (hp : ∀ ref, (s'.peon ref).workerNum = (s.peon ref).workerNum) :
    ∀ ref i, (s'.peon ref).workerNum ≤ i → s'.worker (ref, i) = .absent := by
  intro ref' j hj
  rw [hp] at hj
  have hne : (ref', j) ≠ (ref, i) := by
    rintro he
    obtain ⟨rfl, rfl⟩ := Prod.mk.inj he
    exact hthere (h.absent _ _ hj)
  rw [hw, Function.update_of_ne hne]
  exact h.absent ref' j hj

/-- The same task, or none, is with the worker that goes on to `w`. -/
theorem goes (h : Staffed s) {ref : PeonRef} {i : ℕ} {w : Worker}
    (hthere : s.worker (ref, i) ≠ .absent)
    (hw : s'.worker = Function.update s.worker (ref, i) w)
    (ht : w.task = (s.worker (ref, i)).task) (hl : ∀ x, InProc s'.list x ↔ InProc s.list x)
    (hp : ∀ ref, (s'.peon ref).workerNum = (s.peon ref).workerNum) : Staffed s' := by
  refine ⟨h.tasks.congr (fun x => ?_) hl, h.absent_update hthere hw hp⟩
  rw [takenBy_update hw, ht]
  by_cases hx : x = (ref, i)
  · subst hx
    rw [Function.update_self, takenBy]
  · rw [Function.update_of_ne hx]

/-- The round of a worker ends with its task off `proc_list`. -/
theorem completes (h : Staffed s) {ref : PeonRef} {i id : ℕ} {ret : ℤ}
    (hhas : s.worker (ref, i) = .handled id ret)
    (hw : s'.worker = Function.update s.worker (ref, i) (afterRound ref))
    (hl : ∀ x, InProc s'.list x ↔ InProc s.list x ∧ x ≠ (ref, id))
    (hp : ∀ ref, (s'.peon ref).workerNum = (s.peon ref).workerNum) : Staffed s' := by
  have htaken : takenBy s (ref, i) = some (ref, id) := by
    rw [takenBy, hhas]
    rfl
  refine ⟨(h.tasks.give htaken).congr (fun x => ?_) hl, h.absent_update (hhas ▸ by simp) hw hp⟩
  rw [takenBy_update hw, afterRound_task]
  rfl

end Staffed

theorem count_workerNum (s : Sched) (ref x : PeonRef) (d : ℤ) :
    ((s.count ref d).peon x).workerNum = (s.peon x).workerNum := by
  unfold Sched.count
  by_cases hx : x = ref
  · subst hx
    simp
  · dsimp only
    rw [Function.update_of_ne hx]

theorem staffed_step {s s' : Sched} {l : Label} (hb : Base s) (h : Staffed s)
    (hs : step s l = some s') : Staffed s' := by
  have hwait : ∀ x ref, ListRef.wait x ≠ .proc ref := by simp
  have hpending : ∀ ref, ListRef.pending ≠ .proc ref := by simp
  cases step_cases hs with
  | request | inherit => exact h.of_same rfl (fun _ => inProc_addTail hpending) fun _ => rfl
  | addFail => exact h.of_same rfl (fun _ => inProc_del hpending) fun _ => rfl
  | add =>
    exact h.of_same rfl (fun _ => (inProc_addTail (hwait _)).trans (inProc_del hpending))
      fun _ => count_workerNum ..
  | @addDyn t =>
    -- the worker of a peon that is made is the first that peon has
    obtain ⟨hnone, -⟩ := hb.dyn.fresh s.nextDyn le_rfl
    have hw : ((peonDynCreate (s.del .pending t.id) t).emit [.added t]).worker =
        Function.update s.worker (.dyn s.nextDyn, 0) .idle := rfl
    refine ⟨h.tasks.congr (fun x => ?_) fun _ =>
      (inProc_addTail (hwait _)).trans (inProc_del hpending), fun ref i hi => ?_⟩
    · rw [takenBy_update hw]
      by_cases hx : x = (.dyn s.nextDyn, 0)
      · subst hx
        rw [Function.update_self, takenBy, hnone]
        rfl
      · rw [Function.update_of_ne hx]
    · by_cases href : ref = .dyn s.nextDyn
      · subst href
        have hi : peonDynDisconnWorkerNum ≤ i := by
          simpa [Sched.emit, peonDynCreate] using hi
        rw [peonDynDisconnWorkerNum] at hi
        have hne : ((.dyn s.nextDyn, i) : PeonRef × ℕ) ≠ (.dyn s.nextDyn, 0) := by
          simp
          omega
        rw [hw, Function.update_of_ne hne]
        exact hb.dyn.single _ _ (by omega)
      · have hi : (s.peon ref).workerNum ≤ i := by
          simpa [Sched.emit, peonDynCreate, Sched.addTail, Sched.del, Sched.setWorker,
            Function.update_of_ne href] using hi
        have hne : (ref, i) ≠ (.dyn s.nextDyn, 0) := fun he => href (Prod.mk.inj he).1
        rw [hw, Function.update_of_ne hne]
        exact h.absent _ _ hi
  | addStuck | poll | recheck | recheckKeep | unlockRecheck =>
    exact h.of_same rfl (fun _ => Iff.rfl) fun _ => rfl
  | getDead =>
    exact h.of_same rfl (fun _ => inProc_del (hwait _)) fun _ => count_workerNum ..
  | getLeave => exact h.of_same rfl (fun _ => inProc_judge ..) fun _ => rfl
  | getDiscard =>
    exact h.of_same rfl (fun _ => (inProc_del (hwait _)).trans (inProc_judge ..))
      fun _ => count_workerNum ..
  | @getPick ref i rest p now hh hp =>
    have hidle := (hb.workers.holder _ _ _ hh).1
    have hfree : takenBy s (ref, i) = none := by
      rw [takenBy, hidle]
      rfl
    have hout : ¬InProc s.list (ref, p.id) := by
      rintro ⟨t, ht, hid⟩
      cases hb.ids.place _ _ t ht p hp hid
    refine ⟨(h.tasks.take hfree hout).congr (fun x => ?_) fun x => ?_,
      h.absent_update (hidle ▸ by simp) rfl fun _ => rfl⟩
    · rw [takenBy_update (s := s) rfl]
      rfl
    · exact (inProc_pick ref p).trans
        (or_congr_left ((inProc_del (hwait _)).trans (inProc_judge ..)))
  | handle hw =>
    exact h.goes (hw ▸ by simp) rfl (by rw [hw]; rfl) (fun _ => Iff.rfl) fun _ => rfl
  | completeRetry _ hw | completeRecheck _ hw =>
    exact h.completes hw rfl
      (fun _ => (inProc_addTail (hwait _)).trans (inProc_complete ..)) fun _ => count_workerNum ..
  | completeFree _ hw =>
    exact h.completes hw rfl (fun _ => inProc_complete ..) fun _ => count_workerNum ..
  | recheckDrop => exact h.of_same rfl (fun _ => inProc_del (hwait _)) fun _ => rfl
  | relive =>
    exact h.of_same rfl (fun _ => (inProc_addTail (hwait _)).trans (inProc_del (hwait _)))
      fun _ => rfl
  | unlockGet hh =>
    have hidle := (hb.workers.holder _ _ _ hh).1
    exact h.goes (hidle ▸ by simp) rfl (by rw [hidle, afterRound_task]; rfl) (fun _ => Iff.rfl)
      fun _ => rfl
  | @deconstruct k _ hw =>
    refine h.goes (hw ▸ by simp) rfl (by rw [hw]; rfl) (fun x => ?_) fun _ => rfl
    simp [InProc]
  | exit _ hw =>
    exact h.goes (hw ▸ by simp) rfl (by rw [hw]; rfl) (fun _ => Iff.rfl) fun _ => rfl

theorem staffed_init (cfgRestrainTime : ℕ) : Staffed (Sched.init cfgRestrainTime) := by
  have hnone : ∀ w, takenBy (Sched.init cfgRestrainTime) w = none := by
    rintro ⟨ref, i⟩
    cases ref with
    | dyn k => rfl
    | static type =>
      cases type <;>
      · rw [takenBy, Sched.init]
        dsimp only
        split <;> rfl
  refine ⟨⟨fun w x hx => ?_, fun x hx => ?_, fun w _ x hx => ?_⟩, fun ref i hi => ?_⟩
  · rw [hnone] at hx
    cases hx
  · obtain ⟨p, hp, -⟩ := hx
    cases hp
  · rw [hnone] at hx
    cases hx
  · cases ref with
    | dyn k => rfl
    | static type => cases type <;> exact if_neg (Nat.not_lt.mpr hi)

/-- What the workers execute. -/
structure Owned (s : Sched) : Prop where
  /-- A worker finds its task in the `proc_list` of its peon, and nobody has freed it. -/
  has : ∀ ref i id, (s.worker (ref, i)).task = some id →
    (∃ p ∈ s.list (.proc ref), p.id = id) ∧ ∀ u, .freed u ∈ s.log → u.id ≠ id
  /-- Every task there is executed, by one worker. -/
  executed : ∀ ref, ∀ p ∈ s.list (.proc ref), ∃! i, (s.worker (ref, i)).task = some p.id
  /-- No task is executed twice, not even by workers of two peons. -/
  alone : ∀ w w' id, (s.worker w).task = some id → (s.worker w').task = some id → w = w'
  bound : ∀ ref, (s.list (.proc ref)).length ≤ (s.peon ref).workerNum

theorem owned_of_staffed {s : Sched} (hb : Base s) (hlog : LogOk s.list s.nextId s.log)
    (h : Staffed s) : Owned s := by
  have hin : ∀ ref i id, (s.worker (ref, i)).task = some id →
      ∃ p ∈ s.list (.proc ref), p.id = id := by
    intro ref i id hid
    exact h.tasks.is_out (ref, i) (ref, id) (takenBy_eq_some.mpr ⟨rfl, hid⟩)
  refine ⟨?_, ?_, ?_, ?_⟩
  · intro ref i id hid
    obtain ⟨p, hp, rfl⟩ := hin ref i id hid
    refine ⟨⟨p, hp, rfl⟩, fun u hu he => ?_⟩
    exact hlog.gone u hu _ p hp he.symm
  · intro ref p hp
    obtain ⟨⟨ref', i⟩, hw⟩ := h.tasks.holder (ref, p.id) ⟨p, hp, rfl⟩
    obtain ⟨rfl, hi⟩ := takenBy_eq_some.mp hw
    refine ⟨i, hi, fun j hj => ?_⟩
    have hj : takenBy s (ref', j) = some (ref', p.id) := takenBy_eq_some.mpr ⟨rfl, hj⟩
    exact (Prod.mk.inj (h.tasks.alone _ _ _ hj hw)).2
  · rintro ⟨ref, i⟩ ⟨ref', j⟩ id hi hj
    -- the task is in one list only
    obtain ⟨p, hp, hpid⟩ := hin ref i id hi
    obtain ⟨q, hq, hqid⟩ := hin ref' j id hj
    obtain rfl := ListRef.proc.inj (hb.ids.place _ _ p hp q hq (hpid.trans hqid.symm))
    exact h.tasks.alone _ _ (ref, id) (takenBy_eq_some.mpr ⟨rfl, hi⟩)
      (takenBy_eq_some.mpr ⟨rfl, hj⟩)
  · intro ref
    have hnodup : ((s.list (.proc ref)).map fun p => (ref, p.id)).Nodup := by
      have hids := hb.ids.nodup (.proc ref)
      rw [show (s.list (.proc ref)).map (fun p => (ref, p.id)) =
        ((s.list (.proc ref)).map Task.id).map (ref, ·) by simp]
      exact hids.map fun a b hab => (Prod.mk.inj hab).2
    have hle := h.tasks.length_le hnodup (n := (s.peon ref).workerNum)
      (f := fun i => (ref, i)) ?_ ?_
    · simpa using hle
    · intro x hx
      obtain ⟨p, hp, rfl⟩ := List.mem_map.mp hx
      exact ⟨p, hp, rfl⟩
    · rintro ⟨ref', i⟩ x hx hw
      obtain ⟨p, -, rfl⟩ := List.mem_map.mp hx
      obtain ⟨rfl, hi⟩ := takenBy_eq_some.mp hw
      -- a worker with a task is one of those that the peon has
      have hlt : i < (s.peon ref').workerNum := by
        by_contra hge
        rw [h.absent _ _ (Nat.le_of_not_lt hge)] at hi
        cases hi
      exact ⟨⟨i, hlt⟩, rfl⟩

theorem staffed_run {cfgRestrainTime : ℕ} {ls : List Label} {s : Sched}
    (hr : run step (Sched.init cfgRestrainTime) ls = some s) : Staffed s := by
  have hinv : Base s ∧ Staffed s := by
    apply run_invariant (I := fun s => Base s ∧ Staffed s) _ _ hr
    · rintro s l s' ⟨hb, h⟩ hs
      exact ⟨base_step hb hs, staffed_step hb h hs⟩
    · exact ⟨base_init cfgRestrainTime, staffed_init cfgRestrainTime⟩
  exact hinv.2

/-- In every run a task in execution is with one worker, which is one of its peon, and is
not freed as long as that worker has it. -/
theorem tasks_owned (cfgRestrainTime : ℕ) (ls : List Label) (s : Sched)
    (hr : run step (Sched.init cfgRestrainTime) ls = some s) : Owned s :=
  owned_of_staffed (base_run hr) (logOk_run hr) (staffed_run hr)

/-- A disconnect in the hands of its worker. -/
theorem tasks_owned_sample :
    ∃ ls s, run step (Sched.init 3) ls = some s ∧ s.list (.proc (.static .disconn)) ≠ [] ∧
      Owned s := by
  let ls : List Label := [.request .disconn sampleParam sampleToolbox 0, .add 0 .ok,
    .poll (.static .disconn) 0, .get 10]
  obtain ⟨s, hs⟩ : ∃ s, run step (Sched.init 3) ls = some s := ⟨_, rfl⟩
  refine ⟨ls, s, hs, ?_, tasks_owned 3 ls s hs⟩
  obtain rfl := Option.some.inj hs
  decide

end NvmeSnsd.ConnPeon
