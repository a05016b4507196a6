import NvmeSnsd.ConnPeon.Progress

/-! When a task is not yet started: in its restrain time, and after a failure. -/
namespace NvmeSnsd.ConnPeon
open Lib

/-- The restrain time of the peons of this kind, with the configured one for disconnects. -/
def restrainOf (cfgRestrainTime : ℕ) : PeonType → ℕ
  | .connect => if cfgRestrainTime = 0 then peonDefaultRestrainTime else 0
  | .disconn => cfgRestrainTime
  | .dcbatch | .recheck => 0

/-- The peons have the restrain times that they were made with. -/
structure Restrains (s : Sched) (cfgRestrainTime : ℕ) : Prop where
  cfg : s.cfgRestrainTime = cfgRestrainTime
  static : ∀ type, (s.peon (.static type)).restrainTime = restrainOf cfgRestrainTime type
  dyn : ∀ k, k < s.nextDyn → (s.peon (.dyn k)).restrainTime = cfgRestrainTime

theorem Restrains.of_same {s s' : Sched} {cfgRestrainTime : ℕ} (h : Restrains s cfgRestrainTime)
    (hc : s'.cfgRestrainTime = s.cfgRestrainTime) (hn : s'.nextDyn = s.nextDyn)
    (hp : ∀ ref, (s'.peon ref).restrainTime = (s.peon ref).restrainTime) :
    Restrains s' cfgRestrainTime :=
  ⟨hc.trans h.cfg, fun type => (hp _).trans (h.static type),
    fun k hk => (hp _).trans (h.dyn k (hn ▸ hk))⟩

theorem restrains_step {s s' : Sched} {l : Label} {cfgRestrainTime : ℕ}
    (h : Restrains s cfgRestrainTime) (hs : step s l = some s') : Restrains s' cfgRestrainTime := by
  cases step_cases hs with
  | add | getDead | getDiscard | completeRetry | completeRecheck | completeFree =>
    exact h.of_same rfl rfl fun _ => count_restrainTime ..
  | @addDyn t =>
    have hpeon : ((peonDynCreate (s.del .pending t.id) t).emit [.added t]).peon =
        Function.update s.peon (.dyn s.nextDyn)
          ⟨s.cfgRestrainTime, peonDynDisconnWorkerNum, 1⟩ := rfl
    refine ⟨h.cfg, fun type => ?_, fun k hk => ?_⟩
    · rw [hpeon, Function.update_of_ne (by simp)]
      exact h.static type
    · rw [hpeon]
      by_cases he : k = s.nextDyn
      · subst he
        rw [Function.update_self]
        exact h.cfg
      · rw [Function.update_of_ne (by simpa using he)]
        exact h.dyn k (Nat.lt_of_le_of_ne (Nat.le_of_lt_succ hk) he)
  | request | inherit | addFail | addStuck | poll | getLeave | getPick | handle | recheck |
    recheckDrop | recheckKeep | relive | unlockGet | unlockRecheck | deconstruct | exit =>
    exact h.of_same rfl rfl fun _ => rfl

theorem restrains_init (cfgRestrainTime : ℕ) :
    Restrains (Sched.init cfgRestrainTime) cfgRestrainTime :=
  ⟨rfl, fun type => by cases type <;> rfl, fun _ hk => absurd hk (Nat.not_lt_zero _)⟩

@[simp] theorem judgeMark_tm (type : PeonType) (task : Task) (r : ListRef) (q : Task) :
    (judgeMark type task r q).tm = q.tm := by
  rcases judgeMark_eq type task r q with h | ⟨h, -⟩ <;> rw [h]

@[simp] theorem judgeMark_nextRun (type : PeonType) (task : Task) (r : ListRef) (q : Task) :
    (judgeMark type task r q).nextRun = q.nextRun := by
  rcases judgeMark_eq type task r q with h | ⟨h, -⟩ <;> rw [h]

/-- At none of the times `W` does the clock let the task `id` start, which is not in execution
and does not wait for a recheck. -/
structure Barred (l : Lists) (cfgRestrainTime id : ℕ) (W : Set ℕ) : Prop where
  rests : ∀ r, ∀ q ∈ l r, q.id = id → r ≠ .wait (.static .recheck) ∧ ∀ ref, r ≠ .proc ref
  early : ∀ r, ∀ q ∈ l r, q.id = id → ∀ now ∈ W,
    peonTaskRestrainTimeout now q (restrainOf cfgRestrainTime q.origin.type) = false

theorem peonTaskRestrainTimeout_congr {now restrainTime : ℕ} {p q : Task} (ht : p.tm = q.tm)
    (hn : p.nextRun = q.nextRun) :
    peonTaskRestrainTimeout now p restrainTime = peonTaskRestrainTimeout now q restrainTime := by
  rw [peonTaskRestrainTimeout, peonTaskRestrainTimeout, ht, hn]

namespace Barred
variable {l m : Lists} {cfgRestrainTime id : ℕ} {W : Set ℕ}

/-- Whoever has the name has had it, with the same times, and goes from one queue to another
at most. -/
theorem of_mem (h : Barred l cfgRestrainTime id W)
    (hm : ∀ r, ∀ q ∈ m r, q.id = id → ∃ x, ∃ p ∈ l x, p.id = id ∧ p.tm = q.tm ∧
      p.nextRun = q.nextRun ∧ p.origin = q.origin ∧
      (x = r ∨ r ≠ .wait (.static .recheck) ∧ ∀ ref, r ≠ .proc ref)) :
    Barred m cfgRestrainTime id W := by
  refine ⟨fun r q hq hid => ?_, fun r q hq hid now hnow => ?_⟩
  · obtain ⟨x, p, hp, hpid, -, -, -, hx⟩ := hm r q hq hid
    rcases hx with rfl | hx
    · exact h.rests x p hp hpid
    · exact hx
  · obtain ⟨x, p, hp, hpid, ht, hn, ho, -⟩ := hm r q hq hid
    rw [← ho, ← peonTaskRestrainTimeout_congr ht hn]
    exact h.early x p hp hpid now hnow

theorem del (h : Barred l cfgRestrainTime id W) (r : ListRef) (k : ℕ) :
    Barred (listDel l r k) cfgRestrainTime id W := by
  apply h.of_mem
  intro x q hq hid
  exact ⟨x, q, (mem_listDel.mp hq).1, hid, rfl, rfl, rfl, .inl rfl⟩

theorem judge (h : Barred l cfgRestrainTime id W) (type : PeonType) (p : Task) :
    Barred (judgeLists l type p) cfgRestrainTime id W := by
  apply h.of_mem
  intro r t ht hid
  obtain ⟨q, hq, rfl⟩ := mem_judgeLists.mp ht
  exact ⟨r, q, hq, by simpa using hid, by simp, by simp, by simp, .inl rfl⟩

/-- Another task comes in. -/
theorem add_ne (h : Barred l cfgRestrainTime id W) {r : ListRef} {q : Task} (hq : q.id ≠ id) :
    Barred (listAddTail l r q) cfgRestrainTime id W := by
  apply h.of_mem
  intro x t ht hid
  rcases mem_listAddTail.mp ht with ht | ⟨-, rfl⟩
  · exact ⟨x, t, ht, hid, rfl, rfl, rfl, .inl rfl⟩
  · exact absurd hid hq

/-- A filled task is put into a queue. -/
theorem enqueue (h : Barred l cfgRestrainTime id W) {ref : PeonRef} {t : Task}
    (ht : t ∈ l .pending) (href : ref ≠ .static .recheck) :
    Barred (listAddTail (listDel l .pending t.id) (.wait ref) t) cfgRestrainTime id W := by
  apply h.of_mem
  intro r q hq hid
  rcases mem_listAddTail.mp hq with hq | ⟨rfl, rfl⟩
  · exact ⟨r, q, (mem_listDel.mp hq).1, hid, rfl, rfl, rfl, .inl rfl⟩
  · exact ⟨.pending, q, ht, hid, rfl, rfl, rfl, .inr (by simpa using href)⟩

end Barred

/-- Every look at a task is at one of these times. -/
def LooksIn (W : Set ℕ) : Label → Prop
  | .get now => now ∈ W
  | _ => True

theorem barred_step {s s' : Sched} {l : Label} {cfgRestrainTime id : ℕ} {W : Set ℕ} (hb : Base s)
    (hres : Restrains s cfgRestrainTime) (hid : id < s.nextId)
    (h : Barred s.list cfgRestrainTime id W) (hl : LooksIn W l) (hs : step s l = some s') :
    Barred s'.list cfgRestrainTime id W := by
  -- a task in execution, or in the recheck list, is another one
  have hproc : ∀ {ref p}, p ∈ s.list (.proc ref) → p.id ≠ id := by
    intro ref p hp he
    exact (h.rests _ p hp he).2 ref rfl
  have hrecheck : ∀ {p}, p ∈ s.list (.wait (.static .recheck)) → p.id ≠ id := by
    intro p hp he
    exact (h.rests _ p hp he).1 rfl
  cases step_cases hs with
  | request | inherit => exact h.add_ne (Nat.ne_of_gt hid)
  | addFail | getDead | completeFree | recheckDrop => exact h.del _ _
  | add _ ht =>
    have htype := (hb.fit _ _ ht).1
    exact h.enqueue ht (by simpa using htype)
  | addDyn _ ht => exact h.enqueue ht (by simp)
  | completeRetry _ _ hp | completeRecheck _ _ hp => exact (h.del _ _).add_ne fun he => hproc hp he
  | relive _ hp => exact (h.del _ _).add_ne fun he => hrecheck hp he
  | getLeave => exact h.judge _ _
  | getDiscard => exact (h.judge _ _).del _ _
  | @getPick ref i rest p now hh hp _ _ _ hd =>
    refine ((h.judge _ _).del _ _).add_ne fun he => ?_
    -- the clock has let it start
    have hne := (hb.workers.holder _ _ _ hh).2
    have hearly := h.early _ p hp he now hl
    have hrestrain : (s.peon ref).restrainTime = restrainOf cfgRestrainTime p.origin.type := by
      have hfit : FitsPeon ref.type p := hb.fit _ _ hp
      cases ref with
      | static type =>
        rw [((fitsPeon_of_ne type (by simpa using hne)).mp hfit).1]
        exact hres.static type
      | dyn k =>
        rw [((fitsPeon_of_ne .disconn (by simp)).mp hfit).1]
        apply hres.dyn
        by_contra hk
        rw [(hb.dyn.fresh k (Nat.le_of_not_lt hk)).2] at hp
        cases hp
    rw [← hrestrain] at hearly
    cases hd.symm.trans hearly
  | deconstruct =>
    apply h.of_mem
    intro r q hq hqid
    exact ⟨r, q, (mem_update_nil.mp hq).1, hqid, rfl, rfl, rfl, .inl rfl⟩
  | addStuck | poll | handle | recheck | recheckKeep | unlockGet | unlockRecheck | exit => exact h

theorem nextId_mono {s s' : Sched} {l : Label} (hs : step s l = some s') :
    s.nextId ≤ s'.nextId := by
  cases step_cases hs with
  | request | inherit => exact Nat.le_succ _
  | addFail | add | addDyn | addStuck | poll | getDead | getLeave | getDiscard | getPick | handle |
    completeRetry | completeRecheck | completeFree | recheck | recheckDrop | recheckKeep | relive |
    unlockGet | unlockRecheck | deconstruct | exit => exact le_rfl

/-- As long as all looks are at times in `W`, the task stays out of execution. -/
theorem barred_run {s s' : Sched} {ls : List Label} {cfgRestrainTime id : ℕ} {W : Set ℕ}
    (hb : Base s) (hres : Restrains s cfgRestrainTime) (hid : id < s.nextId)
    (h : Barred s.list cfgRestrainTime id W) (hl : ∀ l ∈ ls, LooksIn W l)
    (hr : run step s ls = some s') : Barred s'.list cfgRestrainTime id W := by
  induction ls generalizing s with
  | nil =>
    obtain rfl := Option.some.inj hr
    exact h
  | cons l ls ih =>
    obtain ⟨t, ht, hr⟩ := run_cons.mp hr
    obtain ⟨hl, hls⟩ := List.forall_mem_cons.mp hl
    exact ih (base_step hb ht) (restrains_step hres ht) (hid.trans_le (nextId_mono ht))
      (barred_step hb hres hid h hl ht) hls hr

theorem restrains_run {cfgRestrainTime : ℕ} {ls : List Label} {s : Sched}
    (hr : run step (Sched.init cfgRestrainTime) ls = some s) : Restrains s cfgRestrainTime :=
  run_invariant (I := fun s => Restrains s cfgRestrainTime) (fun _ _ _ => restrains_step)
    (restrains_init cfgRestrainTime) hr

theorem Barred.not_proc {l : Lists} {cfgRestrainTime id : ℕ} {W : Set ℕ}
    (h : Barred l cfgRestrainTime id W) {ref : PeonRef} {q : Task} (hq : q ∈ l (.proc ref)) :
    q.id ≠ id :=
  fun he => (h.rests _ q hq he).2 ref rfl

theorem looksIn_of_get {W : Set ℕ} {ls : List Label} (h : ∀ now, .get now ∈ ls → now ∈ W) :
    ∀ l ∈ ls, LooksIn W l := by
  intro l hl
  cases l with
  | get now => exact h now hl
  | request | inherit | addFail | add | poll | handle | complete | recheck | recheckOne | unlock |
    deconstruct | exit => trivial

/-- After its handler has failed, a task is not started again before the retry interval is over. -/
theorem no_early_retry (cfgRestrainTime : ℕ) (ls : List Label) (s : Sched)
    (hr : run step (Sched.init cfgRestrainTime) ls = some s) (ref : PeonRef) (i id : ℕ) (ret : ℤ)
    (hw : s.worker (ref, i) = .handled id ret) (hret : ret ≠ 0) (now : ℕ) (ms : List Label)
    (u : Sched) (hu : run step s (.complete ref i now :: ms) = some u)
    (hl : ∀ now', .get now' ∈ ms → now' < now+peonFailRetryInterval) :
    ∀ ref', ∀ q ∈ u.list (.proc ref'), q.id ≠ id := by
  have hb := base_run hr
  obtain ⟨t, ht, hu⟩ := run_cons.mp hu
  have hbarred : Barred t.list cfgRestrainTime id {now' | now' < now+peonFailRetryInterval} ∧
      id < t.nextId := by
    cases step_cases ht with
    | @completeRetry ref i p ret' now _ hw' hp =>
      obtain ⟨rfl, rfl⟩ := Worker.handled.inj (hw.symm.trans hw')
      -- the one with this name is the task that is put back
      have honly : ∀ r, ∀ q ∈ listAddTail (listDel s.list (.proc ref) p.id) (.wait ref)
          (p.retried now) r, q.id = p.id → r = .wait ref ∧ q = p.retried now := by
        intro r q hq hid
        rcases mem_listAddTail.mp hq with hq | hq
        · obtain ⟨hq, hne⟩ := mem_listDel.mp hq
          exact absurd hid (hne (hb.ids.place _ _ q hq p hp hid))
        · exact hq
      have href := (hb.fit _ _ hp).1
      refine ⟨⟨fun r q hq hid => ?_, fun r q hq hid now' hnow' => ?_⟩, hb.ids.lt _ _ hp⟩
      · obtain ⟨rfl, -⟩ := honly r q hq hid
        exact ⟨by simpa using href, by simp⟩
      · obtain ⟨-, rfl⟩ := honly r q hq hid
        have hlt : now' < (p.retried now).nextRun := hnow'
        have hno : decide (now' ≥ (p.retried now).nextRun) = false :=
          decide_eq_false (Nat.not_le.mpr hlt)
        rw [peonTaskRestrainTimeout, hno]
        split_ifs <;> rfl
    | completeRecheck _ hw' _ _ hz =>
      obtain ⟨-, rfl⟩ := Worker.handled.inj (hw.symm.trans hw')
      exact absurd hz hret
    | @completeFree ref i p ret' now _ hw' hp =>
      obtain ⟨rfl, rfl⟩ := Worker.handled.inj (hw.symm.trans hw')
      -- a dead one is gone
      have hgone : ∀ r, ∀ q ∈ listDel s.list (.proc ref) p.id r, q.id ≠ p.id := by
        intro r q hq hid
        obtain ⟨hq, hne⟩ := mem_listDel.mp hq
        exact absurd hid (hne (hb.ids.place _ _ q hq p hp hid))
      exact ⟨⟨fun r q hq hid => absurd hid (hgone r q hq),
        fun r q hq hid => absurd hid (hgone r q hq)⟩, hb.ids.lt _ _ hp⟩
  have hres := restrains_step (restrains_run hr) ht
  have hafter := barred_run (base_step hb ht) hres hbarred.2 hbarred.1 (looksIn_of_get hl) hu
  exact fun ref' q hq => hafter.not_proc hq

/-- A connect that fails at time 6, and a look at time 40. -/
theorem no_early_retry_sample :
    ∃ ls s u, run step (Sched.init 3) ls = some s ∧
      s.worker (.static .connect, 0) = .handled 0 (-5) ∧
      run step s [.complete (.static .connect) 0 6, .poll (.static .connect) 0, .get 40] = some u ∧
      ∀ ref', ∀ q ∈ u.list (.proc ref'), q.id ≠ 0 := by
  let ls : List Label := [.request .connect sampleParam sampleToolbox 0, .add 0 .ok,
    .poll (.static .connect) 0, .get 5, .handle (.static .connect) 0 (-5)]
  obtain ⟨s, hs⟩ : ∃ s, run step (Sched.init 3) ls = some s := ⟨_, rfl⟩
  have hw : s.worker (.static .connect, 0) = .handled 0 (-5) := by
    obtain rfl := Option.some.inj hs
    decide
  obtain ⟨u, hu⟩ : ∃ u, run step s [.complete (.static .connect) 0 6,
      .poll (.static .connect) 0, .get 40] = some u := by
    obtain rfl := Option.some.inj hs
    exact ⟨_, rfl⟩
  refine ⟨ls, s, u, hs, hw, hu, ?_⟩
  apply no_early_retry 3 ls s hs _ 0 0 (-5) hw (by decide) 6 _ u hu
  intro now' hmem
  simp at hmem
  rw [hmem, peonFailRetryInterval]
  decide

/-- A task is not started in the restrain time of its peon from its request on, be that peon
the static one or one of its own. -/
theorem no_early_start (cfgRestrainTime : ℕ) (ls : List Label) (s : Sched)
    (hr : run step (Sched.init cfgRestrainTime) ls = some s) (p : Task) (hp : p ∈ s.list .pending)
    (ms : List Label) (u : Sched) (hu : run step s ms = some u)
    (hl : ∀ now, .get now ∈ ms → p.tm ≤ now ∧ now < p.tm+restrainOf cfgRestrainTime p.origin.type) :
    ∀ ref, ∀ q ∈ u.list (.proc ref), q.id ≠ p.id := by
  have hb := base_run hr
  have hbarred : Barred s.list cfgRestrainTime p.id
      {now | p.tm ≤ now ∧ now < p.tm+restrainOf cfgRestrainTime p.origin.type} := by
    refine ⟨fun r q hq hid => ?_, fun r q hq hid now hnow => ?_⟩
    · obtain rfl := hb.ids.place _ _ q hq p hp hid
      exact ⟨by simp, by simp⟩
    · obtain rfl := hb.ids.eq hq hp hid
      obtain ⟨hge, hlt⟩ := hnow
      have hzero : restrainOf cfgRestrainTime q.origin.type ≠ 0 := by omega
      rw [peonTaskRestrainTimeout, if_neg]
      simp [hzero, hge, hlt]
  have hafter := barred_run hb (restrains_run hr) (hb.ids.lt _ _ hp) hbarred (looksIn_of_get hl) hu
  exact fun ref q hq => hafter.not_proc hq

/-- A disconnect of time 10, and a look at time 12. -/
theorem no_early_start_sample :
    ∃ ls s u, run step (Sched.init 3) ls = some s ∧ (∃ p ∈ s.list .pending, p.id = 0 ∧ p.tm = 10) ∧
      run step s [.add 0 .ok, .poll (.static .disconn) 0, .get 12] = some u ∧
      ∀ ref, ∀ q ∈ u.list (.proc ref), q.id ≠ 0 := by
  let ls : List Label := [.request .disconn sampleParam sampleToolbox 10]
  obtain ⟨s, hs⟩ : ∃ s, run step (Sched.init 3) ls = some s := ⟨_, rfl⟩
  obtain ⟨p, hp, hid, htm, htype⟩ :
      ∃ p ∈ s.list .pending, p.id = 0 ∧ p.tm = 10 ∧ p.origin.type = .disconn := by
    obtain rfl := Option.some.inj hs
    decide
  obtain ⟨u, hu⟩ : ∃ u, run step s [.add 0 .ok, .poll (.static .disconn) 0, .get 12] = some u := by
    obtain rfl := Option.some.inj hs
    exact ⟨_, rfl⟩
  refine ⟨ls, s, u, hs, ⟨p, hp, hid, htm⟩, hu, ?_⟩
  rw [← hid]
  apply no_early_start 3 ls s hs p hp _ u hu
  intro now hmem
  simp at hmem
  rw [hmem, htm, htype]
  decide

end NvmeSnsd.ConnPeon
