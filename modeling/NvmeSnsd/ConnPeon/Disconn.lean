import NvmeSnsd.ConnPeon.Connect

/-! What becomes of a disconnect task: who frees it, and why. -/
namespace NvmeSnsd.ConnPeon
open Lib

/-- A disconnect task is freed for a reason: its handler was through with it, or
it had to yield to a newer task. -/
def FreedForReason (before : List Event) (e : Event) : Prop :=
  ∀ t, e = .freed t → t.origin.type = .disconn →
    (∃ u, .handled u 0 ∈ before ∧ u.id = t.id) ∨ Overruled before t

/-- A dynamic peon, which takes one look at its task, does not find it held
back, and its handler does not fail. -/
def DynServes (s : Sched) : Label → Prop
  | .get now => ∀ k i rest, ∀ p ∈ s.list (.wait (.dyn k)),
      s.holder = .get (.dyn k) i (p.id :: rest) → p.state = .live →
        blocked s.list .disconn p = false ∧
          (superseded s.list .disconn p = true ∨ Due s (.dyn k) p now)
  | .complete (.dyn k) i _ => ∀ p ∈ s.list (.proc (.dyn k)), ∀ ret,
      s.worker (.dyn k, i) = .handled p.id ret → p.state = .live → ret = 0
  | _ => True

/-- The dynamic peons: each has its task in `wait_list` only until its one
worker has looked at it. -/
structure DynOk (s : Sched) : Prop where
  gone : ∀ k, s.worker (.dyn k, 0) ≠ .idle → s.list (.wait (.dyn k)) = []
  one : ∀ k, (s.list (.wait (.dyn k))).length ≤ 1
  scan : ∀ k i rest, s.holder = .get (.dyn k) i rest →
    rest = (s.list (.wait (.dyn k))).map Task.id

namespace DynOk
variable {s s' : Sched}

/-- Steps that have nothing to do with dynamic peons. -/
theorem of_same (h : DynOk s) (hw : ∀ k, s'.worker (.dyn k, 0) = s.worker (.dyn k, 0))
    (hl : ∀ k, s'.list (.wait (.dyn k)) = s.list (.wait (.dyn k)))
    (hh : ∀ k i rest, s'.holder = .get (.dyn k) i rest →
      rest = (s.list (.wait (.dyn k))).map Task.id) : DynOk s' := by
  refine ⟨?_, ?_, ?_⟩
  · intro k hk
    rw [hw] at hk
    rw [hl]
    exact h.gone k hk
  · intro k
    rw [hl]
    exact h.one k
  · intro k i rest hr
    rw [hl]
    exact hh k i rest hr

/-- Nothing waits on peon `k` any more, and no other peon is concerned. -/
theorem emptied (h : DynOk s) (k : ℕ)
    (hw : ∀ x, x ≠ k → s'.worker (.dyn x, 0) = s.worker (.dyn x, 0))
    (hl : ∀ x, x ≠ k → s'.list (.wait (.dyn x)) = s.list (.wait (.dyn x)))
    (hempty : s'.list (.wait (.dyn k)) = [])
    (hh : ∀ x i rest, s'.holder = .get (.dyn x) i rest →
      x = k ∧ rest = [] ∨ x ≠ k ∧ s.holder = .get (.dyn x) i rest) : DynOk s' := by
  have hcases : ∀ x, s'.list (.wait (.dyn x)) = [] ∨ x ≠ k := by
    intro x
    by_cases hx : x = k
    · subst hx
      exact Or.inl hempty
    · exact Or.inr hx
  refine ⟨?_, ?_, ?_⟩
  · intro x hx
    rcases hcases x with he | hne
    · exact he
    · rw [hw x hne] at hx
      rw [hl x hne]
      exact h.gone x hx
  · intro x
    rcases hcases x with he | hne
    · rw [he]
      exact Nat.zero_le _
    · rw [hl x hne]
      exact h.one x
  · intro x i rest hr
    rcases hh x i rest hr with ⟨rfl, rfl⟩ | ⟨hne, hs⟩
    · rw [hempty]
      rfl
    · rw [hl x hne]
      exact h.scan x i rest hs

/-- The look of peon `k` at its task ends with the task off `wait_list`. -/
theorem look (h : DynOk s) {k i : ℕ} {rest : List ℕ} {p : Task}
    (hh : s.holder = .get (.dyn k) i (p.id :: rest)) (hp : p ∈ s.list (.wait (.dyn k))) :
    rest = [] ∧ dropTask (s.list (.wait (.dyn k))) p.id = [] := by
  have hscan := h.scan k i _ hh
  have hone := h.one k
  match hl : s.list (.wait (.dyn k)) with
  | [] => simp [hl] at hp
  | [q] =>
    rw [hl] at hp hscan
    obtain rfl := List.mem_singleton.mp hp
    simp only [List.map_cons, List.map_nil, List.cons.injEq, true_and] at hscan
    exact ⟨hscan, by simp [dropTask]⟩
  | _ :: _ :: _ => simp [hl] at hone

/-- A new peon, with its task. -/
theorem create (h : DynOk s) (hd : DynWorkers s) {t : Task}
    (hw : s'.worker = Function.update s.worker (.dyn s.nextDyn, 0) .idle)
    (hl : ∀ x, x ≠ s.nextDyn → s'.list (.wait (.dyn x)) = s.list (.wait (.dyn x)))
    (ht : s'.list (.wait (.dyn s.nextDyn)) = s.list (.wait (.dyn s.nextDyn)) ++ [t])
    (hh : s'.holder = .free) : DynOk s' := by
  have hcases : ∀ x, x = s.nextDyn ∨ x ≠ s.nextDyn := fun x => em _
  refine ⟨?_, ?_, ?_⟩
  · intro x hx
    rcases hcases x with rfl | hne
    · exact absurd (by rw [hw, Function.update_self]) hx
    · rw [hw, update_dyn_of_ne (by simp [hne])] at hx
      rw [hl x hne]
      exact h.gone x hx
  · intro x
    rcases hcases x with rfl | hne
    · rw [ht, (hd.fresh _ le_rfl).2]
      exact le_rfl
    · rw [hl x hne]
      exact h.one x
  · intro x i rest hr
    rw [hh] at hr
    cases hr

end DynOk

theorem dynOk_step {s s' : Sched} {l : Label} (hb : Base s) (h : DynOk s) (hok : DynServes s l)
    (hs : step s l = some s') : DynOk s' := by
  have hheld : ∀ k i x j rest, Holder.get (.dyn k) i [] = .get (.dyn x) j rest →
      x = k ∧ rest = [] ∨ x ≠ k ∧ s.holder = .get (.dyn x) j rest := by
    intro k i x j rest he
    injection he with hk _ hrest
    exact Or.inl ⟨(PeonRef.dyn.inj hk).symm, hrest.symm⟩
  cases step_cases hs with
  | request | inherit =>
    exact h.of_same (fun _ => rfl) (fun _ => by simp [listAddTail]) h.scan
  | addFail => exact h.of_same (fun _ => rfl) (fun _ => by simp [listDel]) h.scan
  | add =>
    exact h.of_same (fun _ => rfl)
      (fun _ => by simp [listAddTail, listDel]) h.scan
  | @addDyn t hh =>
    refine h.create (t := t) hb.dyn (by simp) (fun x hx => ?_) ?_ hh
    · simp [listAddTail, listDel, hx]
    · simp [listAddTail, listDel]
  | poll =>
    refine h.of_same (fun _ => rfl) (fun _ => rfl) ?_
    intro k i rest hr
    injection hr with href _ hrest
    rw [← hrest, href]
  | @getDead ref i rest p now hh hp =>
    cases ref with
    | static type =>
      exact h.of_same (fun _ => rfl) (fun _ => by simp [listDel]) (by simp)
    | dyn k =>
      obtain ⟨rfl, hdrop⟩ := h.look hh hp
      refine h.emptied k (fun _ _ => rfl) (fun x hx => by simp [listDel, hx]) ?_ (hheld k i)
      simp [listDel, hdrop]
  | @getLeave ref i rest p now hh hp hlive hl =>
    cases ref with
    | static type => exact h.of_same (fun _ => rfl) (fun _ => by simp) (by simp)
    | dyn k =>
      obtain ⟨hnb, hgo⟩ := hok k i rest p hp hh hlive
      rcases hl with hb' | ⟨hs', hd⟩
      · cases hnb.symm.trans hb'
      · exact absurd hd (not_not.mpr (hgo.resolve_left fun hs => by cases hs'.symm.trans hs))
  | @getDiscard ref i rest p now hh hp =>
    cases ref with
    | static type =>
      exact h.of_same (fun _ => rfl) (fun _ => by simp [listDel]) (by simp)
    | dyn k =>
      obtain ⟨rfl, hdrop⟩ := h.look hh hp
      refine h.emptied k (fun _ _ => rfl) (fun x hx => by simp [listDel, hx]) ?_ (hheld k i)
      simp [listDel, hdrop]
  | @getPick ref i rest p now hh hp =>
    cases ref with
    | static type =>
      exact h.of_same (fun _ => by simp)
        (fun _ => by simp [listAddTail, listDel]) (by simp)
    | dyn k =>
      obtain ⟨-, hdrop⟩ := h.look hh hp
      refine h.emptied k (fun x hx => update_dyn_of_ne (by simp [hx]))
        (fun x hx => by simp [listAddTail, listDel, hx]) ?_ (by simp)
      simp [listAddTail, listDel, hdrop]
  | @handle ref i p ret hw =>
    cases ref with
    | static type => exact h.of_same (fun _ => by simp) (fun _ => rfl) h.scan
    | dyn k =>
      obtain rfl := hb.dyn.zero hw (by simp)
      refine h.emptied k (fun x hx => update_dyn_of_ne (by simp [hx])) (fun _ _ => rfl)
        (h.gone k (by simp [hw])) fun x i rest hh => Or.inr ⟨?_, hh⟩
      -- a worker that looks through its list has no task
      rintro rfl
      have hidle := (hb.workers.holder _ _ _ hh).1
      obtain rfl := hb.dyn.zero hidle (by simp)
      cases hw.symm.trans hidle
  | @completeRetry ref i p ret now hh hw hp hlive hret =>
    cases ref with
    | static type =>
      exact h.of_same (fun _ => by simp)
        (fun _ => by simp [listAddTail, listDel])
        fun _ _ _ he => by cases hh.symm.trans he
    | dyn k => exact absurd (hok p hp ret hw hlive) hret
  | @completeRecheck ref i p ret now hh hw hp hlive hret hc =>
    cases ref with
    | static type =>
      exact h.of_same (fun _ => by simp)
        (fun _ => by simp [listAddTail, listDel])
        fun _ _ _ he => by cases hh.symm.trans he
    | dyn k => cases hc
  | @completeFree ref i p ret now hh hw hp =>
    cases ref with
    | static type =>
      exact h.of_same (fun _ => by simp) (fun _ => by simp [listDel])
        fun _ _ _ he => by cases hh.symm.trans he
    | dyn k =>
      obtain rfl := hb.dyn.zero hw (by simp)
      exact h.emptied k (fun x hx => update_dyn_of_ne (by simp [hx])) (fun _ _ => by simp [listDel])
        (by simp [listDel, h.gone k (by simp [hw])]) fun _ _ _ he => by cases hh.symm.trans he
  | addStuck | recheck | recheckKeep | unlockRecheck =>
    exact h.of_same (fun _ => rfl) (fun _ => rfl) (by simp)
  | recheckDrop => exact h.of_same (fun _ => rfl) (fun _ => by simp [listDel]) (by simp)
  | relive =>
    exact h.of_same (fun _ => rfl)
      (fun _ => by simp [listAddTail, listDel]) (by simp)
  | @unlockGet ref i hh =>
    cases ref with
    | static type => exact h.of_same (fun _ => by simp) (fun _ => rfl) (by simp)
    | dyn k =>
      have hempty : s.list (.wait (.dyn k)) = [] := List.map_eq_nil_iff.mp (h.scan k _ _ hh).symm
      exact h.emptied k (fun x hx => update_dyn_of_ne (by simp [hx])) (fun _ _ => rfl) hempty (by simp)
  | @deconstruct k hh hw =>
    exact h.emptied k (fun x hx => update_dyn_of_ne (by simp [hx])) (fun x hx => by simp [hx])
      (by simp) fun _ _ _ he => by cases hh.symm.trans he
  | @exit k hh hw =>
    exact h.emptied k (fun x hx => update_dyn_of_ne (by simp [hx])) (fun _ _ => rfl)
      (h.gone k (by simp [hw])) fun _ _ _ he => by cases hh.symm.trans he

/-! Why a task is freed. -/

/-- What a handler returned is in the log. -/
def HandledLogged (s : Sched) : Prop :=
  ∀ ref i id ret, s.worker (ref, i) = .handled id ret → ∃ t, .handled t ret ∈ s.log ∧ t.id = id

namespace HandledLogged
variable {s s' : Sched}

theorem of_same (h : HandledLogged s) (hw : s'.worker = s.worker)
    (hl : s.log.Sublist s'.log) : HandledLogged s' := by
  intro ref i id ret hr
  rw [hw] at hr
  obtain ⟨t, ht, hid⟩ := h ref i id ret hr
  exact ⟨t, hl.subset ht, hid⟩

theorem set (h : HandledLogged s) {x : PeonRef × ℕ} (w : Worker)
    (hw : s'.worker = Function.update s.worker x w) (hne : ∀ id ret, w ≠ .handled id ret)
    (hl : s.log.Sublist s'.log) : HandledLogged s' := by
  intro ref i id ret hr
  rw [hw] at hr
  by_cases hx : (ref, i) = x
  · subst hx
    rw [Function.update_self] at hr
    exact absurd hr (hne id ret)
  · rw [Function.update_of_ne hx] at hr
    obtain ⟨t, ht, hid⟩ := h ref i id ret hr
    exact ⟨t, hl.subset ht, hid⟩

end HandledLogged

theorem afterRound_ne (ref : PeonRef) (id : ℕ) (ret : ℤ) : afterRound ref ≠ .handled id ret := by
  cases ref <;> nofun

theorem handledLogged_step {s s' : Sched} {l : Label} (h : HandledLogged s)
    (hs : step s l = some s') : HandledLogged s' := by
  cases step_cases hs with
  | request | inherit | addFail | add | addStuck | poll | getDead | getLeave | getDiscard |
    recheck | recheckDrop | recheckKeep | relive | unlockRecheck =>
    exact h.of_same (by simp) (by simp)
  | addDyn => exact h.set .idle (by simp; rfl) (fun _ _ => nofun) (by simp)
  | getPick => exact h.set (.running _) (by simp; rfl) (fun _ _ => nofun) (by simp)
  | completeRetry | completeRecheck | completeFree | unlockGet =>
    exact h.set _ (by simp; rfl) (afterRound_ne _) (by simp)
  | deconstruct => exact h.set .exiting (by simp; rfl) (fun _ _ => nofun) (by simp)
  | exit => exact h.set .absent rfl (fun _ _ => nofun) (List.Sublist.refl _)
  | @handle ref i p ret =>
    intro x j id ret' hr
    by_cases hx : (x, j) = (ref, i)
    · rw [hx] at hr
      simp only [Sched.emit_worker, Sched.setWorker_worker, Function.update_self,
        Worker.handled.injEq] at hr
      obtain ⟨rfl, rfl⟩ := hr
      exact ⟨p, by simp, rfl⟩
    · simp only [Sched.emit_worker, Sched.setWorker_worker, Function.update_of_ne hx] at hr
      obtain ⟨t, ht, hid⟩ := h x j id ret' hr
      exact ⟨t, by simp [ht], hid⟩

theorem freedForReason_step {s s' : Sched} {l : Label} (hb : Base s) (hd : DynOk s)
    (hh : HandledLogged s) (h : Always FreedForReason s.log) (hs : step s l = some s') :
    Always FreedForReason s'.log := by
  -- entries of other kinds
  have hother : ∀ e before, (∀ t, e ≠ Event.freed t) → FreedForReason before e :=
    fun e before he t hf => absurd hf (he t)
  have hscan : ∀ type p, Always FreedForReason (s.log ++ judgeDead s.list type p) := by
    intro type p
    refine h.append fun e he before => hother e before ?_
    rintro t rfl
    simp [judgeDead] at he
  cases step_cases hs with
  | request | inherit | addFail | addStuck | poll | completeRetry | completeRecheck | recheck |
    recheckKeep | unlockGet | unlockRecheck | exit => exact h
  | add | addDyn => exact h.concat (hother _ _ (by simp))
  | handle => exact h.concat (hother _ _ (by simp))
  | relive => exact h.concat (hother _ _ (by simp))
  | getLeave | getPick => exact hscan _ _
  | @getDead ref i rest p now _ hp hdead =>
    apply h.concat
    rintro t he -
    obtain rfl := Event.freed.inj he
    exact Or.inr (hb.dead _ _ hp hdead)
  | @getDiscard ref i rest p now _ hp _ _ hsup =>
    refine ((hscan _ _).append fun e he before => hother e before ?_).concat ?_
    · rintro t rfl
      simp [judgeDiscard] at he
    · rintro t he -
      obtain rfl := Event.freed.inj he
      exact Or.inr ((overruled_of_superseded hb.fit (hb.fit _ _ hp) hsup).mono
        (List.sublist_append_right ..))
  | @completeFree ref i p ret now _ hw hp hf =>
    apply h.concat
    intro t he _
    obtain rfl := Event.freed.inj he
    rcases hf with hdead | ⟨hret, -⟩
    · exact Or.inr (hb.dead _ _ hp hdead)
    · exact Or.inl (hh ref i p.id 0 (hret ▸ hw))
  | @recheckDrop rest p ret now _ hp =>
    apply h.concat
    intro t he htype
    obtain rfl := Event.freed.inj he
    have hc := (fitsPeon_recheck.mp (hb.fit _ _ hp)).1
    cases hc.symm.trans htype
  | @deconstruct k _ hw =>
    have hempty := hd.gone k (by simp [hw])
    rw [Sched.setWorker_log, Sched.emit_log, hempty]
    exact (List.append_nil s.log).symm ▸ h

theorem init_worker (cfgRestrainTime : ℕ) (x : PeonRef × ℕ) :
    (Sched.init cfgRestrainTime).worker x = .idle ∨
      (Sched.init cfgRestrainTime).worker x = .absent := by
  obtain ⟨ref, i⟩ := x
  cases ref with
  | static type => cases type <;> exact ite_eq_or_eq ..
  | dyn k => exact Or.inr rfl

/-- As long as dynamic peons serve their task at their one look at it, no
disconnect task is lost. -/
theorem disconn_not_lost (cfgRestrainTime : ℕ) (ls : List Label) (s : Sched)
    (hok : RunMeets step DynServes (Sched.init cfgRestrainTime) ls)
    (hr : run step (Sched.init cfgRestrainTime) ls = some s) : Always FreedForReason s.log := by
  have hall : ∀ s, Base s ∧ DynOk s ∧ HandledLogged s ∧ Always FreedForReason s.log →
      ∀ l s', DynServes s l → step s l = some s' →
        Base s' ∧ DynOk s' ∧ HandledLogged s' ∧ Always FreedForReason s'.log :=
    fun s ⟨hb, hd, hh, h⟩ l s' hok hs => ⟨base_step hb hs, dynOk_step hb hd hok hs,
      handledLogged_step hh hs, freedForReason_step hb hd hh h hs⟩
  refine (run_meets_invariant (fun s l s' h => hall s h l s') ?_ hok hr).2.2.2
  refine ⟨base_init _, ⟨fun _ _ => rfl, fun _ => Nat.zero_le _, nofun⟩, ?_, always_nil⟩
  intro ref i id ret hw
  rcases init_worker cfgRestrainTime (ref, i) with he | he <;> cases he.symm.trans hw

theorem disconn_not_lost_sample :
    ∃ ls s, run step (Sched.init 3) ls = some s ∧ (∃ t, Event.freed t ∈ s.log) ∧
      Always FreedForReason s.log := by
  let ls : List Label := [.request .disconn sampleParam sampleToolbox 0, .add 0 .ok,
    .poll (.static .disconn) 0, .get 5, .handle (.static .disconn) 0 0,
    .complete (.static .disconn) 0 6]
  obtain ⟨s, hs⟩ : ∃ s, run step (Sched.init 3) ls = some s := ⟨_, rfl⟩
  refine ⟨ls, s, hs, ?_, disconn_not_lost 3 ls s ?_ hs⟩
  · obtain rfl := Option.some.inj hs
    exact ⟨⟨0, 0, 0, 1, .live, sampleToolbox, sampleParam, ⟨.disconn, 0, false⟩⟩, by decide⟩
  · refine ⟨trivial, fun s₁ h₁ => ⟨trivial, fun s₂ h₂ => ⟨trivial, fun s₃ h₃ => ⟨?_,
      fun _ _ => ⟨trivial, fun _ _ => ⟨trivial, fun _ _ => trivial⟩⟩⟩⟩⟩⟩
    obtain rfl := Option.some.inj h₁
    obtain rfl := Option.some.inj h₂
    obtain rfl := Option.some.inj h₃
    intro k i rest p hp hh
    cases hh

/-- Sixteen disconnects take the workers of the static peon; the dynamic peon of
the seventeenth comes to it before its restrain time is over, and is gone. -/
def seventeen : List Label :=
  ((List.range 17).flatMap fun id =>
    [.request .disconn sampleParam sampleToolbox 0, .add id .ok]) ++
  [.poll (.dyn 0) 0, .get 1, .unlock, .deconstruct 0]

def seventeenTask (id : ℕ) : Task :=
  ⟨id, 0, 0, id+1, .live, sampleToolbox, sampleParam, ⟨.disconn, id, false⟩⟩

theorem disconn_lost_seventeen :
    ¬∀ cfgRestrainTime ls s, run step (Sched.init cfgRestrainTime) ls = some s →
      Always FreedForReason s.log := by
  intro h
  have hrun : ∃ s, run step (Sched.init 3) seventeen = some s ∧
      s.log = ((List.range 17).map fun id => .added (seventeenTask id)) ++
        [.freed (seventeenTask 16)] := by
    refine ⟨_, rfl, ?_⟩
    decide
  obtain ⟨s, hs, hlog⟩ := hrun
  -- nothing but additions came before
  rcases h 3 seventeen s hs _ _ _ hlog _ rfl rfl with ⟨u, hu, -⟩ | ⟨p, o, hu | hu, -⟩ <;>
    simp at hu

end NvmeSnsd.ConnPeon
