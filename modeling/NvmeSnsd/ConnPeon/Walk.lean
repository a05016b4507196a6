import NvmeSnsd.ConnPeon.History

/-! The walks under the list lock: they stay on the list they are about, and they end. -/
namespace NvmeSnsd.ConnPeon
open Lib

/-- The list that the holder of the lock walks. -/
def Holder.walked : Holder → Option ListRef
  | .get ref _ _ => some (.wait ref)
  | .recheck _ => some (.wait (.static .recheck))
  | .free | .stuck => none

/-- The tasks it has not come to. -/
def Holder.rest : Holder → List ℕ
  | .get _ _ rest | .recheck rest => rest
  | .free | .stuck => []

/-- What the walk has not come to is on its list, in the order of the list. -/
def WalkOk (s : Sched) : Prop :=
  ∀ r, s.holder.walked = some r → s.holder.rest.Sublist ((s.list r).map Task.id)

@[simp] theorem judgeLists_ids (l : Lists) (type : PeonType) (p : Task) (r : ListRef) :
    (judgeLists l type p r).map Task.id = (l r).map Task.id := by
  rw [judgeLists, List.map_map]
  apply List.map_congr_left
  intro q _
  exact judgeMark_id ..

@[simp] theorem listDel_ids (l : Lists) (r : ListRef) (id : ℕ) :
    (listDel l r id r).map Task.id = ((l r).map Task.id).filter (· != id) := by
  rw [listDel, Function.update_self, dropTask, List.filter_map]
  rfl

namespace WalkOk
variable {s s' : Sched}

/-- The holder stays where it is, and so do the names on its list. -/
theorem of_same (h : WalkOk s) (hh : s'.holder = s.holder)
    (hl : ∀ ref, (s'.list (.wait ref)).map Task.id = (s.list (.wait ref)).map Task.id) :
    WalkOk s' := by
  intro r hr
  rw [hh] at hr ⊢
  have hwait : ∃ ref, r = .wait ref := by
    cases hd : s.holder with
    | free | stuck => simp [hd, Holder.walked] at hr
    | get ref i rest =>
      rw [hd] at hr
      exact ⟨ref, (Option.some.inj hr).symm⟩
    | recheck rest =>
      rw [hd] at hr
      exact ⟨_, (Option.some.inj hr).symm⟩
  obtain ⟨ref, rfl⟩ := hwait
  rw [hl]
  exact h _ hr

theorem of_none (hw : s'.holder.walked = none) : WalkOk s' := by
  intro r hr
  rw [hw] at hr
  cases hr

/-- The walk goes on, and has taken the task it has come to off its list, or not. -/
theorem advance (h : WalkOk s) (hi : Ids s.list s.nextId) {r : ListRef} {id : ℕ} {rest : List ℕ}
    (hw : s.holder.walked = some r) (hr : s.holder.rest = id :: rest)
    (hw' : s'.holder.walked = some r) (hr' : s'.holder.rest = rest)
    (hl : (s'.list r).map Task.id = (s.list r).map Task.id ∨
      (s'.list r).map Task.id = ((s.list r).map Task.id).filter (· != id)) : WalkOk s' := by
  intro x hx
  obtain rfl := Option.some.inj (hw'.symm.trans hx)
  have hsub : (id :: rest).Sublist ((s.list r).map Task.id) := hr ▸ h r hw
  have hrest : rest.Sublist ((s.list r).map Task.id) := (List.sublist_cons_self id rest).trans hsub
  rw [hr']
  rcases hl with he | he
  · rw [he]
    exact hrest
  · -- the one that is off is not among those to come
    have hid : id ∉ rest := (List.nodup_cons.mp ((hi.nodup r).sublist hsub)).1
    have hkeep : rest.filter (· != id) = rest := by
      apply List.filter_eq_self.mpr
      intro y hy
      rw [bne_iff_ne]
      rintro rfl
      exact hid hy
    rw [he, ← hkeep]
    exact hrest.filter _

end WalkOk

theorem walkOk_step {s s' : Sched} {l : Label} (hi : Ids s.list s.nextId) (h : WalkOk s)
    (hs : step s l = some s') : WalkOk s' := by
  cases step_cases hs with
  | request | inherit => exact h.of_same rfl fun ref => by simp [listAddTail]
  | addFail => exact h.of_same rfl fun ref => by simp [listDel]
  | handle => exact h.of_same rfl fun _ => rfl
  | add hh | addDyn hh | completeRetry hh | completeRecheck hh | completeFree hh | deconstruct hh
  | exit hh => exact WalkOk.of_none (congrArg Holder.walked hh)
  | addStuck | unlockGet | unlockRecheck | getPick => exact WalkOk.of_none rfl
  | poll | recheck =>
    intro r hr
    obtain rfl := Option.some.inj hr
    exact List.Sublist.refl _
  | getDead hh | getDiscard hh | recheckDrop hh =>
    exact h.advance hi (congrArg Holder.walked hh) (congrArg Holder.rest hh) rfl rfl
      (.inr (by simp))
  | getLeave hh | recheckKeep hh =>
    exact h.advance hi (congrArg Holder.walked hh) (congrArg Holder.rest hh) rfl rfl
      (.inl (by simp))
  | relive hh =>
    -- it goes to the end of another list
    exact h.advance hi (congrArg Holder.walked hh) (congrArg Holder.rest hh) rfl rfl
      (.inr (by simp [listAddTail]))

theorem walkOk_run {cfgRestrainTime : ℕ} {ls : List Label} {s : Sched}
    (hr : run step (Sched.init cfgRestrainTime) ls = some s) : WalkOk s := by
  have hinv : Base s ∧ WalkOk s := by
    apply run_invariant (I := fun s => Base s ∧ WalkOk s) _ _ hr
    · rintro s l s' ⟨hb, h⟩ hs
      exact ⟨base_step hb hs, walkOk_step hb.ids h hs⟩
    · exact ⟨base_init cfgRestrainTime, WalkOk.of_none rfl⟩
  exact hinv.2

/-! The lock is given back. -/

/-- The steps that the holder of the lock takes. -/
def Label.isWalk : Label → Bool
  | .get _ | .recheckOne .. | .unlock => true
  | _ => false

/-- The next of them, with the time and the result of `recheck` that it finds. -/
def Holder.next (now : ℕ) (ret : ℤ) : Holder → Label
  | .get _ _ (_ :: _) => .get now
  | .recheck (_ :: _) => .recheckOne ret now
  | _ => .unlock

/-- How many there are at most. -/
def Holder.left : Holder → ℕ
  | .free | .stuck => 0
  | .get _ _ rest | .recheck rest => rest.length+1

/-- The holder can always go on. -/
theorem next_enabled {s : Sched} (hi : Ids s.list s.nextId) (h : WalkOk s)
    (hh : s.holder.walked ≠ none) (now : ℕ) (ret : ℤ) :
    ∃ t, step s (s.holder.next now ret) = some t := by
  cases hd : s.holder with
  | free | stuck => simp [hd, Holder.walked] at hh
  | get ref i rest =>
    cases rest with
    | nil => exact ⟨_, by simp [Holder.next, step, unlockStep, hd]; rfl⟩
    | cons id rest =>
      have hsub := h (.wait ref) (by rw [hd]; rfl)
      rw [hd] at hsub
      obtain ⟨p, hp, rfl⟩ := List.mem_map.mp (hsub.subset List.mem_cons_self)
      have hf := findTask_of_mem hi hp
      exact ⟨_, by simp [Holder.next, step, getStep, hd, hf]; rfl⟩
  | recheck rest =>
    cases rest with
    | nil => exact ⟨_, by simp [Holder.next, step, unlockStep, hd]; rfl⟩
    | cons id rest =>
      have hsub := h (.wait (.static .recheck)) (by rw [hd]; rfl)
      rw [hd] at hsub
      obtain ⟨p, hp, rfl⟩ := List.mem_map.mp (hsub.subset List.mem_cons_self)
      have hf := findTask_of_mem hi hp
      exact ⟨_, by simp [Holder.next, step, recheckOneStep, hd, hf]; rfl⟩

/-- With each of its steps it comes closer to giving the lock back. -/
theorem left_lt {s s' : Sched} {l : Label} (hl : l.isWalk = true) (hs : step s l = some s') :
    s'.holder.left < s.holder.left ∧ s'.holder ≠ .stuck := by
  cases step_cases hs with
  | request | inherit | addFail | add | addDyn | addStuck | poll | handle | completeRetry |
    completeRecheck | completeFree | recheck | deconstruct | exit => cases hl
  | getDead hh | getLeave hh | getDiscard hh | getPick hh | recheckDrop hh | recheckKeep hh
  | relive hh | unlockGet hh | unlockRecheck hh =>
    rw [hh]
    simp [Holder.left]

/-- Nobody else has a say in that. -/
theorem holder_kept {s s' : Sched} {l : Label} (hl : l.isWalk = false)
    (hh : s.holder.walked ≠ none) (hs : step s l = some s') : s'.holder = s.holder := by
  have hfree : s.holder ≠ .free := by
    intro he
    rw [he] at hh
    exact hh rfl
  cases step_cases hs with
  | request | inherit | addFail | handle => rfl
  | add he | addDyn he | addStuck he | poll he | completeRetry he | completeRecheck he
  | completeFree he | recheck he | deconstruct he | exit he => exact absurd he hfree
  | getDead | getLeave | getDiscard | getPick | recheckDrop | recheckKeep | relive | unlockGet |
    unlockRecheck => cases hl

theorem walked_or_free {h : Holder} (hs : h ≠ .stuck) : h.walked ≠ none ∨ h = .free := by
  cases h with
  | free => exact Or.inr rfl
  | stuck => exact absurd rfl hs
  | get | recheck => exact Or.inl (by simp [Holder.walked])

/-- A run with as many steps of the holder as it needs has a state in which the lock is free. -/
theorem given_back {s s' : Sched} {ms : List Label} (hh : s.holder ≠ .stuck)
    (hr : run step s ms = some s') (hc : s.holder.left ≤ ms.countP Label.isWalk) :
    ∃ n ≤ ms.length, ∃ t, run step s (ms.take n) = some t ∧ t.holder = .free := by
  induction ms generalizing s with
  | nil =>
    have hleft : s.holder.left = 0 := Nat.le_zero.mp hc
    refine ⟨0, le_rfl, s, rfl, ?_⟩
    cases hd : s.holder with
    | free => rfl
    | stuck => exact absurd hd hh
    | get | recheck => simp [hd, Holder.left] at hleft
  | cons l ms ih =>
    rcases walked_or_free hh with hw | hfree
    · obtain ⟨t, ht, hr⟩ := run_cons.mp hr
      have hnext : t.holder ≠ .stuck ∧ t.holder.left ≤ ms.countP Label.isWalk := by
        rw [List.countP_cons] at hc
        cases hl : l.isWalk with
        | true =>
          obtain ⟨hlt, hns⟩ := left_lt hl ht
          rw [hl, if_pos rfl] at hc
          exact ⟨hns, by omega⟩
        | false =>
          rw [hl, if_neg (by simp)] at hc
          rw [holder_kept hl hw ht]
          exact ⟨hh, hc⟩
      obtain ⟨n, hn, u, hu, hfree⟩ := ih hnext.1 hr hnext.2
      exact ⟨n+1, Nat.succ_le_succ hn, u, run_cons.mpr ⟨t, ht, hu⟩, hfree⟩
    · exact ⟨0, Nat.zero_le _, s, rfl, hfree⟩

/-- What holds of a walk under the lock, in `s` and in what may come after it. -/
structure Walks (s : Sched) : Prop where
  /-- The tasks to come are on the list that is walked, and nobody has freed them. -/
  listed : ∀ r, s.holder.walked = some r → ∀ id ∈ s.holder.rest,
    (∃ p ∈ s.list r, p.id = id) ∧ ∀ u, .freed u ∈ s.log → u.id ≠ id
  enabled : s.holder.walked ≠ none → ∀ now ret, ∃ t, step s (s.holder.next now ret) = some t
  /-- Whatever others do meanwhile, and whatever the walk finds, the lock is given back. -/
  back : s.holder.walked ≠ none → ∀ ms s', run step s ms = some s' →
    s.holder.left ≤ ms.countP Label.isWalk →
      ∃ n ≤ ms.length, ∃ t, run step s (ms.take n) = some t ∧ t.holder = .free

/-- In every reachable state the walk under the lock is on tasks that are there, and comes to
its end after as many steps as tasks were waiting. -/
theorem walks_end (cfgRestrainTime : ℕ) (ls : List Label) (s : Sched)
    (hr : run step (Sched.init cfgRestrainTime) ls = some s) : Walks s := by
  have hwalk : WalkOk s := walkOk_run hr
  have hlog : LogOk s.list s.nextId s.log := logOk_run hr
  refine ⟨?_, next_enabled (base_run hr).ids hwalk, ?_⟩
  · intro r hw id hid
    obtain ⟨p, hp, rfl⟩ := List.mem_map.mp ((hwalk r hw).subset hid)
    exact ⟨⟨p, hp, rfl⟩, fun u hu he => hlog.gone u hu r p hp he.symm⟩
  · intro hw ms s' hms hc
    apply given_back _ hms hc
    intro he
    rw [he] at hw
    exact hw rfl

/-- A worker on its way through two tasks. -/
theorem walks_end_sample :
    ∃ ls s, run step (Sched.init 3) ls = some s ∧ s.holder.left = 3 ∧ Walks s := by
  let ls : List Label := [.request .connect sampleParam sampleToolbox 0, .add 0 .ok,
    .request .connect sampleParam sampleToolbox 0, .add 1 .ok, .poll (.static .connect) 0]
  obtain ⟨s, hs⟩ : ∃ s, run step (Sched.init 3) ls = some s := ⟨_, rfl⟩
  refine ⟨ls, s, hs, ?_, walks_end 3 ls s hs⟩
  obtain rfl := Option.some.inj hs
  decide

end NvmeSnsd.ConnPeon
