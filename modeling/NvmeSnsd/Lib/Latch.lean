import NvmeSnsd.Lib.Run

/-! A thread starts workers, counts each of them under a mutex, and later waits on a
condition variable until all of them have counted themselves off again. -/
namespace NvmeSnsd.Lib

/-- Where a worker stands: in its loop, or past it, before it has the mutex, with the
mutex before and after it counts itself off, before it signals, or at its end. -/
inductive WorkerPc
  | absent
  | running
  | leaving
  | locked
  | counted
  | signalling
  | ended
  deriving DecidableEq

/-- Where the starter stands: outside, between the creation of a worker and the end of
its counting, or in the wait. -/
inductive StarterPc (W : Type)
  | idle
  | toAdd (w : W)
  | adding (w : W)
  | added
  | entering
  | checking
  | asleep
  | woken
  | passing
  | passed
  deriving DecidableEq

/-- `owner` has the mutex: the starter, or a worker. -/
structure Latch (W : Type) where
  worker : W → WorkerPc
  starter : StarterPc W
  num : ℤ
  owner : Option (Option W)

/-- `wake` is a wakeup without a signal. -/
inductive LatchMove (W : Type)
  | create (w : W)
  | join
  | starter
  | leave (w : W)
  | worker (w : W)
  | wake

/-- The moves that let a waiting starter through: its own and those of the workers. -/
def LatchMove.drains {W : Type} : LatchMove W → Bool
  | .starter => true
  | .leave _ => true
  | .worker _ => true
  | _ => false

/-- A worker is created, or the wait begins. -/
def LatchMove.starts {W : Type} : LatchMove W → Bool
  | .create _ => true
  | .join => true
  | _ => false

namespace Latch
variable {W : Type}

def init : Latch W := ⟨fun _ => .absent, .idle, 0, none⟩

def starterStep (s : Latch W) : Option (Latch W) :=
  match s.starter with
  | .toAdd w => if s.owner = none then some { s with starter := .adding w, owner := some none } else none
  | .adding _ => some { s with starter := .added, num := s.num+1 }
  | .added => some { s with starter := .idle, owner := none }
  | .entering => if s.owner = none then some { s with starter := .checking, owner := some none } else none
  | .checking =>
    if 0 < s.num then some { s with starter := .asleep, owner := none }
    else some { s with starter := .passing }
  | .woken => if s.owner = none then some { s with starter := .checking, owner := some none } else none
  | .passing => some { s with starter := .passed, owner := none }
  | .idle => none
  | .asleep => none
  | .passed => none

variable [DecidableEq W]

def setWorker (s : Latch W) (w : W) (pc : WorkerPc) : Latch W :=
  { s with worker := Function.update s.worker w pc }

def workerStep (s : Latch W) (w : W) : Option (Latch W) :=
  match s.worker w with
  | .leaving =>
    if s.owner = none then some { s.setWorker w .locked with owner := some (some w) } else none
  | .locked => some { s.setWorker w .counted with num := s.num-1 }
  | .counted => some { s.setWorker w .signalling with owner := none }
  | .signalling =>
    some { s.setWorker w .ended with
      starter := if s.starter = .asleep then .woken else s.starter }
  | .absent => none
  | .running => none
  | .ended => none

def step (s : Latch W) : LatchMove W → Option (Latch W)
  | .create w =>
    if s.starter = .idle ∧ s.worker w = .absent then
      some { s.setWorker w .running with starter := .toAdd w }
    else none
  | .join => if s.starter = .idle then some { s with starter := .entering } else none
  | .starter => s.starterStep
  | .leave w => if s.worker w = .running then some (s.setWorker w .leaving) else none
  | .worker w => s.workerStep w
  | .wake => if s.starter = .asleep then some { s with starter := .woken } else none

end Latch

def WorkerPc.holds : WorkerPc → Bool
  | .locked => true
  | .counted => true
  | _ => false

/-- The worker has counted itself off. -/
def WorkerPc.off : WorkerPc → Bool
  | .counted => true
  | .signalling => true
  | .ended => true
  | _ => false

/-- The worker is at most before its signal. -/
def WorkerPc.gone : WorkerPc → Bool
  | .absent => true
  | .signalling => true
  | .ended => true
  | _ => false

namespace StarterPc
variable {W : Type}

def holds : StarterPc W → Bool
  | .adding _ => true
  | .added => true
  | .checking => true
  | .passing => true
  | _ => false

/-- The worker that is created and not counted yet. -/
def owes : StarterPc W → Option W
  | .toAdd w => some w
  | .adding w => some w
  | _ => none

/-- It waits for the workers. -/
def joins : StarterPc W → Bool
  | .entering => true
  | .checking => true
  | .asleep => true
  | .woken => true
  | .passing => true
  | _ => false

/-- It has found the count at zero. -/
def past : StarterPc W → Bool
  | .passing => true
  | .passed => true
  | _ => false

end StarterPc

/-- A sum of which one term changes. -/
theorem sum_change {W : Type} [Fintype W] {f g : W → ℤ} {w : W} {d : ℤ} (hw : g w = f w+d)
    (h : ∀ x, x ≠ w → g x = f x) : ∑ x, g x = (∑ x, f x)+d := by
  have hdiff : ∑ x, (g x-f x) = g w-f w := by
    apply Fintype.sum_eq_single w
    intro x hx
    rw [h x hx, sub_self]
  rw [Finset.sum_sub_distrib] at hdiff
  omega

namespace Latch
variable {W : Type} [DecidableEq W]

section Stay
variable {s t : Latch W}

/-- Who is gone stays so, as long as no worker is created. -/
theorem workerPc_step {P : WorkerPc → Prop} (hs : P .signalling → P .ended)
    (hno : ∀ pc, P pc → pc = .absent ∨ pc = .signalling ∨ pc = .ended) {m : LatchMove W}
    (hm : m.starts = false) (h : ∀ w, P (s.worker w)) (ht : s.step m = some t) :
    ∀ w, P (t.worker w) := by
  cases m with
  | create | join => cases hm
  | starter =>
    have hsame : t.worker = s.worker := by
      have ht : s.starterStep = some t := ht
      unfold starterStep at ht
      split at ht
      · split_ifs at ht
        obtain rfl := Option.some.inj ht
        rfl
      · obtain rfl := Option.some.inj ht
        rfl
      · obtain rfl := Option.some.inj ht
        rfl
      · split_ifs at ht
        obtain rfl := Option.some.inj ht
        rfl
      · split_ifs at ht <;> obtain rfl := Option.some.inj ht <;> rfl
      · split_ifs at ht
        obtain rfl := Option.some.inj ht
        rfl
      · obtain rfl := Option.some.inj ht
        rfl
      · cases ht
      · cases ht
      · cases ht
    rw [hsame]
    exact h
  | leave w =>
    simp only [step] at ht
    split_ifs at ht with hw
    rcases hno _ (h w) with he | he | he <;> rw [hw] at he <;> cases he
  | worker w =>
    have ht : s.workerStep w = some t := ht
    unfold workerStep at ht
    rcases hno _ (h w) with he | he | he
    · rw [he] at ht
      cases ht
    · rw [he] at ht
      obtain rfl := Option.some.inj ht
      intro x
      dsimp only [setWorker]
      by_cases hx : x = w
      · subst hx
        rw [Function.update_self]
        exact hs (he ▸ h x)
      · rw [Function.update_of_ne hx]
        exact h x
    · rw [he] at ht
      cases ht
  | wake =>
    simp only [step] at ht
    split_ifs at ht
    obtain rfl := Option.some.inj ht
    exact h

theorem gone_step {m : LatchMove W} (hm : m.starts = false)
    (h : ∀ w, (s.worker w).gone = true) (ht : s.step m = some t) :
    ∀ w, (t.worker w).gone = true := by
  refine workerPc_step (P := fun pc => pc.gone = true) (fun _ => rfl) (fun pc => ?_) hm h ht
  cases pc <;> decide

theorem absent_step {m : LatchMove W} (hm : m.starts = false)
    (h : ∀ w, s.worker w = .absent) (ht : s.step m = some t) : ∀ w, t.worker w = .absent := by
  refine workerPc_step (P := fun pc => pc = .absent) (fun he => (by cases he)) (fun pc hp => ?_)
    hm h ht
  exact .inl hp

/-- A wait goes on until it is passed. -/
theorem joins_step {m : LatchMove W} (hm : m.starts = false)
    (h : s.starter.joins = true ∨ s.starter = .passed) (ht : s.step m = some t) :
    t.starter.joins = true ∨ t.starter = .passed := by
  cases m with
  | create | join => cases hm
  | starter =>
    have ht : s.starterStep = some t := ht
    unfold starterStep at ht
    split at ht
    · rename_i hs
      rw [hs] at h
      rcases h with h | h <;> cases h
    · rename_i hs
      rw [hs] at h
      rcases h with h | h <;> cases h
    · rename_i hs
      rw [hs] at h
      rcases h with h | h <;> cases h
    · split_ifs at ht
      obtain rfl := Option.some.inj ht
      exact .inl rfl
    · split_ifs at ht <;> obtain rfl := Option.some.inj ht <;> exact .inl rfl
    · split_ifs at ht
      obtain rfl := Option.some.inj ht
      exact .inl rfl
    · obtain rfl := Option.some.inj ht
      exact .inr rfl
    · cases ht
    · cases ht
    · cases ht
  | leave w =>
    simp only [step] at ht
    split_ifs at ht
    obtain rfl := Option.some.inj ht
    exact h
  | worker w =>
    have ht : s.workerStep w = some t := ht
    unfold workerStep at ht
    split at ht
    · split_ifs at ht
      obtain rfl := Option.some.inj ht
      exact h
    · obtain rfl := Option.some.inj ht
      exact h
    · obtain rfl := Option.some.inj ht
      exact h
    · obtain rfl := Option.some.inj ht
      dsimp only
      split
      · exact .inl rfl
      · exact h
    · cases ht
    · cases ht
    · cases ht
  | wake =>
    simp only [step] at ht
    split_ifs at ht
    obtain rfl := Option.some.inj ht
    exact .inl rfl

end Stay

/-- What a worker contributes to the count, given who is still to be counted. -/
def share (owes : Option W) (w : W) (pc : WorkerPc) : ℤ :=
  (if pc = .absent ∨ owes = some w then 0 else 1)-(if pc.off then 1 else 0)

theorem share_none (w : W) (pc : WorkerPc) :
    share none w pc = (if pc = .absent then 0 else 1)-(if pc.off then 1 else 0) := by
  simp only [share, reduceCtorEq, or_false]

variable [Fintype W]

/-- The mutex has one owner, the count is that of the workers counted and not yet off,
and a sleeping starter will be woken. -/
structure Ok (s : Latch W) : Prop where
  starter : s.owner = some none ↔ s.starter.holds = true
  worker : ∀ w, s.owner = some (some w) ↔ (s.worker w).holds = true
  num : s.num = ∑ w, share s.starter.owes w (s.worker w)
  owes : ∀ w, s.starter.owes = some w → s.worker w ≠ .absent
  asleep : s.starter = .asleep →
    0 < s.num ∨ ∃ w, s.worker w = .counted ∨ s.worker w = .signalling
  past : s.starter.past = true → ∀ w, (s.worker w).gone = true

theorem ok_init : Ok (init : Latch W) where
  starter := ⟨fun h => (by cases h), fun h => (by cases h)⟩
  worker := fun _ => ⟨fun h => (by cases h), fun h => (by cases h)⟩
  num := (Finset.sum_eq_zero fun _ _ => rfl).symm
  owes := fun _ h => (by cases h)
  asleep := fun h => (by cases h)
  past := fun h => (by cases h)

section Keep
variable {s t : Latch W} {w : W}

/-- A worker goes on, and the sum with it. -/
theorem sum_worker {o : Option W} {f : W → WorkerPc} {pc : WorkerPc} {d : ℤ}
    (hd : share o w pc = share o w (f w)+d) :
    ∑ x, share o x (Function.update f w pc x) = (∑ x, share o x (f x))+d := by
  apply sum_change (w := w)
  · rw [Function.update_self]
    exact hd
  · intro x hx
    rw [Function.update_of_ne hx]

/-- The starter has counted the worker. -/
theorem sum_owes {f : W → WorkerPc} (hf : f w ≠ .absent) :
    ∑ x, share none x (f x) = (∑ x, share (some w) x (f x))+1 := by
  apply sum_change (w := w)
  · simp only [share, hf, false_or, if_true, reduceCtorEq, if_false]
    ring
  · intro x hx
    have hne : ¬ some w = some x := fun he => hx (Option.some.inj he).symm
    simp only [share, hne, reduceCtorEq, or_false]

/-- With a count that is not positive and no one to be counted, all are off. -/
theorem all_off (hnum : s.num = ∑ w, share none w (s.worker w)) (hle : s.num ≤ 0) (w : W) :
    s.worker w = .absent ∨ (s.worker w).off = true := by
  have hnonneg (x : W) : 0 ≤ share none x (s.worker x) := by
    rw [share_none]
    cases s.worker x <;> decide
  have hzero : share none w (s.worker w) = 0 := by
    have hsum : ∑ x, share none x (s.worker x) = 0 :=
      le_antisymm (hnum ▸ hle) (Finset.sum_nonneg fun x _ => hnonneg x)
    exact (Finset.sum_eq_zero_iff_of_nonneg fun x _ => hnonneg x).mp hsum w (Finset.mem_univ w)
  rw [share_none] at hzero
  revert hzero
  cases s.worker w <;> decide

theorem starterStep_ok (h : Ok s) (ht : s.starterStep = some t) : Ok t := by
  -- no worker has the mutex while the starter takes it or has it
  have hfree (ho : s.owner = none) (w : W) : (s.worker w).holds = false := by
    rw [Bool.eq_false_iff]
    intro hw
    have := (h.worker w).mpr hw
    rw [ho] at this
    cases this
  have hmine (ho : s.starter.holds = true) (w : W) : (s.worker w).holds = false := by
    rw [Bool.eq_false_iff]
    intro hw
    have := (h.worker w).mpr hw
    rw [h.starter.mpr ho] at this
    cases this
  have hnone (hw : ∀ w, (s.worker w).holds = false) (w : W) (o : Option (Option W))
      (ho : o ≠ some (some w)) : o = some (some w) ↔ (s.worker w).holds = true := by
    rw [hw w]
    exact ⟨fun he => (ho he).elim, fun he => (by cases he)⟩
  have hn := h.num
  have hone := h.owes
  unfold starterStep at ht
  split at ht
  · rename_i w hs
    split_ifs at ht with ho
    obtain rfl := Option.some.inj ht
    rw [hs] at hn hone
    exact ⟨⟨fun _ => rfl, fun _ => rfl⟩, fun x => hnone (hfree ho) x _ (by simp), hn, hone,
      fun he => (by cases he), fun he => (by cases he)⟩
  · rename_i w hs
    obtain rfl := Option.some.inj ht
    have hholds : s.starter.holds = true := by rw [hs]; rfl
    have ho := h.starter.mpr hholds
    rw [hs] at hn hone
    refine ⟨⟨fun _ => rfl, fun _ => ho⟩, h.worker, ?_, fun x hx => (by cases hx),
      fun he => (by cases he), fun he => (by cases he)⟩
    exact (congrArg (·+1) hn).trans (sum_owes (hone w rfl)).symm
  · rename_i hs
    obtain rfl := Option.some.inj ht
    have hholds : s.starter.holds = true := by rw [hs]; rfl
    rw [hs] at hn
    exact ⟨⟨fun he => (by cases he), fun he => (by cases he)⟩,
      fun x => hnone (hmine hholds) x _ (by simp), hn, fun x hx => (by cases hx),
      fun he => (by cases he), fun he => (by cases he)⟩
  · rename_i hs
    split_ifs at ht with ho
    obtain rfl := Option.some.inj ht
    rw [hs] at hn
    exact ⟨⟨fun _ => rfl, fun _ => rfl⟩, fun x => hnone (hfree ho) x _ (by simp), hn,
      fun x hx => (by cases hx), fun he => (by cases he), fun he => (by cases he)⟩
  · rename_i hs
    have hholds : s.starter.holds = true := by rw [hs]; rfl
    rw [hs] at hn
    split_ifs at ht with hpos
    · obtain rfl := Option.some.inj ht
      exact ⟨⟨fun he => (by cases he), fun he => (by cases he)⟩,
        fun x => hnone (hmine hholds) x _ (by simp), hn, fun x hx => (by cases hx),
        fun _ => .inl hpos, fun he => (by cases he)⟩
    · obtain rfl := Option.some.inj ht
      have ho := h.starter.mpr hholds
      refine ⟨⟨fun _ => rfl, fun _ => ho⟩, h.worker, hn, fun x hx => (by cases hx),
        fun he => (by cases he), fun _ w => ?_⟩
      -- who is off has given the mutex back, which the starter has
      have hw := hmine hholds w
      rcases all_off hn (by omega) w with ha | ha
      · dsimp only
        rw [ha]
        rfl
      · revert hw ha
        dsimp only
        cases s.worker w <;> decide
  · rename_i hs
    split_ifs at ht with ho
    obtain rfl := Option.some.inj ht
    rw [hs] at hn
    exact ⟨⟨fun _ => rfl, fun _ => rfl⟩, fun x => hnone (hfree ho) x _ (by simp), hn,
      fun x hx => (by cases hx), fun he => (by cases he), fun he => (by cases he)⟩
  · rename_i hs
    obtain rfl := Option.some.inj ht
    have hholds : s.starter.holds = true := by rw [hs]; rfl
    have hpast : s.starter.past = true := by rw [hs]; rfl
    rw [hs] at hn
    exact ⟨⟨fun he => (by cases he), fun he => (by cases he)⟩,
      fun x => hnone (hmine hholds) x _ (by simp), hn, fun x hx => (by cases hx),
      fun he => (by cases he), fun _ => h.past hpast⟩
  · cases ht
  · cases ht
  · cases ht

/-- A worker goes on, and with it the starter, the count or the mutex. -/
theorem Ok.goes (h : Ok s) (w : W) (pc : WorkerPc) (starter : StarterPc W) {num d : ℤ}
    (owner : Option (Option W)) (hnum : num = s.num+d) (hstarter : owner = some none ↔ starter.holds = true)
    (hw : owner = some (some w) ↔ pc.holds = true)
    (hothers : ∀ x, x ≠ w → (owner = some (some x) ↔ (s.worker x).holds = true))
    (howes : starter.owes = s.starter.owes) (hpc : pc ≠ .absent)
    (hd : share s.starter.owes w pc = share s.starter.owes w (s.worker w)+d)
    (hasleep : starter = .asleep → pc = .counted ∨ pc = .signalling ∨
      s.starter = .asleep ∧ d = 0 ∧ s.worker w ≠ .counted ∧ s.worker w ≠ .signalling)
    (hpast : starter.past = true → s.starter.past = true ∧ pc.gone = true) :
    Ok ⟨Function.update s.worker w pc, starter, num, owner⟩ where
  starter := hstarter
  worker := by
    intro x
    dsimp only
    by_cases hx : x = w
    · subst hx
      rw [Function.update_self]
      exact hw
    · rw [Function.update_of_ne hx]
      exact hothers x hx
  num := by
    dsimp only
    rw [howes, sum_worker hd, hnum, h.num]
  owes := by
    intro x hx
    dsimp only at hx ⊢
    by_cases he : x = w
    · subst he
      rw [Function.update_self]
      exact hpc
    · rw [Function.update_of_ne he]
      exact h.owes x (howes ▸ hx)
  asleep := by
    intro hs
    dsimp only at hs ⊢
    rcases hasleep hs with hp | hp | ⟨hs', rfl, hc, hg⟩
    · exact .inr ⟨w, .inl ((Function.update_self ..).trans hp)⟩
    · exact .inr ⟨w, .inr ((Function.update_self ..).trans hp)⟩
    · rcases h.asleep hs' with hpos | ⟨x, hx⟩
      · exact .inl (by omega)
      · have hne : x ≠ w := by
          rintro rfl
          exact hx.elim hc hg
        exact .inr ⟨x, by rw [Function.update_of_ne hne]; exact hx⟩
  past := by
    intro hp x
    obtain ⟨hp, hg⟩ := hpast hp
    dsimp only
    by_cases hx : x = w
    · subst hx
      rw [Function.update_self]
      exact hg
    · rw [Function.update_of_ne hx]
      exact h.past hp x

/-- Who still has to count itself off is not past. -/
theorem Ok.not_past (h : Ok s) (hw : (s.worker w).gone = false) : s.starter.past = false := by
  rw [Bool.eq_false_iff]
  intro hp
  rw [h.past hp w] at hw
  cases hw

theorem workerStep_ok (h : Ok s) (ht : s.workerStep w = some t) : Ok t := by
  have hsame (x : W) (_ : x ≠ w) : s.owner = some (some x) ↔ (s.worker x).holds = true :=
    h.worker x
  have hzero : s.num = s.num+0 := (add_zero _).symm
  have hstarter := h.starter
  unfold workerStep at ht
  split at ht
  · rename_i hw
    split_ifs at ht with ho
    obtain rfl := Option.some.inj ht
    have hp := h.not_past (w := w) (by rw [hw]; rfl)
    rw [ho] at hstarter
    refine h.goes w .locked s.starter (some (some w)) hzero ⟨fun he => (by cases he), fun he => ?_⟩
      ⟨fun _ => rfl, fun _ => rfl⟩ (fun x hx => ?_) rfl WorkerPc.noConfusion
      (by rw [hw]; simp [share, WorkerPc.off])
      (fun hs => .inr (.inr ⟨hs, rfl, by rw [hw]; simp, by rw [hw]; simp⟩)) (fun he => ?_)
    · cases hstarter.mpr he
    · have hworker := h.worker x
      rw [ho] at hworker
      refine ⟨fun he => (hx (Option.some.inj (Option.some.inj he)).symm).elim, fun he => ?_⟩
      cases hworker.mpr he
    · rw [hp] at he
      cases he
  · rename_i hw
    obtain rfl := Option.some.inj ht
    have hp := h.not_past (w := w) (by rw [hw]; rfl)
    have ho : s.owner = some (some w) := (h.worker w).mpr (by rw [hw]; rfl)
    refine h.goes w .counted s.starter s.owner (sub_eq_add_neg s.num 1) h.starter
      ⟨fun _ => rfl, fun _ => ho⟩ hsame rfl WorkerPc.noConfusion
      (by rw [hw]; simp [share, WorkerPc.off]; ring) (fun _ => .inl rfl) (fun he => ?_)
    rw [hp] at he
    cases he
  · rename_i hw
    obtain rfl := Option.some.inj ht
    have hp := h.not_past (w := w) (by rw [hw]; rfl)
    have ho : s.owner = some (some w) := (h.worker w).mpr (by rw [hw]; rfl)
    rw [ho] at hstarter
    refine h.goes w .signalling s.starter none hzero ⟨fun he => (by cases he), fun he => ?_⟩
      ⟨fun he => (by cases he), fun he => (by cases he)⟩ (fun x hx => ?_) rfl WorkerPc.noConfusion
      (by rw [hw]; simp [share, WorkerPc.off]) (fun _ => .inr (.inl rfl)) (fun he => ?_)
    · cases hstarter.mpr he
    · have hworker := h.worker x
      rw [ho] at hworker
      refine ⟨fun he => (by cases he), fun he => ?_⟩
      exact (hx (Option.some.inj (Option.some.inj (hworker.mpr he))).symm).elim
    · rw [hp] at he
      cases he
  · rename_i hw
    obtain rfl := Option.some.inj ht
    have hshare (o : Option W) : share o w .ended = share o w (s.worker w)+0 := by
      rw [hw]
      simp [share, WorkerPc.off]
    have hmine : s.owner = some (some w) ↔ WorkerPc.ended.holds = true := by
      have hworker := h.worker w
      rw [hw] at hworker
      exact hworker
    by_cases hs : s.starter = .asleep
    · have howes : s.starter.owes = none := by rw [hs]; rfl
      rw [hs] at hstarter
      rw [if_pos hs]
      exact h.goes w .ended .woken s.owner hzero hstarter hmine hsame howes.symm
        WorkerPc.noConfusion (hshare _) (fun he => (by cases he)) (fun he => (by cases he))
    · rw [if_neg hs]
      exact h.goes w .ended s.starter s.owner hzero hstarter hmine hsame rfl
        WorkerPc.noConfusion (hshare _) (fun he => (hs he).elim) (fun he => ⟨he, rfl⟩)
  · cases ht
  · cases ht
  · cases ht

theorem create_ok (h : Ok s) (hs : s.starter = .idle) (hw : s.worker w = .absent) :
    Ok { s.setWorker w .running with starter := .toAdd w } where
  starter := by
    have hstarter := h.starter
    rw [hs] at hstarter
    exact hstarter
  worker := by
    intro x
    dsimp only [setWorker]
    by_cases hx : x = w
    · subst hx
      have hworker := h.worker x
      rw [hw] at hworker
      rw [Function.update_self]
      exact hworker
    · rw [Function.update_of_ne hx]
      exact h.worker x
  num := by
    have hn := h.num
    rw [hs] at hn
    refine hn.trans (Finset.sum_congr rfl fun x _ => ?_)
    change share none x (s.worker x) =
      share (some w) x (Function.update s.worker w .running x)
    by_cases hx : x = w
    · subst hx
      rw [Function.update_self, hw]
      simp [share, WorkerPc.off]
    · have hne : ¬ some w = some x := fun he => hx (Option.some.inj he).symm
      rw [Function.update_of_ne hx]
      simp only [share, hne, reduceCtorEq, or_false]
  owes := by
    intro x hx
    obtain rfl : w = x := Option.some.inj hx
    dsimp only [setWorker]
    rw [Function.update_self]
    exact WorkerPc.noConfusion
  asleep := fun he => (by cases he)
  past := fun he => (by cases he)

theorem step_ok (h : Ok s) {m : LatchMove W} (ht : s.step m = some t) : Ok t := by
  have hstarter := h.starter
  have hnum := h.num
  cases m with
  | create w =>
    simp only [step] at ht
    split_ifs at ht with hc
    obtain rfl := Option.some.inj ht
    exact create_ok h hc.1 hc.2
  | join =>
    simp only [step] at ht
    split_ifs at ht with hs
    obtain rfl := Option.some.inj ht
    rw [hs] at hstarter hnum
    exact ⟨hstarter, h.worker, hnum, fun x hx => (by cases hx), fun he => (by cases he),
      fun he => (by cases he)⟩
  | starter => exact starterStep_ok h ht
  | leave w =>
    simp only [step] at ht
    split_ifs at ht with hw
    obtain rfl := Option.some.inj ht
    have hp := h.not_past (w := w) (by rw [hw]; rfl)
    have hmine : s.owner = some (some w) ↔ WorkerPc.leaving.holds = true := by
      have hworker := h.worker w
      rw [hw] at hworker
      exact hworker
    refine h.goes w .leaving s.starter s.owner (add_zero s.num).symm hstarter hmine
      (fun x _ => h.worker x) rfl WorkerPc.noConfusion (by rw [hw]; simp [share, WorkerPc.off])
      (fun hs => .inr (.inr ⟨hs, rfl, by rw [hw]; simp, by rw [hw]; simp⟩)) (fun he => ?_)
    rw [hp] at he
    cases he
  | worker w => exact workerStep_ok h ht
  | wake =>
    simp only [step] at ht
    split_ifs at ht with hs
    obtain rfl := Option.some.inj ht
    rw [hs] at hstarter hnum
    exact ⟨hstarter, h.worker, hnum, fun x hx => (by cases hx), fun he => (by cases he),
      fun he => (by cases he)⟩

end Keep

/-! A starter that waits is let through. -/

section Progress
variable {s t : Latch W} {w : W}

def workerRank : WorkerPc → ℕ
  | .absent => 0
  | .running => 6
  | .leaving => 5
  | .locked => 4
  | .counted => 3
  | .signalling => 2
  | .ended => 0

def starterRank : StarterPc W → ℕ
  | .entering => 6
  | .checking => 5
  | .asleep => 1
  | .woken => 6
  | .passing => 2
  | _ => 0

/-- How far the starter is from passing. A wakeup costs less than the signal gains. -/
def rank (s : Latch W) : ℕ := 10*(∑ w, workerRank (s.worker w))+starterRank s.starter

theorem workerRank_lt {f : W → WorkerPc} {pc : WorkerPc}
    (h : workerRank pc < workerRank (f w)) :
    (∑ x, workerRank (Function.update f w pc x))+1 ≤ ∑ x, workerRank (f x) := by
  apply Nat.succ_le_of_lt
  apply Finset.sum_lt_sum
  · intro x _
    by_cases hx : x = w
    · subst hx
      rw [Function.update_self]
      exact h.le
    · rw [Function.update_of_ne hx]
  · exact ⟨w, Finset.mem_univ w, by rw [Function.update_self]; exact h⟩

/-- A starter that has the mutex, or can take it, goes on. -/
theorem starter_goes (hj : s.starter.joins = true) (hne : s.starter ≠ .asleep)
    (ho : s.owner = none ∨ s.starter.holds = true) :
    ∃ t, s.step .starter = some t ∧ (t.starter.joins = true ∨ t.starter = .passed) ∧
      rank t < rank s := by
  have hfree (he : s.starter.holds = false) : s.owner = none := by
    rcases ho with ho | ho
    · exact ho
    · rw [he] at ho
      cases ho
  cases hs : s.starter with
  | entering =>
    have hnone := hfree (by rw [hs]; rfl)
    refine ⟨{ s with starter := .checking, owner := some none }, ?_, .inl rfl, ?_⟩
    · simp only [step, starterStep, hs, hnone, if_true]
    · simp only [rank, hs, starterRank]
      omega
  | woken =>
    have hnone := hfree (by rw [hs]; rfl)
    refine ⟨{ s with starter := .checking, owner := some none }, ?_, .inl rfl, ?_⟩
    · simp only [step, starterStep, hs, hnone, if_true]
    · simp only [rank, hs, starterRank]
      omega
  | checking =>
    by_cases hpos : 0 < s.num
    · refine ⟨{ s with starter := .asleep, owner := none }, ?_, .inl rfl, ?_⟩
      · simp only [step, starterStep, hs, hpos, if_true]
      · simp only [rank, hs, starterRank]
        omega
    · refine ⟨{ s with starter := .passing }, ?_, .inl rfl, ?_⟩
      · simp only [step, starterStep, hs, hpos, if_false]
      · simp only [rank, hs, starterRank]
        omega
  | passing =>
    refine ⟨{ s with starter := .passed, owner := none }, ?_, .inr rfl, ?_⟩
    · simp only [step, starterStep, hs]
    · simp only [rank, hs, starterRank]
      omega
  | asleep => exact (hne hs).elim
  | idle | toAdd | adding | added | passed =>
    rw [hs] at hj
    cases hj

/-- A worker that is past its loop, or may leave it, goes on when it has the mutex or
nobody has. -/
theorem worker_goes (hj : s.starter.joins = true) (hw : (s.worker w).gone = false ∨
      s.worker w = .signalling) (ho : s.owner = none ∨ (s.worker w).holds = true) :
    ∃ m t, LatchMove.drains m = true ∧ s.step m = some t ∧ t.starter.joins = true ∧
      rank t < rank s := by
  have hrank (pc : WorkerPc) (h : workerRank pc < workerRank (s.worker w)) :
      (∑ x, workerRank (Function.update s.worker w pc x))+1 ≤ ∑ x, workerRank (s.worker x) :=
    workerRank_lt h
  cases hs : s.worker w with
  | running =>
    refine ⟨.leave w, s.setWorker w .leaving, rfl, ?_, hj, ?_⟩
    · simp only [step, hs, if_true]
    · have := hrank .leaving (by rw [hs]; decide)
      simp only [rank, setWorker]
      omega
  | leaving =>
    have hnone : s.owner = none := by
      rcases ho with ho | ho
      · exact ho
      · rw [hs] at ho
        cases ho
    refine ⟨.worker w, { s.setWorker w .locked with owner := some (some w) }, rfl, ?_, hj, ?_⟩
    · simp only [step, workerStep, hs, hnone, if_true]
    · have := hrank .locked (by rw [hs]; decide)
      simp only [rank, setWorker]
      omega
  | locked =>
    refine ⟨.worker w, { s.setWorker w .counted with num := s.num-1 }, rfl, ?_, hj, ?_⟩
    · simp only [step, workerStep, hs]
    · have := hrank .counted (by rw [hs]; decide)
      simp only [rank, setWorker]
      omega
  | counted =>
    refine ⟨.worker w, { s.setWorker w .signalling with owner := none }, rfl, ?_, hj, ?_⟩
    · simp only [step, workerStep, hs]
    · have := hrank .signalling (by rw [hs]; decide)
      simp only [rank, setWorker]
      omega
  | signalling =>
    have hlt := hrank .ended (by rw [hs]; decide)
    by_cases ha : s.starter = .asleep
    · refine ⟨.worker w, { s.setWorker w .ended with starter := .woken }, rfl, ?_, rfl, ?_⟩
      · simp only [step, workerStep, hs, ha, if_true]
      · simp only [rank, setWorker, ha, starterRank]
        omega
    · refine ⟨.worker w, s.setWorker w .ended, rfl, ?_, hj, ?_⟩
      · simp only [step, workerStep, hs, ha, if_false]
        rfl
      · simp only [rank, setWorker]
        omega
  | absent | ended =>
    rw [hs] at hw
    rcases hw with hw | hw <;> cases hw

/-- As long as the starter waits, it or a worker can go on. -/
theorem goes_on (h : Ok s) (hj : s.starter.joins = true) :
    ∃ m t, LatchMove.drains m = true ∧ s.step m = some t ∧
      (t.starter.joins = true ∨ t.starter = .passed) ∧ rank t < rank s := by
  rcases ho : s.owner with _ | _ | w
  · by_cases hs : s.starter = .asleep
    · -- who has not given up the count yet, or has still to signal
      obtain ⟨w, hw⟩ : ∃ w, (s.worker w).gone = false ∨ s.worker w = .signalling := by
        rcases h.asleep hs with hpos | ⟨w, hw | hw⟩
        · have hn := h.num
          rw [hs] at hn
          by_contra hall
          rw [not_exists] at hall
          have hle : ∑ w, share none w (s.worker w) ≤ 0 := by
            apply Finset.sum_nonpos
            intro w _
            have hg := (not_or.mp (hall w)).1
            rw [share_none]
            revert hg
            cases s.worker w <;> decide
          rw [hn] at hpos
          exact absurd hpos (not_lt.mpr hle)
        · exact ⟨w, .inl (by rw [hw]; rfl)⟩
        · exact ⟨w, .inr hw⟩
      obtain ⟨m, t, hm, ht, hj', hlt⟩ := worker_goes hj hw (.inl ho)
      exact ⟨m, t, hm, ht, .inl hj', hlt⟩
    · obtain ⟨t, ht, hj', hlt⟩ := starter_goes hj hs (.inl ho)
      exact ⟨.starter, t, rfl, ht, hj', hlt⟩
  · have hholds := h.starter.mp ho
    have hs : s.starter ≠ .asleep := by
      intro hs
      rw [hs] at hholds
      cases hholds
    obtain ⟨t, ht, hj', hlt⟩ := starter_goes hj hs (.inr hholds)
    exact ⟨.starter, t, rfl, ht, hj', hlt⟩
  · have hholds := (h.worker w).mp ho
    have hw : (s.worker w).gone = false := by
      revert hholds
      cases s.worker w <;> decide
    obtain ⟨m, t, hm, ht, hj', hlt⟩ := worker_goes hj (.inl hw) (.inr hholds)
    exact ⟨m, t, hm, ht, .inl hj', hlt⟩

/-- No wakeup is lost: whoever waits can be let through by moves of its own and of the
workers. -/
theorem join_passes (h : Ok s) (hj : s.starter.joins = true) :
    ∃ ms t, (∀ m ∈ ms, LatchMove.drains m = true) ∧ run step s ms = some t ∧ Ok t ∧
      t.starter = .passed := by
  induction hn : rank s using Nat.strong_induction_on generalizing s with
  | _ n ih =>
    obtain ⟨m, t, hm, ht, hj' | hp, hlt⟩ := goes_on h hj
    · obtain ⟨ms, u, hms, hu, hok, hp⟩ := ih (rank t) (hn ▸ hlt) (step_ok h ht) hj' rfl
      refine ⟨m :: ms, u, ?_, run_cons.mpr ⟨t, ht, hu⟩, hok, hp⟩
      intro x hx
      rcases List.mem_cons.mp hx with rfl | hx
      · exact hm
      · exact hms x hx
    · refine ⟨[m], t, ?_, run_cons.mpr ⟨t, ht, rfl⟩, step_ok h ht, hp⟩
      intro x hx
      rw [List.mem_singleton.mp hx]
      exact hm

end Progress

end Latch

end NvmeSnsd.Lib
