import NvmeSnsd.ConnPeon.Steps

/-! Connecting to a target and disconnecting from it at once. -/
namespace NvmeSnsd.ConnPeon
open Lib

/-- No connect task is executed along with a disconnect task for its target, be
that on the static disconnect peon or on a dynamic one. -/
def Exclusion (l : Lists) : Prop :=
  ∀ c ∈ l (.proc (.static .connect)), ∀ ref : PeonRef, ref.type = .disconn →
    ∀ d ∈ l (.proc ref), peonTaskMatch c.param d.param false = false

/-- What the scans for `p` do not wait for, of the tasks in execution on the
other side: those marked dead, those of the same number, and, for a connect
task, those of dynamic peons. -/
def Unguarded (l : Lists) : PeonType → Task → Prop
  | .connect, p =>
    (∃ d ∈ l (.proc (.static .disconn)), peonTaskMatch p.param d.param false = true ∧
      (d.state = .dead ∨ d.sn = p.sn)) ∨
    ∃ k, ∃ d ∈ l (.proc (.dyn k)), peonTaskMatch p.param d.param false = true
  | .disconn, p =>
    ∃ c ∈ l (.proc (.static .connect)), peonTaskMatch p.param c.param false = true ∧
      (c.state = .dead ∨ c.sn = p.sn)
  | _, _ => False

/-- A `peon_task_get` that comes to a task ready to go finds nothing of the
other side that the scans miss. -/
def ExclusionOk (s : Sched) : Label → Prop
  | .get now => ∀ ref i rest, ∀ p ∈ s.list (.wait ref), s.holder = .get ref i (p.id :: rest) →
      p.state = .live → blocked s.list ref.type p = false →
      superseded s.list ref.type p = false → Due s ref p now → ¬Unguarded s.list ref.type p
  | _ => True

theorem Exclusion.of_procs {l m : Lists} (h : Exclusion l)
    (hm : ∀ ref, ∀ t ∈ m (.proc ref), ∃ q ∈ l (.proc ref), q.param = t.param) : Exclusion m := by
  intro c hc ref href d hd
  obtain ⟨c', hc', hcp⟩ := hm _ c hc
  obtain ⟨d', hd', hdp⟩ := hm _ d hd
  rw [← hcp, ← hdp]
  exact h c' hc' ref href d' hd'

/-- A task of a scanned list of tasks in execution that is for the target of
`p`, when nothing holds `p` back, is one the scans pass over. -/
theorem passed_over {l : Lists} {type : PeonType} {p q : Task} {r : ListRef} {isbatch : Bool}
    (hsc : ⟨r, isbatch, false⟩ ∈ judgeScans type) (hb : blocked l type p = false)
    (hs : superseded l type p = false) (hq : q ∈ l r)
    (hm : peonTaskMatch q.param p.param isbatch = true) : q.state = .dead ∨ q.sn = p.sn := by
  by_contra hne
  obtain ⟨hlive, hsn⟩ := not_or.mp hne
  replace hlive : q.state = .live := not_dead hlive
  rcases lt_or_gt_of_ne hsn with hlt | hlt
  · -- an older one blocks `p`
    have hout : blocked l type p = true :=
      blocked_iff.mpr ⟨_, hsc, rfl, q, hq, outdated_iff.mpr ⟨hlive, hm, hlt⟩⟩
    rw [hb] at hout
    cases hout
  · -- a newer one supersedes `p`
    have hnew : superseded l type p = true :=
      superseded_iff.mpr ⟨_, hsc, q, hq, newer_iff.mpr ⟨hlive, hm, hlt⟩⟩
    rw [hs] at hnew
    cases hnew

theorem exclusion_pick {l : Lists} {ref : PeonRef} {p : Task} (h : Exclusion l)
    (hb : blocked l ref.type p = false) (hs : superseded l ref.type p = false)
    (hu : ¬Unguarded l ref.type p) :
    Exclusion (listAddTail (listDel (judgeLists l ref.type p) (.wait ref) p.id) (.proc ref) p) := by
  -- whoever is in execution was so before, or is `p`
  have hproc : ∀ x, ∀ t ∈ listAddTail (listDel (judgeLists l ref.type p) (.wait ref) p.id)
      (.proc ref) p (.proc x), (∃ q ∈ l (.proc x), q.param = t.param ∧ q.sn = t.sn) ∨
        x = ref ∧ t = p := by
    intro x t ht
    rcases mem_listAddTail.mp ht with ht | ⟨hx, rfl⟩
    · obtain ⟨q, hq, rfl⟩ := mem_judgeLists.mp (mem_listDel.mp ht).1
      exact Or.inl ⟨q, hq, by simp⟩
    · exact Or.inr ⟨by simpa using hx, rfl⟩
  intro c hc x hx d hd
  rcases hproc _ c hc with ⟨c', hc', hcp, -⟩ | ⟨hcr, rfl⟩
  · rcases hproc _ d hd with ⟨d', hd', hdp, -⟩ | ⟨rfl, rfl⟩
    · rw [← hcp, ← hdp]
      exact h c' hc' x hx d' hd'
    · -- `p` disconnects
      rw [hx] at hb hs hu
      rw [← hcp, Bool.eq_false_iff]
      intro hm
      exact hu ⟨c', hc', peonTaskMatch_symm hm, passed_over (by simp [judgeScans]) hb hs hc' hm⟩
  · -- `p` connects
    rw [← hcr] at hb hs hu
    rcases hproc _ d hd with ⟨d', hd', hdp, -⟩ | ⟨rfl, rfl⟩
    · rw [← hdp, Bool.eq_false_iff]
      intro hm
      cases x with
      | static type =>
        obtain rfl : type = .disconn := hx
        have hsc : ⟨.proc (.static .disconn), false, false⟩ ∈ judgeScans .connect := by
          simp [judgeScans]
        exact hu (.inl ⟨d', hd', hm, passed_over hsc hb hs hd' (peonTaskMatch_symm hm)⟩)
      | dyn k => exact hu (.inr ⟨k, d', hd', hm⟩)
    · rw [← hcr] at hx
      cases hx

theorem exclusion_step {s s' : Sched} {l : Label} (h : Exclusion s.list) (hok : ExclusionOk s l)
    (hs : step s l = some s') : Exclusion s'.list := by
  -- what is only taken off a list, or added to another one than `proc_list`
  have hdel : ∀ (l : Lists) r id, Exclusion l → Exclusion (listDel l r id) := by
    intro l r id hl
    apply hl.of_procs
    intro x t ht
    exact ⟨t, (mem_listDel.mp ht).1, rfl⟩
  have hadd : ∀ (l : Lists) r q, (∀ x, ListRef.proc x ≠ r) → Exclusion l →
      Exclusion (listAddTail l r q) := by
    intro l r q hr hl
    apply hl.of_procs
    intro x t ht
    rcases mem_listAddTail.mp ht with ht | ⟨hx, -⟩
    · exact ⟨t, ht, rfl⟩
    · exact absurd hx (hr x)
  have hjudge : ∀ type p, Exclusion (judgeLists s.list type p) := by
    intro type p
    apply h.of_procs
    intro x t ht
    obtain ⟨q, hq, rfl⟩ := mem_judgeLists.mp ht
    exact ⟨q, hq, by simp⟩
  cases step_cases hs with
  | request _ | inherit => exact hadd _ _ _ (by simp) h
  | addFail | getDead | completeFree | recheckDrop => exact hdel _ _ _ h
  | add | addDyn | completeRetry | completeRecheck | relive => exact hadd _ _ _ (by simp) (hdel _ _ _ h)
  | getLeave => exact hjudge _ _
  | getDiscard => exact hdel _ _ _ (hjudge _ _)
  | getPick hh hp hlive hb hsup hd =>
    exact exclusion_pick h hb hsup (hok _ _ _ _ hp hh hlive hb hsup hd)
  | deconstruct =>
    apply h.of_procs
    intro x t ht
    exact ⟨t, ht, rfl⟩
  | addStuck | poll | handle | recheck | recheckKeep | unlockGet | unlockRecheck | exit => exact h

/-- As long as no `peon_task_get` comes to a ready task with an execution for
the other side that the scans miss, connecting and disconnecting exclude each
other. -/
theorem exclusion_of_guarded (cfgRestrainTime : ℕ) (ls : List Label) (s : Sched)
    (hok : RunMeets step ExclusionOk (Sched.init cfgRestrainTime) ls)
    (hr : run step (Sched.init cfgRestrainTime) ls = some s) : Exclusion s.list := by
  apply run_meets_invariant (I := fun s => Exclusion s.list)
    (fun s l s' h hok hs => exclusion_step h hok hs) _ hok hr
  intro c hc
  cases hc

theorem exclusion_of_guarded_sample :
    ∃ ls s, run step (Sched.init 3) ls = some s ∧ s.list (.proc (.static .connect)) ≠ [] ∧
      Exclusion s.list := by
  let ls : List Label := [.request .connect sampleParam sampleToolbox 0, .add 0 .ok,
    .poll (.static .connect) 0, .get 5]
  obtain ⟨s, hs⟩ : ∃ s, run step (Sched.init 3) ls = some s := ⟨_, rfl⟩
  refine ⟨ls, s, hs, ?_, exclusion_of_guarded 3 ls s ?_ hs⟩
  · obtain rfl := Option.some.inj hs
    decide
  · refine ⟨trivial, fun s₁ h₁ => ⟨trivial, fun s₂ h₂ => ⟨trivial, fun s₃ h₃ => ⟨?_, ?_⟩⟩⟩⟩
    · obtain rfl := Option.some.inj h₁
      obtain rfl := Option.some.inj h₂
      obtain rfl := Option.some.inj h₃
      intro ref i rest p hp hh hl hb hsup hd hu
      obtain ⟨rfl, rfl, -⟩ := Holder.get.inj hh
      rcases hu with ⟨d, hd, -⟩ | ⟨k, d, hd, -⟩ <;> cases hd
    · exact fun _ _ => trivial

/-- A disconnect for the sample target in execution, a connect, and two polls
of the connect worker: the first marks the disconnect dead and waits, and the
second does not see it any more. -/
def overtaken : List Label :=
  [.request .disconn sampleParam sampleToolbox 0, .add 0 .ok,
   .poll (.static .disconn) 0, .get 10,
   .request .connect sampleParam sampleToolbox 20, .add 1 .ok,
   .poll (.static .connect) 0, .get 30, .unlock,
   .poll (.static .connect) 0, .get 40]

theorem exclusion_fails_overtaken :
    ¬∀ cfgRestrainTime ls s, run step (Sched.init cfgRestrainTime) ls = some s →
      Exclusion s.list := by
  intro h
  have hrun : ∃ s, run step (Sched.init 3) overtaken = some s ∧
      ∃ c ∈ s.list (.proc (.static .connect)), ∃ d ∈ s.list (.proc (.static .disconn)),
        peonTaskMatch c.param d.param false = true := by
    refine ⟨_, rfl, ?_⟩
    decide
  obtain ⟨s, hs, c, hc, d, hd, hm⟩ := hrun
  rw [h 3 overtaken s hs c hc _ rfl d hd] at hm
  cases hm

end NvmeSnsd.ConnPeon
