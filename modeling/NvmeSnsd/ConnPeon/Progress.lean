import NvmeSnsd.ConnPeon.Rounds

/-! A task that is due does not wait for ever: it is held back by one look at most. -/
namespace NvmeSnsd.ConnPeon
open Lib Lib.Locked

/-- `p` waits on `ref`, and nothing newer for its target is in a list that is scanned for it. -/
structure Waiting (l : Lists) (ref : PeonRef) (p : Task) : Prop where
  mem : p ∈ l (.wait ref)
  live : p.state = .live
  latest : superseded l ref.type p = false

section Lists
variable {l m : Lists} {type : PeonType} {p : Task}

/-- With fewer tasks alive there are fewer to yield to. -/
theorem superseded_mono (hm : ∀ r, ∀ q ∈ m r, q.state = .live → q ∈ l r)
    (h : superseded l type p = false) : superseded m type p = false := by
  rw [Bool.eq_false_iff] at h ⊢
  intro hs
  obtain ⟨sc, hsc, q, hq, hn⟩ := superseded_iff.mp hs
  exact h (superseded_iff.mpr ⟨sc, hsc, q, hm _ q hq (newer_iff.mp hn).1, hn⟩)

theorem blocked_mono (hm : ∀ r, ∀ q ∈ m r, q.state = .live → q ∈ l r)
    (h : blocked l type p = false) : blocked m type p = false := by
  rw [Bool.eq_false_iff] at h ⊢
  intro hs
  obtain ⟨sc, hsc, hw, q, hq, ho⟩ := blocked_iff.mp hs
  exact h (blocked_iff.mpr ⟨sc, hsc, hw, q, hm _ q hq (outdated_iff.mp ho).1, ho⟩)

/-- No list is scanned twice. -/
theorem scanOf_mem {sc : Scan} (h : sc ∈ judgeScans type) :
    scanOf (judgeScans type) sc.list = some sc := by
  revert sc
  cases type <;> decide

/-- Whoever held `p` back when it was judged does so no more. -/
theorem blocked_judge : blocked (judgeLists l type p) type p = false := by
  rw [Bool.eq_false_iff]
  intro hb
  obtain ⟨sc, hsc, -, q, hq, ho⟩ := blocked_iff.mp hb
  obtain ⟨-, he⟩ := mem_judgeLists_live hq (outdated_iff.mp ho).1
  have hdead := judgeMark_of_outdated type sc.list (scanOf_mem hsc) ho
  rw [he, (outdated_iff.mp ho).1] at hdead
  cases hdead

end Lists

namespace Waiting
variable {l m : Lists} {ref : PeonRef} {p q : Task}

/-- Judging another task of the same peon leaves `p` as it is. -/
theorem judge (h : Waiting l ref p) (hq : q ∈ l (.wait ref)) (hl : q.state = .live) :
    Waiting (judgeLists l ref.type q) ref p := by
  refine ⟨mem_judgeLists.mpr ⟨p, h.mem, ?_⟩, h.live,
    superseded_mono (fun r x hx hxl => (mem_judgeLists_live hx hxl).1) h.latest⟩
  rcases judgeMark_eq ref.type q (.wait ref) p with he | ⟨-, sc, hsc, hr, ho⟩
  · exact he
  · -- `q` is newer, and in the list that is scanned for `p`
    obtain ⟨-, hm, hlt⟩ := outdated_iff.mp ho
    have hnew : newer p sc.isbatch q = true := newer_iff.mpr ⟨hl, peonTaskMatch_symm hm, hlt⟩
    have hsup : superseded l ref.type p = true :=
      superseded_iff.mpr ⟨sc, hsc, q, hr ▸ hq, hnew⟩
    rw [h.latest] at hsup
    cases hsup

/-- Another task goes. -/
theorem del (h : Waiting l ref p) {r : ListRef} {id : ℕ} (hid : p.id ≠ id) :
    Waiting (listDel l r id) ref p :=
  ⟨mem_listDel.mpr ⟨h.mem, fun _ => hid⟩, h.live,
    superseded_mono (fun _ _ hx _ => (mem_listDel.mp hx).1) h.latest⟩

end Waiting

theorem count_restrainTime (s : Sched) (ref x : PeonRef) (d : ℤ) :
    ((s.count ref d).peon x).restrainTime = (s.peon x).restrainTime := by
  unfold Sched.count
  by_cases hx : x = ref
  · subst hx
    simp
  · dsimp only
    rw [Function.update_of_ne hx]

/-- A look at a task that the worker does not take. -/
theorem look_passes {s t : Sched} {ref : PeonRef} {i id now : ℕ} {rest : List ℕ} {p : Task}
    (hi : Ids s.list s.nextId) (h : Waiting s.list ref p) (hd : Due s ref p now)
    (hh : s.holder = .get ref i (id :: rest)) (hs : step s (.get now) = some t)
    (ht : t.worker (ref, i) = .idle) :
    Waiting t.list ref p ∧ Due t ref p now ∧
      (blocked s.list ref.type p = false → blocked t.list ref.type p = false) ∧
      (id = p.id → blocked s.list ref.type p = true ∧ blocked t.list ref.type p = false) := by
  have hdel : ∀ {l : Lists} {r k}, blocked l ref.type p = false →
      blocked (listDel l r k) ref.type p = false :=
    fun hb => blocked_mono (fun _ _ hx _ => (mem_listDel.mp hx).1) hb
  have hjudge : ∀ {q}, blocked s.list ref.type p = false →
      blocked (judgeLists s.list ref.type q) ref.type p = false :=
    fun hb => blocked_mono (fun _ _ hx hl => (mem_judgeLists_live hx hl).1) hb
  cases step_cases hs with
  | @getDead ref' i' rest' q _ hh' hq hdead =>
    obtain ⟨rfl, rfl, hr⟩ := Holder.get.inj (hh.symm.trans hh')
    obtain ⟨rfl, rfl⟩ := List.cons.inj hr
    have hne : p.id ≠ q.id := by
      intro he
      obtain rfl := hi.eq h.mem hq he
      cases h.live.symm.trans hdead
    refine ⟨h.del hne, ?_, hdel, fun he => absurd he.symm hne⟩
    exact (congrArg (peonTaskRestrainTimeout now p) (count_restrainTime ..)).trans hd
  | @getLeave ref' i' rest' q _ hh' hq hlive hl =>
    obtain ⟨rfl, rfl, hr⟩ := Holder.get.inj (hh.symm.trans hh')
    obtain ⟨rfl, rfl⟩ := List.cons.inj hr
    refine ⟨h.judge hq hlive, hd, hjudge, fun he => ?_⟩
    obtain rfl := hi.eq hq h.mem he
    refine ⟨?_, blocked_judge⟩
    exact hl.resolve_right fun hdue => hdue.2 hd
  | @getDiscard ref' i' rest' q _ hh' hq hlive hb hsup =>
    obtain ⟨rfl, rfl, hr⟩ := Holder.get.inj (hh.symm.trans hh')
    obtain ⟨rfl, rfl⟩ := List.cons.inj hr
    have hne : p.id ≠ q.id := by
      intro he
      obtain rfl := hi.eq h.mem hq he
      cases h.latest.symm.trans hsup
    refine ⟨(h.judge hq hlive).del hne, ?_, fun hb => hdel (hjudge hb),
      fun he => absurd he.symm hne⟩
    exact (congrArg (peonTaskRestrainTimeout now p) (count_restrainTime ..)).trans hd
  | getPick hh' =>
    obtain ⟨rfl, rfl, -⟩ := Holder.get.inj (hh.symm.trans hh')
    simp at ht

theorem walk_not_free {s s' : Sched} {l : Label} (hl : l.isWalk = true)
    (hs : step s l = some s') : s.holder ≠ .free := by
  intro hfree
  have hlt := (left_lt hl hs).1
  rw [hfree] at hlt
  exact absurd hlt (Nat.not_lt_zero _)

/-- A walk that ends without a task has come to `p` only if that was held back, and leaves it
where nothing holds it back. -/
theorem walk_passes {s u : Sched} {type : PeonType} {i now : ℕ} {rest : List ℕ} {p : Task}
    (hb : Base s) (h : Waiting s.list (.static type) p) (hd : Due s (.static type) p now)
    (hh : s.holder = .get (.static type) i rest)
    (hr : run step s (getSteps (fun _ => now) rest ++ [.unlock]) = some u) :
    u.holder = .free ∧ Waiting u.list (.static type) p ∧ Due u (.static type) p now ∧
      (blocked s.list type p = false → blocked u.list type p = false) ∧
      (p.id ∈ rest → blocked s.list type p = true ∧ blocked u.list type p = false) := by
  induction rest generalizing s with
  | nil =>
    obtain ⟨t, ht, hu⟩ := run_cons.mp hr
    obtain rfl := Option.some.inj hu
    cases step_cases ht with
    | unlockGet => exact ⟨rfl, h, hd, id, fun hp => absurd hp List.not_mem_nil⟩
    | unlockRecheck hh' => cases hh.symm.trans hh'
  | cons id rest ih =>
    obtain ⟨t, ht, hr⟩ := run_cons.mp hr
    have hidle := (hb.workers.holder _ _ _ hh).1
    have hpass : t.worker (.static type, i) = .idle ∧ t.holder = .get (.static type) i rest := by
      apply (getOne_holder hidle hh ht).resolve_left
      -- had it taken this one, the lock would be free and nothing could follow
      rintro ⟨-, hfree⟩
      cases rest with
      | nil =>
        obtain ⟨v, hv, -⟩ := run_cons.mp hr
        exact walk_not_free rfl hv hfree
      | cons id' rest =>
        obtain ⟨v, hv, -⟩ := run_cons.mp hr
        exact walk_not_free rfl hv hfree
    obtain ⟨hw, hdue, hmono, hself⟩ := look_passes hb.ids h hd hh ht hpass.1
    obtain ⟨hfree, hw, hdue, hmono', hrest⟩ := ih (base_step hb ht) hw hdue hpass.2 hr
    refine ⟨hfree, hw, hdue, fun hf => hmono' (hmono hf), fun hp => ?_⟩
    rcases List.mem_cons.mp hp with he | hp
    · obtain ⟨hblocked, hfree⟩ := hself he.symm
      exact ⟨hblocked, hmono' hfree⟩
    · obtain ⟨hblocked, hfree⟩ := hrest hp
      refine ⟨?_, hfree⟩
      by_contra hnot
      cases (hmono (Bool.not_eq_true _ |>.mp hnot)).symm.trans hblocked

/-- A round that sees all that wait has come to `p`. -/
theorem round_passes {s u : Sched} {type : PeonType} {i now : ℕ} {p : Task}
    (hb : Base s) (h : Waiting s.list (.static type) p) (hd : Due s (.static type) p now)
    (hr : run step s (.poll (.static type) i :: (getSteps (fun _ => now)
      ((s.list (.wait (.static type))).map Task.id) ++ [.unlock])) = some u) :
    u.holder = .free ∧ Waiting u.list (.static type) p ∧ Due u (.static type) p now ∧
      blocked s.list type p = true ∧ blocked u.list type p = false := by
  obtain ⟨t, ht, hr⟩ := run_cons.mp hr
  cases step_cases ht with
  | poll =>
    obtain ⟨hfree, hw, hdue, -, hself⟩ := walk_passes (base_step hb ht) h hd rfl hr
    exact ⟨hfree, hw, hdue, hself (List.mem_map_of_mem h.mem)⟩

/-- A live task that nothing newer is against, at a worker with nothing to do: when it is due,
`peon_task_get` returns a task, or does so when called again, whatever is in execution. -/
theorem second_get_takes (cfgRestrainTime : ℕ) (ls : List Label) (s : Sched)
    (hr : run step (Sched.init cfgRestrainTime) ls = some s) (hfree : s.holder = .free)
    (type : PeonType) (htype : type ≠ .recheck) (i : ℕ)
    (hidle : s.worker (.static type, i) = .idle) (p : Task) (hp : Waiting s.list (.static type) p)
    (now : ℕ) (hd : Due s (.static type) p now) (others : Sched → Sched) (s₀ : Sched)
    (hs₀ : others s₀ = s) :
    (∃ task u, Calls.peonTaskGet (.static type) i (fun _ => now) others (false, s₀) =
      .ok (some task, false, u)) ∨
    ∃ u, Calls.peonTaskGet (.static type) i (fun _ => now) others (false, s₀) =
        .ok (none, false, u) ∧
      ∀ others' s₁, others' s₁ = u → ∃ task v,
        Calls.peonTaskGet (.static type) i (fun _ => now) others' (false, s₁) =
          .ok (some task, false, v) := by
  have hb := base_run hr
  have hst := staffed_run hr
  obtain ⟨ms, u, hrun, -, hends⟩ := get_returns (fun _ => now) hb hst hfree htype hidle hs₀
  rcases hends with ⟨rfl, hend, hcall⟩ | ⟨task, -, -, hcall⟩
  · refine Or.inr ⟨u, hcall, fun others' s₁ hs₁ => ?_⟩
    obtain ⟨hfree', hw, hdue, -, hnot⟩ := round_passes hb hp hd hrun
    have hafter : run step (Sched.init cfgRestrainTime) (ls ++ .poll (.static type) i :: _) = some u :=
      run_append.mpr ⟨s, hr, hrun⟩
    obtain ⟨ms', v, hrun', -, hends'⟩ := get_returns (fun _ => now) (base_run hafter)
      (staffed_run hafter) hfree' htype hend hs₁
    rcases hends' with ⟨rfl, -, -⟩ | ⟨task, -, -, hcall'⟩
    · -- a second round without a task would have found `p` held back
      obtain ⟨-, -, -, hheld, -⟩ := round_passes (base_run hafter) hw hdue hrun'
      cases hheld.symm.trans hnot
    · exact ⟨task, v, hcall'⟩
  · exact Or.inl ⟨task, u, hcall⟩

/-- A disconnect waits while the connect that it is against is in execution. -/
def heldBack : List Label :=
  [.request .connect sampleParam sampleToolbox 0, .add 0 .ok, .poll (.static .connect) 0, .get 5,
   .request .disconn sampleParam sampleToolbox 6, .add 1 .ok]

theorem second_get_takes_sample : ∃ s p, run step (Sched.init 3) heldBack = some s ∧
    blocked s.list .disconn p = true ∧
    ((∃ task u, Calls.peonTaskGet (.static .disconn) 0 (fun _ => 30) id (false, s) =
        .ok (some task, false, u)) ∨
      ∃ u, Calls.peonTaskGet (.static .disconn) 0 (fun _ => 30) id (false, s) =
          .ok (none, false, u) ∧
        ∀ others' s₁, others' s₁ = u → ∃ task v,
          Calls.peonTaskGet (.static .disconn) 0 (fun _ => 30) others' (false, s₁) =
            .ok (some task, false, v)) := by
  have hrun : ∃ s, run step (Sched.init 3) heldBack = some s ∧ s.holder = .free ∧
      s.worker (.static .disconn, 0) = .idle ∧
      ∃ p ∈ s.list (.wait (.static .disconn)), p.state = .live ∧
        superseded s.list .disconn p = false ∧ Due s (.static .disconn) p 30 ∧
          blocked s.list .disconn p = true := by
    refine ⟨_, rfl, ?_⟩
    decide
  obtain ⟨s, hs, hfree, hidle, p, hp, hl, hsup, hd, hb⟩ := hrun
  exact ⟨s, p, hs, hb, second_get_takes 3 heldBack s hs hfree .disconn (by decide) 0 hidle p
    ⟨hp, hl, hsup⟩ 30 hd id s rfl⟩

end NvmeSnsd.ConnPeon
