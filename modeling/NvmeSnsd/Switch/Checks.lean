import NvmeSnsd.Switch.Run

/-! How many polls lie between two checks of the switch. -/
namespace NvmeSnsd.Switch
open Lib Cfg Mgt

def isPoll : SwitchLabel → Bool
  | .poll _ => true
  | .turn _ => false

/-- A poll that makes the check. -/
def ChecksLldp (r : SwitchRun) : SwitchLabel → Prop
  | .poll _ => switchNeedCheckLldp r.count r.pollCount = true
  | .turn _ => False

/-- No poll fails. -/
def PollSucceeds (pton : Pton) (s : CfgState) (r : SwitchRun) : SwitchLabel → Prop
  | .poll sys =>
    ∃ nets, snsdCfgNetInfo pton s LldpRunInfo.zero .sw sys r.pollCount r.done = .ok (nets, 0)
  | .turn _ => True

/-- Behind the end of the counter the polls are counted the wrong way round. -/
theorem needCheck_iff (preCount now : UInt32) : switchNeedCheckLldp preCount now = true ↔
    preCount.toNat+100 ≤ now.toNat ∨ now.toNat+100 ≤ preCount.toNat := by
  have hp := preCount.toNat_lt
  have hn := now.toNat_lt
  have hinterval : SWITCH_POLL_INTEVAL.toNat = 100 := rfl
  unfold switchNeedCheckLldp
  simp only [ge_iff_le, decide_eq_true_eq]
  rw [UInt32.le_iff_toNat_le, hinterval]
  split
  · next h =>
    rw [UInt32.toNat_sub_of_le _ _ h]
    rw [UInt32.le_iff_toNat_le] at h
    omega
  · next h =>
    rw [UInt32.le_iff_toNat_le] at h
    have hback : 0xffffffff-now+preCount+1 = preCount-now := by
      grind
    have hle : now ≤ preCount := by
      rw [UInt32.le_iff_toNat_le]
      omega
    rw [hback, UInt32.toNat_sub_of_le _ _ hle]
    omega

/-- What is true before every poll: the last check was at a multiple of the interval,
and the poll comes at most an interval after it, or is the first behind the end of the
counter. -/
structure OnTime (r : SwitchRun) : Prop where
  count : 100 ∣ r.count.toNat
  next : r.count.toNat < r.pollCount.toNat ∧ r.pollCount.toNat ≤ r.count.toNat+100 ∨
    r.pollCount.toNat = 0 ∧ r.count.toNat = 4294967200

theorem OnTime.needCheck {r : SwitchRun} (h : OnTime r) :
    switchNeedCheckLldp r.count r.pollCount = true ↔ 100 ∣ r.pollCount.toNat := by
  have hcount := h.count
  have hnext := h.next
  rw [needCheck_iff]
  omega

theorem onTime_init : OnTime SwitchRun.init :=
  ⟨by decide, by decide⟩

/-- The number of the next poll. -/
theorem toNat_next (n : UInt32) : (n+1).toNat = (n.toNat+1)%4294967296 := by
  rw [UInt32.toNat_add]
  rfl

section Steps
variable {pton : Pton} {s : CfgState} {r r' : SwitchRun}

/-- What a step does to the numbers. -/
theorem step_counts {l : SwitchLabel} (hok : PollSucceeds pton s r l)
    (h : switchStep pton s r l = some r') :
    isPoll l = false ∧ r'.count = r.count ∧ r'.pollCount = r.pollCount ∨
      isPoll l = true ∧ r'.pollCount = r.pollCount+1 ∧
        r'.count = if switchNeedCheckLldp r.count r.pollCount then r.pollCount else r.count := by
  cases l with
  | turn ans =>
    obtain ⟨net, rest, -, rfl⟩ := step_turn h
    exact Or.inl ⟨rfl, rfl, rfl⟩
  | poll sys =>
    obtain ⟨nets, hnets⟩ := hok
    obtain ⟨-, nets', ret, hcfg, hend⟩ := step_poll h
    obtain ⟨-, hret⟩ := Prod.mk.inj (Except.ok.inj (hcfg.symm.trans hnets))
    rcases hend with ⟨hne, -⟩ | ⟨-, rfl⟩
    · exact absurd hret hne
    · exact Or.inr ⟨rfl, rfl, rfl⟩

theorem onTime_step {l : SwitchLabel} (hr : OnTime r) (hok : PollSucceeds pton s r l)
    (h : switchStep pton s r l = some r') : OnTime r' := by
  rcases step_counts hok h with ⟨-, hc, hp⟩ | ⟨-, hp, hc⟩
  · constructor
    · rw [hc]
      exact hr.count
    · rw [hc, hp]
      exact hr.next
  · have hcount := hr.count
    have hnext := hr.next
    have hlt := r.pollCount.toNat_lt
    have hlt' := r.count.toNat_lt
    have hadd := toNat_next r.pollCount
    rw [← hp] at hadd
    cases hneed : switchNeedCheckLldp r.count r.pollCount with
    | true =>
      have hdvd := hr.needCheck.mp hneed
      rw [hneed, if_pos rfl] at hc
      constructor
      · rw [hc]
        exact hdvd
      · rw [hc, hadd]
        omega
    | false =>
      have hdvd : ¬ 100 ∣ r.pollCount.toNat := by
        rw [← hr.needCheck, hneed]
        exact Bool.false_ne_true
      rw [hneed, if_neg Bool.false_ne_true] at hc
      constructor
      · rw [hc]
        exact hcount
      · rw [hc, hadd]
        omega

/-- The polls since a check that was made at `n`, as long as no other is made. -/
def Since (n k : ℕ) (r : SwitchRun) : Prop :=
  r.pollCount.toNat = (n+1+k)%4294967296 ∧ n+1+k ≤ 4294967296 ∧ k < 100

/-- Up to the next check no step passes the end of the counter or the interval. -/
theorem since_run {n : ℕ} (hn : 100 ∣ n) {ms : List SwitchLabel} {k : ℕ}
    (hr : OnTime r) (hsince : Since n k r) (hok : RunMeets (switchStep pton s) (PollSucceeds pton s) r ms)
    (hno : RunMeets (switchStep pton s) (fun r l => ¬ ChecksLldp r l) r ms)
    (h : run (switchStep pton s) r ms = some r') :
    OnTime r' ∧ Since n (k+ms.countP isPoll) r' := by
  induction ms generalizing r k with
  | nil =>
    obtain rfl := Option.some.inj h
    exact ⟨hr, hsince⟩
  | cons l ms ih =>
    obtain ⟨t, ht, h⟩ := run_cons.mp h
    obtain ⟨hl, hok⟩ := hok
    obtain ⟨hnot, hno⟩ := hno
    have ht' := onTime_step hr hl ht
    rcases step_counts hl ht with ⟨hpoll, -, hp⟩ | ⟨hpoll, hp, -⟩
    · rw [List.countP_cons_of_neg (by simp [hpoll])]
      apply ih ht' ?_ (hok t ht) (hno t ht) h
      rw [Since, hp]
      exact hsince
    · have hdvd : ¬ 100 ∣ r.pollCount.toNat := by
        cases l with
        | turn ans => cases hpoll
        | poll sys => exact fun hd => hnot (hr.needCheck.mpr hd)
      obtain ⟨hcount, hend, hk⟩ := hsince
      rw [List.countP_cons_of_pos hpoll, Nat.add_comm (ms.countP isPoll), ← Nat.add_assoc]
      apply ih ht' ?_ (hok t ht) (hno t ht) h
      have hadd := toNat_next r.pollCount
      have hlt' : n+1+k < 4294967296 := by
        by_contra hwrap
        -- the number is 0, where a check is made
        have hzero : n+1+k = 4294967296 := by omega
        rw [hcount, hzero] at hdvd
        exact hdvd (by decide)
      rw [Nat.mod_eq_of_lt hlt'] at hcount
      rw [Since, hp, hadd, hcount]
      omega

end Steps

/-- Two checks with none between them, in a run without a failing poll: `x` is made
after the labels `ls`, and `y` after the labels `ms` behind it. -/
structure ConsecutiveChecks (pton : Pton) (s : CfgState) (ls ms : List SwitchLabel)
    (x y : SwitchLabel) (r r₁ r₂ : SwitchRun) : Prop where
  start : run (switchStep pton s) SwitchRun.init ls = some r
  first : ChecksLldp r x
  step : switchStep pton s r x = some r₁
  between : run (switchStep pton s) r₁ ms = some r₂
  quiet : RunMeets (switchStep pton s) (fun r l => ¬ ChecksLldp r l) r₁ ms
  second : ChecksLldp r₂ y
  before : RunMeets (switchStep pton s) (PollSucceeds pton s) SwitchRun.init ls
  success : PollSucceeds pton s r x
  after : RunMeets (switchStep pton s) (PollSucceeds pton s) r₁ ms

/-- Two checks are the interval apart exactly if the counter does not wrap between
them. -/
theorem checks_apart_iff {pton : Pton} {s : CfgState} {ls ms : List SwitchLabel} {x y : SwitchLabel}
    {r r₁ r₂ : SwitchRun} (h : ConsecutiveChecks pton s ls ms x y r r₁ r₂) :
    (x :: ms).countP isPoll = SWITCH_POLL_INTEVAL.toNat ↔ r.pollCount < r₂.pollCount := by
  have hinterval : SWITCH_POLL_INTEVAL.toNat = 100 := rfl
  have hr : OnTime r := by
    apply run_meets_invariant (I := OnTime) ?_ onTime_init h.before h.start
    intro a l b ha hl hab
    exact onTime_step ha hl hab
  have hr₁ := onTime_step hr h.success h.step
  have hpoll : isPoll x = true := by
    cases x with
    | poll sys => rfl
    | turn ans => exact absurd h.first id
  have hdvd : 100 ∣ r.pollCount.toNat := by
    cases x with
    | poll sys => exact hr.needCheck.mp h.first
    | turn ans => exact absurd h.first id
  have hlt := r.pollCount.toNat_lt
  have hsince : Since r.pollCount.toNat 0 r₁ := by
    rcases step_counts h.success h.step with ⟨hno, -, -⟩ | ⟨-, hp, -⟩
    · cases hno.symm.trans hpoll
    · have hadd := toNat_next r.pollCount
      rw [Since, hp, hadd]
      omega
  obtain ⟨hr₂, hcount, hend, hk⟩ := since_run hdvd hr₁ hsince h.after h.quiet h.between
  have hdvd₂ : 100 ∣ r₂.pollCount.toNat := by
    cases y with
    | poll sys => exact hr₂.needCheck.mp h.second
    | turn ans => exact absurd h.second id
  rw [List.countP_cons_of_pos hpoll, hinterval, UInt32.lt_iff_toNat_lt]
  rw [Nat.zero_add] at hcount hend hk
  rcases Nat.lt_or_eq_of_le hend with hbefore | hwrap
  · rw [Nat.mod_eq_of_lt hbefore] at hcount
    omega
  · rw [hwrap, Nat.mod_self] at hcount
    omega

/-! A host without interfaces. -/

section Empty

def emptySystem : NetSystem := ⟨some [], none, some [0], fun _ => none, 0⟩

/-- Every interface may be used. -/
def anyState : CfgState := { clearState with anyflag := .yes }

def noPton : Pton := fun _ _ => none

/-- Nothing is in the list of ports. -/
def NoPorts (r : SwitchRun) : Prop := r.done = [] ∧ r.todo = []

variable {r : SwitchRun}

theorem emptySystem_nets (count : UInt32) :
    snsdCfgNetInfo noPton anyState LldpRunInfo.zero .sw emptySystem count [] = .ok ([], 0) := by
  rfl

theorem emptySystem_step (hr : NoPorts r) :
    PollSucceeds noPton anyState r (.poll emptySystem) ∧
      ∃ t, switchStep noPton anyState r (.poll emptySystem) = some t ∧ NoPorts t ∧
        t.pollCount.toNat = (r.pollCount.toNat+1)%4294967296 := by
  have hnets := emptySystem_nets r.pollCount
  have hok : PollSucceeds noPton anyState r (.poll emptySystem) := by
    rw [PollSucceeds, hr.1]
    exact ⟨[], hnets⟩
  refine ⟨hok, ?_⟩
  simp only [switchStep, hr.1, hr.2, hnets]
  exact ⟨_, rfl, ⟨rfl, rfl⟩, toNat_next r.pollCount⟩

theorem emptySystem_run (n : ℕ) (hr : NoPorts r) :
    RunMeets (switchStep noPton anyState) (PollSucceeds noPton anyState) r
        (List.replicate n (.poll emptySystem)) ∧
      ∃ t, run (switchStep noPton anyState) r (List.replicate n (.poll emptySystem)) = some t ∧
        NoPorts t ∧ t.pollCount.toNat = (r.pollCount.toNat+n)%4294967296 := by
  induction n generalizing r with
  | zero =>
    have hlt := r.pollCount.toNat_lt
    refine ⟨trivial, r, rfl, hr, ?_⟩
    omega
  | succ n ih =>
    obtain ⟨hok, t, ht, htr, hnext⟩ := emptySystem_step hr
    obtain ⟨hmeets, u, hu, hur, hcount⟩ := ih htr
    rw [List.replicate_succ]
    refine ⟨RunMeets.cons hok ht hmeets, u, run_cons.mpr ⟨t, ht, hu⟩, hur, ?_⟩
    rw [hcount, hnext]
    omega

/-- Between multiples of the interval no check is made. -/
theorem emptySystem_quiet (n : ℕ) (hr : NoPorts r) (htime : OnTime r)
    (hno : ∀ j < n, ¬ 100 ∣ (r.pollCount.toNat+j)%4294967296) :
    RunMeets (switchStep noPton anyState) (fun r l => ¬ ChecksLldp r l) r
      (List.replicate n (.poll emptySystem)) := by
  induction n generalizing r with
  | zero => trivial
  | succ n ih =>
    obtain ⟨hok, t, ht, htr, hnext⟩ := emptySystem_step hr
    have hquiet : ¬ ChecksLldp r (.poll emptySystem) := by
      intro hcheck
      have hfirst := hno 0 n.succ_pos
      rw [Nat.add_zero, Nat.mod_eq_of_lt r.pollCount.toNat_lt] at hfirst
      exact hfirst (htime.needCheck.mp hcheck)
    rw [List.replicate_succ]
    apply RunMeets.cons hquiet ht
    apply ih htr (onTime_step htime hok ht)
    intro j hj
    have hlater := hno (j+1) (Nat.succ_lt_succ hj)
    rw [hnext, Nat.mod_add_mod, Nat.add_assoc, Nat.add_comm 1 j]
    exact hlater

/-- A check after `n` polls, and the next one after `k` more. -/
theorem emptySystem_checks (n k : ℕ) (hx : 100 ∣ (100+n)%4294967296)
    (hno : ∀ j < k, ¬ 100 ∣ (100+n+1+j)%4294967296) (hy : 100 ∣ (100+n+1+k)%4294967296) :
    ∃ r r₁ r₂, ConsecutiveChecks noPton anyState (List.replicate n (.poll emptySystem))
      (List.replicate k (.poll emptySystem)) (.poll emptySystem) (.poll emptySystem) r r₁ r₂ := by
  have hinit : NoPorts SwitchRun.init := ⟨rfl, rfl⟩
  obtain ⟨hbefore, r, hstart, hr, hcount⟩ := emptySystem_run n hinit
  have htime : OnTime r := by
    apply run_meets_invariant (I := OnTime) ?_ onTime_init hbefore hstart
    intro a l b ha hl hab
    exact onTime_step ha hl hab
  obtain ⟨hok, r₁, hstep, hr₁, hnext⟩ := emptySystem_step hr
  have htime₁ := onTime_step htime hok hstep
  obtain ⟨hafter, r₂, hbetween, hr₂, hlast⟩ := emptySystem_run k hr₁
  have htime₂ : OnTime r₂ := by
    apply run_meets_invariant (I := OnTime) ?_ htime₁ hafter hbetween
    intro a l b ha hl hab
    exact onTime_step ha hl hab
  have hinterval : SwitchRun.init.pollCount.toNat = 100 := rfl
  rw [hinterval] at hcount
  rw [hcount] at hnext
  refine ⟨r, r₁, r₂, hstart, ?_, hstep, hbetween, ?_, ?_, hbefore, hok, hafter⟩
  · refine htime.needCheck.mpr ?_
    rw [hcount]
    exact hx
  · apply emptySystem_quiet k hr₁ htime₁
    intro j hj
    have hsame : ((100+n)%4294967296+1)%4294967296 = (100+n+1)%4294967296 := by omega
    rw [hnext, hsame, Nat.mod_add_mod]
    exact hno j hj
  · refine htime₂.needCheck.mpr ?_
    have hsame : ((100+n)%4294967296+1)%4294967296 = (100+n+1)%4294967296 := by omega
    rw [hlast, hnext, hsame, Nat.mod_add_mod]
    exact hy

end Empty

/-- The first two checks. -/
theorem first_checks_apart :
    ∃ r r₁ r₂, ConsecutiveChecks noPton anyState [] (List.replicate 99 (.poll emptySystem))
        (.poll emptySystem) (.poll emptySystem) r r₁ r₂ ∧
      ((.poll emptySystem :: List.replicate 99 (.poll emptySystem)).countP isPoll =
        SWITCH_POLL_INTEVAL.toNat ↔ r.pollCount < r₂.pollCount) := by
  have hno : ∀ j < 99, ¬ 100 ∣ (100+0+1+j)%4294967296 := by
    intro j hj
    rw [Nat.mod_eq_of_lt (by omega)]
    omega
  obtain ⟨r, r₁, r₂, h⟩ := emptySystem_checks 0 99 (by decide) hno (by decide)
  exact ⟨r, r₁, r₂, h, checks_apart_iff h⟩

/-- The last check before the counter wraps and the first one after it. -/
theorem wrapped_check_early :
    ∃ r r₁ r₂, ConsecutiveChecks noPton anyState (List.replicate 4294967100 (.poll emptySystem))
        (List.replicate 95 (.poll emptySystem)) (.poll emptySystem) (.poll emptySystem) r r₁ r₂ ∧
      (.poll emptySystem :: List.replicate 95 (.poll emptySystem)).countP isPoll ≠
        SWITCH_POLL_INTEVAL.toNat := by
  have hno : ∀ j < 95, ¬ 100 ∣ (100+4294967100+1+j)%4294967296 := by
    intro j hj
    rw [Nat.mod_eq_of_lt (by omega)]
    omega
  obtain ⟨r, r₁, r₂, h⟩ := emptySystem_checks 4294967100 95 (by decide) hno (by decide)
  exact ⟨r, r₁, r₂, h, by decide⟩

end NvmeSnsd.Switch
