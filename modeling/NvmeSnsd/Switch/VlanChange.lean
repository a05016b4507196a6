import NvmeSnsd.Mgt.Marked
import NvmeSnsd.Switch.Checks
import NvmeSnsd.Switch.Quarantine

/-! A VLAN that changes between two checks: every poll renews the mark that the check reads. -/
namespace NvmeSnsd.Switch
open Lib Cfg Mgt

/-! The turn of a port that has its place. -/

section Turn
variable {ans : TurnAnswer} {table : FdTable} {net net' : SwitchNet} {needCheck : Bool}
  {pollCount : UInt32}

/-- Nothing is advertised, and the wait for the old VLAN begins. -/
structure StartsWait (ans : TurnAnswer) (out : FdTable × Option SwitchNet × List SwitchEvent) :
    Prop where
  silent : ∀ now key ifindex k, .lldp now key ifindex k ∉ out.2.2
  expires : ∀ x ∈ out.2.1, x.run.expires = ans.now+LLDP_OLD_TIME+LLDP_WAIT_OLD_TIME

/-- The slaves of a changed bond get their places. -/
def BondReady (ans : TurnAnswer) (table : FdTable) (net : SwitchNet) : Prop :=
  net.portInfo.bonding.change = true →
    (switchGetBondingFd ans.get.slaves table net.portInfo.bonding).2.2 = 0

theorem handleDisconnect_expires {ret : ℤ} :
    (switchPortHandleDisconnect ret net).run.expires = net.run.expires := by
  unfold switchPortHandleDisconnect
  split_ifs <;> rfl

theorem validHandle_starts_iff :
    StartsWait ans ((switchPortValidHandle ans table net).1,
        some (switchPortHandleDisconnect ans.disconnected (switchPortValidHandle ans table net).2.1),
        (switchPortValidHandle ans table net).2.2) ↔
      net.portInfo.vlanChange = true ∨
        net.run.expires = ans.now+LLDP_OLD_TIME+LLDP_WAIT_OLD_TIME := by
  unfold switchPortValidHandle
  split
  · next hmark =>
    refine iff_of_true ⟨fun _ _ _ _ h => absurd h List.not_mem_nil, ?_⟩ (Or.inl hmark)
    intro x hx
    obtain rfl := Option.some.inj hx
    exact handleDisconnect_expires
  · next hmark =>
    rw [or_iff_right hmark]
    unfold switchCheckLldpSend
    split
    · next hsend =>
      -- a port that sends does not wait
      refine iff_of_false (fun h => h.silent _ _ _ _ List.mem_cons_self) ?_
      have hle := hsend.2
      have hpos : 0 < LLDP_OLD_TIME := by decide
      omega
    · constructor
      · intro h
        rw [← h.expires _ rfl, handleDisconnect_expires]
      · intro h
        refine ⟨fun _ _ _ _ he => absurd he List.not_mem_nil, fun x hx => ?_⟩
        obtain rfl := Option.some.inj hx
        rw [handleDisconnect_expires]
        exact h

/-- The check of a port that has its place. -/
theorem portOne_starts_iff (hv : net.run.valid = true) (hcount : net.portInfo.count = pollCount) :
    StartsWait ans (switchPortOne true pollCount ans table net) ↔
      BondReady ans table net ∧ net.portInfo.vlanChange = true ∨
        net.run.expires = ans.now+LLDP_OLD_TIME+LLDP_WAIT_OLD_TIME := by
  unfold switchPortOne
  rw [if_pos hcount]
  dsimp only
  rw [if_pos rfl]
  unfold switchPortExistHandle
  rw [if_pos hv]
  split
  · next hchange =>
    dsimp only
    split
    · next hfails =>
      have hnot : ¬ BondReady ans table net := fun h => hfails (h hchange)
      simp only [hnot, false_and, false_or]
      constructor
      · intro h
        rw [← h.expires _ rfl, handleDisconnect_expires]
        rfl
      · intro h
        refine ⟨fun _ _ _ _ he => absurd he List.not_mem_nil, fun x hx => ?_⟩
        obtain rfl := Option.some.inj hx
        rw [handleDisconnect_expires]
        exact h
    · next hready =>
      have hyes : BondReady ans table net := fun _ => not_not.mp hready
      rw [validHandle_starts_iff]
      simp only [hyes, true_and]
      rfl
  · next hchange =>
    have hyes : BondReady ans table net := fun h => absurd h hchange
    rw [validHandle_starts_iff]
    simp only [hyes, true_and]

/-! A turn changes neither the VLAN of its port nor the mark. -/

theorem handleDisconnect_info {ret : ℤ} :
    (switchPortHandleDisconnect ret net).portInfo = net.portInfo := by
  unfold switchPortHandleDisconnect
  split_ifs <;> rfl

theorem checkLldpSend_info {sent : ℤ} {now : ℕ} :
    (switchCheckLldpSend sent now table net).1.portInfo = net.portInfo := by
  unfold switchCheckLldpSend
  split <;> rfl

theorem validHandle_info : (switchPortValidHandle ans table net).2.1.portInfo = net.portInfo := by
  unfold switchPortValidHandle
  split
  · rfl
  · exact checkLldpSend_info

theorem getFd_mark {get : GetAnswer} :
    (switchGetFd get table net).2.portInfo.mark = net.portInfo.mark := by
  unfold switchGetFd
  split
  · unfold switchGetBondingPhyFd
    rcases switchGetFdInfo get.phy.clock table net.portInfo.phyIfindex true with ⟨got, _ | ⟨i, k⟩⟩
    · rfl
    · dsimp only
      split <;> rfl
  · unfold switchGetPhyFd
    rcases switchGetFdData get.phy table net.portInfo.phyIfindex true with ⟨got, _ | ⟨i, k⟩⟩
    all_goals rfl

theorem existHandle_mark :
    (switchPortExistHandle ans table net).2.1.portInfo.mark = net.portInfo.mark := by
  unfold switchPortExistHandle
  split
  · split
    · dsimp only
      split
      · rfl
      · rw [validHandle_info]
        rfl
    · rw [validHandle_info]
  · dsimp only
    split
    · rw [checkLldpSend_info]
      exact getFd_mark
    · exact getFd_mark

theorem portOne_mark (h : net' ∈ (switchPortOne needCheck pollCount ans table net).2.1) :
    net'.portInfo.mark = net.portInfo.mark := by
  unfold switchPortOne at h
  split_ifs at h with hcount hcheck
  · obtain rfl := Option.some.inj h
    rw [handleDisconnect_info]
    exact existHandle_mark
  · obtain rfl := Option.some.inj h
    rw [handleDisconnect_info]
  · cases h
  · cases h
    rfl

end Turn

/-! Runs. -/

/-- No poll fails, and no disconnection. -/
def NoFailure (pton : Pton) (s : CfgState) (r : SwitchRun) : SwitchLabel → Prop
  | .poll sys => PollSucceeds pton s r (.poll sys)
  | .turn ans => ans.disconnected = 0

/-- What had its turn was found by the last poll, with a VLAN. -/
structure FoundLast (r : SwitchRun) : Prop where
  nodup : (keys r.nets).Nodup
  done : ∀ net ∈ r.done, net.portInfo.count = r.now ∧ net.portInfo.vlan ≠ SNSD_INVALID_VLAN
  todo : ∀ net ∈ r.todo, net.portInfo.count = r.now → net.portInfo.vlan ≠ SNSD_INVALID_VLAN

section Run
variable {pton : Pton} {s : CfgState} {r r' : SwitchRun}

theorem keys_append (a b : List SwitchNet) : keys (a ++ b) = keys a ++ keys b := List.map_append

theorem FoundLast.init : FoundLast SwitchRun.init where
  nodup := List.nodup_nil
  done := fun _ hnet => absurd hnet List.not_mem_nil
  todo := fun _ hnet => absurd hnet List.not_mem_nil

/-- The number of a poll is not that of the ports of before. -/
theorem FoundLast.old (h : FoundLast r) : ∀ net ∈ r.done, net.portInfo.count ≠ r.pollCount := by
  intro net hnet heq
  have hcount := (h.done net hnet).1
  rw [heq, SwitchRun.now] at hcount
  have hone : (1 : UInt32) = 0 := by
    grind
  exact absurd hone (by decide)

/-- What a poll that does not fail leaves. -/
theorem step_poll_found (h : FoundLast r) {sys : NetSystem}
    (hok : PollSucceeds pton s r (.poll sys))
    (hs : switchStep pton s r (.poll sys) = some r') :
    r'.done = [] ∧ r'.now = r.pollCount ∧ (keys r'.todo).Nodup ∧
      r'.needCheck = switchNeedCheckLldp r.count r.pollCount ∧
      ∀ net ∈ r'.todo, net.portInfo.count = r'.now → Visited LldpRunInfo.zero sys r.done net := by
  obtain ⟨polled, hpolled⟩ := hok
  obtain ⟨htodo, nets, ret, hcfg, hend⟩ := step_poll hs
  obtain ⟨rfl, rfl⟩ := Prod.mk.inj (Except.ok.inj (hcfg.symm.trans hpolled))
  have hnow (n : UInt32) : n+1-1 = n := by
    grind
  have hnodup : (keys r.done).Nodup := by
    have hall := h.nodup
    rwa [SwitchRun.nets, htodo, List.append_nil] at hall
  rcases hend with ⟨hne, -⟩ | ⟨-, rfl⟩
  · exact absurd rfl hne
  refine ⟨rfl, hnow _, ?_, rfl, fun net hnet hcount => ?_⟩
  · have hrun := cfgNetInfo_hasRun (P := fun _ => False) hnodup id (fun _ _ hp => hp.elim)
      (fun _ _ hp => hp.elim) hcfg
    exact hrun.1
  · rw [SwitchRun.now, hnow] at hcount
    exact cfgNetInfo_visited hnodup h.old hcfg hnet hcount

theorem FoundLast.poll (h : FoundLast r) {sys : NetSystem}
    (hok : PollSucceeds pton s r (.poll sys))
    (hs : switchStep pton s r (.poll sys) = some r') : FoundLast r' := by
  obtain ⟨hdone, -, hnodup, -, hvisited⟩ := step_poll_found h hok hs
  constructor
  · rw [SwitchRun.nets, hdone, List.nil_append]
    exact hnodup
  · rw [hdone]
    exact fun _ hnet => absurd hnet List.not_mem_nil
  · intro net hnet hcount
    exact (hvisited net hnet hcount).vlan.2

theorem FoundLast.turn (h : FoundLast r) {ans : TurnAnswer} (hok : ans.disconnected = 0)
    (hs : switchStep pton s r (.turn ans) = some r') : FoundLast r' := by
  obtain ⟨net, rest, htodo, rfl⟩ := step_turn hs
  have hmem : net ∈ r.todo := htodo ▸ List.mem_cons_self
  have hout : ∀ x ∈ (switchPortOne r.needCheck r.now ans r.table net).2.1,
      x.portInfo.key = net.portInfo.key ∧ x.portInfo.count = r.now ∧
        x.portInfo.vlan ≠ SNSD_INVALID_VLAN := by
    intro x hx
    have hkeeps := portOne_keeps hx
    have hcount : net.portInfo.count = r.now := by
      by_contra hne
      rw [switchPortOne, if_neg hne, if_pos hok] at hx
      cases hx
    refine ⟨hkeeps.key, hkeeps.count.trans hcount, ?_⟩
    rw [show x.portInfo.vlan = net.portInfo.vlan from congrArg Prod.fst (portOne_mark hx)]
    exact h.todo net hmem hcount
  constructor
  · have hall := h.nodup
    rw [SwitchRun.nets, htodo, keys_append] at hall
    rw [SwitchRun.nets, keys_append, keys_append, List.append_assoc]
    dsimp only
    cases hone : (switchPortOne r.needCheck r.now ans r.table net).2.1 with
    | none => exact hall.sublist ((List.Sublist.refl _).append (List.sublist_cons_self _ _))
    | some x =>
      have hkey : keys (some x).toList ++ keys rest = keys (net :: rest) :=
        congrArg (· :: keys rest) (hout x hone).1
      rw [hkey]
      exact hall
  · intro x hx
    rcases List.mem_append.mp hx with hx | hx
    · exact h.done x hx
    · exact (hout x (Option.mem_toList.mp hx)).2
  · intro x hx
    exact h.todo x (htodo ▸ List.mem_cons_of_mem _ hx)

theorem FoundLast.step (h : FoundLast r) {l : SwitchLabel} (hok : NoFailure pton s r l)
    (hs : switchStep pton s r l = some r') : FoundLast r' := by
  cases l with
  | poll sys => exact h.poll hok hs
  | turn ans => exact h.turn hok hs

/-- The turns of a poll take the ports one after the other. -/
theorem turns_todo {us : List SwitchLabel} (hus : ∀ l ∈ us, isPoll l = false)
    (h : run (switchStep pton s) r us = some r') :
    (∃ pre, r.todo = pre ++ r'.todo) ∧ r'.needCheck = r.needCheck ∧ r'.now = r.now := by
  induction us generalizing r with
  | nil =>
    obtain rfl := Option.some.inj h
    exact ⟨⟨[], rfl⟩, rfl, rfl⟩
  | cons l us ih =>
    obtain ⟨hl, hus⟩ := List.forall_mem_cons.mp hus
    obtain ⟨t, ht, hrun⟩ := run_cons.mp h
    obtain ⟨⟨pre, hpre⟩, hcheck, hnow⟩ := ih hus hrun
    cases l with
    | poll sys => cases hl
    | turn ans =>
      obtain ⟨net, rest, htodo, rfl⟩ := step_turn ht
      exact ⟨⟨net :: pre, by rw [htodo, List.cons_append, ← hpre]⟩, hcheck, hnow⟩

end Run

/-! A change, and the check behind it. -/

/-- A poll finds a port that has its place, with another VLAN than the valid one stored. -/
def FindsChange (r : SwitchRun) (sys : NetSystem) (k : Bytes × Bytes) : Prop :=
  ∃ old ∈ r.done, old.portInfo.key = k ∧ old.run.valid = true ∧
    k ∈ sys.interfaces.map Ifreq.key ∧ ∃ vlan pos, snsdFillVlan k.1 sys.vlanText = .ok (vlan, pos) ∧
      vlan ≠ SNSD_INVALID_VLAN ∧ old.portInfo.vlan ≠ SNSD_INVALID_VLAN ∧ vlan ≠ old.portInfo.vlan

/-- The turn of a port in which `switch_port_exist_handle` is called. -/
def ChecksPort (k : Bytes × Bytes) (r : SwitchRun) (l : SwitchLabel) : Prop :=
  isPoll l = false ∧ r.needCheck = true ∧
    ∃ net ∈ r.todo.head?, net.portInfo.key = k ∧ net.portInfo.count = r.now

/-- The poll `sys` finds a change at the port `k`, and the turn `ans` is the first to check
the port after it. -/
structure ChangeChecked (pton : Pton) (s : CfgState) (k : Bytes × Bytes) (ls : List SwitchLabel)
    (sys : NetSystem) (ms : List SwitchLabel) (ans : TurnAnswer) (r₀ r₁ r₂ : SwitchRun)
    (net : SwitchNet) : Prop where
  start : run (switchStep pton s) SwitchRun.init ls = some r₀
  finds : FindsChange r₀ sys k
  poll : switchStep pton s r₀ (.poll sys) = some r₁
  between : run (switchStep pton s) r₁ ms = some r₂
  success : RunMeets (switchStep pton s) (NoFailure pton s) SwitchRun.init (ls ++ .poll sys :: ms)
  unchecked : RunMeets (switchStep pton s) (fun r l => ¬ ChecksPort k r l) r₁ ms
  checks : ChecksPort k r₂ (.turn ans)
  inTurn : net ∈ r₂.todo.head?
  /-- It is the same port: a new one has no place before its first check. -/
  placed : net.run.valid = true

/-- The poll lists the port once, and its VLAN is not the one that the poll before has stored. -/
def FindsNewVlan (r : SwitchRun) (sys : NetSystem) (k : Bytes × Bytes) : Prop :=
  (sys.interfaces.map Ifreq.key).count k = 1 ∧ ∃ old ∈ r.done, old.portInfo.key = k ∧
    ∃ vlan pos, snsdFillVlan k.1 sys.vlanText = .ok (vlan, pos) ∧ vlan ≠ old.portInfo.vlan

section Change
variable {pton : Pton} {s : CfgState} {k : Bytes × Bytes} {sys : NetSystem} {q : SwitchRun}
  {net : SwitchNet}

/-- The mark of a port with a place is what the last poll has made of it. -/
theorem visited_mark_iff (hq : FoundLast q) (hqdone : (keys q.done).Nodup)
    (h : Visited LldpRunInfo.zero sys q.done net) (hv : net.run.valid = true) :
    net.portInfo.vlanChange = true ↔ FindsNewVlan q sys net.portInfo.key := by
  rcases h.origin with hfresh | ⟨old, hold, hkey, -, hmark⟩
  · rw [hfresh] at hv
    exact absurd hv Bool.false_ne_true
  obtain ⟨⟨vlan, pos, hfill, -⟩, -⟩ := h.vlan
  have hmark := hmark vlan pos hfill
  have hpos : 0 < (sys.interfaces.map Ifreq.key).count net.portInfo.key :=
    List.count_pos_iff.mpr h.listed
  have hone (hcount : (sys.interfaces.map Ifreq.key).count net.portInfo.key = 1) :
      net.portInfo.vlanChange = true ↔ vlan ≠ old.portInfo.vlan := by
    rw [hcount, Function.iterate_one] at hmark
    have hflag : net.portInfo.vlanChange = (markVisit vlan old.portInfo.mark).2 :=
      congrArg Prod.snd hmark
    have hvalid := (hq.done old hold).2
    rw [hflag, markVisit]
    by_cases hsame : old.portInfo.vlan = vlan
    · simp [PortInfo.mark, hsame]
    · simp [PortInfo.mark, hsame, hvalid, Ne.symm hsame]
  constructor
  · intro hflag
    have hcount : (sys.interfaces.map Ifreq.key).count net.portInfo.key = 1 := by
      by_contra hne
      have htwo : 2 ≤ (sys.interfaces.map Ifreq.key).count net.portInfo.key := by
        omega
      obtain ⟨n, hn⟩ := Nat.exists_eq_add_of_le' htwo
      rw [hn, markVisit_twice] at hmark
      exact absurd (hflag.symm.trans (congrArg Prod.snd hmark)) Bool.false_ne_true.symm
    exact ⟨hcount, old, hold, hkey, vlan, pos, hfill, (hone hcount).mp hflag⟩
  · rintro ⟨hcount, old', hold', hkey', vlan', pos', hfill', hne⟩
    obtain rfl := eq_of_key hqdone hold' hold (hkey'.trans hkey.symm)
    obtain rfl : vlan' = vlan := congrArg Prod.fst (Except.ok.inj (hfill'.symm.trans hfill))
    exact (hone hcount).mpr hne

end Change

/-- The check behind a change starts the wait exactly if its own poll finds another VLAN than
the poll before, and the slaves of a changed bond get their places; or the port already waits
as long. `as` leads to that poll. -/
theorem vlan_change_checked_iff {pton : Pton} {s : CfgState} {k : Bytes × Bytes}
    {ls ms : List SwitchLabel} {sys : NetSystem} {ans : TurnAnswer} {r₀ r₁ r₂ : SwitchRun}
    {net : SwitchNet} (h : ChangeChecked pton s k ls sys ms ans r₀ r₁ r₂ net)
    {as us : List SwitchLabel} {last : NetSystem} {q : SwitchRun}
    (hsplit : ls ++ .poll sys :: ms = as ++ .poll last :: us) (hus : ∀ l ∈ us, isPoll l = false)
    (hq : run (switchStep pton s) SwitchRun.init as = some q) :
    StartsWait ans (switchPortOne r₂.needCheck r₂.now ans r₂.table net) ↔
      BondReady ans r₂.table net ∧ FindsNewVlan q last k ∨
        net.run.expires = ans.now+LLDP_OLD_TIME+LLDP_WAIT_OLD_TIME := by
  obtain ⟨-, hcheck, x, hx, hkey, hcount⟩ := h.checks
  obtain rfl : x = net := Option.some.inj (Option.mem_def.mp hx ▸ h.inTurn)
  have hrun : run (switchStep pton s) SwitchRun.init (as ++ .poll last :: us) = some r₂ := by
    rw [← hsplit]
    exact run_append.mpr ⟨r₀, h.start, run_cons.mpr ⟨r₁, h.poll, h.between⟩⟩
  obtain ⟨q', hq', hrun⟩ := run_append.mp hrun
  obtain rfl := Option.some.inj (hq.symm.trans hq')
  obtain ⟨q₁, hpoll, hturns⟩ := run_cons.mp hrun
  have hsuccess := h.success
  rw [hsplit] at hsuccess
  obtain ⟨hbefore, hafter⟩ := runMeets_append.mp hsuccess
  have hfound : FoundLast q :=
    run_meets_invariant (fun _ _ _ hi hl hs => hi.step hl hs) FoundLast.init hbefore hq
  obtain ⟨-, -, -, -, hvisited⟩ := step_poll_found hfound (hafter q hq).1 hpoll
  obtain ⟨⟨pre, hpre⟩, -, hnow⟩ := turns_todo hus hturns
  have hmem : x ∈ q₁.todo := by
    rw [hpre]
    exact List.mem_append_right _ (List.mem_of_mem_head? hx)
  have hdone : (keys q.done).Nodup := by
    have hall := hfound.nodup
    rw [SwitchRun.nets, keys_append] at hall
    exact (List.nodup_append.mp hall).1
  rw [hcheck, portOne_starts_iff h.placed hcount, ← hkey,
    visited_mark_iff hfound hdone (hvisited x hmem (hcount.trans hnow)) h.placed]

/-! Runs with one port, whose VLAN changes from 5 to 6. -/

section Sample

instance (pton : Pton) (s : CfgState) (r : SwitchRun) (l : SwitchLabel) :
    Decidable (NoFailure pton s r l) :=
  match l with
  | .poll sys =>
    match h : snsdCfgNetInfo pton s LldpRunInfo.zero .sw sys r.pollCount r.done with
    | .error _ => .isFalse fun ⟨_, hok⟩ => by cases h.symm.trans hok
    | .ok (nets, ret) => decidable_of_iff (ret = 0)
      ⟨fun hz => ⟨nets, hz ▸ h⟩, fun ⟨_, hok⟩ => by cases h.symm.trans hok; rfl⟩
  | .turn ans => inferInstanceAs (Decidable (ans.disconnected = 0))

instance (k : Bytes × Bytes) (r : SwitchRun) (l : SwitchLabel) : Decidable (ChecksPort k r l) :=
  inferInstanceAs (Decidable (_ ∧ _ ∧ _))

def changedSystem : NetSystem := { sampleSystem with vlan := some (ascii "e.5|6|e\n") }

/-- Polls with the turn of the one port behind each. -/
def polledTurns (n : ℕ) (sys : NetSystem) : List SwitchLabel :=
  (List.replicate n [SwitchLabel.poll sys, .turn (turnAt 1000)]).flatten

/-- The parts of a change and its check that can be computed. -/
theorem sample_changeChecked (ls ms : List SwitchLabel) (ans : TurnAnswer)
    (h₀ : (run (switchStep samplePton sampleCfg) SwitchRun.init ls).map (fun r =>
      r.done.map fun net => (net.portInfo.key, net.run.valid, net.portInfo.vlan)) =
        some [(returnKey, true, 5)])
    (h₁ : (run (switchStep samplePton sampleCfg) SwitchRun.init
      (ls ++ [.poll changedSystem])).map (fun r => decide (RunMeets (switchStep samplePton sampleCfg)
        (fun r l => ¬ ChecksPort returnKey r l) r ms)) = some true)
    (h₂ : (run (switchStep samplePton sampleCfg) SwitchRun.init
      (ls ++ .poll changedSystem :: ms)).map (fun r => (decide (ChecksPort returnKey r (.turn ans)),
        r.todo.head?.map fun net => net.run.valid)) = some (true, some true))
    (hok : RunMeets (switchStep samplePton sampleCfg) (NoFailure samplePton sampleCfg)
      SwitchRun.init (ls ++ .poll changedSystem :: ms)) :
    ∃ r₀ r₁ r₂ net, ChangeChecked samplePton sampleCfg returnKey ls changedSystem ms ans r₀ r₁ r₂ net ∧
      run (switchStep samplePton sampleCfg) SwitchRun.init (ls ++ .poll changedSystem :: ms) = some r₂ := by
  obtain ⟨r₂, hr₂, hlast⟩ := Option.map_eq_some_iff.mp h₂
  obtain ⟨r₀, hr₀, hrun⟩ := run_append.mp hr₂
  obtain ⟨r₁, hr₁, hms⟩ := run_cons.mp hrun
  have hfirst : run (switchStep samplePton sampleCfg) SwitchRun.init (ls ++ [.poll changedSystem]) =
      some r₁ :=
    run_append.mpr ⟨r₀, hr₀, run_cons.mpr ⟨r₁, hr₁, rfl⟩⟩
  rw [hr₀, Option.map_some] at h₀
  rw [hfirst, Option.map_some] at h₁
  obtain ⟨hchecks, hvalid⟩ := Prod.mk.inj hlast
  obtain ⟨net, hnet, hplaced⟩ := Option.map_eq_some_iff.mp hvalid
  refine ⟨r₀, r₁, r₂, net, ⟨hr₀, ?_, hr₁, hms, hok, of_decide_eq_true (Option.some.inj h₁),
    of_decide_eq_true hchecks, hnet, hplaced⟩, hr₂⟩
  obtain ⟨old, hdone, hold⟩ := List.map_eq_singleton_iff.mp (Option.some.inj h₀)
  obtain ⟨hkey, hv, hvlan⟩ : old.portInfo.key = returnKey ∧ old.run.valid = true ∧
      old.portInfo.vlan = 5 := by
    simpa only [Prod.mk.injEq] using hold
  refine ⟨old, hdone ▸ List.mem_singleton_self old, hkey, hv, by decide +kernel, 6, 5, ?_⟩
  rw [hvlan]
  decide +kernel

/-- The polls behind a change up to the next check, which find nothing new. -/
def unchangedPolls : List SwitchLabel :=
  .turn (turnAt 1000) :: polledTurns 98 changedSystem ++ [.poll changedSystem]

/-- The change is found between two checks: the port advertises its new VLAN at once. -/
theorem change_unmarked : ¬ ∀ (pton : Pton) (s : CfgState) (k : Bytes × Bytes)
    (ls ms : List SwitchLabel) (sys : NetSystem) (ans : TurnAnswer) (r₀ r₁ r₂ : SwitchRun)
    (net : SwitchNet), ChangeChecked pton s k ls sys ms ans r₀ r₁ r₂ net →
      StartsWait ans (switchPortOne r₂.needCheck r₂.now ans r₂.table net) := by
  intro hall
  obtain ⟨r₀, r₁, r₂, net, hchange, hrun⟩ := sample_changeChecked
    (polledTurns 1 sampleSystem) unchangedPolls (turnAt 1100)
    (by decide +kernel) (by decide +kernel) (by decide +kernel) (by decide +kernel)
  have hsent : (run (switchStep samplePton sampleCfg) SwitchRun.init
      (polledTurns 1 sampleSystem ++ .poll changedSystem :: unchangedPolls)).map (fun r =>
        r.todo.head?.map fun net =>
          (switchPortOne r.needCheck r.now (turnAt 1100) r.table net).2.2) =
      some (some [.lldp 1100 returnKey 7 1]) := by
    decide +kernel
  rw [hrun, Option.map_some, Option.mem_def.mp hchange.inTurn] at hsent
  have hevents : (switchPortOne r₂.needCheck r₂.now (turnAt 1100) r₂.table net).2.2 =
      [.lldp 1100 returnKey 7 1] :=
    Option.some.inj (Option.some.inj hsent)
  apply (hall _ _ _ _ _ _ _ _ _ _ _ hchange).silent 1100 returnKey 7 1
  rw [hevents]
  exact List.mem_cons_self

/-- The change is found by the poll of a check. -/
theorem change_marked : ∃ r₀ r₁ r₂ net, ChangeChecked samplePton sampleCfg returnKey
      (polledTurns 100 sampleSystem) changedSystem [] (turnAt 1100) r₀ r₁ r₂ net ∧
    StartsWait (turnAt 1100) (switchPortOne r₂.needCheck r₂.now (turnAt 1100) r₂.table net) := by
  obtain ⟨r₀, r₁, r₂, net, hchange, hrun⟩ := sample_changeChecked
    (polledTurns 100 sampleSystem) [] (turnAt 1100)
    (by decide +kernel) (by decide +kernel) (by decide +kernel) (by decide +kernel)
  refine ⟨r₀, r₁, r₂, net, hchange, ?_⟩
  rw [vlan_change_checked_iff hchange rfl (fun _ hl => absurd hl List.not_mem_nil) hchange.start]
  obtain ⟨old, hold, hkey, -, -, vlan, pos, hfill, -, -, hne⟩ := hchange.finds
  refine Or.inl ⟨fun hbond => ?_, by decide +kernel, old, hold, hkey, vlan, pos, hfill, hne⟩
  have hplain : (run (switchStep samplePton sampleCfg) SwitchRun.init
      (polledTurns 100 sampleSystem ++ [.poll changedSystem])).map (fun r =>
        r.todo.head?.map (·.portInfo.bonding.change)) = some (some false) := by
    decide +kernel
  rw [hrun, Option.map_some, Option.mem_def.mp hchange.inTurn] at hplain
  exact absurd ((Option.some.inj (Option.some.inj hplain)).symm.trans hbond) Bool.false_ne_true

end Sample

end NvmeSnsd.Switch
