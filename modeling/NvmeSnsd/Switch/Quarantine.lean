import NvmeSnsd.Switch.Refs

/-! The wait before an index of an interface is advertised again after its port has gone. -/
namespace NvmeSnsd.Switch
open Lib Cfg Mgt

/-- When a neighbour has forgotten what was advertised at `t`. -/
def quietUntil (t : ℕ) : ℕ := t+LLDP_OLD_TIME+LLDP_WAIT_OLD_TIME

theorem quietUntil_mono {a b : ℕ} (h : a ≤ b) : quietUntil a ≤ quietUntil b := by
  unfold quietUntil
  omega

/-- The turn reads the clock between `a` and `b`, first for its check and then for a place. -/
structure TurnAnswer.Within (a b : ℕ) (ans : TurnAnswer) : Prop where
  now : a ≤ ans.now ∧ ans.now ≤ b
  clock : ∀ i, ans.now ≤ ans.get.phy.clock i ∧ ans.get.phy.clock i ≤ b
  put : ans.now ≤ ans.get.phy.putTime ∧ ans.get.phy.putTime ≤ b
  freed : a ≤ ans.freed 0 ∧ ans.freed 0 ≤ b

/-- The clock does not go back. -/
def Clocked : ℕ → List SwitchLabel → Prop
  | _, [] => True
  | a, .poll _ :: ls => Clocked a ls
  | a, .turn ans :: ls => ∃ b, ans.Within a b ∧ Clocked b ls

/-! What a turn does to the interfaces of the places and to their times. -/

/-- An interface leaves its place only when the place is free, and no time goes back. -/
structure Ages (b : ℕ) (table table' : FdTable) : Prop where
  stays : ∀ i, (table'.get i).ifindex = (table.get i).ifindex ∨ isFree b (table.get i) = true
  later : ∀ i, (table.get i).oldTime ≤ (table'.get i).oldTime
  aged : ∀ i, (table'.get i).oldTime ≤ quietUntil b

/-- The place `i` is given to the interface. -/
structure Took (b : ℕ) (table table' : FdTable) (ifindex : ℤ) (i : Fin MAX_PHY_PORT) : Prop where
  taken : (table'.get i).ifindex = ifindex
  oldTime : (table'.get i).oldTime = (table.get i).oldTime
  others : ∀ j, j ≠ i → table'.get j = table.get j
  found : ∀ j, (table.get j).ifindex = ifindex → j = i
  stays : (table'.get i).ifindex = (table.get i).ifindex ∨ isFree b (table.get i) = true

section Table
variable {a b now : ℕ} {clock : Fin MAX_PHY_PORT → ℕ} {ans : FdAnswer} {table table' : FdTable}
  {ifindex : ℤ} {withIndex : Bool} {hs : Multiset Hold} {i : Fin MAX_PHY_PORT} {k : ℕ}

attribute [local irreducible] setAt

theorem isFree_mono {c : ℕ} {fd : SwitchPortFd} (hc : c ≤ b) (h : isFree c fd = true) :
    isFree b fd = true := by
  simp only [isFree, Bool.or_eq_true, decide_eq_true_eq, Bool.and_eq_true] at h ⊢
  omega

theorem Ages.refl (haged : ∀ i, (table.get i).oldTime ≤ quietUntil a) (hab : a ≤ b) :
    Ages b table table where
  stays := fun _ => Or.inl rfl
  later := fun _ => le_rfl
  aged := fun i => (haged i).trans (quietUntil_mono hab)

theorem Took.ages (h : Took b table table' ifindex i)
    (haged : ∀ i, (table.get i).oldTime ≤ quietUntil a) (hab : a ≤ b) : Ages b table table' := by
  have hage : ∀ j, (table'.get j).oldTime = (table.get j).oldTime := by
    intro j
    by_cases hji : j = i
    · rw [hji, h.oldTime]
    · rw [h.others j hji]
  constructor
  · intro j
    by_cases hji : j = i
    · rw [hji]
      exact h.stays
    · rw [h.others j hji]
      exact Or.inl rfl
  · intro j
    exact (hage j).ge
  · intro j
    rw [hage]
    exact (haged j).trans (quietUntil_mono hab)

theorem Ages.put (h : Ages b table table') (haged : ∀ j, (table.get j).oldTime ≤ quietUntil now)
    (hnow : now ≤ b) : Ages b table (switchPutFdInfo now table' i k) := by
  constructor
  · intro j
    rw [putFdInfo_ifindex]
    exact h.stays j
  · intro j
    by_cases hji : j = i
    · rw [hji, putFdInfo_self]
      exact haged i
    · rw [putFdInfo_ne hji]
      exact h.later j
  · intro j
    by_cases hji : j = i
    · rw [hji, putFdInfo_self]
      exact quietUntil_mono hnow
    · rw [putFdInfo_ne hji]
      exact h.aged j

theorem Took.setFd (h : Took b table table' ifindex i) (fd : ℤ) :
    Took b table (setAt table' i { table'.get i with fd := fd }) ifindex i := by
  constructor
  · rw [get_setAt_self]
    exact h.taken
  · rw [get_setAt_self]
    exact h.oldTime
  · intro j hji
    rw [get_setAt_ne _ hji]
    exact h.others j hji
  · exact h.found
  · rw [get_setAt_self]
    exact h.stays

theorem getFdInfo_took (held : Held table hs) (hpos : 0 ≤ ifindex) (hclock : ∀ i, clock i ≤ b)
    (h : switchGetFdInfo clock table ifindex withIndex = (table', some (i, k))) :
    Took b table table' ifindex i := by
  rcases getFdInfo_cases h with ⟨hr, -⟩ | ⟨j, _, map, hr, hj, rfl, -⟩ |
    ⟨j, _, map, hr, hnone, hfree, rfl, -⟩
  · cases hr
  · obtain ⟨rfl, rfl⟩ := Prod.mk.inj (Option.some.inj hr)
    constructor
    · rw [get_setAt_self, hj]
    · rw [get_setAt_self]
    · exact fun l hl => get_setAt_ne _ hl _
    · intro l hl
      exact held.unique l i (hl ▸ hpos) (hl.trans hj.symm)
    · rw [get_setAt_self]
      exact Or.inl rfl
  · obtain ⟨rfl, rfl⟩ := Prod.mk.inj (Option.some.inj hr)
    constructor
    · rw [get_setAt_self]
    · rw [get_setAt_self]
    · exact fun l hl => get_setAt_ne _ hl _
    · intro l hl
      exact absurd hl (hnone l)
    · exact Or.inr (isFree_mono (hclock i) hfree)

attribute [local irreducible] switchPutFdInfo switchGetFdInfo

/-- A place that could not be used is given back at once. -/
theorem getFdData_took {r : Option Hold} (held : Held table hs) (hpos : 0 ≤ ifindex)
    (hclock : ∀ i, ans.clock i ≤ b) (hput : a ≤ ans.putTime ∧ ans.putTime ≤ b)
    (haged : ∀ i, (table.get i).oldTime ≤ quietUntil a)
    (h : switchGetFdData ans table ifindex withIndex = (table', r)) :
    Ages b table table' ∧ ∀ x, r = some x → Took b table table' ifindex x.1 := by
  have hab := hput.1.trans hput.2
  have hputs {t : FdTable} {i : Fin MAX_PHY_PORT} {k : ℕ} (htook : Took b table t ifindex i) :
      Ages b table (switchPutFdInfo ans.putTime t i k) :=
    (htook.ages haged hab).put (fun j => (haged j).trans (quietUntil_mono hput.1)) hput.2
  unfold switchGetFdData at h
  rcases hg : switchGetFdInfo ans.clock table ifindex withIndex with ⟨got, _ | ⟨i, k⟩⟩
  · rw [hg] at h
    obtain ⟨rfl, rfl⟩ := Prod.mk.inj h
    rw [(held.get_none hg).1]
    exact ⟨Ages.refl haged hab, fun x hx => absurd hx (Option.some_ne_none x).symm⟩
  · have hgot := getFdInfo_took held hpos hclock hg
    rw [hg] at h
    dsimp only at h
    split at h
    · obtain ⟨rfl, rfl⟩ := Prod.mk.inj h
      exact ⟨hputs hgot, fun x hx => absurd hx (Option.some_ne_none x).symm⟩
    · have hopen : Took b table (if (got.get i).fd < 0 then
          setAt got i { got.get i with fd := ans.sock } else got) ifindex i := by
        split
        · exact hgot.setFd ans.sock
        · exact hgot
      split at h
      · obtain ⟨rfl, rfl⟩ := Prod.mk.inj h
        refine ⟨hopen.ages haged hab, fun x hx => ?_⟩
        obtain rfl := Option.some.inj hx
        exact hopen
      · obtain ⟨rfl, rfl⟩ := Prod.mk.inj h
        exact ⟨hputs hopen, fun x hx => absurd hx (Option.some_ne_none x).symm⟩

end Table

/-! The log. -/

/-- A port with the index `k` of the interface was deleted at `t`. -/
def Gone (log : List SwitchEvent) (ifindex : ℤ) (k t : ℕ) : Prop :=
  ∃ key, .delete t key ifindex k ∈ log

/-- Nothing is sent for an index before its last port is forgotten. -/
def Quiet (before : List SwitchEvent) (e : SwitchEvent) : Prop :=
  ∀ now key ifindex k, e = .lldp now key ifindex k →
    ∀ t, Gone before ifindex k t → quietUntil t ≤ now

/-- Events of a port that stays. -/
def Stays (es : List SwitchEvent) : Prop := ∀ e ∈ es, ∀ t key ifindex k, e ≠ .delete t key ifindex k

section Log
variable {log es : List SwitchEvent} {ifindex : ℤ} {k t : ℕ}

theorem gone_append : Gone (log ++ es) ifindex k t ↔ Gone log ifindex k t ∨ Gone es ifindex k t := by
  simp only [Gone, List.mem_append, exists_or]

theorem Stays.gone (h : Stays es) : Gone (log ++ es) ifindex k t ↔ Gone log ifindex k t := by
  rw [gone_append, or_iff_left]
  rintro ⟨key, hmem⟩
  exact h _ hmem t key ifindex k rfl

theorem always_quiet_append (h : Always Quiet log) (hstays : Stays es)
    (hes : ∀ e ∈ es, Quiet log e) : Always Quiet (log ++ es) := by
  induction es generalizing log with
  | nil => rwa [List.append_nil]
  | cons e es ih =>
    obtain ⟨he, hrest⟩ := List.forall_mem_cons.mp hes
    have hone : Stays [e] := fun x hx => hstays x (List.mem_cons.mpr (Or.inl (List.mem_singleton.mp hx)))
    rw [← List.singleton_append, ← List.append_assoc]
    apply ih (h.concat he) (fun x hx => hstays x (List.mem_cons_of_mem _ hx))
    intro x hx now key ifindex k hlldp t hgone
    exact hrest x hx now key ifindex k hlldp t (hone.gone.mp hgone)

end Log

/-! The turn of a port without a bond. -/

/-- A time up to which an index is not advertised, at the time `a`. -/
def Waits (a t expires : ℕ) : Prop := quietUntil t ≤ a ∨ quietUntil t ≤ expires

theorem Waits.mono {a b t expires : ℕ} (h : Waits a t expires) (hab : a ≤ b) : Waits b t expires :=
  h.imp_left fun h => h.trans hab

/-- What is kept of the places, at the time `a`: an interface that a port has left still has
its place, with the time of that, or it was long ago. -/
structure TableWaits (a : ℕ) (table : FdTable) (log : List SwitchEvent) : Prop where
  aged : ∀ i, (table.get i).oldTime ≤ quietUntil a
  gone : ∀ ifindex k t, Gone log ifindex k t → 0 ≤ ifindex ∧ (quietUntil t ≤ a ∨
    ∃ i, (table.get i).ifindex = ifindex ∧ quietUntil t ≤ (table.get i).oldTime)

/-- What is kept of a port. -/
structure PortWaits (a : ℕ) (table : FdTable) (log : List SwitchEvent) (net : SwitchNet) : Prop where
  off : net.portInfo.bonding.valid = false
  alone : net.portInfo.bonding.slave = []
  indexed : net.run.valid = true → net.portInfo.nameIndex ≠ 0
  waits : net.run.valid = true → ∀ t,
    Gone log (table.get net.run.index).ifindex net.portInfo.nameIndex t →
      Waits a t net.run.expires

section Turn
variable {a b : ℕ} {ans : TurnAnswer} {table table' : FdTable} {log es : List SwitchEvent}
  {net net' : SwitchNet} {hs : Multiset Hold}

theorem TableWaits.ages (h : TableWaits a table log) (hages : Ages b table table') (hab : a ≤ b) :
    TableWaits b table' log where
  aged := hages.aged
  gone := by
    intro ifindex k t hgone
    obtain ⟨hpos, hold | ⟨i, hi, hold⟩⟩ := h.gone ifindex k t hgone
    · exact ⟨hpos, Or.inl (hold.trans hab)⟩
    · refine ⟨hpos, ?_⟩
      rcases hages.stays i with hsame | hfree
      · exact Or.inr ⟨i, hsame.trans hi, hold.trans (hages.later i)⟩
      · -- the place was free: its time is over
        simp only [isFree, Bool.or_eq_true, decide_eq_true_eq, Bool.and_eq_true] at hfree
        omega

/-- What has happened is past. -/
theorem TableWaits.past (h : TableWaits a table log) {ifindex : ℤ} {k t : ℕ}
    (hgone : Gone log ifindex k t) : quietUntil t ≤ quietUntil a := by
  obtain ⟨-, hold | ⟨i, -, hold⟩⟩ := h.gone ifindex k t hgone
  · exact hold.trans (by unfold quietUntil; omega)
  · exact hold.trans (h.aged i)

/-- A port that is not in its turn keeps its place. -/
theorem PortWaits.ages (h : PortWaits a table log net) (held : Held table (netHolds net + hs))
    (hages : Ages b table table') (hab : a ≤ b) : PortWaits b table' log net where
  off := h.off
  alone := h.alone
  indexed := h.indexed
  waits := by
    intro hv t hgone
    rw [netHolds_valid hv, Multiset.cons_add] at held
    rcases hages.stays net.run.index with hsame | hfree
    · rw [hsame] at hgone
      exact (h.waits hv t hgone).mono hab
    · exact absurd rfl (held.free hfree _ (Multiset.mem_cons_self _ _))

theorem PortWaits.stays (h : PortWaits a table log net) (hstays : Stays es) :
    PortWaits a table (log ++ es) net where
  off := h.off
  alone := h.alone
  indexed := h.indexed
  waits := fun hv t hgone => h.waits hv t (hstays.gone.mp hgone)

theorem PortWaits.mono (h : PortWaits a table log net) (hab : a ≤ b) : PortWaits b table log net where
  off := h.off
  alone := h.alone
  indexed := h.indexed
  waits := fun hv t hgone => (h.waits hv t hgone).mono hab

/-- What the check of a port leaves, at the time of the check. -/
structure CheckWaits (now : ℕ) (table : FdTable) (log : List SwitchEvent) (net : SwitchNet)
    (es : List SwitchEvent) : Prop where
  port : PortWaits now table log net
  stays : Stays es
  quiet : ∀ e ∈ es, Quiet log e

theorem checkLldpSend_checked {now : ℕ} (sent : ℤ) (h : PortWaits now table log net)
    (hv : net.run.valid = true) :
    CheckWaits now table log (switchCheckLldpSend sent now table net).1
      (switchCheckLldpSend sent now table net).2 := by
  unfold switchCheckLldpSend
  split
  · next hsend =>
    -- the wait of the port is over when it sends
    have hover : ∀ t, Gone log (table.get net.run.index).ifindex net.portInfo.nameIndex t →
        quietUntil t ≤ now := by
      intro t hgone
      exact (h.waits hv t hgone).elim id fun hwait => hwait.trans hsend.2
    constructor
    · exact ⟨h.off, h.alone, h.indexed, fun _ t hgone => Or.inl (hover t hgone)⟩
    · intro e he t key ifindex k heq
      rw [List.mem_singleton.mp he] at heq
      cases heq
    · intro e he now' key ifindex k heq t hgone
      rw [List.mem_singleton.mp he] at heq
      cases heq
      exact hover t hgone
  · exact ⟨h, fun e he => absurd he List.not_mem_nil, fun e he => absurd he List.not_mem_nil⟩

theorem validHandle_checked (htable : TableWaits a table log) (hnow : a ≤ ans.now)
    (h : PortWaits ans.now table log net) (hv : net.run.valid = true) :
    CheckWaits ans.now table log (switchPortValidHandle ans table net).2.1
      (switchPortValidHandle ans table net).2.2 := by
  unfold switchPortValidHandle
  split
  · refine ⟨⟨h.off, h.alone, h.indexed, fun _ t hgone => Or.inr ?_⟩,
      fun e he => absurd he List.not_mem_nil, fun e he => absurd he List.not_mem_nil⟩
    exact (htable.past hgone).trans (quietUntil_mono hnow)
  · exact checkLldpSend_checked _ h hv

/-- A port gets a place: it waits as long as the last one that left the interface. -/
theorem calcExpires_waits {i : Fin MAX_PHY_PORT} {now k t : ℕ} (htable : TableWaits a table log)
    (htook : Took b table table' (table'.get i).ifindex i) (hnow : a ≤ now)
    (hgone : Gone log (table'.get i).ifindex k t) :
    Waits now t (calcExpiresForNew table' i now) := by
  obtain ⟨-, hold | ⟨j, hj, hold⟩⟩ := htable.gone _ _ _ hgone
  · exact Or.inl (hold.trans hnow)
  · have hji := htook.found j hj
    subst hji
    rw [← htook.oldTime] at hold
    unfold calcExpiresForNew
    split
    · next hlt => exact Or.inl (hold.trans hlt.le)
    · exact Or.inr hold

/-- A query tells the neighbours nothing. -/
theorem CheckWaits.query {now : ℕ} {x : SwitchNet} (h : CheckWaits now table log net es) :
    CheckWaits now table log net (es ++ snsdQueryZoneForPort x) := by
  have hquery : ∀ e ∈ snsdQueryZoneForPort x, ∃ key, e = .query key := by
    intro e he
    unfold snsdQueryZoneForPort at he
    split at he
    · exact ⟨_, List.mem_singleton.mp he⟩
    · exact absurd he List.not_mem_nil
  refine ⟨h.port, fun e he t key ifindex k heq => ?_, fun e he now key ifindex k heq => ?_⟩
  · rcases List.mem_append.mp he with he | he
    · exact h.stays e he t key ifindex k heq
    · obtain ⟨_, hq⟩ := hquery e he
      cases hq.symm.trans heq
  · rcases List.mem_append.mp he with he | he
    · exact h.quiet e he now key ifindex k heq
    · obtain ⟨_, hq⟩ := hquery e he
      cases hq.symm.trans heq

/-- Without slaves there is nothing to get or to free. -/
theorem getBondingFd_alone (slaves : ℕ → FdAnswer) (table : FdTable) {bonding : BondingInfo}
    (h : bonding.slave = []) : ∃ bonding', switchGetBondingFd slaves table bonding =
      (table, bonding', 0) ∧ bonding'.valid = bonding.valid ∧ bonding'.slave = [] := by
  unfold switchGetBondingFd
  rw [h, bondingWalk_nil]
  exact ⟨_, rfl, rfl, rfl⟩

attribute [local irreducible] switchGetFdData

/-- A new port without a bond that asks for its place. -/
theorem getFd_waits {get : GetAnswer} {now : ℕ} (hclock : ∀ i, get.phy.clock i ≤ b)
    (hput : now ≤ get.phy.putTime ∧ get.phy.putTime ≤ b) (hnow : a ≤ now)
    (htable : TableWaits a table log) (hport : PortWaits a table log net)
    (held : Held table (netHolds net + hs)) (h : switchGetFd get table net = (table', net')) :
    Ages b table table' ∧ (net' = net ∨ net'.portInfo.bonding = net.portInfo.bonding ∧
      net'.portInfo.nameIndex ≠ 0 ∧ net'.run.valid = true ∧
        Took b table table' (table'.get net'.run.index).ifindex net'.run.index) := by
  have hpos := Int.natCast_nonneg net.portInfo.phyIfindex
  unfold switchGetFd at h
  rw [hport.off, if_neg Bool.false_ne_true] at h
  unfold switchGetPhyFd at h
  rcases hdata : switchGetFdData get.phy table net.portInfo.phyIfindex true with
    ⟨got, _ | ⟨i, k⟩⟩
  · have hages := (getFdData_took held hpos hclock ⟨hnow.trans hput.1, hput.2⟩ htable.aged hdata).1
    rw [hdata] at h
    obtain ⟨rfl, rfl⟩ := Prod.mk.inj h
    exact ⟨hages, Or.inl rfl⟩
  · obtain ⟨hages, htook⟩ :=
      getFdData_took held hpos hclock ⟨hnow.trans hput.1, hput.2⟩ htable.aged hdata
    have hindex : k ≠ 0 := by
      rcases getFdData_held held hpos hdata with ⟨hx, -⟩ | ⟨x, hx, -, hindex⟩
      · cases hx
      · obtain rfl := Option.some.inj hx
        exact fun hk => absurd (hindex.mp hk) (by decide)
    have hone := htook (i, k) rfl
    rw [hdata] at h
    obtain ⟨rfl, rfl⟩ := Prod.mk.inj h
    refine ⟨hages, Or.inr ⟨rfl, hindex, rfl, ?_⟩⟩
    dsimp only at hone ⊢
    rw [hone.taken]
    exact hone

theorem existHandle_waits (hw : ans.Within a b) (htable : TableWaits a table log)
    (hport : PortWaits a table log net) (held : Held table (netHolds net + hs))
    (h : switchPortExistHandle ans table net = (table', net', es)) :
    Ages b table table' ∧ CheckWaits b table' log net' es := by
  have hnow := hw.now.1
  have hlater {t : FdTable} {x : SwitchNet} {ms : List SwitchEvent}
      (hc : CheckWaits ans.now t log x ms) : CheckWaits b t log x ms :=
    ⟨hc.port.mono hw.now.2, hc.stays, hc.quiet⟩
  unfold switchPortExistHandle at h
  split at h
  · next hv =>
    have hsame := Ages.refl htable.aged (hnow.trans hw.now.2)
    have hvalid {x : SwitchNet} (hx : PortWaits a table log x) (hxv : x.run.valid = true)
        (h : switchPortValidHandle ans table x = (table', net', es)) :
        Ages b table table' ∧ CheckWaits b table' log net' es := by
      have hchecked := validHandle_checked htable hnow (hx.mono hnow) hxv
      have htab : (switchPortValidHandle ans table x).1 = table := validHandle_holds.1
      rw [h] at htab hchecked
      dsimp only at htab hchecked
      rw [htab]
      exact ⟨hsame, hlater hchecked⟩
    split at h
    · obtain ⟨bonding, hget, hoff, halone⟩ :=
        getBondingFd_alone ans.get.slaves table hport.alone
      rw [hget] at h
      have hbonding : PortWaits a table log (withBonding net bonding) :=
        ⟨hoff.trans hport.off, halone, hport.indexed, hport.waits⟩
      exact hvalid hbonding hv h
    · exact hvalid hport hv h
  · next hv =>
    rcases hget : switchGetFd ans.get table net with ⟨got, x⟩
    obtain ⟨hages, hx⟩ := getFd_waits (fun i => (hw.clock i).2) hw.put hnow htable hport
      held hget
    rw [hget] at h
    dsimp only at h
    rcases hx with rfl | ⟨hbonding, hindex, hxv, htook⟩
    · rw [if_neg hv] at h
      cases h
      have hwaits : PortWaits b table' log net' :=
        ⟨hport.off, hport.alone, hport.indexed, fun hv' => absurd hv' hv⟩
      exact ⟨hages, hwaits, fun e he => absurd he List.not_mem_nil,
        fun e he => absurd he List.not_mem_nil⟩
    · rw [if_pos hxv] at h
      have hwaits : PortWaits ans.now got log { x with run := { x.run with
          intervalClock := LLDP_INTERVAL_CLOCK
          expires := calcExpiresForNew got x.run.index ans.now } } :=
        { off := hbonding ▸ hport.off
          alone := hbonding ▸ hport.alone
          indexed := fun _ => hindex
          waits := fun _ t hgone => calcExpires_waits htable htook hnow hgone }
      have hchecked := checkLldpSend_checked ans.sent hwaits hxv
      cases h
      exact ⟨hages, hlater hchecked.query⟩

theorem handleDisconnect_waits {ret : ℤ} (h : PortWaits b table log net) :
    PortWaits b table log (switchPortHandleDisconnect ret net) := by
  unfold switchPortHandleDisconnect
  split_ifs
  · exact ⟨h.off, h.alone, h.indexed, h.waits⟩
  · exact ⟨h.off, h.alone, h.indexed, h.waits⟩
  · exact h

/-- What a turn leaves for the run: the port in its turn, and the others beside it. -/
structure TurnWaits (a b : ℕ) (table table' : FdTable) (log es : List SwitchEvent)
    (net : SwitchNet) (out : Option SwitchNet) : Prop where
  places : TableWaits b table' (log ++ es)
  own : ∀ x ∈ out, PortWaits b table' (log ++ es) x
  others : ∀ x hs, Held table (netHolds x + (netHolds net + hs)) → PortWaits a table log x →
    PortWaits b table' (log ++ es) x
  quiet : Always Quiet log → Always Quiet (log ++ es)

theorem CheckWaits.turn (hab : a ≤ b) (htable : TableWaits a table log)
    (hages : Ages b table table') (h : CheckWaits b table' log net' es) :
    TurnWaits a b table table' log es net (some net') where
  places := by
    have hlater := htable.ages hages hab
    exact ⟨hlater.aged, fun ifindex k t hgone => hlater.gone ifindex k t (h.stays.gone.mp hgone)⟩
  own := by
    intro x hx
    obtain rfl := Option.some.inj hx
    exact h.port.stays h.stays
  others := fun x hs held hx => (hx.ages held hages hab).stays h.stays
  quiet := fun hlog => always_quiet_append hlog h.stays h.quiet

/-- No two ports hold the same index of an interface. -/
theorem netHolds_apart {x : SwitchNet} (hx : x.run.valid = true) (hv : net.run.valid = true)
    (hindex : net.portInfo.nameIndex ≠ 0) (held : Held table (netHolds x + (netHolds net + hs)))
    (hif : (table.get x.run.index).ifindex = (table.get net.run.index).ifindex) :
    x.portInfo.nameIndex ≠ net.portInfo.nameIndex := by
  intro hk
  rw [netHolds_valid hx, netHolds_valid hv, Multiset.cons_add, Multiset.cons_add,
    Multiset.add_cons] at held
  have hpos := held.taken _ (Multiset.mem_cons_self _ _)
  have hslot : x.run.index = net.run.index := held.unique _ _ hpos hif
  obtain ⟨b, hb⟩ := Nat.exists_eq_succ_of_ne_zero hindex
  have honce := held.once net.run.index b
  rw [← Nat.succ_eq_add_one, ← hb, hslot, hk, Multiset.count_cons_self,
    Multiset.count_cons_self] at honce
  omega

/-- A deletion starts the wait of its interface and its index. -/
theorem portDelete_waits (hw : ans.Within a b) (htable : TableWaits a table log)
    (hport : PortWaits a table log net) (held : Held table (netHolds net + hs))
    (h : switchPortDelete ans.freed table net = (table', es)) :
    TurnWaits a b table table' log es net none := by
  have hab := hw.now.1.trans hw.now.2
  have hsame := Ages.refl htable.aged hab
  unfold switchPortDelete at h
  split at h
  · next hv =>
    dsimp only at h
    rw [hport.off, if_neg Bool.false_ne_true] at h
    obtain ⟨rfl, rfl⟩ := Prod.mk.inj h
    have hfreed : ∀ i, (table.get i).oldTime ≤ quietUntil (ans.freed 0) :=
      fun i => (htable.aged i).trans (quietUntil_mono hw.freed.1)
    have hages := hsame.put (i := net.run.index) (k := net.portInfo.nameIndex) hfreed hw.freed.2
    have hone {ifindex : ℤ} {k t : ℕ} : Gone [SwitchEvent.delete (ans.freed 0) net.portInfo.key
        (table.get net.run.index).ifindex net.portInfo.nameIndex] ifindex k t ↔
        t = ans.freed 0 ∧ ifindex = (table.get net.run.index).ifindex ∧
          k = net.portInfo.nameIndex := by
      simp [Gone]
    rw [netHolds_valid hv, Multiset.cons_add] at held
    have hpos := held.taken _ (Multiset.mem_cons_self _ _)
    constructor
    · refine ⟨hages.aged, fun ifindex k t hgone => ?_⟩
      rcases gone_append.mp hgone with hgone | hgone
      · exact (htable.ages hages hab).gone ifindex k t hgone
      · obtain ⟨rfl, rfl, rfl⟩ := hone.mp hgone
        refine ⟨hpos, Or.inr ⟨net.run.index, putFdInfo_ifindex _, ?_⟩⟩
        rw [putFdInfo_self]
        exact le_rfl
    · exact fun x hx => absurd hx (Option.some_ne_none x).symm
    · intro x ms hheld hx
      have hlater := hx.ages hheld hages hab
      refine ⟨hx.off, hx.alone, hx.indexed, fun hxv t hgone => ?_⟩
      rcases gone_append.mp hgone with hgone | hgone
      · exact hlater.waits hxv t hgone
      · -- no other port holds the same index of the interface
        obtain ⟨-, hif, hk⟩ := hone.mp hgone
        rw [putFdInfo_ifindex] at hif
        exact absurd hk (netHolds_apart hxv hv (hport.indexed hv) hheld hif)
    · intro hlog
      apply hlog.concat
      intro now key ifindex k heq
      cases heq
  · obtain ⟨rfl, rfl⟩ := Prod.mk.inj h
    constructor
    · rw [List.append_nil]
      exact htable.ages hsame hab
    · exact fun x hx => absurd hx (Option.some_ne_none x).symm
    · intro x ms _ hx
      rw [List.append_nil]
      exact hx.mono hab
    · rw [List.append_nil]
      exact id

theorem portOne_waits (needCheck : Bool) (pollCount : UInt32) (hw : ans.Within a b) (htable : TableWaits a table log)
    (hport : PortWaits a table log net) (held : Held table (netHolds net + hs)) :
    TurnWaits a b table (switchPortOne needCheck pollCount ans table net).1 log
      (switchPortOne needCheck pollCount ans table net).2.2 net
      (switchPortOne needCheck pollCount ans table net).2.1 := by
  have hab := hw.now.1.trans hw.now.2
  have hidle : CheckWaits b table log net [] :=
    ⟨hport.mono hab, fun e he => absurd he List.not_mem_nil, fun e he => absurd he List.not_mem_nil⟩
  have hsame := Ages.refl htable.aged hab
  have hturn {t : FdTable} {x : SwitchNet} {ms : List SwitchEvent} (hages : Ages b table t)
      (hx : CheckWaits b t log x ms) : TurnWaits a b table t log ms net
        (some (switchPortHandleDisconnect ans.disconnected x)) :=
    CheckWaits.turn hab htable hages ⟨handleDisconnect_waits hx.port, hx.stays, hx.quiet⟩
  unfold switchPortOne
  split_ifs with hcount hcheck hgone
  · obtain ⟨hages, hx⟩ := existHandle_waits hw htable hport held rfl
    exact hturn hages hx
  · exact hturn hsame hidle
  · exact portDelete_waits hw htable hport held rfl
  · exact CheckWaits.turn hab htable hsame hidle

end Turn

/-! Runs. -/

/-- What is true at the time `a`; places that a poll has lost stay held. -/
structure QuietInv (a : ℕ) (r : SwitchRun) : Prop where
  held : ∃ lost, Held r.table (holdsOf r.nets + lost)
  ok : ∀ net ∈ r.nets, PortOk net
  ports : ∀ net ∈ r.nets, PortWaits a r.table r.log net
  places : TableWaits a r.table r.log
  quiet : Always Quiet r.log

section Run
variable {pton : Pton} {s : CfgState} {r r' : SwitchRun} {a b : ℕ}

theorem QuietInv.init : QuietInv 0 SwitchRun.init where
  held := ⟨0, Held.init⟩
  ok := fun _ hnet => absurd hnet List.not_mem_nil
  ports := fun _ hnet => absurd hnet List.not_mem_nil
  places := by
    refine ⟨fun i => ?_, fun ifindex k t hgone => ?_⟩
    · have hget : SwitchRun.init.table.get i = switchFdInit := Vector.getElem_replicate _
      rw [hget]
      exact Nat.zero_le _
    · obtain ⟨key, hmem⟩ := hgone
      exact absurd hmem List.not_mem_nil
  quiet := always_nil

theorem QuietInv.poll (inv : QuietInv a r) {sys : NetSystem} (hoff : sys.NoBond)
    (h : switchStep pton s r (.poll sys) = some r') : QuietInv a r' := by
  obtain ⟨hdone, htable, hlog, ret, hcfg, -⟩ := step_poll_nets h
  have hedit := (cfgNetInfo_edited hcfg).1
  have hok := cfgNetInfo_portOk hcfg fun x hx => inv.ok x (hdone ▸ hx)
  constructor
  · obtain ⟨lost, held⟩ := inv.held
    obtain ⟨gone, hgone⟩ := hedit.sum_add (f := netHolds) (fun _ _ => netHolds_same)
      fun _ => netHolds_new
    refine ⟨gone + lost, ?_⟩
    rw [hdone, holdsOf, hgone] at held
    rw [htable, holdsOf, ← add_assoc]
    exact held
  · exact hok
  · intro net hnet
    rw [htable, hlog]
    rcases hedit.origin hnet with hnew | ⟨x, hx, hsame⟩
    · have hvalid : net.run.valid ≠ true := by
        rw [hnew.run]
        exact Bool.false_ne_true
      exact ⟨hnew.bonded hoff, (hok net hnet).off (hnew.bonded hoff), fun hv => absurd hv hvalid,
        fun hv => absurd hv hvalid⟩
    · have hport := inv.ports x (hdone ▸ hx)
      have hbonding := hsame.bonded hoff hport.off
      constructor
      · rw [hbonding]
        exact hport.off
      · rw [hbonding]
        exact hport.alone
      · rw [hsame.run, hsame.nameIndex]
        exact hport.indexed
      · rw [hsame.run, hsame.nameIndex]
        exact hport.waits
  · rw [htable, hlog]
    exact inv.places
  · rw [hlog]
    exact inv.quiet

theorem QuietInv.turn (inv : QuietInv a r) {ans : TurnAnswer} (hw : ans.Within a b)
    (h : switchStep pton s r (.turn ans) = some r') : QuietInv b r' := by
  obtain ⟨net, rest, htodo, rfl⟩ := step_turn h
  have hnets : r.nets = r.done ++ net :: rest := by rw [SwitchRun.nets, htodo]
  have hmem : net ∈ r.nets := hnets ▸ List.mem_append_right _ List.mem_cons_self
  have hport := inv.ports net hmem
  obtain ⟨lost, held⟩ := inv.held
  rw [holdsOf_nets htodo, add_assoc] at held
  have hturn := portOne_waits r.needCheck r.now hw inv.places hport held
  have hwhole : DeletesWhole net := fun hb => absurd (hport.off.symm.trans hb) Bool.false_ne_true
  have hheld := portOne_held r.needCheck r.now ans
    (inv.ok net hmem).off (fun _ _ => hwhole) held
  have hfrom : ∀ x ∈ (r.done ++ (switchPortOne r.needCheck r.now ans r.table net).2.1.toList) ++ rest,
      x ∈ r.done ++ rest ∨ x ∈ (switchPortOne r.needCheck r.now ans r.table net).2.1 := by
    intro x hx
    simp only [List.mem_append, Option.mem_toList] at hx ⊢
    tauto
  have hold : ∀ x ∈ r.done ++ rest, x ∈ r.nets := by
    intro x hx
    rw [hnets]
    simp only [List.mem_append, List.mem_cons] at hx ⊢
    tauto
  constructor
  · refine ⟨lost, ?_⟩
    rw [SwitchRun.nets, holdsOf_append, holdsOf_append, add_assoc, add_assoc, add_left_comm,
      ← add_assoc (holdsOf r.done)]
    exact hheld
  · intro x hx
    rcases hfrom x hx with hx | hx
    · exact inv.ok x (hold x hx)
    · exact (inv.ok net hmem).turn (portOne_keeps hx)
  · intro x hx
    rcases hfrom x hx with hx | hx
    · -- the holds of the port beside the others'
      obtain ⟨before, after, hsplit⟩ := List.append_of_mem hx
      have hbeside : Held r.table (netHolds x + (netHolds net + (holdsOf (before ++ after) + lost))) := by
        have hall : holdsOf r.done + holdsOf rest = netHolds x + holdsOf (before ++ after) := by
          rw [← holdsOf_append, hsplit, holdsOf_append, holdsOf_append, holdsOf_cons, add_left_comm]
        rw [hall, add_assoc, add_left_comm] at held
        exact held
      exact hturn.others x _ hbeside (inv.ports x (hold x hx))
    · exact hturn.own x hx
  · exact hturn.places
  · exact hturn.quiet inv.quiet

theorem QuietInv.run {ls : List SwitchLabel} (inv : QuietInv a r) (hclock : Clocked a ls)
    (hoff : ∀ sys, .poll sys ∈ ls → sys.NoBond)
    (h : run (switchStep pton s) r ls = some r') : ∃ b, QuietInv b r' := by
  induction ls generalizing a r with
  | nil =>
    obtain rfl := Option.some.inj h
    exact ⟨a, inv⟩
  | cons l ls ih =>
    obtain ⟨t, ht, hrun⟩ := run_cons.mp h
    have hrest : ∀ sys, .poll sys ∈ ls → sys.NoBond :=
      fun sys hsys => hoff sys (List.mem_cons_of_mem _ hsys)
    cases l with
    | poll sys => exact ih (inv.poll (hoff sys List.mem_cons_self) ht) hclock hrest hrun
    | turn ans =>
      obtain ⟨b, hw, hclock⟩ := hclock
      exact ih (inv.turn hw ht) hclock hrest hrun

end Run

/-- Without bonds nothing is sent for an index of an interface before the time is over that
began when its last port was deleted. -/
theorem index_quarantined {pton : Pton} {s : CfgState} {ls : List SwitchLabel} {r : SwitchRun}
    (hoff : ∀ sys, .poll sys ∈ ls → sys.NoBond) (hclock : Clocked 0 ls)
    (h : run (switchStep pton s) SwitchRun.init ls = some r) :
    Always (fun before e => ∀ now key ifindex k, e = .lldp now key ifindex k →
      ∀ t key', .delete t key' ifindex k ∈ before →
        t+LLDP_OLD_TIME+LLDP_WAIT_OLD_TIME ≤ now) r.log := by
  obtain ⟨b, inv⟩ := QuietInv.init.run hclock hoff h
  intro before e after hlog now key ifindex k he t key' hmem
  exact inv.quiet before e after hlog now key ifindex k he t ⟨key', hmem⟩

/-- A turn in which all readings of the clock are `t`. -/
def turnAt (t : ℕ) : TurnAnswer :=
  ⟨t, ⟨⟨fun _ => t, t, 5, true⟩, fun _ => ⟨fun _ => t, t, 5, true⟩, t⟩, 0, 0, fun _ => t⟩

theorem turnAt_within {a t : ℕ} (h : a ≤ t) : (turnAt t).Within a t :=
  ⟨⟨h, le_rfl⟩, fun _ => ⟨le_rfl, le_rfl⟩, ⟨le_rfl, le_rfl⟩, ⟨h, le_rfl⟩⟩

def noPorts : NetSystem := { sampleSystem with ifconf := some [] }

/-- A port comes, goes, and is back for the next check. -/
def returnRun : List SwitchLabel :=
  [.poll sampleSystem, .turn (turnAt 1000), .poll noPorts, .turn (turnAt 1001)] ++
    List.replicate 98 (.poll noPorts) ++ [.poll sampleSystem, .turn (turnAt 1132)]

def returnKey : Bytes × Bytes := (nameArray (ascii "e.5"), [10, 0, 0, 1])

theorem index_quarantined_return : ∃ r,
    run (switchStep samplePton sampleCfg) SwitchRun.init returnRun = some r ∧
      r.log = [.lldp 1000 returnKey 7 1, .query returnKey, .delete 1001 returnKey 7 1,
        .lldp 1132 returnKey 7 1, .query returnKey] ∧
      Always (fun before e => ∀ now key ifindex k, e = .lldp now key ifindex k →
        ∀ t key', .delete t key' ifindex k ∈ before →
          t+LLDP_OLD_TIME+LLDP_WAIT_OLD_TIME ≤ now) r.log := by
  have hrun : (run (switchStep samplePton sampleCfg) SwitchRun.init returnRun).map
      SwitchRun.log = some [.lldp 1000 returnKey 7 1, .query returnKey,
        .delete 1001 returnKey 7 1, .lldp 1132 returnKey 7 1, .query returnKey] := by
    decide +kernel
  obtain ⟨r, hr, hlog⟩ := Option.map_eq_some_iff.mp hrun
  have hclock : Clocked 0 returnRun :=
    ⟨1000, turnAt_within (by decide), 1001, turnAt_within (by decide), 1132,
      turnAt_within (by decide), trivial⟩
  have hnone : noPorts.NoBond := fun _ h => absurd h List.not_mem_nil
  refine ⟨r, hr, hlog, index_quarantined (fun sys hsys => ?_) hclock hr⟩
  have hcases : sys = sampleSystem ∨ sys = noPorts ∨ sys = sampleSystem := by
    simpa [returnRun, or_assoc] using hsys
  rcases hcases with rfl | rfl | rfl
  · exact sample_noBond
  · exact hnone
  · exact sample_noBond

end NvmeSnsd.Switch
