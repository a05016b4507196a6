import NvmeSnsd.Switch.Held
import NvmeSnsd.Switch.Polled

/-! The references of the places, against the flags of the ports and their slaves. -/
namespace NvmeSnsd.Switch
open Lib Cfg Mgt

/-- What the slaves hold. -/
def slaveHolds (slave : List SlaveInfo) : Multiset Hold :=
  ↑((slave.filter (·.fdValid)).map fun s => (slotOf s.fdIndex, 0))

/-- What a port holds: its place once it is valid, and those of its slaves. -/
def netHolds (net : SwitchNet) : Multiset Hold :=
  (if net.run.valid then {(net.run.index, net.portInfo.nameIndex)} else 0) +
    slaveHolds net.portInfo.bonding.slave

def holdsOf (nets : List SwitchNet) : Multiset Hold := (nets.map netHolds).sum

section Slaves
variable {ans : FdAnswer} {table table' : FdTable} {ifindex : ℤ} {withIndex : Bool}
  {r : Option Hold} {hs : Multiset Hold} {s : SlaveInfo} {rest : List SlaveInfo}

theorem slaveHolds_cons : slaveHolds (s :: rest) =
    (if s.fdValid then {(slotOf s.fdIndex, 0)} else 0) + slaveHolds rest := by
  rw [slaveHolds, slaveHolds]
  cases hv : s.fdValid with
  | true =>
    rw [List.filter_cons_of_pos hv, List.map_cons, ← Multiset.cons_coe, ← Multiset.singleton_add]
    rfl
  | false =>
    rw [List.filter_cons_of_neg (by simp [hv])]
    exact (zero_add _).symm

theorem slaveHolds_eq (b : BondingInfo) :
    slaveHolds b.slave = ↑(b.heldSlots.map fun i => (slotOf i, 0)) := by
  rw [slaveHolds, BondingInfo.heldSlots, List.map_map]
  rfl

theorem slotOf_val (i : Fin MAX_PHY_PORT) : slotOf i = i :=
  Fin.ext (Nat.mod_eq_of_lt i.isLt)

attribute [local irreducible] setAt

/-- A place is given, or everything is held as before. -/
theorem getFdData_held (held : Held table hs) (hpos : 0 ≤ ifindex)
    (h : switchGetFdData ans table ifindex withIndex = (table', r)) :
    (r = none ∧ Held table' hs) ∨
      ∃ x, r = some x ∧ Held table' (x ::ₘ hs) ∧ (x.2 = 0 ↔ withIndex = false) := by
  unfold switchGetFdData at h
  rcases hg : switchGetFdInfo ans.clock table ifindex withIndex with ⟨got, _ | ⟨i, k⟩⟩
  · rw [hg] at h
    obtain ⟨rfl, rfl⟩ := Prod.mk.inj h
    have hsame := (held.get_none hg).1
    rw [hsame]
    exact Or.inl ⟨rfl, held⟩
  · have hgot := (held.get hpos hg).held
    have hindex := (held.get hpos hg).index
    rw [hg] at h
    dsimp only at h
    split at h
    · obtain ⟨rfl, rfl⟩ := Prod.mk.inj h
      exact Or.inl ⟨rfl, hgot.put⟩
    · have hopen : Held (if (got.get i).fd < 0 then setAt got i { got.get i with fd := ans.sock }
          else got) ((i, k) ::ₘ hs) := by
        split
        · exact hgot.setFd ⟨_, Multiset.mem_cons_self _ _, rfl⟩ ans.sock
        · exact hgot
      split at h
      · obtain ⟨rfl, rfl⟩ := Prod.mk.inj h
        exact Or.inr ⟨(i, k), rfl, hopen, hindex⟩
      · obtain ⟨rfl, rfl⟩ := Prod.mk.inj h
        exact Or.inl ⟨rfl, hopen.put⟩

attribute [local irreducible] switchGetFdData switchPutFdInfo

/-- The walk over the slaves keeps count of what they hold. -/
theorem bondingWalk_held (slave : List SlaveInfo) (ans : ℕ → FdAnswer) {table : FdTable}
    {hs : Multiset Hold} (held : Held table (slaveHolds slave + hs)) :
    Held (switchBondingWalk ans table slave).1
      (slaveHolds (switchBondingWalk ans table slave).2.1 + hs) := by
  induction slave generalizing ans table hs with
  | nil =>
    rw [bondingWalk_nil]
    exact held
  | cons s rest ih =>
    rw [slaveHolds_cons, add_assoc] at held
    unfold switchBondingWalk
    split
    · -- a deleted slave gives back what it has
      dsimp only
      apply ih
      cases hv : s.fdValid with
      | true =>
        rw [hv, if_pos rfl, Multiset.singleton_add] at held
        exact held.put
      | false =>
        rw [hv, if_neg Bool.false_ne_true, zero_add] at held
        exact held
    · split
      · next hv =>
        rw [hv, if_pos rfl, add_left_comm] at held
        have hrest := ih (fun n => ans (n+1)) held
        dsimp only
        rw [slaveHolds_cons, hv, if_pos rfl, add_assoc, add_left_comm]
        exact hrest
      · next hv =>
        have hnot : s.fdValid = false := Bool.not_eq_true _ |>.mp hv
        rw [hnot, if_neg Bool.false_ne_true, zero_add] at held
        rcases hget : switchGetFdData (ans 0) table s.slaveIfindex false with ⟨table', _ | ⟨i, k⟩⟩
        · rcases getFdData_held held (Int.natCast_nonneg _) hget with ⟨-, held'⟩ | ⟨x, hx, -⟩
          · dsimp only
            rw [slaveHolds_cons, hnot, if_neg Bool.false_ne_true, zero_add]
            exact held'
          · cases hx
        · rcases getFdData_held held (Int.natCast_nonneg _) hget with ⟨hx, -⟩ | ⟨x, hx, held', hindex⟩
          · cases hx
          · obtain rfl := Option.some.inj hx
            obtain rfl : k = 0 := hindex.mpr rfl
            rw [← Multiset.singleton_add, add_left_comm] at held'
            have hrest := ih (fun n => ans (n+1)) held'
            dsimp only
            rw [slaveHolds_cons, if_pos rfl, slotOf_val, add_assoc, add_left_comm]
            exact hrest

/-- The places that slaves are given are in the table. -/
theorem bondingWalk_slots (slave : List SlaveInfo) {ans : ℕ → FdAnswer} {table : FdTable}
    (h : ∀ s ∈ slave, s.fdValid = true → s.fdIndex < MAX_PHY_PORT) :
    ∀ s ∈ (switchBondingWalk ans table slave).2.1, s.fdValid = true → s.fdIndex < MAX_PHY_PORT := by
  induction slave generalizing ans table with
  | nil =>
    rw [bondingWalk_nil]
    exact h
  | cons s rest ih =>
    obtain ⟨hs, hrest⟩ := List.forall_mem_cons.mp h
    unfold switchBondingWalk
    split
    · exact ih hrest
    · split
      · exact List.forall_mem_cons.mpr ⟨hs, ih hrest⟩
      · split
        · exact h
        · next i _ _ => exact List.forall_mem_cons.mpr ⟨fun _ => i.isLt, ih hrest⟩

/-- So does the function, whatever it returns. -/
theorem bondingFd_held (ans : ℕ → FdAnswer) {b : BondingInfo} {table : FdTable}
    {hs : Multiset Hold} (held : Held table (slaveHolds b.slave + hs)) :
    Held (switchGetBondingFd ans table b).1
      (slaveHolds (switchGetBondingFd ans table b).2.1.slave + hs) := by
  have hwalk := bondingWalk_held b.slave ans held
  unfold switchGetBondingFd
  dsimp only
  split
  all_goals
    exact hwalk

end Slaves

/-! The turn of a port. -/

section Turn
variable {ans : TurnAnswer} {get : GetAnswer} {table : FdTable} {net : SwitchNet}
  {hs : Multiset Hold}

theorem netHolds_eq : netHolds net =
    (if net.run.valid then {(net.run.index, net.portInfo.nameIndex)} else 0) +
      slaveHolds net.portInfo.bonding.slave := rfl

theorem netHolds_valid (hv : net.run.valid = true) :
    netHolds net = (net.run.index, net.portInfo.nameIndex) ::ₘ
      slaveHolds net.portInfo.bonding.slave := by
  rw [netHolds, if_pos hv, Multiset.singleton_add]

theorem netHolds_invalid (hv : net.run.valid = false) :
    netHolds net = slaveHolds net.portInfo.bonding.slave := by
  rw [netHolds, if_neg (by rw [hv]; exact Bool.false_ne_true), zero_add]

attribute [local irreducible] switchGetFdData switchPutFdInfo switchGetFdInfo switchGetBondingFd

theorem getFd_held (get : GetAnswer) (hv : net.run.valid = false) (held : Held table (netHolds net + hs)) :
    Held (switchGetFd get table net).1 (netHolds (switchGetFd get table net).2 + hs) := by
  rw [netHolds_invalid hv] at held
  unfold switchGetFd
  split
  · unfold switchGetBondingPhyFd
    rcases hinfo : switchGetFdInfo get.phy.clock table net.portInfo.phyIfindex true with
      ⟨got, _ | ⟨i, k⟩⟩
    · have hsame := (held.get_none hinfo).1
      dsimp only
      rw [hsame, netHolds_invalid hv]
      exact held
    · have hgot := (held.get (Int.natCast_nonneg _) hinfo).held
      rw [← Multiset.add_cons] at hgot
      have hwalk := bondingFd_held get.slaves hgot
      dsimp only
      split
      · rw [netHolds_valid rfl, Multiset.cons_add, ← Multiset.add_cons]
        exact hwalk
      · rw [Multiset.add_cons] at hwalk
        have hput := @Held.put _ _ _ _ get.putTime hwalk
        have hnet (x : SwitchNet) (b : BondingInfo) (hx : x.run.valid = false) :
            netHolds (withBonding x b) = slaveHolds b.slave := netHolds_invalid hx
        dsimp only
        rw [hnet]
        · exact hput
        · exact hv
  · unfold switchGetPhyFd
    rcases hdata : switchGetFdData get.phy table net.portInfo.phyIfindex true with
      ⟨got, _ | ⟨i, k⟩⟩
    · rcases getFdData_held held (Int.natCast_nonneg _) hdata with ⟨-, hgot⟩ | ⟨x, hx, -⟩
      · dsimp only
        rw [netHolds_invalid hv]
        exact hgot
      · cases hx
    · rcases getFdData_held held (Int.natCast_nonneg _) hdata with ⟨hx, -⟩ | ⟨x, hx, hgot, -⟩
      · cases hx
      · obtain rfl := Option.some.inj hx
        dsimp only
        rw [netHolds_valid rfl, Multiset.cons_add]
        exact hgot

theorem checkLldpSend_holds {sent : ℤ} {now : ℕ} :
    netHolds (switchCheckLldpSend sent now table net).1 = netHolds net := by
  unfold switchCheckLldpSend
  split <;> rfl

theorem validHandle_holds :
    (switchPortValidHandle ans table net).1 = table ∧
      netHolds (switchPortValidHandle ans table net).2.1 = netHolds net := by
  unfold switchPortValidHandle
  split
  · exact ⟨rfl, rfl⟩
  · exact ⟨rfl, checkLldpSend_holds⟩

theorem existHandle_held (held : Held table (netHolds net + hs)) :
    Held (switchPortExistHandle ans table net).1
      (netHolds (switchPortExistHandle ans table net).2.1 + hs) := by
  unfold switchPortExistHandle
  split
  · next hv =>
    split
    · have held' := held
      rw [netHolds_valid hv, Multiset.cons_add, ← Multiset.add_cons] at held'
      have hwalk := bondingFd_held ans.get.slaves held'
      have hnet (b : BondingInfo) : netHolds (withBonding net b) =
          (net.run.index, net.portInfo.nameIndex) ::ₘ slaveHolds b.slave := netHolds_valid hv
      rw [Multiset.add_cons, ← Multiset.cons_add, ← hnet] at hwalk
      dsimp only
      split
      · exact hwalk
      · rw [validHandle_holds.1, validHandle_holds.2]
        exact hwalk
    · rw [validHandle_holds.1, validHandle_holds.2]
      exact held
  · next hv =>
    have hgot := getFd_held ans.get (Bool.not_eq_true _ |>.mp hv) held
    dsimp only
    split
    · rw [checkLldpSend_holds]
      exact hgot
    · exact hgot

/-- A port that goes gives back what it and its slaves hold, if they hold it together. -/
def DeletesWhole (net : SwitchNet) : Prop :=
  net.portInfo.bonding.valid = true → ∀ s ∈ net.portInfo.bonding.slave, s.fdValid = net.run.valid

theorem freeBondingFd_held (slave : List SlaveInfo) (hall : ∀ s ∈ slave, s.fdValid = true)
    {freed : ℕ → ℕ} {table : FdTable} (held : Held table (slaveHolds slave + hs)) :
    Held (switchFreeBondingFd freed table slave) hs := by
  induction slave generalizing freed table with
  | nil =>
    rw [switchFreeBondingFd]
    exact (zero_add hs) ▸ held
  | cons s rest ih =>
    obtain ⟨hs, hrest⟩ := List.forall_mem_cons.mp hall
    rw [slaveHolds_cons, hs, if_pos rfl, Multiset.singleton_add, Multiset.cons_add] at held
    rw [switchFreeBondingFd]
    exact ih hrest held.put

/-- Without a bond there are no slaves. -/
def OffEmpty (net : SwitchNet) : Prop :=
  net.portInfo.bonding.valid = false → net.portInfo.bonding.slave = []

theorem portDelete_held (freed : ℕ → ℕ) (hoff : OffEmpty net) (hwhole : DeletesWhole net)
    (held : Held table (netHolds net + hs)) : Held (switchPortDelete freed table net).1 hs := by
  unfold switchPortDelete
  cases hv : net.run.valid with
  | true =>
    rw [netHolds_valid hv, Multiset.cons_add] at held
    have hput := @Held.put _ _ _ _ (freed 0) held
    rw [if_pos rfl]
    dsimp only
    cases hb : net.portInfo.bonding.valid with
    | true =>
      rw [if_pos rfl]
      refine freeBondingFd_held _ (fun s hs => ?_) hput
      rw [hwhole hb s hs, hv]
    | false =>
      rw [hoff hb] at hput
      exact (zero_add hs) ▸ hput
  | false =>
    have hnone : slaveHolds net.portInfo.bonding.slave = 0 := by
      have hfilter : net.portInfo.bonding.slave.filter (·.fdValid) = [] := by
        rw [List.filter_eq_nil_iff]
        intro s hs
        cases hb : net.portInfo.bonding.valid with
        | true =>
          rw [hwhole hb s hs, hv]
          exact Bool.false_ne_true
        | false =>
          rw [hoff hb] at hs
          exact absurd hs List.not_mem_nil
      rw [slaveHolds, hfilter]
      rfl
    rw [netHolds_invalid hv, hnone, zero_add] at held
    exact held

/-- A turn changes neither name nor address of its port, and its slaves only by a check. -/
structure TurnKeeps (net net' : SwitchNet) : Prop where
  key : net'.portInfo.key = net.portInfo.key
  newPort : net'.portInfo.newPort = net.portInfo.newPort
  count : net'.portInfo.count = net.portInfo.count
  slaves : net'.portInfo.bonding = net.portInfo.bonding ∨
    ∃ ans table, net'.portInfo.bonding = (switchGetBondingFd ans table net.portInfo.bonding).2.1

theorem TurnKeeps.refl (net : SwitchNet) : TurnKeeps net net := ⟨rfl, rfl, rfl, Or.inl rfl⟩

theorem TurnKeeps.run {net' : SwitchNet} (h : TurnKeeps net net') (run : LldpRunInfo) :
    TurnKeeps net { net' with run := run } := ⟨h.key, h.newPort, h.count, h.slaves⟩

theorem getFd_keeps (get : GetAnswer) (table : FdTable) (net : SwitchNet) :
    TurnKeeps net (switchGetFd get table net).2 := by
  unfold switchGetFd
  split
  · unfold switchGetBondingPhyFd
    rcases switchGetFdInfo get.phy.clock table net.portInfo.phyIfindex true with ⟨got, _ | ⟨i, k⟩⟩
    · exact TurnKeeps.refl net
    · dsimp only
      split
      all_goals
        exact ⟨rfl, rfl, rfl, Or.inr ⟨_, _, rfl⟩⟩
  · unfold switchGetPhyFd
    rcases switchGetFdData get.phy table net.portInfo.phyIfindex true with ⟨got, _ | ⟨i, k⟩⟩
    · exact TurnKeeps.refl net
    · exact ⟨rfl, rfl, rfl, Or.inl rfl⟩

theorem checkLldpSend_keeps {net' : SwitchNet} {sent : ℤ} {now : ℕ} (h : TurnKeeps net net') :
    TurnKeeps net (switchCheckLldpSend sent now table net').1 := by
  unfold switchCheckLldpSend
  split
  · exact h.run _
  · exact h

theorem validHandle_keeps {net' : SwitchNet} (h : TurnKeeps net net') :
    TurnKeeps net (switchPortValidHandle ans table net').2.1 := by
  unfold switchPortValidHandle
  split
  · exact h.run _
  · exact checkLldpSend_keeps h

theorem existHandle_keeps : TurnKeeps net (switchPortExistHandle ans table net).2.1 := by
  unfold switchPortExistHandle
  split
  · split
    · have hbond : TurnKeeps net (withBonding net
          (switchGetBondingFd ans.get.slaves table net.portInfo.bonding).2.1) :=
        ⟨rfl, rfl, rfl, Or.inr ⟨_, _, rfl⟩⟩
      dsimp only
      split
      · exact hbond
      · exact validHandle_keeps hbond
    · exact validHandle_keeps (TurnKeeps.refl net)
  · have hgot := getFd_keeps ans.get table net
    dsimp only
    split
    · exact checkLldpSend_keeps (hgot.run _)
    · exact hgot

theorem handleDisconnect_keeps {net' : SwitchNet} {ret : ℤ} (h : TurnKeeps net net') :
    TurnKeeps net (switchPortHandleDisconnect ret net') := by
  unfold switchPortHandleDisconnect
  split_ifs
  · exact h.run _
  · exact h.run _
  · exact h

theorem handleDisconnect_holds {ret : ℤ} :
    netHolds (switchPortHandleDisconnect ret net) = netHolds net := by
  unfold switchPortHandleDisconnect
  split_ifs <;> rfl

variable {needCheck : Bool} {pollCount : UInt32}

theorem portOne_keeps {net' : SwitchNet}
    (h : net' ∈ (switchPortOne needCheck pollCount ans table net).2.1) : TurnKeeps net net' := by
  unfold switchPortOne at h
  split_ifs at h
  · cases h
    exact handleDisconnect_keeps existHandle_keeps
  · cases h
    exact handleDisconnect_keeps (TurnKeeps.refl net)
  · cases h
  · cases h
    exact TurnKeeps.refl net

/-- What is held after the turn of a port. -/
theorem portOne_held (needCheck : Bool) (pollCount : UInt32) (ans : TurnAnswer) (hoff : OffEmpty net)
    (hwhole : net.portInfo.count ≠ pollCount → ans.disconnected = 0 → DeletesWhole net)
    (held : Held table (netHolds net + hs)) :
    Held (switchPortOne needCheck pollCount ans table net).1
      (holdsOf (switchPortOne needCheck pollCount ans table net).2.1.toList + hs) := by
  have hone (x : SwitchNet) : holdsOf (some x).toList = netHolds x := by
    rw [holdsOf, Option.toList_some, List.map_singleton, List.sum_singleton]
  unfold switchPortOne
  split_ifs with hcount hcheck hgone
  · rw [hone, handleDisconnect_holds]
    exact existHandle_held held
  · rw [hone, handleDisconnect_holds]
    exact held
  · have hdel := portDelete_held ans.freed hoff (hwhole hcount hgone) held
    exact (zero_add hs).symm ▸ hdel
  · rw [hone]
    exact held

end Turn

/-! Runs. -/

/-- The ports that hold a place, and the slaves that do. -/
def refsOf (nets : List SwitchNet) (i : Fin MAX_PHY_PORT) : ℕ :=
  nets.countP (fun net => net.run.valid && net.run.index == i) +
    (nets.flatMap (·.portInfo.bonding.slave)).countP fun s =>
      s.fdValid && s.fdIndex == i.val

/-- What holds of a port at any time. -/
structure PortOk (net : SwitchNet) : Prop where
  bonded : Bonded net.portInfo.bonding
  slots : ∀ i ∈ net.portInfo.bonding.heldSlots, i < MAX_PHY_PORT

theorem PortOk.off {net : SwitchNet} (h : PortOk net) : OffEmpty net :=
  fun hv => ((bonded_kept h.bonded).off hv).1

theorem mem_heldSlots {b : BondingInfo} {i : ℕ} :
    i ∈ b.heldSlots ↔ ∃ s ∈ b.slave, s.fdValid = true ∧ s.fdIndex = i := by
  simp only [BondingInfo.heldSlots, List.mem_map, List.mem_filter, and_assoc]

theorem PortOk.turn {net net' : SwitchNet} (h : PortOk net) (hkeeps : TurnKeeps net net') :
    PortOk net' := by
  rcases hkeeps.slaves with hsame | ⟨ans, table, hget⟩
  · constructor
    · rw [hsame]
      exact h.bonded
    · rw [hsame]
      exact h.slots
  · constructor
    · rw [hget]
      exact Bonded.get ans table h.bonded
    · intro i hi
      rw [hget, mem_heldSlots] at hi
      obtain ⟨s, hs, hv, rfl⟩ := hi
      have hslave : (switchGetBondingFd ans table net.portInfo.bonding).2.1.slave =
          (switchBondingWalk ans table net.portInfo.bonding.slave).2.1 := by
        unfold switchGetBondingFd
        dsimp only
        split <;> rfl
      rw [hslave] at hs
      refine bondingWalk_slots _ (fun s hs hv => ?_) s hs hv
      exact h.slots _ (mem_heldSlots.mpr ⟨s, hs, hv, rfl⟩)

theorem holders_add (hs ms : Multiset Hold) (i : Fin MAX_PHY_PORT) :
    holders (hs + ms) i = holders hs i + holders ms i := Multiset.countP_add ..

theorem holders_slaves {slave : List SlaveInfo} (i : Fin MAX_PHY_PORT)
    (h : ∀ s ∈ slave, s.fdValid = true → s.fdIndex < MAX_PHY_PORT) :
    holders (slaveHolds slave) i = slave.countP fun s => s.fdValid && s.fdIndex == i.val := by
  rw [holders, slaveHolds, Multiset.coe_countP, List.countP_map, List.countP_filter]
  apply List.countP_congr
  intro s hs
  cases hv : s.fdValid with
  | false => simp
  | true =>
    have hlt := h s hs hv
    have hslot : slotOf s.fdIndex = i ↔ s.fdIndex = i.val := by
      rw [Fin.ext_iff]
      exact Eq.congr_left (Nat.mod_eq_of_lt hlt)
    simp [hslot]

theorem holders_net {net : SwitchNet} (h : PortOk net) (i : Fin MAX_PHY_PORT) :
    holders (netHolds net) i = (if (net.run.valid && net.run.index == i) = true then 1 else 0) +
      net.portInfo.bonding.slave.countP fun s => s.fdValid && s.fdIndex == i.val := by
  have hslots : ∀ s ∈ net.portInfo.bonding.slave, s.fdValid = true → s.fdIndex < MAX_PHY_PORT :=
    fun s hs hv => h.slots _ (mem_heldSlots.mpr ⟨s, hs, hv, rfl⟩)
  rw [netHolds, holders_add, holders_slaves i hslots]
  congr 1
  cases net.run.valid with
  | false => rfl
  | true =>
    rw [if_pos rfl, ← Multiset.cons_zero, holders_cons, Bool.true_and]
    simp [holders]

/-- Counted one by one. -/
theorem holders_holdsOf {nets : List SwitchNet} (h : ∀ net ∈ nets, PortOk net)
    (i : Fin MAX_PHY_PORT) : holders (holdsOf nets) i = refsOf nets i := by
  induction nets with
  | nil => rfl
  | cons net nets ih =>
    obtain ⟨hnet, hnets⟩ := List.forall_mem_cons.mp h
    have hrest := ih hnets
    rw [holdsOf] at hrest
    rw [holdsOf, List.map_cons, List.sum_cons, holders_add, hrest, holders_net hnet, refsOf, refsOf,
      List.flatMap_cons, List.countP_append, List.countP_cons]
    omega

/-- What is true of the table and the ports between two steps. -/
structure RefsInv (pton : Pton) (s : CfgState) (r : SwitchRun) : Prop where
  held : Held r.table (holdsOf r.nets)
  ports : ∀ net ∈ r.nets, PortOk net
  taken : ∀ net ∈ r.nets, netHolds net ≠ 0 → Taken pton s .sw net.portInfo.key
  waiting : ∀ net ∈ r.todo, Taken pton s .sw net.portInfo.key

/-- Where a step keeps the counts: a port that goes has its slaves' places together with its
own, and no port that holds a place is taken for a new one of this poll. -/
def KeepsRefs (r : SwitchRun) : SwitchLabel → Prop
  | .poll _ => ∀ net ∈ r.done, netHolds net ≠ 0 → net.portInfo.newPort = true →
    net.portInfo.count ≠ r.pollCount
  | .turn ans => ∀ net rest, r.todo = net :: rest → net.portInfo.count ≠ r.now →
    ans.disconnected = 0 → DeletesWhole net

section Run
variable {pton : Pton} {s : CfgState} {r r' : SwitchRun}

theorem holdsOf_append (a b : List SwitchNet) : holdsOf (a ++ b) = holdsOf a + holdsOf b := by
  rw [holdsOf, List.map_append, List.sum_append]
  rfl

theorem holdsOf_cons (net : SwitchNet) (nets : List SwitchNet) :
    holdsOf (net :: nets) = netHolds net + holdsOf nets := by
  rw [holdsOf, List.map_cons, List.sum_cons]
  rfl

theorem netHolds_same {off : Prop} {x y : SwitchNet} (h : PollSame off x y) :
    netHolds y = netHolds x := by
  rw [netHolds, netHolds, h.run, h.nameIndex, slaveHolds_eq, slaveHolds_eq, h.held]

theorem netHolds_new {off : Prop} {y : SwitchNet} (h : PollNew off y) : netHolds y = 0 := by
  rw [netHolds, h.run, slaveHolds_eq, h.held]
  rfl

theorem RefsInv.init : RefsInv pton s SwitchRun.init where
  held := Held.init
  ports := fun _ hnet => absurd hnet List.not_mem_nil
  taken := fun _ hnet => absurd hnet List.not_mem_nil
  waiting := fun _ hnet => absurd hnet List.not_mem_nil

/-- A poll is for the whole list, and nothing else changes. -/
theorem step_poll_nets {sys : NetSystem} (h : switchStep pton s r (.poll sys) = some r') :
    r.nets = r.done ∧ r'.table = r.table ∧ r'.log = r.log ∧ ∃ ret,
      snsdCfgNetInfo pton s LldpRunInfo.zero .sw sys r.pollCount r.done = .ok (r'.nets, ret) ∧
        (ret ≠ 0 → r'.todo = []) ∧ (ret = 0 → r'.todo = r'.nets) := by
  obtain ⟨htodo, nets, ret, hcfg, hend⟩ := step_poll h
  have hdone : r.nets = r.done := by rw [SwitchRun.nets, htodo, List.append_nil]
  rcases hend with ⟨hret, rfl⟩ | ⟨hret, rfl⟩
  · refine ⟨hdone, rfl, rfl, ret, ?_, fun _ => htodo, fun hz => absurd hz hret⟩
    rw [SwitchRun.nets, htodo, List.append_nil]
    exact hcfg
  · refine ⟨hdone, rfl, rfl, ret, ?_, fun hz => absurd hret hz, fun _ => (List.nil_append _).symm⟩
    rw [SwitchRun.nets, List.nil_append]
    exact hcfg

theorem cfgNetInfo_portOk {sys : NetSystem} {count : UInt32} {nets nets' : List SwitchNet} {ret : ℤ}
    (h : snsdCfgNetInfo pton s LldpRunInfo.zero .sw sys count nets = .ok (nets', ret))
    (hports : ∀ net ∈ nets, PortOk net) : ∀ net ∈ nets', PortOk net := by
  intro net hnet
  constructor
  · exact cfgNetInfo_bonding (fun _ _ _ _ _ _ hread hb => Bonded.check _ _ _ _ hb hread)
      Bonded.start h (fun x hx => (hports x hx).bonded) net hnet
  · rcases (cfgNetInfo_edited h).1.origin hnet with hnew | ⟨x, hx, hsame⟩
    · rw [hnew.held]
      exact fun _ hi => absurd hi List.not_mem_nil
    · rw [hsame.held]
      exact (hports x hx).slots

/-- A poll neither takes nor gives back. -/
theorem RefsInv.poll (inv : RefsInv pton s r) {sys : NetSystem} (hok : KeepsRefs r (.poll sys))
    (h : switchStep pton s r (.poll sys) = some r') : RefsInv pton s r' := by
  obtain ⟨hdone, htable, -, ret, hcfg, hfails, hends⟩ := step_poll_nets h
  obtain ⟨hedit, htaken⟩ := cfgNetInfo_edited hcfg
  have hdrop : ∀ x, PollDrops pton s r.pollCount x → x ∈ r.done → netHolds x = 0 := by
    intro x hx hmem
    by_contra hne
    rcases hx with hcfg | ⟨hnew, hcount⟩
    · exact hcfg (inv.taken x (hdone ▸ hmem) hne)
    · exact hok x hmem hne hnew hcount
  have hsum : holdsOf r'.nets = holdsOf r.done :=
    hedit.sum_eq (fun _ _ => netHolds_same) (fun _ => netHolds_new) fun x hx hd => hdrop x hd hx
  constructor
  · rw [htable, hsum, ← hdone]
    exact inv.held
  · exact cfgNetInfo_portOk hcfg fun x hx => inv.ports x (hdone ▸ hx)
  · intro net hnet hne
    rcases hedit.origin hnet with hnew | ⟨x, hx, hsame⟩
    · exact absurd (netHolds_new hnew) hne
    · rw [hsame.key]
      rw [netHolds_same hsame] at hne
      exact inv.taken x (hdone ▸ hx) hne
  · by_cases hret : ret = 0
    · rw [hends hret]
      exact htaken hret
    · rw [hfails hret]
      exact fun _ hnet => absurd hnet List.not_mem_nil

/-- A port in its turn, with the others around it. -/
theorem holdsOf_nets {net : SwitchNet} {rest : List SwitchNet} (htodo : r.todo = net :: rest) :
    holdsOf r.nets = netHolds net + (holdsOf r.done + holdsOf rest) := by
  rw [SwitchRun.nets, htodo, holdsOf_append, holdsOf_cons, add_left_comm]

theorem RefsInv.turn (inv : RefsInv pton s r) {ans : TurnAnswer} (hok : KeepsRefs r (.turn ans))
    (h : switchStep pton s r (.turn ans) = some r') : RefsInv pton s r' := by
  obtain ⟨net, rest, htodo, rfl⟩ := step_turn h
  have hmem : net ∈ r.nets := by
    rw [SwitchRun.nets, htodo]
    exact List.mem_append_right _ List.mem_cons_self
  have held := inv.held
  rw [holdsOf_nets htodo] at held
  have hone := portOne_held r.needCheck r.now ans (inv.ports net hmem).off
    (fun hcount hgone => hok net rest htodo hcount hgone) held
  -- a port after the turn is one of before or the one in its turn
  have hfrom : ∀ x ∈ (r.done ++ (switchPortOne r.needCheck r.now ans r.table net).2.1.toList) ++ rest,
      ∃ y ∈ r.nets, x = y ∨ (y = net ∧ TurnKeeps net x) := by
    intro x hx
    rw [SwitchRun.nets, htodo]
    simp only [List.mem_append, Option.mem_toList, List.mem_cons] at hx ⊢
    rcases hx with (hx | hx) | hx
    · exact ⟨x, Or.inl hx, Or.inl rfl⟩
    · exact ⟨net, Or.inr (Or.inl rfl), Or.inr ⟨rfl, portOne_keeps hx⟩⟩
    · exact ⟨x, Or.inr (Or.inr hx), Or.inl rfl⟩
  constructor
  · rw [SwitchRun.nets, holdsOf_append, holdsOf_append, add_assoc, add_left_comm]
    exact hone
  · intro x hx
    rcases hfrom x hx with ⟨y, hy, rfl | ⟨rfl, hkeeps⟩⟩
    · exact inv.ports x hy
    · exact (inv.ports y hy).turn hkeeps
  · intro x hx hne
    rcases hfrom x hx with ⟨y, hy, rfl | ⟨rfl, hkeeps⟩⟩
    · exact inv.taken x hy hne
    · rw [hkeeps.key]
      exact inv.waiting y (htodo ▸ List.mem_cons_self)
  · intro x hx
    exact inv.waiting x (htodo ▸ List.mem_cons_of_mem _ hx)

theorem RefsInv.step (inv : RefsInv pton s r) {l : SwitchLabel} (hok : KeepsRefs r l)
    (h : switchStep pton s r l = some r') : RefsInv pton s r' := by
  cases l with
  | poll sys => exact inv.poll hok h
  | turn ans => exact inv.turn hok h

theorem RefsInv.refs (inv : RefsInv pton s r) (i : Fin MAX_PHY_PORT) :
    (r.table.get i).refs = refsOf r.nets i := by
  rw [inv.held.refs, holders_holdsOf inv.ports]


end Run

/-! What a deletion gives back. -/

section Delete
variable {table : FdTable} {net : SwitchNet} {hs : Multiset Hold} {i : Fin MAX_PHY_PORT}

theorem freeBondingFd_untouched (slave : List SlaveInfo) {freed : ℕ → ℕ} {table : FdTable}
    (h : ∀ s ∈ slave, slotOf s.fdIndex ≠ i) :
    (switchFreeBondingFd freed table slave).get i = table.get i := by
  induction slave generalizing freed table with
  | nil => rw [switchFreeBondingFd]
  | cons s rest ih =>
    obtain ⟨hs, hrest⟩ := List.forall_mem_cons.mp h
    rw [switchFreeBondingFd, ih hrest]
    exact putFdInfo_ne (Ne.symm hs)

/-- The references that the port holds on a place go, and a place where it holds none is
as it was. -/
structure ReleasesOwn (freed : ℕ → ℕ) (table : FdTable) (net : SwitchNet) : Prop where
  refs : ∀ i, ((switchPortDelete freed table net).1.get i).refs =
    (table.get i).refs - refsOf [net] i
  others : ∀ i, refsOf [net] i = 0 → (switchPortDelete freed table net).1.get i = table.get i

theorem portDelete_releases (hport : PortOk net) (hwhole : DeletesWhole net) {freed : ℕ → ℕ}
    (held : Held table (netHolds net + hs)) : ReleasesOwn freed table net := by
  have hcount : ∀ i, holders (netHolds net) i = refsOf [net] i := by
    intro i
    have hone := holders_holdsOf (List.forall_mem_singleton.mpr hport) i
    rwa [holdsOf, List.map_singleton, List.sum_singleton] at hone
  have hleft := portDelete_held freed hport.off hwhole held
  constructor
  · intro i
    rw [hleft.refs, held.refs, holders_add, hcount]
    omega
  · intro i hi
    -- nothing of what it holds is there
    have hnone : ∀ x ∈ netHolds net, x.1 ≠ i := by
      rw [← hcount] at hi
      exact holders_eq_zero.mp hi
    unfold switchPortDelete
    cases hv : net.run.valid with
    | false => rfl
    | true =>
      rw [netHolds_valid hv] at hnone
      have hown : i ≠ net.run.index := Ne.symm (hnone _ (Multiset.mem_cons_self _ _))
      rw [if_pos rfl]
      dsimp only
      cases hb : net.portInfo.bonding.valid with
      | false => exact putFdInfo_ne hown
      | true =>
        rw [if_pos rfl]
        refine (freeBondingFd_untouched _ fun s hs => ?_).trans (putFdInfo_ne hown)
        have hs' : (slotOf s.fdIndex, 0) ∈ slaveHolds net.portInfo.bonding.slave := by
          rw [slaveHolds, Multiset.mem_coe]
          refine List.mem_map_of_mem (List.mem_filter.mpr ⟨hs, ?_⟩)
          exact (hwhole hb s hs).trans hv
        exact hnone _ (Multiset.mem_cons_of_mem hs')

end Delete

/-- In a run that keeps the counts every place has as many references as there are ports and
slaves that hold it, and a port that goes gives back its own. -/
theorem refs_match {pton : Pton} {s : CfgState} {ls : List SwitchLabel} {r : SwitchRun}
    (hok : RunMeets (switchStep pton s) KeepsRefs SwitchRun.init ls)
    (h : run (switchStep pton s) SwitchRun.init ls = some r) :
    (∀ i, (r.table.get i).refs = refsOf r.nets i) ∧
      ∀ freed, ∀ net ∈ r.nets, DeletesWhole net → ReleasesOwn freed r.table net := by
  have inv : RefsInv pton s r :=
    run_meets_invariant (fun _ _ _ hi hl hs => hi.step hl hs) RefsInv.init hok h
  refine ⟨inv.refs, fun freed net hnet hwhole => ?_⟩
  obtain ⟨a, b, hnets⟩ := List.append_of_mem hnet
  have held := inv.held
  rw [hnets, holdsOf_append, holdsOf_cons, add_left_comm] at held
  exact portDelete_releases (inv.ports net hnet) hwhole held

/-- A bond `b` with an address on `b.5`. -/
def bondIfreq (slaves : Bytes) : Ifreq where
  ifrName := ascii "b.5"
  family := AF_INET
  addr := [10, 0, 0, 1]
  hwaddr := some [2, 0, 0, 0, 0, 1]
  ifrFlags := some IFF_RUNNING
  ifindex := fun name => if name = ascii "b" then some 7 else if name = ascii "s1" then some 8 else some 9
  slaves := fun _ => some slaves

def bondSystem (ifs : List Ifreq) : NetSystem where
  ifconf := some ifs
  bonding := some (some (ascii "b\n"))
  vlan := some (ascii "b.5|5|b\n")
  ib := fun _ => some [⟨ascii "mlx", some [ascii "s1"]⟩]
  uninit := 0

def grantAll : FdAnswer := ⟨fun _ => 1000, 1000, 5, true⟩

def grantTurn : TurnAnswer := ⟨1000, ⟨grantAll, fun _ => grantAll, 1000⟩, 0, 0, fun _ => 1000⟩

/-- The bond is checked, then a slave joins it, and it goes before the next check. -/
def joinedRun : List SwitchLabel :=
  [.poll (bondSystem [bondIfreq (ascii "s1\n")]), .turn grantTurn,
    .poll (bondSystem [bondIfreq (ascii "s1\ns2\n")]), .turn grantTurn,
    .poll (bondSystem []), .turn grantTurn]

/-- The slave has no place of its own: its index is 0, and the place 0 is given back twice. -/
theorem joined_slave_releases : ¬ ∀ (pton : Pton) (s : CfgState) (ls : List SwitchLabel)
    (r : SwitchRun), run (switchStep pton s) SwitchRun.init ls = some r →
      ∀ i, (r.table.get i).refs = refsOf r.nets i := by
  intro h
  have hrun : (run (switchStep samplePton sampleCfg) SwitchRun.init joinedRun).map
      (fun r => ((r.table.get (slotOf 0)).refs, refsOf r.nets (slotOf 0))) = some (-1, 0) := by
    decide +kernel
  obtain ⟨r, hr, hrefs⟩ := Option.map_eq_some_iff.mp hrun
  obtain ⟨hneg, hzero⟩ := Prod.mk.inj hrefs
  have heq := h samplePton sampleCfg joinedRun r hr (slotOf 0)
  rw [hneg, hzero] at heq
  exact absurd heq (by decide)

/-- The bond and its slave hold a place each after the check. -/
theorem refs_match_bond : ∃ r,
    run (switchStep samplePton sampleCfg) SwitchRun.init (joinedRun.take 2) = some r ∧
      (r.table.get (slotOf 1)).refs = 1 ∧
      (∀ i, (r.table.get i).refs = refsOf r.nets i) ∧
        ∀ freed, ∀ net ∈ r.nets, DeletesWhole net → ReleasesOwn freed r.table net := by
  have hrun : (run (switchStep samplePton sampleCfg) SwitchRun.init (joinedRun.take 2)).map
      (fun r => (r.table.get (slotOf 1)).refs) = some 1 := by
    decide +kernel
  -- the port is of this poll, so that it is not deleted in its turn
  have hturn : (switchStep samplePton sampleCfg SwitchRun.init
      (.poll (bondSystem [bondIfreq (ascii "s1\n")]))).map
        (fun r => (r.todo.map (·.portInfo.count), r.now)) = some ([100], 100) := by
    decide +kernel
  obtain ⟨r, hr, hone⟩ := Option.map_eq_some_iff.mp hrun
  refine ⟨r, hr, hone, refs_match ?_ hr⟩
  refine ⟨fun net hnet => absurd hnet List.not_mem_nil, fun r₁ h₁ => ⟨?_, fun _ _ => trivial⟩⟩
  intro net rest htodo hcount
  rw [h₁, Option.map_some, htodo] at hturn
  obtain ⟨hcounts, hnow⟩ := Prod.mk.inj (Option.some.inj hturn)
  exact absurd ((List.cons.inj hcounts).1.trans hnow.symm) hcount

end NvmeSnsd.Switch
