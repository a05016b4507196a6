import NvmeSnsd.Mgt.Vlan

/-! The slaves of a bonded port. -/
namespace NvmeSnsd.Mgt
open Lib

def SNSD_MAX_SLAVES : ℕ := 32
def EAGAIN : ℤ := 11

/-- A null pointer is read. -/
def nullRead : Fault := .load 0 1 0

/-- The names in a text that are ended by a blank or a line break, at most `n`:
what `snsd_seperate_slaves` and `snsd_get_bonding_info` cut out. -/
def endedNames (n : ℕ) (text : Bytes) : List Bytes :=
  ((text.splitOnP fun b => b == 32 || b == 10).dropLast).take n

/-- `snsd_create_slave`; `ifindex` answers `SIOCGIFINDEX`. -/
def snsdCreateSlave (ifindex : Bytes → Option ℕ) (slaveName : Bytes) (info : BondingInfo) :
    BondingInfo × ℤ :=
  if slaveName.length ≥ IFNAMSIZ then (info, -EAGAIN)
  else
    match ifindex slaveName with
    | none => (info, -EAGAIN)
    | some index =>
      let slave : SlaveInfo :=
        { slaveIfindex := index, fdIndex := 0, fd := 0, fdValid := false, deleted := false,
          slaveName := slaveName }
      ({ info with slave := slave :: info.slave, slavesCount := info.slavesCount+1 }, 0)

/-- The loop of `snsd_get_slave`. -/
def createSlaves (ifindex : Bytes → Option ℕ) : List Bytes → BondingInfo → BondingInfo × ℤ
  | [], info => (info, 0)
  | name :: names, info =>
    match snsdCreateSlave ifindex name info with
    | (info, 0) => createSlaves ifindex names info
    | (info, _) => ({ info with bondingSlaves := none }, -EAGAIN)

/-- `snsd_get_slave`; `slaves` is null for an empty file. -/
def snsdGetSlave (ifindex : Bytes → Option ℕ) (slaves : Option Bytes) (info : BondingInfo) :
    BondingInfo × ℤ :=
  let info := { info with valid := true, change := true }
  match slaves with
  | none => (info, 0)
  | some text =>
    createSlaves ifindex (endedNames SNSD_MAX_SLAVES (cstr text))
      { info with bondingSlaves := some (cstr text) }

/-- `snsd_need_new_slave`: a slave of that name, the first one, stays. -/
def snsdNeedNewSlave (slaveName : Bytes) : List SlaveInfo → List SlaveInfo × Bool
  | [] => ([], true)
  | slave :: rest =>
    if slave.slaveName = slaveName then ({ slave with deleted := false } :: rest, false)
    else
      let r := snsdNeedNewSlave slaveName rest
      (slave :: r.1, r.2)

/-- The loop of `snsd_verify_slave` over the names. -/
def keepSlaves (ifindex : Bytes → Option ℕ) : List Bytes → BondingInfo → BondingInfo × ℤ
  | [], info => (info, 0)
  | name :: names, info =>
    let r := snsdNeedNewSlave name info.slave
    let info := { info with slave := r.1 }
    if r.2 then
      match snsdCreateSlave ifindex name info with
      | (info, 0) => keepSlaves ifindex names info
      | (info, _) => ({ info with bondingSlaves := none }, -EAGAIN)
    else keepSlaves ifindex names info

/-- `snsd_verify_slave` once the text has changed. -/
def refreshSlaves (ifindex : Bytes → Option ℕ) (slaves : Option Bytes) (info : BondingInfo) :
    BondingInfo × ℤ :=
  let info := { info with
    change := true, slave := info.slave.map fun s => { s with deleted := true },
    bondingSlaves := none }
  match slaves with
  | none => (info, 0)
  | some text =>
    keepSlaves ifindex (endedNames SNSD_MAX_SLAVES (cstr text))
      { info with bondingSlaves := some (cstr text) }

/-- `snsd_verify_slave`. With slaves and a remembered text an empty file makes
it compare a null pointer. -/
def snsdVerifySlave (ifindex : Bytes → Option ℕ) (slaves : Option Bytes) (info : BondingInfo) :
    Except Fault (BondingInfo × ℤ) :=
  match info.slave, info.bondingSlaves, slaves with
  | _ :: _, some _, none => .error nullRead
  | _ :: _, some old, some text =>
    if cstr text = old then .ok (info, 0) else .ok (refreshSlaves ifindex slaves info)
  | _, _, _ => .ok (refreshSlaves ifindex slaves info)

/-- `snsd_is_bonding`, against the names of the masters file. -/
def snsdIsBonding (group : List Bytes) (phyIfname : Bytes) : Bool :=
  group.any fun name => cstr name == phyIfname

/-- `snsd_check_get_slave`; `file` is the text of the slaves file, none where it
cannot be read. -/
def snsdCheckGetSlave (ifindex : Bytes → Option ℕ) (group : List Bytes) (phyIfname : Bytes)
    (file : Option Bytes) (bonding : BondingInfo) : Except Fault (BondingInfo × ℤ) :=
  if !bonding.valid && !snsdIsBonding group phyIfname then .ok (bonding, 0)
  else
    match file with
    | none => .ok (bonding, -EAGAIN)
    | some text =>
      let slaves := if text = [] then none else some text
      if bonding.valid then snsdVerifySlave ifindex slaves bonding
      else .ok (snsdGetSlave ifindex slaves bonding)

/-! Reading the slaves file gives no slave a descriptor and takes none away. -/

/-- The table places of the slaves that hold one. -/
def BondingInfo.heldSlots (info : BondingInfo) : List ℕ :=
  (info.slave.filter (·.fdValid)).map (·.fdIndex)

section Held
variable {ifindex : Bytes → Option ℕ} {info : BondingInfo}

theorem createSlave_held (name : Bytes) :
    (snsdCreateSlave ifindex name info).1.heldSlots = info.heldSlots := by
  unfold snsdCreateSlave
  split
  · rfl
  · cases ifindex name <;> rfl

theorem createSlaves_held (names : List Bytes) :
    (createSlaves ifindex names info).1.heldSlots = info.heldSlots := by
  induction names generalizing info with
  | nil => rfl
  | cons name names ih =>
    have hone : (snsdCreateSlave ifindex name info).1.heldSlots = info.heldSlots :=
      createSlave_held name
    unfold createSlaves
    generalize snsdCreateSlave ifindex name info = r at hone
    obtain ⟨next, ret⟩ := r
    dsimp only at hone ⊢
    split
    · next heq =>
      obtain ⟨rfl, rfl⟩ := Prod.mk.inj heq
      exact ih.trans hone
    · next heq =>
      obtain ⟨rfl, rfl⟩ := Prod.mk.inj heq
      exact hone

theorem needNewSlave_held (name : Bytes) (slave : List SlaveInfo) :
    ((snsdNeedNewSlave name slave).1.filter (·.fdValid)).map (·.fdIndex) =
      (slave.filter (·.fdValid)).map (·.fdIndex) := by
  induction slave with
  | nil => rfl
  | cons s rest ih =>
    unfold snsdNeedNewSlave
    split
    · cases hv : s.fdValid <;> simp [hv]
    · cases hv : s.fdValid <;> simp [hv, ih]

theorem keepSlaves_held (names : List Bytes) :
    (keepSlaves ifindex names info).1.heldSlots = info.heldSlots := by
  induction names generalizing info with
  | nil => rfl
  | cons name names ih =>
    have hneed := needNewSlave_held name info.slave
    unfold keepSlaves
    generalize snsdNeedNewSlave name info.slave = r at hneed
    obtain ⟨slave, new⟩ := r
    dsimp only at hneed ⊢
    have hkept : ({ info with slave := slave } : BondingInfo).heldSlots = info.heldSlots := hneed
    cases new with
    | false => exact ih.trans hkept
    | true =>
      have hone : (snsdCreateSlave ifindex name { info with slave := slave }).1.heldSlots =
          ({ info with slave := slave } : BondingInfo).heldSlots := createSlave_held name
      rw [if_pos rfl]
      generalize snsdCreateSlave ifindex name { info with slave := slave } = q at hone
      obtain ⟨next, ret⟩ := q
      dsimp only at hone ⊢
      split
      · next heq =>
        obtain ⟨rfl, rfl⟩ := Prod.mk.inj heq
        exact ih.trans (hone.trans hkept)
      · next heq =>
        obtain ⟨rfl, rfl⟩ := Prod.mk.inj heq
        exact hone.trans hkept

theorem refreshSlaves_held (slaves : Option Bytes) :
    (refreshSlaves ifindex slaves info).1.heldSlots = info.heldSlots := by
  have hmark : ((info.slave.map fun s => { s with deleted := true }).filter
      (·.fdValid)).map (·.fdIndex) = info.heldSlots := by
    rw [List.filter_map, List.map_map]
    rfl
  unfold refreshSlaves
  cases slaves with
  | none => exact hmark
  | some text => exact (keepSlaves_held _).trans hmark

theorem verifySlave_held {slaves : Option Bytes} {r : BondingInfo × ℤ}
    (h : snsdVerifySlave ifindex slaves info = .ok r) : r.1.heldSlots = info.heldSlots := by
  unfold snsdVerifySlave at h
  split at h
  · cases h
  · split_ifs at h
    · cases h
      rfl
    · cases h
      exact refreshSlaves_held _
  · cases h
    exact refreshSlaves_held _

theorem getSlave_held (slaves : Option Bytes) :
    (snsdGetSlave ifindex slaves info).1.heldSlots = info.heldSlots := by
  unfold snsdGetSlave
  cases slaves with
  | none => rfl
  | some text => exact createSlaves_held _

theorem checkGetSlave_held {group : List Bytes} {phyIfname : Bytes} {file : Option Bytes}
    {r : BondingInfo × ℤ}
    (h : snsdCheckGetSlave ifindex group phyIfname file info = .ok r) :
    r.1.heldSlots = info.heldSlots := by
  unfold snsdCheckGetSlave at h
  split at h
  · cases h
    rfl
  · cases file with
    | none =>
      cases h
      rfl
    | some text =>
      dsimp only at h
      generalize (if text = [] then none else some text) = slaves at h
      split at h
      · exact verifySlave_held h
      · cases h
        exact getSlave_held slaves

end Held

/-! Once on a bond, a port stays there. -/

section Valid
variable {ifindex : Bytes → Option ℕ} {info : BondingInfo}

@[simp] theorem createSlave_valid (name : Bytes) :
    (snsdCreateSlave ifindex name info).1.valid = info.valid := by
  unfold snsdCreateSlave
  split
  · rfl
  · cases ifindex name <;> rfl

theorem createSlaves_valid (names : List Bytes) :
    (createSlaves ifindex names info).1.valid = info.valid := by
  induction names generalizing info with
  | nil => rfl
  | cons name names ih =>
    have hone : (snsdCreateSlave ifindex name info).1.valid = info.valid := createSlave_valid name
    unfold createSlaves
    split
    · next next heq =>
      rw [heq] at hone
      exact ih.trans hone
    · next next _ heq =>
      rw [heq] at hone
      exact hone

theorem keepSlaves_valid (names : List Bytes) :
    (keepSlaves ifindex names info).1.valid = info.valid := by
  induction names generalizing info with
  | nil => rfl
  | cons name names ih =>
    unfold keepSlaves
    dsimp only
    split
    · have hone : (snsdCreateSlave ifindex name
          { info with slave := (snsdNeedNewSlave name info.slave).1 }).1.valid = info.valid :=
        createSlave_valid name
      split
      · next next heq =>
        rw [heq] at hone
        exact ih.trans hone
      · next next _ heq =>
        rw [heq] at hone
        exact hone
    · exact ih

theorem refreshSlaves_valid (slaves : Option Bytes) :
    (refreshSlaves ifindex slaves info).1.valid = info.valid := by
  unfold refreshSlaves
  cases slaves with
  | none => rfl
  | some text => exact keepSlaves_valid _

theorem verifySlave_valid {slaves : Option Bytes} {r : BondingInfo × ℤ}
    (h : snsdVerifySlave ifindex slaves info = .ok r) : r.1.valid = info.valid := by
  unfold snsdVerifySlave at h
  split at h
  · cases h
  · split_ifs at h
    · cases h
      rfl
    · cases h
      exact refreshSlaves_valid _
  · cases h
    exact refreshSlaves_valid _

theorem checkGetSlave_valid {group : List Bytes} {phyIfname : Bytes} {file : Option Bytes}
    {r : BondingInfo × ℤ} (h : snsdCheckGetSlave ifindex group phyIfname file info = .ok r)
    (hvalid : info.valid = true) : r.1.valid = true := by
  unfold snsdCheckGetSlave at h
  rw [hvalid] at h
  cases file with
  | none =>
    cases h
    exact hvalid
  | some text =>
    dsimp only at h
    rw [Bool.not_true, Bool.false_and, if_neg Bool.false_ne_true, if_pos rfl] at h
    exact (verifySlave_valid h).trans hvalid

end Valid

end NvmeSnsd.Mgt
