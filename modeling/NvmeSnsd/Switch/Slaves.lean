import NvmeSnsd.Switch.Fd

/-! The slaves of a bond: marked by the poll that reads their file, and taken out of
the list or given a socket by the check that follows. -/
namespace NvmeSnsd.Switch
open Lib Cfg Mgt

/-- The names of the slaves that are not marked as deleted. -/
def keptNames (slave : List SlaveInfo) : List Bytes :=
  (slave.filter (!·.deleted)).map (·.slaveName)

/-- The names in the file that were taken: each ended by a blank or a line break. -/
abbrev namesIn (text : Bytes) : List Bytes := endedNames SNSD_MAX_SLAVES text

/-- A slave that is not marked is the first of its name. -/
def FirstsKept (slave : List SlaveInfo) : Prop :=
  slave.Pairwise fun x y => y.deleted = false → x.slaveName ≠ y.slaveName

/-- The bonding data of a port, from its first poll on. -/
inductive Bonded : BondingInfo → Prop
  | start : Bonded ⟨false, false, 0, none, []⟩
  | check {b : BondingInfo} {r : BondingInfo × ℤ} (ifindex : Bytes → Option ℕ)
      (group : List Bytes) (phyIfname : Bytes) (file : Option Bytes) (reached : Bonded b)
      (result : snsdCheckGetSlave ifindex group phyIfname file b = .ok r) : Bonded r.1
  | get {b : BondingInfo} (ans : ℕ → FdAnswer) (table : FdTable) (reached : Bonded b) :
      Bonded (switchGetBondingFd ans table b).2.1

/-- What is true of the data at any time. -/
structure BondKept (b : BondingInfo) : Prop where
  off : b.valid = false → b.slave = [] ∧ b.bondingSlaves = none
  count : b.slavesCount = b.slave.length
  names : ∀ text, b.bondingSlaves = some text → ∀ name, name ∈ keptNames b.slave ↔ name ∈ namesIn text
  nodup : ∀ text, b.bondingSlaves = some text → (namesIn text).Nodup → (keptNames b.slave).Nodup

section Create
variable {ifindex : Bytes → Option ℕ} {info : BondingInfo}

theorem eagain_ne : -EAGAIN ≠ (0 : ℤ) := by decide

variable (ifindex info) in
/-- A slave that is created stands first; a failure changes nothing. -/
theorem createSlave_cases (name : Bytes) :
    snsdCreateSlave ifindex name info = (info, -EAGAIN) ∨
      ∃ index, snsdCreateSlave ifindex name info =
        ({ info with slave := ⟨index, 0, 0, false, false, name⟩ :: info.slave,
                     slavesCount := info.slavesCount+1 }, 0) := by
  unfold snsdCreateSlave
  split
  · exact Or.inl rfl
  · cases ifindex name with
    | none => exact Or.inl rfl
    | some index => exact Or.inr ⟨index, rfl⟩

/-- What a loop over the names leaves: the text is kept only if it succeeds. -/
structure NamesTaken (info : BondingInfo) (r : BondingInfo × ℤ) : Prop where
  valid : r.1.valid = info.valid
  count : info.slavesCount = info.slave.length → r.1.slavesCount = r.1.slave.length
  failed : r.2 ≠ 0 → r.1.bondingSlaves = none
  done : r.2 = 0 → r.1.bondingSlaves = info.bondingSlaves

variable (ifindex info) in
theorem createSlaves_spec (names : List Bytes) :
    NamesTaken info (createSlaves ifindex names info) ∧
      ((createSlaves ifindex names info).2 = 0 →
        keptNames (createSlaves ifindex names info).1.slave =
          names.reverse ++ keptNames info.slave) := by
  induction names generalizing info with
  | nil => exact ⟨⟨rfl, id, fun h => absurd rfl h, fun _ => rfl⟩, fun _ => rfl⟩
  | cons name names ih =>
    unfold createSlaves
    rcases createSlave_cases ifindex info name with h | ⟨index, h⟩
    · rw [h]
      exact ⟨⟨rfl, id, fun _ => rfl, fun h => absurd h eagain_ne⟩, fun h => absurd h eagain_ne⟩
    · rw [h]
      obtain ⟨htaken, hnames⟩ := ih
        { info with slave := ⟨index, 0, 0, false, false, name⟩ :: info.slave,
                    slavesCount := info.slavesCount+1 }
      refine ⟨⟨htaken.valid, ?_, htaken.failed, htaken.done⟩, ?_⟩
      · intro hcount
        apply htaken.count
        simp only [List.length_cons, hcount]
        push_cast
        ring
      · intro hret
        rw [List.reverse_cons, List.append_assoc]
        exact hnames hret

end Create

section Keep
variable {ifindex : Bytes → Option ℕ} {info : BondingInfo} {slave : List SlaveInfo} {name : Bytes}

theorem mem_keptNames : name ∈ keptNames slave ↔
    ∃ s ∈ slave, s.deleted = false ∧ s.slaveName = name := by
  simp only [keptNames, List.mem_map, List.mem_filter, Bool.not_eq_true', and_assoc]

theorem FirstsKept.nodup (h : FirstsKept slave) : (keptNames slave).Nodup := by
  have hkept : (slave.filter (!·.deleted)).Pairwise fun x y => x.slaveName ≠ y.slaveName := by
    apply (h.sublist List.filter_sublist).imp_of_mem
    intro x y _ hy hxy
    exact hxy (by simpa using (List.mem_filter.mp hy).2)
  exact List.pairwise_map.mpr hkept

theorem needNewSlave_new (h : (snsdNeedNewSlave name slave).2 = true) :
    (snsdNeedNewSlave name slave).1 = slave ∧ ∀ s ∈ slave, s.slaveName ≠ name := by
  induction slave with
  | nil => exact ⟨rfl, fun _ hs => absurd hs List.not_mem_nil⟩
  | cons s rest ih =>
    unfold snsdNeedNewSlave at h ⊢
    by_cases hname : s.slaveName = name
    · rw [if_pos hname] at h
      cases h
    · rw [if_neg hname] at h ⊢
      obtain ⟨hsame, hrest⟩ := ih h
      refine ⟨congrArg (s :: ·) hsame, ?_⟩
      intro x hx
      rcases List.mem_cons.mp hx with rfl | hx
      · exact hname
      · exact hrest x hx

/-- A name that is known is taken once more, and its first slave kept. -/
theorem needNewSlave_known (h : (snsdNeedNewSlave name slave).2 = false) (n : Bytes) :
    n ∈ keptNames (snsdNeedNewSlave name slave).1 ↔ n = name ∨ n ∈ keptNames slave := by
  induction slave with
  | nil => cases h
  | cons s rest ih =>
    unfold snsdNeedNewSlave at h ⊢
    by_cases hname : s.slaveName = name
    · rw [if_pos hname]
      simp only [mem_keptNames, List.exists_mem_cons_iff, hname]
      grind
    · rw [if_neg hname] at h ⊢
      have hrest := ih h
      simp only [mem_keptNames, List.exists_mem_cons_iff] at hrest ⊢
      grind

/-- Nothing changes for the slaves of other names. -/
theorem needNewSlave_other {s : SlaveInfo} (h : s ∈ (snsdNeedNewSlave name slave).1) :
    s ∈ slave ∨ s.slaveName = name := by
  induction slave with
  | nil => exact Or.inl h
  | cons x rest ih =>
    unfold snsdNeedNewSlave at h
    by_cases hname : x.slaveName = name
    · rw [if_pos hname] at h
      rcases List.mem_cons.mp h with rfl | h
      · exact Or.inr hname
      · exact Or.inl (List.mem_cons_of_mem _ h)
    · rw [if_neg hname] at h
      rcases List.mem_cons.mp h with rfl | h
      · exact Or.inl List.mem_cons_self
      · exact (ih h).imp_left (List.mem_cons_of_mem _)

/-- Only slaves of other names stand before the one that is kept. -/
theorem needNewSlave_firsts (h : FirstsKept slave) : FirstsKept (snsdNeedNewSlave name slave).1 := by
  induction slave with
  | nil => exact h
  | cons s rest ih =>
    obtain ⟨hs, hrest⟩ := List.pairwise_cons.mp h
    unfold snsdNeedNewSlave
    by_cases hname : s.slaveName = name
    · rw [if_pos hname]
      exact List.pairwise_cons.mpr ⟨hs, hrest⟩
    · rw [if_neg hname]
      refine List.pairwise_cons.mpr ⟨?_, ih hrest⟩
      intro y hy hkept
      rcases needNewSlave_other hy with hy | hy
      · exact hs y hy hkept
      · rw [hy]
        exact hname

theorem needNewSlave_length : (snsdNeedNewSlave name slave).1.length = slave.length := by
  induction slave with
  | nil => rfl
  | cons s rest ih =>
    unfold snsdNeedNewSlave
    split
    · rfl
    · rw [List.length_cons, List.length_cons, ih]

variable (ifindex info) in
/-- The loop over the names of a file that has changed. -/
theorem keepSlaves_spec (names : List Bytes) (hfirst : FirstsKept info.slave) :
    NamesTaken info (keepSlaves ifindex names info) ∧
      ((keepSlaves ifindex names info).2 = 0 →
        FirstsKept (keepSlaves ifindex names info).1.slave ∧
          ∀ n, n ∈ keptNames (keepSlaves ifindex names info).1.slave ↔
            n ∈ names ∨ n ∈ keptNames info.slave) := by
  induction names generalizing info with
  | nil =>
    refine ⟨⟨rfl, id, fun h => absurd rfl h, fun _ => rfl⟩, fun _ => ⟨hfirst, fun n => ?_⟩⟩
    simp only [List.not_mem_nil, false_or]
    exact Iff.rfl
  | cons name names ih =>
    unfold keepSlaves
    dsimp only
    cases hneed : (snsdNeedNewSlave name info.slave).2 with
    | false =>
      rw [if_neg Bool.false_ne_true]
      obtain ⟨htaken, hnames⟩ := ih
        { info with slave := (snsdNeedNewSlave name info.slave).1 } (needNewSlave_firsts hfirst)
      refine ⟨⟨htaken.valid, ?_, htaken.failed, htaken.done⟩, ?_⟩
      · intro hcount
        apply htaken.count
        rw [needNewSlave_length]
        exact hcount
      · intro hret
        obtain ⟨hfirst', hmem⟩ := hnames hret
        refine ⟨hfirst', fun n => ?_⟩
        rw [hmem, needNewSlave_known hneed, List.mem_cons]
        tauto
    | true =>
      obtain ⟨hsame, hnone⟩ := needNewSlave_new hneed
      rw [if_pos rfl, hsame]
      rcases createSlave_cases ifindex info name with h | ⟨index, h⟩
      · have h' : snsdCreateSlave ifindex name { info with slave := info.slave } = (info, -EAGAIN) := h
        rw [h']
        exact ⟨⟨rfl, id, fun _ => rfl, fun h => absurd h eagain_ne⟩, fun h => absurd h eagain_ne⟩
      · have h' : snsdCreateSlave ifindex name { info with slave := info.slave } = _ := h
        rw [h']
        have hfirst' : FirstsKept (⟨index, 0, 0, false, false, name⟩ :: info.slave) := by
          refine List.pairwise_cons.mpr ⟨?_, hfirst⟩
          intro s hs _
          exact (hnone s hs).symm
        obtain ⟨htaken, hnames⟩ := ih
          { info with slave := ⟨index, 0, 0, false, false, name⟩ :: info.slave,
                      slavesCount := info.slavesCount+1 } hfirst'
        refine ⟨⟨htaken.valid, ?_, htaken.failed, htaken.done⟩, ?_⟩
        · intro hcount
          apply htaken.count
          simp only [List.length_cons, hcount]
          push_cast
          ring
        · intro hret
          obtain ⟨hend, hmem⟩ := hnames hret
          refine ⟨hend, fun n => (hmem n).trans ?_⟩
          show n ∈ names ∨ n ∈ name :: keptNames info.slave ↔ _
          rw [List.mem_cons, List.mem_cons]
          tauto

end Keep

section Check
variable {ifindex : Bytes → Option ℕ} {info : BondingInfo} {group : List Bytes}
  {phyIfname text : Bytes}

theorem firstsKept_marked (slave : List SlaveInfo) :
    FirstsKept (slave.map fun s => { s with deleted := true }) := by
  apply List.pairwise_map.mpr
  apply List.pairwise_of_forall
  intro x y h
  cases h

theorem keptNames_marked (slave : List SlaveInfo) :
    keptNames (slave.map fun s => { s with deleted := true }) = [] := by
  rw [keptNames, List.filter_eq_nil_iff.mpr, List.map_nil]
  intro s hs
  obtain ⟨x, -, rfl⟩ := List.mem_map.mp hs
  exact Bool.false_ne_true

/-- A loop that reads a text leaves the data as they are at any time. -/
theorem NamesTaken.kept {r : BondingInfo × ℤ} (h : NamesTaken info r) (hvalid : info.valid = true)
    (hcount : info.slavesCount = info.slave.length) (htext : info.bondingSlaves = some text)
    (hread : r.2 = 0 → (∀ n, n ∈ keptNames r.1.slave ↔ n ∈ namesIn text) ∧
      ((namesIn text).Nodup → (keptNames r.1.slave).Nodup)) : BondKept r.1 := by
  have hnow (t : Bytes) (ht : r.1.bondingSlaves = some t) : r.2 = 0 ∧ text = t := by
    have hret : r.2 = 0 := by
      by_contra hne
      cases (h.failed hne).symm.trans ht
    exact ⟨hret, Option.some.inj (htext.symm.trans ((h.done hret).symm.trans ht))⟩
  refine ⟨?_, h.count hcount, ?_, ?_⟩
  · intro hoff
    rw [h.valid, hvalid] at hoff
    cases hoff
  · intro t ht
    obtain ⟨hret, rfl⟩ := hnow t ht
    exact (hread hret).1
  · intro t ht
    obtain ⟨hret, rfl⟩ := hnow t ht
    exact (hread hret).2

/-- What a reading that returns 0 leaves of the text given for the file. -/
def NamesRead (slaves : Option Bytes) (slave : List SlaveInfo) : Prop :=
  (∀ n, n ∈ keptNames slave ↔ ∃ t ∈ slaves, n ∈ namesIn (cstr t)) ∧
    ((∀ t ∈ slaves, (namesIn (cstr t)).Nodup) → (keptNames slave).Nodup)

/-- A text that has changed is read into marks and new slaves. -/
theorem refreshSlaves_spec (slaves : Option Bytes) (hcount : info.slavesCount = info.slave.length)
    (hvalid : info.valid = true) :
    BondKept (refreshSlaves ifindex slaves info).1 ∧
      ((refreshSlaves ifindex slaves info).2 = 0 →
        NamesRead slaves (refreshSlaves ifindex slaves info).1.slave) := by
  have hlength : info.slavesCount =
      (info.slave.map fun s => { s with deleted := true }).length := by
    rw [List.length_map]
    exact hcount
  have hnil := keptNames_marked info.slave
  unfold refreshSlaves
  cases slaves with
  | none =>
    refine ⟨⟨fun h => absurd (hvalid.symm.trans h) (by decide), hlength, nofun, nofun⟩, fun _ => ?_⟩
    dsimp only [NamesRead]
    rw [hnil]
    exact ⟨by simp, fun _ => List.nodup_nil⟩
  | some t =>
    dsimp only
    obtain ⟨htaken, hnames⟩ := keepSlaves_spec ifindex
      { info with change := true, slave := info.slave.map fun s => { s with deleted := true },
                  bondingSlaves := some (cstr t) } (namesIn (cstr t))
      (firstsKept_marked info.slave)
    simp only [hnil, List.not_mem_nil, or_false] at hnames
    refine ⟨htaken.kept hvalid hlength rfl ?_, ?_⟩
    · exact fun hret => ⟨(hnames hret).2, fun _ => (hnames hret).1.nodup⟩
    · refine fun hret => ⟨fun n => ?_, fun _ => (hnames hret).1.nodup⟩
      simpa using (hnames hret).2 n

variable (ifindex) in
/-- A bond that is new has no slaves before its file is read. -/
theorem getSlave_spec (slaves : Option Bytes) (hslave : info.slave = [])
    (htext : info.bondingSlaves = none) (hcount : info.slavesCount = 0) :
    BondKept (snsdGetSlave ifindex slaves info).1 ∧
      ((snsdGetSlave ifindex slaves info).2 = 0 →
        NamesRead slaves (snsdGetSlave ifindex slaves info).1.slave) := by
  have hlength : info.slavesCount = info.slave.length := by rw [hcount, hslave]; rfl
  have hnil : keptNames info.slave = [] := by rw [hslave]; rfl
  unfold snsdGetSlave
  cases slaves with
  | none =>
    refine ⟨⟨nofun, hlength, ?_, ?_⟩, fun _ => ?_⟩
    · intro t ht
      cases htext.symm.trans ht
    · intro t ht
      cases htext.symm.trans ht
    · dsimp only [NamesRead]
      rw [hnil]
      exact ⟨by simp, fun _ => List.nodup_nil⟩
  | some t =>
    dsimp only
    obtain ⟨htaken, hnames⟩ := createSlaves_spec ifindex
      { info with valid := true, change := true, bondingSlaves := some (cstr t) }
      (namesIn (cstr t))
    dsimp only at hnames
    rw [hnil, List.append_nil] at hnames
    refine ⟨htaken.kept rfl hlength rfl fun hret => ?_, fun hret => ?_⟩
    · rw [hnames hret]
      simp
    · rw [NamesRead, hnames hret]
      simp

/-- Where a slave, a remembered text and an empty file come together. -/
def NullRead (slaves : Option Bytes) (b : BondingInfo) : Prop :=
  slaves = none ∧ b.slave ≠ [] ∧ b.bondingSlaves ≠ none

theorem verifySlave_faults {slaves : Option Bytes} :
    (∃ r, snsdVerifySlave ifindex slaves info = .ok r) ↔ ¬ NullRead slaves info := by
  rw [NullRead]
  rcases hslave : info.slave with _ | ⟨s, rest⟩ <;> rcases htext : info.bondingSlaves with _ | old <;>
    rcases slaves with _ | t <;> simp only [snsdVerifySlave, hslave, htext]
  all_goals
    simp
  split
  · exact ⟨_, _, rfl⟩
  · exact ⟨_, _, rfl⟩

theorem verifySlave_spec {slaves : Option Bytes} {r : BondingInfo × ℤ} (hkept : BondKept info)
    (hvalid : info.valid = true) (h : snsdVerifySlave ifindex slaves info = .ok r) :
    BondKept r.1 ∧ (r.2 = 0 → NamesRead slaves r.1.slave) := by
  unfold snsdVerifySlave at h
  split at h
  · cases h
  · next old text hslave hold =>
    split_ifs at h with hsame
    · -- the text that is remembered
      obtain rfl := Except.ok.inj h
      subst hsame
      refine ⟨hkept, fun _ => ⟨fun n => ?_, fun hn => ?_⟩⟩
      · simpa using hkept.names _ hold n
      · exact hkept.nodup _ hold (hn text rfl)
    · obtain rfl := Except.ok.inj h
      exact refreshSlaves_spec _ hkept.count hvalid
  · obtain rfl := Except.ok.inj h
    exact refreshSlaves_spec _ hkept.count hvalid

/-- The reading of a bond: what it leaves, and when it reads a null pointer. -/
theorem checkGetSlave_spec {file : Option Bytes} {r : BondingInfo × ℤ} (hkept : BondKept info)
    (h : snsdCheckGetSlave ifindex group phyIfname file info = .ok r) :
    BondKept r.1 ∧ ((info.valid = true ∨ snsdIsBonding group phyIfname = true) → r.2 = 0 →
      ∃ text ∈ file, NamesRead (if text = [] then none else some text) r.1.slave) := by
  unfold snsdCheckGetSlave at h
  split at h
  · next hoff =>
    obtain rfl := Except.ok.inj h
    refine ⟨hkept, fun hon _ => ?_⟩
    rw [Bool.and_eq_true, Bool.not_eq_true', Bool.not_eq_true'] at hoff
    rcases hon with hon | hon
    · cases hoff.1.symm.trans hon
    · cases hoff.2.symm.trans hon
  · cases file with
    | none =>
      obtain rfl := Except.ok.inj h
      exact ⟨hkept, fun _ hret => absurd hret eagain_ne⟩
    | some text =>
      dsimp only at h
      split at h
      · next hvalid =>
        obtain ⟨hnext, hread⟩ := verifySlave_spec hkept hvalid h
        exact ⟨hnext, fun _ hret => ⟨text, rfl, hread hret⟩⟩
      · next hvalid =>
        obtain ⟨hslave, htext⟩ := hkept.off (Bool.eq_false_iff.mpr hvalid)
        obtain rfl := Except.ok.inj h
        have hcount : info.slavesCount = 0 := by
          rw [hkept.count, hslave]
          rfl
        obtain ⟨hnext, hread⟩ := getSlave_spec ifindex
          (if text = [] then none else some text) hslave htext hcount
        exact ⟨hnext, fun _ hret => ⟨text, rfl, hread hret⟩⟩

end Check

section Get
variable {slave : List SlaveInfo}

/-- A slave by its name and its interface. -/
def slaveId (s : SlaveInfo) : Bytes × ℕ := (s.slaveName, s.slaveIfindex)

variable (slave) in
theorem bondingWalk_names (ans : ℕ → FdAnswer) (table : FdTable) :
    keptNames (switchBondingWalk ans table slave).2.1 = keptNames slave ∧
      (switchBondingWalk ans table slave).2.1.length ≤ slave.length := by
  induction slave generalizing ans table with
  | nil =>
    rw [bondingWalk_nil]
    exact ⟨rfl, le_rfl⟩
  | cons s rest ih =>
    unfold switchBondingWalk
    split
    · next hdel =>
      dsimp only
      obtain ⟨hnames, hlength⟩ := ih (fun n => ans (n+1))
        (if s.fdValid then switchFreeSlaveFd (ans 0).putTime table s else table)
      refine ⟨hnames.trans ?_, hlength.trans (Nat.le_succ _)⟩
      simp [keptNames, hdel]
    · next hdel =>
      have hcons (x : SlaveInfo) (hx : x.deleted = s.deleted) (hn : x.slaveName = s.slaveName)
          (l : List SlaveInfo) (hl : keptNames l = keptNames rest) :
          keptNames (x :: l) = keptNames (s :: rest) := by
        simp only [keptNames] at hl ⊢
        simp [hx, hn, hdel, hl]
      split
      · obtain ⟨hnames, hlength⟩ := ih (fun n => ans (n+1)) table
        exact ⟨hcons s rfl rfl _ hnames, Nat.succ_le_succ hlength⟩
      · split
        · exact ⟨rfl, le_rfl⟩
        · next table' i _ _ =>
          obtain ⟨hnames, hlength⟩ := ih (fun n => ans (n+1)) table'
          refine ⟨hcons _ ?_ ?_ _ hnames, Nat.succ_le_succ hlength⟩
          · rfl
          · rfl

/-- A walk to the end leaves the slaves that were not marked, each with a socket. -/
theorem bondingWalk_done {ans : ℕ → FdAnswer} {table : FdTable}
    (h : (switchBondingWalk ans table slave).2.2 = true) :
    (switchBondingWalk ans table slave).2.1.map slaveId =
        (slave.filter (!·.deleted)).map slaveId ∧
      ∀ s ∈ (switchBondingWalk ans table slave).2.1, s.fdValid = true ∧ s.deleted = false := by
  induction slave generalizing ans table with
  | nil =>
    rw [bondingWalk_nil]
    exact ⟨rfl, fun s hs => absurd hs List.not_mem_nil⟩
  | cons s rest ih =>
    unfold switchBondingWalk at h ⊢
    split
    · next hdel =>
      rw [if_pos hdel] at h
      obtain ⟨hids, hall⟩ := ih h
      refine ⟨hids.trans ?_, hall⟩
      simp [hdel]
    · next hdel =>
      rw [if_neg hdel] at h
      rw [Bool.not_eq_true] at hdel
      have hcons (x : SlaveInfo) (hx : slaveId x = slaveId s) (hv : x.fdValid = true)
          (hd : x.deleted = false) (l : List SlaveInfo)
          (hl : l.map slaveId = (rest.filter (!·.deleted)).map slaveId ∧
            ∀ s ∈ l, s.fdValid = true ∧ s.deleted = false) :
          (x :: l).map slaveId = ((s :: rest).filter (!·.deleted)).map slaveId ∧
            ∀ s ∈ x :: l, s.fdValid = true ∧ s.deleted = false := by
        refine ⟨?_, List.forall_mem_cons.mpr ⟨⟨hv, hd⟩, hl.2⟩⟩
        rw [List.filter_cons_of_pos (by simp [hdel]), List.map_cons, List.map_cons, hx, hl.1]
      split
      · next hv =>
        rw [if_pos hv] at h
        exact hcons s rfl hv hdel _ (ih h)
      · next hv =>
        rw [if_neg hv] at h
        split
        · next heq =>
          rw [heq] at h
          cases h
        · next heq =>
          rw [heq] at h
          refine hcons _ ?_ ?_ ?_ _ (ih h)
          · rfl
          · rfl
          · exact hdel

theorem bondingFd_kept {b : BondingInfo} (h : BondKept b) (ans : ℕ → FdAnswer) (table : FdTable) :
    BondKept (switchGetBondingFd ans table b).2.1 := by
  obtain ⟨hnames, hlength⟩ := bondingWalk_names b.slave ans table
  have hcount : b.slavesCount-(b.slave.length-(switchBondingWalk ans table b.slave).2.1.length : ℕ) =
      ((switchBondingWalk ans table b.slave).2.1.length : ℤ) := by
    rw [h.count]
    omega
  have hoff (hv : b.valid = false) : (switchBondingWalk ans table b.slave).2.1 = [] := by
    rw [(h.off hv).1, bondingWalk_nil]
  unfold switchGetBondingFd
  dsimp only
  split
  all_goals
    refine ⟨fun hv => ⟨hoff hv, (h.off hv).2⟩, hcount, fun t ht n => ?_, fun t ht hn => ?_⟩
    · rw [hnames]
      exact h.names t ht n
    · rw [hnames]
      exact h.nodup t ht hn

theorem bonded_kept {b : BondingInfo} (h : Bonded b) : BondKept b := by
  induction h with
  | start => exact ⟨fun _ => ⟨rfl, rfl⟩, rfl, nofun, nofun⟩
  | check ifindex group phyIfname file reached result ih => exact (checkGetSlave_spec ih result).1
  | get ans table reached ih => exact bondingFd_kept ih ans table

/-- After a check that returns 0 the list has the slaves that were not marked, each
with a socket, and the count is its length. -/
theorem bondingFd_done {b : BondingInfo} (h : BondKept b) {ans : ℕ → FdAnswer} {table : FdTable}
    (hret : (switchGetBondingFd ans table b).2.2 = 0) :
    (switchGetBondingFd ans table b).2.1.slave.map slaveId =
        (b.slave.filter (!·.deleted)).map slaveId ∧
      (∀ s ∈ (switchGetBondingFd ans table b).2.1.slave, s.fdValid = true) ∧
      (switchGetBondingFd ans table b).2.1.slavesCount =
        (switchGetBondingFd ans table b).2.1.slave.length := by
  have hcount := (bondingFd_kept h ans table).count
  refine ⟨?_, ?_, hcount⟩
  all_goals
    unfold switchGetBondingFd at hret ⊢
    dsimp only at hret ⊢
    split at hret
    · next hdone =>
      rw [if_pos hdone]
      first
        | exact (bondingWalk_done hdone).1
        | exact fun s hs => ((bondingWalk_done hdone).2 s hs).1
    · exact absurd hret eagain_ne

end Get

/-! The file. -/

/-- Names, each ended by a line break or a blank. -/
def slavesText (words : List (Bytes × Bool)) : Bytes :=
  words.flatMap fun w => w.1 ++ [if w.2 then 10 else 32]

/-- Names without blanks, line breaks or zeros, as many as are taken. -/
structure SlaveWords (words : List (Bytes × Bool)) : Prop where
  few : words.length ≤ SNSD_MAX_SLAVES
  word : ∀ w ∈ words, 32 ∉ w.1 ∧ 10 ∉ w.1 ∧ 0 ∉ w.1

theorem slavesText_cstr {words : List (Bytes × Bool)} (h : SlaveWords words) :
    cstr (slavesText words) = slavesText words := by
  rw [cstr, List.takeWhile_eq_self_iff]
  intro b hb
  rw [bne_iff_ne]
  rintro rfl
  obtain ⟨w, hw, hb⟩ := List.mem_flatMap.mp hb
  rcases List.mem_append.mp hb with hb | hb
  · exact (h.word w hw).2.2 hb
  · cases hw : w.2 <;> simp [hw] at hb

theorem namesIn_slavesText {words : List (Bytes × Bool)} (h : SlaveWords words) :
    namesIn (slavesText words) = words.map (·.1) := by
  have hsplit : ∀ words : List (Bytes × Bool), (∀ w ∈ words, 32 ∉ w.1 ∧ 10 ∉ w.1 ∧ 0 ∉ w.1) →
      (slavesText words).splitOnP (fun b => b == 32 || b == 10) = words.map (·.1) ++ [[]] := by
    intro words
    induction words with
    | nil => exact fun _ => rfl
    | cons w words ih =>
      intro hwords
      obtain ⟨⟨h32, h10, -⟩, hrest⟩ := List.forall_mem_cons.mp hwords
      have hno : ∀ b ∈ w.1, (b == 32 || b == 10) = false := by
        intro b hb
        rw [Bool.or_eq_false_iff, beq_eq_false_iff_ne, beq_eq_false_iff_ne]
        constructor
        · rintro rfl
          exact h32 hb
        · rintro rfl
          exact h10 hb
      have hend : ((if w.2 then (10 : UInt8) else 32) == 32 ||
          (if w.2 then (10 : UInt8) else 32) == 10) = true := by
        cases w.2 <;> decide
      rw [slavesText, List.flatMap_cons, List.append_assoc, List.singleton_append,
        List.splitOnP_append_cons_of_forall_mem hno _ hend, List.map_cons, List.cons_append]
      exact congrArg _ (ih hrest)
  rw [namesIn, endedNames, hsplit words h.word, List.dropLast_concat, List.take_of_length_le]
  rw [List.length_map]
  exact h.few

/-- What a reading of the slaves file and the check that follows it are for: no null
pointer is read; a reading that returns 0 leaves unmarked the names in the file, once
each if the file has them once each; and then a check that returns 0 leaves these
slaves in the list, each with a socket, and counts them. -/
def SlavesFollow (ifindex : Bytes → Option ℕ) (group : List Bytes) (phyIfname : Bytes)
    (words : List (Bytes × Bool)) (b : BondingInfo) : Prop :=
  ∃ r, snsdCheckGetSlave ifindex group phyIfname (some (slavesText words)) b = .ok r ∧
    (r.2 = 0 →
      (∀ n, n ∈ keptNames r.1.slave ↔ n ∈ words.map (·.1)) ∧
      ((words.map (·.1)).Nodup → (keptNames r.1.slave).Nodup) ∧
      ∀ ans table, (switchGetBondingFd ans table r.1).2.2 = 0 →
        (switchGetBondingFd ans table r.1).2.1.slave.map slaveId =
            (r.1.slave.filter (!·.deleted)).map slaveId ∧
          (∀ s ∈ (switchGetBondingFd ans table r.1).2.1.slave, s.fdValid = true) ∧
          (switchGetBondingFd ans table r.1).2.1.slavesCount =
            (switchGetBondingFd ans table r.1).2.1.slave.length)

/-- The list follows the file exactly if an empty file does not meet slaves and a text
that is remembered for them. -/
theorem slaves_follow_iff {b : BondingInfo} (h : Bonded b) {words : List (Bytes × Bool)}
    (hwords : SlaveWords words) (ifindex : Bytes → Option ℕ) {group : List Bytes}
    {phyIfname : Bytes} (hbond : b.valid = true ∨ snsdIsBonding group phyIfname = true) :
    SlavesFollow ifindex group phyIfname words b ↔
      ¬ (words = [] ∧ b.valid = true ∧ b.slave ≠ [] ∧ b.bondingSlaves ≠ none) := by
  have hempty : slavesText words = [] ↔ words = [] := by
    cases words with
    | nil => exact iff_of_true rfl rfl
    | cons w words => simp [slavesText]
  have hkept := bonded_kept h
  constructor
  · intro hfollow hnull
    obtain ⟨rfl, hvalid, hslave, htext⟩ := hnull
    obtain ⟨r, hr, -⟩ := hfollow
    rw [snsdCheckGetSlave, hvalid] at hr
    simp only [Bool.not_true, Bool.false_and, if_true] at hr
    exact verifySlave_faults.mp ⟨r, hr⟩ ⟨rfl, hslave, htext⟩
  · intro hno
    have hon : (!b.valid && !snsdIsBonding group phyIfname) = false := by
      rcases hbond with h | h <;> simp [h]
    obtain ⟨r, hr⟩ : ∃ r, snsdCheckGetSlave ifindex group phyIfname (some (slavesText words)) b =
        .ok r := by
      unfold snsdCheckGetSlave
      rw [hon, if_neg Bool.false_ne_true]
      dsimp only
      split
      · next hvalid =>
        refine verifySlave_faults.mpr ?_
        intro ⟨hnone, hslave, htext⟩
        refine hno ⟨hempty.mp ?_, hvalid, hslave, htext⟩
        by_contra hne
        rw [if_neg hne] at hnone
        cases hnone
      · exact ⟨_, rfl⟩
    refine ⟨r, hr, fun hret => ?_⟩
    obtain ⟨hnext, hread⟩ := checkGetSlave_spec hkept hr
    obtain ⟨text, htext, hnames, hnodup⟩ := hread hbond hret
    obtain rfl : slavesText words = text := Option.some.inj htext
    refine ⟨fun n => ?_, fun hn => hnodup ?_, fun ans table hdone => bondingFd_done hnext hdone⟩
    · rw [hnames n]
      by_cases hw : words = []
      · simp [hw, slavesText]
      · rw [if_neg (fun he => hw (hempty.mp he))]
        simp only [Option.mem_some_iff, exists_eq_left', slavesText_cstr hwords,
          namesIn_slavesText hwords]
    · intro t ht
      have hne : slavesText words ≠ [] := by
        intro he
        rw [if_pos he] at ht
        cases ht
      rw [if_neg hne] at ht
      obtain rfl := Option.some.inj ht
      rw [slavesText_cstr hwords, namesIn_slavesText hwords]
      exact hn

/-- A bond that has one slave, from its file. -/
def sampleBond : BondingInfo where
  valid := true
  change := true
  slavesCount := 1
  bondingSlaves := some (ascii "s1\n")
  slave := [⟨7, 0, 0, false, false, ascii "s1"⟩]

theorem sampleBond_bonded : Bonded sampleBond := by
  have hread : snsdCheckGetSlave (fun _ => some 7) [ascii "b"] (ascii "b") (some (ascii "s1\n"))
      ⟨false, false, 0, none, []⟩ = .ok (sampleBond, 0) := by
    decide +kernel
  exact Bonded.check _ _ _ _ Bonded.start hread

/-- Another slave is added. -/
theorem slaves_follow_sample :
    SlavesFollow (fun _ => some 8) [ascii "b"] (ascii "b") [(ascii "s1", false), (ascii "s2", true)]
        sampleBond ↔
      ¬ ([(ascii "s1", false), (ascii "s2", true)] = ([] : List (Bytes × Bool)) ∧
        sampleBond.valid = true ∧ sampleBond.slave ≠ [] ∧ sampleBond.bondingSlaves ≠ none) :=
  slaves_follow_iff sampleBond_bonded ⟨by decide, by decide⟩ _ (Or.inl rfl)

/-- The last slave is taken out of the bond. -/
theorem empty_file_faults : Bonded sampleBond ∧
    snsdCheckGetSlave (fun _ => some 7) [ascii "b"] (ascii "b") (some (slavesText [])) sampleBond =
      .error nullRead ∧
    ¬ SlavesFollow (fun _ => some 7) [ascii "b"] (ascii "b") [] sampleBond := by
  have hfault : snsdCheckGetSlave (fun _ => some 7) [ascii "b"] (ascii "b") (some (slavesText []))
      sampleBond = .error nullRead := by
    decide +kernel
  refine ⟨sampleBond_bonded, hfault, ?_⟩
  intro ⟨r, hr, _⟩
  rw [hfault] at hr
  cases hr

end NvmeSnsd.Switch
