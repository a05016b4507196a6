import NvmeSnsd.Mgt.Reconcile

/-! Runs of polls over one list of ports. -/
namespace NvmeSnsd.Mgt
open Lib Cfg

/-- The IPv4 interfaces of a snapshot. -/
def NetSystem.interfaces (sys : NetSystem) : List Ifreq :=
  (sys.ifconf.getD []).filter (·.family = AF_INET)

def NetSystem.vlanText (sys : NetSystem) : Bytes := sys.vlan.getD []

/-- A poll comes to the interfaces. -/
def NetSystem.FilesRead (sys : NetSystem) : Prop := sys.bonding ≠ some none ∧ sys.vlanText ≠ []

/-- No interface of the snapshot is on a bond. -/
def NetSystem.NoBond (sys : NetSystem) : Prop :=
  ∀ ifr ∈ sys.interfaces,
    OffBond (bondingGroup sys.bonding) sys.vlanText (nameArray ifr.ifrName)

section Ends
variable {ρ : Type} {pton : Pton} {s : CfgState} {fresh : ρ} {anyProtocol : Int32}
  {mode : SnsdMode} {sys : NetSystem} {count : UInt32} {nets nets' collected : List (NetInfo ρ)}
  {ret : ℤ}

/-- The interfaces are gone through, unless a file or the list cannot be had. -/
theorem allNetInfo_cases
    (h : snsdAllNetInfo fresh anyProtocol count sys nets = .ok (nets', ret)) :
    (ret ≠ 0 ∧ nets' = nets) ∨
      ∃ ifs r, sys.ifconf = some ifs ∧ sys.FilesRead ∧
        snsdGetLoop fresh anyProtocol count (bondingGroup sys.bonding) sys.vlanText ifs nets r =
          .ok (nets', ret) := by
  unfold snsdAllNetInfo at h
  cases hifs : sys.ifconf with
  | none =>
    rw [hifs] at h
    cases h
    exact Or.inl ⟨by decide, rfl⟩
  | some ifs =>
    rw [hifs] at h
    dsimp only at h
    unfold snsdGetNetInfo at h
    split at h
    · cases h
      exact Or.inl ⟨by decide, rfl⟩
    · next hbonding =>
      split at h
      · cases h
        exact Or.inl ⟨by decide, rfl⟩
      · cases h
        exact Or.inl ⟨by decide, rfl⟩
      · next vlanInfo hempty hvlan =>
        have htext : sys.vlanText = vlanInfo := by
          rw [NetSystem.vlanText, hvlan]
          rfl
        rw [NetSystem.FilesRead, htext]
        exact Or.inr ⟨ifs, _, rfl, ⟨hbonding, hempty⟩, h⟩

/-- A poll leaves the list, ends with an error among the interfaces, or makes all
three passes. -/
theorem cfgNetInfo_cases
    (h : snsdCfgNetInfo pton s fresh mode sys count nets = .ok (nets', ret)) :
    (ret ≠ 0 ∧ nets' = nets) ∨
      ∃ collected r, snsdAllNetInfo fresh s.anyProtocol count sys nets = .ok (collected, r) ∧
        ((ret ≠ 0 ∧ r ≠ 0 ∧ nets' = collected) ∨
          (ret = 0 ∧ r = 0 ∧
            nets' = snsdProtocolHandle sys count (snsdDealwithCfg pton s mode collected))) := by
  unfold snsdCfgNetInfo at h
  split at h
  · cases h
    exact Or.inl ⟨by decide, rfl⟩
  · obtain ⟨⟨collected, r⟩, hall, h⟩ := bind_eq_ok.mp h
    refine Or.inr ⟨collected, r, hall, ?_⟩
    dsimp only at h
    split at h
    · next hr =>
      cases h
      exact Or.inl ⟨by decide, hr, rfl⟩
    · next hr =>
      cases h
      exact Or.inr ⟨rfl, not_not.mp hr, rfl⟩

theorem dealwith_from {net : NetInfo ρ} (h : net ∈ snsdDealwithCfg pton s mode nets) :
    ∃ old ∈ nets, ∃ e, FirstTakes pton s mode old.portInfo.addr e ∧
      FilledFrom pton mode e old.portInfo net.portInfo ∧ net.run = old.run := by
  obtain ⟨old, hold, e, hmatch, hrun⟩ := mem_dealwithCfg.mp h
  obtain ⟨hfirst, hfill⟩ := matchCfg_first hmatch
  exact ⟨old, hold, e, hfirst, hfill, hrun⟩

theorem CfgKeeps.key {p q : PortInfo} (h : CfgKeeps p q) : q.key = p.key := by
  rw [PortInfo.key, PortInfo.key, h.addr, h.name]

theorem dealwith_keeps {old : NetInfo ρ} (hold : old ∈ nets)
    (hcfg : ∃ e ∈ snsdGetNetCfg s mode, CfgTakes pton s.anyflag mode e old.portInfo.addr) :
    ∃ net ∈ snsdDealwithCfg pton s mode nets, net.portInfo.key = old.portInfo.key ∧
      net.portInfo.count = old.portInfo.count ∧ net.run = old.run ∧
      net.portInfo.newPort = old.portInfo.newPort := by
  rcases hmatch : snsdMatchCfg pton s.anyflag mode (snsdGetNetCfg s mode) old.portInfo with
    ⟨_ | e, q⟩
  · obtain ⟨e, he, htakes⟩ := hcfg
    exact absurd htakes (matchCfg_none hmatch e he)
  · exact ⟨{ old with portInfo := q }, mem_dealwithCfg.mpr ⟨old, hold, e, hmatch, rfl⟩,
      (matchCfg_first hmatch).2.keeps.key, (matchCfg_first hmatch).2.keeps.count, rfl,
      (matchCfg_first hmatch).2.keeps.newPort⟩

theorem keys_dealwith : (keys (snsdDealwithCfg pton s mode nets)).Sublist (keys nets) := by
  apply keys_filterMap
  intro x y h
  split at h
  · next e port hmatch =>
    cases h
    exact (matchCfg_first hmatch).2.keeps.key
  · cases h

/-- A protocol that the check looks up: RoCE, also where none is set. -/
def IsRoce (protocol : Int32) : Prop :=
  protocol = 0 ∨ protocol = Int32.ofNat SNSD_PROTOCOL_ROCE

@[simp] theorem defaultRoce_key (p : PortInfo) : p.defaultRoce.key = p.key := by
  unfold PortInfo.defaultRoce
  split <;> rfl

@[simp] theorem defaultRoce_count (p : PortInfo) : p.defaultRoce.count = p.count := by
  unfold PortInfo.defaultRoce
  split <;> rfl

@[simp] theorem defaultRoce_newPort (p : PortInfo) : p.defaultRoce.newPort = p.newPort := by
  unfold PortInfo.defaultRoce
  split <;> rfl

@[simp] theorem defaultRoce_bonding (p : PortInfo) : p.defaultRoce.bonding = p.bonding := by
  unfold PortInfo.defaultRoce
  split <;> rfl

theorem defaultRoce_iff (p : PortInfo) :
    p.defaultRoce.protocol = Int32.ofNat SNSD_PROTOCOL_ROCE ↔ IsRoce p.protocol := by
  unfold PortInfo.defaultRoce IsRoce
  by_cases h : p.protocol = 0
  · simp [h]
  · simp [h]

/-- The check of a port off a bond: a new one must be found among the devices. -/
theorem protocolFlag_iff {p : PortInfo} (hv : p.bonding.valid = false) :
    protocolFlag sys p = true ↔
      IsRoce p.protocol ∧ (p.newPort = true → ibFinds (sys.ib p.defaultRoce) p.defaultRoce) := by
  unfold protocolFlag protocolHandle snsdProtocolIb
  rw [defaultRoce_newPort, defaultRoce_bonding, hv, ← defaultRoce_iff]
  by_cases hroce : p.defaultRoce.protocol = Int32.ofNat SNSD_PROTOCOL_ROCE
  · rw [if_pos hroce]
    cases p.newPort <;> simp [hroce]
  · rw [if_neg hroce]
    simp [hroce]

/-- The turn of a port in the last pass. -/
theorem protocolOne_cases {net net' : NetInfo ρ} (h : snsdProtocolOne sys net = some net') :
    net'.portInfo.key = net.portInfo.key ∧
      net'.portInfo.bonding = net.portInfo.bonding ∧
      ((protocolFlag sys net.portInfo = true ∧ net'.portInfo.count = net.portInfo.count) ∨
        (protocolFlag sys net.portInfo = false ∧
          net'.portInfo.count = net.portInfo.count - 1)) := by
  unfold snsdProtocolOne at h
  dsimp only at h
  split at h
  · next hflag =>
    cases h
    exact ⟨defaultRoce_key _, defaultRoce_bonding _, Or.inl ⟨hflag, defaultRoce_count _⟩⟩
  · next hflag =>
    split at h
    · cases h
    · cases h
      exact ⟨defaultRoce_key _, defaultRoce_bonding _, Or.inr ⟨Bool.eq_false_iff.mpr hflag,
        congrArg (· - 1) (defaultRoce_count _)⟩⟩

theorem protocolOne_run {net net' : NetInfo ρ} (h : snsdProtocolOne sys net = some net') :
    net'.run = net.run := by
  unfold snsdProtocolOne at h
  dsimp only at h
  split at h
  · cases h
    rfl
  · split at h
    · cases h
    · cases h
      rfl

/-- A known port is not dropped. -/
theorem protocolOne_old (sys : NetSystem) {net : NetInfo ρ} (h : net.portInfo.newPort = false) :
    ∃ net', snsdProtocolOne sys net = some net' := by
  unfold snsdProtocolOne
  dsimp only
  split
  · exact ⟨_, rfl⟩
  · rw [defaultRoce_newPort, h]
    exact ⟨_, rfl⟩

theorem protocolOne_flag {net : NetInfo ρ} (h : protocolFlag sys net.portInfo = true) :
    snsdProtocolOne sys net = some { net with portInfo := net.portInfo.defaultRoce } := by
  unfold snsdProtocolOne
  exact if_pos h

theorem mem_protocolHandle {net' : NetInfo ρ} : net' ∈ snsdProtocolHandle sys count nets ↔
    ∃ net ∈ nets, (net.portInfo.count ≠ count ∧ net' = net) ∨
      (net.portInfo.count = count ∧ snsdProtocolOne sys net = some net') := by
  unfold snsdProtocolHandle
  rw [List.mem_filterMap]
  refine exists_congr fun net => and_congr_right fun _ => ?_
  by_cases h : net.portInfo.count = count
  · simp [h]
  · simp [h, eq_comm]

theorem keys_protocolHandle : (keys (snsdProtocolHandle sys count nets)).Sublist (keys nets) := by
  apply keys_filterMap
  intro x y h
  split at h
  · cases h
    rfl
  · exact (protocolOne_cases h).1

end Ends

section Counts
variable {c₀ v : UInt32} {m : ℕ}

/-- A count that the polls before poll `m` can have left. -/
def CountBefore (c₀ : UInt32) (m : ℕ) (v : UInt32) : Prop :=
  ∃ j ≤ m, v = c₀ + UInt32.ofNat j - 1

theorem CountBefore.succ (h : CountBefore c₀ m v) : CountBefore c₀ (m+1) v := by
  obtain ⟨j, hj, rfl⟩ := h
  exact ⟨j, by omega, rfl⟩

theorem countBefore_now : CountBefore c₀ (m+1) (c₀ + UInt32.ofNat m) := by
  refine ⟨m+1, le_refl _, ?_⟩
  rw [UInt32.ofNat_add, ← UInt32.add_assoc]
  exact (UInt32.add_sub_cancel _ _).symm

theorem countBefore_pred : CountBefore c₀ m (c₀ + UInt32.ofNat m - 1) := ⟨m, le_refl _, rfl⟩

theorem CountBefore.ne (h : CountBefore c₀ m v) (hm : m + 1 < 2^32) :
    v ≠ c₀ + UInt32.ofNat m := by
  obtain ⟨j, hj, rfl⟩ := h
  intro he
  have hsum : UInt32.ofNat j = UInt32.ofNat (m+1) := by
    rw [UInt32.ofNat_add]
    apply (UInt32.add_right_inj c₀).mp
    rw [← UInt32.add_assoc, ← he]
    exact (UInt32.sub_add_cancel _ _).symm
  have hnat := congrArg UInt32.toNat hsum
  rw [UInt32.toNat_ofNat', UInt32.toNat_ofNat', Nat.mod_eq_of_lt (by omega),
    Nat.mod_eq_of_lt hm] at hnat
  omega

end Counts

section Run
variable {ρ : Type} (pton : Pton) (s : CfgState) (fresh : ρ) (mode : SnsdMode)

/-- An interface of the snapshot with a VLAN and an entry that takes its address. -/
def Present (sys : NetSystem) (k : Bytes × Bytes) : Prop :=
  (∃ ifr ∈ sys.interfaces, ifr.key = k) ∧ HasVlan sys.vlanText k.1 ∧
    ∃ e ∈ snsdGetNetCfg s mode, CfgTakes pton s.anyflag mode e k.2

/-- The protocol handler accepts the port in a poll that begins with the list. -/
def Checked (sys : NetSystem) (count : UInt32) (nets : List (NetInfo ρ)) (k : Bytes × Bytes) :
    Prop :=
  ∃ collected, snsdAllNetInfo fresh s.anyProtocol count sys nets = .ok (collected, 0) ∧
    ∃ net ∈ snsdDealwithCfg pton s mode collected, net.portInfo.key = k ∧
      net.portInfo.count = count ∧ protocolFlag sys net.portInfo = true

/-- What the caller does between two polls: it deletes ports, and changes of the
others only what it runs them by. -/
def Handled (nets nets' : List (NetInfo ρ)) : Prop :=
  ∃ mid, mid.Sublist nets ∧ List.Forall₂ (fun a b : NetInfo ρ =>
    b.portInfo.key = a.portInfo.key ∧ b.portInfo.count = a.portInfo.count ∧
      b.portInfo.bonding.valid = a.portInfo.bonding.valid) mid nets'

/-- The list after some polls with consecutive counts, and which of its ports
passed the protocol check since they entered it. -/
inductive Polls (c₀ : UInt32) : ℕ → List (NetInfo ρ) → (Bytes × Bytes → Prop) → Prop
  | start : Polls c₀ 0 [] fun _ => False
  | poll {m nets passed sys polled ret nets'} (run : Polls c₀ m nets passed) (off : sys.NoBond)
      (poll : snsdCfgNetInfo pton s fresh mode sys (c₀ + UInt32.ofNat m) nets =
        .ok (polled, ret))
      (caller : Handled polled nets') :
      Polls c₀ (m+1) nets' fun k => k ∈ keys nets' ∧
        (passed k ∨ ret = 0 ∧ Checked pton s fresh mode sys (c₀ + UInt32.ofNat m) nets k)

variable {pton s fresh mode} {c₀ : UInt32} {m : ℕ} {sys : NetSystem}
  {nets nets' collected polled : List (NetInfo ρ)} {passed : Bytes × Bytes → Prop} {ret : ℤ}

theorem Handled.keys (h : Handled nets nets') : (keys nets').Sublist (keys nets) := by
  obtain ⟨mid, hsub, hall⟩ := h
  have hmid : Mgt.keys nets' = Mgt.keys mid := by
    induction hall generalizing nets with
    | nil => rfl
    | @cons a b as bs hab hall ih =>
      have hcons (x : NetInfo ρ) (l : List (NetInfo ρ)) :
          Mgt.keys (x :: l) = x.portInfo.key :: Mgt.keys l := rfl
      rw [hcons, hcons, hab.1, ih ((List.sublist_cons_self a as).trans hsub)]
  rw [hmid]
  exact hsub.map _

theorem Handled.from (h : Handled nets nets') {net' : NetInfo ρ} (hnet : net' ∈ nets') :
    ∃ net ∈ nets, net'.portInfo.key = net.portInfo.key ∧
      net'.portInfo.count = net.portInfo.count ∧
      net'.portInfo.bonding.valid = net.portInfo.bonding.valid := by
  obtain ⟨mid, hsub, hall⟩ := h
  obtain ⟨i, hi, rfl⟩ := List.getElem_of_mem hnet
  have hi' : i < mid.length := hall.length_eq ▸ hi
  have hrel := (List.forall₂_iff_get.mp hall).2 i hi' hi
  exact ⟨mid[i], hsub.subset (List.getElem_mem hi'), hrel⟩

/-- What holds of the list before every poll. -/
structure Settled (pton : Pton) (s : CfgState) (mode : SnsdMode) (c₀ : UInt32) (m : ℕ)
    (nets : List (NetInfo ρ)) (passed : Bytes × Bytes → Prop) : Prop where
  nodup : (keys nets).Nodup
  unbonded : ∀ net ∈ nets, net.portInfo.bonding.valid = false
  counts : ∀ net ∈ nets, CountBefore c₀ m net.portInfo.count
  roce : ∀ k, passed k → k ∈ keys nets ∧
    ∃ e, FirstTakes pton s mode k.2 e ∧ IsRoce (e.int .protocol)

theorem Settled.fresh_count (h : Settled pton s mode c₀ m nets passed) (hm : m + 1 < 2^32) :
    ∀ net ∈ nets, net.portInfo.count ≠ c₀ + UInt32.ofNat m :=
  fun net hnet => (h.counts net hnet).ne hm

theorem Collected.counts {count : UInt32} {vlanInfo : Bytes} {done : List Ifreq}
    (h : Collected count vlanInfo nets done collected) {net : NetInfo ρ} (hnet : net ∈ collected) :
    net.portInfo.count = count ∨ ∃ old ∈ nets, old.portInfo.count = net.portInfo.count := by
  by_cases hseen : net.portInfo.key ∈ done.map Ifreq.key
  · by_cases hvlan : HasVlan vlanInfo net.portInfo.name
    · exact Or.inl (h.counted net hnet hseen hvlan)
    · exact Or.inr (h.stale net hnet hseen hvlan)
  · exact Or.inr ⟨net, h.unseen net hnet hseen, rfl⟩

/-- The first pass, as far as it comes. -/
theorem Settled.collect (h : Settled pton s mode c₀ m nets passed) (hoff : sys.NoBond)
    {anyProtocol : Int32} (hall : snsdAllNetInfo fresh anyProtocol (c₀ + UInt32.ofNat m) sys nets =
      .ok (collected, ret)) :
    (ret = 0 → Collected (c₀ + UInt32.ofNat m) sys.vlanText nets sys.interfaces collected) ∧
      Settled pton s mode c₀ (m+1) collected passed := by
  have hstays : Settled pton s mode c₀ (m+1) nets passed :=
    ⟨h.nodup, h.unbonded, fun net hnet => (h.counts net hnet).succ, h.roce⟩
  have hsettled {done : List Ifreq} {mid : List (NetInfo ρ)}
      (hmid : Collected (c₀ + UInt32.ofNat m) sys.vlanText nets done mid) :
      Settled pton s mode c₀ (m+1) mid passed := by
    refine ⟨hmid.nodup, hmid.unbonded, fun net hnet => ?_, fun k hk => ?_⟩
    · rcases hmid.counts hnet with hnow | ⟨old, hold, hsame⟩
      · rw [hnow]
        exact countBefore_now
      · rw [← hsame]
        exact (h.counts old hold).succ
    · exact (h.roce k hk).imp_left (hmid.kept k)
  rcases allNetInfo_cases hall with ⟨hr, rfl⟩ | ⟨ifs, r, hifs, -, hloop⟩
  · exact ⟨fun hz => absurd hz hr, hstays⟩
  · have hinter : sys.interfaces = ifs.filter (·.family = AF_INET) := by
      rw [NetSystem.interfaces, hifs]
      rfl
    have hoff' (done : List Ifreq) (ifr : Ifreq) (hpre : done ++ [ifr] <+: sys.interfaces) :
        OffBond (bondingGroup sys.bonding) sys.vlanText (nameArray ifr.ifrName) :=
      hoff ifr (hpre.subset (by simp))
    have hrule := getLoop_rule (Collected (c₀ + UInt32.ofNat m) sys.vlanText nets)
      (fun done ifr a b hpre ha hone => ha.turn (hoff' done ifr hpre) (getOne_turn hone))
      ((List.nil_append _).trans hinter.symm) (Collected.start h.nodup h.unbonded) hloop
    rcases hrule with ⟨-, hdone⟩ | ⟨hr, mid, done, ifr, hifr, hmid, hone⟩
    · exact ⟨fun _ => hdone, hsettled hdone⟩
    · refine ⟨fun hz => absurd hz hr, ?_⟩
      have hpre := hsettled hmid
      obtain ⟨net, out, hview⟩ := (getOne_turn hone).view hmid.nodup
      -- the turn that fails keeps its entry, counted as before
      obtain ⟨x, rfl, hcount⟩ : ∃ x, out = some x ∧ x.portInfo.count = net.portInfo.count := by
        cases hview.ends with
        | fails keeps same => exact ⟨_, rfl, same⟩
        | dropped => exact absurd rfl hr
        | stale => exact absurd rfl hr
        | current => exact absurd rfl hr
      refine ⟨hview.nodup, hview.unbonded (hoff' done ifr hifr) hmid.unbonded, ?_, ?_⟩
      · intro y hy
        rcases (hview.mem y).mp hy with hout | ⟨hold, -⟩
        · cases hout
          rw [hcount]
          rcases hview.start with ⟨old, hold, -, rfl⟩ | ⟨-, rfl⟩
          · exact hpre.counts old hold
          · exact countBefore_pred.succ
        · exact hpre.counts y hold
      · intro k hk
        obtain ⟨hmem, hroce⟩ := hpre.roce k hk
        refine ⟨?_, hroce⟩
        obtain ⟨y, hy, hkey⟩ := mem_keys.mp hmem
        by_cases hne : y.portInfo.key = ifr.key
        · exact mem_keys.mpr ⟨x, (hview.mem x).mpr (Or.inl rfl),
            (hview.out_key rfl).trans (hne.symm.trans hkey)⟩
        · exact mem_keys.mpr ⟨y, (hview.mem y).mpr (Or.inr ⟨hy, hne⟩), hkey⟩

/-- The second pass drops no port that passed. -/
theorem Settled.dealwith (h : Settled pton s mode c₀ m nets passed) :
    Settled pton s mode c₀ m (snsdDealwithCfg pton s mode nets) passed := by
  refine ⟨h.nodup.sublist keys_dealwith, fun net hnet => ?_, fun net hnet => ?_, fun k hk => ?_⟩
  · obtain ⟨old, hold, e, -, hfill, -⟩ := dealwith_from hnet
    rw [hfill.keeps.bonding]
    exact h.unbonded old hold
  · obtain ⟨old, hold, e, -, hfill, -⟩ := dealwith_from hnet
    rw [hfill.keeps.count]
    exact h.counts old hold
  · obtain ⟨hmem, e, hfirst, hroce⟩ := h.roce k hk
    refine ⟨?_, e, hfirst, hroce⟩
    obtain ⟨old, hold, rfl⟩ := mem_keys.mp hmem
    obtain ⟨pre, post, hlist, -, htakes⟩ := hfirst
    obtain ⟨net, hnet, hkey, -⟩ := dealwith_keeps hold ⟨e, by rw [hlist]; simp, htakes⟩
    exact mem_keys.mpr ⟨net, hnet, hkey⟩

/-- A port that the first pass counted is listed with a VLAN. -/
theorem Settled.counted (h : Settled pton s mode c₀ m nets passed) (hm : m + 1 < 2^32)
    (hcol : Collected (c₀ + UInt32.ofNat m) sys.vlanText nets sys.interfaces collected)
    {net : NetInfo ρ} (hnet : net ∈ collected)
    (hcount : net.portInfo.count = c₀ + UInt32.ofNat m) :
    net.portInfo.key ∈ sys.interfaces.map Ifreq.key ∧
      HasVlan sys.vlanText net.portInfo.name := by
  have hne := h.fresh_count hm
  have hseen : net.portInfo.key ∈ sys.interfaces.map Ifreq.key := by
    by_contra hnot
    exact hne net (hcol.unseen net hnet hnot) hcount
  refine ⟨hseen, ?_⟩
  by_contra hvlan
  obtain ⟨old, hold, hsame⟩ := hcol.stale net hnet hseen hvlan
  exact hne old hold (hsame.trans hcount)

/-- The ports that come to the protocol check are those that are present. -/
theorem Settled.present_iff (h : Settled pton s mode c₀ m nets passed) (hm : m + 1 < 2^32)
    (hcol : Collected (c₀ + UInt32.ofNat m) sys.vlanText nets sys.interfaces collected)
    (k : Bytes × Bytes) :
    (∃ net ∈ snsdDealwithCfg pton s mode collected, net.portInfo.key = k ∧
      net.portInfo.count = c₀ + UInt32.ofNat m) ↔ Present pton s mode sys k := by
  constructor
  · intro ⟨net, hnet, hkey, hcount⟩
    obtain ⟨old, hold, e, ⟨pre, post, hlist, -, htakes⟩, hfill, -⟩ := dealwith_from hnet
    rw [hfill.keeps.count] at hcount
    rw [hfill.keeps.key] at hkey
    obtain ⟨hseen, hvlan⟩ := h.counted hm hcol hold hcount
    obtain ⟨ifr, hifr, hk⟩ := List.mem_map.mp hseen
    subst hkey
    exact ⟨⟨ifr, hifr, hk⟩, hvlan, e, by rw [hlist]; simp, htakes⟩
  · intro ⟨⟨ifr, hifr, hkey⟩, hvlan, hcfg⟩
    have hseen : k ∈ sys.interfaces.map Ifreq.key := hkey ▸ List.mem_map_of_mem hifr
    obtain ⟨old, hold, rfl⟩ := mem_keys.mp (hcol.listed k hseen hvlan)
    obtain ⟨net, hnet, hk, hcount, -⟩ := dealwith_keeps hold hcfg
    exact ⟨net, hnet, hk, hcount.trans (hcol.counted old hold hseen hvlan)⟩

/-- The handler accepts what passed before, and by its definition what it checks. -/
theorem Settled.flag_iff (h : Settled pton s mode c₀ m nets passed) (hm : m + 1 < 2^32)
    (hall : snsdAllNetInfo fresh s.anyProtocol (c₀ + UInt32.ofNat m) sys nets =
      .ok (collected, 0))
    (hcol : Collected (c₀ + UInt32.ofNat m) sys.vlanText nets sys.interfaces collected)
    {net : NetInfo ρ} (hnet : net ∈ snsdDealwithCfg pton s mode collected)
    (hcount : net.portInfo.count = c₀ + UInt32.ofNat m) :
    protocolFlag sys net.portInfo = true ↔ passed net.portInfo.key ∨
      Checked pton s fresh mode sys (c₀ + UInt32.ofNat m) nets net.portInfo.key := by
  constructor
  · intro hflag
    exact Or.inr ⟨collected, hall, net, hnet, rfl, hcount, hflag⟩
  · rintro (hpassed | ⟨collected', hall', net', hnet', hkey, -, hflag⟩)
    · obtain ⟨old, hold, e, hfirst, hfill, -⟩ := dealwith_from hnet
      obtain ⟨hmem, e', hfirst', hroce⟩ := h.roce _ hpassed
      rw [hfill.keeps.key] at hmem hfirst'
      obtain rfl : e = e' := hfirst.unique hfirst'
      obtain ⟨hseen, -⟩ := h.counted hm hcol hold (hfill.keeps.count ▸ hcount)
      have hunbonded : net.portInfo.bonding.valid = false := by
        rw [hfill.keeps.bonding]
        exact hcol.unbonded old hold
      rw [protocolFlag_iff hunbonded, hfill.protocol, hfill.keeps.newPort]
      refine ⟨hroce, fun hnew => ?_⟩
      exact absurd hmem ((hcol.entered old hold hseen).mp hnew).1
    · obtain rfl : collected' = collected :=
        congrArg Prod.fst (Except.ok.inj (hall'.symm.trans hall))
      have hnodup := hcol.nodup.sublist
        (keys_dealwith : (keys (snsdDealwithCfg pton s mode collected')).Sublist _)
      obtain rfl := eq_of_key hnodup hnet' hnet hkey
      exact hflag

/-- A port that enters with the poll, listed once, passes only where a device is
found for it. -/
theorem Settled.checked_entering (h : Settled pton s mode c₀ m nets passed) (hm : m + 1 < 2^32)
    (hoff : sys.NoBond) {k : Bytes × Bytes} (hnew : k ∉ keys nets)
    (honce : (sys.interfaces.map Ifreq.key).count k = 1)
    (hchecked : Checked pton s fresh mode sys (c₀ + UInt32.ofNat m) nets k) :
    ∃ port : PortInfo, port.key = k ∧ IsRoce port.protocol ∧ ibFinds (sys.ib port) port := by
  obtain ⟨collected, hall, net, hnet, rfl, hcount, hflag⟩ := hchecked
  obtain ⟨hcol, hnext⟩ := h.collect hoff hall
  obtain ⟨old, hold, e, -, hfill, -⟩ := dealwith_from hnet
  obtain ⟨hseen, -⟩ := h.counted hm (hcol rfl) hold (hfill.keeps.count ▸ hcount)
  rw [hfill.keeps.key] at hnew honce
  have hport := ((hcol rfl).entered old hold hseen).mpr ⟨hnew, honce⟩
  rw [protocolFlag_iff (hnext.dealwith.unbonded net hnet), hfill.keeps.newPort] at hflag
  refine ⟨net.portInfo.defaultRoce, defaultRoce_key _, ?_, hflag.2 hport⟩
  exact Or.inr ((defaultRoce_iff _).mpr hflag.1)

/-- The third pass. What passes in it is listed for good. -/
theorem Settled.protocol (h : Settled pton s mode c₀ m nets passed) (hm : m + 1 < 2^32)
    (hall : snsdAllNetInfo fresh s.anyProtocol (c₀ + UInt32.ofNat m) sys nets =
      .ok (collected, 0))
    (hcol : Collected (c₀ + UInt32.ofNat m) sys.vlanText nets sys.interfaces collected)
    (hnext : Settled pton s mode c₀ (m+1) (snsdDealwithCfg pton s mode collected) passed) :
    Settled pton s mode c₀ (m+1)
      (snsdProtocolHandle sys (c₀ + UInt32.ofNat m) (snsdDealwithCfg pton s mode collected))
      (fun k => passed k ∨ Checked pton s fresh mode sys (c₀ + UInt32.ofNat m) nets k) := by
  refine ⟨hnext.nodup.sublist keys_protocolHandle, fun net' hnet' => ?_, fun net' hnet' => ?_,
    fun k hk => ?_⟩
  · obtain ⟨net, hnet, ⟨-, rfl⟩ | ⟨-, hone⟩⟩ := mem_protocolHandle.mp hnet'
    · exact hnext.unbonded _ hnet
    · rw [(protocolOne_cases hone).2.1]
      exact hnext.unbonded net hnet
  · obtain ⟨net, hnet, ⟨-, rfl⟩ | ⟨hcount, hone⟩⟩ := mem_protocolHandle.mp hnet'
    · exact hnext.counts _ hnet
    · obtain ⟨-, -, ⟨-, hsame⟩ | ⟨-, hless⟩⟩ := protocolOne_cases hone
      · rw [hsame, hcount]
        exact countBefore_now
      · rw [hless, hcount]
        exact countBefore_pred.succ
  · -- the entry is in the list that the check begins with
    obtain ⟨net, hnet, hkey, hroce⟩ : ∃ net ∈ snsdDealwithCfg pton s mode collected,
        net.portInfo.key = k ∧ ∃ e, FirstTakes pton s mode k.2 e ∧ IsRoce (e.int .protocol) := by
      rcases hk with hpassed | ⟨collected', hall', net, hnet, hkey, hcount, hflag⟩
      · obtain ⟨hmem, hroce⟩ := hnext.roce k hpassed
        obtain ⟨net, hnet, hkey⟩ := mem_keys.mp hmem
        exact ⟨net, hnet, hkey, hroce⟩
      · obtain rfl : collected' = collected :=
          congrArg Prod.fst (Except.ok.inj (hall'.symm.trans hall))
        refine ⟨net, hnet, hkey, ?_⟩
        obtain ⟨old, hold, e, hfirst, hfill, -⟩ := dealwith_from hnet
        rw [protocolFlag_iff (hnext.unbonded net hnet), hfill.protocol] at hflag
        refine ⟨e, ?_, hflag.1⟩
        rw [← hkey, hfill.keeps.key]
        exact hfirst
    refine ⟨?_, hroce⟩
    by_cases hcount : net.portInfo.count = c₀ + UInt32.ofNat m
    · have hflag := (h.flag_iff hm hall hcol hnet hcount).mpr (hkey.symm ▸ hk)
      have hone := protocolOne_flag hflag
      exact mem_keys.mpr ⟨_, mem_protocolHandle.mpr ⟨net, hnet, Or.inr ⟨hcount, hone⟩⟩,
        (protocolOne_cases hone).1.trans hkey⟩
    · exact mem_keys.mpr ⟨net, mem_protocolHandle.mpr ⟨net, hnet, Or.inl ⟨hcount, rfl⟩⟩, hkey⟩

theorem Settled.handled (h : Settled pton s mode c₀ m polled passed)
    (hcaller : Handled polled nets') :
    Settled pton s mode c₀ m nets' (fun k => k ∈ keys nets' ∧ passed k) := by
  refine ⟨h.nodup.sublist hcaller.keys, fun net hnet => ?_, fun net hnet => ?_, fun k hk => ?_⟩
  · obtain ⟨old, hold, -, -, hvalid⟩ := hcaller.from hnet
    rw [hvalid]
    exact h.unbonded old hold
  · obtain ⟨old, hold, -, hcount, -⟩ := hcaller.from hnet
    rw [hcount]
    exact h.counts old hold
  · exact ⟨hk.1, (h.roce k hk.2).2⟩

/-- One poll and what the caller does after it. -/
theorem Settled.poll (h : Settled pton s mode c₀ m nets passed) (hm : m + 1 < 2^32)
    (hoff : sys.NoBond)
    (hpoll : snsdCfgNetInfo pton s fresh mode sys (c₀ + UInt32.ofNat m) nets = .ok (polled, ret)) :
    Settled pton s mode c₀ (m+1) polled (fun k => passed k ∨
      ret = 0 ∧ Checked pton s fresh mode sys (c₀ + UInt32.ofNat m) nets k) := by
  have hfail (hr : ret ≠ 0) (hset : Settled pton s mode c₀ (m+1) polled passed) :
      Settled pton s mode c₀ (m+1) polled (fun k => passed k ∨
        ret = 0 ∧ Checked pton s fresh mode sys (c₀ + UInt32.ofNat m) nets k) :=
    ⟨hset.nodup, hset.unbonded, hset.counts,
      fun k hk => hset.roce k (hk.resolve_right fun hz => hr hz.1)⟩
  rcases cfgNetInfo_cases hpoll with ⟨hr, rfl⟩ | ⟨collected, r, hall, hends⟩
  · exact hfail hr ⟨h.nodup, h.unbonded, fun net hnet => (h.counts net hnet).succ, h.roce⟩
  · obtain ⟨hcol, hset⟩ := h.collect hoff hall
    rcases hends with ⟨hr, -, rfl⟩ | ⟨rfl, rfl, rfl⟩
    · exact hfail hr hset
    · have hdone := h.protocol hm hall (hcol rfl) hset.dealwith
      refine ⟨hdone.nodup, hdone.unbonded, hdone.counts, fun k hk => hdone.roce k ?_⟩
      exact hk.imp_right And.right

theorem polls_settled (h : Polls pton s fresh mode c₀ m nets passed) (hm : m < 2^32) :
    Settled pton s mode c₀ m nets passed := by
  induction h with
  | start =>
    refine ⟨List.nodup_nil, ?_, ?_, fun k hk => absurd hk id⟩
    · exact fun net hnet => absurd hnet List.not_mem_nil
    · exact fun net hnet => absurd hnet List.not_mem_nil
  | poll run off poll caller ih => exact ((ih (by omega)).poll hm off poll).handled caller

end Run

/-! A first poll with one interface on a VLAN. -/

def sampleIfreq : Ifreq where
  ifrName := ascii "e.5"
  family := AF_INET
  addr := [10, 0, 0, 1]
  hwaddr := some [2, 0, 0, 0, 0, 1]
  ifrFlags := some IFF_RUNNING
  ifindex := fun _ => some 7
  slaves := fun _ => none

def sampleSystem : NetSystem where
  ifconf := some [sampleIfreq]
  bonding := none
  vlan := some (ascii "e.5|5|e\n")
  ib := fun _ => some [⟨ascii "mlx", some [ascii "e"]⟩]
  uninit := 0

/-- Any address is taken, by one entry. -/
def sampleCfg : CfgState :=
  { clearState with anyflag := .yes, swInfoList := [⟨CfgFields.zero, .sw⟩] }

def samplePton : Pton := fun _ _ => none

theorem sample_noBond : sampleSystem.NoBond := fun _ _ _ _ _ _ _ _ => rfl

end NvmeSnsd.Mgt
