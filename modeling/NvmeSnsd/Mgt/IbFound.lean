import NvmeSnsd.Mgt.PollRun

/-! Which ports of the list were found among the InfiniBand devices. -/
namespace NvmeSnsd.Mgt
open Lib Cfg

/-- The slaves of a device are read, and every one is known. -/
def SlavesAnswered (ifr : Ifreq) (phy : Bytes) : Prop :=
  ∃ text, ifr.slaves phy = some text ∧ ∀ name ∈ endedNames SNSD_MAX_SLAVES (cstr text),
    name.length < IFNAMSIZ ∧ ifr.ifindex name ≠ none

/-- Every call that a poll makes for the interface is answered; `bonded` tells
that its entry is on a bond. -/
structure Answered (group : List Bytes) (vlanInfo : Bytes) (bonded : Prop) (ifr : Ifreq) :
    Prop where
  mac : ifr.hwaddr ≠ none
  flags : ifr.ifrFlags ≠ none
  index : ∀ pos,
    snsdFillVlan (nameArray ifr.ifrName) vlanInfo = .ok (SNSD_INVALID_VLAN, pos) →
      ifr.ifindex (cstr (nameArray ifr.ifrName)) ≠ none
  phy : ∀ vlan pos, snsdFillVlan (nameArray ifr.ifrName) vlanInfo = .ok (vlan, pos) →
    vlan ≠ SNSD_INVALID_VLAN → ∃ phy, snsdGetPhyIfname vlanInfo pos = some phy ∧
      ifr.ifindex phy ≠ none ∧ (bonded ∨ snsdIsBonding group phy = true → SlavesAnswered ifr phy)

section Slaves
variable {ifindex : Bytes → Option ℕ} {names : List Bytes} {info : BondingInfo}

theorem createSlave_answered {name : Bytes} (hlen : name.length < IFNAMSIZ)
    (hindex : ifindex name ≠ none) : (snsdCreateSlave ifindex name info).2 = 0 := by
  unfold snsdCreateSlave
  rw [if_neg (by omega)]
  obtain ⟨index, hsome⟩ := Option.ne_none_iff_exists'.mp hindex
  rw [hsome]

theorem createSlaves_answered
    (h : ∀ name ∈ names, name.length < IFNAMSIZ ∧ ifindex name ≠ none) :
    (createSlaves ifindex names info).2 = 0 := by
  induction names generalizing info with
  | nil => rfl
  | cons name names ih =>
    obtain ⟨hname, hnames⟩ := List.forall_mem_cons.mp h
    have hone : (snsdCreateSlave ifindex name info).2 = 0 := createSlave_answered hname.1 hname.2
    unfold createSlaves
    split
    · exact ih hnames
    · next hret heq =>
      rw [heq] at hone
      exact absurd hone hret

theorem keepSlaves_answered
    (h : ∀ name ∈ names, name.length < IFNAMSIZ ∧ ifindex name ≠ none) :
    (keepSlaves ifindex names info).2 = 0 := by
  induction names generalizing info with
  | nil => rfl
  | cons name names ih =>
    obtain ⟨hname, hnames⟩ := List.forall_mem_cons.mp h
    unfold keepSlaves
    dsimp only
    split
    · have hone : (snsdCreateSlave ifindex name
          { info with slave := (snsdNeedNewSlave name info.slave).1 }).2 = 0 :=
        createSlave_answered hname.1 hname.2
      split
      · exact ih hnames
      · next hret heq =>
        rw [heq] at hone
        exact absurd hone hret
    · exact ih hnames

theorem refreshSlaves_answered {slaves : Option Bytes}
    (h : ∀ text, slaves = some text → ∀ name ∈ endedNames SNSD_MAX_SLAVES (cstr text),
      name.length < IFNAMSIZ ∧ ifindex name ≠ none) :
    (refreshSlaves ifindex slaves info).2 = 0 := by
  unfold refreshSlaves
  cases slaves with
  | none => rfl
  | some text => exact keepSlaves_answered (h text rfl)

theorem verifySlave_answered {slaves : Option Bytes} {r : BondingInfo × ℤ}
    (h : ∀ text, slaves = some text → ∀ name ∈ endedNames SNSD_MAX_SLAVES (cstr text),
      name.length < IFNAMSIZ ∧ ifindex name ≠ none)
    (hr : snsdVerifySlave ifindex slaves info = .ok r) : r.2 = 0 := by
  unfold snsdVerifySlave at hr
  split at hr
  · cases hr
  · split_ifs at hr
    · cases hr
      rfl
    · cases hr
      exact refreshSlaves_answered h
  · cases hr
    exact refreshSlaves_answered h

theorem getSlave_answered {slaves : Option Bytes}
    (h : ∀ text, slaves = some text → ∀ name ∈ endedNames SNSD_MAX_SLAVES (cstr text),
      name.length < IFNAMSIZ ∧ ifindex name ≠ none) :
    (snsdGetSlave ifindex slaves info).2 = 0 := by
  unfold snsdGetSlave
  cases slaves with
  | none => rfl
  | some text => exact createSlaves_answered (h text rfl)

theorem checkGetSlave_answered {ifr : Ifreq} {group : List Bytes} {phy : Bytes}
    {r : BondingInfo × ℤ}
    (h : info.valid = true ∨ snsdIsBonding group phy = true → SlavesAnswered ifr phy)
    (hr : snsdCheckGetSlave ifr.ifindex group phy (ifr.slaves phy) info = .ok r) : r.2 = 0 := by
  unfold snsdCheckGetSlave at hr
  split at hr
  · cases hr
    rfl
  · next hbond =>
    have hon : info.valid = true ∨ snsdIsBonding group phy = true := by
      simpa [or_iff_not_imp_left] using hbond
    obtain ⟨text, htext, hnames⟩ := h hon
    have hslaves (t : Bytes) (ht : (if text = [] then none else some text) = some t) :
        ∀ name ∈ endedNames SNSD_MAX_SLAVES (cstr t),
          name.length < IFNAMSIZ ∧ ifr.ifindex name ≠ none := by
      split at ht
      · cases ht
      · cases ht
        exact hnames
    rw [htext] at hr
    dsimp only at hr
    split at hr
    · exact verifySlave_answered hslaves hr
    · cases hr
      exact getSlave_answered hslaves

end Slaves

section Answered
variable {ρ : Type} {fresh : ρ} {anyProtocol : Int32} {count : UInt32} {group : List Bytes}
  {vlanInfo : Bytes} {bonded : Prop} {ifr : Ifreq} {nets nets' : List (NetInfo ρ)} {ret : ℤ}

theorem Answered.mixInfo {p q : PortInfo} (h : Answered group vlanInfo bonded ifr)
    (hname : p.name = nameArray ifr.ifrName)
    (hbonded : p.bonding.valid = true → bonded ∨ ¬ OffBond group vlanInfo p.name)
    (hr : snsdGetMixInfo ifr group vlanInfo p = .ok (q, ret)) : ret = 0 := by
  unfold snsdGetMixInfo at hr
  obtain ⟨⟨vlan, pos⟩, hfill, hr⟩ := bind_eq_ok.mp hr
  obtain ⟨⟨p₁, name, r⟩, hphy, hr⟩ := bind_eq_ok.mp hr
  dsimp only at hr hphy
  rw [hname] at hfill
  have hends : r = 0 ∧ ifr.ifindex name ≠ none := by
    split at hphy
    · next hinvalid =>
      cases hphy
      subst hinvalid
      rw [hname]
      exact ⟨rfl, h.index pos hfill⟩
    · next hvalid =>
      obtain ⟨phy, hget, hindex, hslaves⟩ := h.phy vlan pos hfill hvalid
      unfold snsdGetPhy at hphy
      rw [hget] at hphy
      obtain ⟨⟨bonding, r'⟩, hslave, hphy⟩ := bind_eq_ok.mp hphy
      have hon (hon : p.bonding.valid = true ∨ snsdIsBonding group phy = true) :
          bonded ∨ snsdIsBonding group phy = true := by
        rcases hon with hvalid | hgroup
        · refine (hbonded hvalid).imp_right fun hoff => ?_
          by_contra hnot
          apply hoff
          intro vlan' pos' phy' hfill' _ hget'
          rw [hname, hfill] at hfill'
          cases hfill'
          rw [hget] at hget'
          cases hget'
          exact Bool.eq_false_iff.mpr hnot
        · exact Or.inr hgroup
      have hzero : r' = 0 := checkGetSlave_answered (fun h => hslaves (hon h)) hslave
      dsimp only at hphy
      rw [if_neg (not_not.mpr hzero)] at hphy
      cases hphy
      exact ⟨rfl, hindex⟩
  rw [if_neg (not_not.mpr hends.1)] at hr
  obtain ⟨index, hsome⟩ := Option.ne_none_iff_exists'.mp hends.2
  rw [hsome] at hr
  cases hr
  rfl

/-- With every call answered the turn does not fail. -/
theorem Answered.getOne (h : Answered group vlanInfo bonded ifr)
    (hbonded : ∀ net ∈ nets, net.portInfo.key = ifr.key → net.portInfo.bonding.valid = true →
      bonded ∨ ¬ OffBond group vlanInfo net.portInfo.name)
    (hr : snsdGetOne fresh anyProtocol count group vlanInfo ifr nets = .ok (nets', ret)) :
    ret = 0 := by
  unfold snsdGetOne at hr
  rcases hstart : snsdTryFindOld fresh count ifr nets with ⟨pre, net, post⟩
  have hnet : net.portInfo.key = ifr.key ∧ (net.portInfo.bonding.valid = true →
      bonded ∨ ¬ OffBond group vlanInfo net.portInfo.name) := by
    cases tryFindOld_starts hstart with
    | @old pre old post split key first =>
      have hold : old ∈ nets := by
        rw [split]
        simp
      exact ⟨key, hbonded old hold key⟩
    | new absent => exact ⟨getNew_key, fun hv => absurd hv Bool.false_ne_true⟩
  obtain ⟨mac, hmac⟩ := Option.ne_none_iff_exists'.mp h.mac
  obtain ⟨flags, hflags⟩ := Option.ne_none_iff_exists'.mp h.flags
  have hmacs : snsdGetMacAndFlags ifr net.portInfo =
      ({ net.portInfo with mac := mac, flags := flags }, 0) := by
    unfold snsdGetMacAndFlags
    rw [hmac, hflags]
  rw [hstart] at hr
  dsimp only at hr
  rw [hmacs] at hr
  dsimp only at hr
  rw [if_neg (not_not.mpr rfl)] at hr
  obtain ⟨⟨p, r⟩, hmix, hr⟩ := bind_eq_ok.mp hr
  have hname : net.portInfo.name = nameArray ifr.ifrName := congrArg Prod.fst hnet.1
  have hzero : r = 0 := by
    refine h.mixInfo ?_ ?_ hmix
    · exact hname
    · exact hnet.2
  dsimp only at hr
  rw [if_neg (not_not.mpr hzero)] at hr
  split at hr
  · split at hr
    · cases hr
      rfl
    · cases hr
      rfl
  · cases hr
    rfl

end Answered

section Found
variable {ρ : Type} (pton : Pton) (s : CfgState) (fresh : ρ) (mode : SnsdMode)

/-- In the poll `snsd_protocol_ib` looks for the physical interface of the port
and finds it. -/
def IbFound (sys : NetSystem) (count : UInt32) (nets : List (NetInfo ρ)) (k : Bytes × Bytes) :
    Prop :=
  ∃ collected, snsdAllNetInfo fresh s.anyProtocol count sys nets = .ok (collected, 0) ∧
    ∃ net ∈ snsdDealwithCfg pton s mode collected, net.portInfo.key = k ∧
      net.portInfo.count = count ∧ IsRoce net.portInfo.protocol ∧
      net.portInfo.newPort = true ∧ net.portInfo.bonding.valid = false ∧
      ibFinds (sys.ib net.portInfo.defaultRoce) net.portInfo.defaultRoce = true

/-- The list after some polls that began with `ok`, and which of its ports were
found since they entered it. -/
inductive IbPolls (ok : NetSystem → List (NetInfo ρ) → Prop) (c₀ : UInt32) :
    ℕ → List (NetInfo ρ) → (Bytes × Bytes → Prop) → Prop
  | start : IbPolls ok c₀ 0 [] fun _ => False
  | poll {m nets found sys polled ret nets'} (run : IbPolls ok c₀ m nets found)
      (begins : ok sys nets)
      (poll : snsdCfgNetInfo pton s fresh mode sys (c₀ + UInt32.ofNat m) nets =
        .ok (polled, ret))
      (caller : Handled polled nets') :
      IbPolls ok c₀ (m+1) nets' fun k => k ∈ keys nets' ∧
        (found k ∨ ret = 0 ∧ IbFound pton s fresh mode sys (c₀ + UInt32.ofNat m) nets k)

/-- A poll that comes to an interface without an entry gets every answer from then
on, and has such an interface once. -/
structure NewAnswered (sys : NetSystem) (nets : List (NetInfo ρ)) : Prop where
  once : ∀ ifr ∈ sys.interfaces, ifr.key ∉ keys nets → HasVlan sys.vlanText ifr.key.1 →
    (sys.interfaces.map Ifreq.key).count ifr.key = 1
  answered : sys.FilesRead → ∀ done ifr, done ++ [ifr] <+: sys.interfaces →
    (ifr.key ∉ keys nets ∨ ∃ x ∈ done, x.key ∉ keys nets ∧ HasVlan sys.vlanText x.key.1) →
      Answered (bondingGroup sys.bonding) sys.vlanText
        (∃ old ∈ nets, old.portInfo.key = ifr.key ∧ old.portInfo.bonding.valid = true) ifr

variable {pton s fresh mode} {c₀ count : UInt32} {m : ℕ} {sys : NetSystem} {done : List Ifreq}
  {ifr : Ifreq} {nets₀ nets nets' collected polled : List (NetInfo ρ)}
  {found : Bytes × Bytes → Prop} {ret : ℤ}

/-- The list in the middle of a poll: an entry that was not there before is new and
counts for the poll. -/
structure Entering (sys : NetSystem) (count : UInt32) (nets₀ : List (NetInfo ρ))
    (done : List Ifreq) (nets : List (NetInfo ρ)) : Prop where
  nodup : (keys nets).Nodup
  kept : ∀ k ∈ keys nets₀, k ∈ keys nets
  entry : ∀ net ∈ nets, net.portInfo.key ∈ keys nets₀ ∨
    (∃ x ∈ done, x.key = net.portInfo.key ∧ x.key ∉ keys nets₀ ∧ HasVlan sys.vlanText x.key.1) ∧
      net.portInfo.newPort = true ∧ net.portInfo.count = count
  valid : ∀ net ∈ nets, ∀ old ∈ nets₀, old.portInfo.key = net.portInfo.key →
    old.portInfo.bonding.valid = true → net.portInfo.bonding.valid = true
  bonded : ∀ net ∈ nets, net.portInfo.bonding.valid = true →
    (∃ old ∈ nets₀, old.portInfo.key = net.portInfo.key ∧ old.portInfo.bonding.valid = true) ∨
      ¬ OffBond (bondingGroup sys.bonding) sys.vlanText net.portInfo.name

theorem Entering.start (hnodup : (keys nets₀).Nodup) : Entering sys count nets₀ [] nets₀ where
  nodup := hnodup
  kept := fun _ hk => hk
  entry := fun _ hnet => Or.inl (List.mem_map_of_mem hnet)
  valid := fun _ hnet _ hold hkey hvalid => eq_of_key hnodup hold hnet hkey ▸ hvalid
  bonded := fun net hnet hvalid => Or.inl ⟨net, hnet, rfl, hvalid⟩

/-- A bond that a turn finds or leaves. -/
theorem Entering.turn_bond (h : Entering sys count nets₀ done nets) {anyProtocol : Int32}
    {net : NetInfo ρ} {out : Option (NetInfo ρ)}
    (hview : TurnView fresh anyProtocol count (bondingGroup sys.bonding) sys.vlanText ifr nets nets'
      ret net out) {x : NetInfo ρ} (hx : x ∈ out) :
    (∀ old ∈ nets₀, old.portInfo.key = ifr.key → old.portInfo.bonding.valid = true →
      x.portInfo.bonding.valid = true) ∧
    (x.portInfo.bonding.valid = true →
      (∃ old ∈ nets₀, old.portInfo.key = ifr.key ∧ old.portInfo.bonding.valid = true) ∨
        ¬ OffBond (bondingGroup sys.bonding) sys.vlanText x.portInfo.name) := by
  have hkeeps : PollKeeps net.portInfo x.portInfo := by
    cases hview.ends with
    | dropped => cases hx
    | fails keeps | stale keeps | current keeps =>
      cases hx
      exact keeps
  constructor
  · intro old₀ hold₀ hkey₀ hvalid
    apply hkeeps.bonded
    rcases hview.start with ⟨old, hold, hkey, rfl⟩ | ⟨habsent, rfl⟩
    · exact h.valid old hold old₀ hold₀ (hkey₀.trans hkey.symm) hvalid
    · exact absurd (h.kept _ (mem_keys.mpr ⟨old₀, hold₀, hkey₀⟩)) habsent
  · intro hvalid
    by_cases hoff : OffBond (bondingGroup sys.bonding) sys.vlanText x.portInfo.name
    · left
      have hnet : net.portInfo.bonding.valid = true := by
        by_contra hnot
        rw [hkeeps.name] at hoff
        have hfalse := hview.ends.unbonded hoff (Bool.eq_false_iff.mpr hnot) hx
        exact Bool.false_ne_true (hfalse.symm.trans hvalid)
      rcases hview.start with ⟨old, hold, hkey, rfl⟩ | ⟨-, rfl⟩
      · rcases h.bonded old hold hnet with hbond | hnoff
        · exact hkey ▸ hbond
        · exact absurd (hkeeps.name ▸ hoff) hnoff
      · cases hnet
    · exact Or.inr hoff

/-- The entries that a turn does not touch, and those it leaves. -/
theorem Entering.turn_kept (h : Entering sys count nets₀ done nets) {anyProtocol : Int32}
    (hturn : Turn fresh anyProtocol count (bondingGroup sys.bonding) sys.vlanText ifr nets nets'
      ret) :
    (keys nets').Nodup ∧ (∀ k ∈ keys nets₀, k ∈ keys nets') ∧
      (∀ net ∈ nets', ∀ old ∈ nets₀, old.portInfo.key = net.portInfo.key →
        old.portInfo.bonding.valid = true → net.portInfo.bonding.valid = true) ∧
      ∀ net ∈ nets', net.portInfo.bonding.valid = true →
        (∃ old ∈ nets₀, old.portInfo.key = net.portInfo.key ∧
          old.portInfo.bonding.valid = true) ∨
        ¬ OffBond (bondingGroup sys.bonding) sys.vlanText net.portInfo.name := by
  obtain ⟨net, out, hview⟩ := hturn.view h.nodup
  refine ⟨hview.nodup, fun k hk => ?_, fun x hx => ?_, fun x hx => ?_⟩
  · obtain ⟨old, hold, hkey⟩ := mem_keys.mp (h.kept k hk)
    by_cases hne : k = ifr.key
    · -- an entry of the list before is not new, so the turn does not drop it
      have hsome : ∃ y, y ∈ out := by
        cases hview.ends with
        | dropped new =>
          rcases hview.start with ⟨_, _, _, rfl⟩ | ⟨habsent, -⟩
          · cases new
          · exact absurd (hne ▸ h.kept k hk) habsent
        | fails | stale | current => exact ⟨_, rfl⟩
      obtain ⟨y, hy⟩ := hsome
      exact mem_keys.mpr ⟨y, (hview.mem y).mpr (Or.inl hy), (hview.out_key hy).trans hne.symm⟩
    · exact mem_keys.mpr ⟨old, (hview.mem old).mpr (Or.inr ⟨hold, hkey ▸ hne⟩), hkey⟩
  · rcases (hview.mem x).mp hx with hout | ⟨hold, -⟩
    · rw [hview.out_key hout]
      exact (h.turn_bond hview hout).1
    · exact h.valid x hold
  · rcases (hview.mem x).mp hx with hout | ⟨hold, -⟩
    · rw [hview.out_key hout]
      exact (h.turn_bond hview hout).2
    · exact h.bonded x hold

theorem Entering.turn (h : Entering sys count nets₀ done nets) {anyProtocol : Int32}
    (hok : NewAnswered sys nets₀) (hpre : done ++ [ifr] <+: sys.interfaces)
    (hturn : Turn fresh anyProtocol count (bondingGroup sys.bonding) sys.vlanText ifr nets nets'
      0) : Entering sys count nets₀ (done ++ [ifr]) nets' := by
  obtain ⟨hnodup, hkept, hvalid, hbonded⟩ := h.turn_kept hturn
  refine ⟨hnodup, hkept, fun x hx => ?_, hvalid, hbonded⟩
  obtain ⟨net, out, hview⟩ := hturn.view h.nodup
  rcases (hview.mem x).mp hx with hout | ⟨hold, -⟩
  · by_cases hold : ifr.key ∈ keys nets₀
    · exact Or.inl (hview.out_key hout ▸ hold)
    right
    have hmem : ifr ∈ done ++ [ifr] := List.mem_append_right _ List.mem_cons_self
    rcases hview.start with ⟨old, hmid, hkey, rfl⟩ | ⟨-, rfl⟩
    · -- an entry of this poll, so the interface is listed again
      rcases h.entry old hmid with hin | ⟨⟨y, hy, hykey, hynew, hyvlan⟩, -, -⟩
      · exact absurd (hkey ▸ hin) hold
      rw [hkey] at hykey
      have honce := hok.once ifr (hpre.subset hmem) hold (hykey ▸ hyvlan)
      have htwice := (hpre.sublist.map Ifreq.key).count_le ifr.key
      have hseen : 0 < (done.map Ifreq.key).count ifr.key :=
        List.count_pos_iff.mpr (hykey ▸ List.mem_map_of_mem hy)
      rw [List.map_append, List.count_append, List.map_singleton, List.count_singleton_self,
        honce] at htwice
      omega
    · have hname : (snsdGetNew fresh count ifr).portInfo.name = ifr.key.1 :=
        congrArg Prod.fst hview.start_key
      cases hview.ends with
      | fails keeps same vlan unbonded fail => exact absurd rfl fail
      | dropped => cases hout
      | stale keeps same known => cases known
      | current keeps set any hasVlan valid =>
        cases hout
        refine ⟨⟨ifr, hmem, (hview.out_key rfl).symm, hold, ?_⟩, keeps.newPort, set⟩
        exact hname ▸ hasVlan.hasVlan valid
  · exact (h.entry x hold).imp_right
      (And.imp_left fun ⟨y, hy, hrest⟩ => ⟨y, List.mem_append_left _ hy, hrest⟩)

/-- A turn that fails had no new entry before it, and adds none. -/
theorem Entering.fails (h : Entering sys count nets₀ done nets) {anyProtocol : Int32}
    (hok : NewAnswered sys nets₀) (hfiles : sys.FilesRead)
    (hpre : done ++ [ifr] <+: sys.interfaces)
    (hone : snsdGetOne fresh anyProtocol count (bondingGroup sys.bonding) sys.vlanText ifr nets =
      .ok (nets', ret)) (hr : ret ≠ 0) : ∀ x ∈ nets', x.portInfo.key ∈ keys nets₀ := by
  have hnot : ¬ (ifr.key ∉ keys nets₀ ∨
      ∃ x ∈ done, x.key ∉ keys nets₀ ∧ HasVlan sys.vlanText x.key.1) := by
    intro hnew
    apply hr
    apply (hok.answered hfiles done ifr hpre hnew).getOne _ hone
    intro net hnet hkey hvalid
    exact hkey ▸ h.bonded net hnet hvalid
  rw [not_or, not_not] at hnot
  obtain ⟨net, out, hview⟩ := (getOne_turn hone).view h.nodup
  intro x hx
  rcases (hview.mem x).mp hx with hout | ⟨hold, -⟩
  · exact hview.out_key hout ▸ hnot.1
  · rcases h.entry x hold with hin | ⟨⟨y, hy, -, hynew, hyvlan⟩, -, -⟩
    · exact hin
    · exact absurd ⟨y, hy, hynew, hyvlan⟩ hnot.2

/-- The list after the first pass of a poll. -/
structure Gathered (count : UInt32) (nets₀ nets : List (NetInfo ρ)) (ret : ℤ) : Prop where
  nodup : (keys nets).Nodup
  entry : ∀ net ∈ nets, net.portInfo.key ∈ keys nets₀ ∨
    ret = 0 ∧ net.portInfo.newPort = true ∧ net.portInfo.count = count
  valid : ∀ net ∈ nets, ∀ old ∈ nets₀, old.portInfo.key = net.portInfo.key →
    old.portInfo.bonding.valid = true → net.portInfo.bonding.valid = true

theorem gathered (hnodup : (keys nets).Nodup) (hok : NewAnswered sys nets) {anyProtocol : Int32}
    (hall : snsdAllNetInfo fresh anyProtocol count sys nets = .ok (collected, ret)) :
    Gathered count nets collected ret := by
  have hstart : Entering sys count nets [] nets := Entering.start hnodup
  rcases allNetInfo_cases hall with ⟨hr, rfl⟩ | ⟨ifs, r, hifs, hfiles, hloop⟩
  · exact ⟨hnodup, fun net hnet => Or.inl (List.mem_map_of_mem hnet), hstart.valid⟩
  have hinter : [] ++ ifs.filter (·.family = AF_INET) = sys.interfaces := by
    rw [NetSystem.interfaces, hifs]
    rfl
  have hrule := getLoop_rule (Entering sys count nets)
    (fun done ifr a b hpre h hone => h.turn hok hpre (getOne_turn hone)) hinter hstart hloop
  rcases hrule with ⟨hret, hend⟩ | ⟨hr, mid, done, ifr, hpre, hmid, hone⟩
  · refine ⟨hend.nodup, fun net hnet => (hend.entry net hnet).imp_right fun hnew => ?_,
      hend.valid⟩
    obtain ⟨⟨x, hx, -⟩, hrest⟩ := hnew
    rcases hret with hzero | ⟨-, hnil⟩
    · exact ⟨hzero, hrest⟩
    · rw [hnil] at hx
      cases hx
  · obtain ⟨hkeys, -, hvalid, -⟩ := hmid.turn_kept (getOne_turn hone)
    exact ⟨hkeys, fun x hx => Or.inl (hmid.fails hok hfiles hpre hone hr x hx), hvalid⟩

theorem protocolOne_new {net net' : NetInfo ρ} (hnew : net.portInfo.newPort = true)
    (h : snsdProtocolOne sys net = some net') : protocolFlag sys net.portInfo = true := by
  unfold snsdProtocolOne at h
  dsimp only at h
  split at h
  · assumption
  · rw [defaultRoce_newPort, if_pos hnew] at h
    cases h

/-- Every port off a bond was found since it entered the list. -/
def AllFound (nets : List (NetInfo ρ)) (found : Bytes × Bytes → Prop) : Prop :=
  ∀ net ∈ nets, net.portInfo.bonding.valid = false → found net.portInfo.key

/-- What one poll leaves in the list. -/
theorem allFound_poll (hnodup : (keys nets).Nodup) (h : AllFound nets found)
    (hok : NewAnswered sys nets)
    (hpoll : snsdCfgNetInfo pton s fresh mode sys count nets = .ok (polled, ret)) :
    (keys polled).Nodup ∧ AllFound polled fun k =>
      found k ∨ ret = 0 ∧ IbFound pton s fresh mode sys count nets k := by
  have hold (mid : List (NetInfo ρ)) (r : ℤ) (hg : Gathered count nets mid r) (net : NetInfo ρ)
      (hnet : net ∈ mid) (hkey : net.portInfo.key ∈ keys nets)
      (hvalid : net.portInfo.bonding.valid = false) : found net.portInfo.key := by
    obtain ⟨old, hmem, hk⟩ := mem_keys.mp hkey
    rw [← hk]
    apply h old hmem
    by_contra hbond
    have hnow := hg.valid net hnet old hmem hk (Bool.eq_true_of_not_eq_false hbond)
    exact Bool.false_ne_true (hvalid.symm.trans hnow)
  rcases cfgNetInfo_cases hpoll with ⟨hr, rfl⟩ | ⟨collected, r, hall, ⟨hr, hr', rfl⟩ | ⟨rfl, rfl, rfl⟩⟩
  · exact ⟨hnodup, fun net hnet hvalid => Or.inl (h net hnet hvalid)⟩
  · have hg := gathered hnodup hok hall
    refine ⟨hg.nodup, fun net hnet hvalid => Or.inl (hold _ r hg net hnet ?_ hvalid)⟩
    exact (hg.entry net hnet).resolve_right fun hnew => hr' hnew.1
  · have hg := gathered hnodup hok hall
    refine ⟨(hg.nodup.sublist keys_dealwith).sublist keys_protocolHandle, fun net' hnet' hvalid => ?_⟩
    obtain ⟨net, hnet, hends⟩ := mem_protocolHandle.mp hnet'
    obtain ⟨old, hmem, e, -, hfill, -⟩ := dealwith_from hnet
    have hsame : net'.portInfo.key = net.portInfo.key ∧
        net'.portInfo.bonding = net.portInfo.bonding := by
      rcases hends with ⟨-, rfl⟩ | ⟨-, hone⟩
      · exact ⟨rfl, rfl⟩
      · exact ⟨(protocolOne_cases hone).1, (protocolOne_cases hone).2.1⟩
    rw [hsame.2] at hvalid
    rw [hsame.1]
    rcases hg.entry old hmem with hin | ⟨-, hnew, hcount⟩
    · rw [hfill.keeps.key]
      exact Or.inl (hold _ 0 hg old hmem hin (hfill.keeps.bonding ▸ hvalid))
    · right
      -- a new entry is checked, and stays only where its device is found
      rw [← hfill.keeps.newPort] at hnew
      rw [← hfill.keeps.count] at hcount
      rcases hends with ⟨hne, -⟩ | ⟨-, hone⟩
      · exact absurd hcount hne
      · have hflag := (protocolFlag_iff hvalid).mp (protocolOne_new hnew hone)
        exact ⟨rfl, collected, hall, net, hnet, rfl, hcount, hflag.1, hnew, hvalid, hflag.2 hnew⟩

theorem ibPolls_found (h : IbPolls pton s fresh mode NewAnswered c₀ m nets found) :
    (keys nets).Nodup ∧ AllFound nets found := by
  induction h with
  | start => exact ⟨List.nodup_nil, fun net hnet => absurd hnet List.not_mem_nil⟩
  | poll run begins poll caller ih =>
    obtain ⟨hnodup, hfound⟩ := allFound_poll ih.1 ih.2 begins poll
    refine ⟨hnodup.sublist caller.keys, fun net hnet hvalid => ⟨List.mem_map_of_mem hnet, ?_⟩⟩
    obtain ⟨old, hold, hkey, -, hbond⟩ := caller.from hnet
    rw [hkey]
    exact hfound old hold (hbond ▸ hvalid)

/-- A poll that returns 0 leaves a port off a bond, with the count of the poll, only
if `snsd_protocol_ib` found its interface since the port is in the list. -/
theorem polls_found (h : IbPolls pton s fresh mode NewAnswered c₀ m nets found)
    (hok : NewAnswered sys nets)
    (hpoll : snsdCfgNetInfo pton s fresh mode sys (c₀ + UInt32.ofNat m) nets = .ok (polled, 0)) :
    ∀ net ∈ polled, net.portInfo.bonding.valid = false →
      net.portInfo.count = c₀ + UInt32.ofNat m → found net.portInfo.key ∨
        IbFound pton s fresh mode sys (c₀ + UInt32.ofNat m) nets net.portInfo.key := by
  obtain ⟨hnodup, hfound⟩ := ibPolls_found h
  intro net hnet hvalid _
  exact ((allFound_poll hnodup hfound hok hpoll).2 net hnet hvalid).imp_right And.right

end Found

/-! A first poll whose port is found, and one that fails before a port is checked:
the next poll takes it for an old one. -/

theorem sample_answered : NewAnswered sampleSystem ([] : List (NetInfo Unit)) := by
  have hfill : snsdFillVlan (nameArray (ascii "e.5")) (ascii "e.5|5|e\n") = .ok (5, 5) := by
    decide +kernel
  refine ⟨fun ifr hifr _ _ => ?_, fun _ done ifr hpre _ => ?_⟩
  · obtain rfl := List.mem_singleton.mp hifr
    decide
  · have hmem : ifr ∈ [sampleIfreq] := hpre.subset (by simp)
    obtain rfl := List.mem_singleton.mp hmem
    refine ⟨nofun, nofun, fun _ _ => nofun, fun vlan pos h _ => ?_⟩
    obtain ⟨rfl, rfl⟩ := Prod.mk.inj (Except.ok.inj (hfill.symm.trans h))
    refine ⟨ascii "e", by decide +kernel, nofun, ?_⟩
    rintro (⟨old, hold, -⟩ | hbond)
    · cases hold
    · cases hbond

theorem polls_found_sample : ∃ polled : List (NetInfo Unit),
    snsdCfgNetInfo samplePton sampleCfg () .sw sampleSystem 100 [] = .ok (polled, 0) ∧
      polled.length = 1 ∧ ∀ net ∈ polled, net.portInfo.bonding.valid = false →
        net.portInfo.count = 100 →
          False ∨ IbFound samplePton sampleCfg () .sw sampleSystem 100 [] net.portInfo.key := by
  refine ⟨_, rfl, rfl, ?_⟩
  have hrun : IbPolls samplePton sampleCfg () .sw NewAnswered 100 0 [] (fun _ => False) :=
    IbPolls.start
  exact polls_found hrun sample_answered rfl

/-- The address of the interface is not answered. -/
def failingSystem : NetSystem :=
  { sampleSystem with ifconf := some [{ sampleIfreq with hwaddr := none }] }

/-- What that poll leaves in the list. -/
def strayPort : NetInfo Unit := snsdGetNew () 100 sampleIfreq

/-- No device directory. -/
def noIbSystem : NetSystem := { sampleSystem with ib := fun _ => none }

theorem failed_poll_skips_check : ¬ ∀ (pton : Pton) (s : CfgState) (mode : SnsdMode)
    (c₀ : UInt32) (m : ℕ) (sys : NetSystem) (nets polled : List (NetInfo Unit))
    (found : Bytes × Bytes → Prop),
    IbPolls pton s () mode (fun _ _ => True) c₀ m nets found →
      snsdCfgNetInfo pton s () mode sys (c₀ + UInt32.ofNat m) nets = .ok (polled, 0) →
        ∀ net ∈ polled, net.portInfo.bonding.valid = false →
          net.portInfo.count = c₀ + UInt32.ofNat m → found net.portInfo.key ∨
            IbFound pton s () mode sys (c₀ + UInt32.ofNat m) nets net.portInfo.key := by
  intro h
  have hfail : snsdCfgNetInfo samplePton sampleCfg () .sw failingSystem (100 + UInt32.ofNat 0) [] =
      .ok ([strayPort], -EPERM) := rfl
  have hcaller : Handled [strayPort] [strayPort] :=
    ⟨[strayPort], List.Sublist.refl _, List.forall₂_same.mpr fun _ _ => ⟨rfl, rfl, rfl⟩⟩
  have hrun : IbPolls samplePton sampleCfg () .sw (fun _ _ => True) 100 1 [strayPort] _ :=
    IbPolls.poll IbPolls.start trivial hfail hcaller
  obtain ⟨polled, hpoll, net, hnet, hvalid, hcount⟩ : ∃ polled,
      snsdCfgNetInfo samplePton sampleCfg () .sw noIbSystem (100 + UInt32.ofNat 1) [strayPort] =
        .ok (polled, 0) ∧ ∃ net ∈ polled, net.portInfo.bonding.valid = false ∧
          net.portInfo.count = 100 + UInt32.ofNat 1 := ⟨_, rfl, _, List.mem_cons_self, rfl, rfl⟩
  rcases h _ _ _ _ _ _ _ _ _ hrun hpoll net hnet hvalid hcount with hfound | hfound
  · rcases hfound.2 with hnone | hthis
    · exact hnone
    · exact absurd hthis.1 (by decide)
  · obtain ⟨_, _, _, _, _, _, _, _, _, hfind⟩ := hfound
    exact Bool.false_ne_true hfind

end NvmeSnsd.Mgt
