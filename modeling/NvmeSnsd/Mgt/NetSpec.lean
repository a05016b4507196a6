import NvmeSnsd.Mgt.NetInfo

/-! What a poll of the interfaces does to the list of ports. -/
namespace NvmeSnsd.Mgt
open Lib Cfg

/-- The name and the address, by which a poll knows a port again. -/
def PortInfo.key (p : PortInfo) : Bytes × Bytes := (p.name, p.addr)

def Ifreq.key (ifr : Ifreq) : Bytes × Bytes := (nameArray ifr.ifrName, ifr.sinAddr)

/-- What a poll keeps of an entry that it visits. -/
structure PollKeeps (p q : PortInfo) : Prop where
  name : q.name = p.name
  nameIndex : q.nameIndex = p.nameIndex
  family : q.family = p.family
  ip : q.ip = p.ip
  tgtip : q.tgtip = p.tgtip
  newPort : q.newPort = p.newPort
  held : q.bonding.heldSlots = p.bonding.heldSlots
  bonded : p.bonding.valid = true → q.bonding.valid = true

theorem PollKeeps.refl (p : PortInfo) : PollKeeps p p :=
  ⟨rfl, rfl, rfl, rfl, rfl, rfl, rfl, id⟩

theorem PollKeeps.trans {p q r : PortInfo} (h : PollKeeps p q) (h' : PollKeeps q r) :
    PollKeeps p r :=
  ⟨h'.name.trans h.name, h'.nameIndex.trans h.nameIndex, h'.family.trans h.family,
    h'.ip.trans h.ip, h'.tgtip.trans h.tgtip, h'.newPort.trans h.newPort, h'.held.trans h.held,
    h'.bonded ∘ h.bonded⟩

theorem PollKeeps.key {p q : PortInfo} (h : PollKeeps p q) : q.key = p.key := by
  rw [PortInfo.key, PortInfo.addr, h.name, h.ip, PortInfo.key, PortInfo.addr]

theorem setVlan_keeps (vlan : Int16) (p : PortInfo) : PollKeeps p (setVlan vlan p) := by
  unfold setVlan
  split <;> exact ⟨rfl, rfl, rfl, rfl, rfl, rfl, rfl, id⟩

theorem setVlan_vlan (vlan : Int16) (p : PortInfo) : (setVlan vlan p).vlan = vlan := by
  unfold setVlan
  split
  · rfl
  · next h => exact not_not.mp h

theorem setVlan_count (vlan : Int16) (p : PortInfo) : (setVlan vlan p).count = p.count := by
  unfold setVlan
  split <;> rfl

theorem setVlan_bonding (vlan : Int16) (p : PortInfo) : (setVlan vlan p).bonding = p.bonding := by
  unfold setVlan
  split <;> rfl

/-- The mark: set by a change from a valid VLAN, cleared where there is none. -/
theorem setVlan_change (vlan : Int16) (p : PortInfo) : (setVlan vlan p).vlanChange =
    if p.vlan = vlan then false else if p.vlan = SNSD_INVALID_VLAN then p.vlanChange else true := by
  unfold setVlan
  by_cases h : p.vlan = vlan
  · rw [if_neg (not_not.mpr h), if_pos h]
  · rw [if_pos h, if_neg h]
    by_cases hv : p.vlan = SNSD_INVALID_VLAN
    · rw [if_pos hv]
      exact if_neg (not_not.mpr hv)
    · rw [if_neg hv]
      exact if_pos hv

/-- The VLAN and its mark after `setVlan`. -/
structure VlanSet (vlanInfo : Bytes) (p q : PortInfo) (vlan : Int16) : Prop where
  found : ∃ pos, snsdFillVlan p.name vlanInfo = .ok (vlan, pos)
  stored : q.vlan = vlan
  flag : q.vlanChange = (setVlan vlan p).vlanChange

/-- The device below an interface is no bond. -/
def OffBond (group : List Bytes) (vlanInfo name : Bytes) : Prop :=
  ∀ vlan pos phy, snsdFillVlan name vlanInfo = .ok (vlan, pos) → vlan ≠ SNSD_INVALID_VLAN →
    snsdGetPhyIfname vlanInfo pos = some phy → snsdIsBonding group phy = false

section Mix
variable {ifr : Ifreq} {group : List Bytes} {vlanInfo : Bytes} {p q : PortInfo} {ret : ℤ}

theorem getMacAndFlags_spec (h : snsdGetMacAndFlags ifr p = (q, ret)) :
    PollKeeps p q ∧ q.count = p.count ∧ q.vlan = p.vlan ∧ q.vlanChange = p.vlanChange ∧
      q.bonding = p.bonding := by
  unfold snsdGetMacAndFlags at h
  split at h
  · cases h
    exact ⟨PollKeeps.refl p, rfl, rfl, rfl, rfl⟩
  · split at h
    all_goals
      cases h
      exact ⟨⟨rfl, rfl, rfl, rfl, rfl, rfl, rfl, id⟩, rfl, rfl, rfl, rfl⟩

theorem checkGetSlave_unbonded {phy : Bytes} {file : Option Bytes} {bonding : BondingInfo}
    (hvalid : bonding.valid = false) (hoff : snsdIsBonding group phy = false) :
    snsdCheckGetSlave ifr.ifindex group phy file bonding = .ok (bonding, 0) := by
  unfold snsdCheckGetSlave
  rw [hvalid, hoff]
  rfl

theorem getPhy_spec {pos : ℕ} {name : Bytes}
    (h : snsdGetPhy ifr group vlanInfo pos p = .ok (q, name, ret)) :
    PollKeeps p q ∧ q.count = p.count ∧ q.vlan = p.vlan ∧ q.vlanChange = p.vlanChange ∧
      ((∀ phy, snsdGetPhyIfname vlanInfo pos = some phy → snsdIsBonding group phy = false) →
        p.bonding.valid = false → q.bonding = p.bonding) := by
  unfold snsdGetPhy at h
  split at h
  · cases h
    exact ⟨PollKeeps.refl p, rfl, rfl, rfl, fun _ _ => rfl⟩
  · next phy hphy =>
    obtain ⟨⟨bonding, r⟩, hslave, h⟩ := bind_eq_ok.mp h
    have hheld := checkGetSlave_held hslave
    have hbonded := checkGetSlave_valid hslave
    have hsame (hoff : ∀ phy', some phy = some phy' → snsdIsBonding group phy' = false)
        (hvalid : p.bonding.valid = false) : bonding = p.bonding := by
      rw [checkGetSlave_unbonded hvalid (hoff phy rfl)] at hslave
      exact (congrArg Prod.fst (Except.ok.inj hslave)).symm
    dsimp only at h hheld hbonded
    rw [hphy]
    split at h
    all_goals
      cases h
      exact ⟨⟨rfl, rfl, rfl, rfl, rfl, rfl, hheld, hbonded⟩, rfl, rfl, rfl, hsame⟩

/-- The result of `snsd_get_mix_info`, whose success stores the VLAN. -/
theorem getMixInfo_spec (h : snsdGetMixInfo ifr group vlanInfo p = .ok (q, ret)) :
    PollKeeps p q ∧ q.count = p.count ∧
      ((q.vlan = p.vlan ∧ q.vlanChange = p.vlanChange ∧ ret ≠ 0) ∨
        ∃ vlan, VlanSet vlanInfo p q vlan) ∧
      (OffBond group vlanInfo p.name → p.bonding.valid = false → q.bonding = p.bonding) := by
  unfold snsdGetMixInfo at h
  obtain ⟨⟨vlan, pos⟩, hfill, h⟩ := bind_eq_ok.mp h
  obtain ⟨⟨p₁, name, r⟩, hphy, h⟩ := bind_eq_ok.mp h
  dsimp only at h hphy
  have hp₁ : PollKeeps p p₁ ∧ p₁.count = p.count ∧ p₁.vlan = p.vlan ∧
      p₁.vlanChange = p.vlanChange ∧
      (OffBond group vlanInfo p.name → p.bonding.valid = false → p₁.bonding = p.bonding) := by
    split at hphy
    · cases hphy
      exact ⟨PollKeeps.refl p, rfl, rfl, rfl, fun _ _ => rfl⟩
    · next hvalid =>
      obtain ⟨hkeeps, hcount, hvlan, hchange, hbond⟩ := getPhy_spec hphy
      exact ⟨hkeeps, hcount, hvlan, hchange,
        fun hoff => hbond fun phy hname => hoff vlan pos phy hfill hvalid hname⟩
  obtain ⟨hkeeps, hcount, hvlan, hchange, hbond⟩ := hp₁
  split at h
  · next hr =>
    cases h
    exact ⟨hkeeps, hcount, Or.inl ⟨hvlan, hchange, hr⟩, hbond⟩
  · have hset := setVlan_keeps vlan p₁
    have hflag : (setVlan vlan p₁).vlanChange = (setVlan vlan p).vlanChange := by
      rw [setVlan_change, setVlan_change, hvlan, hchange]
    have hbond' (hoff : OffBond group vlanInfo p.name) (hv : p.bonding.valid = false) :
        (setVlan vlan p₁).bonding = p.bonding := by
      rw [setVlan_bonding, hbond hoff hv]
    split at h
    · cases h
      exact ⟨hkeeps.trans hset, (setVlan_count vlan p₁).trans hcount,
        Or.inr ⟨vlan, ⟨pos, hfill⟩, setVlan_vlan vlan p₁, hflag⟩, hbond'⟩
    · cases h
      exact ⟨hkeeps.trans ⟨hset.name, hset.nameIndex, hset.family, hset.ip, hset.tgtip,
        hset.newPort, hset.held, hset.bonded⟩, (setVlan_count vlan p₁).trans hcount,
        Or.inr ⟨vlan, ⟨pos, hfill⟩, setVlan_vlan vlan p₁, hflag⟩, hbond'⟩

end Mix

section One
variable {ρ : Type} {fresh : ρ} {anyProtocol : Int32} {count : UInt32} {group : List Bytes}
  {vlanInfo : Bytes} {ifr : Ifreq} {nets nets' : List (NetInfo ρ)} {ret : ℤ}

theorem isOld_iff {net : NetInfo ρ} : isOld ifr net = true ↔ net.portInfo.key = ifr.key := by
  rw [isOld, Bool.and_eq_true, beq_iff_eq, beq_iff_eq, PortInfo.key, Ifreq.key, Prod.mk.injEq]

theorem sinAddr_length (ifr : Ifreq) : ifr.sinAddr.length = ipv4AddrLength := by
  simp [Ifreq.sinAddr]

theorem getNew_key : (snsdGetNew fresh count ifr).portInfo.key = ifr.key := by
  have hip : (snsdGetNew fresh count ifr).portInfo.addr = ifr.sinAddr :=
    List.take_left' (sinAddr_length ifr)
  rw [PortInfo.key, hip]
  rfl

/-- The entry that a turn of the loop starts from: the old one, which is new no
longer, or a new one at the end. -/
inductive StartsAt (fresh : ρ) (count : UInt32) (ifr : Ifreq) (nets : List (NetInfo ρ)) :
    List (NetInfo ρ) → NetInfo ρ → List (NetInfo ρ) → Prop
  | old {pre net post} (split : nets = pre ++ net :: post)
      (key : net.portInfo.key = ifr.key) (first : ∀ x ∈ pre, x.portInfo.key ≠ ifr.key) :
      StartsAt fresh count ifr nets pre
        { net with portInfo := { net.portInfo with newPort := false } } post
  | new (absent : ∀ x ∈ nets, x.portInfo.key ≠ ifr.key) :
      StartsAt fresh count ifr nets nets (snsdGetNew fresh count ifr) []

theorem tryFindOld_starts {pre post : List (NetInfo ρ)} {net : NetInfo ρ}
    (h : snsdTryFindOld fresh count ifr nets = (pre, net, post)) :
    StartsAt fresh count ifr nets pre net post := by
  unfold snsdTryFindOld at h
  have hsplit := List.takeWhile_append_dropWhile (p := fun x => !isOld ifr x) (l := nets)
  split at h
  · next hnil =>
    cases h
    apply StartsAt.new
    intro x hx he
    have hall := List.dropWhile_eq_nil_iff.mp hnil x hx
    simp [isOld_iff.mpr he] at hall
  · next net₀ post₀ hcons =>
    cases h
    rw [hcons] at hsplit
    refine StartsAt.old hsplit.symm ?_ ?_
    · have hhead := List.head?_dropWhile_not (fun x => !isOld ifr x) nets
      rw [hcons] at hhead
      exact isOld_iff.mp (by simpa using hhead)
    · intro x hx he
      have hnot := List.mem_takeWhile_imp hx
      simp [isOld_iff.mpr he] at hnot

/-- How a turn ends for its entry: with an error, without a VLAN, or with the count
set. -/
inductive OneEnds (anyProtocol : Int32) (count : UInt32) (group : List Bytes) (vlanInfo : Bytes)
    (net : NetInfo ρ) : Option (NetInfo ρ) → ℤ → Prop
  | fails {q ret} (keeps : PollKeeps net.portInfo q) (same : q.count = net.portInfo.count)
      (vlan : (q.vlan = net.portInfo.vlan ∧ q.vlanChange = net.portInfo.vlanChange) ∨
        ∃ vlan, VlanSet vlanInfo net.portInfo q vlan)
      (unbonded : OffBond group vlanInfo net.portInfo.name →
        net.portInfo.bonding.valid = false → q.bonding = net.portInfo.bonding)
      (fail : ret ≠ 0) :
      OneEnds anyProtocol count group vlanInfo net (some { net with portInfo := q }) ret
  | dropped {pos} (new : net.portInfo.newPort = true)
      (noVlan : snsdFillVlan net.portInfo.name vlanInfo = .ok (SNSD_INVALID_VLAN, pos)) :
      OneEnds anyProtocol count group vlanInfo net none 0
  | stale {q} (keeps : PollKeeps net.portInfo q) (same : q.count = net.portInfo.count)
      (known : net.portInfo.newPort = false)
      (noVlan : VlanSet vlanInfo net.portInfo q SNSD_INVALID_VLAN)
      (unbonded : OffBond group vlanInfo net.portInfo.name →
        net.portInfo.bonding.valid = false → q.bonding = net.portInfo.bonding) :
      OneEnds anyProtocol count group vlanInfo net (some { net with portInfo := q }) 0
  | current {q vlan} (keeps : PollKeeps net.portInfo q) (set : q.count = count)
      (any : q.protocol = anyProtocol) (hasVlan : VlanSet vlanInfo net.portInfo q vlan)
      (valid : vlan ≠ SNSD_INVALID_VLAN)
      (unbonded : OffBond group vlanInfo net.portInfo.name →
        net.portInfo.bonding.valid = false → q.bonding = net.portInfo.bonding) :
      OneEnds anyProtocol count group vlanInfo net (some { net with portInfo := q }) 0

/-- One turn of the loop. -/
def Turn (fresh : ρ) (anyProtocol : Int32) (count : UInt32) (group : List Bytes)
    (vlanInfo : Bytes) (ifr : Ifreq) (nets nets' : List (NetInfo ρ)) (ret : ℤ) : Prop :=
  ∃ pre net post out, StartsAt fresh count ifr nets pre net post ∧
    OneEnds anyProtocol count group vlanInfo net out ret ∧ nets' = pre ++ (out.toList ++ post)

theorem getOne_turn
    (h : snsdGetOne fresh anyProtocol count group vlanInfo ifr nets = .ok (nets', ret)) :
    Turn fresh anyProtocol count group vlanInfo ifr nets nets' ret := by
  unfold snsdGetOne at h
  rcases hstart : snsdTryFindOld fresh count ifr nets with ⟨pre, net, post⟩
  rw [hstart] at h
  have hends (out : Option (NetInfo ρ)) (ret : ℤ)
      (hout : OneEnds anyProtocol count group vlanInfo net out ret) :
      Turn fresh anyProtocol count group vlanInfo ifr nets (pre ++ (out.toList ++ post)) ret :=
    ⟨pre, net, post, out, tryFindOld_starts hstart, hout, rfl⟩
  dsimp only at h
  rcases hmac : snsdGetMacAndFlags ifr net.portInfo with ⟨p₁, r₁⟩
  rw [hmac] at h
  obtain ⟨hkeeps₁, hcount₁, hvlan₁, hchange₁, hbond₁⟩ := getMacAndFlags_spec hmac
  dsimp only at h
  split at h
  · next hr =>
    cases h
    exact hends _ _ (.fails hkeeps₁ hcount₁ (Or.inl ⟨hvlan₁, hchange₁⟩) (fun _ _ => hbond₁) hr)
  · obtain ⟨⟨p₂, r₂⟩, hmix, h⟩ := bind_eq_ok.mp h
    obtain ⟨hkeeps₂, hcount₂, hset, hbond₂⟩ := getMixInfo_spec hmix
    have hkeeps := hkeeps₁.trans hkeeps₂
    have hcount := hcount₂.trans hcount₁
    have hbond (hoff : OffBond group vlanInfo net.portInfo.name)
        (hv : net.portInfo.bonding.valid = false) : p₂.bonding = net.portInfo.bonding := by
      rw [← hkeeps₁.name] at hoff
      rw [← hbond₁] at hv ⊢
      exact hbond₂ hoff hv
    have hset' (vlan : Int16) (hs : VlanSet vlanInfo p₁ p₂ vlan) :
        VlanSet vlanInfo net.portInfo p₂ vlan := by
      refine ⟨?_, hs.stored, ?_⟩
      · rw [← hkeeps₁.name]
        exact hs.found
      · rw [hs.flag, setVlan_change, setVlan_change, hvlan₁, hchange₁]
    dsimp only at h
    split at h
    · next hr =>
      cases h
      refine hends _ _ (.fails hkeeps hcount ?_ hbond hr)
      rcases hset with ⟨hv, hc, -⟩ | ⟨vlan, hs⟩
      · exact Or.inl ⟨hv.trans hvlan₁, hc.trans hchange₁⟩
      · exact Or.inr ⟨vlan, hset' vlan hs⟩
    · next hr =>
      obtain ⟨-, -, hne⟩ | ⟨vlan, hs⟩ := hset
      · exact absurd hne hr
      · have hs := hset' vlan hs
        split at h
        · next hinv =>
          obtain rfl : vlan = SNSD_INVALID_VLAN := hs.stored.symm.trans hinv
          split at h
          · next hnew =>
            cases h
            obtain ⟨pos, hfill⟩ := hs.found
            exact hends none 0 (OneEnds.dropped (hkeeps.newPort.symm.trans hnew) hfill)
          · next hnew =>
            cases h
            refine hends _ _ (OneEnds.stale hkeeps hcount ?_ hs hbond)
            rw [← hkeeps.newPort]
            exact Bool.eq_false_iff.mpr hnew
        · next hinv =>
          cases h
          apply hends (some { net with
            portInfo := { p₂ with protocol := anyProtocol, count := count } }) 0
          apply OneEnds.current (q := { p₂ with protocol := anyProtocol, count := count })
          · exact ⟨hkeeps.name, hkeeps.nameIndex, hkeeps.family, hkeeps.ip, hkeeps.tgtip,
              hkeeps.newPort, hkeeps.held, hkeeps.bonded⟩
          · rfl
          · rfl
          · exact ⟨hs.found, hs.stored, hs.flag⟩
          · rw [← hs.stored]
            exact hinv
          · exact hbond

/-- A rule for the loop over the IPv4 interfaces `all`: what every turn without an
error preserves holds at the end, or did before the turn that failed. -/
theorem getLoop_rule {ifs all : List Ifreq} {r : ℤ}
    (Inv : List Ifreq → List (NetInfo ρ) → Prop)
    (step : ∀ done ifr nets nets', done ++ [ifr] <+: all → Inv done nets →
      snsdGetOne fresh anyProtocol count group vlanInfo ifr nets = .ok (nets', 0) →
        Inv (done ++ [ifr]) nets')
    {done : List Ifreq} (hall : done ++ ifs.filter (·.family = AF_INET) = all)
    (hinv : Inv done nets)
    (h : snsdGetLoop fresh anyProtocol count group vlanInfo ifs nets r = .ok (nets', ret)) :
    ((ret = 0 ∨ ret = r ∧ all = done) ∧ Inv all nets') ∨
      (ret ≠ 0 ∧ ∃ mid done' ifr, done' ++ [ifr] <+: all ∧ Inv done' mid ∧
        snsdGetOne fresh anyProtocol count group vlanInfo ifr mid = .ok (nets', ret)) := by
  induction ifs generalizing nets done r with
  | nil =>
    cases h
    rw [List.filter_nil, List.append_nil] at hall
    exact Or.inl ⟨Or.inr ⟨rfl, hall.symm⟩, hall ▸ hinv⟩
  | cons ifr rest ih =>
    unfold snsdGetLoop at h
    by_cases hinet : ifr.family = AF_INET
    · rw [if_pos hinet] at h
      rw [List.filter_cons_of_pos (by simpa using hinet), List.append_cons] at hall
      have hpre : done ++ [ifr] <+: all := ⟨_, hall⟩
      obtain ⟨⟨nets₁, r₁⟩, hone, h⟩ := bind_eq_ok.mp h
      dsimp only at h
      split at h
      · next hr =>
        cases h
        exact Or.inr ⟨hr, nets, done, ifr, hpre, hinv, hone⟩
      · next hr =>
        obtain rfl : r₁ = 0 := not_not.mp hr
        have hnext := step done ifr nets nets₁ hpre hinv hone
        refine (ih hall hnext h).imp_left fun ⟨hret, hend⟩ => ⟨Or.inl ?_, hend⟩
        exact hret.elim id And.left
    · rw [if_neg hinet] at h
      rw [List.filter_cons_of_neg (by simpa using hinet)] at hall
      exact ih hall hinv h

end One

end NvmeSnsd.Mgt
