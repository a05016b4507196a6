import NvmeSnsd.Mgt.Port
import NvmeSnsd.Cfg.Options

/-! Which entry of the configuration a port is for. -/
namespace NvmeSnsd.Mgt
open Lib Cfg

/-- `inet_pton(family, text, ..)`; none where it does not return 1. -/
abbrev Pton := ℕ → Bytes → Option Bytes

/-- The list of a mode. -/
def snsdGetNetCfg (s : CfgState) : SnsdMode → List CfgInfos
  | .sw => s.swInfoList
  | .dc => s.dcInfoList

/-- `snsd_fill_net_info` -/
def snsdFillNetInfo (curCfg : CfgInfos) (port : PortInfo) : PortInfo :=
  let role := UInt8.ofInt (curCfg.int .protolRole).toInt
  { port with
    serviceType := port.serviceType ||| serviceTypeInform
    protocol := curCfg.int .protocol
    protolRole := if role = SNSD_NONE then SNSD_CLIENT else role
    ulpPort :=
      if (curCfg.str .trsvcid).text = invalid then 0
      else UInt16.ofInt (atoi (curCfg.str .trsvcid).text).toInt }

/-- `snsd_check_and_fill`. The target address of a direct entry is stored before
the host address is compared. -/
def snsdCheckAndFill (pton : Pton) (anyflag : SnsdAny) (mode : SnsdMode) (curCfg : CfgInfos)
    (port : PortInfo) : Bool × PortInfo :=
  if anyflag = .yes ∧ mode = .sw then (true, snsdFillNetInfo curCfg port)
  else
    match pton AF_INET (curCfg.str .hostTraddr).text with
    | none => (false, port)
    | some addr2 =>
      match mode with
      | .sw =>
        if port.addr = addr2 then (true, snsdFillNetInfo curCfg port)
        else (false, port)
      | .dc =>
        match pton AF_INET (curCfg.str .traddr).text with
        | none => (false, port)
        | some target =>
          let port := port.setTgtip target
          if port.addr = addr2 then (true, snsdFillNetInfo curCfg port)
          else (false, port)

/-- The walk over the entries for one port in `snsd_dealwith_cfg`: the entry that
it stops at, and the port as it is left. -/
def snsdMatchCfg (pton : Pton) (anyflag : SnsdAny) (mode : SnsdMode) :
    List CfgInfos → PortInfo → Option CfgInfos × PortInfo
  | [], port => (none, port)
  | curCfg :: rest, port =>
    match snsdCheckAndFill pton anyflag mode curCfg port with
    | (true, port) => (some curCfg, port)
    | (false, port) => snsdMatchCfg pton anyflag mode rest port

/-- `snsd_dealwith_cfg` -/
def snsdDealwithCfg {ρ : Type} (pton : Pton) (s : CfgState) (mode : SnsdMode)
    (nets : List (NetInfo ρ)) : List (NetInfo ρ) :=
  nets.filterMap fun net =>
    match snsdMatchCfg pton s.anyflag mode (snsdGetNetCfg s mode) net.portInfo with
    | (some _, port) => some { net with portInfo := port }
    | (none, _) => none

/-- How an entry claims a port with an address: any switch entry beside any, and
otherwise by its host address (a direct entry must have a target address too). -/
def CfgTakes (pton : Pton) (anyflag : SnsdAny) (mode : SnsdMode) (curCfg : CfgInfos)
    (addr : Bytes) : Prop :=
  (anyflag = .yes ∧ mode = .sw) ∨
    (pton AF_INET (curCfg.str .hostTraddr).text = some addr ∧
      (mode = .dc → ∃ target, pton AF_INET (curCfg.str .traddr).text = some target))

/-- The first entry of the mode that takes an address. -/
def FirstTakes (pton : Pton) (s : CfgState) (mode : SnsdMode) (addr : Bytes) (e : CfgInfos) :
    Prop :=
  ∃ pre post, snsdGetNetCfg s mode = pre ++ e :: post ∧
    (∀ x ∈ pre, ¬ CfgTakes pton s.anyflag mode x addr) ∧ CfgTakes pton s.anyflag mode e addr

section Match
variable {pton : Pton} {anyflag : SnsdAny} {mode : SnsdMode} {curCfg : CfgInfos}
  {port : PortInfo}

/-- What the walk never touches. -/
structure CfgKeeps (p q : PortInfo) : Prop where
  name : q.name = p.name
  nameIndex : q.nameIndex = p.nameIndex
  family : q.family = p.family
  ip : q.ip = p.ip
  mac : q.mac = p.mac
  vlan : q.vlan = p.vlan
  flags : q.flags = p.flags
  count : q.count = p.count
  vlanChange : q.vlanChange = p.vlanChange
  newPort : q.newPort = p.newPort
  phyIfindex : q.phyIfindex = p.phyIfindex
  phyName : q.phyName = p.phyName
  bonding : q.bonding = p.bonding

theorem CfgKeeps.refl (p : PortInfo) : CfgKeeps p p :=
  ⟨rfl, rfl, rfl, rfl, rfl, rfl, rfl, rfl, rfl, rfl, rfl, rfl, rfl⟩

theorem CfgKeeps.trans {p q r : PortInfo} (h : CfgKeeps p q) (h' : CfgKeeps q r) :
    CfgKeeps p r :=
  ⟨h'.name.trans h.name, h'.nameIndex.trans h.nameIndex, h'.family.trans h.family,
    h'.ip.trans h.ip, h'.mac.trans h.mac, h'.vlan.trans h.vlan, h'.flags.trans h.flags,
    h'.count.trans h.count, h'.vlanChange.trans h.vlanChange, h'.newPort.trans h.newPort,
    h'.phyIfindex.trans h.phyIfindex, h'.phyName.trans h.phyName, h'.bonding.trans h.bonding⟩

theorem fill_keeps (curCfg : CfgInfos) (p : PortInfo) : CfgKeeps p (snsdFillNetInfo curCfg p) :=
  ⟨rfl, rfl, rfl, rfl, rfl, rfl, rfl, rfl, rfl, rfl, rfl, rfl, rfl⟩

/-- A port that is filled from an entry. -/
structure FilledFrom (pton : Pton) (mode : SnsdMode) (curCfg : CfgInfos) (p q : PortInfo) :
    Prop where
  keeps : CfgKeeps p q
  protocol : q.protocol = curCfg.int .protocol
  tgtip : mode = .dc → ∃ target rest, pton AF_INET (curCfg.str .traddr).text = some target ∧
    q.tgtip = target ++ rest

/-- One step of the walk. Even a port that is not taken may be given the target
address of the entry. -/
theorem checkAndFill_spec (pton : Pton) (anyflag : SnsdAny) (mode : SnsdMode)
    (curCfg : CfgInfos) (port : PortInfo) :
    ∃ q, (snsdCheckAndFill pton anyflag mode curCfg port = (true, q) ∧
        CfgTakes pton anyflag mode curCfg port.addr ∧ FilledFrom pton mode curCfg port q) ∨
      (snsdCheckAndFill pton anyflag mode curCfg port = (false, q) ∧
        ¬ CfgTakes pton anyflag mode curCfg port.addr ∧ CfgKeeps port q) := by
  unfold snsdCheckAndFill CfgTakes
  by_cases hany : anyflag = .yes ∧ mode = .sw
  · rw [if_pos hany]
    refine ⟨_, Or.inl ⟨rfl, Or.inl hany, fill_keeps _ _, rfl, ?_⟩⟩
    intro hdc
    exact absurd (hany.2.symm.trans hdc) (by decide)
  · rw [if_neg hany]
    cases hhost : pton AF_INET (curCfg.str .hostTraddr).text with
    | none => exact ⟨port, Or.inr ⟨rfl, by simp [hany], CfgKeeps.refl port⟩⟩
    | some addr =>
      dsimp only
      cases mode with
      | sw =>
        dsimp only
        by_cases haddr : port.addr = addr
        · rw [if_pos haddr]
          refine ⟨_, Or.inl ⟨rfl, Or.inr ⟨by rw [haddr], ?_⟩, fill_keeps _ _, rfl, ?_⟩⟩ <;>
            exact fun h => absurd h (by decide)
        · rw [if_neg haddr]
          refine ⟨port, Or.inr ⟨rfl, ?_, CfgKeeps.refl port⟩⟩
          rintro (h | h)
          · exact hany h
          · exact haddr (Option.some.inj h.1).symm
      | dc =>
        cases htgt : pton AF_INET (curCfg.str .traddr).text with
        | none => exact ⟨port, Or.inr ⟨rfl, by simp, CfgKeeps.refl port⟩⟩
        | some target =>
          dsimp only
          by_cases haddr : port.addr = addr
          · rw [if_pos ((port.setTgtip_addr target).trans haddr)]
            refine ⟨_, Or.inl ⟨rfl, Or.inr ⟨by rw [haddr], fun _ => ⟨target, rfl⟩⟩, ?_, rfl, ?_⟩⟩
            · exact ⟨rfl, rfl, rfl, rfl, rfl, rfl, rfl, rfl, rfl, rfl, rfl, rfl, rfl⟩
            · exact fun _ => ⟨target, _, htgt, rfl⟩
          · rw [if_neg (fun h => haddr ((port.setTgtip_addr target).symm.trans h))]
            refine ⟨_, Or.inr ⟨rfl, ?_, ?_⟩⟩
            · rintro (h | h)
              · exact hany h
              · exact haddr (Option.some.inj h.1).symm
            · exact ⟨rfl, rfl, rfl, rfl, rfl, rfl, rfl, rfl, rfl, rfl, rfl, rfl, rfl⟩

theorem CfgKeeps.addr {p q : PortInfo} (h : CfgKeeps p q) : q.addr = p.addr := by
  rw [PortInfo.addr, h.ip, PortInfo.addr]

theorem FilledFrom.after {p q r : PortInfo} (h : CfgKeeps p q)
    (h' : FilledFrom pton mode curCfg q r) : FilledFrom pton mode curCfg p r :=
  ⟨h.trans h'.keeps, h'.protocol, h'.tgtip⟩

/-- The walk stops at the first entry that takes the port. -/
theorem matchCfg_some {list : List CfgInfos} {q : PortInfo}
    (h : snsdMatchCfg pton anyflag mode list port = (some curCfg, q)) :
    (∃ pre post, list = pre ++ curCfg :: post ∧
        ∀ e ∈ pre, ¬ CfgTakes pton anyflag mode e port.addr) ∧
      CfgTakes pton anyflag mode curCfg port.addr ∧ FilledFrom pton mode curCfg port q := by
  induction list generalizing port with
  | nil => simp [snsdMatchCfg] at h
  | cons e rest ih =>
    rw [snsdMatchCfg] at h
    obtain ⟨p, ⟨hcheck, htakes, hfill⟩ | ⟨hcheck, hnot, hkeeps⟩⟩ :=
      checkAndFill_spec pton anyflag mode e port
    · rw [hcheck] at h
      obtain ⟨rfl, rfl⟩ : e = curCfg ∧ p = q := by simpa using h
      exact ⟨⟨[], rest, rfl, fun _ he => absurd he List.not_mem_nil⟩, htakes, hfill⟩
    · rw [hcheck] at h
      obtain ⟨⟨pre, post, hlist, hpre⟩, htakes, hfill⟩ := ih h
      refine ⟨⟨e :: pre, post, by rw [hlist, List.cons_append], ?_⟩, ?_, hfill.after hkeeps⟩
      · intro x hx
        rcases List.mem_cons.mp hx with rfl | hx
        · exact hnot
        · rw [← hkeeps.addr]
          exact hpre x hx
      · rw [← hkeeps.addr]
        exact htakes

theorem matchCfg_none {list : List CfgInfos} {q : PortInfo}
    (h : snsdMatchCfg pton anyflag mode list port = (none, q)) :
    ∀ e ∈ list, ¬ CfgTakes pton anyflag mode e port.addr := by
  induction list generalizing port with
  | nil => exact fun _ he => absurd he List.not_mem_nil
  | cons e rest ih =>
    rw [snsdMatchCfg] at h
    obtain ⟨p, ⟨hcheck, -, -⟩ | ⟨hcheck, hnot, hkeeps⟩⟩ :=
      checkAndFill_spec pton anyflag mode e port
    · rw [hcheck] at h
      simp at h
    · rw [hcheck] at h
      intro x hx
      rcases List.mem_cons.mp hx with rfl | hx
      · exact hnot
      · rw [← hkeeps.addr]
        exact ih h x hx

theorem FirstTakes.unique {s : CfgState} {addr : Bytes} {e e' : CfgInfos}
    (h : FirstTakes pton s mode addr e) (h' : FirstTakes pton s mode addr e') : e = e' := by
  obtain ⟨pre, post, hlist, hpre, htakes⟩ := h
  obtain ⟨pre', post', hlist', hpre', htakes'⟩ := h'
  have heq := hlist.symm.trans hlist'
  rcases List.append_eq_append_iff.mp heq with ⟨c, hc, hc'⟩ | ⟨c, hc, hc'⟩
  · cases c with
    | nil => exact (List.cons.inj hc').1
    | cons x c =>
      obtain ⟨rfl, -⟩ := List.cons.inj hc'
      exact absurd htakes (hpre' e (by rw [hc]; simp))
  · cases c with
    | nil => exact (List.cons.inj hc').1.symm
    | cons x c =>
      obtain ⟨rfl, -⟩ := List.cons.inj hc'
      exact absurd htakes' (hpre e' (by rw [hc]; simp))

end Match

section Dealwith
variable {ρ : Type} {pton : Pton} {s : CfgState} {mode : SnsdMode} {nets : List (NetInfo ρ)}

/-- The ports that stay, each filled from the first entry that takes it. -/
theorem mem_dealwithCfg {net : NetInfo ρ} : net ∈ snsdDealwithCfg pton s mode nets ↔
    ∃ old ∈ nets, ∃ e, snsdMatchCfg pton s.anyflag mode (snsdGetNetCfg s mode) old.portInfo =
      (some e, net.portInfo) ∧ net.run = old.run := by
  unfold snsdDealwithCfg
  rw [List.mem_filterMap]
  constructor
  · intro h
    obtain ⟨old, hold, h⟩ := h
    split at h
    · next e port hmatch =>
      cases h
      exact ⟨old, hold, e, hmatch, rfl⟩
    · cases h
  · intro h
    obtain ⟨old, hold, e, hmatch, hrun⟩ := h
    refine ⟨old, hold, ?_⟩
    rw [hmatch, ← hrun]

theorem matchCfg_first {port q : PortInfo} {e : CfgInfos}
    (h : snsdMatchCfg pton s.anyflag mode (snsdGetNetCfg s mode) port = (some e, q)) :
    FirstTakes pton s mode port.addr e ∧ FilledFrom pton mode e port q := by
  obtain ⟨⟨pre, post, hlist, hpre⟩, htakes, hfill⟩ := matchCfg_some h
  exact ⟨⟨pre, post, hlist, hpre, htakes⟩, hfill⟩

end Dealwith

end NvmeSnsd.Mgt
