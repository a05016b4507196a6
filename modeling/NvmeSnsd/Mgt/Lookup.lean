import NvmeSnsd.Mgt.CfgMatch
import NvmeSnsd.Cfg.Conflict
import NvmeSnsd.ConnNvme.Ctx

/-! The entry whose options a connection is built with, and the entry that its
port was matched to. -/
namespace NvmeSnsd.Mgt
open Lib Cfg ConnNvme

/-- `snsd_find_dc_info` -/
def snsdFindDcInfo (s : CfgState) (hostTraddr traddr : Bytes) (protocol : Int32) :
    Option CfgInfos :=
  s.dcInfoList.find? fun dcItem =>
    hostTraddr == (dcItem.str .hostTraddr).text && traddr == (dcItem.str .traddr).text &&
      protocol == dcItem.int .protocol

/-- `snsd_find_sw_info` -/
def snsdFindSwInfo (s : CfgState) (hostTraddr : Bytes) (protocol : Int32) : Option CfgInfos :=
  s.swInfoList.find? fun swItem =>
    s.anyflag == .yes ||
      hostTraddr == (swItem.str .hostTraddr).text && protocol == swItem.int .protocol

/-- The lookup of `snsd_nvme_build_options`, which hands on what it finds. -/
def snsdNvmeBuildInfo (s : CfgState) (ctx : Ctx) (mode : SnsdMode) (protocol : Int32) :
    Option CfgInfos :=
  match mode with
  | .sw => snsdFindSwInfo s ctx.hostTraddr.text protocol
  | .dc => snsdFindDcInfo s ctx.hostTraddr.text ctx.traddr.text protocol

/-- What is relied on of `inet_pton` for IPv4: the texts that it takes are those
that `inet_ntop` prints, which reads four bytes. -/
structure InetPton (ntop : Ntop) (pton : Pton) : Prop where
  reads : ∀ {a b}, snsdIpMatch AF_INET a b = true → ntop AF_INET a = ntop AF_INET b
  takes : ∀ {t a}, pton AF_INET t = some a ↔
    a.length = ipv4AddrLength ∧ ∃ u, ntop AF_INET a = some u ∧ u.text = t

/-- One of the two lists has no address twice either. -/
theorem netCfg_nodup {s : CfgState} (h : HostsApart s) (mode : SnsdMode) :
    ((snsdGetNetCfg s mode).map CfgInfos.hostText).Nodup := by
  have hnd := h.1
  rw [List.map_append, List.nodup_append'] at hnd
  cases mode with
  | sw => exact hnd.1
  | dc => exact hnd.2.1

/-- Two places of a list of entries with one address are one place. -/
theorem place_unique {list : List CfgInfos} (hnd : (list.map CfgInfos.hostText).Nodup)
    {e e' : CfgInfos} {i j : ℕ} (hi : list[i]? = some e) (hj : list[j]? = some e')
    (h : e.hostText = e'.hostText) : i = j := by
  obtain ⟨hil, rfl⟩ := List.getElem?_eq_some_iff.mp hi
  obtain ⟨hjl, rfl⟩ := List.getElem?_eq_some_iff.mp hj
  have hinj := List.nodup_iff_injective_getElem.mp hnd
  have hfin : (⟨i, by rwa [List.length_map]⟩ : Fin (list.map CfgInfos.hostText).length) =
      ⟨j, by rwa [List.length_map]⟩ := by
    apply hinj
    dsimp only
    rw [List.getElem_map, List.getElem_map]
    exact h
  exact congrArg Fin.val hfin

theorem find_of_hosts {list : List CfgInfos} (hnd : (list.map CfgInfos.hostText).Nodup)
    {e : CfgInfos} (he : e ∈ list) {p : CfgInfos → Bool} (hp : p e = true)
    (hhost : ∀ x, p x = true → x.hostText = e.hostText) : list.find? p = some e := by
  cases hf : list.find? p with
  | none => exact absurd hp (List.find?_eq_none.mp hf e he)
  | some x =>
    obtain ⟨i, hi⟩ := List.getElem?_of_mem (List.mem_of_find?_eq_some hf)
    obtain ⟨j, hj⟩ := List.getElem?_of_mem he
    obtain rfl := place_unique hnd hi hj (hhost x (List.find?_some hf))
    rw [← hi, hj]

/-- An address that an entry's text denotes is printed as that text. -/
theorem ntop_of_pton {ntop : Ntop} {pton : Pton} (h : InetPton ntop pton) {t a b : Bytes}
    {u : CStr SNSD_NVME_TRADDR_LEN} (ht : pton AF_INET t = some a)
    (hb : b.take ipv4AddrLength = a) (hu : ntop AF_INET b = some u) : u.text = t := by
  obtain ⟨hlen, v, hv, rfl⟩ := h.takes.mp ht
  have hmatch : snsdIpMatch AF_INET a b = true := by
    unfold snsdIpMatch
    rw [hb, List.take_of_length_le hlen.le]
    simp
  rw [h.reads hmatch, hu] at hv
  rw [Option.some.inj hv]

/-- The lookup for a connection of a port finds the entry that the port was
matched to, which stands at one place of its list only. -/
theorem lookups_agree {ntop : Ntop} {pton : Pton} (hinet : InetPton ntop pton) {o : Outside}
    {f : HostnqnFile} {head : CfgState → SnsdMode → Bytes} {file : Bytes} {s₀ s : CfgState}
    (hinit : snsdCfgInit o f head file s₀ = .ok (s, 0)) {mode : SnsdMode} {port q : PortInfo}
    {e : CfgInfos}
    (hmatch : snsdMatchCfg pton s.anyflag mode (snsdGetNetCfg s mode) port = (some e, q))
    {ctx : Ctx} (hhost : ntop AF_INET q.ip = some ctx.hostTraddr)
    (htgt : mode = .dc → ntop AF_INET q.tgtip = some ctx.traddr) :
    snsdNvmeBuildInfo s ctx mode (e.int .protocol) = some e ∧
      ∃! i : ℕ, (snsdGetNetCfg s mode)[i]? = some e := by
  have hnd := netCfg_nodup (cfgInit_apart hinit) mode
  obtain ⟨⟨pre, post, hlist, hpre⟩, htakes, hfill⟩ := matchCfg_some hmatch
  have he : e ∈ snsdGetNetCfg s mode := by
    rw [hlist]
    exact List.mem_append_right _ List.mem_cons_self
  constructor
  · by_cases hany : s.anyflag = .yes ∧ mode = .sw
    · -- beside any both paths take the first switch entry
      obtain ⟨hyes, rfl⟩ := hany
      have hnil : pre = [] := by
        apply List.eq_nil_iff_forall_not_mem.mpr
        exact fun x hx => hpre x hx (Or.inl ⟨hyes, rfl⟩)
      have hsw : s.swInfoList = e :: post := by
        rw [hnil] at hlist
        exact hlist
      simp only [snsdNvmeBuildInfo, snsdFindSwInfo, hsw, List.find?_cons, hyes, beq_self_eq_true,
        Bool.true_or]
    · have haddr := htakes.resolve_left hany
      have hip : q.ip.take ipv4AddrLength = port.addr := hfill.keeps.addr
      have hhosttext : ctx.hostTraddr.text = e.hostText := ntop_of_pton hinet haddr.1 hip hhost
      cases mode with
      | sw =>
        have hno : (s.anyflag == .yes) = false := by
          rw [beq_eq_false_iff_ne]
          exact fun hyes => hany ⟨hyes, rfl⟩
        apply find_of_hosts hnd he
        · simp only [hno, Bool.false_or, Bool.and_eq_true, beq_iff_eq]
          exact ⟨hhosttext, trivial⟩
        · intro x hx
          simp only [hno, Bool.false_or, Bool.and_eq_true, beq_iff_eq] at hx
          exact hx.1.symm.trans hhosttext
      | dc =>
        obtain ⟨target, rest, htext, htgtip⟩ := hfill.tgtip rfl
        have htake : q.tgtip.take ipv4AddrLength = target := by
          rw [htgtip]
          exact List.take_left' (hinet.takes.mp htext).1
        have htgttext := ntop_of_pton hinet htext htake (htgt rfl)
        apply find_of_hosts hnd he
        · simp only [Bool.and_eq_true, beq_iff_eq]
          exact ⟨⟨hhosttext, htgttext⟩, trivial⟩
        · intro x hx
          simp only [Bool.and_eq_true, beq_iff_eq] at hx
          exact hx.1.1.symm.trans hhosttext
  · obtain ⟨i, hi⟩ := List.getElem?_of_mem he
    exact ⟨i, hi, fun j hj => place_unique hnd hj hi rfl⟩

/-! A directly connected port, with the two addresses of its entry. -/

def directHost : CStr SNSD_NVME_TRADDR_LEN := CStr.clip SNSD_NVME_TRADDR_LEN_pos (ascii "10.0.0.1")
def directTarget : CStr SNSD_NVME_TRADDR_LEN := CStr.clip SNSD_NVME_TRADDR_LEN_pos (ascii "10.0.0.2")

/-- `inet_ntop` for the two addresses. -/
def twoNtop : Ntop := fun family addr =>
  if family = AF_INET ∧ addr.take ipv4AddrLength = [10, 0, 0, 1] then some directHost
  else if family = AF_INET ∧ addr.take ipv4AddrLength = [10, 0, 0, 2] then some directTarget
  else none

/-- `inet_pton` for the two addresses. -/
def twoPton : Pton := fun family text =>
  if family = AF_INET ∧ text = directHost.text then some [10, 0, 0, 1]
  else if family = AF_INET ∧ text = directTarget.text then some [10, 0, 0, 2]
  else none

theorem two_inet : InetPton twoNtop twoPton := by
  constructor
  · intro a b h
    have htake : a.take ipv4AddrLength = b.take ipv4AddrLength := by
      simpa [snsdIpMatch, AF_INET, AF_INET6] using h
    simp only [twoNtop, htake]
  · intro t a
    have hne : directTarget.text ≠ directHost.text := by decide
    constructor
    · intro h
      unfold twoPton at h
      split_ifs at h with h1 h2
      · obtain rfl := Option.some.inj h
        exact ⟨rfl, directHost, rfl, h1.2.symm⟩
      · obtain rfl := Option.some.inj h
        exact ⟨rfl, directTarget, rfl, h2.2.symm⟩
    · rintro ⟨hlen, u, hu, rfl⟩
      have htake : a.take ipv4AddrLength = a := List.take_of_length_le hlen.le
      unfold twoNtop at hu
      rw [htake] at hu
      split_ifs at hu with h1 h2
      · obtain rfl := Option.some.inj hu
        rw [h1.2]
        rfl
      · obtain rfl := Option.some.inj hu
        rw [h2.2]
        rfl

def directFile : Bytes :=
  ascii "[BASE]\n--hostnqn = a\n[SW]\n[DC]\n" ++
    ascii "--host-traddr = 10.0.0.1 | --traddr = 10.0.0.2 | --protocol = roce\n"

def directCtx : Ctx := { Ctx.zero with hostTraddr := directHost, traddr := directTarget }

def directPort : PortInfo :=
  { PortInfo.zero with family := AF_INET, ip := [10, 0, 0, 1] ++ List.replicate 12 0 }

/-- The addresses of the entries that the file gives, with the result of reading it. -/
theorem directFile_reads :
    (snsdCfgInit acceptAll ⟨true, true, none⟩ (fun _ _ => []) directFile clearState).toOption.map
        (fun r => (r.2, r.1.dcInfoList.map fun e => (e.hostText, (e.str .traddr).text))) =
      some (0, [(directHost.text, directTarget.text)]) := by
  decide +kernel

theorem directFile_init : ∃ s e,
    snsdCfgInit acceptAll ⟨true, true, none⟩ (fun _ _ => []) directFile clearState = .ok (s, 0) ∧
      s.dcInfoList = [e] ∧ e.hostText = directHost.text ∧
      (e.str .traddr).text = directTarget.text := by
  have hreads := directFile_reads
  cases hinit : snsdCfgInit acceptAll ⟨true, true, none⟩ (fun _ _ => []) directFile clearState with
  | error =>
    rw [hinit] at hreads
    exact absurd hreads (by simp [Except.toOption])
  | ok r =>
    obtain ⟨s, ret⟩ := r
    rw [hinit] at hreads
    obtain ⟨rfl, hlist⟩ := Prod.mk.inj (Option.some.inj hreads)
    obtain ⟨e, hdc, he⟩ := List.map_eq_singleton_iff.mp hlist
    obtain ⟨hhost, htgt⟩ := Prod.mk.inj he
    exact ⟨s, e, rfl, hdc, hhost, htgt⟩

theorem lookups_agree_sample : ∃ s e q,
    snsdCfgInit acceptAll ⟨true, true, none⟩ (fun _ _ => []) directFile clearState = .ok (s, 0) ∧
      snsdMatchCfg twoPton s.anyflag .dc s.dcInfoList directPort = (some e, q) ∧
      snsdNvmeBuildInfo s directCtx .dc (e.int .protocol) = some e ∧
      ∃! i : ℕ, s.dcInfoList[i]? = some e := by
  obtain ⟨s, e, hinit, hdc, hhost, htgt⟩ := directFile_init
  have hhost' : twoPton AF_INET (e.str .hostTraddr).text = some [10, 0, 0, 1] := by
    rw [show (e.str .hostTraddr).text = directHost.text from hhost]
    rfl
  have htgt' : twoPton AF_INET (e.str .traddr).text = some [10, 0, 0, 2] := by
    rw [htgt]
    rfl
  have htakes : CfgTakes twoPton s.anyflag .dc e directPort.addr :=
    Or.inr ⟨hhost', fun _ => ⟨_, htgt'⟩⟩
  obtain ⟨q, ⟨hcheck, -, hfill⟩ | ⟨-, hnot, -⟩⟩ :=
    checkAndFill_spec twoPton s.anyflag .dc e directPort
  · have hmatch : snsdMatchCfg twoPton s.anyflag .dc (snsdGetNetCfg s .dc) directPort =
        (some e, q) := by
      rw [snsdGetNetCfg, hdc, snsdMatchCfg, hcheck]
    obtain ⟨target, rest, htext, htgtip⟩ := hfill.tgtip rfl
    obtain rfl : target = [10, 0, 0, 2] := Option.some.inj (htext.symm.trans htgt')
    have hqhost : twoNtop AF_INET q.ip = some directCtx.hostTraddr := by
      rw [hfill.keeps.ip]
      rfl
    have hqtgt : twoNtop AF_INET q.tgtip = some directCtx.traddr := by
      rw [htgtip]
      rfl
    have hagree := lookups_agree two_inet hinit hmatch hqhost fun _ => hqtgt
    exact ⟨s, e, q, hinit, hmatch, hagree.1, hagree.2⟩
  · exact absurd htakes hnot

end NvmeSnsd.Mgt
