import NvmeSnsd.ConnNvme.Written
import NvmeSnsd.Direct.Handle
import NvmeSnsd.Mgt.Lookup

/-! The port number that a direct connection is made to. -/
namespace NvmeSnsd.Direct
open Lib Cfg Mgt ConnNvme

/-- What an entry is to be connected to: its own setting, or that of the base, or
the default of NVMe over RDMA. -/
def trsvcidFor (cfgInfo baseInfo : CfgFields) : Bytes :=
  (chosen invalid (cfgInfo.str .trsvcid).text (baseInfo.str .trsvcid).text).getD
    (decimal SNSD_NVME_RDMA_TRSVCID)

/-- The text of a port number. -/
def DenotesPort (text : Bytes) (n : ℕ) : Prop := (atoi text).toInt = n ∧ 1 ≤ n ∧ n ≤ 65535

theorem DenotesPort.iff_eq {text : Bytes} {m n : ℕ} (h : DenotesPort text n) :
    DenotesPort text m ↔ n = m := by
  constructor
  · intro hm
    exact Int.natCast_inj.mp (h.1.symm.trans hm.1)
  · rintro rfl
    exact h

section Poll
variable {ρ : Type} {pton : Pton} {s : CfgState} {fresh : ρ} {mode : SnsdMode} {sys : NetSystem}
  {count : UInt32} {nets polled : List (NetInfo ρ)}

theorem defaultRoce_protocol {p : PortInfo} (h : p.protocol ≠ 0) :
    p.defaultRoce.protocol = p.protocol := by
  rw [PortInfo.defaultRoce, if_neg h]

theorem defaultRoce_addr (p : PortInfo) : p.defaultRoce.addr = p.addr := by
  rw [PortInfo.defaultRoce]
  split <;> rfl

theorem protocolOne_port {net net' : NetInfo ρ} (h : snsdProtocolOne sys net = some net') :
    net'.portInfo.addr = net.portInfo.addr ∧
      (net.portInfo.protocol ≠ 0 → net'.portInfo.protocol = net.portInfo.protocol) := by
  unfold snsdProtocolOne at h
  dsimp only at h
  split at h
  · cases h
    exact ⟨defaultRoce_addr _, defaultRoce_protocol⟩
  · split at h
    · cases h
    · cases h
      exact ⟨defaultRoce_addr _, defaultRoce_protocol⟩

/-- The ports of a poll have the protocol of the first entry that takes them. -/
theorem polled_protocol (h : snsdCfgNetInfo pton s fresh mode sys count nets = .ok (polled, 0))
    {net : NetInfo ρ} (hnet : net ∈ polled) :
    ∃ e, FirstTakes pton s mode net.portInfo.addr e ∧
      (e.int .protocol ≠ 0 → net.portInfo.protocol = e.int .protocol) := by
  rcases cfgNetInfo_cases h with ⟨hr, -⟩ | ⟨collected, r, -, ⟨hr, -, -⟩ | ⟨-, -, rfl⟩⟩
  · exact absurd rfl hr
  · exact absurd rfl hr
  · have hfrom (x : NetInfo ρ) (hx : x ∈ snsdDealwithCfg pton s mode collected) :
        ∃ e, FirstTakes pton s mode x.portInfo.addr e ∧ x.portInfo.protocol = e.int .protocol := by
      obtain ⟨old, -, e, hfirst, hfill, -⟩ := dealwith_from hx
      rw [← hfill.keeps.addr] at hfirst
      exact ⟨e, hfirst, hfill.protocol⟩
    obtain ⟨x, hx, ⟨-, rfl⟩ | ⟨-, hone⟩⟩ := mem_protocolHandle.mp hnet
    · obtain ⟨e, hfirst, hprotocol⟩ := hfrom _ hx
      exact ⟨e, hfirst, fun _ => hprotocol⟩
    · obtain ⟨e, hfirst, hprotocol⟩ := hfrom x hx
      obtain ⟨haddr, hkept⟩ := protocolOne_port hone
      rw [← haddr] at hfirst
      refine ⟨e, hfirst, fun hne => ?_⟩
      rw [hkept (hprotocol ▸ hne), hprotocol]

end Poll

section Request
variable {pton : Pton} {s : CfgState} {sys : NetSystem} {count : UInt32}
  {answer : PortInfo → ℤ} {nets nets' : List (NetInfo ConnectState)} {calls : List ConnectCall}

/-- A request is filled in from a port of the poll. -/
theorem calls_from {c : ConnectCall} (hc : c ∈ calls)
    (h : directPortHandle pton s sys count answer nets = .ok (nets', calls)) :
    ∃ polled, snsdCfgNetInfo pton s ConnectState.ini .dc sys count nets = .ok (polled, 0) ∧
      ∃ net ∈ polled, c.param = directParam net.portInfo := by
  unfold directPortHandle at h
  obtain ⟨⟨polled, ret⟩, hpoll, h⟩ := bind_eq_ok.mp h
  dsimp only at h
  split at h
  · cases h
    cases hc
  · next hret =>
    cases h
    obtain rfl := not_not.mp hret
    obtain ⟨net, hnet, hcall⟩ := List.mem_flatMap.mp hc
    refine ⟨polled, hpoll, net, hnet, ?_⟩
    have hturn : OneTurn count (answer net.portInfo) net
        (directPortOne count (answer net.portInfo) net).1
        (directPortOne count (answer net.portInfo) net).2 := directPortOne_turn
    generalize (directPortOne count (answer net.portInfo) net).1 = out at hturn
    generalize (directPortOne count (answer net.portInfo) net).2 = made at hturn hcall
    cases hturn with
    | stays | forgotten => cases hcall
    | fails | connects | disconnects | vanishes =>
      rw [List.mem_singleton.mp hcall]
      rfl

/-- A request for a port of a RoCE entry leads to the default port. -/
theorem request_port {ntop : Ntop} {e : CfgInfos} {c : ConnectCall} {ctx : Ctx}
    (hroce : e.int .protocol = Int32.ofNat SNSD_PROTOCOL_ROCE)
    (h : directPortHandle pton s sys count answer nets = .ok (nets', calls)) (hc : c ∈ calls)
    (hport : FirstTakes pton s .dc (c.param.hostTraddr.take ipv4AddrLength) e)
    (hctx : snsdNvmeCtxNessaryInit ntop c.param = some ctx) :
    ctx.trsvcid.text = decimal SNSD_NVME_RDMA_TRSVCID := by
  obtain ⟨polled, hpoll, net, hnet, hparam⟩ := calls_from hc h
  obtain ⟨e', hfirst, hprotocol⟩ := polled_protocol hpoll hnet
  rw [hparam] at hport hctx
  obtain rfl := hport.unique hfirst
  have hroce' : (directParam net.portInfo).protocol = SNSD_PROTOCOL_ROCE := by
    change net.portInfo.protocol.toUInt32.toNat = SNSD_PROTOCOL_ROCE
    rw [hprotocol (by rw [hroce]; decide), hroce]
    rfl
  have hzero : (directParam net.portInfo).portid = 0 := rfl
  have hnames := names_of_init (by rw [hzero]; decide) hctx
  rw [hnames.trsvcid, servicePort, if_pos ⟨hroce', hzero⟩]

end Request

/-- The values of the port number in the string. -/
theorem valuesOf_trsvcid (cfgInfo baseInfo : CfgFields) (snsdHostnqn : CStr _) {ctx : Ctx} {n : ℕ}
    (hctx : ctx.trsvcid.text = decimal n) :
    (valuesOf (ascii "trsvcid") ([44].intercalate
        ((allOptions cfgInfo baseInfo snsdHostnqn ctx).map render))).Perm
      (some (decimal n) ::
        broughtValues (ascii "trsvcid") (pastedOptions cfgInfo baseInfo snsdHostnqn ctx)) := by
  have hpasted : (pastedOptions cfgInfo baseInfo snsdHostnqn ctx).filter
      (·.1 == ascii "trsvcid") = [(ascii "trsvcid", ctx.trsvcid.text)] := by
    rw [pastedOptions]
    cases chosen invalid (cfgInfo.str .hostid).text (baseInfo.str .hostid).text <;> rfl
  have hplain : ((present (plainEntries cfgInfo baseInfo)).filter (·.1 == ascii "trsvcid")).map
      (·.2) = [] := filter_present plainEntries_nodup (ascii "trsvcid")
  have hadded (text : Bytes) : ((addedOption text).filter (·.1 == ascii "trsvcid")) = [] := by
    rw [addedOption]
    split
    · rfl
    · decide
  have hcomma : 44 ∉ decimal n := not_mem_decimal (Or.inl (by decide))
  have hvalues := readPasted_values (ascii "trsvcid")
    (pastedOptions cfgInfo baseInfo snsdHostnqn ctx)
  rw [hpasted, List.map_singleton, hctx, takeWhile_comma hcomma] at hvalues
  rw [valuesOf, parsed_eq, List.filter_append, List.filter_append, List.map_append,
    List.map_append, hplain, hadded, List.map_nil, List.append_nil, List.append_nil]
  exact hvalues

/-- The string has one port number, and it is `m`. -/
theorem fillArg_trsvcid (cfgInfo baseInfo : CfgFields) (snsdHostnqn : CStr _) {ctx : Ctx} {n : ℕ}
    (hctx : ctx.trsvcid.text = decimal n) (m : ℕ) (argstr : Mem SNSD_BUF_SIZE) :
    ∃ a out, snsdNvmeFillArg argstr cfgInfo baseInfo snsdHostnqn ctx = .ok (a, true) ∧
      a.buf.cstr 0 = .ok out ∧
      (valuesOf (ascii "trsvcid") out = [some (decimal m)] ↔ m = n ∧
        broughtValues (ascii "trsvcid") (pastedOptions cfgInfo baseInfo snsdHostnqn ctx) = []) := by
  obtain ⟨a, out, hfill, hcstr, -, -, rfl⟩ :=
    fillArg_writes cfgInfo baseInfo snsdHostnqn ctx argstr
  refine ⟨a, _, hfill, hcstr, ?_⟩
  have hperm := valuesOf_trsvcid cfgInfo baseInfo snsdHostnqn hctx
  constructor
  · intro h
    rw [h] at hperm
    obtain ⟨hone, hnil⟩ := List.cons_eq_cons.mp (List.perm_singleton.mp hperm.symm)
    exact ⟨decimal_injective (Option.some.inj hone).symm, hnil⟩
  · intro ⟨hm, hnil⟩
    rw [hnil, ← hm] at hperm
    exact List.perm_singleton.mp hperm

/-- A connect request for the port of a RoCE entry leads to the port number that
the entry asks for exactly when that is the default, and when nothing that is
pasted in brings another along. -/
theorem direct_trsvcid_iff {pton : Pton} {ntop : Ntop} {s : CfgState} {e : CfgInfos}
    (hroce : e.int .protocol = Int32.ofNat SNSD_PROTOCOL_ROCE) {sys : NetSystem} {count : UInt32}
    {answer : PortInfo → ℤ} {nets nets' : List (NetInfo ConnectState)} {calls : List ConnectCall}
    (hpoll : directPortHandle pton s sys count answer nets = .ok (nets', calls))
    {c : ConnectCall} (hc : c ∈ calls)
    (hport : FirstTakes pton s .dc (c.param.hostTraddr.take ipv4AddrLength) e) {ctx : Ctx}
    (hctx : snsdNvmeCtxNessaryInit ntop c.param = some ctx) {n : ℕ}
    (hn : DenotesPort (trsvcidFor e.toCfgFields s.baseCfg) n)
    (subnqn : Mem NVMF_NQN_FIELD_LEN) (snsdHostnqn : CStr ConnNvme.SNSD_NQN_MAX_LEN)
    (argstr : Mem SNSD_BUF_SIZE) :
    ∃ a out, snsdNvmeFillArg argstr e.toCfgFields s.baseCfg snsdHostnqn (ctx.supplied subnqn) =
        .ok (a, true) ∧
      a.buf.cstr 0 = .ok out ∧
      (valuesOf (ascii "trsvcid") out = [some (decimal n)] ↔
        DenotesPort (trsvcidFor e.toCfgFields s.baseCfg) SNSD_NVME_RDMA_TRSVCID ∧
          broughtValues (ascii "trsvcid")
            (pastedOptions e.toCfgFields s.baseCfg snsdHostnqn (ctx.supplied subnqn)) = []) := by
  have hdefault : ctx.trsvcid.text = decimal SNSD_NVME_RDMA_TRSVCID :=
    request_port hroce hpoll hc hport hctx
  have htext : (ctx.supplied subnqn).trsvcid.text = decimal SNSD_NVME_RDMA_TRSVCID := hdefault
  rw [hn.iff_eq]
  exact fillArg_trsvcid e.toCfgFields s.baseCfg snsdHostnqn htext n argstr

/-! A direct entry with a port number of its own. -/

def portFile (trsvcid : Bytes) : Bytes :=
  ascii "[BASE]\nhostnqn=a\n[SW]\n[DC]\n" ++
    (ascii "host-traddr=10.0.0.1|traddr=10.0.0.2|protocol=roce|trsvcid=" ++ trsvcid ++ ascii "\n")

/-- What is read of a file that is accepted, and the requests of a first poll. -/
def firstRequests (file : Bytes) : Option (List (List Bytes) × List (Bool × ConnPeon.ConnectParam)) :=
  (snsdCfgInit acceptAll ⟨true, true, none⟩ (fun _ _ => []) file clearState).toOption.bind fun r =>
    if r.2 = 0 then
      (directPortHandle directPton r.1 sampleSystem 100 (fun _ => 0) []).toOption.map fun q =>
        (r.1.dcInfoList.map (fun e => [e.hostText, (e.str .traddr).text, (e.str .trsvcid).text,
          signedDecimal (e.int .protocol).toInt]), q.2.map fun c => (c.connect, c.param))
    else none

/-- The request for a RoCE port from 10.0.0.1 to 10.0.0.2. -/
def firstParam : ConnPeon.ConnectParam :=
  ⟨SNSD_PROTOCOL_ROCE, 0, AF_INET, [10, 0, 0, 2] ++ List.replicate 12 0,
    [10, 0, 0, 1] ++ List.replicate 12 0⟩

theorem firstRequests_run (file trsvcid : Bytes) (h : firstRequests file =
    some ([[ascii "10.0.0.1", ascii "10.0.0.2", trsvcid, ascii "1"]], [(true, firstParam)])) :
    ∃ s e nets calls c,
      snsdCfgInit acceptAll ⟨true, true, none⟩ (fun _ _ => []) file clearState = .ok (s, 0) ∧
        e ∈ s.dcInfoList ∧ (e.str .trsvcid).text = trsvcid ∧
        e.int .protocol = Int32.ofNat SNSD_PROTOCOL_ROCE ∧
        directPortHandle directPton s sampleSystem 100 (fun _ => 0) [] = .ok (nets, calls) ∧
        c ∈ calls ∧ c.connect = true ∧ c.param = firstParam ∧
        FirstTakes directPton s .dc (c.param.hostTraddr.take ipv4AddrLength) e := by
  rw [firstRequests] at h
  obtain ⟨⟨s, ret⟩, hinit, h⟩ := Option.bind_eq_some_iff.mp h
  by_cases hret : ret = 0
  case neg =>
    rw [if_neg hret] at h
    cases h
  rw [if_pos hret] at h
  rw [hret] at hinit
  obtain ⟨⟨nets, calls⟩, hpoll, h⟩ := Option.map_eq_some_iff.mp h
  obtain ⟨hentries, hcalls⟩ := Prod.mk.inj h
  obtain ⟨e, hdc, he⟩ := List.map_eq_singleton_iff.mp hentries
  obtain ⟨c, hone, hc⟩ := List.map_eq_singleton_iff.mp hcalls
  simp only [Prod.mk.injEq, List.cons.injEq, and_true] at he hc
  have hroce : e.int .protocol = Int32.ofNat SNSD_PROTOCOL_ROCE := by
    apply signedDecimal_inj
    rw [he.2.2.2]
    decide
  have hparam : c.param = firstParam := hc.2
  have htake : c.param.hostTraddr.take ipv4AddrLength = [10, 0, 0, 1] := by
    rw [hparam]
    rfl
  refine ⟨s, e, nets, calls, c, ok_of_toOption hinit, ?_, he.2.2.1, hroce, ok_of_toOption hpoll,
    ?_, hc.1, hparam, ?_⟩
  · rw [hdc]
    exact List.mem_singleton_self e
  · dsimp only at hone
    rw [hone]
    exact List.mem_singleton_self c
  · rw [htake]
    refine ⟨[], [], hdc, fun _ hx => absurd hx List.not_mem_nil, Or.inr ⟨?_, fun _ => ?_⟩⟩
    · rw [show (e.str .hostTraddr).text = ascii "10.0.0.1" from he.1]
      rfl
    · rw [he.2.1]
      exact ⟨_, rfl⟩

theorem firstCtx : ∃ ctx, snsdNvmeCtxNessaryInit twoNtop firstParam = some ctx ∧
    ctx.trsvcid.text = decimal SNSD_NVME_RDMA_TRSVCID := ⟨_, rfl, by decide⟩

theorem trsvcidFor_own {e baseInfo : CfgFields} {t : Bytes} (h : (e.str .trsvcid).text = t)
    (hne : t ≠ invalid) : trsvcidFor e baseInfo = t := by
  rw [trsvcidFor, chosen, h, if_pos hne]
  rfl

/-- An entry that asks for the default port. -/
theorem direct_trsvcid_sample : ∃ (s : CfgState) (e : CfgInfos) (nets : List (NetInfo ConnectState))
    (calls : List ConnectCall) (c : ConnectCall) (ctx : Ctx) (a : ArgBuf) (out : Bytes),
    snsdCfgInit acceptAll ⟨true, true, none⟩ (fun _ _ => []) (portFile (ascii "4420")) clearState =
        .ok (s, 0) ∧
      directPortHandle directPton s sampleSystem 100 (fun _ => 0) [] = .ok (nets, calls) ∧
      c ∈ calls ∧ c.connect = true ∧ snsdNvmeCtxNessaryInit twoNtop c.param = some ctx ∧
      snsdNvmeFillArg (Mem.zero _) e.toCfgFields s.baseCfg (CStr.clip (by decide) (ascii "a"))
        (ctx.supplied (nqnField (ascii "nqn"))) = .ok (a, true) ∧
      a.buf.cstr 0 = .ok out ∧
      (valuesOf (ascii "trsvcid") out = [some (decimal 4420)] ↔
        DenotesPort (trsvcidFor e.toCfgFields s.baseCfg) SNSD_NVME_RDMA_TRSVCID ∧
          broughtValues (ascii "trsvcid") (pastedOptions e.toCfgFields s.baseCfg
            (CStr.clip (by decide) (ascii "a")) (ctx.supplied (nqnField (ascii "nqn")))) = []) := by
  obtain ⟨s, e, nets, calls, c, hinit, -, htext, hroce, hpoll, hc, hconnect, hparam, hport⟩ :=
    firstRequests_run (portFile (ascii "4420")) (ascii "4420") (by decide +kernel)
  obtain ⟨ctx, hctx, -⟩ := firstCtx
  rw [← hparam] at hctx
  have hfor : trsvcidFor e.toCfgFields s.baseCfg = ascii "4420" :=
    trsvcidFor_own htext (by decide)
  have hn : DenotesPort (trsvcidFor e.toCfgFields s.baseCfg) 4420 := by
    rw [hfor]
    exact ⟨by decide, by decide, by decide⟩
  obtain ⟨a, out, hall⟩ := direct_trsvcid_iff hroce hpoll hc hport hctx hn
    (nqnField (ascii "nqn")) (CStr.clip (by decide) (ascii "a")) (Mem.zero _)
  exact ⟨s, e, nets, calls, c, ctx, a, out, hinit, hpoll, hc, hconnect, hctx, hall⟩

/-- An entry that asks for port 4500 is connected to port 4420. -/
theorem trsvcid_lost : ∃ (s : CfgState) (e : CfgInfos) (nets : List (NetInfo ConnectState))
    (calls : List ConnectCall) (c : ConnectCall) (ctx : Ctx) (a : ArgBuf) (out : Bytes),
    snsdCfgInit acceptAll ⟨true, true, none⟩ (fun _ _ => []) (portFile (ascii "4500")) clearState =
        .ok (s, 0) ∧
      e ∈ s.dcInfoList ∧ e.int .protocol = Int32.ofNat SNSD_PROTOCOL_ROCE ∧
      DenotesPort (trsvcidFor e.toCfgFields s.baseCfg) 4500 ∧
      directPortHandle directPton s sampleSystem 100 (fun _ => 0) [] = .ok (nets, calls) ∧
      c ∈ calls ∧ c.connect = true ∧
      FirstTakes directPton s .dc (c.param.hostTraddr.take ipv4AddrLength) e ∧
      snsdNvmeCtxNessaryInit twoNtop c.param = some ctx ∧
      snsdNvmeFillArg (Mem.zero _) e.toCfgFields s.baseCfg (CStr.clip (by decide) (ascii "a"))
        (ctx.supplied (nqnField (ascii "nqn"))) = .ok (a, true) ∧
      a.buf.cstr 0 = .ok out ∧ valuesOf (ascii "trsvcid") out ≠ [some (decimal 4500)] := by
  obtain ⟨s, e, nets, calls, c, hinit, he, htext, hroce, hpoll, hc, hconnect, hparam, hport⟩ :=
    firstRequests_run (portFile (ascii "4500")) (ascii "4500") (by decide +kernel)
  obtain ⟨ctx, hctx, hport4420⟩ := firstCtx
  rw [← hparam] at hctx
  have hfor : trsvcidFor e.toCfgFields s.baseCfg = ascii "4500" :=
    trsvcidFor_own htext (by decide)
  have hn : DenotesPort (trsvcidFor e.toCfgFields s.baseCfg) 4500 := by
    rw [hfor]
    exact ⟨by decide, by decide, by decide⟩
  have hsupplied : (ctx.supplied (nqnField (ascii "nqn"))).trsvcid.text =
      decimal SNSD_NVME_RDMA_TRSVCID := hport4420
  obtain ⟨a, out, hfill, hcstr, hiff⟩ := fillArg_trsvcid e.toCfgFields s.baseCfg
    (CStr.clip (by decide) (ascii "a")) hsupplied 4500 (Mem.zero _)
  refine ⟨s, e, nets, calls, c, ctx, a, out, hinit, he, hroce, hn, hpoll, hc, hconnect, hport, hctx,
    hfill, hcstr, fun h => ?_⟩
  exact absurd (hiff.mp h).1 (by decide)

end NvmeSnsd.Direct
