import NvmeSnsd.ConnPeon.Task
import NvmeSnsd.Lib.Text

/-! The context of a connection, built from the parameters of a request, and
when two contexts are of one controller. -/
namespace NvmeSnsd.ConnNvme
open Lib ConnPeon

def SNSD_NVME_TRANSPORT_LEN : ℕ := 8
def SNSD_NVME_TRSVCID_LEN : ℕ := 8
def SNSD_NVME_TRADDR_LEN : ℕ := 64
def SNSD_NQN_MAX_LEN : ℕ := 256
def SNSD_DEVICE_NAME_SIZE : ℕ := 32
def SNSD_NVME_RDMA_TRSVCID : ℕ := 4420

theorem SNSD_NQN_MAX_LEN_pos : 0 < SNSD_NQN_MAX_LEN := by decide

theorem SNSD_NVME_TRADDR_LEN_pos : 0 < SNSD_NVME_TRADDR_LEN := by decide

/-- `struct snsd_nvme_ctx` -/
structure Ctx where
  transport : CStr SNSD_NVME_TRANSPORT_LEN
  trsvcid : CStr SNSD_NVME_TRSVCID_LEN
  traddr : CStr SNSD_NVME_TRADDR_LEN
  hostTraddr : CStr SNSD_NVME_TRADDR_LEN
  subsysnqn : CStr SNSD_NQN_MAX_LEN
  dname : CStr SNSD_DEVICE_NAME_SIZE
  deriving DecidableEq

/-- What `calloc` gives. -/
def Ctx.zero : Ctx where
  transport := CStr.empty (by decide)
  trsvcid := CStr.empty (by decide)
  traddr := CStr.empty (by decide)
  hostTraddr := CStr.empty (by decide)
  subsysnqn := CStr.empty (by decide)
  dname := CStr.empty (by decide)

def snsdNvmeTransport (protocol : ℕ) : Bytes :=
  if protocol = SNSD_PROTOCOL_ROCE then ascii "rdma"
  else if protocol = SNSD_PROTOCOL_TCP then ascii "tcp"
  else ascii "---"

/-- `snsd_nvme_ctrl_match` -/
def snsdNvmeCtrlMatch (ctx1 ctx2 : Ctx) : Bool :=
  ctx1.transport.text == ctx2.transport.text && ctx1.trsvcid.text == ctx2.trsvcid.text &&
    ctx1.traddr.text == ctx2.traddr.text && ctx1.hostTraddr.text == ctx2.hostTraddr.text

/-- `inet_ntop(family, addr, .., SNSD_NVME_TRADDR_LEN)`; none is `NULL`. -/
abbrev Ntop := ℕ → Bytes → Option (CStr SNSD_NVME_TRADDR_LEN)

/-- `snsd_nvme_ctx_nessary_init` on a fresh context; none is `false`, upon which
the caller frees the context. -/
def snsdNvmeCtxNessaryInit (ntop : Ntop) (vparam : ConnectParam) : Option Ctx :=
  if vparam.protocol = SNSD_PROTOCOL_ROCE ∨ vparam.protocol = SNSD_PROTOCOL_TCP then
    let portid := vparam.portid
    if vparam.protocol = SNSD_PROTOCOL_TCP ∧ portid = 0 then none
    else
      let portid := if vparam.protocol = SNSD_PROTOCOL_ROCE ∧ portid = 0 then
        SNSD_NVME_RDMA_TRSVCID else portid
      match ntop vparam.family vparam.traddr, ntop vparam.family vparam.hostTraddr with
      | some traddr, some hostTraddr =>
        some { Ctx.zero with
          transport := CStr.clip (by decide) (snsdNvmeTransport vparam.protocol)
          trsvcid := CStr.clip (by decide) (decimal portid)
          traddr := traddr
          hostTraddr := hostTraddr }
      | _, _ => none
  else none

/-- What is relied on of `inet_ntop`: it knows two families, reads an address
of the family's length and no further, and no two addresses have one text. -/
structure InetNtop (ntop : Ntop) : Prop where
  family : ∀ {f a t}, ntop f a = some t → f = AF_INET ∨ f = AF_INET6
  reads : ∀ {f a b}, snsdIpMatch f a b = true → ntop f a = ntop f b
  injective : ∀ {f a b t}, ntop f a = some t → ntop f b = some t → snsdIpMatch f a b = true
  disjoint : ∀ {a b t u}, ntop AF_INET a = some t → ntop AF_INET6 b = some u → t.text ≠ u.text

/-- The port that the context names: NVMe over RDMA has a default. -/
def servicePort (p : ConnectParam) : ℕ :=
  if p.protocol = SNSD_PROTOCOL_ROCE ∧ p.portid = 0 then SNSD_NVME_RDMA_TRSVCID else p.portid

theorem snsdNvmeTransport_text (n : ℕ) :
    (CStr.clip (by decide) (snsdNvmeTransport n) : CStr SNSD_NVME_TRANSPORT_LEN).text =
      snsdNvmeTransport n := by
  apply CStr.clip_text
  all_goals
    unfold snsdNvmeTransport
    split_ifs <;> decide

/-- The two protocols that are accepted have different names. -/
theorem snsdNvmeTransport_inj {m n : ℕ} (hm : m = SNSD_PROTOCOL_ROCE ∨ m = SNSD_PROTOCOL_TCP)
    (hn : n = SNSD_PROTOCOL_ROCE ∨ n = SNSD_PROTOCOL_TCP)
    (h : snsdNvmeTransport m = snsdNvmeTransport n) : m = n := by
  rcases hm with rfl | rfl <;> rcases hn with rfl | rfl
  · rfl
  · exact absurd h (by decide)
  · exact absurd h (by decide)
  · rfl

theorem servicePort_lt {p : ConnectParam} (hp : p.portid < 2^16) : servicePort p < 2^16 := by
  rw [servicePort]
  split
  · decide
  · exact hp

/-- A port fits the field, which `snprintf` does not truncate. -/
theorem trsvcid_text {n : ℕ} (hn : n < 2^16) :
    (CStr.clip (by decide) (decimal n) : CStr SNSD_NVME_TRSVCID_LEN).text = decimal n := by
  apply CStr.clip_text
  · exact not_mem_decimal (Or.inl (by decide))
  · have hl : (decimal n).length ≤ 5 := decimal_length_le (by decide) (by omega)
    exact Nat.lt_of_le_of_lt hl (by decide)

/-- What an accepted request's context says. -/
structure Names (ntop : Ntop) (p : ConnectParam) (c : Ctx) : Prop where
  protocol : p.protocol = SNSD_PROTOCOL_ROCE ∨ p.protocol = SNSD_PROTOCOL_TCP
  tcpPort : p.protocol = SNSD_PROTOCOL_TCP → p.portid ≠ 0
  transport : c.transport.text = snsdNvmeTransport p.protocol
  trsvcid : c.trsvcid.text = decimal (servicePort p)
  traddr : ntop p.family p.traddr = some c.traddr
  hostTraddr : ntop p.family p.hostTraddr = some c.hostTraddr

theorem names_of_init {ntop : Ntop} {p : ConnectParam} {c : Ctx} (hp : p.portid < 2^16)
    (h : snsdNvmeCtxNessaryInit ntop p = some c) : Names ntop p c := by
  rw [snsdNvmeCtxNessaryInit] at h
  split at h
  case isFalse => simp at h
  case isTrue hproto =>
    simp only at h
    split at h
    case isTrue => simp at h
    case isFalse htcp =>
      split at h
      case h_2 => simp at h
      case h_1 t u ht hu =>
        obtain rfl := Option.some.inj h
        refine ⟨hproto, fun hpt h0 => htcp ⟨hpt, h0⟩, snsdNvmeTransport_text _, ?_, ht, hu⟩
        exact trsvcid_text (servicePort_lt hp)

/-- Addresses of accepted requests have one text exactly when they are of one
family and equal in it. -/
theorem text_eq_iff {ntop : Ntop} (hn : InetNtop ntop) {f g : ℕ} {a b : Bytes}
    {t u : CStr SNSD_NVME_TRADDR_LEN} (ht : ntop f a = some t) (hu : ntop g b = some u) :
    t.text = u.text ↔ f = g ∧ snsdIpMatch f a b = true := by
  constructor
  · intro h
    have hfg : f = g := by
      rcases hn.family ht with rfl | rfl <;> rcases hn.family hu with rfl | rfl
      · rfl
      · exact absurd h (hn.disjoint ht hu)
      · exact absurd h.symm (hn.disjoint hu ht)
      · rfl
    subst hfg
    obtain rfl := CStr.ext h
    exact ⟨rfl, hn.injective ht hu⟩
  · rintro ⟨rfl, h⟩
    have htu := hn.reads h
    rw [ht, hu] at htu
    exact congrArg CStr.text (Option.some.inj htu)

/-- One protocol and one pair of addresses. -/
def SameEnds (p1 p2 : ConnectParam) : Prop :=
  p1.protocol = p2.protocol ∧ p1.family = p2.family ∧
    snsdIpMatch p1.family p1.traddr p2.traddr = true ∧
    snsdIpMatch p1.family p1.hostTraddr p2.hostTraddr = true

instance (p1 p2 : ConnectParam) : Decidable (SameEnds p1 p2) :=
  inferInstanceAs (Decidable (_ ∧ _ ∧ _ ∧ _))

/-- The scheduler compares the port as given. -/
theorem peonTaskMatch_iff_ends {p1 p2 : ConnectParam} :
    peonTaskMatch p1 p2 false = true ↔ SameEnds p1 p2 ∧ p1.portid = p2.portid := by
  rw [peonTaskMatch_iff]
  constructor
  · rintro ⟨h1, h2, h3, h4⟩
    obtain ⟨hp, ht⟩ := h4 rfl
    exact ⟨⟨h1, h2, ht, h3⟩, hp⟩
  · rintro ⟨⟨h1, h2, ht, h3⟩, hp⟩
    exact ⟨h1, h2, h3, fun _ => ⟨hp, ht⟩⟩

/-- The NVMe layer compares it after the default is put in. -/
theorem ctrlMatch_iff_ends {ntop : Ntop} (hn : InetNtop ntop) {p1 p2 : ConnectParam} {c1 c2 : Ctx}
    (h1 : Names ntop p1 c1) (h2 : Names ntop p2 c2) :
    snsdNvmeCtrlMatch c1 c2 = true ↔ SameEnds p1 p2 ∧ servicePort p1 = servicePort p2 := by
  have hproto : c1.transport.text = c2.transport.text ↔ p1.protocol = p2.protocol := by
    rw [h1.transport, h2.transport]
    constructor
    · exact snsdNvmeTransport_inj h1.protocol h2.protocol
    · exact congrArg snsdNvmeTransport
  have hport : c1.trsvcid.text = c2.trsvcid.text ↔ servicePort p1 = servicePort p2 := by
    rw [h1.trsvcid, h2.trsvcid]
    exact decimal_injective.eq_iff
  have ht := text_eq_iff hn h1.traddr h2.traddr
  have hh := text_eq_iff hn h1.hostTraddr h2.hostTraddr
  simp only [snsdNvmeCtrlMatch, Bool.and_eq_true, beq_iff_eq]
  rw [hproto, hport, ht, hh, SameEnds]
  tauto

/-- Two requests for one RDMA target, one with the port left to its default and
the other with the default written out. -/
def PortDefaulted (p1 p2 : ConnectParam) : Prop :=
  SameEnds p1 p2 ∧ p1.protocol = SNSD_PROTOCOL_ROCE ∧
    (p1.portid = 0 ∧ p2.portid = SNSD_NVME_RDMA_TRSVCID ∨
      p1.portid = SNSD_NVME_RDMA_TRSVCID ∧ p2.portid = 0)

instance (p1 p2 : ConnectParam) : Decidable (PortDefaulted p1 p2) :=
  inferInstanceAs (Decidable (_ ∧ _ ∧ _))

/-- The port as given and the port in use tell the same requests apart, but for
the default. -/
theorem portid_eq_iff {p1 p2 : ConnectParam} (he : SameEnds p1 p2) :
    (p1.portid = p2.portid ↔ servicePort p1 = servicePort p2) ↔ ¬PortDefaulted p1 p2 := by
  obtain ⟨hp, -⟩ := id he
  have hne : SNSD_NVME_RDMA_TRSVCID ≠ 0 := by decide
  by_cases hr : p1.protocol = SNSD_PROTOCOL_ROCE
  · -- RDMA: zero and the default are the same port in use
    have hr2 : p2.protocol = SNSD_PROTOCOL_ROCE := hp ▸ hr
    simp only [servicePort, PortDefaulted, he, hr, hr2, true_and]
    split_ifs with hz1 hz2 hz2 <;> grind
  · have hr2 : p2.protocol ≠ SNSD_PROTOCOL_ROCE := hp ▸ hr
    simp only [servicePort, PortDefaulted, hr, hr2, false_and, and_false, if_false, not_false_eq_true]

/-- The scheduler and the NVMe layer agree on whether two requests are for one
target, unless one of them leaves the RDMA port to its default and the other
writes the default out. -/
theorem task_match_iff_ctrl_match {ntop : Ntop} (hn : InetNtop ntop) {p1 p2 : ConnectParam}
    {c1 c2 : Ctx} (hp1 : p1.portid < 2^16) (hp2 : p2.portid < 2^16)
    (h1 : snsdNvmeCtxNessaryInit ntop p1 = some c1)
    (h2 : snsdNvmeCtxNessaryInit ntop p2 = some c2) :
    (peonTaskMatch p1 p2 false = true ↔ snsdNvmeCtrlMatch c1 c2 = true) ↔
      ¬PortDefaulted p1 p2 := by
  have hn1 := names_of_init hp1 h1
  have hn2 := names_of_init hp2 h2
  rw [peonTaskMatch_iff_ends, ctrlMatch_iff_ends hn hn1 hn2]
  by_cases he : SameEnds p1 p2
  · simp only [he, true_and]
    exact portid_eq_iff he
  · have hd : ¬PortDefaulted p1 p2 := fun h => he h.1
    simp only [he, hd, false_and, not_false_eq_true]

/-! A text for every address: dotted decimals for the first family, and the
bytes with colons between them for the second. -/

def joined (sep : UInt8) (a : Bytes) : Bytes := [sep].intercalate (a.map fun b => decimal b.toNat)

theorem mem_joined {sep b : UInt8} {a : Bytes} (h : b ∈ joined sep a) :
    b = sep ∨ 48 ≤ b.toNat ∧ b.toNat ≤ 57 := by
  induction a with
  | nil => simp [joined] at h
  | cons x a ih =>
    rcases a with _ | ⟨y, a⟩
    · rw [joined, List.map_singleton, List.intercalate_singleton] at h
      exact Or.inr (decimal_digit h)
    · rw [joined, List.map_cons, List.map_cons, List.intercalate_cons_cons] at h
      rcases List.mem_append.mp h with h | h
      · rcases List.mem_append.mp h with h | h
        · exact Or.inr (decimal_digit h)
        · exact Or.inl (List.mem_singleton.mp h)
      · exact ih h

theorem joined_length_le (sep : UInt8) (a : Bytes) : (joined sep a).length ≤ 4*a.length-1 := by
  have hbyte : ∀ b : UInt8, (decimal b.toNat).length ≤ 3 := by
    intro b
    apply decimal_length_le (by decide)
    have hb := b.toNat_lt
    omega
  induction a with
  | nil => simp [joined]
  | cons x a ih =>
    have hx := hbyte x
    rcases a with _ | ⟨y, a⟩
    · rw [joined, List.map_singleton, List.intercalate_singleton]
      exact hx
    · rw [joined, List.map_cons, List.map_cons, List.intercalate_cons_cons]
      have hrest : ([sep].intercalate (decimal y.toNat :: a.map fun b => decimal b.toNat)).length ≤
          4*(y :: a).length-1 := ih
      simp only [List.length_append, List.length_cons, List.length_nil] at hrest ⊢
      omega

theorem splitOn_joined {sep : UInt8} (hs : sep.toNat < 48 ∨ 57 < sep.toNat) {a : Bytes}
    (ha : a ≠ []) : (joined sep a).splitOn sep = a.map fun b => decimal b.toNat := by
  apply List.splitOn_intercalate
  · intro d hd
    obtain ⟨x, -, rfl⟩ := List.mem_map.mp hd
    exact not_mem_decimal hs
  · simpa using ha

theorem joined_injective {sep : UInt8} (hs : sep.toNat < 48 ∨ 57 < sep.toNat) {a b : Bytes}
    (ha : a ≠ []) (hb : b ≠ []) (h : joined sep a = joined sep b) : a = b := by
  have hmap : a.map (fun b => decimal b.toNat) = b.map fun b => decimal b.toNat := by
    rw [← splitOn_joined hs ha, ← splitOn_joined hs hb, h]
  apply List.map_injective_iff.mpr _ hmap
  intro x y hxy
  exact UInt8.toNat_inj.mp (decimal_injective hxy)

def plainNtop : Ntop := fun family addr =>
  if family = AF_INET ∧ ipv4AddrLength ≤ addr.length then
    some (CStr.clip (by decide) (joined 46 (addr.take ipv4AddrLength)))
  else if family = AF_INET6 ∧ ipv6AddrLength ≤ addr.length then
    some (CStr.clip (by decide) (joined 58 (addr.take ipv6AddrLength)))
  else none

theorem joined_text {sep : UInt8} {a : Bytes} (hs : sep ≠ 0) (hl : a.length ≤ ipv6AddrLength) :
    (CStr.clip (by decide) (joined sep a) : CStr SNSD_NVME_TRADDR_LEN).text = joined sep a := by
  apply CStr.clip_text
  · intro hz
    rcases mem_joined hz with h | ⟨h, -⟩
    · exact hs h.symm
    · exact absurd h (by decide)
  · have hj := joined_length_le sep a
    have h16 : ipv6AddrLength = 16 := rfl
    have h64 : SNSD_NVME_TRADDR_LEN = 64 := rfl
    omega

theorem plainNtop_eq_some {f : ℕ} {a : Bytes} {t : CStr SNSD_NVME_TRADDR_LEN} :
    plainNtop f a = some t ↔
      (f = AF_INET ∧ ipv4AddrLength ≤ a.length ∧ t.text = joined 46 (a.take ipv4AddrLength)) ∨
      (f = AF_INET6 ∧ ipv6AddrLength ≤ a.length ∧ t.text = joined 58 (a.take ipv6AddrLength)) := by
  have h4 : (CStr.clip (by decide) (joined 46 (a.take ipv4AddrLength)) :
      CStr SNSD_NVME_TRADDR_LEN).text = joined 46 (a.take ipv4AddrLength) := by
    apply joined_text (by decide)
    rw [List.length_take]
    exact (Nat.min_le_left _ _).trans (by decide)
  have h6 : (CStr.clip (by decide) (joined 58 (a.take ipv6AddrLength)) :
      CStr SNSD_NVME_TRADDR_LEN).text = joined 58 (a.take ipv6AddrLength) := by
    apply joined_text (by decide)
    rw [List.length_take]
    exact Nat.min_le_left _ _
  have hf : AF_INET ≠ AF_INET6 := by decide
  rw [plainNtop]
  split_ifs with hc hc'
  · rw [Option.some_inj, CStr.ext_iff, h4]
    grind
  · rw [Option.some_inj, CStr.ext_iff, h6]
    grind
  · grind

theorem sep_mem_joined {sep : UInt8} {a : Bytes} (h : 2 ≤ a.length) : sep ∈ joined sep a := by
  rcases a with _ | ⟨x, _ | ⟨y, a⟩⟩
  · simp at h
  · simp at h
  · rw [joined, List.map_cons, List.map_cons, List.intercalate_cons_cons]
    simp

theorem inetNtop_plainNtop : InetNtop plainNtop where
  family := by
    intro f a t h
    rcases plainNtop_eq_some.mp h with ⟨hf, -⟩ | ⟨hf, -⟩
    · exact Or.inl hf
    · exact Or.inr hf
  reads := by
    intro f a b h
    simp only [snsdIpMatch, Bool.or_eq_true, Bool.and_eq_true, beq_iff_eq] at h
    rcases h with ⟨rfl, h⟩ | ⟨rfl, h⟩
    · have hl : ipv4AddrLength ≤ a.length ↔ ipv4AddrLength ≤ b.length := by
        have hc := congrArg List.length h
        rw [List.length_take, List.length_take] at hc
        omega
      simp only [plainNtop, h, hl, show AF_INET ≠ AF_INET6 by decide, false_and, if_false]
    · have hl : ipv6AddrLength ≤ a.length ↔ ipv6AddrLength ≤ b.length := by
        have hc := congrArg List.length h
        rw [List.length_take, List.length_take] at hc
        omega
      simp only [plainNtop, h, hl, show AF_INET6 ≠ AF_INET by decide, false_and, if_false]
  injective := by
    intro f a b t ha hb
    have hne : ∀ {k : ℕ} {l : Bytes}, k ≤ l.length → 0 < k → l.take k ≠ [] := by
      intro k l hk h0 hnil
      have hc := congrArg List.length hnil
      rw [List.length_take, Nat.min_eq_left hk] at hc
      exact absurd hc h0.ne'
    simp only [snsdIpMatch, Bool.or_eq_true, Bool.and_eq_true, beq_iff_eq]
    rcases plainNtop_eq_some.mp ha with ⟨hf, hla, hta⟩ | ⟨hf, hla, hta⟩ <;>
      rcases plainNtop_eq_some.mp hb with ⟨hf', hlb, htb⟩ | ⟨hf', hlb, htb⟩
    · refine Or.inl ⟨hf, joined_injective (Or.inl (by decide)) ?_ ?_ (hta.symm.trans htb)⟩
      · exact hne hla (by decide)
      · exact hne hlb (by decide)
    · exact absurd (hf.symm.trans hf') (by decide)
    · exact absurd (hf.symm.trans hf') (by decide)
    · refine Or.inr ⟨hf, joined_injective (Or.inr (by decide)) ?_ ?_ (hta.symm.trans htb)⟩
      · exact hne hla (by decide)
      · exact hne hlb (by decide)
  disjoint := by
    intro a b t u ha hb he
    rcases plainNtop_eq_some.mp ha with ⟨-, hla, hta⟩ | ⟨hf, -⟩
    case inr => exact absurd hf (by decide)
    rcases plainNtop_eq_some.mp hb with ⟨hf, -⟩ | ⟨-, -, htb⟩
    case inl => exact absurd hf (by decide)
    -- the dot is in the one text and cannot be in the other
    have hdot : 46 ∈ joined 46 (a.take ipv4AddrLength) := by
      apply sep_mem_joined
      rw [List.length_take, Nat.min_eq_left hla]
      decide
    rw [← hta, he, htb] at hdot
    rcases mem_joined hdot with h | ⟨h, -⟩
    · exact absurd h (by decide)
    · exact absurd h (by decide)

/-- A request for port `port` of 10.0.0.2 from 10.0.0.1 over RDMA. -/
def rdmaParam (port : ℕ) : ConnectParam where
  protocol := SNSD_PROTOCOL_ROCE
  portid := port
  family := AF_INET
  traddr := [10, 0, 0, 2] ++ List.replicate 12 0
  hostTraddr := [10, 0, 0, 1] ++ List.replicate 12 0

def rdmaCtx (port : String) : Ctx := { Ctx.zero with
  transport := CStr.clip (by decide) (ascii "rdma")
  trsvcid := CStr.clip (by decide) (ascii port)
  traddr := CStr.clip (by decide) (ascii "10.0.0.2")
  hostTraddr := CStr.clip (by decide) (ascii "10.0.0.1") }

theorem task_match_other_port :
    (peonTaskMatch (rdmaParam 0) (rdmaParam 4421) false = true ↔
      snsdNvmeCtrlMatch (rdmaCtx "4420") (rdmaCtx "4421") = true) ↔
      ¬PortDefaulted (rdmaParam 0) (rdmaParam 4421) :=
  task_match_iff_ctrl_match inetNtop_plainNtop (by decide) (by decide) (by decide) (by decide)

/-- The two disagree on a request with the port left out and one with the
default in it. -/
theorem default_port_disagrees :
    ¬∀ ntop : Ntop, InetNtop ntop → ∀ (p1 p2 : ConnectParam) (c1 c2 : Ctx),
      p1.portid < 2^16 → p2.portid < 2^16 →
      snsdNvmeCtxNessaryInit ntop p1 = some c1 → snsdNvmeCtxNessaryInit ntop p2 = some c2 →
      (peonTaskMatch p1 p2 false = true ↔ snsdNvmeCtrlMatch c1 c2 = true) := by
  intro h
  have hc := h plainNtop inetNtop_plainNtop (rdmaParam 0) (rdmaParam 4420) (rdmaCtx "4420")
    (rdmaCtx "4420") (by decide) (by decide) (by decide) (by decide)
  exact absurd (hc.mpr (by decide)) (by decide)

end NvmeSnsd.ConnNvme
