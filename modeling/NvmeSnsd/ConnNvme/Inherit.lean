import NvmeSnsd.Cfg.RoundTrip
import NvmeSnsd.ConnNvme.Sysfs

/-! The disconnect that a batch adds for a controller of sysfs. -/
namespace NvmeSnsd.ConnNvme
open Lib ConnPeon Cfg

/-- The value of a digit; what is none has 36. -/
def digitValue (b : UInt8) : ℕ :=
  if 48 ≤ b ∧ b ≤ 57 then b.toNat-48
  else if 97 ≤ b ∧ b ≤ 122 then b.toNat-87
  else if 65 ≤ b ∧ b ≤ 90 then b.toNat-55
  else 36

/-- The base that `strtoul` detects, and where the digits begin. -/
def detectBase (s : Bytes) : ℕ × Bytes :=
  match s with
  | 48 :: x :: d :: rest =>
    if (x = 120 ∨ x = 88) ∧ digitValue d < 16 then (16, d :: rest) else (8, s)
  | 48 :: _ => (8, s)
  | _ => (10, s)

/-- `strtoul(s, &endptr, 0)`: the value, and the string at `endptr`. -/
def strtoul (s : Bytes) : ℕ × Bytes :=
  let t := s.dropWhile isSpace
  let neg := t.head? = some 45
  let (base, u) := detectBase (if t.head? = some 45 ∨ t.head? = some 43 then t.tail else t)
  let digits := u.takeWhile fun b => digitValue b < base
  if digits = [] then (0, s)
  else
    let n := digits.foldl (fun n b => n*base+digitValue b) 0
    -- the result is an `unsigned long`
    (if 2^64 ≤ n then 2^64-1 else if neg then (2^64-n)%2^64 else n, u.drop digits.length)

/-- `snsd_nvme_add_disconnect`, up to the call that adds the task; none is
`-EINVAL`. -/
def snsdNvmeAddDisconnect (pton : ℕ → Bytes → Option Bytes) (ctx : Ctx) : Option ConnectParam :=
  let protocol :=
    if ctx.transport.text = ascii "rdma" then some SNSD_PROTOCOL_ROCE
    else if ctx.transport.text = ascii "tcp" then some SNSD_PROTOCOL_TCP
    else none
  match protocol with
  | none => none
  | some protocol =>
    let port := strtoul ctx.trsvcid.text
    if port.2 ≠ [] then none
    else
      let family := if 46 ∈ ctx.hostTraddr.text then AF_INET else AF_INET6
      match pton family ctx.traddr.text, pton family ctx.hostTraddr.text with
      | some traddr, some hostTraddr =>
        some { protocol := protocol
               portid := port.1%2^16
               family := family
               traddr := traddr ++ List.replicate (ipv6AddrLength-traddr.length) 0
               hostTraddr := hostTraddr ++ List.replicate (ipv6AddrLength-hostTraddr.length) 0 }
      | _, _ => none

/-- What is relied on of `inet_pton`: it reads back what `inet_ntop` prints of an
IPv4 address, in decimals with dots. -/
structure InetPton (ntop : Ntop) (pton : ℕ → Bytes → Option Bytes) : Prop where
  inverts : ∀ {a t}, ntop AF_INET a = some t →
    pton AF_INET t.text = some (a.take ipv4AddrLength)
  dotted : ∀ {a t}, ntop AF_INET a = some t → 46 ∈ t.text

section Number
variable {n : ℕ}

theorem digitValue_decimal {b : UInt8} (h : b ∈ decimal n) : digitValue b = b.toNat-48 := by
  obtain ⟨h0, h9⟩ := decimal_digit h
  exact if_pos ⟨UInt8.le_iff_toNat_le.mpr h0, UInt8.le_iff_toNat_le.mpr h9⟩

theorem foldl_digitValue : (decimal n).foldl (fun m b => m*10+digitValue b) 0 = n := by
  have hcast (l : Bytes) (hl : ∀ b ∈ l, 48 ≤ b.toNat ∧ digitValue b = b.toNat-48) (m : ℕ) :
      ((l.foldl (fun m b => m*10+digitValue b) m : ℕ) : ℤ) =
        l.foldl (fun (m : ℤ) b => m*10+((b.toNat : ℤ)-48)) m := by
    induction l generalizing m with
    | nil => rfl
    | cons b l ih =>
      obtain ⟨⟨h0, hv⟩, hl⟩ := List.forall_mem_cons.mp hl
      rw [List.foldl_cons, List.foldl_cons, ih hl, hv]
      congr 1
      omega
  have hdigits : ∀ b ∈ decimal n, 48 ≤ b.toNat ∧ digitValue b = b.toNat-48 :=
    fun b hb => ⟨(decimal_digit hb).1, digitValue_decimal hb⟩
  have h := hcast (decimal n) hdigits 0
  rw [Nat.cast_zero, foldl_decimal] at h
  exact Int.ofNat_inj.mp h

theorem foldl_digitValue_lt (l : Bytes) (hl : ∀ b ∈ l, digitValue b < 10) (m : ℕ) :
    l.foldl (fun m b => m*10+digitValue b) m < (m+1)*10^l.length := by
  induction l generalizing m with
  | nil => simp
  | cons b l ih =>
    obtain ⟨hb, hl⟩ := List.forall_mem_cons.mp hl
    have h := ih hl (m*10+digitValue b)
    have hle : (m*10+digitValue b+1)*10^l.length ≤ ((m+1)*10)*10^l.length :=
      Nat.mul_le_mul_right _ (by omega)
    rw [List.foldl_cons, List.length_cons, pow_succ']
    calc l.foldl (fun m b => m*10+digitValue b) (m*10+digitValue b)
        < (m*10+digitValue b+1)*10^l.length := h
      _ ≤ (m+1)*10*10^l.length := hle
      _ = (m+1)*(10*10^l.length) := by rw [mul_assoc]

theorem digitValue_lt {b : UInt8} (h : b ∈ decimal n) : digitValue b < 10 := by
  rw [digitValue_decimal h]
  have h9 := (decimal_digit h).2
  omega

/-- A positive number is printed without a zero in front. -/
theorem decimal_head (hn : 0 < n) : (decimal n).head? ≠ some 48 := by
  intro h
  rcases hd : decimal n with _ | ⟨b, rest⟩
  · exact decimal_ne_nil n hd
  rw [hd] at h
  obtain rfl := Option.some.inj h
  have hvalue := foldl_digitValue (n := n)
  have hrest : ∀ b ∈ rest, digitValue b < 10 := fun b hb =>
    digitValue_lt (n := n) (by rw [hd]; exact List.mem_cons_of_mem _ hb)
  have hlt := foldl_digitValue_lt rest hrest 0
  rw [hd, List.foldl_cons] at hvalue
  have hzero : 0*10+digitValue 48 = 0 := by decide
  rw [hzero] at hvalue
  rw [hvalue, Nat.zero_add, Nat.one_mul] at hlt
  rcases rest with _ | ⟨c, rest⟩
  · simp at hlt
    omega
  · have hlen := decimal_length_le (n := n) (k := (c :: rest).length) (by simp) hlt
    rw [hd] at hlen
    simp at hlen

theorem strtoul_decimal (hn : 0 < n) (hlt : n < 2^64) : strtoul (decimal n) = (n, []) := by
  have htake : (decimal n).takeWhile (fun b => decide (digitValue b < 10)) = decimal n :=
    List.takeWhile_eq_self_iff.mpr fun b hb => decide_eq_true (digitValue_lt hb)
  have hhead := decimal_head hn
  have hfold := foldl_digitValue (n := n)
  rcases hd : decimal n with _ | ⟨b, rest⟩
  · exact absurd hd (decimal_ne_nil n)
  rw [hd] at htake hhead hfold
  have hdigit := decimal_digit (n := n) (b := b) (by rw [hd]; exact List.mem_cons_self)
  have hb : b ≠ 48 := fun he => hhead (by rw [he]; rfl)
  have hspace : isSpace b = false := by
    by_contra hs
    simp only [isSpace, Bool.not_eq_false, Bool.or_eq_true, beq_iff_eq, Bool.and_eq_true,
      decide_eq_true_eq, UInt8.le_iff_toNat_le] at hs
    have h13 : (13 : UInt8).toNat = 13 := rfl
    rcases hs with rfl | ⟨-, hs⟩
    · exact absurd hdigit.1 (by decide)
    · omega
  have hsign (d : UInt8) (hlow : d.toNat < 48) : ¬ some b = some d := by
    intro he
    rw [Option.some.inj he] at hdigit
    omega
  have hbase : detectBase (b :: rest) = (10, b :: rest) := by
    unfold detectBase
    split
    · next he => exact absurd (List.cons.inj he).1 hb
    · next he => exact absurd (List.cons.inj he).1 hb
    · rfl
  unfold strtoul
  rw [List.dropWhile_cons_of_neg (by simp [hspace])]
  simp only [List.head?_cons, hsign 45 (by decide), hsign 43 (by decide), or_self, if_false, hbase,
    htake, hfold, List.drop_length]
  rw [if_neg (List.cons_ne_nil _ _), if_neg (by omega)]

end Number

/-! The address line. -/

/-- The key of a field of the line. -/
def fieldKey (p : Bytes) : Bytes := p.takeWhile (· != 61)

/-- The fields of the address that a context has. -/
def ctxFields (ctx : Ctx) : List Bytes :=
  [ascii "traddr=" ++ ctx.traddr.text, ascii "trsvcid=" ++ ctx.trsvcid.text,
    ascii "host_traddr=" ++ ctx.hostTraddr.text]

/-- A field that the parser passes over. -/
def OtherField (p : Bytes) : Prop :=
  fieldKey p ∉ [ascii "traddr", ascii "trsvcid", ascii "host_traddr"]

instance (p : Bytes) : Decidable (OtherField p) := inferInstanceAs (Decidable (_ ∉ _))

section Parse
variable {ctx c r : Ctx} {p : Bytes}

theorem strcpy_text {cap : ℕ} (h : 0 < cap) (t : CStr cap) : strcpy h t.text = .ok t := by
  rw [strcpy, if_pos t.fits]
  exact congrArg Except.ok (CStr.ext (CStr.clip_text t.noNul t.fits))

theorem fieldKey_eq {key : Bytes} (hk : 61 ∉ key) (h : key ++ [61] <+: p) :
    fieldKey p = key := by
  obtain ⟨rest, rfl⟩ := h
  rw [fieldKey, List.append_assoc, List.singleton_append, takeWhile_append_stop (by decide),
    List.takeWhile_eq_self_iff]
  intro b hb
  simp only [bne_iff_ne]
  rintro rfl
  exact hk hb

theorem parseField_other (h : OtherField p) : parseField c p = .ok c := by
  have hnot (key item : Bytes) (hitem : item = key ++ [61]) (hk : 61 ∉ key)
      (hmem : key ∈ [ascii "traddr", ascii "trsvcid", ascii "host_traddr"]) :
      ¬ item.isPrefixOf p = true := by
    intro hpre
    apply h
    rw [fieldKey_eq hk (hitem ▸ List.isPrefixOf_iff_prefix.mp hpre)]
    exact hmem
  unfold parseField
  split
  · rfl
  · rw [if_neg (hnot (ascii "traddr") (ascii "traddr=") rfl (by decide) (by simp)),
      if_neg (hnot (ascii "trsvcid") (ascii "trsvcid=") rfl (by decide) (by simp)),
      if_neg (hnot (ascii "host_traddr") (ascii "host_traddr=") rfl (by decide) (by simp))]

theorem parseField_traddr :
    parseField c (ascii "traddr=" ++ ctx.traddr.text) = .ok { c with traddr := ctx.traddr } := by
  unfold parseField
  rw [if_neg (by simp [ascii]), if_pos (List.isPrefixOf_iff_prefix.mpr (List.prefix_append _ _)),
    List.drop_left, strcpy_text]
  rfl

theorem parseField_trsvcid :
    parseField c (ascii "trsvcid=" ++ ctx.trsvcid.text) = .ok { c with trsvcid := ctx.trsvcid } := by
  have hnot : ¬ (ascii "traddr=").isPrefixOf (ascii "trsvcid=" ++ ctx.trsvcid.text) = true := by
    simp [ascii, List.isPrefixOf]
  unfold parseField
  rw [if_neg (by simp [ascii]), if_neg hnot,
    if_pos (List.isPrefixOf_iff_prefix.mpr (List.prefix_append _ _)), List.drop_left, strcpy_text]
  rfl

theorem parseField_hostTraddr :
    parseField c (ascii "host_traddr=" ++ ctx.hostTraddr.text) =
      .ok { c with hostTraddr := ctx.hostTraddr } := by
  have hnot (key : Bytes) (hk : key = ascii "traddr=" ∨ key = ascii "trsvcid=") :
      ¬ key.isPrefixOf (ascii "host_traddr=" ++ ctx.hostTraddr.text) = true := by
    rcases hk with rfl | rfl <;> simp [ascii, List.isPrefixOf]
  unfold parseField
  rw [if_neg (by simp [ascii]), if_neg (hnot _ (Or.inl rfl)), if_neg (hnot _ (Or.inr rfl)),
    if_pos (List.isPrefixOf_iff_prefix.mpr (List.prefix_append _ _)), List.drop_left, strcpy_text]
  rfl

/-- After some fields: those of the context that were among them are stored. -/
structure Parsed (ctx c : Ctx) (fields : List Bytes) (r : Ctx) : Prop where
  transport : r.transport = c.transport
  traddr : ascii "traddr=" ++ ctx.traddr.text ∈ fields ∨ c.traddr = ctx.traddr →
    r.traddr = ctx.traddr
  trsvcid : ascii "trsvcid=" ++ ctx.trsvcid.text ∈ fields ∨ c.trsvcid = ctx.trsvcid →
    r.trsvcid = ctx.trsvcid
  hostTraddr : ascii "host_traddr=" ++ ctx.hostTraddr.text ∈ fields ∨
    c.hostTraddr = ctx.hostTraddr → r.hostTraddr = ctx.hostTraddr

/-- One field of the context or another one. -/
theorem parseField_step (h : p ∈ ctxFields ctx ∨ OtherField p) :
    ∃ c', parseField c p = .ok c' ∧ Parsed ctx c [p] c' := by
  by_cases hother : OtherField p
  · have hne (key v : Bytes) (hk : 61 ∉ key)
        (hmem : key ∈ [ascii "traddr", ascii "trsvcid", ascii "host_traddr"]) :
        (key ++ [61]) ++ v ∉ [p] := by
      intro he
      apply hother
      rw [← List.mem_singleton.mp he, fieldKey_eq hk (List.prefix_append _ _)]
      exact hmem
    refine ⟨c, parseField_other hother, rfl, ?_, ?_, ?_⟩
    · exact fun hin => hin.resolve_left (hne (ascii "traddr") _ (by decide) (by simp))
    · exact fun hin => hin.resolve_left (hne (ascii "trsvcid") _ (by decide) (by simp))
    · exact fun hin => hin.resolve_left (hne (ascii "host_traddr") _ (by decide) (by simp))
  · have hfield := h.resolve_right hother
    have hcross {a b v w : Bytes} (hab : fieldKey (a ++ v) ≠ fieldKey (b ++ w)) :
        a ++ v ∉ [b ++ w] := fun he => hab (congrArg fieldKey (List.mem_singleton.mp he))
    have hkt : fieldKey (ascii "traddr=" ++ ctx.traddr.text) = ascii "traddr" :=
      fieldKey_eq (by decide) (List.prefix_append (ascii "traddr=") _)
    have hks : fieldKey (ascii "trsvcid=" ++ ctx.trsvcid.text) = ascii "trsvcid" :=
      fieldKey_eq (by decide) (List.prefix_append (ascii "trsvcid=") _)
    have hkh : fieldKey (ascii "host_traddr=" ++ ctx.hostTraddr.text) = ascii "host_traddr" :=
      fieldKey_eq (by decide) (List.prefix_append (ascii "host_traddr=") _)
    have hts : ascii "traddr" ≠ ascii "trsvcid" := by decide
    have hth : ascii "traddr" ≠ ascii "host_traddr" := by decide
    have hsh : ascii "trsvcid" ≠ ascii "host_traddr" := by decide
    rcases List.mem_cons.mp hfield with rfl | hfield
    · refine ⟨_, parseField_traddr, rfl, fun _ => rfl, ?_, ?_⟩
      · exact fun hin => hin.resolve_left (hcross (by rw [hks, hkt]; exact hts.symm))
      · exact fun hin => hin.resolve_left (hcross (by rw [hkh, hkt]; exact hth.symm))
    rcases List.mem_cons.mp hfield with rfl | hfield
    · refine ⟨_, parseField_trsvcid, rfl, ?_, fun _ => rfl, ?_⟩
      · exact fun hin => hin.resolve_left (hcross (by rw [hkt, hks]; exact hts))
      · exact fun hin => hin.resolve_left (hcross (by rw [hkh, hks]; exact hsh.symm))
    · obtain rfl := List.mem_singleton.mp hfield
      refine ⟨_, parseField_hostTraddr, rfl, ?_, ?_, fun _ => rfl⟩
      · exact fun hin => hin.resolve_left (hcross (by rw [hkt, hkh]; exact hth))
      · exact fun hin => hin.resolve_left (hcross (by rw [hks, hkh]; exact hsh))

theorem parse_fields {fields : List Bytes}
    (h : ∀ p ∈ fields, p ∈ ctxFields ctx ∨ OtherField p) :
    ∃ r, fields.foldlM parseField c = .ok r ∧ Parsed ctx c fields r := by
  induction fields generalizing c with
  | nil => exact ⟨c, rfl, rfl, by simp, by simp, by simp⟩
  | cons p fields ih =>
    obtain ⟨hp, hfields⟩ := List.forall_mem_cons.mp h
    obtain ⟨c', hstep, hfirst⟩ := parseField_step (c := c) hp
    obtain ⟨r, hrest, hr⟩ := ih (c := c') hfields
    refine ⟨r, ?_, hr.transport.trans hfirst.transport, ?_, ?_, ?_⟩
    · rw [List.foldlM_cons, hstep]
      exact hrest
    · intro hin
      apply hr.traddr
      rw [List.mem_cons, or_right_comm] at hin
      exact hin.symm.imp_right fun hin => hfirst.traddr (hin.imp_left List.mem_singleton.mpr)
    · intro hin
      apply hr.trsvcid
      rw [List.mem_cons, or_right_comm] at hin
      exact hin.symm.imp_right fun hin => hfirst.trsvcid (hin.imp_left List.mem_singleton.mpr)
    · intro hin
      apply hr.hostTraddr
      rw [List.mem_cons, or_right_comm] at hin
      exact hin.symm.imp_right fun hin => hfirst.hostTraddr (hin.imp_left List.mem_singleton.mpr)

end Parse

section Request
variable {ntop : Ntop} {pton : ℕ → Bytes → Option Bytes} {p : ConnectParam} {ctx : Ctx}

theorem Names.servicePort_pos (h : Names ntop p ctx) : 0 < servicePort p := by
  unfold servicePort
  split
  · decide
  · next hnot =>
    apply Nat.pos_of_ne_zero
    intro hz
    rcases h.protocol with hroce | htcp
    · exact hnot ⟨hroce, hz⟩
    · exact h.tcpPort htcp hz

/-- The protocol that the name of the transport stands for. -/
theorem Names.protocol_eq (h : Names ntop p ctx) :
    (if ctx.transport.text = ascii "rdma" then some SNSD_PROTOCOL_ROCE
      else if ctx.transport.text = ascii "tcp" then some SNSD_PROTOCOL_TCP
      else none) = some p.protocol := by
  rw [h.transport]
  rcases h.protocol with hroce | htcp
  · rw [hroce]
    decide
  · rw [htcp]
    decide

/-- The address that `inet_pton` stores in a zeroed array. -/
theorem ipMatch_stored {a : Bytes} (h : a.length = ipv6AddrLength) :
    snsdIpMatch AF_INET (a.take ipv4AddrLength ++
      List.replicate (ipv6AddrLength-(a.take ipv4AddrLength).length) 0) a = true := by
  have hlen : (a.take ipv4AddrLength).length = ipv4AddrLength := by
    rw [List.length_take, h]
    decide
  simp only [snsdIpMatch, beq_self_eq_true, Bool.true_and, Bool.or_eq_true, beq_iff_eq]
  exact Or.inl (List.take_left' hlen)

theorem ctxNessaryInit_some {t u : CStr SNSD_NVME_TRADDR_LEN}
    (hproto : p.protocol = SNSD_PROTOCOL_ROCE ∨ p.protocol = SNSD_PROTOCOL_TCP)
    (hport : p.portid ≠ 0) (ht : ntop p.family p.traddr = some t)
    (hu : ntop p.family p.hostTraddr = some u) :
    ∃ ctx, snsdNvmeCtxNessaryInit ntop p = some ctx := by
  unfold snsdNvmeCtxNessaryInit
  rw [if_pos hproto]
  dsimp only
  rw [if_neg fun h => hport h.2, ht, hu]
  exact ⟨_, rfl⟩

end Request

/-- A request that is accepted for an IPv4 connection, and what sysfs shows of its
controller: the disconnect that is added for the latter is for the same controller. -/
theorem inherited_disconnect_matches {ntop : Ntop} {pton : ℕ → Bytes → Option Bytes}
    (hn : InetNtop ntop) (hp : InetPton ntop pton) {p : ConnectParam} {ctx nctx : Ctx}
    (hfamily : p.family = AF_INET) (hport : p.portid < 2^16)
    (htraddr : p.traddr.length = ipv6AddrLength) (hhost : p.hostTraddr.length = ipv6AddrLength)
    (hinit : snsdNvmeCtxNessaryInit ntop p = some ctx) {line : Bytes} {others : List Bytes}
    (hline : (addressFields line).Perm (ctxFields ctx ++ others))
    (hothers : ∀ o ∈ others, OtherField o) (htransport : nctx.transport = ctx.transport) :
    ∃ parsed q ctx', snsdNvmeCtrlParseAddress line nctx = .ok parsed ∧
      snsdNvmeAddDisconnect pton parsed = some q ∧ snsdNvmeCtxNessaryInit ntop q = some ctx' ∧
      snsdNvmeCtrlMatch ctx' ctx = true := by
  have hnames := names_of_init hport hinit
  -- the line gives back the texts of the context
  have hfields : ∀ f ∈ addressFields line, f ∈ ctxFields ctx ∨ OtherField f := fun f hf =>
    (List.mem_append.mp (hline.subset hf)).imp_right (hothers f)
  have hin (f : Bytes) (hf : f ∈ ctxFields ctx) : f ∈ addressFields line :=
    hline.symm.subset (List.mem_append_left _ hf)
  obtain ⟨parsed, hparse, hstored⟩ := parse_fields (c := { nctx with
    traddr := CStr.empty SNSD_NVME_TRADDR_LEN_pos
    trsvcid := CStr.empty SNSD_NVME_TRSVCID_LEN_pos
    hostTraddr := CStr.empty SNSD_NVME_TRADDR_LEN_pos }) hfields
  have ht : parsed.traddr = ctx.traddr := hstored.traddr (Or.inl (hin _ (by simp [ctxFields])))
  have hs : parsed.trsvcid = ctx.trsvcid := hstored.trsvcid (Or.inl (hin _ (by simp [ctxFields])))
  have hh : parsed.hostTraddr = ctx.hostTraddr :=
    hstored.hostTraddr (Or.inl (hin _ (by simp [ctxFields])))
  have htr : parsed.transport = ctx.transport := hstored.transport.trans htransport
  -- and they are read back as the parameters
  have htaddr := hnames.traddr
  have haddr := hnames.hostTraddr
  rw [hfamily] at htaddr haddr
  have hpos := hnames.servicePort_pos
  have hlt := servicePort_lt hport
  have hmod : servicePort p%2^16 = servicePort p := Nat.mod_eq_of_lt hlt
  let q : ConnectParam :=
    { protocol := p.protocol
      portid := servicePort p
      family := AF_INET
      traddr := p.traddr.take ipv4AddrLength ++
        List.replicate (ipv6AddrLength-(p.traddr.take ipv4AddrLength).length) 0
      hostTraddr := p.hostTraddr.take ipv4AddrLength ++
        List.replicate (ipv6AddrLength-(p.hostTraddr.take ipv4AddrLength).length) 0 }
  have hadd : snsdNvmeAddDisconnect pton parsed = some q := by
    unfold snsdNvmeAddDisconnect
    rw [htr, hnames.protocol_eq, hs, hnames.trsvcid, strtoul_decimal hpos (by omega), hh, ht]
    dsimp only
    rw [if_neg (not_not.mpr rfl), if_pos (hp.dotted haddr), hp.inverts htaddr, hp.inverts haddr,
      hmod]
  have hmt : snsdIpMatch AF_INET q.traddr p.traddr = true := ipMatch_stored htraddr
  have hmh : snsdIpMatch AF_INET q.hostTraddr p.hostTraddr = true := ipMatch_stored hhost
  obtain ⟨ctx', hctx'⟩ : ∃ ctx', snsdNvmeCtxNessaryInit ntop q = some ctx' :=
    ctxNessaryInit_some hnames.protocol hpos.ne' ((hn.reads hmt).trans htaddr)
      ((hn.reads hmh).trans haddr)
  refine ⟨parsed, q, ctx', hparse, hadd, hctx', ?_⟩
  have hservice : servicePort q = servicePort p := by
    change (if _ ∧ servicePort p = 0 then _ else servicePort p) = _
    rw [if_neg fun h => hpos.ne' h.2]
  exact (ctrlMatch_iff_ends hn (names_of_init hlt hctx') hnames).mpr
    ⟨⟨rfl, hfamily.symm, hmt, hmh⟩, hservice⟩

/-! Addresses read back from `plainNtop`. -/

def plainPton : ℕ → Bytes → Option Bytes := fun family text =>
  if family = AF_INET then some ((text.splitOn 46).map fun d => UInt8.ofNat (strtoul d).1)
  else none

theorem strtoul_byte (b : UInt8) : UInt8.ofNat (strtoul (decimal b.toNat)).1 = b := by
  have hb := b.toNat_lt
  rcases Nat.eq_zero_or_pos b.toNat with hz | hpos
  · rw [hz]
    exact (UInt8.toNat_inj.mp (hz.trans (by decide))).symm
  · rw [strtoul_decimal hpos (by omega)]
    exact UInt8.ofNat_toNat

theorem inetPton_plainPton : InetPton plainNtop plainPton where
  inverts := by
    intro a t h
    rcases plainNtop_eq_some.mp h with ⟨-, hl, ht⟩ | ⟨hf, -⟩
    · have hne : a.take ipv4AddrLength ≠ [] := by
        intro hnil
        have hlen := congrArg List.length hnil
        rw [List.length_take, Nat.min_eq_left hl] at hlen
        exact absurd hlen (by decide)
      have hback : ((a.take ipv4AddrLength).map fun b => decimal b.toNat).map
          (fun d => UInt8.ofNat (strtoul d).1) = a.take ipv4AddrLength := by
        rw [List.map_map]
        exact List.map_id'' strtoul_byte _
      rw [plainPton, if_pos rfl, ht, splitOn_joined (Or.inl (by decide)) hne, hback]
    · exact absurd hf (by decide)
  dotted := by
    intro a t h
    rcases plainNtop_eq_some.mp h with ⟨-, hl, ht⟩ | ⟨hf, -⟩
    · rw [ht]
      apply sep_mem_joined
      rw [List.length_take, Nat.min_eq_left hl]
      decide
    · exact absurd hf (by decide)

theorem inherited_disconnect_sample : ∃ parsed q ctx',
    snsdNvmeCtrlParseAddress
        (ascii "host_traddr=10.0.0.1,traddr=10.0.0.2,src_addr=10.0.0.1,trsvcid=4420\n")
        { Ctx.zero with transport := (rdmaCtx "4420").transport } = .ok parsed ∧
      snsdNvmeAddDisconnect plainPton parsed = some q ∧
      snsdNvmeCtxNessaryInit plainNtop q = some ctx' ∧
      snsdNvmeCtrlMatch ctx' (rdmaCtx "4420") = true := by
  have hline : (addressFields
      (ascii "host_traddr=10.0.0.1,traddr=10.0.0.2,src_addr=10.0.0.1,trsvcid=4420\n")).Perm
        (ctxFields (rdmaCtx "4420") ++ [ascii "src_addr=10.0.0.1", []]) := by
    decide +kernel
  exact inherited_disconnect_matches (p := rdmaParam 0) inetNtop_plainNtop inetPton_plainPton rfl
    (by decide) (by decide) (by decide) (by decide) hline (by decide) rfl

end NvmeSnsd.ConnNvme
