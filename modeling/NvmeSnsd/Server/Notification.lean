import NvmeSnsd.Server.Fields

/-! Notifications as a sender means them, the ways to encode them, and what the
decoder makes of such an encoding. -/
namespace NvmeSnsd.Server
open Lib

def addrLength (v6 : Bool) : ℕ := if v6 then ipv6AddrLength else ipv4AddrLength

/-- A notification with the sizes its version requires. -/
structure Notification (ver : ℕ) where
  v6 : Bool
  src : Bytes
  dst : Bytes
  seq : Bytes
  state : Bytes
  reason : Bytes
  adInfo : Bytes
  src_length : src.length = addrLength v6
  dst_length : dst.length = addrLength v6
  seq_length : seq.length = snsdSeqNumLen
  state_length : wordLenOk ver state.length = true
  reason_length : wordLenOk ver reason.length = true
  adInfo_length : adInfo.length ≤ snsdAddtionLenMax

namespace Notification
variable {ver : ℕ}

def srcTlv (n : Notification ver) : Tlv := ⟨UInt8.ofNat (srcType n.v6), n.src⟩

def dstTlv (n : Notification ver) : Tlv := ⟨UInt8.ofNat (dstType n.v6), n.dst⟩

def seqTlv (n : Notification ver) : Tlv := ⟨notifySubTlv5Seq, n.seq⟩

def stateTlv (n : Notification ver) : Tlv := ⟨notifySubTlv6State, n.state⟩

def reasonTlv (n : Notification ver) : Tlv := ⟨notifySubTlv7Reason, n.reason⟩

def adTlv (n : Notification ver) : Tlv := ⟨notifySubTlv8Ad, n.adInfo⟩

/-- The six mandatory sub-TLVs. -/
def subs (n : Notification ver) : List Tlv :=
  [n.srcTlv, n.dstTlv, n.seqTlv, n.stateTlv, n.reasonTlv, n.adTlv]

/-- A type that some handler takes. -/
def knownSub (t : Tlv) : Bool := 1 ≤ t.type.toNat && t.type.toNat ≤ 8

/-- A root TLV with the six mandatory sub-TLVs once each, in any order and
among any sub-TLVs of unknown types. -/
structure Encodes (n : Notification ver) (root : Tlv) : Prop where
  notify : isNotifyRoot root.type = true
  value : ∃ items : List Tlv, root.value = items.flatMap Tlv.encode ∧
    (items.filter knownSub).Perm n.subs

/-- The record a notification decodes to. -/
def record (n : Notification ver) : NtMsg where
  ver := ver
  map := if n.v6 then snsdIpv6NtTlvCompleteFlag else snsdIpv4NtTlvCompleteFlag
  family := familyOf n.v6
  ipTlv := (Mem.zero 38).write 0 (n.srcTlv.encode ++ n.dstTlv.encode)
  seqNumTlv := (Mem.zero 7).write 0 n.seqTlv.encode
  stateTlv := (Mem.zero 7).write 0 (wordOf n.stateTlv)
  ntReasonTlv := (Mem.zero 7).write 0 (wordOf n.reasonTlv)
  adInfoTlv := swapPort ((Mem.zero 266).write 0 n.adTlv.encode)

end Notification

/-- The record says what the notification says: its addresses, its sequence
number as it came, its state and reason as numbers, and its additional
information up to the order of the two port bytes. -/
structure NtMsg.Carries {ver : ℕ} (m : NtMsg) (n : Notification ver) : Prop where
  ver : m.ver = ver
  family : m.family = familyOf n.v6
  complete : snsdCheckMsgComplete m.map = true
  src : m.ipTlv.read sizeofTlInfo (addrLength n.v6) = n.src
  dst : m.ipTlv.read (ipTlvSize n.v6+sizeofTlInfo) (addrLength n.v6) = n.dst
  seq : m.seqNumTlv.read sizeofTlInfo snsdSeqNumLen = n.seq
  state : m.state = beVal n.state
  reason : leVal (m.ntReasonTlv.read sizeofTlInfo 4) = beVal n.reason
  adLength : m.adInfoTlv.read 1 2 = beBytes16 n.adInfo.length
  adInfo : (swapPort m.adInfoTlv).read sizeofTlInfo n.adInfo.length = n.adInfo

/-! A record of one family is fixed by its accepted sub-TLVs of each type. -/

section Congr
variable {ver : ℕ} {xs ys : List Tlv}

theorem oneFamily_iff {v6 : Bool} : OneFamily ver v6 xs ↔
    xs.filter (okSub ver (srcType !v6)) = [] ∧ xs.filter (okSub ver (dstType !v6)) = [] := by
  simp only [OneFamily, List.filter_eq_nil_iff, Bool.not_eq_true]
  exact ⟨fun h => ⟨fun t ht => (h t ht).1, fun t ht => (h t ht).2⟩, fun h t ht => ⟨h.1 t ht, h.2 t ht⟩⟩

theorem any_okSub_congr {k : ℕ} (h : xs.filter (okSub ver k) = ys.filter (okSub ver k)) :
    xs.any (okSub ver k) = ys.any (okSub ver k) := by
  have hany (l : List Tlv) : l.any (okSub ver k) = !(l.filter (okSub ver k)).isEmpty := by
    rw [Bool.eq_iff_iff]
    simp only [List.any_eq_true, Bool.not_eq_true', List.isEmpty_eq_false_iff, ne_eq,
      List.filter_eq_nil_iff, not_forall, not_not, exists_prop]
  rw [hany, hany, h]

theorem mem_ext_ranges {n a b : ℕ} {m m' : Mem n} (hab : a+b ≤ n)
    (ha : m.read 0 a = m'.read 0 a) (hb : m.read a b = m'.read a b)
    (hc : m.read (a+b) (n-(a+b)) = m'.read (a+b) (n-(a+b))) : m = m' := by
  have hall (m : Mem n) : m.bytes = m.read 0 a ++ m.read a b ++ m.read (a+b) (n-(a+b)) := by
    have h1 : m.read 0 (a+b) = m.read 0 a ++ m.read a b := by
      rw [Mem.read_append, Nat.zero_add]
    have h2 := Mem.read_append m 0 (a+b) (n-(a+b))
    rw [Nat.zero_add, h1] at h2
    rw [← h2, Mem.read, List.drop_zero, List.take_of_length_le]
    rw [m.size]
    omega
  apply Mem.ext
  rw [hall m, hall m', ha, hb, hc]

theorem recordOf_congr {v6 : Bool} (hone : OneFamily ver v6 xs)
    (h : ∀ k, xs.filter (okSub ver k) = ys.filter (okSub ver k)) :
    recordOf ver xs = recordOf ver ys := by
  have hone' : OneFamily ver v6 ys := by
    rw [oneFamily_iff, ← h, ← h]
    exact oneFamily_iff.mp hone
  have hlast (k : ℕ) : lastOk ver k xs = lastOk ver k ys := by rw [lastOk, h, lastOk]
  have hver : (recordOf ver xs).ver = (recordOf ver ys).ver := by rw [recordOf_ver, recordOf_ver]
  have hmap : (recordOf ver xs).map = (recordOf ver ys).map := by
    apply Nat.eq_of_testBit_eq
    intro j
    rw [recordOf_map_testBit, recordOf_map_testBit, any_okSub_congr (h _)]
  have hfam : (recordOf ver xs).family = (recordOf ver ys).family := by
    rw [recordOf_family hone, recordOf_family hone', hlast]
  have hip : (recordOf ver xs).ipTlv = (recordOf ver ys).ipTlv := by
    have hsz := ipTlvSize_le v6
    apply mem_ext_ranges hsz
    · rw [recordOf_ip_src hone, recordOf_ip_src hone', hlast]
    · rw [recordOf_ip_dst hone, recordOf_ip_dst hone', hlast]
    · rw [recordOf_ip_tail hone le_rfl (by omega), recordOf_ip_tail hone' le_rfl (by omega)]
  have hseq : (recordOf ver xs).seqNumTlv = (recordOf ver ys).seqNumTlv := by
    rw [recordOf_seqNumTlv, recordOf_seqNumTlv, hlast]
  have hstate : (recordOf ver xs).stateTlv = (recordOf ver ys).stateTlv := by
    rw [recordOf_stateTlv, recordOf_stateTlv, hlast]
  have hreason : (recordOf ver xs).ntReasonTlv = (recordOf ver ys).ntReasonTlv := by
    rw [recordOf_ntReasonTlv, recordOf_ntReasonTlv, hlast]
  have had : (recordOf ver xs).adInfoTlv = (recordOf ver ys).adInfoTlv := by
    rw [recordOf_adInfoTlv, recordOf_adInfoTlv, h]
  exact NtMsg.ext hver hmap hfam hip hseq hstate hreason had

end Congr

namespace Notification
variable {ver : ℕ} (n : Notification ver)

theorem srcTlv_type : n.srcTlv.type.toNat = srcType n.v6 := by
  rw [srcTlv]
  cases n.v6 <;> rfl

theorem dstTlv_type : n.dstTlv.type.toNat = dstType n.v6 := by
  rw [dstTlv]
  cases n.v6 <;> rfl

/-- Each mandatory sub-TLV has a length its handler accepts. -/
theorem subs_ok : ∀ t ∈ n.subs, okAny ver t = true := by
  have hsrc : okAny ver n.srcTlv = true := by
    rw [okAny, srcTlv_type, srcTlv, n.src_length]
    cases n.v6 <;> rfl
  have hdst : okAny ver n.dstTlv = true := by
    rw [okAny, dstTlv_type, dstTlv, n.dst_length]
    cases n.v6 <;> rfl
  have hseq : okAny ver n.seqTlv = true := beq_iff_eq.mpr n.seq_length
  have had : okAny ver n.adTlv = true := decide_eq_true n.adInfo_length
  intro t ht
  simp only [subs, List.mem_cons, List.not_mem_nil, or_false] at ht
  rcases ht with rfl | rfl | rfl | rfl | rfl | rfl
  · exact hsrc
  · exact hdst
  · exact hseq
  · exact n.state_length
  · exact n.reason_length
  · exact had

theorem subs_types : n.subs.map (·.type.toNat) = [srcType n.v6, dstType n.v6, 5, 6, 7, 8] := by
  simp only [subs, List.map_cons, List.map_nil, srcTlv_type, dstTlv_type]
  rfl

theorem subs_types_nodup : (n.subs.map (·.type.toNat)).Nodup := by
  rw [subs_types]
  cases n.v6 <;> decide

theorem encode_srcTlv_length : n.srcTlv.encode.length = ipTlvSize n.v6 := by
  rw [Tlv.encode_length, Tlv.size, srcTlv, n.src_length]
  cases n.v6 <;> rfl

theorem encode_dstTlv_length : n.dstTlv.encode.length = ipTlvSize n.v6 := by
  rw [Tlv.encode_length, Tlv.size, dstTlv, n.dst_length]
  cases n.v6 <;> rfl

theorem subs_oneFamily : OneFamily ver n.v6 n.subs := by
  have hmem (k : ℕ) (hk : k ∉ n.subs.map (·.type.toNat)) :
      ∀ t ∈ n.subs, okSub ver k t = false := by
    intro t ht
    rw [Bool.eq_false_iff]
    intro h
    rw [okSub, Bool.and_eq_true, beq_iff_eq] at h
    exact hk (List.mem_map.mpr ⟨t, ht, h.1⟩)
  have hs : srcType (!n.v6) ∉ n.subs.map (·.type.toNat) := by
    rw [subs_types]
    cases n.v6 <;> decide
  have hd : dstType (!n.v6) ∉ n.subs.map (·.type.toNat) := by
    rw [subs_types]
    cases n.v6 <;> decide
  exact fun t ht => ⟨hmem _ hs t ht, hmem _ hd t ht⟩

/-- What an accepted sub-TLV does. -/
def setSub (m : NtMsg) (t : Tlv) : NtMsg :=
  { putSub m t.type.toNat t with map := m.map ||| 2^(t.type.toNat-1) }

theorem foldl_applySub_ok {ts : List Tlv} (hts : ∀ t ∈ ts, okAny ver t = true) {m : NtMsg}
    (hm : m.ver = ver) : ts.foldl applySub m = ts.foldl setSub m := by
  induction ts generalizing m with
  | nil => rfl
  | cons t ts ih =>
    have hv : (applySub m t).ver = ver := (applySub_ver m t).trans hm
    have ht : applySub m t = setSub m t :=
      applySub_of_okAny (by rw [hm]; exact hts t List.mem_cons_self)
    rw [List.foldl_cons, List.foldl_cons, ih (fun u hu => hts u (List.mem_cons_of_mem _ hu)) hv, ht]

theorem write_src_dst (m : Mem 38) : (m.write 0 n.srcTlv.encode).write (ipTlvSize n.v6) n.dstTlv.encode =
    m.write 0 (n.srcTlv.encode ++ n.dstTlv.encode) := by
  have hs := n.encode_srcTlv_length
  have hd := n.encode_dstTlv_length
  have hsz := ipTlvSize_le n.v6
  have h := Mem.write_append (m := m) (o := 0) (a := n.srcTlv.encode) (b := n.dstTlv.encode)
    (by omega)
  rw [Nat.zero_add, hs] at h
  exact h

/-- The mandatory sub-TLVs alone make the record. -/
theorem recordOf_subs : recordOf ver n.subs = n.record := by
  have hw := n.write_src_dst (Mem.zero 38)
  rw [recordOf, foldl_applySub_ok n.subs_ok rfl, record]
  have h5 : n.seqTlv.type.toNat = 5 := rfl
  have h6 : n.stateTlv.type.toNat = 6 := rfl
  have h7 : n.reasonTlv.type.toNat = 7 := rfl
  have h8 : n.adTlv.type.toNat = 8 := rfl
  simp only [subs, List.foldl_cons, List.foldl_nil, setSub, srcTlv_type, dstTlv_type, h5, h6, h7, h8,
    ← hw]
  have hmap4 : 0 ||| 2^(1-1) ||| 2^(2-1) ||| 2^(5-1) ||| 2^(6-1) ||| 2^(7-1) ||| 2^(8-1) =
      snsdIpv4NtTlvCompleteFlag := by decide
  have hmap6 : 0 ||| 2^(3-1) ||| 2^(4-1) ||| 2^(5-1) ||| 2^(6-1) ||| 2^(7-1) ||| 2^(8-1) =
      snsdIpv6NtTlvCompleteFlag := by decide
  cases n.v6
  · simp only [srcType, dstType, Bool.false_eq_true, if_false, putSub]
    exact NtMsg.ext rfl hmap4 rfl rfl rfl rfl rfl rfl
  · simp only [srcType, dstType, if_true, putSub]
    exact NtMsg.ext rfl hmap6 rfl rfl rfl rfl rfl rfl

theorem filter_knownSub_okSub (k : ℕ) (ts : List Tlv) :
    (ts.filter knownSub).filter (okSub ver k) = ts.filter (okSub ver k) := by
  rw [List.filter_filter]
  apply List.filter_congr
  intro t _
  cases h : okSub ver k t with
  | false => rfl
  | true =>
    have hr := subLenOk_range (okAny_iff.mpr ⟨k, h⟩)
    rw [Bool.true_and, knownSub, Bool.and_eq_true, decide_eq_true_eq, decide_eq_true_eq]
    exact hr

/-- Of each type there is at most one mandatory sub-TLV. -/
theorem filter_subs_length (k : ℕ) : (n.subs.filter (okSub ver k)).length ≤ 1 := by
  have hle : (n.subs.filter (okSub ver k)).length ≤ (n.subs.map (·.type.toNat)).count k := by
    rw [← List.countP_eq_length_filter, List.count, List.countP_map]
    apply List.countP_mono_left
    intro t _ h
    rw [okSub, Bool.and_eq_true] at h
    exact h.1
  exact hle.trans (List.nodup_iff_count_le_one.mp n.subs_types_nodup k)

/-- Order and unknown sub-TLVs do not matter. -/
theorem filter_items {items : List Tlv} (h : (items.filter knownSub).Perm n.subs) (k : ℕ) :
    items.filter (okSub ver k) = n.subs.filter (okSub ver k) := by
  have hp := h.filter (okSub ver k)
  rw [filter_knownSub_okSub] at hp
  have h1 := n.filter_subs_length k
  cases hl : n.subs.filter (okSub ver k) with
  | nil =>
    rw [hl] at hp
    exact hp.eq_nil
  | cons t ts =>
    rw [hl, List.length_cons] at h1
    have hts : ts = [] := List.eq_nil_of_length_eq_zero (by omega)
    rw [hl, hts] at hp
    rw [hts]
    exact hp.eq_singleton

theorem recordOf_items {items : List Tlv} (h : (items.filter knownSub).Perm n.subs) :
    recordOf ver items = n.record := by
  have hf := n.filter_items h
  have hone : OneFamily ver n.v6 items := by
    rw [oneFamily_iff, hf, hf]
    exact oneFamily_iff.mp n.subs_oneFamily
  rw [recordOf_congr hone hf, recordOf_subs]

theorem value_length_of_flatMap {ts : List Tlv} {t : Tlv} (ht : t ∈ ts) :
    t.value.length+3 ≤ (ts.flatMap Tlv.encode).length := by
  obtain ⟨xs, ys, rfl⟩ := List.append_of_mem ht
  rw [List.flatMap_append, List.flatMap_cons, List.length_append, List.length_append,
    Tlv.encode_length, Tlv.size]
  omega

/-- One encoded root decodes to the record of its notification. -/
theorem recordOf_subTlvs {root : Tlv} (h : n.Encodes root) (hlen : root.value.length < 2^16) :
    recordOf ver (subTlvs root) = n.record := by
  obtain ⟨items, hv, hp⟩ := h.value
  have hs : ∀ t ∈ items, t.value.length < 2^16 := by
    intro t ht
    have := value_length_of_flatMap ht
    rw [← hv] at this
    omega
  rw [subTlvs, hv, Tlv.parse_encode _ items hs (fun _ _ => rfl)]
  exact n.recordOf_items hp

theorem encodes_notify {ns : List (Notification ver)} {roots : List Tlv}
    (h : List.Forall₂ Encodes ns roots) : ∀ t ∈ roots, isNotifyRoot t.type = true := by
  induction h with
  | nil => exact fun t ht => absurd ht List.not_mem_nil
  | cons hn _ ih =>
    intro t ht
    rcases List.mem_cons.mp ht with rfl | ht
    · exact hn.notify
    · exact ih t ht

/-- A list of encoded notifications decodes to their records, in order. -/
theorem grammarMsgs_encoded {ns : List (Notification ver)} {roots : List Tlv}
    (h : List.Forall₂ Encodes ns roots) (hlen : (roots.flatMap Tlv.encode).length < 2^16) :
    grammarMsgs ver (roots.flatMap Tlv.encode) = ns.map record := by
  have hs : ∀ t ∈ roots, t.value.length < 2^16 := by
    intro t ht
    have := value_length_of_flatMap ht
    omega
  rw [grammarMsgs, rootTlvs, Tlv.parse_encode _ roots hs (encodes_notify h)]
  clear hlen
  induction h with
  | nil => rfl
  | @cons n root ns roots hn _ ih =>
    rw [List.map_cons, List.map_cons, n.recordOf_subTlvs hn (hs root List.mem_cons_self),
      ih (fun t ht => hs t (List.mem_cons_of_mem _ ht))]

theorem encode_value (t : Tlv) : (t.encode.drop sizeofTlInfo).take t.value.length = t.value := by
  rw [Tlv.encode, sizeofTlInfo, beBytes16]
  exact List.take_length

/-- A stored sub-TLV reads back its value. -/
theorem read_value {n o l : ℕ} (m : Mem n) {t : Tlv} (h : o+t.encode.length ≤ n)
    (hl : t.value.length = l) : (m.write o t.encode).read (o+sizeofTlInfo) l = t.value := by
  have hs : sizeofTlInfo+t.value.length = t.encode.length := (Tlv.encode_length t).symm
  subst hl
  rw [Mem.read_sub _ (l := t.encode.length) (by omega), Mem.read_write h, encode_value]

theorem read_wordOf {t : Tlv} (h4 : t.value.length ≤ 4) :
    leVal (((Mem.zero 7).write 0 (wordOf t)).read sizeofTlInfo 4) = beVal t.value := by
  have hl := wordOf_length h4
  have hr := Mem.read_write (m := Mem.zero 7) (o := 0) (s := wordOf t) (by omega)
  have hsub := Mem.read_sub ((Mem.zero 7).write 0 (wordOf t)) (o := 0) (l := 7)
    (i := sizeofTlInfo) (j := 4) (by decide)
  rw [hl] at hr
  rw [Nat.zero_add, hr] at hsub
  have hw : ((wordOf t).drop sizeofTlInfo).take 4 =
      (List.replicate (4-t.value.length) 0 ++ t.value).reverse := by
    rw [wordOf, sizeofTlInfo, beBytes16]
    apply List.take_of_length_le
    change (List.replicate (4-t.value.length) 0 ++ t.value).reverse.length ≤ 4
    rw [List.length_reverse, List.length_append, List.length_replicate]
    omega
  rw [hsub, hw, ← beVal, beVal_zeros_append]

theorem swapPort_swapPort (m : Mem 266) : swapPort (swapPort m) = m := by
  have hl : (m.read 7 2).length = 2 := by
    rw [Mem.read_length]
    decide
  have hr : (swapPort m).read 7 2 = (m.read 7 2).reverse := by
    have h := Mem.read_write (m := m) (o := 7) (s := (m.read 7 2).reverse)
      (by rw [List.length_reverse, hl]; decide)
    rw [List.length_reverse, hl] at h
    exact h
  have hw := Mem.write_write_suffix (m := m) (o := 7) (a := []) (b := (m.read 7 2).reverse)
    (c := m.read 7 2) List.length_reverse (by rw [List.length_reverse, hl]; decide)
  rw [swapPort, hr, List.reverse_reverse]
  exact hw.trans (Mem.write_read m (by decide))

/-- A decoded record gives back the notification. -/
theorem record_carries : n.record.Carries n where
  ver := rfl
  family := rfl
  complete := by
    rw [record]
    cases n.v6 <;> rfl
  src := by
    have hs := n.encode_srcTlv_length
    have hd := n.encode_dstTlv_length
    have hsz := ipTlvSize_le n.v6
    rw [record, ← write_src_dst, Mem.read_write_before]
    · have h := read_value (Mem.zero 38) (o := 0) (t := n.srcTlv) (by omega) n.src_length
      rw [Nat.zero_add] at h
      exact h
    · cases n.v6 <;> decide
  dst := by
    have hd := n.encode_dstTlv_length
    have hsz := ipTlvSize_le n.v6
    rw [record, ← write_src_dst]
    exact read_value _ (by omega) n.dst_length
  seq := by
    have hl : n.seqTlv.encode.length = 7 := by
      rw [Tlv.encode_length, Tlv.size, seqTlv, n.seq_length]
      rfl
    have h := read_value (Mem.zero 7) (o := 0) (t := n.seqTlv) (by omega) n.seq_length
    rw [Nat.zero_add] at h
    exact h
  state := read_wordOf (wordLenOk_le n.state_length)
  reason := read_wordOf (wordLenOk_le n.reason_length)
  adLength := by
    have ha := n.adInfo_length
    have hl : 3+n.adInfo.length = n.adTlv.encode.length := (Tlv.encode_length n.adTlv).symm
    rw [snsdAddtionLenMax] at ha
    rw [record, swapPort, Mem.read_write_before (by decide)]
    have hsub := Mem.read_sub ((Mem.zero 266).write 0 n.adTlv.encode) (o := 0)
      (l := n.adTlv.encode.length) (i := 1) (j := 2) (by omega)
    rw [Nat.zero_add, Mem.read_write (by omega)] at hsub
    exact hsub
  adInfo := by
    have ha := n.adInfo_length
    have hl : n.adTlv.encode.length = 3+n.adInfo.length := Tlv.encode_length n.adTlv
    rw [snsdAddtionLenMax] at ha
    rw [record, swapPort_swapPort]
    have h := read_value (Mem.zero 266) (o := 0) (t := n.adTlv) (l := n.adInfo.length) (by omega) rfl
    rw [Nat.zero_add] at h
    exact h

end Notification

/-- The decoder computes the grammar, and so gives back what was encoded. -/
theorem dealtMsgs_grammar_roundtrip (ver : ℕ) :
    (∀ (b : Bytes) (len : ℕ), len ≤ b.length → len ≤ snsdMaxTlvLen →
      dealtMsgs ⟨b, 0⟩ len ver = .ok (grammarMsgs ver (b.take len))) ∧
    ∀ (ns : List (Notification ver)) (roots : List Tlv),
      List.Forall₂ Notification.Encodes ns roots →
      (roots.flatMap Tlv.encode).length ≤ snsdMaxTlvLen →
      dealtMsgs ⟨roots.flatMap Tlv.encode, 0⟩ (roots.flatMap Tlv.encode).length ver =
        .ok (ns.map Notification.record) ∧ ∀ n ∈ ns, n.record.Carries n := by
  have hmax : snsdMaxTlvLen = 1492 := rfl
  have hdec (b : Bytes) (len : ℕ) (hb : len ≤ b.length) (hlen : len ≤ snsdMaxTlvLen) :
      dealtMsgs ⟨b, 0⟩ len ver = .ok (grammarMsgs ver (b.take len)) :=
    dealtMsgs_eq ⟨b, 0⟩ (by simp only; omega) (by omega)
  refine ⟨hdec, ?_⟩
  intro ns roots henc hlen
  refine ⟨?_, fun n _ => n.record_carries⟩
  rw [hdec _ _ le_rfl hlen, List.take_length, Notification.grammarMsgs_encoded henc (by omega)]

/-- An address change told in version 0, with an unknown item in between. -/
def sampleNotification : Notification 0 where
  v6 := false
  src := [10, 0, 0, 1]
  dst := [10, 0, 0, 2]
  seq := [0, 0, 0, 9]
  state := [1]
  reason := [5]
  adInfo := [1, 0, 0, 0, 0x11, 0x51]
  src_length := rfl
  dst_length := rfl
  seq_length := rfl
  state_length := rfl
  reason_length := rfl
  adInfo_length := by decide

def sampleRoot : Tlv :=
  ⟨0x21, [sampleNotification.seqTlv, ⟨0x40, [7, 7]⟩, sampleNotification.dstTlv,
    sampleNotification.adTlv, sampleNotification.srcTlv, sampleNotification.reasonTlv,
    sampleNotification.stateTlv].flatMap Tlv.encode⟩

theorem dealtMsgs_sample :
    dealtMsgs ⟨sampleRoot.encode, 0⟩ sampleRoot.encode.length 0 = .ok [sampleNotification.record] := by
  have henc : sampleNotification.Encodes sampleRoot := ⟨rfl, ⟨_, rfl, by decide⟩⟩
  have h := (dealtMsgs_grammar_roundtrip 0).2 [sampleNotification] [sampleRoot]
    (List.Forall₂.cons henc List.Forall₂.nil) (by decide)
  exact h.1

end NvmeSnsd.Server
