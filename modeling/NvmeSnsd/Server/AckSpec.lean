import NvmeSnsd.Server.Ack
import NvmeSnsd.Server.Fields
import NvmeSnsd.Server.Frame

/-! The acknowledgement of a frame is exactly that of its accepted
notifications, and always has room: an acknowledgement is no longer than the
notification it answers. -/
namespace NvmeSnsd.Server
open Lib

/-- A complete record, to an address of the host, that is dropped for its role
or finds a free node. -/
def accepted (hostIp : Vector (Mem 16) 64) (pool : MsgPool) (msg : NtMsg) : Bool :=
  snsdCheckMsgComplete msg.map && snsdCheckHostipConsistent hostIp msg &&
    (msg.roleType == snsdClient || !pool.links.isEmpty .recv)

def recordV6 (msg : NtMsg) : Bool := msg.family == AF_INET6

/-- The source, the destination and the sequence number of a root, as received. -/
def ackSubs (ver : ℕ) (v6 : Bool) (subs : List Tlv) : List Tlv :=
  [srcType v6, dstType v6, 5].filterMap fun k => lastOk ver k subs

/-- The acknowledgement of one root. -/
def ackTlv (ver : ℕ) (root : Tlv) : Tlv :=
  ⟨snsdMsgNotifyAckType ||| snsdTlvFormatStruct,
    (ackSubs ver (recordV6 (recordOf ver (subTlvs root))) (subTlvs root)).flatMap Tlv.encode⟩

section Complete
variable {ver : ℕ} {subs : List Tlv}

theorem lastOk_of_testBit (ver : ℕ) (subs : List Tlv) (j : ℕ)
    (h : (recordOf ver subs).map.testBit j = true) :
    ∃ t, lastOk ver (j+1) subs = some t ∧ t ∈ subs ∧ okSub ver (j+1) t = true := by
  rw [recordOf_map_testBit, List.any_eq_true] at h
  obtain ⟨u, hu, huk⟩ := h
  have hne : subs.filter (okSub ver (j+1)) ≠ [] :=
    List.ne_nil_of_mem (List.mem_filter.mpr ⟨hu, huk⟩)
  refine ⟨_, List.getLast?_eq_some_getLast hne, ?_⟩
  exact List.mem_filter.mp (List.getLast_mem hne)

theorem refused_of_testBit (ver : ℕ) (subs : List Tlv) (j : ℕ)
    (h : (recordOf ver subs).map.testBit j = false) :
    ∀ t ∈ subs, okSub ver (j+1) t = false := by
  rw [recordOf_map_testBit, List.any_eq_false] at h
  exact fun t ht => Bool.eq_false_iff.mpr (h t ht)

/-- A complete record has one family, and the sub-TLVs its answer is made of. -/
structure CompleteParts (ver : ℕ) (v6 : Bool) (subs : List Tlv) (src dst seq : Tlv) : Prop where
  family : (recordOf ver subs).family = familyOf v6
  oneFamily : OneFamily ver v6 subs
  src_last : lastOk ver (srcType v6) subs = some src
  dst_last : lastOk ver (dstType v6) subs = some dst
  seq_last : lastOk ver 5 subs = some seq
  src_mem : src ∈ subs ∧ okSub ver (srcType v6) src = true
  dst_mem : dst ∈ subs ∧ okSub ver (dstType v6) dst = true
  seq_mem : seq ∈ subs ∧ okSub ver 5 seq = true

theorem complete_parts (h : snsdCheckMsgComplete (recordOf ver subs).map = true) :
    ∃ v6 src dst seq, CompleteParts ver v6 subs src dst seq := by
  rw [snsdCheckMsgComplete, Bool.or_eq_true, beq_iff_eq, beq_iff_eq] at h
  rcases h with h | h
  · obtain ⟨src, hs, hsm⟩ := lastOk_of_testBit ver subs 0 (by rw [h]; decide)
    obtain ⟨dst, hd, hdm⟩ := lastOk_of_testBit ver subs 1 (by rw [h]; decide)
    obtain ⟨seq, hq, hqm⟩ := lastOk_of_testBit ver subs 4 (by rw [h]; decide)
    have h3 := refused_of_testBit ver subs 2 (by rw [h]; decide)
    have h4 := refused_of_testBit ver subs 3 (by rw [h]; decide)
    have hone : OneFamily ver false subs := fun t ht => ⟨h3 t ht, h4 t ht⟩
    refine ⟨false, src, dst, seq, ?_, hone, hs, hd, hq, hsm, hdm, hqm⟩
    rw [recordOf_family hone]
    exact (congrArg (fun o : Option Tlv => (o.map fun _ => familyOf false).getD 0) hs)
  · obtain ⟨src, hs, hsm⟩ := lastOk_of_testBit ver subs 2 (by rw [h]; decide)
    obtain ⟨dst, hd, hdm⟩ := lastOk_of_testBit ver subs 3 (by rw [h]; decide)
    obtain ⟨seq, hq, hqm⟩ := lastOk_of_testBit ver subs 4 (by rw [h]; decide)
    have h1 := refused_of_testBit ver subs 0 (by rw [h]; decide)
    have h2 := refused_of_testBit ver subs 1 (by rw [h]; decide)
    have hone : OneFamily ver true subs := fun t ht => ⟨h1 t ht, h2 t ht⟩
    refine ⟨true, src, dst, seq, ?_, hone, hs, hd, hq, hsm, hdm, hqm⟩
    rw [recordOf_family hone]
    exact (congrArg (fun o : Option Tlv => (o.map fun _ => familyOf true).getD 0) hs)

namespace CompleteParts
variable {v6 : Bool} {src dst seq : Tlv}

theorem recordV6_eq (h : CompleteParts ver v6 subs src dst seq) :
    recordV6 (recordOf ver subs) = v6 := by
  rw [recordV6, h.family]
  cases v6 <;> rfl

/-- What the handler functions copy out is what came in. -/
theorem copied (h : CompleteParts ver v6 subs src dst seq) :
    (recordOf ver subs).ipTlv.read 0 (2*ipTlvSize v6) = src.encode ++ dst.encode ∧
      (recordOf ver subs).seqNumTlv.bytes = seq.encode := by
  refine ⟨?_, ?_⟩
  · rw [Nat.two_mul, Mem.read_append, Nat.zero_add, recordOf_ip_src h.oneFamily,
      recordOf_ip_dst h.oneFamily, h.src_last, h.dst_last]
    rfl
  · have hl : seq.encode.length = 7 := by
      have hk := encode_length_of_okSub h.seq_mem.2
      simp only [subLenOk, beq_iff_eq] at hk
      omega
    have hw := Mem.read_write (m := Mem.zero 7) (o := 0) (s := seq.encode) (by omega)
    have hs := ((Mem.zero 7).write 0 seq.encode).size
    rw [recordOf_seqNumTlv, h.seq_last, Option.map_some, Option.getD_some]
    rw [Mem.read, List.drop_zero, hl, List.take_of_length_le (by omega)] at hw
    exact hw

theorem types_ne (h : CompleteParts ver v6 subs src dst seq) : [src, dst, seq].Nodup := by
  have hs := h.src_mem.2
  have hd := h.dst_mem.2
  have hq := h.seq_mem.2
  simp only [okSub, Bool.and_eq_true, beq_iff_eq] at hs hd hq
  have hne : srcType v6 ≠ dstType v6 ∧ srcType v6 ≠ 5 ∧ dstType v6 ≠ 5 := by cases v6 <;> decide
  simp only [List.nodup_cons, List.mem_cons, List.not_mem_nil, or_false, not_or, not_false_eq_true,
    List.nodup_nil, and_true]
  refine ⟨⟨?_, ?_⟩, ?_⟩
  · rintro rfl
    exact hne.1 (hs.1.symm.trans hd.1)
  · rintro rfl
    exact hne.2.1 (hs.1.symm.trans hq.1)
  · rintro rfl
    exact hne.2.2 (hd.1.symm.trans hq.1)

end CompleteParts

/-- Items that occur in a list together take no more room than the list. -/
theorem sum_size_le {xs ys : List Tlv} (hn : xs.Nodup) (hs : xs ⊆ ys) :
    (xs.map Tlv.size).sum ≤ (ys.map Tlv.size).sum := by
  obtain ⟨zs, hp, hz⟩ := List.subperm_of_subset hn hs
  rw [← (hp.map Tlv.size).sum_eq]
  exact (hz.map Tlv.size).sum_le_sum fun _ _ => Nat.zero_le _

end Complete

section Build
variable {ver : ℕ}

/-- The type and the length of an acknowledgement are one write. -/
theorem store_header {m : Mem 1492} {o v : ℕ} (hv : o+(3+v) ≤ 1492) (h16 : v < 2^16) :
    (do let p ← m.store o [snsdMsgNotifyAckType ||| snsdTlvFormatStruct]
        let p ← p.store (o+1) [hostshortLoByte (htons v)]
        p.store (o+1+1) [hostshortHiByte (htons v)] : Except Fault (Mem 1492)) =
      .ok (m.write o ((snsdMsgNotifyAckType ||| snsdTlvFormatStruct) :: beBytes16 v)) := by
  have hlen : [hostshortLoByte (htons v)] ++ [hostshortHiByte (htons v)] = beBytes16 v :=
    leBytes16_htons v
  rw [Mem.store_ok (by rw [List.length_singleton]; omega), ok_bind,
    Mem.store_ok (by rw [List.length_singleton]; omega), ok_bind,
    Mem.store_ok (by rw [List.length_singleton]; omega)]
  have h1 := Mem.write_append (m := m) (o := o)
    (a := [snsdMsgNotifyAckType ||| snsdTlvFormatStruct]) (b := [hostshortLoByte (htons v)])
    (by simp only [List.length_singleton]; omega)
  have h2 := Mem.write_append (m := m) (o := o)
    (a := [snsdMsgNotifyAckType ||| snsdTlvFormatStruct] ++ [hostshortLoByte (htons v)])
    (b := [hostshortHiByte (htons v)])
    (by simp only [List.length_append, List.length_singleton]; omega)
  rw [List.append_assoc, hlen] at h2
  rw [← h1] at h2
  exact congrArg Except.ok h2

/-- With room for it, the acknowledgement grows by one root TLV. -/
theorem buildTlvByFamily_spec (ack : AckMsgInfo) (msg : NtMsg) {v : ℕ} (hv : v ≤ 38)
    (hroom : ack.tlvLen+(3+(v+7)) ≤ 1492) :
    snsdBuildTlvByFamily ack msg v = .ok (some { ack with
      payload := ack.payload.write ack.tlvLen
        (Tlv.encode ⟨snsdMsgNotifyAckType ||| snsdTlvFormatStruct,
          msg.ipTlv.read 0 v ++ msg.seqNumTlv.bytes⟩)
      tlvLen := ack.tlvLen+(3+(v+7)) }) := by
  obtain ⟨k, hk⟩ : ∃ k, ack.tlvLen = k := ⟨_, rfl⟩
  have hif : ¬ k+(v+sizeofSubTlvType5) > snsdMaxTlvLen := by
    simp only [sizeofSubTlvType5, sizeofTlInfo, snsdMaxTlvLen, sizeofNtMsgHeader]
    omega
  have hu1 : u16 (k+snsdTlvTagSize) = k+1 := u16_of_lt (by simp only [snsdTlvTagSize]; omega)
  have hu3 : u16 (k+1+snsdTlvLenSize) = k+3 := u16_of_lt (by simp only [snsdTlvLenSize]; omega)
  have hu4 : u16 (k+3+v) = k+3+v := u16_of_lt (by omega)
  have hu5 : u16 (k+3+v+sizeofSubTlvType5) = k+(3+(v+7)) :=
    (u16_of_lt (by simp only [sizeofSubTlvType5, sizeofTlInfo]; omega)).trans
      (by simp only [sizeofSubTlvType5, sizeofTlInfo]; omega)
  have huv : u16 (v+sizeofSubTlvType5) = v+7 :=
    u16_of_lt (by simp only [sizeofSubTlvType5, sizeofTlInfo]; omega)
  obtain ⟨hd, hhd⟩ : ∃ hd : Bytes,
    (snsdMsgNotifyAckType ||| snsdTlvFormatStruct) :: beBytes16 (v+7) = hd := ⟨_, rfl⟩
  obtain ⟨ip, hip⟩ : ∃ ip : Bytes, msg.ipTlv.read 0 v = ip := ⟨_, rfl⟩
  have hhdl : hd.length = 3 := by
    rw [← hhd]
    rfl
  have hipl : ip.length = v := by
    rw [← hip, Mem.read_length]
    omega
  have hseq : msg.seqNumTlv.bytes.length = 7 := msg.seqNumTlv.size
  have hsh := store_header (m := ack.payload) (o := k) (v := v+7) (by omega) (by omega)
  have h1 : (ack.payload.write k hd).memcpy (k+3) ⟨msg.ipTlv.bytes, 0⟩ v =
      .ok (ack.payload.write k (hd ++ ip)) := by
    rw [Mem.memcpy_ok (by simp only [msg.ipTlv.size]; omega) (by omega)]
    rw [Mem.read] at hip
    simp only [hip]
    rw [← hhdl]
    exact congrArg Except.ok (Mem.write_append (m := ack.payload) (o := k) (a := hd) (b := ip)
      (by omega))
  have h2 : (ack.payload.write k (hd ++ ip)).memcpy (k+3+v) ⟨msg.seqNumTlv.bytes, 0⟩
      sizeofSubTlvType5 = .ok (ack.payload.write k (hd ++ ip ++ msg.seqNumTlv.bytes)) := by
    have hl : (hd ++ ip).length = 3+v := by rw [List.length_append, hhdl, hipl]
    rw [Mem.memcpy_ok (by simp only [hseq]; decide) (by simp only [sizeofSubTlvType5, sizeofTlInfo]; omega)]
    have hw := Mem.write_append (m := ack.payload) (o := k) (a := hd ++ ip)
      (b := msg.seqNumTlv.bytes) (by omega)
    rw [hl, ← Nat.add_assoc] at hw
    have ht : (List.drop 0 msg.seqNumTlv.bytes).take sizeofSubTlvType5 = msg.seqNumTlv.bytes := by
      rw [List.drop_zero, List.take_of_length_le (by rw [hseq]; decide)]
    simp only [ht]
    exact congrArg Except.ok hw
  have hval : (ip ++ msg.seqNumTlv.bytes).length = v+7 := by
    rw [List.length_append, hseq, hipl]
  rw [hhd] at hsh
  obtain ⟨p1, e1, hsh⟩ := bind_eq_ok.mp hsh
  obtain ⟨p2, e2, e3⟩ := bind_eq_ok.mp hsh
  have henc : hd ++ ip ++ msg.seqNumTlv.bytes =
      Tlv.encode ⟨snsdMsgNotifyAckType ||| snsdTlvFormatStruct, ip ++ msg.seqNumTlv.bytes⟩ := by
    rw [Tlv.encode, hval, ← List.append_assoc, ← hhd]
  simp only [snsdBuildTlvByFamily, hk, if_neg hif, e1, ok_bind, hu1, huv, e2, e3, hu3, h1, hu4, h2,
    hu5, henc, hip]
  rfl

theorem ackTlv_parts {v6 : Bool} {root src dst seq : Tlv}
    (h : CompleteParts ver v6 (subTlvs root) src dst seq) :
    (ackTlv ver root).value = src.encode ++ dst.encode ++ seq.encode := by
  rw [ackTlv, h.recordV6_eq]
  simp only [ackSubs, List.filterMap_cons, List.filterMap_nil, h.src_last, h.dst_last, h.seq_last,
    List.flatMap_cons, List.flatMap_nil, List.append_nil, List.append_assoc]

/-- An acknowledgement is no longer than the notification it answers. -/
theorem ackTlv_size_le {v6 : Bool} {root src dst seq : Tlv}
    (h : CompleteParts ver v6 (subTlvs root) src dst seq) : (ackTlv ver root).size ≤ root.size := by
  have hfit := Tlv.parse_size_le (fun _ => true) root.value
  have hsub : [src, dst, seq] ⊆ subTlvs root := by
    simp only [List.cons_subset, List.nil_subset, and_true]
    exact ⟨h.src_mem.1, h.dst_mem.1, h.seq_mem.1⟩
  have hsum := sum_size_le h.types_ne hsub
  rw [subTlvs] at hsum
  rw [Tlv.size, ackTlv_parts h, Tlv.size, List.length_append, List.length_append, Tlv.encode_length,
    Tlv.encode_length, Tlv.encode_length]
  simp only [List.map_cons, List.map_nil, List.sum_cons, List.sum_nil] at hsum
  omega

/-- The sizes of the copied structures, by family. -/
theorem ackTlv_size {v6 : Bool} {root src dst seq : Tlv}
    (h : CompleteParts ver v6 (subTlvs root) src dst seq) :
    (ackTlv ver root).size = 3+(2*ipTlvSize v6+7) := by
  have hs := okSub_ip_length (.inl rfl) h.src_mem.2
  have hd := okSub_ip_length (.inr rfl) h.dst_mem.2
  have hq := encode_length_of_okSub h.seq_mem.2
  simp only [subLenOk, beq_iff_eq] at hq
  rw [Tlv.size, ackTlv_parts h, List.length_append, List.length_append]
  omega

/-- A complete record adds the acknowledgement of its root. -/
theorem buildAckTlvInfo_spec (ack : AckMsgInfo) {root : Tlv}
    (hc : snsdCheckMsgComplete (recordOf ver (subTlvs root)).map = true)
    (hroom : ack.tlvLen+(ackTlv ver root).size ≤ 1492) :
    snsdBuildAckTlvInfo ack (recordOf ver (subTlvs root)) = .ok (some { ack with
      payload := ack.payload.write ack.tlvLen (ackTlv ver root).encode
      tlvLen := ack.tlvLen+(ackTlv ver root).size }) := by
  obtain ⟨v6, src, dst, seq, h⟩ := complete_parts hc
  have hval : (recordOf ver (subTlvs root)).ipTlv.read 0 (2*ipTlvSize v6) ++
      (recordOf ver (subTlvs root)).seqNumTlv.bytes = (ackTlv ver root).value := by
    rw [h.copied.1, h.copied.2, ackTlv_parts h]
  have hb := buildTlvByFamily_spec ack (recordOf ver (subTlvs root))
    (v := 2*ipTlvSize v6) (by cases v6 <;> decide) (by rw [← ackTlv_size h]; exact hroom)
  rw [hval, ← ackTlv_size h] at hb
  have hfam := h.family
  cases v6 with
  | false =>
    have h4 : (recordOf ver (subTlvs root)).family = AF_INET := hfam
    rw [snsdBuildAckTlvInfo, if_pos h4]
    exact hb
  | true =>
    have h6 : (recordOf ver (subTlvs root)).family = AF_INET6 := hfam
    have hne : (recordOf ver (subTlvs root)).family ≠ AF_INET := by
      rw [h6]
      decide
    rw [snsdBuildAckTlvInfo, if_neg hne, if_pos h6]
    exact hb

end Build


/-- The roots whose records were accepted, from the pools they met. -/
def acceptedRoots (hostIp : Vector (Mem 16) 64) (ver : ℕ) (roots : List Tlv) (seen : List MsgPool) :
    List Tlv :=
  ((roots.zip seen).filter fun r => accepted hostIp r.2 (recordOf ver (subTlvs r.1))).map Prod.fst

/-- The payload that acknowledges a list of roots. -/
def ackPayload (ver : ℕ) (roots : List Tlv) : Bytes :=
  roots.flatMap fun root => (ackTlv ver root).encode

section Deal
variable {env : ℕ → MsgPool → MsgPool} {hostIp : Vector (Mem 16) 64} {ver : ℕ}

theorem post_ok_iff (p : MsgPool) (msg : NtMsg) :
    (snsdPostOneMsg p msg).2 = 0 ↔ (msg.roleType == snsdClient || !p.links.isEmpty .recv) = true := by
  rw [snsdPostOneMsg, Bool.or_eq_true, beq_iff_eq]
  split_ifs with hr he
  · exact ⟨fun _ => .inl hr, fun _ => rfl⟩
  · exact ⟨fun _ => .inr he, fun _ => rfl⟩
  · exact ⟨fun h => absurd h (by decide : (-1 : ℤ) ≠ 0), fun h => (h.elim hr he).elim⟩

/-- What dealing with the records of `roots` has done to the acknowledgement. -/
structure AckInv (hostIp : Vector (Mem 16) 64) (ver : ℕ) (ack0 : AckMsgInfo) (roots : List Tlv)
    (s : RcvState) : Prop where
  seen : s.seen.length = roots.length
  frame : s.ack = { ack0 with tlvLen := s.ack.tlvLen, payload := s.ack.payload }
  len : s.ack.tlvLen = (ackPayload ver (acceptedRoots hostIp ver roots s.seen)).length
  payload : s.ack.payload.read 0 s.ack.tlvLen =
    ackPayload ver (acceptedRoots hostIp ver roots s.seen)
  budget : s.ack.tlvLen ≤ (roots.map Tlv.size).sum
  overruns : s.overruns = 0

theorem acceptedRoots_snoc (hostIp : Vector (Mem 16) 64) (ver : ℕ) {roots : List Tlv} {seen : List MsgPool} (hl : seen.length = roots.length)
    (root : Tlv) (pool : MsgPool) :
    acceptedRoots hostIp ver (roots ++ [root]) (seen ++ [pool]) =
      acceptedRoots hostIp ver roots seen ++
        if accepted hostIp pool (recordOf ver (subTlvs root)) then [root] else [] := by
  rw [acceptedRoots, List.zip_append hl.symm, List.filter_append, List.map_append, acceptedRoots]
  congr 1
  simp only [List.zip_cons_cons, List.zip_nil_right, List.filter_cons, List.filter_nil]
  split <;> rfl

theorem ackPayload_append (ver : ℕ) (xs ys : List Tlv) :
    ackPayload ver (xs ++ ys) = ackPayload ver xs ++ ackPayload ver ys := List.flatMap_append

/-- One record: accepted, and its acknowledgement added, or left out. -/
theorem dealOneMsg_step (env : ℕ → MsgPool → MsgPool) {ack0 : AckMsgInfo} {roots : List Tlv} {s : RcvState}
    (h : AckInv hostIp ver ack0 roots s) {root : Tlv}
    (hroom : ((roots ++ [root]).map Tlv.size).sum ≤ 1492) :
    ∃ s', snsdDealOneMsg env hostIp s (recordOf ver (subTlvs root)) = .ok s' ∧
      AckInv hostIp ver ack0 (roots ++ [root]) s' := by
  obtain ⟨msg, hmsg⟩ : ∃ msg, recordOf ver (subTlvs root) = msg := ⟨_, rfl⟩
  obtain ⟨pool, hpool⟩ : ∃ pool, env s.seen.length s.pool = pool := ⟨_, rfl⟩
  rw [List.map_append, List.sum_append, List.map_singleton, List.sum_singleton] at hroom
  have hbudget := h.budget
  have hseen : (s.seen ++ [pool]).length = (roots ++ [root]).length := by
    rw [List.length_append, List.length_append, h.seen, List.length_singleton, List.length_singleton]
  have hsnoc := acceptedRoots_snoc hostIp ver h.seen root pool
  rw [hmsg] at hsnoc
  -- a record that is not accepted leaves the acknowledgement alone
  have hskip (hna : accepted hostIp pool msg = false) (pool' : MsgPool) :
      AckInv hostIp ver ack0 (roots ++ [root]) ⟨pool', s.ack, s.seen ++ [pool], s.overruns⟩ := by
    rw [hna, if_neg Bool.false_ne_true, List.append_nil] at hsnoc
    refine ⟨hseen, h.frame, ?_, ?_, ?_, h.overruns⟩
    · rw [hsnoc]
      exact h.len
    · rw [hsnoc]
      exact h.payload
    · rw [List.map_append, List.sum_append]
      exact hbudget.trans (Nat.le_add_right _ _)
  rw [hmsg, snsdDealOneMsg]
  simp only [hpool]
  cases hc : snsdCheckMsgComplete msg.map with
  | false => exact ⟨_, rfl, hskip (by rw [accepted, hc]; rfl) _⟩
  | true =>
    cases hh : snsdCheckHostipConsistent hostIp msg with
    | false => exact ⟨_, rfl, hskip (by rw [accepted, hc, hh]; rfl) _⟩
    | true =>
      have hacc : accepted hostIp pool msg =
          (msg.roleType == snsdClient || !pool.links.isEmpty .recv) := by
        rw [accepted, hc, hh, Bool.true_and, Bool.true_and]
      by_cases hp : (snsdPostOneMsg pool msg).2 = 0
      · have ha : accepted hostIp pool msg = true := by
          rw [hacc]
          exact (post_ok_iff pool msg).mp hp
        subst hmsg
        obtain ⟨v6, src, dst, seq, hparts⟩ := complete_parts hc
        have hle := ackTlv_size_le hparts
        have hb := buildAckTlvInfo_spec s.ack hc (by omega)
        have hel := Tlv.encode_length (ackTlv ver root)
        have hpay : ackPayload ver [root] = (ackTlv ver root).encode := by
          rw [ackPayload, List.flatMap_singleton]
        rw [ha, if_pos rfl] at hsnoc
        simp only [if_true, hp, hb, ok_bind]
        refine ⟨_, rfl, ⟨hseen, ?_, ?_, ?_, ?_, h.overruns⟩⟩
        · simp only
          rw [h.frame]
        · simp only
          rw [hsnoc, ackPayload_append, List.length_append, hpay, hel, ← h.len]
        · simp only
          rw [hsnoc, ackPayload_append, hpay, Mem.read_append, Nat.zero_add,
            Mem.read_write_before (by omega), h.payload, ← hel, Mem.read_write (by omega)]
        · simp only
          rw [List.map_append, List.sum_append, List.map_singleton, List.sum_singleton]
          omega
      · have ha : accepted hostIp pool msg = false := by
          rw [hacc, Bool.eq_false_iff]
          exact fun he => hp ((post_ok_iff pool msg).mpr he)
        simp only [if_true, hp, if_false]
        exact ⟨_, rfl, hskip ha _⟩

theorem dealMsgs_run (env : ℕ → MsgPool → MsgPool) {ack0 : AckMsgInfo} (rest : List Tlv)
    {roots : List Tlv} {s : RcvState} (h : AckInv hostIp ver ack0 roots s) (hroom : ((roots ++ rest).map Tlv.size).sum ≤ 1492) :
    ∃ s', (rest.map fun root => recordOf ver (subTlvs root)).foldlM (snsdDealOneMsg env hostIp) s =
      .ok s' ∧ AckInv hostIp ver ack0 (roots ++ rest) s' := by
  induction rest generalizing roots s with
  | nil =>
    rw [List.append_nil]
    exact ⟨s, rfl, h⟩
  | cons root rest ih =>
    rw [List.append_cons] at hroom ⊢
    have hle : ((roots ++ [root]).map Tlv.size).sum ≤ 1492 := by
      rw [List.map_append, List.sum_append] at hroom
      omega
    obtain ⟨t, ht, hi⟩ := dealOneMsg_step env h hle
    obtain ⟨s', hs', hi'⟩ := ih hi hroom
    exact ⟨s', by rw [List.map_cons, List.foldlM_cons, ht, ok_bind, hs'], hi'⟩

theorem start_ackInv (hostIp : Vector (Mem 16) 64) (ver : ℕ) {ack0 : AckMsgInfo} (h0 : ack0.tlvLen = 0) (pool : MsgPool) :
    AckInv hostIp ver ack0 [] ⟨pool, ack0, [], 0⟩ := by
  refine ⟨rfl, rfl, h0, ?_, ?_, rfl⟩
  · simp only [h0]
    rfl
  · simp only [h0, Nat.zero_le]

end Deal

/-- The roots and the version of a frame, none when its headers are refused. -/
def frameRoots (frame : Bytes) : List Tlv × ℕ :=
  ((snsdGetMsgHeader ⟨frame, 0⟩ frame.length).toOption.join.map fun hdr =>
    (rootTlvs ((frame.drop (sizeofNtMsgHeader+sizeofEthHdr)).take hdr.1), hdr.2)).getD ([], 0)

theorem frameRoots_none {frame : Bytes}
    (h : snsdGetMsgHeader ⟨frame, 0⟩ frame.length = .ok none) : frameRoots frame = ([], 0) := by
  rw [frameRoots, h]
  rfl

theorem frameRoots_some {frame : Bytes} {tlvLen ver : ℕ}
    (h : snsdGetMsgHeader ⟨frame, 0⟩ frame.length = .ok (some (tlvLen, ver))) :
    frameRoots frame =
      (rootTlvs ((frame.drop (sizeofNtMsgHeader+sizeofEthHdr)).take tlvLen), ver) := by
  rw [frameRoots, h]
  rfl
/-- The frame that carries an acknowledgement. -/
def ackFrame (addr : Mem 6) (payload : Bytes) : Bytes :=
  mrpBridge ++ addr.bytes ++ beBytes16 ethNtsType ++
    ([UInt8.ofNat snsdNtfVer, 0] ++ beBytes16 payload.length ++ [0, 0, 0, 0]) ++ payload

section Notify
variable {env : ℕ → MsgPool → MsgPool} {l : SnsdListener}

theorem sendAck_spec {ack : AckMsgInfo} {payload : Bytes}
    (hack : ack = { snsdBuildAckHeader l.addr .zero with
      tlvLen := ack.tlvLen, payload := ack.payload })
    (hlen : ack.tlvLen = payload.length) (hpay : ack.payload.read 0 ack.tlvLen = payload)
    (hle : payload.length ≤ snsdMaxTlvLen) :
    (snsdSendAck ack).2 = if payload = [] then none else some (ackFrame l.addr payload) := by
  have hmax : ¬ ack.tlvLen > snsdMaxTlvLen := by omega
  rw [snsdSendAck, decide_eq_false hmax, Bool.false_or]
  by_cases hp : payload = []
  · rw [if_pos hp, if_pos (decide_eq_true (by rw [hlen, hp]; rfl))]
  · have hne : ¬ ack.tlvLen = 0 := by
      rw [hlen, List.length_eq_zero_iff]
      exact hp
    rw [if_neg hp, if_neg (by rw [decide_eq_true_eq]; exact hne)]
    have hbytes : ({ ack with tlvLen := htons ack.tlvLen } : AckMsgInfo).bytes =
        mrpBridge ++ l.addr.bytes ++ beBytes16 ethNtsType ++
          ([UInt8.ofNat snsdNtfVer, 0] ++ beBytes16 payload.length ++ [0, 0, 0, 0]) ++
          ack.payload.bytes := by
      have hd : ack.hDest.bytes = mrpBridge := congrArg (·.hDest.bytes) hack
      have hs : ack.hSource = l.addr := congrArg (·.hSource) hack
      have hp : ack.hProto = htons ethNtsType := congrArg (·.hProto) hack
      have hv : ack.ver = snsdNtfVer := congrArg (·.ver) hack
      have h0 : ack.reserved0 = 0 := congrArg (·.reserved0) hack
      have h1 : ack.reserved1 = 0 := congrArg (·.reserved1) hack
      simp only [AckMsgInfo.bytes, hd, hs, hp, hv, h0, h1, leBytes16_htons, hlen]
      rfl
    have hhdr : (mrpBridge ++ l.addr.bytes ++ beBytes16 ethNtsType ++
        ([UInt8.ofNat snsdNtfVer, 0] ++ beBytes16 payload.length ++ [0, 0, 0, 0])).length =
        sizeofEthHdr+sizeofNtMsgHeader := by
      simp only [List.length_append, l.addr.size]
      rfl
    simp only [hbytes]
    rw [← hhdr, List.take_length_add_append, ackFrame]
    rw [Mem.read, List.drop_zero] at hpay
    rw [hpay]

theorem ackPayload_eq_nil {ver : ℕ} {roots : List Tlv} : ackPayload ver roots = [] ↔ roots = [] := by
  cases roots with
  | nil => exact ⟨fun _ => rfl, fun _ => rfl⟩
  | cons root roots =>
    rw [ackPayload, List.flatMap_cons, Tlv.encode]
    exact ⟨fun h => absurd h (by simp), fun h => absurd h (List.cons_ne_nil _ _)⟩

/-- A frame with accepted headers is decoded and dealt with. -/
theorem processNtMsg_spec (env : ℕ → MsgPool → MsgPool) (l : SnsdListener) (frame : Bytes)
    {s : RcvState} (hack : s.ack.tlvLen = 0)
    (hseen : s.seen = []) (hover : s.overruns = 0) :
    ∃ s' calls, snsdProcessNtMsg (snsdDealOneMsg env l.hostIp) frame s = .ok (s', calls) ∧
      AckInv l.hostIp (frameRoots frame).2 s.ack (frameRoots frame).1 s' ∧
      s'.ack.tlvLen ≤ snsdMaxTlvLen := by
  obtain ⟨pool, ack, seen, overruns⟩ := s
  simp only at hack hseen hover
  subst hseen hover
  have hstart (ver : ℕ) := start_ackInv l.hostIp ver hack pool
  obtain ⟨hdr, hr, hfits⟩ := getMsgHeader_spec frame
  match hdr, hr, hfits with
  | none, hr, _ =>
    refine ⟨⟨pool, ack, [], 0⟩, [], ?_, ?_, ?_⟩
    · rw [snsdProcessNtMsg, hr]
      rfl
    · rw [frameRoots_none hr]
      exact hstart 0
    · simp only [hack, Nat.zero_le]
  | some (tlvLen, ver), hr, hfits =>
    have hf := hfits tlvLen ver rfl
    have hle := hf.tlvLen_le
    have hin := hf.fits
    have hmax : snsdMaxTlvLen = 1492 := rfl
    obtain ⟨tlvs, htlvs⟩ : ∃ tlvs,
      (frame.drop (sizeofNtMsgHeader+sizeofEthHdr)).take tlvLen = tlvs := ⟨_, rfl⟩
    have hroots : frameRoots frame = (rootTlvs tlvs, ver) := by
      rw [frameRoots_some hr, htlvs]
    have hsum := Tlv.parse_size_le isNotifyRoot tlvs
    have htl : tlvs.length ≤ tlvLen := by
      rw [← htlvs, List.length_take]
      omega
    rw [← rootTlvs] at hsum
    obtain ⟨s', hs', hi⟩ := dealMsgs_run env (rootTlvs tlvs) (hstart ver)
      (by rw [List.nil_append]; omega)
    rw [List.nil_append] at hi
    have hrest : (Ptr.add ⟨frame, 0⟩ (sizeofNtMsgHeader+sizeofEthHdr)).rest.take tlvLen = tlvs := by
      rw [Ptr.add_rest]
      exact htlvs
    obtain ⟨calls, hd, _⟩ := decodeNtTlv_spec
      (Ptr.add ⟨frame, 0⟩ (sizeofNtMsgHeader+sizeofEthHdr)) tlvLen ver
      (by simp only [Ptr.add_off, Ptr.add_mem]; omega) (by omega) (by rw [hrest]; exact hs')
    refine ⟨s', calls, ?_, ?_, ?_⟩
    · rw [snsdProcessNtMsg, hr]
      exact hd
    · rw [hroots]
      exact hi
    · have hb := hi.budget
      omega

def sampleListener : SnsdListener :=
  ⟨Vector.replicate 64 ((Mem.zero 16).write 0 [10, 0, 0, 2]), Mem.zero 6, false⟩

/-- A frame whose only root says nothing, so that nothing is sent. -/
def sampleFrame : Bytes :=
  mrpBridge ++ List.replicate 6 0 ++ [0x88, 0xA7] ++ [0, 0, 0, 3, 0, 0, 0, 0] ++ [0x21, 0, 0]

end Notify

end NvmeSnsd.Server
