import NvmeSnsd.Server.AckSpec
import NvmeSnsd.Server.ConnectChange
import NvmeSnsd.Server.Notification

/-! Which sub-TLV each field of a complete record comes from when types occur
more than once. -/
namespace NvmeSnsd.Server
open Lib

/-! Bytes of the additional information. -/

def adByte (a : Mem 266) (i : ℕ) : UInt8 := (a.bytes[3+i]?).getD 0

section Bytes
variable {a : Mem 266} {t : Tlv} {i : ℕ}

theorem adByte_zero : adByte (Mem.zero 266) i = 0 := by
  rw [adByte, Mem.zero, List.getElem?_replicate]
  split_ifs <;> rfl

theorem adByte_write (h : t.value.length ≤ 262) :
    adByte (a.write 0 t.encode) i = (t.value[i]?).getD (adByte a i) := by
  have hlen : t.encode.length = 3+t.value.length := Tlv.encode_length t
  have henc : t.encode[3+i]? = t.value[i]? := by
    rw [Tlv.encode, beBytes16, Nat.add_comm]
    rfl
  rw [adByte, Mem.getElem?_write (by omega), Nat.sub_zero, henc]
  split_ifs with hin
  · have hi : i < t.value.length := by omega
    rw [List.getElem?_eq_getElem hi]
    rfl
  · have hi : t.value.length ≤ i := by omega
    rw [List.getElem?_eq_none hi]
    rfl

theorem read_port (a : Mem 266) : a.read 7 2 = [adByte a 4, adByte a 5] := by
  have hsize := a.size
  have hsplit := Mem.read_append a 7 1 1
  have hone (o : ℕ) (ho : o < 266) : a.read o 1 = [(a.bytes[o]?).getD 0] := by
    rw [Mem.read, List.getElem?_eq_getElem (by omega), Option.getD_some,
      List.drop_eq_getElem_cons (by omega), List.take_succ_cons, List.take_zero]
  rw [hsplit, hone 7 (by decide), hone 8 (by decide)]
  rfl

theorem read_byte (a : Mem 266) (h : 3+i < 266) : a.read (3+i) 1 = [adByte a i] := by
  have hsize := a.size
  rw [Mem.read, adByte, List.getElem?_eq_getElem (by omega), Option.getD_some,
    List.drop_eq_getElem_cons (by omega), List.take_succ_cons, List.take_zero]

/-- The two bytes of the port trade places, the others stay. -/
theorem adByte_swapPort : adByte (swapPort a) i =
    if i = 4 then adByte a 5 else if i = 5 then adByte a 4 else adByte a i := by
  have hrev : (a.read 7 2).reverse = [adByte a 5, adByte a 4] := by
    rw [read_port]
    rfl
  rw [adByte, swapPort, hrev, Mem.getElem?_write (by simp)]
  by_cases h4 : i = 4
  · subst h4
    rfl
  · by_cases h5 : i = 5
    · subst h5
      rfl
    · rw [if_neg, if_neg h4, if_neg h5, adByte]
      simp only [List.length_cons, List.length_nil]
      omega

end Bytes

/-! The sub-TLVs that decide. -/

/-- The last accepted sub-TLV of the type with at least `n` bytes. -/
def lastHolding (ver k n : ℕ) (subs : List Tlv) : Option Tlv :=
  (subs.filter fun t => okSub ver k t && decide (n ≤ t.value.length)).getLast?

def lastValue (ver k len : ℕ) (subs : List Tlv) : Bytes :=
  ((lastOk ver k subs).map Tlv.value).getD (List.replicate len 0)

def lastWord (ver k : ℕ) (subs : List Tlv) : ℕ :=
  ((lastOk ver k subs).map fun t => beVal t.value).getD 0

/-- One byte of the additional information. -/
def lastByte (ver i : ℕ) (subs : List Tlv) : ℕ :=
  ((lastHolding ver 8 (i+1) subs).map fun t => (t.value.getD i 0).toNat).getD 0

/-- The two bytes of the port as they were sent. -/
def lastPort (ver : ℕ) (subs : List Tlv) : UInt8 × UInt8 :=
  ((lastHolding ver 8 6 subs).map fun t => (t.value.getD 4 0, t.value.getD 5 0)).getD (0, 0)

/-- Each field is that of the last sub-TLV that can hold it, zero without one. -/
structure FieldsLast (ver : ℕ) (v6 : Bool) (subs : List Tlv) (m : NtMsg) : Prop where
  family : m.family = familyOf v6
  src : m.ipTlv.read sizeofTlInfo (addrLength v6) = lastValue ver (srcType v6) (addrLength v6) subs
  dst : m.ipTlv.read (ipTlvSize v6+sizeofTlInfo) (addrLength v6) =
    lastValue ver (dstType v6) (addrLength v6) subs
  seq : m.seqNumTlv.read sizeofTlInfo snsdSeqNumLen = lastValue ver 5 snsdSeqNumLen subs
  state : m.state = lastWord ver 6 subs
  reason : m.ntReason = lastWord ver 7 subs
  role : m.roleType = lastByte ver 0 subs
  protocol : m.protoType = lastByte ver 1 subs
  port : m.protoPort = beVal [(lastPort ver subs).1, (lastPort ver subs).2]

/-! The fields that every sub-TLV of their type sets as a whole. -/

section Fields
variable {ver : ℕ} {subs : List Tlv}

theorem lastOk_ok {k : ℕ} {t : Tlv} (h : lastOk ver k subs = some t) : okSub ver k t = true :=
  (List.mem_filter.mp (List.mem_of_getLast? h)).2

/-- The value of a structure that is a whole sub-TLV, or zero. -/
theorem read_lastValue {n o k len : ℕ} {m : Mem n}
    (hlen : ∀ t, okSub ver k t = true → t.value.length = len)
    (h : m.read o (3+len) = ((lastOk ver k subs).map Tlv.encode).getD (List.replicate (3+len) 0)) :
    m.read (o+sizeofTlInfo) len = lastValue ver k len subs := by
  have hsub := Mem.read_sub m (o := o) (l := 3+len) (i := sizeofTlInfo) (j := len) le_rfl
  rw [hsub, h, lastValue]
  rcases hl : lastOk ver k subs with _ | t
  · simp only [Option.map_none, Option.getD_none, List.drop_replicate, List.take_replicate]
    congr 1
    simp only [sizeofTlInfo]
    omega
  · have ht := hlen t (lastOk_ok hl)
    simp only [Option.map_some, Option.getD_some]
    rw [← ht]
    exact Notification.encode_value t

theorem ipTlvSize_eq (v6 : Bool) : ipTlvSize v6 = 3+addrLength v6 := by cases v6 <;> rfl

theorem okSub_addr_length {v6 : Bool} {k : ℕ} {t : Tlv} (hk : k = srcType v6 ∨ k = dstType v6)
    (h : okSub ver k t = true) : t.value.length = addrLength v6 := by
  have hl := okSub_ip_length hk h
  rw [Tlv.encode_length, Tlv.size, ipTlvSize_eq] at hl
  omega

theorem recordOf_src {v6 : Bool} (hone : OneFamily ver v6 subs) :
    (recordOf ver subs).ipTlv.read sizeofTlInfo (addrLength v6) =
      lastValue ver (srcType v6) (addrLength v6) subs := by
  have h := recordOf_ip_src hone
  rw [ipTlvSize_eq] at h
  have hval := read_lastValue (fun t ht => okSub_addr_length (Or.inl rfl) ht) h
  rwa [Nat.zero_add] at hval

theorem recordOf_dst {v6 : Bool} (hone : OneFamily ver v6 subs) :
    (recordOf ver subs).ipTlv.read (ipTlvSize v6+sizeofTlInfo) (addrLength v6) =
      lastValue ver (dstType v6) (addrLength v6) subs := by
  have h := recordOf_ip_dst hone
  apply read_lastValue (fun t ht => okSub_addr_length (Or.inr rfl) ht)
  rw [ipTlvSize_eq] at h ⊢
  exact h

theorem recordOf_seq :
    (recordOf ver subs).seqNumTlv.read sizeofTlInfo snsdSeqNumLen =
      lastValue ver 5 snsdSeqNumLen subs := by
  have hlen (t : Tlv) (ht : okSub ver 5 t = true) : t.value.length = snsdSeqNumLen := by
    rw [okSub, Bool.and_eq_true] at ht
    exact beq_iff_eq.mp ht.2
  have h : (recordOf ver subs).seqNumTlv.read 0 (3+snsdSeqNumLen) =
      ((lastOk ver 5 subs).map Tlv.encode).getD (List.replicate (3+snsdSeqNumLen) 0) := by
    rw [recordOf_seqNumTlv]
    rcases hl : lastOk ver 5 subs with _ | t
    · exact Mem.read_zero 0 7 (by decide)
    · have ht : t.encode.length = 3+snsdSeqNumLen := by
        rw [Tlv.encode_length, Tlv.size, hlen t (lastOk_ok hl)]
      simp only [Option.map_some, Option.getD_some]
      rw [← ht]
      apply Mem.read_write
      rw [ht]
      decide
  have hval := read_lastValue hlen h
  rwa [Nat.zero_add] at hval

theorem recordOf_state : (recordOf ver subs).state = lastWord ver 6 subs := by
  unfold NtMsg.state lastWord
  rw [recordOf_stateTlv]
  rcases hl : lastOk ver 6 subs with _ | t
  · rfl
  · exact Notification.read_wordOf (okSub_word_le (Or.inl rfl) (lastOk_ok hl))

theorem recordOf_ntReason : (recordOf ver subs).ntReason = lastWord ver 7 subs := by
  unfold NtMsg.ntReason lastWord
  rw [recordOf_ntReasonTlv]
  rcases hl : lastOk ver 7 subs with _ | t
  · rfl
  · exact Notification.read_wordOf (okSub_word_le (Or.inr rfl) (lastOk_ok hl))

end Fields

/-! The additional information: a byte outside the port is that of the last
sub-TLV that has it. -/

section AdInfo
variable {ver : ℕ} {subs : List Tlv}

theorem okSub_ad_length {t : Tlv} (h : okSub ver 8 t = true) : t.value.length ≤ 262 := by
  rw [okSub, Bool.and_eq_true] at h
  exact of_decide_eq_true h.2

theorem recordOf_adByte {i : ℕ} (h4 : i ≠ 4) (h5 : i ≠ 5) :
    (adByte (recordOf ver subs).adInfoTlv i).toNat = lastByte ver i subs := by
  have h := foldl_field ver (fun m => adByte m.adInfoTlv i) (fun _ t => t.value.getD i 0)
    (fun t => okSub ver 8 t && decide (i+1 ≤ t.value.length)) subs (fun m t _ hm => ?_)
    (m := NtMsg.init ver) rfl
  · have hlast := h.trans (foldl_last (fun _ _ _ _ => rfl) _)
    change (adByte (recordOf ver subs).adInfoTlv i) = _ at hlast
    rw [hlast, lastByte, lastHolding]
    rcases (subs.filter fun t => okSub ver 8 t && decide (i+1 ≤ t.value.length)).getLast?
      with _ | t
    · exact congrArg UInt8.toNat adByte_zero
    · rfl
  · rw [← hm, applySub_adInfoTlv]
    rcases hok : okSub m.ver 8 t with _ | _
    · rfl
    · rw [if_pos rfl, adByte_swapPort, if_neg h4, if_neg h5, adByte_write (okSub_ad_length hok),
        Bool.true_and]
      by_cases hi : i+1 ≤ t.value.length
      · rw [decide_eq_true hi, if_pos rfl, List.getElem?_eq_getElem (by omega), List.getD_eq_getElem?_getD,
          List.getElem?_eq_getElem (by omega)]
        rfl
      · rw [decide_eq_false hi, if_neg Bool.false_ne_true, List.getElem?_eq_none (by omega)]
        rfl

/-! The port. What a sub-TLV has of the two bytes overwrites them, and they
trade places in any case. -/

def portStep (p : UInt8 × UInt8) (t : Tlv) : UInt8 × UInt8 :=
  ((t.value[5]?).getD p.2, (t.value[4]?).getD p.1)

def portPair (a : Mem 266) : UInt8 × UInt8 := (adByte a 4, adByte a 5)

theorem recordOf_portPair : portPair (recordOf ver subs).adInfoTlv =
    (subs.filter (okSub ver 8)).foldl portStep (0, 0) := by
  have h := foldl_field ver (fun m => portPair m.adInfoTlv) portStep (okSub ver 8) subs
    (fun m t _ hm => ?_) (m := NtMsg.init ver) rfl
  · have hinit : portPair (NtMsg.init ver).adInfoTlv = (0, 0) :=
      congrArg₂ Prod.mk (adByte_zero (i := 4)) (adByte_zero (i := 5))
    rw [hinit] at h
    exact h
  · rw [← hm, applySub_adInfoTlv]
    rcases hok : okSub m.ver 8 t with _ | _
    · rfl
    · rw [if_pos rfl, if_pos rfl, portPair, adByte_swapPort, adByte_swapPort, if_pos rfl,
        if_neg (by decide), if_pos rfl, adByte_write (okSub_ad_length hok),
        adByte_write (okSub_ad_length hok)]
      rfl

/-- The fifth byte of the nearest sub-TLV of five bytes, looking at every second one. -/
def nearestFifth : List Tlv → Option UInt8
  | [] => none
  | [t] => t.value[4]?
  | t :: _ :: ts => (t.value[4]?).or (nearestFifth ts)

theorem nearestFifth_cons (t : Tlv) (ts : List Tlv) :
    nearestFifth (t :: ts) = (t.value[4]?).or (nearestFifth ts.tail) := by
  cases ts with
  | nil => rw [nearestFifth, List.tail_nil, nearestFifth, Option.or_none]
  | cons u ts => rfl

/-- The two bytes as they stand after sub-TLVs without a whole port, the last
one first. -/
def portAfter (p : UInt8 × UInt8) (r : List Tlv) : UInt8 × UInt8 :=
  ((nearestFifth r.tail).getD (if r.length%2 = 0 then p.1 else p.2),
    (nearestFifth r).getD (if r.length%2 = 0 then p.2 else p.1))

theorem foldr_portStep {r : List Tlv} (hr : ∀ t ∈ r, t.value.length < 6) (p : UInt8 × UInt8) :
    r.foldr (fun t q => portStep q t) p = portAfter p r := by
  induction r with
  | nil => rfl
  | cons t r ih =>
    have ht : t.value[5]? = none := by
      have := hr t List.mem_cons_self
      exact List.getElem?_eq_none (by omega)
    rw [List.foldr_cons, ih fun u hu => hr u (List.mem_cons_of_mem t hu)]
    unfold portStep portAfter
    rw [ht, nearestFifth_cons, List.tail_cons, List.length_cons]
    rcases Nat.mod_two_eq_zero_or_one r.length with hpar | hpar
    · have hodd : (r.length+1)%2 = 1 := by omega
      rw [hpar, hodd]
      rcases t.value[4]? with _ | b <;> rfl
    · have heven : (r.length+1)%2 = 0 := by omega
      rw [hpar, heven]
      rcases t.value[4]? with _ | b <;> rfl

/-- The sub-TLVs after the last one with a whole port, the last one first. -/
def shortsAfter (ver : ℕ) (subs : List Tlv) : List Tlv :=
  (subs.filter (okSub ver 8)).reverse.takeWhile fun t => decide (t.value.length < 6)

/-- The byte `b` of the port is back in its place: a sub-TLV of five bytes put
it there, or none did and it changed places evenly with the other byte. -/
def ByteKept (fifth : Option UInt8) (n : ℕ) (b other : UInt8) : Prop :=
  fifth = some b ∨ fifth = none ∧ (n%2 = 0 ∨ other = b)

/-- The sub-TLVs after the last whole port leave its bytes as they were. -/
def PortKept (ver : ℕ) (subs : List Tlv) : Prop :=
  ByteKept (nearestFifth (shortsAfter ver subs)) (shortsAfter ver subs).length
      (lastPort ver subs).1 (lastPort ver subs).2 ∧
    ByteKept (nearestFifth (shortsAfter ver subs).tail) (shortsAfter ver subs).length
      (lastPort ver subs).2 (lastPort ver subs).1

theorem byteKept_iff {fifth : Option UInt8} {n : ℕ} {b other : UInt8} :
    fifth.getD (if n%2 = 0 then b else other) = b ↔ ByteKept fifth n b other := by
  unfold ByteKept
  rcases fifth with _ | c
  · simp only [Option.getD_none, reduceCtorEq, true_and, false_or]
    split_ifs with h <;> simp [h]
  · simp

theorem portKept_iff : portAfter (lastPort ver subs).swap (shortsAfter ver subs) =
    (lastPort ver subs).swap ↔ PortKept ver subs := by
  rw [portAfter, Prod.ext_iff, PortKept, and_comm]
  exact and_congr byteKept_iff byteKept_iff

theorem recordOf_port : portPair (recordOf ver subs).adInfoTlv =
    portAfter (lastPort ver subs).swap (shortsAfter ver subs) := by
  generalize hads : (subs.filter (okSub ver 8)).reverse = r
  have hfold : portPair (recordOf ver subs).adInfoTlv =
      r.foldr (fun t q => portStep q t) (0, 0) := by
    rw [recordOf_portPair, ← hads, List.foldr_reverse]
  have hshort : shortsAfter ver subs = r.takeWhile fun t => decide (t.value.length < 6) := by
    rw [shortsAfter, hads]
  have hlast : lastHolding ver 8 6 subs =
      (r.dropWhile fun t => decide (t.value.length < 6)).head? := by
    have hnot : (fun t : Tlv => decide (6 ≤ t.value.length)) =
        fun t => !decide (t.value.length < 6) := by
      funext t
      rw [← decide_not, decide_eq_decide]
      exact Nat.not_lt.symm
    have hboth : (subs.filter fun t => okSub ver 8 t && decide (6 ≤ t.value.length)) =
        (subs.filter (okSub ver 8)).filter fun t => decide (6 ≤ t.value.length) := by
      rw [List.filter_filter]
      congr 1
      funext t
      exact Bool.and_comm _ _
    rw [lastHolding, hboth, ← List.head?_reverse, ← List.filter_reverse, hads, hnot,
      List.head?_filter, List.find?_eq_head?_dropWhile_not]
    simp only [Bool.not_not]
  have hall : ∀ t ∈ shortsAfter ver subs, t.value.length < 6 := by
    intro t ht
    rw [hshort] at ht
    simpa using List.mem_takeWhile_imp ht
  have hsplit : r.foldr (fun t q => portStep q t) (0, 0) =
      (shortsAfter ver subs).foldr (fun t q => portStep q t)
        ((r.dropWhile fun t => decide (t.value.length < 6)).foldr (fun t q => portStep q t)
          (0, 0)) := by
    rw [hshort, ← List.foldr_append, List.takeWhile_append_dropWhile]
  rw [hfold, hsplit, foldr_portStep hall, lastPort, hlast]
  congr 1
  -- a whole port forgets what was there
  rcases hd : r.dropWhile fun t => decide (t.value.length < 6) with _ | ⟨t, rest⟩
  · rw [hd]
    rfl
  · have hlong : 6 ≤ t.value.length := by
      have hhead := List.head?_dropWhile_not (fun t : Tlv => decide (t.value.length < 6)) r
      rw [hd] at hhead
      simpa using hhead
    rw [hd, List.foldr_cons, portStep, List.getElem?_eq_getElem (by omega : 5 < t.value.length),
      List.getElem?_eq_getElem (by omega : 4 < t.value.length)]
    simp only [Option.getD_some, List.head?_cons, Option.map_some, List.getD_eq_getElem?_getD,
      List.getElem?_eq_getElem (by omega : 5 < t.value.length),
      List.getElem?_eq_getElem (by omega : 4 < t.value.length), Prod.swap_prod_mk]

/-- The port of the record is the one sent last exactly when the sub-TLVs after
it keep it. -/
theorem recordOf_protoPort_iff :
    (recordOf ver subs).protoPort = beVal [(lastPort ver subs).1, (lastPort ver subs).2] ↔
      PortKept ver subs := by
  rw [← portKept_iff, ← recordOf_port, NtMsg.protoPort, read_port, portPair]
  generalize adByte (recordOf ver subs).adInfoTlv 4 = x
  generalize adByte (recordOf ver subs).adInfoTlv 5 = y
  obtain ⟨hi, lo⟩ := lastPort ver subs
  have hx := x.toNat_lt
  have hlo := lo.toNat_lt
  simp only [beVal, leVal, List.reverse_cons, List.reverse_nil, List.nil_append, List.cons_append,
    Prod.swap_prod_mk, Prod.mk.injEq, ← UInt8.toNat_inj]
  omega

end AdInfo

/-- In a complete record every field is that of the last sub-TLV that can hold
it, exactly when the port is kept by the shorter ones after it. -/
theorem complete_fields_last_iff {ver : ℕ} {buf : Ptr} {len : ℕ}
    (hbuf : buf.off+len ≤ buf.mem.length) (hlen : len < 2^31) {msgs : List NtMsg}
    (hmsgs : dealtMsgs buf len ver = .ok msgs) {j : ℕ} {m : NtMsg} (hj : msgs[j]? = some m)
    (hm : snsdCheckMsgComplete m.map = true) :
    ∃ root, (rootTlvs (buf.rest.take len))[j]? = some root ∧
      ((∃ v6, FieldsLast ver v6 (subTlvs root) m) ↔ PortKept ver (subTlvs root)) := by
  rw [dealtMsgs_eq buf hbuf hlen] at hmsgs
  obtain rfl := Except.ok.inj hmsgs
  rw [grammarMsgs, List.getElem?_map, Option.map_eq_some_iff] at hj
  obtain ⟨root, hroot, rfl⟩ := hj
  refine ⟨root, hroot, ?_⟩
  rw [← recordOf_protoPort_iff]
  constructor
  · rintro ⟨v6, h⟩
    exact h.port
  · intro hport
    obtain ⟨v6, src, dst, seq, h⟩ := complete_parts hm
    have hrole : (recordOf ver (subTlvs root)).roleType = lastByte ver 0 (subTlvs root) := by
      rw [NtMsg.roleType, read_byte _ (by decide : 3+0 < 266), ← recordOf_adByte (by decide)
        (by decide)]
      rfl
    have hproto : (recordOf ver (subTlvs root)).protoType = lastByte ver 1 (subTlvs root) := by
      rw [NtMsg.protoType, read_byte _ (by decide : 3+1 < 266), ← recordOf_adByte (by decide)
        (by decide)]
      rfl
    exact ⟨v6, h.family, recordOf_src h.oneFamily, recordOf_dst h.oneFamily, recordOf_seq,
      recordOf_state, recordOf_ntReason, hrole, hproto, hport⟩

theorem complete_fields_last_sample :
    ∃ root, (rootTlvs ((⟨sampleRoot.encode, 0⟩ : Ptr).rest.take sampleRoot.encode.length))[0]? =
        some root ∧
      ((∃ v6, FieldsLast 0 v6 (subTlvs root) sampleNotification.record) ↔
        PortKept 0 (subTlvs root)) :=
  complete_fields_last_iff (by decide) (by decide) dealtMsgs_sample rfl (by decide)

/-- The port is sent as 0x1151, and one more byte of additional information follows. -/
def shortAfterRoot : Tlv :=
  ⟨0x21, (sampleNotification.subs ++ [(⟨notifySubTlv8Ad, [1]⟩ : Tlv)]).flatMap Tlv.encode⟩

theorem port_swapped_again :
    ∃ m, dealtMsgs ⟨shortAfterRoot.encode, 0⟩ shortAfterRoot.encode.length 0 = .ok [m] ∧
      snsdCheckMsgComplete m.map = true ∧ lastPort 0 (subTlvs shortAfterRoot) = (0x11, 0x51) ∧
      m.protoPort = 0x5111 ∧ ∀ v6, ¬ FieldsLast 0 v6 (subTlvs shortAfterRoot) m := by
  have hroots : rootTlvs shortAfterRoot.encode = [shortAfterRoot] := by decide +kernel
  have hlast : lastPort 0 (subTlvs shortAfterRoot) = (0x11, 0x51) := by decide +kernel
  have hport : (recordOf 0 (subTlvs shortAfterRoot)).protoPort = 0x5111 := by decide +kernel
  refine ⟨recordOf 0 (subTlvs shortAfterRoot), ?_, by decide +kernel, hlast, hport, fun v6 h => ?_⟩
  · rw [dealtMsgs_eq _ (by simp) (by decide), Ptr.rest, List.drop_zero, List.take_length, grammarMsgs,
      hroots]
    rfl
  · have hbad := h.port
    rw [hlast, hport] at hbad
    exact absurd hbad (by decide)

end NvmeSnsd.Server
