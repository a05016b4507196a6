import NvmeSnsd.Reg.Lldp

/-! What the frame says, and that it says it in every byte. -/
namespace NvmeSnsd.Reg
open Lib Mgt

/-! The parts of a frame. -/

def ethHeader (mac : Bytes) : Bytes :=
  dstAddr ++ mac ++ beBytes16 LLDP_PROTOCOL_TYPE

def chassisIdTlv (mac : Bytes) : PackedTlv :=
  ⟨LLDP_TYPE_CHASSIS_ID, LLDP_CHASSIS_ID_SUB_TYPE_MAC :: mac⟩

def portIdTlv (name : Bytes) : PackedTlv :=
  ⟨LLDP_TYPE_PORT_ID, LLDP_PORT_ID_SUB_TYPE_NAME :: (LLDP_SMART_PREFIX ++ name)⟩

def timeToLiveTlv (time : ℕ) : PackedTlv := ⟨LLDP_TYPE_TIME_TO_LIVE, beBytes16 time⟩

/-- The two kinds of address, in a field of sixteen bytes. -/
def addrType (family : ℕ) : UInt8 :=
  if family = AF_INET then LLDP_ADDR_TYPE_IPV4 else LLDP_ADDR_TYPE_IPV6

def addrLen (family : ℕ) : ℕ := if family = AF_INET then ipv4AddrLength else ipv6AddrLength

def addrField (family : ℕ) (ip : Bytes) : Bytes :=
  ip.take (addrLen family) ++ List.replicate (ipv6AddrLength-addrLen family) 0

def smartHead (port : PortInfo) : Bytes :=
  [0, 0x18, 0x82, LLDP_EXTEND_SUB_TYPE, LLDP_EXTEND_SMART_VERSION,
    port.serviceType &&& 0xf0 ||| addrType port.family]

def smartTail (port : PortInfo) (nqn : Bytes) : Bytes :=
  port.protolRole :: UInt8.ofInt port.protocol.toInt :: (beBytes16 NVMEOF_VERSION ++
    (beBytes16 port.ulpPort.toNat ++ UInt8.ofNat nqn.length :: nqn))

def smartValue (port : PortInfo) (nqn : Bytes) : Bytes :=
  smartHead port ++ ([0, 0] ++ (addrField port.family port.ip ++ smartTail port nqn))

def smartTlv (port : PortInfo) (nqn : Bytes) : PackedTlv := ⟨LLDP_TYPE_EXTEND, smartValue port nqn⟩

def endTlv : PackedTlv := ⟨LLDP_TYPE_END, []⟩

/-- The identifier of a port, without the prefix. -/
def portIdText (name : Bytes) (nameIndex : ℕ) : Bytes :=
  name.takeWhile (· != 0) ++ [95, digit (nameIndex/10), digit nameIndex]

theorem dstAddr_length : dstAddr.length = 6 := rfl

theorem smartPrefix_length : LLDP_SMART_PREFIX.length = 5 := rfl

attribute [local grind =] beBytes16_length PackedTlv.header_length dstAddr_length
  smartPrefix_length ipv4AddrLength ipv6AddrLength

theorem addrLen_le (family : ℕ) : addrLen family ≤ 16 := by
  rw [addrLen]
  split_ifs <;> decide

theorem smartHead_length (port : PortInfo) : (smartHead port).length = 6 := rfl

theorem smartTail_length (port : PortInfo) (nqn : Bytes) :
    (smartTail port nqn).length = nqn.length+7 := by
  grind [smartTail]

theorem smartValue_length {port : PortInfo} (hip : port.ip.length = ipv6AddrLength)
    (nqn : Bytes) : (smartValue port nqn).length = nqn.length+31 := by
  have haddr := addrLen_le port.family
  rw [smartValue, List.length_append, smartHead_length, List.length_append, List.length_append,
    smartTail_length, addrField, List.length_append, List.length_take, List.length_replicate, hip]
  grind

/-! Half-words. -/

theorem cpuToBe16_eq {x : ℕ} (h : x < 2^16) : cpuToBe16 x = beBytes16 x := by
  rw [cpuToBe16, leBytes16_htons, u16_of_lt h]

theorem typeLength_eq {type len : ℕ} (ht : type < 128) (hl : len < 512) :
    typeLength type len = PackedTlv.header type len := by
  have hor : type <<< LLDP_TLV_TYPE_SHIFT_LEFT_BIT ||| len = type*512+len := by
    rw [← Nat.shiftLeft_add_eq_or_of_lt hl, Nat.shiftLeft_eq]
    rfl
  rw [typeLength, hor, cpuToBe16_eq (by omega), PackedTlv.header]

/-! Each part is written as one run of bytes. -/

section Items
variable {n p : ℕ} {m : Mem n}

theorem lldpInitEthHeader_eq {mac : Bytes} (hmac : mac.length = MAC_LENGTH) (hp : p+14 ≤ n) :
    lldpInitEthHeader m p mac = .ok (m.write p (ethHeader mac)) := by
  have hmac6 : mac.length = 6 := hmac
  have hcpu : cpuToBe16 LLDP_PROTOCOL_TYPE = beBytes16 LLDP_PROTOCOL_TYPE :=
    cpuToBe16_eq (by decide)
  rw [lldpInitEthHeader, Mem.store_ok (by grind), ok_bind, ← hmac, Mem.memcpy_all (by omega),
    ok_bind, hcpu, Mem.store_ok (by grind),
    Mem.write_next (by omega) (by grind),
    Mem.write_next (by grind) (by grind), ethHeader, List.append_assoc]

theorem lldpInitChassisIdTlv_eq {mac : Bytes} (hmac : mac.length = MAC_LENGTH) (hp : p+9 ≤ n) :
    lldpInitChassisIdTlv m p mac = .ok (m.write p (chassisIdTlv mac).encode) := by
  have hmac6 : mac.length = 6 := hmac
  have htype : typeLength LLDP_TYPE_CHASSIS_ID LLDP_CHASSIS_ID_TLV_LENGTH = PackedTlv.header 1 7 :=
    typeLength_eq (by decide) (by decide)
  rw [lldpInitChassisIdTlv, htype, Mem.store_ok (by grind), ok_bind,
    Mem.store_ok (by grind), ok_bind, ← hmac, Mem.memcpy_all (by omega),
    Mem.write_next (by grind) (by grind), Mem.write_next (by grind) (by grind)]
  simp only [PackedTlv.encode, chassisIdTlv, List.length_cons, hmac6]
  rfl

theorem lldpInitTimeToLiveTlv_eq {time : ℕ} (ht : time < 2^16) (hp : p+4 ≤ n) :
    lldpInitTimeToLiveTlv m p time = .ok (m.write p (timeToLiveTlv time).encode) := by
  have htype : typeLength LLDP_TYPE_TIME_TO_LIVE 2 = PackedTlv.header 3 2 :=
    typeLength_eq (by decide) (by decide)
  rw [lldpInitTimeToLiveTlv, htype, cpuToBe16_eq ht, Mem.store_ok (by grind), ok_bind,
    Mem.store_ok (by grind), Mem.write_next (by grind) (by grind)]
  rfl

theorem lldpInitEndTlv_eq (hp : p+2 ≤ n) :
    lldpInitEndTlv m p = .ok (m.write p endTlv.encode) := Mem.store_ok hp

theorem lldpCreatePortIdTlv_eq {name : Ptr} {text rest : Bytes} (h0 : 0 ∉ text)
    (hname : name.rest = text ++ 0 :: rest) (hl : text.length ≤ 500)
    (hp : p+(text.length+8) ≤ n) :
    lldpCreatePortIdTlv m p name =
      .ok (m.write p (portIdTlv text).encode, text.length+8) := by
  have htype : typeLength LLDP_TYPE_PORT_ID (text.length+5+1) =
      PackedTlv.header 2 (text.length+6) :=
    typeLength_eq (by decide) (by omega)
  have hbefore := Mem.write_append_before (m := m) (o := p)
    (a := PackedTlv.header 2 (text.length+6) ++ [LLDP_PORT_ID_SUB_TYPE_NAME])
    (b := LLDP_SMART_PREFIX ++ text) (by grind)
  rw [lldpCreatePortIdTlv, Ptr.strlen_text h0 hname, ok_bind, Mem.memcpy_all (by grind), ok_bind,
    smartPrefix_length, Mem.memcpy_text hname (by omega), ok_bind]
  dsimp only
  rw [htype, Mem.store_ok (by grind), ok_bind, Mem.store_ok (by grind), ok_bind,
    Mem.write_next (a := LLDP_SMART_PREFIX) (b := text) (by grind) (by grind),
    Mem.write_next (by grind) (by grind)]
  refine congrArg Except.ok (Prod.ext (hbefore.trans ?_) rfl)
  rw [PackedTlv.encode, portIdTlv, List.length_cons, List.length_append, List.append_assoc,
    Nat.add_comm LLDP_SMART_PREFIX.length]
  rfl

theorem smartTlvAddr_eq {port : PortInfo} (hip : port.ip.length = ipv6AddrLength)
    (hp : p+26 ≤ n) :
    smartTlvAddr m p port =
      .ok ((m.write (p+7) [port.serviceType &&& 0xf0 ||| addrType port.family]).write (p+10)
        (port.ip.take (addrLen port.family))) := by
  have hip16 : port.ip.length = 16 := hip
  rw [smartTlvAddr, addrType, addrLen]
  split_ifs
  · rw [Mem.store_ok (by grind), ok_bind, Mem.memcpy_ok (by grind) (by grind), List.drop_zero]
  · rw [Mem.store_ok (by grind), ok_bind, Mem.memcpy_ok (by grind) (by grind), List.drop_zero]

/-- The zeros of `memset` are filled from the front. -/
theorem lldpCreateSmartTlv_eq {port : PortInfo} {nqnName : Option (CStr 256)} {nqn : Bytes}
    (hnqn : (nqnName.map (·.text)).getD [] = nqn) (hip : port.ip.length = ipv6AddrLength)
    (hl : nqn.length < 256) (hp : p+(nqn.length+33) ≤ n) :
    lldpCreateSmartTlv m p port nqnName =
      .ok (m.write p (smartTlv port nqn).encode, nqn.length+33) := by
  have htype : typeLength LLDP_TYPE_EXTEND (nqn.length+33-2) =
      PackedTlv.header 127 (nqn.length+31) :=
    typeLength_eq (by decide) (by omega)
  have haddr : addrLen port.family ≤ 16 := addrLen_le port.family
  have htake : (port.ip.take (addrLen port.family)).length = addrLen port.family := by
    rw [List.length_take, hip]
    exact Nat.min_eq_left haddr
  have hl16 : u16 nqn.length = nqn.length := u16_of_lt (by omega)
  rw [lldpCreateSmartTlv, hnqn, hl16, sizeofSmartTlv, Mem.store_ok (by rw [List.length_replicate]; exact hp), ok_bind,
    Mem.store_ok (by grind), ok_bind, Mem.store_ok (by grind), ok_bind, Mem.store_ok (by grind),
    ok_bind, smartTlvAddr_eq hip (by omega), ok_bind, Mem.store_ok (by grind), ok_bind, Mem.store_ok (by grind), ok_bind,
    cpuToBe16_eq (by decide), Mem.store_ok (by grind), ok_bind, cpuToBe16_eq port.ulpPort.toNat_lt,
    Mem.store_ok (by grind), ok_bind, Mem.store_ok (by grind), ok_bind, Mem.memcpy_all (by omega),
    ok_bind, htype, Mem.store_ok (by grind), ok_bind]
  -- the fields before the address and those behind it are runs of their own
  have hhead : ∀ m' : Mem n, (((m'.write (p+2) [0, 0x18, 0x82]).write (p+5)
      [LLDP_EXTEND_SUB_TYPE]).write (p+6) [LLDP_EXTEND_SMART_VERSION]).write (p+7)
        [port.serviceType &&& 0xf0 ||| addrType port.family] = m'.write (p+2) (smartHead port) := by
    intro m'
    rw [Mem.write_next (by grind) (by grind), Mem.write_next (by grind) (by grind),
      Mem.write_next (by grind) (by grind)]
    rfl
  have htail : ∀ m' : Mem n, (((((m'.write (p+26) [port.protolRole]).write (p+27)
      [UInt8.ofInt port.protocol.toInt]).write (p+28) (beBytes16 NVMEOF_VERSION)).write (p+30)
        (beBytes16 port.ulpPort.toNat)).write (p+32) [UInt8.ofNat nqn.length]).write (p+33) nqn =
      m'.write (p+26) (smartTail port nqn) := by
    intro m'
    rw [Mem.write_next (by grind) (by grind), Mem.write_next (by grind) (by grind),
      Mem.write_next (by grind) (by grind), Mem.write_next (by grind) (by grind),
      Mem.write_next (by grind) (by grind)]
    rfl
  have hheadLen := smartHead_length port
  have htailLen := smartTail_length port nqn
  refine congrArg Except.ok (Prod.ext ?_ rfl)
  dsimp only
  rw [hhead, htail, ← List.nil_append (List.replicate (nqn.length+33) (0 : UInt8)),
    Mem.write_fill (g := 2) (k := nqn.length+25) (by grind) (by grind) (by grind),
    Mem.write_fill (g := 2) (k := nqn.length+23-addrLen port.family)
      (by grind) (by grind) (by grind),
    Mem.write_fill (g := 16-addrLen port.family) (k := 0) (by grind) (by grind) (by grind)]
  have hvalue : smartValue port nqn = smartHead port ++ (List.replicate 2 0 ++
      (port.ip.take (addrLen port.family) ++ (List.replicate (16-addrLen port.family) 0 ++
        smartTail port nqn))) := by
    rw [smartValue, addrField, List.append_assoc]
    rfl
  have hvalueLen := smartValue_length hip nqn
  have hfront := Mem.write_write_mid (m := m) (o := p) (a := []) (b := List.replicate 2 0)
    (c := PackedTlv.header 127 (nqn.length+31)) (z := smartValue port nqn) rfl (by grind)
  simp only [List.append_assoc, List.nil_append, List.replicate_zero, List.append_nil, ← hvalue]
  rw [PackedTlv.encode, smartTlv, hvalueLen]
  exact hfront

end Items

/-! The port identifier. -/

/-- What an array with a terminator in it holds. -/
theorem terminated {b : Bytes} (h : 0 ∈ b) : ∃ rest, b = b.takeWhile (· != 0) ++ 0 :: rest := by
  induction b with
  | nil => cases h
  | cons c b ih =>
    by_cases hc : c = 0
    · refine ⟨b, ?_⟩
      rw [hc, List.takeWhile_cons_of_neg (by decide), List.nil_append]
    · obtain ⟨rest, hrest⟩ := ih ((List.mem_cons.mp h).resolve_left fun h => hc h.symm)
      refine ⟨rest, ?_⟩
      have htake : (c :: b).takeWhile (· != 0) = c :: b.takeWhile (· != 0) :=
        List.takeWhile_cons_of_pos (bne_iff_ne.mpr hc)
      rw [htake, List.cons_append, ← hrest]

theorem not_mem_takeWhile (b : Bytes) : (0 : UInt8) ∉ b.takeWhile (· != 0) := by
  intro h
  have hp := List.mem_takeWhile_imp h
  cases hp

theorem lldpCreatePortId_eq {portId : Mem (IFNAMSIZ+3)} {name : Bytes} (nameIndex : ℕ)
    (hname : name.length = IFNAMSIZ) (h0 : 0 ∈ name) :
    lldpCreatePortId portId name nameIndex =
      .ok (portId.write 0 (portIdText name nameIndex ++ [0])) := by
  obtain ⟨rest, hrest⟩ := terminated h0
  have htext := not_mem_takeWhile name
  rw [portIdText]
  generalize name.takeWhile (· != 0) = text at *
  have hlen := congrArg List.length hrest
  rw [hname, List.length_append, List.length_cons, IFNAMSIZ] at hlen
  have hcopy : portId.strcpy 0 ⟨name, 0⟩ = .ok (portId.write 0 (text ++ [0])) :=
    Mem.strcpy_text htext hrest (by rw [IFNAMSIZ]; omega)
  have hbytes : (⟨(portId.write 0 (text ++ [0])).bytes, 0⟩ : Ptr).rest =
      text ++ 0 :: portId.bytes.drop (text.length+1) := by
    rw [Ptr.rest, List.drop_zero, Mem.write_bytes (by rw [IFNAMSIZ]; grind), List.take_zero,
      List.nil_append, List.append_assoc, List.length_append, Nat.zero_add]
    rfl
  have hover := Mem.write_write_suffix (m := portId) (o := 0) (a := text) (b := [0]) (c := [95])
    rfl (by rw [IFNAMSIZ]; grind)
  rw [Nat.zero_add] at hover
  rw [lldpCreatePortId, hcopy, ok_bind, Ptr.strlen_text htext hbytes, ok_bind,
    Mem.store_ok (by rw [IFNAMSIZ]; grind), ok_bind, Mem.store_ok (by rw [IFNAMSIZ]; grind),
    ok_bind, Mem.store_ok (by rw [IFNAMSIZ]; grind), ok_bind,
    Mem.store_ok (by rw [IFNAMSIZ]; grind), hover,
    Mem.write_next (by grind) (by rw [IFNAMSIZ]; grind),
    Mem.write_next (by grind) (by rw [IFNAMSIZ]; grind),
    Mem.write_next (by grind) (by rw [IFNAMSIZ]; grind)]
  simp only [List.append_assoc, List.cons_append, List.nil_append]

/-! The whole frame. -/

/-- What the pollers keep in a port: arrays of their sizes, a terminated name, an
index that was handed out, one of the two families, no service but those of the
upper four bits and a protocol of the enumeration, whose values are small. -/
structure Sendable (port : PortInfo) : Prop where
  name : port.name.length = IFNAMSIZ
  terminated : 0 ∈ port.name
  index : 1 ≤ port.nameIndex ∧ port.nameIndex ≤ 64
  mac : port.mac.length = MAC_LENGTH
  ip : port.ip.length = ipv6AddrLength
  family : port.family = AF_INET ∨ port.family = AF_INET6
  serviceType : port.serviceType &&& 0x0f = 0
  protocol : 0 ≤ port.protocol.toInt ∧ port.protocol.toInt < 256

def frameTlvs (port : PortInfo) (nqn : Bytes) : List PackedTlv :=
  [chassisIdTlv port.mac, portIdTlv (portIdText port.name port.nameIndex),
    timeToLiveTlv LLDP_OLD_TIME, smartTlv port nqn, endTlv]

def frame (port : PortInfo) (nqn : Bytes) : Bytes :=
  ethHeader port.mac ++ (frameTlvs port nqn).flatMap PackedTlv.encode

def nqnText (nqnName : Option (CStr 256)) : Bytes := (nqnName.map (·.text)).getD []

section Frame
variable {port : PortInfo} {nqnName : Option (CStr 256)}

theorem nqnText_length_lt (nqnName : Option (CStr 256)) : (nqnText nqnName).length < 256 := by
  cases nqnName with
  | none => decide
  | some s => exact s.fits

theorem portIdText_length (h : Sendable port) :
    (portIdText port.name port.nameIndex).length ≤ 18 := by
  obtain ⟨rest, hrest⟩ := terminated h.terminated
  have hlen := congrArg List.length hrest
  rw [h.name, List.length_append, List.length_cons, IFNAMSIZ] at hlen
  rw [portIdText]
  grind

theorem not_mem_portIdText (name : Bytes) (nameIndex : ℕ) : 0 ∉ portIdText name nameIndex := by
  have hdigit : ∀ d, digit d ≠ 0 := by
    intro d h
    have hn := congrArg UInt8.toNat h
    rw [digit, UInt8.toNat_ofNat', Nat.mod_eq_of_lt (by omega), UInt8.toNat_zero] at hn
    omega
  rw [portIdText, List.mem_append]
  rintro (h | h)
  · exact not_mem_takeWhile name h
  · simp only [List.mem_cons, List.not_mem_nil, or_false] at h
    rcases h with h | h | h
    · cases h
    · exact hdigit _ h.symm
    · exact hdigit _ h.symm

theorem frame_length (h : Sendable port) (nqn : Bytes) :
    (frame port nqn).length = nqn.length+(portIdText port.name port.nameIndex).length+70 := by
  have hmac : port.mac.length = 6 := h.mac
  have hsmart := smartValue_length h.ip nqn
  simp only [frame, ethHeader, frameTlvs, List.flatMap_cons, List.flatMap_nil, List.length_append,
    PackedTlv.encode_length, chassisIdTlv, portIdTlv, timeToLiveTlv, smartTlv, endTlv,
    List.length_cons, List.length_nil, hmac, hsmart, dstAddr_length, smartPrefix_length,
    beBytes16_length]
  omega

/-- What stood in the object and in the array before makes no difference. -/
theorem lldpSend_eq (h : Sendable port) (lldp : Mem LLDP_MAX_LENGTH) (portId : Mem (IFNAMSIZ+3)) :
    lldpSend lldp portId port nqnName = .ok (frame port (nqnText nqnName)) := by
  have hmac : port.mac.length = 6 := h.mac
  have hsmart := smartValue_length h.ip (nqnText nqnName)
  have hid := portIdText_length h
  have hnqn := nqnText_length_lt nqnName
  have hlen := frame_length h (nqnText nqnName)
  have heth : (ethHeader port.mac).length = 14 := by
    rw [ethHeader]
    grind
  have hch : (chassisIdTlv port.mac).encode.length = 9 := by
    rw [PackedTlv.encode_length, chassisIdTlv, List.length_cons, hmac]
  have hpi : (portIdTlv (portIdText port.name port.nameIndex)).encode.length =
      (portIdText port.name port.nameIndex).length+8 := by
    rw [PackedTlv.encode_length, portIdTlv, List.length_cons, List.length_append,
      smartPrefix_length]
    omega
  have htl : (timeToLiveTlv LLDP_OLD_TIME).encode.length = 4 := rfl
  have hsm : (smartTlv port (nqnText nqnName)).encode.length = (nqnText nqnName).length+33 := by
    rw [PackedTlv.encode_length, smartTlv, hsmart]
  have hen : endTlv.encode.length = 2 := rfl
  have hbytes : (⟨(portId.write 0 (portIdText port.name port.nameIndex ++ [0])).bytes, 0⟩ :
      Ptr).rest = portIdText port.name port.nameIndex ++ 0 ::
        portId.bytes.drop ((portIdText port.name port.nameIndex).length+1) := by
    rw [Ptr.rest, List.drop_zero, Mem.write_bytes (by rw [IFNAMSIZ]; grind), List.take_zero,
      List.nil_append, List.append_assoc, List.length_append, Nat.zero_add]
    rfl
  have hmax : LLDP_MAX_LENGTH = 1514 := rfl
  rw [lldpSend, lldpInitEthHeader_eq h.mac (by omega), ok_bind, sizeofEthHeader,
    sizeofChassisIdTlv, sizeofTimeToLiveTlv, sizeofEndTlv]
  dsimp only
  rw [lldpInitChassisIdTlv_eq h.mac (by omega), ok_bind,
    lldpCreatePortId_eq port.nameIndex h.name h.terminated, ok_bind,
    lldpCreatePortIdTlv_eq (not_mem_portIdText _ _) hbytes (by omega) (by omega), ok_bind]
  dsimp only
  rw [lldpInitTimeToLiveTlv_eq (by decide) (by omega), ok_bind,
    lldpCreateSmartTlv_eq (show (nqnName.map (·.text)).getD [] = nqnText nqnName from rfl) h.ip hnqn
      (by omega), ok_bind]
  dsimp only
  rw [lldpInitEndTlv_eq (by omega), ok_bind,
    Mem.write_next (by omega) (by omega), Mem.write_next (by omega) (by grind),
    Mem.write_next (by omega) (by grind), Mem.write_next (by omega) (by grind),
    Mem.write_next (by omega) (by grind)]
  have hframe : ethHeader port.mac ++ ((chassisIdTlv port.mac).encode ++
      ((portIdTlv (portIdText port.name port.nameIndex)).encode ++
        ((timeToLiveTlv LLDP_OLD_TIME).encode ++ ((smartTlv port (nqnText nqnName)).encode ++
          endTlv.encode)))) = frame port (nqnText nqnName) := by
    simp only [frame, frameTlvs, List.flatMap_cons, List.flatMap_nil, List.append_nil]
  have hread := Mem.read_write (m := lldp) (o := 0) (s := frame port (nqnText nqnName)) (by omega)
  rw [hlen] at hread
  rw [hframe]
  refine congrArg Except.ok (Eq.trans ?_ hread)
  congr 1
  omega

/-! What a switch reads. -/

structure Registration where
  mac : Bytes
  portId : Bytes
  family : ℕ
  addr : Bytes
  serviceType : UInt8
  role : UInt8
  protocol : ℤ
  port : ℕ
  nqn : Bytes
  deriving DecidableEq

/-- The extended item by the places of its fields. -/
def decodeSmart (mac portId v : Bytes) : Registration :=
  let family := if v.getD 5 0 &&& 0x0f = LLDP_ADDR_TYPE_IPV4 then AF_INET else AF_INET6
  { mac, portId, family
    addr := (v.drop 8).take (addrLen family)
    serviceType := v.getD 5 0 &&& 0xf0
    role := v.getD 24 0
    protocol := (v.getD 25 0).toNat
    port := beVal ((v.drop 28).take 2)
    nqn := (v.drop 31).take (v.getD 30 0).toNat }

/-- The five items of a registration, in their order. -/
def decodeTlvs : List PackedTlv → Option Registration
  | [chassisId, portId, timeToLive, smart, last] =>
    if [chassisId, portId, timeToLive, smart, last].map (·.type) =
        [LLDP_TYPE_CHASSIS_ID, LLDP_TYPE_PORT_ID, LLDP_TYPE_TIME_TO_LIVE, LLDP_TYPE_EXTEND,
          LLDP_TYPE_END] ∧ last.value = [] then
      some (decodeSmart (chassisId.value.drop 1) (portId.value.drop 1) smart.value)
    else none
  | _ => none

def decode (b : Bytes) : Option Registration :=
  (PackedTlv.walk (b.drop sizeofEthHeader)).bind decodeTlvs

/-- `%02d` -/
def twoDigits (i : ℕ) : Bytes := List.replicate (2-(decimal i).length) 48 ++ decimal i

/-- What the port says of itself. -/
def registrationOf (port : PortInfo) (nqn : Bytes) : Registration where
  mac := port.mac
  portId := LLDP_SMART_PREFIX ++ port.name.takeWhile (· != 0) ++ 95 :: twoDigits port.nameIndex
  family := port.family
  addr := port.ip.take (addrLen port.family)
  serviceType := port.serviceType
  role := port.protolRole
  protocol := port.protocol.toInt
  port := port.ulpPort.toNat
  nqn := nqn

theorem digits_eq {i : ℕ} (h : i < 100) : [digit (i/10), digit i] = twoDigits i := by
  interval_cases i <;> rfl

theorem frame_walk (h : Sendable port) {nqn : Bytes} (hnqn : nqn.length < 256) :
    PackedTlv.walk ((frame port nqn).drop sizeofEthHeader) = some (frameTlvs port nqn) := by
  have hid := portIdText_length h
  have heth : (ethHeader port.mac).length = sizeofEthHeader := by
    have hmac : port.mac.length = 6 := h.mac
    rw [ethHeader, sizeofEthHeader]
    grind
  rw [frame, ← heth, List.drop_left]
  apply PackedTlv.walk_encode
  intro t ht
  simp only [frameTlvs, List.mem_cons, List.not_mem_nil, or_false] at ht
  rcases ht with rfl | rfl | rfl | rfl | rfl
  · refine ⟨(by decide : LLDP_TYPE_CHASSIS_ID < 128), ?_⟩
    rw [chassisIdTlv, List.length_cons, h.mac]
    decide
  · refine ⟨(by decide : LLDP_TYPE_PORT_ID < 128), ?_⟩
    rw [portIdTlv, List.length_cons, List.length_append, smartPrefix_length]
    omega
  · exact ⟨by decide, by decide⟩
  · refine ⟨(by decide : LLDP_TYPE_EXTEND < 128), ?_⟩
    rw [smartTlv, smartValue_length h.ip]
    omega
  · exact ⟨by decide, by decide⟩

theorem or_and_distrib (a b c : UInt8) : (a ||| b) &&& c = a &&& c ||| b &&& c := by
  apply UInt8.toBitVec_inj.mp
  ext i hi
  simp only [UInt8.toBitVec_and, UInt8.toBitVec_or, BitVec.getElem_and, BitVec.getElem_or,
    Bool.and_or_distrib_right]

/-- The half-bytes of the service and of the address kind. -/
theorem service_halves (h : Sendable port) :
    (port.serviceType &&& 0xf0 ||| addrType port.family) &&& 0xf0 = port.serviceType ∧
    (port.serviceType &&& 0xf0 ||| addrType port.family) &&& 0x0f = addrType port.family := by
  have hkind : addrType port.family &&& 0xf0 = 0 ∧
      addrType port.family &&& 0x0f = addrType port.family := by
    rw [addrType]
    split_ifs <;> decide
  have hsplit : port.serviceType &&& 0xf0 ||| port.serviceType &&& 0x0f = port.serviceType := by
    rw [UInt8.and_comm, UInt8.and_comm port.serviceType, ← or_and_distrib]
    exact UInt8.toBitVec_inj.mp BitVec.allOnes_and
  rw [h.serviceType, UInt8.or_zero] at hsplit
  constructor
  · rw [or_and_distrib, hkind.1, hsplit, hsplit, UInt8.or_zero]
  · rw [or_and_distrib, hkind.2, hsplit, h.serviceType, UInt8.zero_or]

theorem protocol_byte (h : Sendable port) :
    ((UInt8.ofInt port.protocol.toInt).toNat : ℤ) = port.protocol.toInt := by
  obtain ⟨h0, h256⟩ := h.protocol
  rw [UInt8.ofInt, UInt8.toNat_ofNat']
  omega

theorem decodeSmart_value (h : Sendable port) {nqn : Bytes} (hnqn : nqn.length < 256)
    (mac portId : Bytes) :
    decodeSmart mac portId (smartValue port nqn) =
      { registrationOf port nqn with mac := mac, portId := portId } := by
  obtain ⟨hservice, hkind⟩ := service_halves h
  have hip : port.ip.length = 16 := h.ip
  have haddr := addrLen_le port.family
  have hfamily : (if addrType port.family = LLDP_ADDR_TYPE_IPV4 then AF_INET else AF_INET6) =
      port.family := by
    rcases h.family with hf | hf <;> rw [hf] <;> decide
  have hfront : (smartHead port ++ ([0, 0] ++ addrField port.family port.ip)).length = 24 := by
    have hlen := smartValue_length h.ip nqn
    rw [smartValue, ← List.append_assoc, ← List.append_assoc, List.length_append,
      smartTail_length, List.append_assoc] at hlen
    omega
  have hv : smartValue port nqn =
      (smartHead port ++ ([0, 0] ++ addrField port.family port.ip)) ++ smartTail port nqn := by
    rw [smartValue, List.append_assoc, List.append_assoc]
  -- the fields behind the address, counted from its end
  have hgetD : ∀ i, (smartValue port nqn).getD (24+i) 0 = (smartTail port nqn).getD i 0 := by
    intro i
    rw [List.getD_eq_getElem?_getD, List.getD_eq_getElem?_getD, hv,
      List.getElem?_append_right (by omega), hfront, Nat.add_sub_cancel_left]
  have hdrop : ∀ i, (smartValue port nqn).drop (24+i) = (smartTail port nqn).drop i := by
    intro i
    rw [hv, ← hfront, List.drop_length_add_append]
  have h5 : (smartValue port nqn).getD 5 0 =
      port.serviceType &&& 0xf0 ||| addrType port.family := rfl
  have h8 : (smartValue port nqn).drop 8 = addrField port.family port.ip ++ smartTail port nqn := rfl
  have hlenByte : (UInt8.ofNat nqn.length).toNat = nqn.length := by
    rw [UInt8.toNat_ofNat']
    omega
  have hport : beVal (beBytes16 port.ulpPort.toNat) = port.ulpPort.toNat :=
    beVal_beBytes16 port.ulpPort.toNat_lt
  have haddrTake : ((smartValue port nqn).drop 8).take (addrLen port.family) =
      port.ip.take (addrLen port.family) := by
    rw [h8, addrField, List.append_assoc, List.take_append_of_le_length (by grind),
      List.take_take, Nat.min_self]
  have hportTake : beVal (((smartValue port nqn).drop 28).take 2) = port.ulpPort.toNat := by
    rw [hdrop 4]
    exact hport
  have hnqnTake : ((smartValue port nqn).drop 31).take ((smartValue port nqn).getD 30 0).toNat =
      nqn := by
    rw [hdrop 7, hgetD 6]
    exact (congrArg (fun k => nqn.take k) hlenByte).trans List.take_length
  have hproto : (((smartValue port nqn).getD 25 0).toNat : ℤ) = port.protocol.toInt := by
    rw [hgetD 1]
    exact protocol_byte h
  simp only [decodeSmart, h5, hservice, hkind, hfamily, haddrTake, hportTake, hnqnTake, hproto,
    hgetD 0, registrationOf]
  rfl

theorem frame_decodes (h : Sendable port) (nqnName : Option (CStr 256)) :
    ∃ bytes, (∀ lldp portId, lldpSend lldp portId port nqnName = .ok bytes) ∧
      bytes.length ≤ LLDP_MAX_LENGTH ∧
      (PackedTlv.walk (bytes.drop sizeofEthHeader)).map (List.map (·.type)) =
        some [LLDP_TYPE_CHASSIS_ID, LLDP_TYPE_PORT_ID, LLDP_TYPE_TIME_TO_LIVE, LLDP_TYPE_EXTEND,
          LLDP_TYPE_END] ∧
      decode bytes = some (registrationOf port (nqnText nqnName)) := by
  have hnqn := nqnText_length_lt nqnName
  have hid := portIdText_length h
  have hlen := frame_length h (nqnText nqnName)
  have hwalk := frame_walk h hnqn
  have hdigits := digits_eq (i := port.nameIndex) (by have := h.index; omega)
  refine ⟨frame port (nqnText nqnName), fun lldp portId => lldpSend_eq h lldp portId, ?_, ?_, ?_⟩
  · rw [LLDP_MAX_LENGTH]
    omega
  · rw [hwalk]
    rfl
  · rw [decode, hwalk, Option.bind_some, frameTlvs, decodeTlvs, if_pos ⟨rfl, rfl⟩]
    refine congrArg some ((decodeSmart_value h hnqn _ _).trans ?_)
    simp only [registrationOf, chassisIdTlv, portIdTlv, portIdText, ← hdigits, List.drop_succ_cons,
      List.drop_zero, List.append_assoc]

end Frame

/-- A port with the longest name and the last index, and the longest host name. -/
def longNamed : PortInfo :=
  { PortInfo.zero with
    name := List.replicate 15 97 ++ [0], nameIndex := 64, serviceType := 0x80, family := AF_INET6,
    ip := List.replicate 16 0xfe, mac := [2, 0, 0, 0, 0, 1], protocol := 1, protolRole := 2,
    ulpPort := 4420 }

def longNqn : CStr 256 where
  text := List.replicate 255 110
  fits := by
    rw [List.length_replicate]
    decide
  noNul := by
    rw [List.mem_replicate]
    decide

theorem longNamed_sendable : Sendable longNamed where
  name := rfl
  terminated := by decide
  index := by decide
  mac := rfl
  ip := rfl
  family := Or.inr rfl
  serviceType := rfl
  protocol := by decide

theorem frame_decodes_longest :
    ∃ bytes, (∀ lldp portId, lldpSend lldp portId longNamed (some longNqn) = .ok bytes) ∧
      bytes.length ≤ LLDP_MAX_LENGTH ∧
      (PackedTlv.walk (bytes.drop sizeofEthHeader)).map (List.map (·.type)) =
        some [LLDP_TYPE_CHASSIS_ID, LLDP_TYPE_PORT_ID, LLDP_TYPE_TIME_TO_LIVE, LLDP_TYPE_EXTEND,
          LLDP_TYPE_END] ∧
      decode bytes = some (registrationOf longNamed (nqnText (some longNqn))) :=
  frame_decodes longNamed_sendable (some longNqn)

end NvmeSnsd.Reg
