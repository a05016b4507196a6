import NvmeSnsd.ConnNvme.FillArg
import NvmeSnsd.Lib.Loop

/-! Reading the discovery log of a target, and looking up the subsystem in it. -/
namespace NvmeSnsd.ConnNvme
open Lib

def DISCOVERY_MAX_RETRY : ℕ := 10
def NVMF_TRSVCID_SIZE : ℕ := 32
def NVMF_NQN_FIELD_LEN : ℕ := 256
def NVMF_TRADDR_SIZE : ℕ := 256
def NVMF_TRTYPE_RDMA : ℕ := 1
def NVMF_TRTYPE_TCP : ℕ := 3
def NVME_NQN_NVME : ℕ := 2
def NVMF_ADDR_FAMILY_IPV4 : ℕ := 1
def NVMF_ADDR_FAMILY_IPV6 : ℕ := 2
def ENOMEM : ℤ := 12
def EFAULT : ℤ := 14

/-- `struct nvmf_disc_rsp_page_entry`, without the fields that are only printed. -/
structure DiscEntry where
  trtype : ℕ
  adrfam : ℕ
  subtype : ℕ
  trsvcid : Mem NVMF_TRSVCID_SIZE
  subnqn : Mem NVMF_NQN_FIELD_LEN
  traddr : Mem NVMF_TRADDR_SIZE

/-- `sizeof(struct nvmf_disc_rsp_page_hdr)` -/
def sizeofHdr : ℕ := 1024

/-- `sizeof(struct nvmf_disc_rsp_page_entry)` -/
def sizeofEntry : ℕ := 1024

/-- The buffer `struct nvmf_disc_rsp_page_hdr *`: what a target wrote at the
header, what would be at each entry, and how many bytes were allocated. -/
structure DiscLog where
  size : ℕ
  genctr : ℕ
  numrec : ℕ
  entries : ℕ → DiscEntry

/-- One read of the log: whether `calloc` gave a buffer, what `ioctl` returned,
and what it left in the buffer. -/
structure DiscRead where
  alloc : Bool
  ret : ℤ
  genctr : ℕ
  numrec : ℕ
  entries : ℕ → DiscEntry

/-- A controller: the error that opening it gives, if any, and its replies in
their order. -/
structure DiscDevice where
  openErr : Option ℕ+
  reads : ℕ → DiscRead

/-- `log->genctr` and `log->numrec` -/
def DiscLog.header (log : DiscLog) : Except Fault (ℕ × ℕ) :=
  if sizeofHdr ≤ log.size then .ok (log.genctr, log.numrec) else .error (.load 0 16 log.size)

/-- `log->entries[i]` -/
def DiscLog.entry (log : DiscLog) (i : ℕ) : Except Fault DiscEntry :=
  if sizeofHdr+(i+1)*sizeofEntry ≤ log.size then .ok (log.entries i)
  else .error (.load (sizeofHdr+i*sizeofEntry) sizeofEntry log.size)

/-- `nvme_get_disclog_assign_numrec`: an error is a nonzero return. -/
def nvmeGetDisclogAssignNumrec (reply : DiscRead) (numrec : ℕ) : Except ℤ DiscLog :=
  -- the sum is a `size_t` and `log_size` a `uint32_t`
  let logSize := u32 (sizeofHdr+u32 numrec*sizeofEntry)
  if !reply.alloc then .error (-ENOMEM)
  else if reply.ret ≠ 0 then .error reply.ret
  else .ok ⟨logSize, reply.genctr, reply.numrec, reply.entries⟩

/-- The retries of `nvme_discovery_log`, `n` of them, the next of which is read
`k`. -/
def discoveryRetry (dev : DiscDevice) : ℕ → ℕ → ℕ → ℕ → Except Fault (ℤ × Option DiscLog)
  | 0, _, _, _ => .ok (-EFAULT, none)
  | n+1, k, genctr, numrec =>
    match nvmeGetDisclogAssignNumrec (dev.reads k) numrec with
    | .error ret => .ok (ret, none)
    | .ok log => do
      let (genctr', numrec') ← log.header
      if numrec' ≠ 0 ∧ genctr' = genctr then return (0, some log)
      discoveryRetry dev n (k+1) genctr' numrec'

def nvmeDiscoveryLog (dev : DiscDevice) : Except Fault (ℤ × Option DiscLog) :=
  match dev.openErr with
  | some errno => .ok (-(errno : ℕ), none)
  | none =>
    match nvmeGetDisclogAssignNumrec (dev.reads 0) 0 with
    | .error ret => .ok (ret, none)
    | .ok log => do
      let (genctr, numrec) ← log.header
      discoveryRetry dev DISCOVERY_MAX_RETRY 1 genctr numrec

/-- `snsd_strip_tail_space`, from index `i` downwards. -/
def snsdStripTailSpace {n : ℕ} (str : Mem n) : ℕ → Mem n
  | 0 => str
  | i+1 =>
    if str.read i 1 = [32] ∨ str.read i 1 = [0] then snsdStripTailSpace (str.write i [0]) i
    else str

def DiscLog.setEntry (log : DiscLog) (i : ℕ) (e : DiscEntry) : DiscLog :=
  { log with entries := Function.update log.entries i e }

/-- One pass of `snsd_nvme_disc_refurbish_log`; the index is an `unsigned int`. -/
def refurbishBody (s : ℕ × DiscLog) : Except Fault (Ctl (ℕ × DiscLog)) :=
  let (i, log) := s
  if i < log.numrec then do
    let entry ← log.entry i
    return .again (u32 (i+1), log.setEntry i { entry with
      trsvcid := snsdStripTailSpace entry.trsvcid NVMF_TRSVCID_SIZE
      traddr := snsdStripTailSpace entry.traddr NVMF_TRADDR_SIZE })
  else return .done s

def snsdNvmeDiscRefurbishLog (fuel : ℕ) (log : DiscLog) : Except Fault DiscLog := do
  let s ← loop refurbishBody fuel (0, log)
  return s.2

def snsdNvmeTrtypeToStr (trtype : ℕ) : Bytes :=
  if trtype = NVMF_TRTYPE_RDMA then ascii "rdma"
  else if trtype = NVMF_TRTYPE_TCP then ascii "tcp"
  else ascii "unsupport"

/-- `snsd_ipv4_str_match` and `snsd_ipv6_str_match`, over `inet_pton`. -/
def snsdIpStrMatch (pton : ℕ → Bytes → Option Bytes) (family : ℕ) (ip1 ip2 : Bytes) : Bool :=
  match pton family ip1, pton family ip2 with
  | some a, some b => a == b
  | _, _ => false

/-- The bytes of a field up to the terminator, if it has one. -/
def fieldText {n : ℕ} (m : Mem n) : Bytes := m.bytes.takeWhile (· != 0)

def snsdNvmeDiscLogEntryMatch (pton : ℕ → Bytes → Option Bytes) (ctx : Ctx) (entry : DiscEntry) :
    Bool :=
  entry.subtype == NVME_NQN_NVME && snsdNvmeTrtypeToStr entry.trtype == ctx.transport.text &&
    fieldText entry.trsvcid == ctx.trsvcid.text &&
    (entry.adrfam == NVMF_ADDR_FAMILY_IPV4 &&
        snsdIpStrMatch pton AF_INET (fieldText entry.traddr) ctx.traddr.text ||
      entry.adrfam == NVMF_ADDR_FAMILY_IPV6 &&
        snsdIpStrMatch pton AF_INET6 (fieldText entry.traddr) ctx.traddr.text)

/-- One pass of the loop in `snsd_nvme_disc_get_subsysnqn`: the index, the
context and `ret`. -/
def matchBody (pton : ℕ → Bytes → Option Bytes) (log : DiscLog) (s : ℕ × Ctx × ℤ) :
    Except Fault (Ctl (ℕ × Ctx × ℤ)) :=
  let (i, ctx, ret) := s
  if i < log.numrec then do
    let entry ← log.entry i
    if snsdNvmeDiscLogEntryMatch pton ctx entry = true then
      return .done (i, { ctx with subsysnqn := CStr.clip SNSD_NQN_MAX_LEN_pos entry.subnqn.bytes }, 0)
    return .again (u32 (i+1), ctx, ret)
  else return .done s

/-- `snsd_nvme_disc_get_subsysnqn` after the log is there and refurbished. -/
def discMatch (fuel : ℕ) (pton : ℕ → Bytes → Option Bytes) (ctx : Ctx) (log : DiscLog) :
    Except Fault (Ctx × ℤ) := do
  let s ← loop (matchBody pton log) fuel (0, ctx, -EINVAL)
  return s.2

/-! Which reply is accepted. -/

/-- The size of the buffer for `numrec` records, in units of 1024 bytes. -/
def blocks (numrec : ℕ) : ℕ := (numrec+1)%2^22

/-- Read `k` shows records and the generation of the read before it. -/
def Stable (dev : DiscDevice) (k : ℕ) : Prop :=
  (dev.reads k).numrec ≠ 0 ∧ (dev.reads k).genctr = (dev.reads (k-1)).genctr

instance (dev : DiscDevice) (k : ℕ) : Decidable (Stable dev k) :=
  inferInstanceAs (Decidable (_ ∧ _))

/-- Read `k` gives a buffer with a header in it. -/
def Readable (dev : DiscDevice) (k : ℕ) : Prop :=
  (dev.reads k).alloc = true ∧ (dev.reads k).ret = 0 ∧
    (0 < k → blocks (dev.reads (k-1)).numrec ≠ 0)

/-- Read `r` is the one that `nvme_discovery_log` takes: the first with the
generation of its predecessor, among ten. -/
structure Accepted (dev : DiscDevice) (r : ℕ) : Prop where
  opened : dev.openErr = none
  range : 1 ≤ r ∧ r ≤ DISCOVERY_MAX_RETRY
  readable : ∀ k ≤ r, Readable dev k
  stable : Stable dev r
  first : ∀ k, 1 ≤ k → k < r → ¬Stable dev k

/-- The buffer holds all the records that its header counts. -/
def DiscLog.Fits (log : DiscLog) : Prop := sizeofHdr+log.numrec*sizeofEntry ≤ log.size

theorem logSize_eq (numrec : ℕ) :
    u32 (sizeofHdr+u32 numrec*sizeofEntry) = 1024*blocks numrec := by
  rw [u32, u32, blocks, sizeofHdr, sizeofEntry]
  omega

theorem blocks_zero : blocks 0 = 1 := by decide

/-- A read that does not fail. -/
theorem assignNumrec_eq_ok {reply : DiscRead} {numrec : ℕ} {log : DiscLog} :
    nvmeGetDisclogAssignNumrec reply numrec = .ok log ↔ reply.alloc = true ∧ reply.ret = 0 ∧
      log = ⟨1024*blocks numrec, reply.genctr, reply.numrec, reply.entries⟩ := by
  rw [nvmeGetDisclogAssignNumrec, logSize_eq]
  cases ha : reply.alloc with
  | false => simp
  | true =>
    by_cases hr : reply.ret = 0
    · simp [hr, eq_comm]
    · simp [hr]

theorem header_eq_ok {log : DiscLog} {p : ℕ × ℕ} :
    log.header = .ok p ↔ sizeofHdr ≤ log.size ∧ p = (log.genctr, log.numrec) := by
  rw [DiscLog.header]
  split
  case isTrue h => simp [h, eq_comm]
  case isFalse h => simp [h]

theorem sizeofHdr_le_iff {n : ℕ} : sizeofHdr ≤ 1024*blocks n ↔ blocks n ≠ 0 := by
  rw [sizeofHdr]
  omega

/-- The buffer of read `k`, which is sized by the read before it. -/
def logOf (dev : DiscDevice) (k : ℕ) : DiscLog where
  size := 1024*blocks (dev.reads (k-1)).numrec
  genctr := (dev.reads k).genctr
  numrec := (dev.reads k).numrec
  entries := (dev.reads k).entries

theorem assign_of_readable {dev : DiscDevice} {k : ℕ} (h : Readable dev k) :
    nvmeGetDisclogAssignNumrec (dev.reads k) (dev.reads (k-1)).numrec = .ok (logOf dev k) :=
  assignNumrec_eq_ok.mpr ⟨h.1, h.2.1, rfl⟩

theorem header_of_readable {dev : DiscDevice} {k : ℕ} (h : Readable dev k) (hk : 0 < k) :
    (logOf dev k).header = .ok ((dev.reads k).genctr, (dev.reads k).numrec) :=
  header_eq_ok.mpr ⟨sizeofHdr_le_iff.mpr (h.2.2 hk), rfl⟩

/-- A retry whose read gives a buffer. -/
theorem discoveryRetry_readable {dev : DiscDevice} {k : ℕ} (h : Readable dev k) (hk : 0 < k)
    (n : ℕ) :
    discoveryRetry dev (n+1) k (dev.reads (k-1)).genctr (dev.reads (k-1)).numrec =
      if Stable dev k then .ok (0, some (logOf dev k))
      else discoveryRetry dev n (k+1) (dev.reads k).genctr (dev.reads k).numrec := by
  rw [discoveryRetry, assign_of_readable h]
  simp only [header_of_readable h hk, ok_bind]
  rfl

/-- A retry whose read does not. -/
theorem discoveryRetry_unreadable {dev : DiscDevice} {k : ℕ} (h : ¬Readable dev k)
    (n : ℕ) (log : DiscLog) :
    discoveryRetry dev (n+1) k (dev.reads (k-1)).genctr (dev.reads (k-1)).numrec ≠
      .ok (0, some log) := by
  intro hok
  rw [discoveryRetry] at hok
  cases hn : nvmeGetDisclogAssignNumrec (dev.reads k) (dev.reads (k-1)).numrec with
  | error ret =>
    rw [hn] at hok
    simp at hok
  | ok l =>
    obtain ⟨ha, hret, rfl⟩ := assignNumrec_eq_ok.mp hn
    rw [hn] at hok
    obtain ⟨p, hp, -⟩ := bind_eq_ok.mp hok
    obtain ⟨hs, -⟩ := header_eq_ok.mp hp
    exact h ⟨ha, hret, fun _ => sizeofHdr_le_iff.mp hs⟩

/-- Which read the retries end with. -/
theorem discoveryRetry_eq_ok {dev : DiscDevice} {log : DiscLog} (n : ℕ) {k : ℕ} (hk : 0 < k) :
    discoveryRetry dev n k (dev.reads (k-1)).genctr (dev.reads (k-1)).numrec =
        .ok (0, some log) ↔
      ∃ r, k ≤ r ∧ r < k+n ∧ (∀ j, k ≤ j → j ≤ r → Readable dev j) ∧ Stable dev r ∧
        (∀ j, k ≤ j → j < r → ¬Stable dev j) ∧ log = logOf dev r := by
  induction n generalizing k with
  | zero =>
    constructor
    · intro h
      simp [discoveryRetry, EFAULT] at h
    · rintro ⟨r, hkr, hr, -⟩
      omega
  | succ n ih =>
    by_cases hr : Readable dev k
    case neg =>
      constructor
      · exact fun h => absurd h (discoveryRetry_unreadable hr n log)
      · rintro ⟨r, hkr, -, hread, -⟩
        exact absurd (hread k le_rfl hkr) hr
    rw [discoveryRetry_readable hr hk]
    by_cases hs : Stable dev k
    · rw [if_pos hs]
      constructor
      · intro hlog
        simp only [Except.ok.injEq, Prod.mk.injEq, Option.some.injEq, true_and] at hlog
        refine ⟨k, le_rfl, by omega, fun j hkj hjk => ?_, hs, fun j hkj hjk => by omega, hlog.symm⟩
        obtain rfl := Nat.le_antisymm hjk hkj
        exact hr
      · rintro ⟨r, hkr, -, -, -, hfirst, rfl⟩
        -- an earlier stable read would have ended the loop
        obtain rfl : k = r := by
          by_contra hne
          exact hfirst k le_rfl (by omega) hs
        rfl
    · rw [if_neg hs]
      have hih := ih (show 0 < k+1 by omega)
      rw [Nat.add_sub_cancel] at hih
      rw [hih]
      constructor
      · rintro ⟨r, hkr, hrn, hread, hst, hfirst, hlog⟩
        refine ⟨r, by omega, by omega, fun j hkj hjr => ?_, hst, fun j hkj hjr => ?_, hlog⟩
        · rcases Nat.eq_or_lt_of_le hkj with rfl | hlt
          · exact hr
          · exact hread j hlt hjr
        · rcases Nat.eq_or_lt_of_le hkj with rfl | hlt
          · exact hs
          · exact hfirst j hlt hjr
      · rintro ⟨r, hkr, hrn, hread, hst, hfirst, hlog⟩
        have hlt : k < r := by
          apply lt_of_le_of_ne hkr
          rintro rfl
          exact hs hst
        refine ⟨r, hlt, by omega, ?_, hst, ?_, hlog⟩
        · exact fun j hkj hjr => hread j (by omega) hjr
        · exact fun j hkj hjr => hfirst j (by omega) hjr

/-- The log that is handed out is that of the accepted read. -/
theorem discoveryLog_eq_ok {dev : DiscDevice} {log : DiscLog} :
    nvmeDiscoveryLog dev = .ok (0, some log) ↔ ∃ r, Accepted dev r ∧ log = logOf dev r := by
  rw [nvmeDiscoveryLog]
  cases ho : dev.openErr with
  | some errno =>
    constructor
    · intro h
      simp at h
    · rintro ⟨r, hr, -⟩
      rw [hr.opened] at ho
      simp at ho
  | none =>
    by_cases h0 : Readable dev 0
    case neg =>
      constructor
      · intro h
        simp only at h
        cases hn : nvmeGetDisclogAssignNumrec (dev.reads 0) 0 with
        | error ret =>
          rw [hn] at h
          simp at h
        | ok l =>
          obtain ⟨ha, hret, -⟩ := assignNumrec_eq_ok.mp hn
          exact absurd ⟨ha, hret, fun h => absurd h (by decide)⟩ h0
      · rintro ⟨r, hr, -⟩
        exact absurd (hr.readable 0 (Nat.zero_le r)) h0
    -- the first read has the room for a header, and nothing else
    have hfirst : nvmeGetDisclogAssignNumrec (dev.reads 0) 0 = .ok ⟨1024*blocks 0,
        (dev.reads 0).genctr, (dev.reads 0).numrec, (dev.reads 0).entries⟩ :=
      assignNumrec_eq_ok.mpr ⟨h0.1, h0.2.1, rfl⟩
    have hhdr : DiscLog.header ⟨1024*blocks 0, (dev.reads 0).genctr, (dev.reads 0).numrec,
        (dev.reads 0).entries⟩ = .ok ((dev.reads 0).genctr, (dev.reads 0).numrec) :=
      header_eq_ok.mpr ⟨sizeofHdr_le_iff.mpr (by decide), rfl⟩
    have hretry := @discoveryRetry_eq_ok dev log DISCOVERY_MAX_RETRY 1 Nat.one_pos
    rw [Nat.sub_self] at hretry
    simp only [hfirst, hhdr, ok_bind]
    rw [hretry]
    constructor
    · rintro ⟨r, h1, hr, hread, hst, hf, hlog⟩
      refine ⟨r, ⟨ho, ⟨h1, by omega⟩, fun k hk => ?_, hst, hf⟩, hlog⟩
      rcases Nat.eq_zero_or_pos k with rfl | hpos
      · exact h0
      · exact hread k hpos hk
    · rintro ⟨r, hr, hlog⟩
      obtain ⟨h1, h10⟩ := hr.range
      exact ⟨r, h1, by omega, fun j _ hj => hr.readable j hj, hr.stable, hr.first, hlog⟩

/-! The loops over the records. -/

theorem entry_of_fits {log : DiscLog} (h : log.Fits) {i : ℕ} (hi : i < log.numrec) :
    log.entry i = .ok (log.entries i) := by
  have hm : (i+1)*sizeofEntry ≤ log.numrec*sizeofEntry := Nat.mul_le_mul_right _ hi
  rw [DiscLog.entry, if_pos ((Nat.add_le_add_left hm _).trans h)]

/-- The index does not wrap before it reaches the count. -/
theorem next_index {log : DiscLog} (hn : log.numrec < 2^32) {i : ℕ} (hi : i < log.numrec) :
    u32 (i+1) = i+1 := u32_of_lt (by omega)

/-- Refurbishing ends, inside the buffer, and keeps the header. -/
theorem refurbish_total {log : DiscLog} (h : log.Fits) (hn : log.numrec < 2^32) :
    ∃ fuel log', snsdNvmeDiscRefurbishLog fuel log = .ok log' ∧ log'.size = log.size ∧
      log'.numrec = log.numrec := by
  let I (s : ℕ × DiscLog) : Prop := s.2.size = log.size ∧ s.2.numrec = log.numrec
  have hbody : ∀ s, I s → BodyMeets I I (fun s => log.numrec-s.1) s (refurbishBody s) := by
    rintro ⟨i, l⟩ ⟨hs, hnr⟩
    simp only at hs hnr
    rw [refurbishBody]
    by_cases hi : i < l.numrec
    · have hfit : l.Fits := by
        rw [DiscLog.Fits, hs, hnr]
        exact h
      rw [if_pos hi, entry_of_fits hfit hi, next_index (by omega) hi]
      refine Or.inr ⟨_, rfl, ⟨hs, hnr⟩, ?_⟩
      simp only
      omega
    · rw [if_neg hi]
      exact Or.inl ⟨_, rfl, hs, hnr⟩
  obtain ⟨s, hl, hs, hnr⟩ := loop_total _ hbody (log.numrec+1) (s := (0, log)) ⟨rfl, rfl⟩
    (Nat.lt_succ_self _)
  refine ⟨log.numrec+1, s.2, ?_, hs, hnr⟩
  rw [snsdNvmeDiscRefurbishLog, hl]
  rfl

/-- So does the lookup. -/
theorem discMatch_total (pton : ℕ → Bytes → Option Bytes) (ctx : Ctx) {log : DiscLog}
    (h : log.Fits) (hn : log.numrec < 2^32) :
    ∃ fuel res, discMatch fuel pton ctx log = .ok res := by
  have hbody : ∀ s : ℕ × Ctx × ℤ, True →
      BodyMeets (fun _ => True) (fun _ => True) (fun s => log.numrec-s.1) s
        (matchBody pton log s) := by
    rintro ⟨i, c, ret⟩ -
    rw [matchBody]
    by_cases hi : i < log.numrec
    · rw [if_pos hi, entry_of_fits h hi, next_index hn hi]
      simp only [ok_bind]
      split
      · exact Or.inl ⟨_, rfl, trivial⟩
      · refine Or.inr ⟨_, rfl, trivial, ?_⟩
        simp only
        omega
    · rw [if_neg hi]
      exact Or.inl ⟨_, rfl, trivial⟩
  obtain ⟨s, hl, -⟩ := loop_total _ hbody (log.numrec+1) (s := (0, ctx, -EINVAL)) trivial
    (Nat.lt_succ_self _)
  refine ⟨log.numrec+1, s.2, ?_⟩
  rw [discMatch, hl]
  rfl

/-- The buffer holds its records, and the two loops over them end without an
access outside of it. -/
def DiscLog.Safe (pton : ℕ → Bytes → Option Bytes) (ctx : Ctx) (log : DiscLog) : Prop :=
  log.Fits ∧ ∃ fuel log', snsdNvmeDiscRefurbishLog fuel log = .ok log' ∧
    ∃ fuel' res, discMatch fuel' pton ctx log' = .ok res

theorem fits_logOf {dev : DiscDevice} {r : ℕ} : (logOf dev r).Fits ↔
    (dev.reads r).numrec+1 ≤ blocks (dev.reads (r-1)).numrec := by
  simp only [DiscLog.Fits, logOf, sizeofHdr, sizeofEntry]
  omega

theorem safe_of_fits (pton : ℕ → Bytes → Option Bytes) (ctx : Ctx) {dev : DiscDevice} {r : ℕ}
    (h : (logOf dev r).Fits) : (logOf dev r).Safe pton ctx := by
  have hlt : (logOf dev r).numrec < 2^32 := by
    have hb : blocks (dev.reads (r-1)).numrec < 2^22 := Nat.mod_lt _ (by decide)
    have hle := fits_logOf.mp h
    show (dev.reads r).numrec < 2^32
    omega
  obtain ⟨fuel, log', hr, hs, hn⟩ := refurbish_total h hlt
  have hfit : log'.Fits := by
    rw [DiscLog.Fits, hs, hn]
    exact h
  exact ⟨h, fuel, log', hr, discMatch_total pton ctx hfit (by omega)⟩

/-- A target that shows one record and then two, under one generation. -/
def growingDevice : DiscDevice where
  openErr := none
  reads k :=
    { alloc := true
      ret := 0
      genctr := 5
      numrec := if k = 0 then 1 else 2
      entries := fun _ => ⟨0, 0, 0, Mem.zero _, Mem.zero _, Mem.zero _⟩ }

end NvmeSnsd.ConnNvme
