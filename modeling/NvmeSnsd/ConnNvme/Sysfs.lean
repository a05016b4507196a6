import NvmeSnsd.ConnNvme.FillArg

/-! The controllers that sysfs shows, and the search for the one of a context. -/
namespace NvmeSnsd.ConnNvme
open Lib

theorem SNSD_NVME_TRANSPORT_LEN_pos : 0 < SNSD_NVME_TRANSPORT_LEN := by decide

theorem SNSD_NVME_TRSVCID_LEN_pos : 0 < SNSD_NVME_TRSVCID_LEN := by decide

theorem SNSD_DEVICE_NAME_SIZE_pos : 0 < SNSD_DEVICE_NAME_SIZE := by decide

theorem SNSD_BUF_SIZE_pos : 0 < SNSD_BUF_SIZE := by decide

/-- A directory under `/sys/class/nvme`, with what reading its attributes gives:
none where that fails. -/
structure SysCtrl where
  dname : Bytes
  subsysnqn : Option Bytes
  transport : Option Bytes
  address : Option Bytes
  state : Option Bytes

/-- `enum snsd_nvme_ctrl_state` -/
inductive CtrlState
  | live
  | fault
  | notExist
  | unknown
  deriving DecidableEq

theorem dropLast_fits {cap : ℕ} (s : CStr cap) : s.text.dropLast.length < cap := by
  have hl := s.fits
  rw [List.length_dropLast]
  omega

theorem dropLast_noNul {cap : ℕ} (s : CStr cap) : 0 ∉ s.text.dropLast :=
  fun hz => s.noNul (List.mem_of_mem_dropLast hz)

/-- The LF character is eliminated. Of an empty string the code looks at the byte
before the buffer, which no string shows. -/
def eliminateLf {cap : ℕ} (s : CStr cap) : CStr cap :=
  if s.text.getLast? = some 10 then ⟨s.text.dropLast, dropLast_fits s, dropLast_noNul s⟩ else s

/-- `snsd_nvme_ctrl_read_attr` into an array of `cap` bytes. -/
def snsdNvmeCtrlReadAttr {cap : ℕ} (h : 0 < cap) (file : Option Bytes) : Option (CStr cap) :=
  file.map fun text => eliminateLf (CStr.clip h text)

/-- `strcpy` of a string into an array of `cap` bytes. -/
def strcpy {cap : ℕ} (h : 0 < cap) (src : Bytes) : Except Fault (CStr cap) :=
  if src.length < cap then .ok (CStr.clip h src) else .error (.store 0 (src.length+1) cap)

/-- The loop body of `snsd_nvme_ctrl_parse_address`. -/
def parseField (ctx : Ctx) (p : Bytes) : Except Fault Ctx :=
  if p = [] then .ok ctx
  else if (ascii "traddr=").isPrefixOf p then do
    return { ctx with traddr := ← strcpy SNSD_NVME_TRADDR_LEN_pos (p.drop (ascii "traddr=").length) }
  else if (ascii "trsvcid=").isPrefixOf p then do
    return { ctx with trsvcid := ← strcpy SNSD_NVME_TRSVCID_LEN_pos (p.drop (ascii "trsvcid=").length) }
  else if (ascii "host_traddr=").isPrefixOf p then do
    return { ctx with hostTraddr := ← strcpy SNSD_NVME_TRADDR_LEN_pos (p.drop (ascii "host_traddr=").length) }
  else .ok ctx

/-- What `strsep(&address, ",\n")` cuts out. -/
def addressFields (address : Bytes) : List Bytes := address.splitOnP fun b => b == 44 || b == 10

/-- `snsd_nvme_ctrl_parse_address`, into the fields of `ctx`. -/
def snsdNvmeCtrlParseAddress (address : Bytes) (ctx : Ctx) : Except Fault Ctx :=
  (addressFields address).foldlM parseField
    { ctx with
      traddr := CStr.empty SNSD_NVME_TRADDR_LEN_pos
      trsvcid := CStr.empty SNSD_NVME_TRSVCID_LEN_pos
      hostTraddr := CStr.empty SNSD_NVME_TRADDR_LEN_pos }

/-- `snsd_nvme_ctrl_profile`; none is `-EFAULT`. -/
def snsdNvmeCtrlProfile (c : SysCtrl) : Except Fault (Option Ctx) :=
  match snsdNvmeCtrlReadAttr SNSD_NQN_MAX_LEN_pos c.subsysnqn with
  | none => .ok none
  | some subsysnqn =>
    match snsdNvmeCtrlReadAttr SNSD_NVME_TRANSPORT_LEN_pos c.transport with
    | none => .ok none
    | some transport =>
      match snsdNvmeCtrlReadAttr SNSD_BUF_SIZE_pos c.address with
      | none => .ok none
      | some address => do
        let ctx ← snsdNvmeCtrlParseAddress address.text
          { Ctx.zero with subsysnqn := subsysnqn, transport := transport }
        return some ctx

/-- `snsd_nvme_ctrl_read_state` -/
def snsdNvmeCtrlReadState (c : SysCtrl) : CtrlState :=
  match snsdNvmeCtrlReadAttr SNSD_BUF_SIZE_pos c.state with
  | none => .unknown
  | some state => if state.text = ascii "live" then .live else .fault

def SNSD_NVME_DISCOVERY_SUBNQN : Bytes := ascii "nqn.2014-08.org.nvmexpress.discovery"

/-- `snsd_nvme_ctrl_is_discovery` -/
def snsdNvmeCtrlIsDiscovery (ctx : Ctx) : Bool := ctx.subsysnqn.text == SNSD_NVME_DISCOVERY_SUBNQN

/-- `snsd_nvme_ctrl_find` from a controller on; with a match its name is stored. -/
def ctrlFindFrom (ctx : Ctx) :
    List SysCtrl → Except Fault (CtrlState × Option (CStr SNSD_DEVICE_NAME_SIZE))
  | [] => .ok (.notExist, none)
  | c :: ctrls => do
    match ← snsdNvmeCtrlProfile c with
    | none => return (.unknown, none)
    | some nctx =>
      -- Skip the discovery device.
      if snsdNvmeCtrlIsDiscovery nctx then ctrlFindFrom ctx ctrls
      else if ascii "null" <:+: nctx.subsysnqn.text then ctrlFindFrom ctx ctrls
      else if !snsdNvmeCtrlMatch ctx nctx then ctrlFindFrom ctx ctrls
      else return (snsdNvmeCtrlReadState c, some (CStr.clip SNSD_DEVICE_NAME_SIZE_pos c.dname))

/-- `snsd_nvme_ctrl_find`, over what `scandir` gives. -/
def snsdNvmeCtrlFind (ctx : Ctx) (ctrls : Option (List SysCtrl)) :
    Except Fault (CtrlState × Option (CStr SNSD_DEVICE_NAME_SIZE)) :=
  match ctrls with
  | none => .ok (.unknown, none)
  | some ctrls => ctrlFindFrom ctx ctrls

/-- The controller is read, and the fields of its address fit their arrays. -/
def CtrlReadable (c : SysCtrl) : Prop := ∃ nctx, snsdNvmeCtrlProfile c = .ok (some nctx)

/-- The context of a controller that is not the discovery subsystem matches. -/
def IsTarget (ctx : Ctx) (c : SysCtrl) : Prop :=
  ∃ nctx, snsdNvmeCtrlProfile c = .ok (some nctx) ∧
    nctx.subsysnqn.text ≠ SNSD_NVME_DISCOVERY_SUBNQN ∧ snsdNvmeCtrlMatch ctx nctx = true

/-- Its name has "null" in it. -/
def IsNull (c : SysCtrl) : Prop :=
  ∃ nctx, snsdNvmeCtrlProfile c = .ok (some nctx) ∧ ascii "null" <:+: nctx.subsysnqn.text

section Find
variable {ctx : Ctx} {c : SysCtrl} {ctrls : List SysCtrl}

/-- A readable controller that is no target, or a null one, is passed over. -/
theorem ctrlFindFrom_skip (hread : CtrlReadable c) (hnot : ¬ IsTarget ctx c ∨ IsNull c) :
    ctrlFindFrom ctx (c :: ctrls) = ctrlFindFrom ctx ctrls := by
  obtain ⟨nctx, hprofile⟩ := hread
  conv_lhs => unfold ctrlFindFrom
  rw [hprofile]
  dsimp only [ok_bind]
  split_ifs with hdisc hnull hmatch
  · rfl
  · rfl
  · rfl
  · exfalso
    rcases hnot with htarget | ⟨nctx', hprofile', hnull'⟩
    · refine htarget ⟨nctx, hprofile, ?_, by simpa using hmatch⟩
      intro he
      exact hdisc (beq_iff_eq.mpr he)
    · rw [hprofile] at hprofile'
      cases hprofile'
      exact hnull hnull'

theorem ctrlFindFrom_target (htarget : IsTarget ctx c) (hnull : ¬ IsNull c) :
    ctrlFindFrom ctx (c :: ctrls) = .ok (snsdNvmeCtrlReadState c,
      some (CStr.clip SNSD_DEVICE_NAME_SIZE_pos c.dname)) := by
  obtain ⟨nctx, hprofile, hdisc, hmatch⟩ := htarget
  have hdisc' : snsdNvmeCtrlIsDiscovery nctx = false := by
    rw [snsdNvmeCtrlIsDiscovery]
    exact beq_eq_false_iff_ne.mpr hdisc
  have hnull' : ¬ ascii "null" <:+: nctx.subsysnqn.text := fun h => hnull ⟨nctx, hprofile, h⟩
  unfold ctrlFindFrom
  rw [hprofile]
  dsimp only [ok_bind]
  rw [hdisc', if_neg Bool.false_ne_true, if_neg hnull', hmatch]
  rfl

/-- With no unreadable controller before it, the first target whose name is not
null gives its state and its name, whatever comes behind it; and with readable
controllers only, none of them such a target, there is none. -/
theorem ctrl_find_first (ctx : Ctx) :
    (∀ pre c post, (∀ x ∈ pre, CtrlReadable x ∧ (¬ IsTarget ctx x ∨ IsNull x)) →
      IsTarget ctx c → ¬ IsNull c →
        snsdNvmeCtrlFind ctx (some (pre ++ c :: post)) = .ok (snsdNvmeCtrlReadState c,
          some (CStr.clip SNSD_DEVICE_NAME_SIZE_pos c.dname))) ∧
      ∀ ctrls, (∀ x ∈ ctrls, CtrlReadable x ∧ (¬ IsTarget ctx x ∨ IsNull x)) →
        snsdNvmeCtrlFind ctx (some ctrls) = .ok (.notExist, none) := by
  constructor
  · intro pre c post hpre htarget hnull
    change ctrlFindFrom ctx (pre ++ c :: post) = _
    induction pre with
    | nil => exact ctrlFindFrom_target htarget hnull
    | cons x pre ih =>
      obtain ⟨⟨hread, hnot⟩, hrest⟩ := List.forall_mem_cons.mp hpre
      rw [List.cons_append, ctrlFindFrom_skip hread hnot]
      exact ih hrest
  · intro ctrls hall
    change ctrlFindFrom ctx ctrls = _
    induction ctrls with
    | nil => rfl
    | cons x ctrls ih =>
      obtain ⟨⟨hread, hnot⟩, hrest⟩ := List.forall_mem_cons.mp hall
      rw [ctrlFindFrom_skip hread hnot]
      exact ih hrest

end Find

/-- A live controller of 10.0.0.2 with a name, from 10.0.0.1. -/
def sampleCtrl (nqn : String) : SysCtrl where
  dname := ascii "nvme0"
  subsysnqn := some (ascii nqn ++ [10])
  transport := some (ascii "rdma\n")
  address := some (ascii "traddr=10.0.0.2,trsvcid=4420,host_traddr=10.0.0.1\n")
  state := some (ascii "live\n")

/-- Its directory is going away. -/
def unreadableCtrl : SysCtrl := ⟨ascii "nvme0", none, none, none, none⟩

def sampleCtx (nqn : String) : Ctx :=
  { rdmaCtx "4420" with subsysnqn := CStr.clip SNSD_NQN_MAX_LEN_pos (ascii nqn) }

theorem sampleCtrl_profile (nqn : String) (h : nqn = "nqn.a" ∨ nqn = "nqn.null") :
    snsdNvmeCtrlProfile (sampleCtrl nqn) = .ok (some (sampleCtx nqn)) := by
  rcases h with rfl | rfl <;> decide +kernel

theorem ctrl_find_sample : snsdNvmeCtrlFind (rdmaCtx "4420")
    (some ([sampleCtrl "nqn.null"] ++ sampleCtrl "nqn.a" :: [unreadableCtrl])) =
      .ok (.live, some (CStr.clip SNSD_DEVICE_NAME_SIZE_pos (ascii "nvme0"))) := by
  have hnull : IsNull (sampleCtrl "nqn.null") :=
    ⟨_, sampleCtrl_profile _ (Or.inr rfl), by decide⟩
  refine (ctrl_find_first (rdmaCtx "4420")).1 _ _ _ ?_ ?_ ?_
  · intro x hx
    obtain rfl := List.mem_singleton.mp hx
    exact ⟨⟨_, sampleCtrl_profile _ (Or.inr rfl)⟩, Or.inr hnull⟩
  · exact ⟨_, sampleCtrl_profile _ (Or.inl rfl), by decide, by decide⟩
  · intro ⟨nctx, hprofile, h⟩
    rw [sampleCtrl_profile _ (Or.inl rfl)] at hprofile
    cases hprofile
    exact absurd h (by decide)

/-- The first readable target decides, and without one there is none. -/
def FindsFirst (ctx : Ctx) (ctrls : List SysCtrl) : Prop :=
  (∀ pre c post, ctrls = pre ++ c :: post → (∀ x ∈ pre, ¬ IsTarget ctx x) → IsTarget ctx c →
    snsdNvmeCtrlFind ctx (some ctrls) = .ok (snsdNvmeCtrlReadState c,
      some (CStr.clip SNSD_DEVICE_NAME_SIZE_pos c.dname))) ∧
  ((∀ x ∈ ctrls, CtrlReadable x ∧ ¬ IsTarget ctx x) →
    snsdNvmeCtrlFind ctx (some ctrls) = .ok (.notExist, none))

/-- It does not: not with a null name among readable controllers, and not with an
unreadable controller before the target. -/
theorem hidden_target : ¬ (∀ ctx ctrls, (∀ x ∈ ctrls, CtrlReadable x) → FindsFirst ctx ctrls) ∧
    ¬ ∀ ctx ctrls, (∀ x ∈ ctrls, ¬ IsNull x) → FindsFirst ctx ctrls := by
  have htarget (nqn : String) (h : nqn = "nqn.a" ∨ nqn = "nqn.null") :
      IsTarget (rdmaCtx "4420") (sampleCtrl nqn) := by
    refine ⟨_, sampleCtrl_profile nqn h, ?_, ?_⟩ <;> rcases h with rfl | rfl <;> decide
  constructor
  · intro h
    have hfind := (h (rdmaCtx "4420") [sampleCtrl "nqn.null"] (fun x hx => by
      obtain rfl := List.mem_singleton.mp hx
      exact ⟨_, sampleCtrl_profile _ (Or.inr rfl)⟩)).1 [] _ [] rfl nofun (htarget _ (Or.inr rfl))
    have hnone : snsdNvmeCtrlFind (rdmaCtx "4420") (some [sampleCtrl "nqn.null"]) =
        .ok (.notExist, none) := by decide +kernel
    rw [hnone] at hfind
    cases hfind
  · intro h
    have hread : snsdNvmeCtrlProfile unreadableCtrl = .ok none := rfl
    have hfind := (h (rdmaCtx "4420") [unreadableCtrl, sampleCtrl "nqn.a"] (fun x hx => by
      rintro ⟨nctx, hprofile, hnull⟩
      rcases List.mem_cons.mp hx with rfl | hx
      · cases hread.symm.trans hprofile
      · obtain rfl := List.mem_singleton.mp hx
        rw [sampleCtrl_profile _ (Or.inl rfl)] at hprofile
        cases hprofile
        exact absurd hnull (by decide))).1 [unreadableCtrl] _ [] rfl (fun x hx => by
          obtain rfl := List.mem_singleton.mp hx
          rintro ⟨nctx, hprofile, -⟩
          cases hread.symm.trans hprofile) (htarget _ (Or.inl rfl))
    have hunknown : snsdNvmeCtrlFind (rdmaCtx "4420") (some [unreadableCtrl, sampleCtrl "nqn.a"]) =
        .ok (.unknown, none) := rfl
    rw [hunknown] at hfind
    cases hfind

end NvmeSnsd.ConnNvme
