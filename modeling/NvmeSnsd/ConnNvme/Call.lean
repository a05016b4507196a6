import NvmeSnsd.ConnNvme.Sysfs
import NvmeSnsd.ConnNvme.Discovery
import NvmeSnsd.Lib.Names
import NvmeSnsd.Lib.Run

/-! `snsd_nvme_connect` step by step. A step opens one file at most, and between
two steps controllers come and go. -/
namespace NvmeSnsd.ConnNvme
open Lib

/-- Where `snsd_nvme_ctrl_find` stands: which file it opens next, of which
directory, and what it has read of this directory so far. -/
inductive Search
  | scan
  | next (names : List Bytes)
  | transport (dname : Bytes) (names : List Bytes) (subsysnqn : CStr SNSD_NQN_MAX_LEN)
  | address (dname : Bytes) (names : List Bytes) (subsysnqn : CStr SNSD_NQN_MAX_LEN)
    (transport : CStr SNSD_NVME_TRANSPORT_LEN)
  | state (dname : Bytes)
  | done (state : CtrlState) (dname : Option (CStr SNSD_DEVICE_NAME_SIZE))
  deriving DecidableEq

def SNSD_NVME_PATH_SYSDIR : Bytes := ascii "nvme"

/-- `scandir` of the class directory with `snsd_nvme_ctrl_scan` and `alphasort`. -/
def scandir (sysfs : List SysCtrl) : List Bytes :=
  ((sysfs.map SysCtrl.dname).filter SNSD_NVME_PATH_SYSDIR.isPrefixOf).insertionSort (· ≤ ·)

/-- The controller in whose directory a file is opened, with `fails` if the call does. -/
def opened (sysfs : List SysCtrl) (fails : Bool) (dname : Bytes) : Option SysCtrl :=
  if fails then none else bearer SysCtrl.dname dname sysfs

/-- `snsd_nvme_ctrl_find` goes on by one file. There is no next step where a field
of the address does not fit. -/
def searchStep (ctx : Ctx) (sysfs : List SysCtrl) (fails : Bool) : Search → Option Search
  | .scan => some (if fails then .done .unknown none else .next (scandir sysfs))
  | .next [] => some (.done .notExist none)
  | .next (d :: names) =>
    match snsdNvmeCtrlReadAttr SNSD_NQN_MAX_LEN_pos ((opened sysfs fails d).bind (·.subsysnqn)) with
    | none => some (.done .unknown none)
    | some subsysnqn => some (.transport d names subsysnqn)
  | .transport d names subsysnqn =>
    match snsdNvmeCtrlReadAttr SNSD_NVME_TRANSPORT_LEN_pos
        ((opened sysfs fails d).bind (·.transport)) with
    | none => some (.done .unknown none)
    | some transport => some (.address d names subsysnqn transport)
  | .address d names subsysnqn transport =>
    match snsdNvmeCtrlReadAttr SNSD_BUF_SIZE_pos ((opened sysfs fails d).bind (·.address)) with
    | none => some (.done .unknown none)
    | some address =>
      match snsdNvmeCtrlParseAddress address.text
          { Ctx.zero with subsysnqn := subsysnqn, transport := transport } with
      | .error _ => none
      | .ok nctx =>
        -- Skip the discovery device.
        if snsdNvmeCtrlIsDiscovery nctx then some (.next names)
        else if ascii "null" <:+: nctx.subsysnqn.text then some (.next names)
        else if !snsdNvmeCtrlMatch ctx nctx then some (.next names)
        else some (.state d)
  | .state d =>
    let state := ((opened sysfs fails d).map snsdNvmeCtrlReadState).getD .unknown
    some (.done state (some (CStr.clip SNSD_DEVICE_NAME_SIZE_pos d)))
  | .done _ _ => none

/-- Where `snsd_nvme_connect` stands; `check` is the end of `snsd_nvme_do_connect`,
with what creating the controller returned. -/
inductive Call
  | start
  | first (s : Search)
  | create
  | check (ret : ℤ) (s : Search)
  | returns (ret : ℤ)
  deriving DecidableEq

/-- A step of `snsd_nvme_connect`, with what it gets from outside: the answer of
`snsd_nvme_disc_get_subsysnqn`, whether a file can be opened, and the result of
`snsd_nvme_create`. -/
inductive CallLabel
  | discover (answer : Except ℤ (CStr SNSD_NQN_MAX_LEN))
  | go
  | search (fails : Bool)
  | create (ret : ℤ)

/-- `strcpy(ctx->dname, dname)`, where `dname` is empty unless a search has stored a name. -/
def Ctx.setName (ctx : Ctx) (dname : Option (CStr SNSD_DEVICE_NAME_SIZE)) : Ctx :=
  { ctx with dname := dname.getD (CStr.empty SNSD_DEVICE_NAME_SIZE_pos) }

def callStep (sysfs : List SysCtrl) (ctx : Ctx) : Call → CallLabel → Option (Ctx × Call)
  | .start, .discover answer =>
    if ctx.subsysnqn.text = [] then
      match answer with
      | .error ret => if ret = 0 then none else some (ctx, .returns ret)
      | .ok subsysnqn => some ({ ctx with subsysnqn := subsysnqn }, .first .scan)
    else none
  | .start, .go => if ctx.subsysnqn.text = [] then none else some (ctx, .first .scan)
  | .first s, .search fails => (searchStep ctx sysfs fails s).map fun s => (ctx, .first s)
  | .first (.done state dname), .go =>
    match state with
    | .live => some (ctx.setName dname, .returns 0)
    | .notExist => some (ctx, .create)
    | .fault | .unknown => some (ctx, .returns (-EFAULT))
  | .create, .create ret => some (ctx, .check ret .scan)
  | .check ret s, .search fails => (searchStep ctx sysfs fails s).map fun s => (ctx, .check ret s)
  | .check ret (.done state dname), .go =>
    if ret = 0 then
      if state = .live then some (ctx.setName dname, .returns 0) else some (ctx, .returns (-EFAULT))
    else some (ctx, .returns ret)
  | _, _ => none

def ENOENT : ℤ := 2

/-- `snsd_nvme_recheck`. The path of an empty name is the class directory itself. -/
def snsdNvmeRecheck (sysfs : List SysCtrl) (ctx : Ctx) : ℤ :=
  if ctx.dname.text = [] ∨ ∃ c ∈ sysfs, c.dname = ctx.dname.text then 0 else -ENOENT

/-- `snsd_nvme_ctx_reinit` -/
def snsdNvmeCtxReinit (ctx : Ctx) : Ctx := { ctx with dname := CStr.empty SNSD_DEVICE_NAME_SIZE_pos }

theorem profile_eq_some {c : SysCtrl} {nctx : Ctx} :
    snsdNvmeCtrlProfile c = .ok (some nctx) ↔ ∃ subsysnqn transport address,
      snsdNvmeCtrlReadAttr SNSD_NQN_MAX_LEN_pos c.subsysnqn = some subsysnqn ∧
      snsdNvmeCtrlReadAttr SNSD_NVME_TRANSPORT_LEN_pos c.transport = some transport ∧
      snsdNvmeCtrlReadAttr SNSD_BUF_SIZE_pos c.address = some address ∧
      snsdNvmeCtrlParseAddress address.text
        { Ctx.zero with subsysnqn := subsysnqn, transport := transport } = .ok nctx := by
  unfold snsdNvmeCtrlProfile
  cases hq : snsdNvmeCtrlReadAttr SNSD_NQN_MAX_LEN_pos c.subsysnqn with
  | none => simp
  | some subsysnqn =>
    cases ht : snsdNvmeCtrlReadAttr SNSD_NVME_TRANSPORT_LEN_pos c.transport with
    | none => simp
    | some transport =>
      cases ha : snsdNvmeCtrlReadAttr SNSD_BUF_SIZE_pos c.address with
      | none => simp
      | some address =>
        cases hp : snsdNvmeCtrlParseAddress address.text
            { Ctx.zero with subsysnqn := subsysnqn, transport := transport } with
        | error e => simp [hp, Bind.bind, Except.bind]
        | ok ctx => simp [hp]

/-! In a sysfs that stays as it is, the steps find what `snsd_nvme_ctrl_find` does. -/

section Undisturbed
variable {ctx : Ctx} {sysfs : List SysCtrl} {c : SysCtrl} {names : List Bytes}

/-- Steps with no call that fails. -/
abbrev Searches (ctx : Ctx) (sysfs : List SysCtrl) (n : ℕ) (s s' : Search) : Prop :=
  run (fun s fails => searchStep ctx sysfs fails s) s (List.replicate n false) = some s'

theorem Searches.head {n : ℕ} {s u t : Search} (hs : searchStep ctx sysfs false s = some u)
    (h : Searches ctx sysfs n u t) : Searches ctx sysfs (n+1) s t := by
  rw [Searches, List.replicate_succ]
  exact run_cons.mpr ⟨u, hs, h⟩

theorem searches_zero (s : Search) : Searches ctx sysfs 0 s s := rfl

/-- An unreadable directory ends the search. -/
theorem searches_unreadable (hopen : opened sysfs false c.dname = some c)
    (h : snsdNvmeCtrlProfile c = .ok none) :
    ∃ n, Searches ctx sysfs n (.next (c.dname :: names)) (.done .unknown none) := by
  unfold snsdNvmeCtrlProfile at h
  cases hq : snsdNvmeCtrlReadAttr SNSD_NQN_MAX_LEN_pos c.subsysnqn with
  | none => exact ⟨1, .head (by simp [searchStep, hopen, hq]) (searches_zero _)⟩
  | some subsysnqn =>
    have hstep : searchStep ctx sysfs false (.next (c.dname :: names)) =
        some (.transport c.dname names subsysnqn) := by simp [searchStep, hopen, hq]
    cases ht : snsdNvmeCtrlReadAttr SNSD_NVME_TRANSPORT_LEN_pos c.transport with
    | none => exact ⟨2, .head hstep (.head (by simp [searchStep, hopen, ht]) (searches_zero _))⟩
    | some transport =>
      have hstep' : searchStep ctx sysfs false (.transport c.dname names subsysnqn) =
          some (.address c.dname names subsysnqn transport) := by simp [searchStep, hopen, ht]
      cases ha : snsdNvmeCtrlReadAttr SNSD_BUF_SIZE_pos c.address with
      | none =>
        exact ⟨3, .head hstep (.head hstep' (.head (by simp [searchStep, hopen, ha])
          (searches_zero _)))⟩
      | some address =>
        simp only [hq, ht, ha] at h
        cases hp : snsdNvmeCtrlParseAddress address.text
            { Ctx.zero with subsysnqn := subsysnqn, transport := transport } with
        | error e =>
          rw [hp] at h
          cases h
        | ok nctx =>
          rw [hp] at h
          cases h

/-- A directory that is read: the search takes its controller or goes on. -/
theorem searches_readable {n : ℕ} {nctx : Ctx} {t : Search}
    (hopen : opened sysfs false c.dname = some c)
    (h : snsdNvmeCtrlProfile c = .ok (some nctx))
    (hrest : Searches ctx sysfs n
      (if snsdNvmeCtrlIsDiscovery nctx then .next names
        else if ascii "null" <:+: nctx.subsysnqn.text then .next names
        else if !snsdNvmeCtrlMatch ctx nctx then .next names else .state c.dname) t) :
    Searches ctx sysfs (n+3) (.next (c.dname :: names)) t := by
  obtain ⟨subsysnqn, transport, address, hq, ht, ha, hp⟩ := profile_eq_some.mp h
  apply Searches.head (u := .transport c.dname names subsysnqn)
  · simp [searchStep, hopen, hq]
  apply Searches.head (u := .address c.dname names subsysnqn transport)
  · simp [searchStep, hopen, ht]
  refine Searches.head ?_ hrest
  simp only [searchStep, hopen, Option.bind_some, ha, hp]
  split_ifs <;> rfl

theorem searches_from (hn : (sysfs.map SysCtrl.dname).Nodup) {ctrls : List SysCtrl}
    (hsub : ctrls ⊆ sysfs) {r : CtrlState × Option (CStr SNSD_DEVICE_NAME_SIZE)}
    (h : ctrlFindFrom ctx ctrls = .ok r) :
    ∃ n, Searches ctx sysfs n (.next (ctrls.map SysCtrl.dname)) (.done r.1 r.2) := by
  induction ctrls with
  | nil =>
    obtain rfl := Except.ok.inj h
    exact ⟨1, .head rfl (searches_zero _)⟩
  | cons c ctrls ih =>
    obtain ⟨hc, hrest⟩ := List.cons_subset.mp hsub
    have hopen : opened sysfs false c.dname = some c := bearer_of_mem hn hc
    rw [List.map_cons]
    unfold ctrlFindFrom at h
    rcases hp : snsdNvmeCtrlProfile c with e | (_ | nctx)
    · rw [hp] at h
      cases h
    · rw [hp] at h
      obtain rfl := Except.ok.inj h
      exact searches_unreadable hopen hp
    · rw [hp] at h
      simp only [ok_bind] at h
      -- with what is left to look at, the search ends as the function does
      obtain ⟨n, hn⟩ : ∃ n, Searches ctx sysfs n
          (if snsdNvmeCtrlIsDiscovery nctx then .next (ctrls.map SysCtrl.dname)
            else if ascii "null" <:+: nctx.subsysnqn.text then .next (ctrls.map SysCtrl.dname)
            else if !snsdNvmeCtrlMatch ctx nctx then .next (ctrls.map SysCtrl.dname)
            else .state c.dname) (.done r.1 r.2) := by
        split_ifs at h ⊢
        · exact ih hrest h
        · exact ih hrest h
        · exact ih hrest h
        · obtain rfl := Except.ok.inj h
          exact ⟨1, .head (by simp [searchStep, hopen]) (searches_zero _)⟩
      exact ⟨n+3, searches_readable hopen hp hn⟩

/-- As long as no controller comes or goes, and no call fails, the steps of a search
end with what `snsd_nvme_ctrl_find` gives. -/
theorem search_undisturbed (hn : (sysfs.map SysCtrl.dname).Nodup) {ctrls : List SysCtrl}
    (hsub : ctrls ⊆ sysfs) (hscan : scandir sysfs = ctrls.map SysCtrl.dname)
    {r : CtrlState × Option (CStr SNSD_DEVICE_NAME_SIZE)}
    (h : snsdNvmeCtrlFind ctx (some ctrls) = .ok r) :
    ∃ n, Searches ctx sysfs n .scan (.done r.1 r.2) := by
  obtain ⟨n, hs⟩ := searches_from hn hsub h
  exact ⟨n+1, .head (by simp [searchStep, hscan]) hs⟩

end Undisturbed

/-! What is known of the controllers while they come and go. -/

/-- `snsd_nvme_ctrl_match` of a context and of what the controller's files say. -/
def CtrlMatches (ctx : Ctx) (c : SysCtrl) : Prop :=
  ∃ nctx, snsdNvmeCtrlProfile c = .ok (some nctx) ∧ snsdNvmeCtrlMatch ctx nctx = true

instance (ctx : Ctx) (c : SysCtrl) : Decidable (CtrlMatches ctx c) :=
  match h : snsdNvmeCtrlProfile c with
  | .ok (some nctx) => decidable_of_iff (snsdNvmeCtrlMatch ctx nctx = true)
    ⟨fun hm => ⟨nctx, h, hm⟩, fun ⟨n, hn, hm⟩ => by
      rw [h] at hn
      obtain rfl := Option.some.inj (Except.ok.inj hn)
      exact hm⟩
  | .ok none => .isFalse fun ⟨n, hn, _⟩ => by
    rw [h] at hn
    cases hn
  | .error e => .isFalse fun ⟨n, hn, _⟩ => by
    rw [h] at hn
    cases hn

/-- The name that the kernel gives the controller with this instance number. -/
def nvmeName (n : ℕ) : Bytes := ascii "nvme" ++ decimal n

/-- The directories of the class: their names are the kernel's, each given once. -/
structure SysfsOk (sysfs : List SysCtrl) : Prop where
  nodup : (sysfs.map SysCtrl.dname).Nodup
  named : ∀ c ∈ sysfs, ∃ n < 2^31, c.dname = nvmeName n

/-- The directory that a search is reading, or has found live. -/
def Search.name : Search → Option Bytes
  | .transport d _ _ => some d
  | .address d _ _ _ => some d
  | .state d => some d
  | .done .live dname => some (dname.getD (CStr.empty SNSD_DEVICE_NAME_SIZE_pos)).text
  | _ => none

/-- What a search knows of the controller in that directory: either that it matches,
or what the files say that have been read. -/
def Search.Knows (ctx : Ctx) : Search → SysCtrl → Prop
  | .transport _ _ subsysnqn, c =>
    CtrlMatches ctx c ∨ snsdNvmeCtrlReadAttr SNSD_NQN_MAX_LEN_pos c.subsysnqn = some subsysnqn
  | .address _ _ subsysnqn t, c =>
    CtrlMatches ctx c ∨ snsdNvmeCtrlReadAttr SNSD_NQN_MAX_LEN_pos c.subsysnqn = some subsysnqn ∧
      snsdNvmeCtrlReadAttr SNSD_NVME_TRANSPORT_LEN_pos c.transport = some t
  | _, c => CtrlMatches ctx c

/-- A name is held, and `P` is known of whoever bears it. -/
def Known (sysfs : List SysCtrl) (name : Option Bytes) (P : SysCtrl → Prop) : Prop :=
  ∀ d, name = some d → d ≠ [] ∧ Bears SysCtrl.dname P d sysfs

/-- The name that a connect call will leave in the context. -/
def Call.name (ctx : Ctx) : Call → Option Bytes
  | .first s => s.name
  | .check ret s => if ret = 0 then s.name else none
  | .returns ret => if ret = 0 then some ctx.dname.text else none
  | _ => none

def Call.Knows (ctx : Ctx) : Call → SysCtrl → Prop
  | .first s, c => s.Knows ctx c
  | .check _ s, c => s.Knows ctx c
  | _, c => CtrlMatches ctx c

theorem known_none (sysfs : List SysCtrl) (P : SysCtrl → Prop) : Known sysfs none P := by
  intro d hd
  cases hd

theorem nvmeName_injective : Function.Injective nvmeName := by
  intro m n h
  exact decimal_injective (List.append_cancel_left h)

theorem nvmeName_ne_nil (n : ℕ) : nvmeName n ≠ [] := by
  rw [nvmeName]
  simp [ascii]

/-- The name of an instance fits the array for it. -/
theorem nvmeName_clip {n : ℕ} (hn : n < 2^31) :
    (CStr.clip SNSD_DEVICE_NAME_SIZE_pos (nvmeName n)).text = nvmeName n := by
  apply CStr.clip_text
  · rw [nvmeName, List.mem_append]
    rintro (hz | hz)
    · exact absurd hz (by decide)
    · exact not_mem_decimal (Or.inl (by decide)) hz
  · have hl : (decimal n).length ≤ 10 := decimal_length_le (by decide) (by omega)
    rw [nvmeName, List.length_append]
    exact Nat.lt_of_le_of_lt (Nat.add_le_add_left hl _) (by decide)

section Steps
variable {ctx : Ctx} {sysfs : List SysCtrl}

theorem opened_some {fails : Bool} {d : Bytes} {c : SysCtrl}
    (h : opened sysfs fails d = some c) : bearer SysCtrl.dname d sysfs = some c := by
  rw [opened] at h
  split at h
  · cases h
  · exact h

/-- What is known of the controller whose file has been read is known of every
bearer of its name. -/
theorem known_of_opened (h : SysfsOk sysfs) {fails : Bool} {d : Bytes} {c : SysCtrl}
    (ho : opened sysfs fails d = some c) {P : SysCtrl → Prop} (hp : P c) :
    Known sysfs (some d) P := by
  intro d' hd
  obtain rfl := Option.some.inj hd
  refine ⟨?_, bears_of_bearer h.nodup (opened_some ho) hp⟩
  obtain ⟨hc, rfl⟩ := bearer_some (opened_some ho)
  obtain ⟨n, -, hn⟩ := h.named c hc
  rw [hn]
  exact nvmeName_ne_nil n

/-- A file has been read: it is that of the controller in the directory now. -/
theorem readAttr_some {cap : ℕ} {hcap : 0 < cap} {o : Option SysCtrl}
    {f : SysCtrl → Option Bytes} {v : CStr cap}
    (h : snsdNvmeCtrlReadAttr hcap (o.bind f) = some v) :
    ∃ c, o = some c ∧ snsdNvmeCtrlReadAttr hcap (f c) = some v := by
  cases o with
  | none => cases h
  | some c => exact ⟨c, rfl, h⟩

theorem search_known (hok : SysfsOk sysfs) {fails : Bool} {s s' : Search}
    (h : Known sysfs s.name (s.Knows ctx)) (hs : searchStep ctx sysfs fails s = some s') :
    Known sysfs s'.name (s'.Knows ctx) := by
  cases s with
  | scan =>
    obtain rfl := Option.some.inj hs
    split <;> exact known_none _ _
  | next names =>
    cases names with
    | nil =>
      obtain rfl := Option.some.inj hs
      exact known_none _ _
    | cons d names =>
      rw [searchStep] at hs
      split at hs
      · obtain rfl := Option.some.inj hs
        exact known_none _ _
      · rename_i subsysnqn hq
        obtain rfl := Option.some.inj hs
        obtain ⟨c, hc, hq⟩ := readAttr_some hq
        exact known_of_opened hok hc (Or.inr hq)
  | transport d names subsysnqn =>
    rw [searchStep] at hs
    split at hs
    · obtain rfl := Option.some.inj hs
      exact known_none _ _
    · rename_i transport ht
      obtain rfl := Option.some.inj hs
      obtain ⟨c, hc, ht⟩ := readAttr_some ht
      obtain ⟨hmem, hname⟩ := bearer_some (opened_some hc)
      apply known_of_opened hok hc
      -- a controller that has come in between matches
      rcases (h d rfl).2 c hmem hname with hm | hq
      · exact Or.inl hm
      · exact Or.inr ⟨hq, ht⟩
  | address d names subsysnqn transport =>
    rw [searchStep] at hs
    split at hs
    · obtain rfl := Option.some.inj hs
      exact known_none _ _
    · rename_i address ha
      obtain ⟨c, hc, ha⟩ := readAttr_some ha
      obtain ⟨hmem, hname⟩ := bearer_some (opened_some hc)
      split at hs
      · cases hs
      · rename_i nctx hp
        split_ifs at hs with hdisc hnull hmatch
        · obtain rfl := Option.some.inj hs
          exact known_none _ _
        · obtain rfl := Option.some.inj hs
          exact known_none _ _
        · obtain rfl := Option.some.inj hs
          exact known_none _ _
        · obtain rfl := Option.some.inj hs
          apply known_of_opened hok hc
          rcases (h d rfl).2 c hmem hname with hm | ⟨hq, ht⟩
          · exact hm
          · exact ⟨nctx, profile_eq_some.mpr ⟨_, _, _, hq, ht, ha, hp⟩, by simpa using hmatch⟩
  | state d =>
    obtain rfl := Option.some.inj hs
    cases ho : opened sysfs fails d with
    | none => exact known_none _ _
    | some c =>
      obtain ⟨hmem, rfl⟩ := bearer_some (opened_some ho)
      obtain ⟨n, hn, hname⟩ := hok.named c hmem
      rw [hname]
      cases hst : snsdNvmeCtrlReadState c with
      | live =>
        simp only [Option.map_some, Option.getD_some, Search.name, hst, nvmeName_clip hn]
        exact hname ▸ h
      | fault | notExist | unknown =>
        simp only [Option.map_some, Option.getD_some, Search.name, hst]
        exact known_none _ _
  | done state dname => cases hs

/-- A step of a connect call: in the end the name in the context is that of a
matching controller. -/
theorem call_known (hok : SysfsOk sysfs) {call call' : Call} {ctx' : Ctx} {l : CallLabel}
    (h : Known sysfs (call.name ctx) (call.Knows ctx))
    (hs : callStep sysfs ctx call l = some (ctx', call')) :
    Known sysfs (call'.name ctx') (call'.Knows ctx') := by
  unfold callStep at hs
  split at hs
  · split_ifs at hs
    split at hs
    · split_ifs at hs with hret
      obtain ⟨rfl, rfl⟩ := Prod.mk.inj (Option.some.inj hs)
      simp only [Call.name, if_neg hret]
      exact known_none _ _
    · obtain ⟨rfl, rfl⟩ := Prod.mk.inj (Option.some.inj hs)
      exact known_none _ _
  · split_ifs at hs
    obtain ⟨rfl, rfl⟩ := Prod.mk.inj (Option.some.inj hs)
    exact known_none _ _
  · obtain ⟨s', hs', he⟩ := Option.map_eq_some_iff.mp hs
    obtain ⟨rfl, rfl⟩ := Prod.mk.inj he
    exact search_known hok h hs'
  · split at hs
    · obtain ⟨rfl, rfl⟩ := Prod.mk.inj (Option.some.inj hs)
      -- the name that the search has found is now that of the context
      exact h
    · obtain ⟨rfl, rfl⟩ := Prod.mk.inj (Option.some.inj hs)
      exact known_none _ _
    · obtain ⟨rfl, rfl⟩ := Prod.mk.inj (Option.some.inj hs)
      exact known_none _ _
    · obtain ⟨rfl, rfl⟩ := Prod.mk.inj (Option.some.inj hs)
      exact known_none _ _
  · obtain ⟨rfl, rfl⟩ := Prod.mk.inj (Option.some.inj hs)
    simp only [Call.name, Search.name, ite_self]
    exact known_none _ _
  · rename_i ret s fails
    obtain ⟨s', hs', he⟩ := Option.map_eq_some_iff.mp hs
    obtain ⟨rfl, rfl⟩ := Prod.mk.inj he
    by_cases hret : ret = 0
    · simp only [Call.name, if_pos hret] at h ⊢
      exact search_known hok h hs'
    · simp only [Call.name, if_neg hret]
      exact known_none _ _
  · split_ifs at hs with hret hlive
    · obtain ⟨rfl, rfl⟩ := Prod.mk.inj (Option.some.inj hs)
      subst hret hlive
      exact h
    · obtain ⟨rfl, rfl⟩ := Prod.mk.inj (Option.some.inj hs)
      exact known_none _ _
    · obtain ⟨rfl, rfl⟩ := Prod.mk.inj (Option.some.inj hs)
      simp only [Call.name, if_neg hret]
      exact known_none _ _
  · cases hs

theorem Search.knows_of_matches (s : Search) {c : SysCtrl} (h : CtrlMatches ctx c) :
    s.Knows ctx c := by
  cases s with
  | transport | address => exact Or.inl h
  | scan | next | state | done => exact h

theorem Call.knows_of_matches (call : Call) {c : SysCtrl} (h : CtrlMatches ctx c) :
    call.Knows ctx c := by
  cases call with
  | first s | check _ s => exact s.knows_of_matches h
  | start | create | returns => exact h

/-- The state of a controller is no part of what is known. -/
theorem Search.knows_state (s : Search) (state : Option Bytes) {c : SysCtrl}
    (h : s.Knows ctx c) : s.Knows ctx { c with state := state } := by
  cases s <;> exact h

theorem Call.knows_state (call : Call) (state : Option Bytes) {c : SysCtrl}
    (h : call.Knows ctx c) : call.Knows ctx { c with state := state } := by
  cases call with
  | first s | check _ s => exact s.knows_state state h
  | start | create | returns => exact h

end Steps

namespace Known
variable {sysfs : List SysCtrl} {name : Option Bytes} {P : SysCtrl → Prop}

theorem subset (h : Known sysfs name P) {rest : List SysCtrl} (hs : rest ⊆ sysfs) :
    Known rest name P :=
  fun d hd => ⟨(h d hd).1, (h d hd).2.subset hs⟩

theorem concat (h : Known sysfs name P) {c : SysCtrl} (hc : name = some c.dname → P c) :
    Known (sysfs ++ [c]) name P :=
  fun d hd => ⟨(h d hd).1, (h d hd).2.concat fun he => hc (he ▸ hd)⟩

theorem map (h : Known sysfs name P) {f : SysCtrl → SysCtrl} (hf : ∀ c, (f c).dname = c.dname)
    (hp : ∀ c, P c → P (f c)) : Known (sysfs.map f) name P :=
  fun d hd => ⟨(h d hd).1, (h d hd).2.map hf hp⟩

end Known

end NvmeSnsd.ConnNvme
