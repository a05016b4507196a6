import NvmeSnsd.ConnNvme.Disconnect

/-! The connect worker makes one call after the other, and controllers go away at
any time: it never connects a second time what is connected. -/
namespace NvmeSnsd.ConnNvme
open Lib

/-- A controller that `snsd_nvme_ctrl_find` stops at. -/
def Visible (ctx : Ctx) (c : SysCtrl) : Prop := IsTarget ctx c ∧ ¬ IsNull c

/-- No two controllers are those of one context. -/
def Unique (sysfs : List SysCtrl) : Prop :=
  ∀ ctx, ∀ c ∈ sysfs, ∀ c' ∈ sysfs, Visible ctx c → Visible ctx c' → c.dname = c'.dname

section Search
variable {ctx : Ctx} {sysfs : List SysCtrl}

/-- The search can still end without a controller. -/
def Search.open : Search → Bool
  | .next _ => true
  | .transport _ _ _ => true
  | .address _ _ _ _ => true
  | .done .notExist _ => true
  | _ => false

/-- The directories that it has still to look at, and the one it is reading. -/
def Search.left : Search → List Bytes
  | .next names => names
  | .transport d names _ => d :: names
  | .address d names _ _ => d :: names
  | _ => []

def Search.dir : Search → Option Bytes
  | .transport d _ _ => some d
  | .address d _ _ _ => some d
  | _ => none

/-- What the files say that have been read there. -/
def Search.Read : Search → SysCtrl → Prop
  | .transport _ _ subsysnqn, c =>
    snsdNvmeCtrlReadAttr SNSD_NQN_MAX_LEN_pos c.subsysnqn = some subsysnqn
  | .address _ _ subsysnqn t, c =>
    snsdNvmeCtrlReadAttr SNSD_NQN_MAX_LEN_pos c.subsysnqn = some subsysnqn ∧
      snsdNvmeCtrlReadAttr SNSD_NVME_TRANSPORT_LEN_pos c.transport = some t
  | _, _ => True

/-- Nothing is passed over: who is visible is still to be looked at, and what has been
read is what the files say. -/
structure SearchOk (ctx : Ctx) (sysfs : List SysCtrl) (s : Search) : Prop where
  left : s.open = true → ∀ c ∈ sysfs, Visible ctx c → c.dname ∈ s.left
  read : ∀ d, s.dir = some d → Bears SysCtrl.dname s.Read d sysfs

theorem SearchOk.closed {s : Search} (ho : s.open = false) (hd : s.dir = none) :
    SearchOk ctx sysfs s := by
  refine ⟨fun h => ?_, fun d h => ?_⟩
  · rw [ho] at h
    cases h
  · rw [hd] at h
    cases h

theorem mem_scandir (hok : SysfsOk sysfs) {c : SysCtrl} (hc : c ∈ sysfs) :
    c.dname ∈ scandir sysfs := by
  obtain ⟨n, -, hn⟩ := hok.named c hc
  rw [scandir, List.mem_insertionSort, List.mem_filter]
  refine ⟨List.mem_map_of_mem hc, ?_⟩
  rw [hn, nvmeName, SNSD_NVME_PATH_SYSDIR, List.isPrefixOf_iff_prefix]
  exact List.prefix_append _ _

theorem readState_ne (c : SysCtrl) : snsdNvmeCtrlReadState c ≠ .notExist := by
  unfold snsdNvmeCtrlReadState
  split
  · exact CtrlState.noConfusion
  · split_ifs
    · exact CtrlState.noConfusion
    · exact CtrlState.noConfusion

/-- The directory that is read is that of one controller all the time. -/
theorem bears_opened (hok : SysfsOk sysfs) {fails : Bool} {d : Bytes} {c : SysCtrl}
    (ho : opened sysfs fails d = some c) {P : SysCtrl → Prop} (hp : P c) :
    Bears SysCtrl.dname P d sysfs := bears_of_bearer hok.nodup (opened_some ho) hp

theorem search_ok (hok : SysfsOk sysfs) {fails : Bool} {s s' : Search}
    (h : SearchOk ctx sysfs s) (hs : searchStep ctx sysfs fails s = some s') :
    SearchOk ctx sysfs s' := by
  cases s with
  | scan =>
    obtain rfl := Option.some.inj hs
    split
    · exact .closed rfl rfl
    · exact ⟨fun _ c hc _ => mem_scandir hok hc, fun _ hd => by cases hd⟩
  | next names =>
    cases names with
    | nil =>
      obtain rfl := Option.some.inj hs
      exact ⟨fun _ => h.left rfl, fun _ hd => by cases hd⟩
    | cons d names =>
      rw [searchStep] at hs
      split at hs
      · obtain rfl := Option.some.inj hs
        exact .closed rfl rfl
      · rename_i subsysnqn hq
        obtain rfl := Option.some.inj hs
        obtain ⟨c, hc, hq⟩ := readAttr_some hq
        refine ⟨fun _ => h.left rfl, fun d' hd => ?_⟩
        obtain rfl := Option.some.inj hd
        exact bears_opened hok hc hq
  | transport d names subsysnqn =>
    rw [searchStep] at hs
    split at hs
    · obtain rfl := Option.some.inj hs
      exact .closed rfl rfl
    · rename_i transport ht
      obtain rfl := Option.some.inj hs
      obtain ⟨c, hc, ht⟩ := readAttr_some ht
      obtain ⟨hmem, hname⟩ := bearer_some (opened_some hc)
      refine ⟨fun _ => h.left rfl, fun d' hd => ?_⟩
      obtain rfl := Option.some.inj hd
      exact bears_opened hok hc ⟨h.read d rfl c hmem hname, ht⟩
  | address d names subsysnqn transport =>
    rw [searchStep] at hs
    split at hs
    · obtain rfl := Option.some.inj hs
      exact .closed rfl rfl
    · rename_i address ha
      obtain ⟨c, hc, ha⟩ := readAttr_some ha
      obtain ⟨hmem, hname⟩ := bearer_some (opened_some hc)
      obtain ⟨hq, ht⟩ := h.read d rfl c hmem hname
      split at hs
      · cases hs
      · rename_i nctx hp
        have hprofile : snsdNvmeCtrlProfile c = .ok (some nctx) :=
          profile_eq_some.mpr ⟨_, _, _, hq, ht, ha, hp⟩
        -- the search goes on only past a controller that is not visible
        have hskip (hnot : ¬ Visible ctx c) : SearchOk ctx sysfs (.next names) := by
          refine ⟨fun _ x hx hv => ?_, fun _ hd => by cases hd⟩
          rcases List.mem_cons.mp (h.left rfl x hx hv) with he | he
          · obtain rfl := List.inj_on_of_nodup_map hok.nodup hx hmem (he.trans hname.symm)
            exact (hnot hv).elim
          · exact he
        have hsame {nctx' : Ctx} (hp' : snsdNvmeCtrlProfile c = .ok (some nctx')) :
            nctx' = nctx := Option.some.inj (Except.ok.inj (hp'.symm.trans hprofile))
        split_ifs at hs with hdisc hnull hmatch
        · obtain rfl := Option.some.inj hs
          apply hskip
          rintro ⟨⟨nctx', hp', hne, -⟩, -⟩
          obtain rfl := hsame hp'
          exact hne (beq_iff_eq.mp hdisc)
        · obtain rfl := Option.some.inj hs
          exact hskip fun hv => hv.2 ⟨nctx, hprofile, hnull⟩
        · obtain rfl := Option.some.inj hs
          apply hskip
          rintro ⟨⟨nctx', hp', -, hm⟩, -⟩
          obtain rfl := hsame hp'
          rw [hm] at hmatch
          cases hmatch
        · obtain rfl := Option.some.inj hs
          exact .closed rfl rfl
  | state d =>
    obtain rfl := Option.some.inj hs
    cases ho : opened sysfs fails d with
    | none => exact .closed rfl rfl
    | some c =>
      refine .closed ?_ rfl
      rw [Option.map_some, Option.getD_some]
      cases hst : snsdNvmeCtrlReadState c with
      | notExist => exact (readState_ne c hst).elim
      | live | fault | unknown => rfl
  | done state dname => cases hs

theorem SearchOk.subset {rest : List SysCtrl} {s : Search} (h : SearchOk ctx sysfs s)
    (hs : rest ⊆ sysfs) : SearchOk ctx rest s :=
  ⟨fun ho c hc => h.left ho c (hs hc), fun d hd => (h.read d hd).subset hs⟩

theorem visible_state {c : SysCtrl} (state : Option Bytes) :
    Visible ctx { c with state := state } ↔ Visible ctx c := Iff.rfl

/-- The kernel changes the state of a controller. -/
def setState (dname : Bytes) (state : Option Bytes) (c : SysCtrl) : SysCtrl :=
  if c.dname = dname then { c with state := state } else c

theorem setState_dname (dname : Bytes) (state : Option Bytes) (c : SysCtrl) :
    (setState dname state c).dname = c.dname := by
  rw [setState]
  split <;> rfl

theorem visible_setState {dname : Bytes} {state : Option Bytes} {c : SysCtrl} :
    Visible ctx (setState dname state c) ↔ Visible ctx c := by
  rw [setState]
  split
  · exact visible_state state
  · exact Iff.rfl

theorem SearchOk.setState {s : Search} (h : SearchOk ctx sysfs s) (dname : Bytes)
    (state : Option Bytes) : SearchOk ctx (sysfs.map (setState dname state)) s := by
  refine ⟨fun ho c hc hv => ?_, fun d hd => (h.read d hd).map (setState_dname _ _) fun c hc => ?_⟩
  · obtain ⟨x, hx, rfl⟩ := List.mem_map.mp hc
    rw [setState_dname]
    exact h.left ho x hx (visible_setState.mp hv)
  · rw [ConnNvme.setState]
    split
    · cases s <;> exact hc
    · exact hc

end Search

/-- The connect worker: the context of the call that it makes, or has made last. -/
structure ConnWorker where
  sysfs : List SysCtrl
  ctx : Ctx
  call : Call

def ConnWorker.init (sysfs : List SysCtrl) : ConnWorker := ⟨sysfs, .zero, .returns 0⟩

/-- `creates` is the step of `snsd_nvme_create`, with the controller that the kernel
makes of it if any; `discovery` is a controller that `snsd_nvme_disc_get_log` makes. -/
inductive ConnLabel
  | begins (ctx : Ctx)
  | call (l : CallLabel)
  | creates (ret : ℤ) (c : Option SysCtrl)
  | discovery (c : SysCtrl)
  | remove (dname : Bytes)
  | state (dname : Bytes) (state : Option Bytes)

def CallLabel.isCreate : CallLabel → Bool
  | .create _ => true
  | _ => false

/-- The directories with a controller more. -/
def withCtrl (sysfs : List SysCtrl) : Option SysCtrl → Option (List SysCtrl)
  | none => some sysfs
  | some c => (freeInstance sysfs).map fun n => sysfs ++ [{ c with dname := nvmeName n }]

def connStep (s : ConnWorker) : ConnLabel → Option ConnWorker
  | .begins ctx =>
    match s.call with
    | .returns _ => some { s with ctx := ctx, call := .start }
    | _ => none
  | .call l =>
    if l.isCreate then none
    else (callStep s.sysfs s.ctx s.call l).map fun r => { s with ctx := r.1, call := r.2 }
  | .creates ret c =>
    (callStep s.sysfs s.ctx s.call (.create ret)).bind fun r =>
      (withCtrl s.sysfs c).map fun sysfs => ⟨sysfs, r.1, r.2⟩
  | .discovery c =>
    if s.call = .start then (withCtrl s.sysfs (some c)).map fun sysfs => { s with sysfs := sysfs }
    else none
  | .remove dname => some { s with sysfs := without s.sysfs dname }
  | .state dname state => some { s with sysfs := s.sysfs.map (setState dname state) }

/-- A controller of the discovery subsystem. -/
def DiscoveryCtrl (c : SysCtrl) : Prop :=
  (snsdNvmeCtrlProfile c).toOption.join.any snsdNvmeCtrlIsDiscovery = true

instance (c : SysCtrl) : Decidable (DiscoveryCtrl c) := instDecidableEqBool _ _

/-- The kernel does as it is told: the controller that it makes of the options has
their addresses, and for a discovery it makes a discovery controller. -/
def KernelOk (s : ConnWorker) : ConnLabel → Prop
  | .creates _ (some c) => CtrlMatches s.ctx c
  | .discovery c => DiscoveryCtrl c
  | _ => True

instance (s : ConnWorker) (l : ConnLabel) : Decidable (KernelOk s l) := by
  unfold KernelOk
  split <;> infer_instance

section Worker
variable {s t : ConnWorker} {sysfs : List SysCtrl} {ctx : Ctx}

/-- What the call relies on: a search has passed nothing over, and no controller is
there when one is created. -/
def CallClear (sysfs : List SysCtrl) (ctx : Ctx) : Call → Prop
  | .first s => SearchOk ctx sysfs s
  | .create => ∀ c ∈ sysfs, ¬ Visible ctx c
  | _ => True

structure WorkerOk (s : ConnWorker) : Prop where
  sysfs : SysfsOk s.sysfs
  unique : Unique s.sysfs
  clear : CallClear s.sysfs s.ctx s.call

theorem Unique.subset {rest : List SysCtrl} (h : Unique sysfs) (hs : rest ⊆ sysfs) :
    Unique rest := fun ctx c hc c' hc' => h ctx c (hs hc) c' (hs hc')

theorem Unique.setState (h : Unique sysfs) (dname : Bytes) (state : Option Bytes) :
    Unique (sysfs.map (setState dname state)) := by
  intro ctx c hc c' hc' hv hv'
  obtain ⟨x, hx, rfl⟩ := List.mem_map.mp hc
  obtain ⟨y, hy, rfl⟩ := List.mem_map.mp hc'
  rw [setState_dname, setState_dname]
  exact h ctx x hx y hy (visible_setState.mp hv) (visible_setState.mp hv')

/-- A controller is added that no context sees together with another. -/
theorem Unique.concat (h : Unique sysfs) {c : SysCtrl}
    (hc : ∀ ctx, ∀ x ∈ sysfs, Visible ctx c → ¬ Visible ctx x) : Unique (sysfs ++ [c]) := by
  intro ctx x hx y hy hvx hvy
  rcases List.mem_append.mp hx with hxs | hxc
  · rcases List.mem_append.mp hy with hys | hyc
    · exact h ctx x hxs y hys hvx hvy
    · rw [List.mem_singleton.mp hyc] at hvy
      exact (hc ctx x hxs hvy hvx).elim
  · rw [List.mem_singleton.mp hxc] at hvx ⊢
    rcases List.mem_append.mp hy with hys | hyc
    · exact (hc ctx y hys hvx hvy).elim
    · rw [List.mem_singleton.mp hyc]

theorem not_visible_discovery {c : SysCtrl} (hd : DiscoveryCtrl c) : ¬ Visible ctx c := by
  rintro ⟨⟨nctx, hp, hne, -⟩, -⟩
  rw [DiscoveryCtrl, hp] at hd
  exact hne (beq_iff_eq.mp hd)

/-- Contexts of one controller match the same controllers. -/
theorem ctrlMatch_trans {ctx' nctx nctx' : Ctx} (h : snsdNvmeCtrlMatch ctx nctx = true)
    (h' : snsdNvmeCtrlMatch ctx' nctx = true) (hm : snsdNvmeCtrlMatch ctx' nctx' = true) :
    snsdNvmeCtrlMatch ctx nctx' = true := by
  simp only [snsdNvmeCtrlMatch, Bool.and_eq_true, beq_iff_eq] at *
  obtain ⟨⟨⟨a, b⟩, c⟩, d⟩ := h
  obtain ⟨⟨⟨a', b'⟩, c'⟩, d'⟩ := h'
  obtain ⟨⟨⟨a'', b''⟩, c''⟩, d''⟩ := hm
  exact ⟨⟨⟨a.trans (a'.symm.trans a''), b.trans (b'.symm.trans b'')⟩,
    c.trans (c'.symm.trans c'')⟩, d.trans (d'.symm.trans d'')⟩

/-- What is created for a context that sees nothing shares no context with what is there. -/
theorem created_alone {c : SysCtrl} (hm : CtrlMatches ctx c)
    (hclear : ∀ x ∈ sysfs, ¬ Visible ctx x) (ctx' : Ctx) (x : SysCtrl) (hx : x ∈ sysfs)
    (hv : Visible ctx' c) : ¬ Visible ctx' x := by
  rintro ⟨⟨xctx, hxp, hne, hxm⟩, hnull⟩
  obtain ⟨nctx, hp, hm⟩ := hm
  obtain ⟨⟨nctx', hp', -, hm'⟩, -⟩ := hv
  obtain rfl : nctx' = nctx := Option.some.inj (Except.ok.inj (hp'.symm.trans hp))
  exact hclear x hx ⟨⟨xctx, hxp, hne, ctrlMatch_trans hm hm' hxm⟩, hnull⟩

theorem CallClear.subset {rest : List SysCtrl} {call : Call} (h : CallClear sysfs ctx call)
    (hs : rest ⊆ sysfs) : CallClear rest ctx call := by
  cases call with
  | first s => exact SearchOk.subset h hs
  | create => exact fun c hc => h c (hs hc)
  | start | check | returns => trivial

theorem CallClear.setState {call : Call} (h : CallClear sysfs ctx call) (dname : Bytes)
    (state : Option Bytes) : CallClear (sysfs.map (setState dname state)) ctx call := by
  cases call with
  | first s => exact SearchOk.setState h dname state
  | create =>
    intro c hc hv
    obtain ⟨x, hx, rfl⟩ := List.mem_map.mp hc
    exact h x hx (visible_setState.mp hv)
  | start | check | returns => trivial

theorem scan_ok (ctx : Ctx) (sysfs : List SysCtrl) : SearchOk ctx sysfs .scan := .closed rfl rfl

theorem call_clear (hok : SysfsOk sysfs) {call call' : Call} {ctx' : Ctx} {l : CallLabel}
    (h : CallClear sysfs ctx call) (hs : callStep sysfs ctx call l = some (ctx', call')) :
    CallClear sysfs ctx' call' := by
  unfold callStep at hs
  split at hs
  · split_ifs at hs
    split at hs
    · split_ifs at hs
      obtain ⟨rfl, rfl⟩ := Prod.mk.inj (Option.some.inj hs)
      trivial
    · obtain ⟨rfl, rfl⟩ := Prod.mk.inj (Option.some.inj hs)
      exact scan_ok _ _
  · split_ifs at hs
    obtain ⟨rfl, rfl⟩ := Prod.mk.inj (Option.some.inj hs)
    exact scan_ok _ _
  · obtain ⟨s', hs', he⟩ := Option.map_eq_some_iff.mp hs
    obtain ⟨rfl, rfl⟩ := Prod.mk.inj he
    exact search_ok hok h hs'
  · split at hs
    · obtain ⟨rfl, rfl⟩ := Prod.mk.inj (Option.some.inj hs)
      trivial
    · obtain ⟨rfl, rfl⟩ := Prod.mk.inj (Option.some.inj hs)
      -- the search has looked at all, and has found none
      intro c hc hv
      exact List.not_mem_nil (SearchOk.left h rfl c hc hv)
    · obtain ⟨rfl, rfl⟩ := Prod.mk.inj (Option.some.inj hs)
      trivial
    · obtain ⟨rfl, rfl⟩ := Prod.mk.inj (Option.some.inj hs)
      trivial
  · obtain ⟨rfl, rfl⟩ := Prod.mk.inj (Option.some.inj hs)
    trivial
  · obtain ⟨s', -, he⟩ := Option.map_eq_some_iff.mp hs
    obtain ⟨rfl, rfl⟩ := Prod.mk.inj he
    trivial
  · split_ifs at hs
    all_goals
      obtain ⟨rfl, rfl⟩ := Prod.mk.inj (Option.some.inj hs)
      trivial
  · cases hs

theorem create_stage {call : Call} {ret : ℤ} {r : Ctx × Call}
    (hs : callStep sysfs ctx call (.create ret) = some r) : call = .create := by
  cases call with
  | create => rfl
  | start | returns => cases hs
  | first s | check _ s => cases s <;> cases hs

theorem workerOk_step (h : WorkerOk s) {l : ConnLabel} (hk : KernelOk s l)
    (ht : connStep s l = some t) : WorkerOk t := by
  cases l with
  | begins ctx =>
    simp only [connStep] at ht
    split at ht
    · obtain rfl := Option.some.inj ht
      exact ⟨h.sysfs, h.unique, trivial⟩
    · cases ht
  | call l =>
    simp only [connStep] at ht
    split_ifs at ht
    obtain ⟨⟨ctx', call'⟩, hs, rfl⟩ := Option.map_eq_some_iff.mp ht
    exact ⟨h.sysfs, h.unique, call_clear h.sysfs h.clear hs⟩
  | creates ret c =>
    obtain ⟨⟨ctx', call'⟩, hs, ht⟩ := Option.bind_eq_some_iff.mp ht
    obtain ⟨sysfs, hw, rfl⟩ := Option.map_eq_some_iff.mp ht
    have hstage : s.call = .create := create_stage hs
    have hclear : ∀ x ∈ s.sysfs, ¬ Visible s.ctx x := by
      have hc := h.clear
      rw [hstage] at hc
      exact hc
    have hafter : CallClear sysfs ctx' call' := by
      rw [hstage] at hs
      obtain ⟨rfl, rfl⟩ := Prod.mk.inj (Option.some.inj hs)
      trivial
    cases c with
    | none =>
      obtain rfl := Option.some.inj hw
      exact ⟨h.sysfs, h.unique, hafter⟩
    | some c =>
      obtain ⟨n, hn, rfl⟩ := Option.map_eq_some_iff.mp hw
      refine ⟨h.sysfs.create hn, h.unique.concat fun ctx'' x hx hv => ?_, hafter⟩
      exact created_alone (c := { c with dname := nvmeName n }) hk hclear ctx'' x hx hv
  | discovery c =>
    simp only [connStep] at ht
    split_ifs at ht with hstage
    obtain ⟨sysfs, hw, rfl⟩ := Option.map_eq_some_iff.mp ht
    obtain ⟨n, hn, rfl⟩ := Option.map_eq_some_iff.mp hw
    refine ⟨h.sysfs.create hn, h.unique.concat fun ctx x _ hv => ?_, ?_⟩
    · exact (not_visible_discovery (c := { c with dname := nvmeName n }) hk hv).elim
    · dsimp only
      rw [hstage]
      trivial
  | remove dname =>
    obtain rfl := Option.some.inj ht
    have hsub := without_subset s.sysfs dname
    exact ⟨h.sysfs.sublist List.filter_sublist, h.unique.subset hsub, h.clear.subset hsub⟩
  | state dname state =>
    obtain rfl := Option.some.inj ht
    exact ⟨h.sysfs.state dname state, h.unique.setState dname state, h.clear.setState dname state⟩

end Worker

/-- The call for the sample target up to the end of its first search. -/
def looksUp (n : ℕ) : List ConnLabel :=
  [.begins ((snsdNvmeCtxNessaryInit plainNtop ConnPeon.sampleParam).getD .zero),
    .call (.discover (.ok (CStr.clip SNSD_NQN_MAX_LEN_pos (ascii "nqn.a"))))] ++
  List.replicate n (.call (.search false)) ++ [.call .go]

/-- It is connected, and asked for again. -/
def askedTwice : List ConnLabel :=
  looksUp 2 ++ [.creates 0 (some (addrCtrl "192.168.1.1"))] ++
    List.replicate 5 (.call (.search false)) ++ [.call .go] ++ looksUp 5

end NvmeSnsd.ConnNvme
