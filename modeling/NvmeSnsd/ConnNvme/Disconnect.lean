import NvmeSnsd.ConnNvme.Recheck

/-! Any number of `snsd_nvme_disconnect` calls at once, step by step, while
controllers come and go and their names are given again. -/
namespace NvmeSnsd.ConnNvme
open Lib

def SNSD_DISCONNECT_FORCEDLY : ℕ := 1
def SNSD_NVME_KEEPALIVE_RETRY_TIMES : ℕ := 100

/-- Where `snsd_nvme_disconnect` stands: in its first search, before the keep
alive to what that found, in the second search with what the keep alive
returned, before the removal, or in `snsd_nvme_retry_keep_alive`. -/
inductive Discon
  | first (s : Search)
  | keepAlive (dname : CStr SNSD_DEVICE_NAME_SIZE)
  | second (dname : CStr SNSD_DEVICE_NAME_SIZE) (ret : ℤ) (s : Search)
  | remove (dname : CStr SNSD_DEVICE_NAME_SIZE)
  | retry (dname : CStr SNSD_DEVICE_NAME_SIZE) (index : ℕ)
  | returns
  deriving DecidableEq

/-- A step of the call, with what it gets from outside: whether a file can be
opened or written, and what a keep alive returns. -/
inductive DisconLabel
  | search (fails : Bool)
  | go
  | answer (ret : ℤ)
  | write (fails : Bool)

/-- The second search is told to store no name. -/
def disconStep (sysfs : List SysCtrl) (ctx : Ctx) (actionFlag : ℕ) :
    Discon → DisconLabel → Option Discon
  | .first s, .search fails => (searchStep ctx sysfs fails s).map .first
  | .first (.done state dname), .go =>
    if state = .live then some (.keepAlive (dname.getD (CStr.empty SNSD_DEVICE_NAME_SIZE_pos)))
    else some .returns
  | .keepAlive dname, .answer ret => some (.second dname ret .scan)
  | .second dname ret s, .search fails => (searchStep ctx sysfs fails s).map (.second dname ret)
  | .second dname ret (.done state _), .go =>
    if actionFlag &&& SNSD_DISCONNECT_FORCEDLY ≠ 0 ∧ state = .live then some (.remove dname)
    else if ret = 0 then some (.retry dname 0)
    else some .returns
  | .remove _, .write _ => some .returns
  | .retry dname index, .answer ret =>
    if ret ≠ 0 then some .returns
    else if index+1 < SNSD_NVME_KEEPALIVE_RETRY_TIMES then some (.retry dname (index+1))
    else some .returns
  | _, _ => none

inductive Effect
  | keepAlive
  | remove
  deriving DecidableEq

/-- What a step does to whom: to the controller under the name, if there is one. -/
def disconEffect (sysfs : List SysCtrl) : Discon → DisconLabel → Option (Effect × Option SysCtrl)
  | .keepAlive dname, .answer _ => some (.keepAlive, bearer SysCtrl.dname dname.text sysfs)
  | .retry dname _, .answer _ => some (.keepAlive, bearer SysCtrl.dname dname.text sysfs)
  | .remove dname, .write fails => (opened sysfs fails dname.text).map fun c => (.remove, some c)
  | _, _ => none

/-- The first search opens the first file of a directory. -/
def Discon.reads : Discon → Bool
  | .first (.next _) => true
  | _ => false

/-- A call of `snsd_nvme_disconnect`, and the time at which it has begun to read
the directory that it looks at. -/
structure DisconCall where
  ctx : Ctx
  actionFlag : ℕ
  stage : Discon
  read : ℕ

/-- What a call has done: the call then, to whom, and when the name was given to
its bearer. -/
structure Act where
  id : ℕ
  call : DisconCall
  effect : Effect
  target : Option SysCtrl
  born : ℕ

/-- The directories of the class, the times at which names were given last, the
calls that have begun, and what they have done. The clock counts the steps. -/
structure Disconnects where
  clock : ℕ
  sysfs : List SysCtrl
  born : Bytes → ℕ
  call : ℕ → Option DisconCall
  acts : List Act

/-- A call begins or goes on, or the kernel acts. -/
inductive DisconEvent
  | begins (id : ℕ) (ctx : Ctx) (actionFlag : ℕ)
  | call (id : ℕ) (l : DisconLabel)
  | remove (dname : Bytes)
  | create (c : SysCtrl)
  | state (dname : Bytes) (state : Option Bytes)

def Disconnects.init (sysfs : List SysCtrl) : Disconnects := ⟨1, sysfs, fun _ => 0, fun _ => none, []⟩

/-- The directories without that of a name. -/
def without (sysfs : List SysCtrl) (dname : Bytes) : List SysCtrl :=
  sysfs.filter fun c => c.dname != dname

/-- What is left of the directories when a call has done something. -/
def afterEffect (sysfs : List SysCtrl) : Option (Effect × Option SysCtrl) → List SysCtrl
  | some (.remove, some c) => without sysfs c.dname
  | _ => sysfs

def Disconnects.callStep (s : Disconnects) (id : ℕ) (k : DisconCall) (l : DisconLabel) :
    Option Disconnects :=
  (disconStep s.sysfs k.ctx k.actionFlag k.stage l).map fun stage =>
    let effect := disconEffect s.sysfs k.stage l
    let act (e : Effect × Option SysCtrl) : Act :=
      ⟨id, k, e.1, e.2, (e.2.map fun c => s.born c.dname).getD 0⟩
    { s with
      clock := s.clock+1
      sysfs := afterEffect s.sysfs effect
      call := Function.update s.call id
        (some { k with stage := stage, read := if k.stage.reads then s.clock else k.read })
      acts := s.acts ++ (effect.map act).toList }

def disconnectsStep (s : Disconnects) : DisconEvent → Option Disconnects
  | .begins id ctx actionFlag =>
    if (s.call id).isSome then none
    else some { s with
      clock := s.clock+1
      call := Function.update s.call id (some ⟨ctx, actionFlag, .first .scan, 0⟩) }
  | .call id l => (s.call id).bind fun k => s.callStep id k l
  | .remove dname => some { s with clock := s.clock+1, sysfs := without s.sysfs dname }
  | .create c =>
    (freeInstance s.sysfs).map fun n => { s with
      clock := s.clock+1
      sysfs := s.sysfs ++ [{ c with dname := nvmeName n }]
      born := Function.update s.born (nvmeName n) s.clock }
  | .state dname state =>
    some { s with
      clock := s.clock+1
      sysfs := s.sysfs.map fun c => if c.dname = dname then { c with state := state } else c }

/-! What a call knows of the controller under the name that it holds. -/

def Discon.name : Discon → Option Bytes
  | .first s => s.name
  | .keepAlive dname => some dname.text
  | .second dname _ _ => some dname.text
  | .remove dname => some dname.text
  | .retry dname _ => some dname.text
  | .returns => none

def Discon.Knows (ctx : Ctx) : Discon → SysCtrl → Prop
  | .first s, c => s.Knows ctx c
  | _, c => CtrlMatches ctx c

section Stage
variable {ctx : Ctx} {sysfs : List SysCtrl} {actionFlag : ℕ} {stage stage' : Discon}
  {l : DisconLabel}

/-- A search that does not turn to another directory keeps its name or drops it. -/
theorem search_name (hok : SysfsOk sysfs) {fails : Bool} {s s' : Search}
    (hs : searchStep ctx sysfs fails s = some s') (hn : (Discon.first s).reads = false) :
    s'.name = none ∨ s'.name = s.name := by
  cases s with
  | scan =>
    obtain rfl := Option.some.inj hs
    split <;> exact .inl rfl
  | next names => cases hn
  | transport d names subsysnqn =>
    rw [searchStep] at hs
    split at hs
    · obtain rfl := Option.some.inj hs
      exact .inl rfl
    · obtain rfl := Option.some.inj hs
      exact .inr rfl
  | address d names subsysnqn transport =>
    rw [searchStep] at hs
    split at hs
    · obtain rfl := Option.some.inj hs
      exact .inl rfl
    · split at hs
      · cases hs
      · split_ifs at hs
        all_goals obtain rfl := Option.some.inj hs
        · exact .inl rfl
        · exact .inl rfl
        · exact .inl rfl
        · exact .inr rfl
  | state d =>
    obtain rfl := Option.some.inj hs
    cases ho : opened sysfs fails d with
    | none => exact .inl rfl
    | some c =>
      obtain ⟨hmem, rfl⟩ := bearer_some (opened_some ho)
      obtain ⟨n, hn, hname⟩ := hok.named c hmem
      rw [hname]
      cases hst : snsdNvmeCtrlReadState c with
      | live =>
        simp only [Option.map_some, Option.getD_some, Search.name, hst, nvmeName_clip hn]
        exact .inr trivial
      | fault | notExist | unknown =>
        simp only [Option.map_some, Option.getD_some, Search.name, hst]
        exact .inl trivial
  | done state dname => cases hs

theorem discon_name (hok : SysfsOk sysfs)
    (hs : disconStep sysfs ctx actionFlag stage l = some stage') (hn : stage.reads = false) :
    stage'.name = none ∨ stage'.name = stage.name := by
  unfold disconStep at hs
  split at hs
  · obtain ⟨s', hs', rfl⟩ := Option.map_eq_some_iff.mp hs
    exact search_name hok hs' hn
  · split_ifs at hs with hlive
    · obtain rfl := Option.some.inj hs
      subst hlive
      exact .inr rfl
    · obtain rfl := Option.some.inj hs
      exact .inl rfl
  · obtain rfl := Option.some.inj hs
    exact .inr rfl
  · obtain ⟨s', -, rfl⟩ := Option.map_eq_some_iff.mp hs
    exact .inr rfl
  · split_ifs at hs
    all_goals obtain rfl := Option.some.inj hs
    · exact .inr rfl
    · exact .inr rfl
    · exact .inl rfl
  · obtain rfl := Option.some.inj hs
    exact .inl rfl
  · split_ifs at hs
    all_goals obtain rfl := Option.some.inj hs
    · exact .inl rfl
    · exact .inr rfl
    · exact .inl rfl
  · cases hs

theorem discon_known (hok : SysfsOk sysfs)
    (hs : disconStep sysfs ctx actionFlag stage l = some stage')
    (h : Known sysfs stage.name (stage.Knows ctx)) :
    Known sysfs stage'.name (stage'.Knows ctx) := by
  unfold disconStep at hs
  split at hs
  · obtain ⟨s', hs', rfl⟩ := Option.map_eq_some_iff.mp hs
    exact search_known hok h hs'
  · split_ifs at hs with hlive
    · obtain rfl := Option.some.inj hs
      subst hlive
      exact h
    · obtain rfl := Option.some.inj hs
      exact known_none _ _
  · obtain rfl := Option.some.inj hs
    exact h
  · obtain ⟨s', -, rfl⟩ := Option.map_eq_some_iff.mp hs
    exact h
  · split_ifs at hs
    all_goals obtain rfl := Option.some.inj hs
    · exact h
    · exact h
    · exact known_none _ _
  · obtain rfl := Option.some.inj hs
    exact known_none _ _
  · split_ifs at hs
    all_goals obtain rfl := Option.some.inj hs
    · exact known_none _ _
    · exact h
    · exact known_none _ _
  · cases hs

/-- Before it reads a directory a call holds no name. -/
theorem reads_name (h : stage.reads = true) : stage.name = none := by
  unfold Discon.reads at h
  split at h
  · rfl
  · cases h

end Stage

/-- The state of a controller is no part of what is known. -/
theorem Discon.knows_state {ctx : Ctx} (stage : Discon) (state : Option Bytes) {c : SysCtrl}
    (h : stage.Knows ctx c) : stage.Knows ctx { c with state := state } := by
  cases stage with
  | first s => exact s.knows_state state h
  | keepAlive | second | remove | retry | returns => exact h

theorem SysfsOk.create {sysfs : List SysCtrl} (h : SysfsOk sysfs) {n : ℕ}
    (hn : freeInstance sysfs = some n) {c : SysCtrl} :
    SysfsOk (sysfs ++ [{ c with dname := nvmeName n }]) := by
  obtain ⟨hlt, hfree⟩ := freeInstance_some hn
  refine ⟨?_, fun x hx => ?_⟩
  · rw [List.map_append, List.nodup_append]
    refine ⟨h.nodup, List.nodup_singleton _, ?_⟩
    intro a ha b hb
    obtain ⟨x, hx, rfl⟩ := List.mem_map.mp ha
    obtain rfl := List.mem_singleton.mp hb
    exact hfree x hx
  · rcases List.mem_append.mp hx with hx | hx
    · exact h.named x hx
    · obtain rfl := List.mem_singleton.mp hx
      exact ⟨n, hlt, rfl⟩

theorem SysfsOk.state {sysfs : List SysCtrl} (h : SysfsOk sysfs) (dname : Bytes)
    (state : Option Bytes) : SysfsOk
      (sysfs.map fun c => if c.dname = dname then { c with state := state } else c) := by
  have hname : ∀ c : SysCtrl,
      (if c.dname = dname then { c with state := state } else c).dname = c.dname := by
    intro c
    split <;> rfl
  refine ⟨?_, fun x hx => ?_⟩
  · rw [List.map_map]
    exact (List.map_congr_left fun c _ => hname c) ▸ h.nodup
  · obtain ⟨c, hc, rfl⟩ := List.mem_map.mp hx
    rw [hname]
    exact h.named c hc

section Run
variable {s t : Disconnects}

/-- The name that the call holds has been given again since its directory was read. -/
def Stale (s : Disconnects) (k : DisconCall) : Prop :=
  ∀ d, k.stage.name = some d → k.read < s.born d

/-- The name has been given again, or its bearer is known. -/
def CallOk (s : Disconnects) (k : DisconCall) : Prop :=
  Stale s k ∨ Known s.sysfs k.stage.name (k.stage.Knows k.ctx)

/-- It was done to a matching controller, or to one that has got its name after the
directory was read; and a controller is removed only by force. -/
structure ActOk (a : Act) : Prop where
  target : ∀ c, a.target = some c → CtrlMatches a.call.ctx c ∨ a.call.read < a.born
  forced : a.effect = .remove → a.call.actionFlag &&& SNSD_DISCONNECT_FORCEDLY ≠ 0

/-- A call that is about to remove is one by force. -/
def ForcedOk (k : DisconCall) : Prop :=
  ∀ d, k.stage = .remove d → k.actionFlag &&& SNSD_DISCONNECT_FORCEDLY ≠ 0

structure DisconsOk (s : Disconnects) : Prop where
  sysfs : SysfsOk s.sysfs
  born : ∀ d, s.born d < s.clock
  read : ∀ id k, s.call id = some k → k.read < s.clock
  calls : ∀ id k, s.call id = some k → CallOk s k
  forced : ∀ id k, s.call id = some k → ForcedOk k
  acts : ∀ a ∈ s.acts, ActOk a

theorem disconsOk_init {sysfs : List SysCtrl} (h : SysfsOk sysfs) :
    DisconsOk (.init sysfs) where
  sysfs := h
  born := fun _ => Nat.zero_lt_one
  read := fun _ _ hk => (Option.some_ne_none _ hk.symm).elim
  calls := fun _ _ hk => (Option.some_ne_none _ hk.symm).elim
  forced := fun _ _ hk => (Option.some_ne_none _ hk.symm).elim
  acts := fun _ ha => (List.not_mem_nil ha).elim

theorem without_subset (sysfs : List SysCtrl) (d : Bytes) : without sysfs d ⊆ sysfs :=
  List.filter_subset_self _

theorem SysfsOk.sublist {sysfs rest : List SysCtrl} (h : SysfsOk sysfs) (hs : rest.Sublist sysfs) :
    SysfsOk rest :=
  ⟨h.nodup.sublist (hs.map _), fun c hc => h.named c (hs.subset hc)⟩

theorem afterEffect_sublist (sysfs : List SysCtrl) (e : Option (Effect × Option SysCtrl)) :
    (afterEffect sysfs e).Sublist sysfs := by
  unfold afterEffect
  split
  · exact List.filter_sublist
  · exact List.Sublist.refl _

/-- Fewer directories, at a later time, change nothing of what a call knows. -/
theorem CallOk.fewer {k : DisconCall} (h : CallOk s k) (hb : t.born = s.born)
    (hs : t.sysfs ⊆ s.sysfs) : CallOk t k := by
  rcases h with h | h
  · refine .inl fun d hd => ?_
    rw [hb]
    exact h d hd
  · exact .inr (h.subset hs)

/-- Who bears the name of a call. -/
theorem bearer_ok {k : DisconCall} (h : CallOk s k) {d : Bytes} (hd : k.stage.name = some d)
    (hm : k.stage.Knows k.ctx = CtrlMatches k.ctx) {c : SysCtrl}
    (hc : bearer SysCtrl.dname d s.sysfs = some c) :
    CtrlMatches k.ctx c ∨ k.read < s.born c.dname := by
  obtain ⟨hmem, rfl⟩ := bearer_some hc
  rcases h with h | h
  · exact .inr (h _ hd)
  · have hk := (h _ hd).2 c hmem rfl
    rw [hm] at hk
    exact .inl hk

/-- What a step of a call does. -/
theorem effect_ok {k : DisconCall} (h : CallOk s k) (hf : ForcedOk k) {l : DisconLabel}
    {e : Effect × Option SysCtrl} (he : disconEffect s.sysfs k.stage l = some e) (id : ℕ) :
    ActOk ⟨id, k, e.1, e.2, (e.2.map fun c => s.born c.dname).getD 0⟩ := by
  have htarget (d : Bytes) (hd : k.stage.name = some d)
      (hm : k.stage.Knows k.ctx = CtrlMatches k.ctx)
      (hb : e.2 = none ∨ e.2 = bearer SysCtrl.dname d s.sysfs) (c : SysCtrl) (hc : e.2 = some c) :
      CtrlMatches k.ctx c ∨ k.read < (e.2.map fun c => s.born c.dname).getD 0 := by
    rw [hc]
    rcases hb with hb | hb
    · rw [hb] at hc
      cases hc
    · exact bearer_ok h hd hm (hb.symm.trans hc)
  unfold disconEffect at he
  split at he
  · rename_i dname _ hstage
    obtain rfl := Option.some.inj he
    refine ⟨htarget dname.text ?_ ?_ (.inr rfl), fun hr => by cases hr⟩
    · rw [hstage]
      rfl
    · rw [hstage]
      rfl
  · rename_i dname _ _ hstage
    obtain rfl := Option.some.inj he
    refine ⟨htarget dname.text ?_ ?_ (.inr rfl), fun hr => by cases hr⟩
    · rw [hstage]
      rfl
    · rw [hstage]
      rfl
  · rename_i dname fails hstage
    obtain ⟨c, hc, rfl⟩ := Option.map_eq_some_iff.mp he
    refine ⟨htarget dname.text ?_ ?_ (.inr (opened_some hc).symm), fun _ => hf dname hstage⟩
    · rw [hstage]
      rfl
    · rw [hstage]
      rfl
  · cases he

theorem forced_step {ctx : Ctx} {sysfs : List SysCtrl} {actionFlag read : ℕ}
    {stage stage' : Discon} {l : DisconLabel}
    (hs : disconStep sysfs ctx actionFlag stage l = some stage') :
    ForcedOk ⟨ctx, actionFlag, stage', read⟩ := by
  intro d hd
  obtain rfl : stage' = .remove d := hd
  unfold disconStep at hs
  split at hs
  · obtain ⟨_, -, he⟩ := Option.map_eq_some_iff.mp hs
    cases he
  · split_ifs at hs <;> cases hs
  · cases hs
  · obtain ⟨_, -, he⟩ := Option.map_eq_some_iff.mp hs
    cases he
  · split_ifs at hs with hforce
    · exact hforce.1
    · cases hs
    · cases hs
  · cases hs
  · split_ifs at hs <;> cases hs
  · cases hs

theorem disconsOk_call (h : DisconsOk s) {id : ℕ} {k : DisconCall} (hk : s.call id = some k)
    {l : DisconLabel} (ht : s.callStep id k l = some t) : DisconsOk t := by
  obtain ⟨stage, hs, rfl⟩ := Option.map_eq_some_iff.mp ht
  have hsub := (afterEffect_sublist s.sysfs (disconEffect s.sysfs k.stage l)).subset
  have hok := h.calls id k hk
  refine ⟨h.sysfs.sublist (afterEffect_sublist _ _), fun d => Nat.lt_succ_of_lt (h.born d), ?_, ?_,
    ?_, ?_⟩
  · intro id' k' hk'
    dsimp only at hk'
    by_cases hid : id' = id
    · subst hid
      rw [Function.update_self] at hk'
      obtain rfl := Option.some.inj hk'
      dsimp only
      split
      · exact Nat.lt_succ_self _
      · exact Nat.lt_succ_of_lt (h.read _ _ hk)
    · rw [Function.update_of_ne hid] at hk'
      exact Nat.lt_succ_of_lt (h.read _ _ hk')
  · intro id' k' hk'
    dsimp only at hk'
    by_cases hid : id' = id
    · subst hid
      rw [Function.update_self] at hk'
      obtain rfl := Option.some.inj hk'
      cases hr : k.stage.reads with
      | true =>
        -- a directory is opened: only now there is something to be known
        have hnone : Known s.sysfs k.stage.name (k.stage.Knows k.ctx) := by
          rw [reads_name hr]
          exact known_none _ _
        exact .inr ((discon_known h.sysfs hs hnone).subset hsub)
      | false =>
        rcases hok with hstale | hknown
        · left
          intro d hd
          rcases discon_name h.sysfs hs hr with hn | hn
          · have hd : stage.name = some d := hd
            rw [hn] at hd
            cases hd
          · exact hstale d (hn.symm.trans hd)
        · exact .inr ((discon_known h.sysfs hs hknown).subset hsub)
    · rw [Function.update_of_ne hid] at hk'
      exact (h.calls _ _ hk').fewer rfl hsub
  · intro id' k' hk'
    dsimp only at hk'
    by_cases hid : id' = id
    · subst hid
      rw [Function.update_self] at hk'
      obtain rfl := Option.some.inj hk'
      exact forced_step hs
    · rw [Function.update_of_ne hid] at hk'
      exact h.forced _ _ hk'
  · intro a ha
    rcases List.mem_append.mp ha with ha | ha
    · exact h.acts a ha
    · rw [Option.mem_toList] at ha
      obtain ⟨e, he, rfl⟩ := Option.map_eq_some_iff.mp ha
      exact effect_ok hok (h.forced id k hk) he id

/-- A name is given: no longer anything is known of its bearer. -/
theorem CallOk.create (h : DisconsOk s) {c : SysCtrl} {n : ℕ} {k : DisconCall}
    (hr : k.read < s.clock) (hk : CallOk s k) :
    CallOk { s with
      clock := s.clock+1
      sysfs := s.sysfs ++ [{ c with dname := nvmeName n }]
      born := Function.update s.born (nvmeName n) s.clock } k := by
  have hgrows (d : Bytes) : s.born d ≤ Function.update s.born (nvmeName n) s.clock d := by
    by_cases hd : d = nvmeName n
    · subst hd
      rw [Function.update_self]
      exact (h.born _).le
    · rw [Function.update_of_ne hd]
  by_cases hname : k.stage.name = some (nvmeName n)
  · left
    intro d hd
    obtain rfl := Option.some.inj (hname.symm.trans hd)
    dsimp only
    rw [Function.update_self]
    exact hr
  · rcases hk with hk | hk
    · exact .inl fun d hd => (hk d hd).trans_le (hgrows d)
    · exact .inr (hk.concat fun hd => (hname hd).elim)

theorem disconsOk_step (h : DisconsOk s) {e : DisconEvent} (ht : disconnectsStep s e = some t) :
    DisconsOk t := by
  have hborn (d : Bytes) : s.born d < s.clock+1 := Nat.lt_succ_of_lt (h.born d)
  have hread (id : ℕ) (k : DisconCall) (hk : s.call id = some k) : k.read < s.clock+1 :=
    Nat.lt_succ_of_lt (h.read id k hk)
  cases e with
  | begins id ctx actionFlag =>
    simp only [disconnectsStep] at ht
    split_ifs at ht
    obtain rfl := Option.some.inj ht
    refine ⟨h.sysfs, hborn, ?_, ?_, ?_, h.acts⟩
    · intro id' k hk
      dsimp only at hk
      by_cases hid : id' = id
      · subst hid
        rw [Function.update_self] at hk
        obtain rfl := Option.some.inj hk
        exact Nat.succ_pos _
      · rw [Function.update_of_ne hid] at hk
        exact hread id' k hk
    · intro id' k hk
      dsimp only at hk
      by_cases hid : id' = id
      · subst hid
        rw [Function.update_self] at hk
        obtain rfl := Option.some.inj hk
        exact .inr (known_none _ _)
      · rw [Function.update_of_ne hid] at hk
        exact (h.calls id' k hk).fewer rfl (List.Subset.refl _)
    · intro id' k hk
      dsimp only at hk
      by_cases hid : id' = id
      · subst hid
        rw [Function.update_self] at hk
        obtain rfl := Option.some.inj hk
        intro d hd
        cases hd
      · rw [Function.update_of_ne hid] at hk
        exact h.forced id' k hk
  | call id l =>
    obtain ⟨k, hk, ht⟩ := Option.bind_eq_some_iff.mp ht
    exact disconsOk_call h hk ht
  | remove dname =>
    obtain rfl := Option.some.inj ht
    exact ⟨h.sysfs.sublist List.filter_sublist, hborn, hread,
      fun id k hk => (h.calls id k hk).fewer rfl (without_subset _ _), h.forced, h.acts⟩
  | create c =>
    obtain ⟨n, hn, rfl⟩ := Option.map_eq_some_iff.mp ht
    refine ⟨h.sysfs.create hn, ?_, hread,
      fun id k hk => (h.calls id k hk).create h (h.read id k hk), h.forced, h.acts⟩
    intro d
    by_cases hd : d = nvmeName n
    · subst hd
      dsimp only
      rw [Function.update_self]
      exact Nat.lt_succ_self _
    · dsimp only
      rw [Function.update_of_ne hd]
      exact hborn d
  | state dname state =>
    obtain rfl := Option.some.inj ht
    have hname : ∀ c : SysCtrl,
        (if c.dname = dname then { c with state := state } else c).dname = c.dname := by
      intro c
      split <;> rfl
    refine ⟨h.sysfs.state dname state, hborn, hread, fun id k hk => ?_, h.forced, h.acts⟩
    rcases h.calls id k hk with hk' | hk'
    · exact .inl hk'
    · refine .inr (hk'.map hname fun c hc => ?_)
      split
      · exact k.stage.knows_state state hc
      · exact hc

/-! How much a call does. -/

/-- What a call may still do, at most. -/
def Discon.budget : Effect → Discon → ℕ
  | .keepAlive, .first _ => 1+SNSD_NVME_KEEPALIVE_RETRY_TIMES
  | .keepAlive, .keepAlive _ => 1+SNSD_NVME_KEEPALIVE_RETRY_TIMES
  | .keepAlive, .second _ _ _ => SNSD_NVME_KEEPALIVE_RETRY_TIMES
  | .keepAlive, .retry _ index => max 1 (SNSD_NVME_KEEPALIVE_RETRY_TIMES-index)
  | .keepAlive, _ => 0
  | .remove, .retry _ _ => 0
  | .remove, .returns => 0
  | .remove, _ => 1

/-- How often the call has done it. -/
def Disconnects.count (s : Disconnects) (id : ℕ) (e : Effect) : ℕ :=
  s.acts.countP fun a => a.id = id ∧ a.effect = e

/-- The effects of a step, counted. -/
def effectCount (e : Effect) (o : Option (Effect × Option SysCtrl)) : ℕ :=
  if o.map Prod.fst = some e then 1 else 0

theorem budget_step {ctx : Ctx} {sysfs : List SysCtrl} {actionFlag : ℕ} {stage stage' : Discon}
    {l : DisconLabel} (hs : disconStep sysfs ctx actionFlag stage l = some stage') (e : Effect) :
    effectCount e (disconEffect sysfs stage l)+stage'.budget e ≤ stage.budget e := by
  have hle : SNSD_NVME_KEEPALIVE_RETRY_TIMES = 100 := rfl
  unfold disconStep at hs
  split at hs
  · obtain ⟨_, -, rfl⟩ := Option.map_eq_some_iff.mp hs
    cases e <;> simp [disconEffect, effectCount, Discon.budget]
  · split_ifs at hs
    all_goals
      obtain rfl := Option.some.inj hs
      cases e <;> simp [disconEffect, effectCount, Discon.budget]
  · obtain rfl := Option.some.inj hs
    cases e <;> simp [disconEffect, effectCount, Discon.budget]
  · obtain ⟨_, -, rfl⟩ := Option.map_eq_some_iff.mp hs
    cases e <;> simp [disconEffect, effectCount, Discon.budget]
  · split_ifs at hs
    all_goals
      obtain rfl := Option.some.inj hs
      cases e <;> simp [disconEffect, effectCount, Discon.budget, hle]
  · rename_i dname fails
    obtain rfl := Option.some.inj hs
    -- the file can be opened or not
    cases ho : opened sysfs fails dname.text <;> cases e <;>
      simp [disconEffect, effectCount, Discon.budget, ho]
  · split_ifs at hs with hret hlt
    all_goals
      obtain rfl := Option.some.inj hs
      cases e <;> simp [disconEffect, effectCount, Discon.budget]
    omega
  · cases hs

/-- A call never exceeds what it may do, and before it begins has done nothing. -/
structure CountOk (s : Disconnects) : Prop where
  none : ∀ id e, s.call id = none → s.count id e = 0
  some : ∀ id e k, s.call id = some k →
    s.count id e+k.stage.budget e ≤ Discon.budget e (.first .scan)

theorem countP_toList (id id' : ℕ) (e : Effect) (o : Option (Effect × Option SysCtrl))
    (act : Effect × Option SysCtrl → Act) (hid : ∀ x, (act x).id = id)
    (he : ∀ x, (act x).effect = x.1) :
    (o.map act).toList.countP (fun a => a.id = id' ∧ a.effect = e) =
      if id = id' then effectCount e o else 0 := by
  cases o with
  | none =>
    rw [effectCount]
    simp
  | some x =>
    rw [effectCount, Option.map_some, Option.toList_some, List.countP_singleton, hid, he,
      Option.map_some]
    by_cases h : id = id'
    · simp [h]
    · simp [h]

theorem countOk_step (h : CountOk s) {ev : DisconEvent} (ht : disconnectsStep s ev = some t) :
    CountOk t := by
  cases ev with
  | begins id ctx actionFlag =>
    simp only [disconnectsStep] at ht
    split_ifs at ht with hbegun
    obtain rfl := Option.some.inj ht
    have hnone : s.call id = none := Option.not_isSome_iff_eq_none.mp hbegun
    constructor
    · intro id' e hk
      dsimp only at hk
      by_cases hid : id' = id
      · subst hid
        rw [Function.update_self] at hk
        cases hk
      · rw [Function.update_of_ne hid] at hk
        exact h.none id' e hk
    · intro id' e k hk
      dsimp only at hk
      by_cases hid : id' = id
      · subst hid
        rw [Function.update_self] at hk
        obtain rfl := Option.some.inj hk
        have h0 := h.none id' e hnone
        exact (Nat.add_le_add_right h0.le _).trans (Nat.zero_add _).le
      · rw [Function.update_of_ne hid] at hk
        exact h.some id' e k hk
  | call id l =>
    obtain ⟨k, hk, ht⟩ := Option.bind_eq_some_iff.mp ht
    obtain ⟨stage, hs, rfl⟩ := Option.map_eq_some_iff.mp ht
    have hcount (id' : ℕ) (e : Effect) := countP_toList id id' e
      (disconEffect s.sysfs k.stage l)
      (fun e => ⟨id, k, e.1, e.2, (e.2.map fun c => s.born c.dname).getD 0⟩)
      (fun _ => rfl) (fun _ => rfl)
    constructor
    · intro id' e hk'
      dsimp only at hk'
      by_cases hid : id' = id
      · subst hid
        rw [Function.update_self] at hk'
        cases hk'
      · rw [Function.update_of_ne hid] at hk'
        have h0 := h.none id' e hk'
        rw [Disconnects.count] at h0 ⊢
        rw [List.countP_append, h0, hcount, if_neg (Ne.symm hid)]
    · intro id' e k' hk'
      dsimp only at hk'
      rw [Disconnects.count, List.countP_append, hcount]
      by_cases hid : id' = id
      · subst hid
        rw [Function.update_self] at hk'
        obtain rfl := Option.some.inj hk'
        have hb := budget_step hs e
        have hold := h.some id' e k hk
        rw [Disconnects.count] at hold
        rw [if_pos rfl]
        dsimp only
        omega
      · rw [Function.update_of_ne hid] at hk'
        rw [if_neg (Ne.symm hid)]
        exact h.some id' e k' hk'
  | remove dname =>
    obtain rfl := Option.some.inj ht
    exact ⟨h.none, h.some⟩
  | create c =>
    obtain ⟨n, -, rfl⟩ := Option.map_eq_some_iff.mp ht
    exact ⟨h.none, h.some⟩
  | state dname state =>
    obtain rfl := Option.some.inj ht
    exact ⟨h.none, h.some⟩

end Run

/-- In every run of any number of disconnect calls, with controllers that come and
go: what is removed, or gets a keep alive, matches the context of the call, or has
got its name only after the call had begun to read the directory under it; only
calls by force remove, each at most one controller; and no call sends more than the
first keep alive and its retries. -/
theorem disconnects_safe {sysfs : List SysCtrl} (hsys : SysfsOk sysfs) {es : List DisconEvent}
    {s : Disconnects} (hr : run disconnectsStep (.init sysfs) es = some s) :
    (∀ a ∈ s.acts, (∀ c, a.target = some c → CtrlMatches a.call.ctx c ∨ a.call.read < a.born) ∧
      (a.effect = .remove → a.call.actionFlag &&& SNSD_DISCONNECT_FORCEDLY ≠ 0)) ∧
    ∀ id, s.count id .remove ≤ 1 ∧
      s.count id .keepAlive ≤ 1+SNSD_NVME_KEEPALIVE_RETRY_TIMES := by
  have hok : DisconsOk s := run_invariant (fun s e t h ht => disconsOk_step h ht)
    (disconsOk_init hsys) hr
  have hcount : CountOk s := by
    refine run_invariant (fun s e t h ht => countOk_step h ht) ⟨fun _ _ _ => rfl, ?_⟩ hr
    intro id e k hk
    cases hk
  refine ⟨fun a ha => ⟨(hok.acts a ha).target, (hok.acts a ha).forced⟩, fun id => ?_⟩
  cases hk : s.call id with
  | none =>
    rw [hcount.none id .remove hk, hcount.none id .keepAlive hk]
    exact ⟨Nat.zero_le _, Nat.zero_le _⟩
  | some k =>
    exact ⟨(Nat.le_add_right _ _).trans (hcount.some id .remove k hk),
      (Nat.le_add_right _ _).trans (hcount.some id .keepAlive k hk)⟩

/-- A forced disconnect of the sample target, which is `nvme0`. -/
def forcedOnce : List DisconEvent :=
  [.create (addrCtrl "192.168.1.1"),
    .begins 0 ((snsdNvmeCtxNessaryInit plainNtop ConnPeon.sampleParam).getD .zero) SNSD_DISCONNECT_FORCEDLY] ++
  List.replicate 5 (.call 0 (.search false)) ++ [.call 0 .go, .call 0 (.answer 0)] ++
  List.replicate 5 (.call 0 (.search false)) ++ [.call 0 .go, .call 0 (.write false)]

theorem disconnects_safe_sample : ∃ s, run disconnectsStep (.init []) forcedOnce = some s ∧
    s.sysfs = [] ∧ s.count 0 .remove = 1 ∧ ∀ id, s.count id .remove ≤ 1 := by
  have hrun : (run disconnectsStep (.init []) forcedOnce).any
      (fun s => s.sysfs.isEmpty ∧ s.count 0 .remove = 1) = true := by decide +kernel
  obtain ⟨s, hs, hs'⟩ := (Option.any_eq_true _ _).mp hrun
  obtain ⟨hnil, hone⟩ := of_decide_eq_true hs'
  exact ⟨s, hs, List.isEmpty_iff.mp hnil, hone,
    fun id => ((disconnects_safe sysfsOk_nil hs).2 id).1⟩

end NvmeSnsd.ConnNvme
