import NvmeSnsd.ConnPeon.History

/-! What a batch disconnect leaves behind: which connect tasks of earlier
requests are alive once the batch and all that it added are through. -/
namespace NvmeSnsd.ConnPeon
open Lib

/-! The batches that were executed, or are. -/

/-- The batch of request `k`, for the host side of `param`, is being executed or
has been. -/
def Executed (s : Sched) (k : ℕ) (param : ConnectParam) : Prop :=
  (∃ b ∈ s.list (.proc (.static .dcbatch)), b.origin.request = k ∧ b.param = param) ∨
    ∃ b ret, .handled b ret ∈ s.log ∧ b.origin.type = .dcbatch ∧ b.origin.request = k ∧
      b.param = param

theorem executed_step {s s' : Sched} {l : Label} (hb : Base s) (hl : LogOk s.list s.nextId s.log)
    (hh : HandledLogged s) {k : ℕ} {param : ConnectParam} (h : Executed s k param)
    (hs : step s l = some s') : Executed s' k param := by
  have hsub := log_sublist hs
  rcases h with ⟨b, hbm, hk, hpar⟩ | ⟨b, ret, he, hb⟩
  · have hsame : ∀ b', b' ∈ s'.list (.proc (.static .dcbatch)) → SameTask b b' →
        Executed s' k param :=
      fun b' hm hbb => Or.inl ⟨b', hm, hbb.2.2 ▸ hk, hbb.2.1 ▸ hpar⟩
    -- a task that leaves `proc_list` has been handled, and the log tells of it
    have hdel : ∀ {ref : PeonRef} {i : ℕ} {p : Task} {ret : ℤ},
        s.worker (ref, i) = .handled p.id ret → p ∈ s.list (.proc ref) →
        (s'.list = listDel s.list (.proc ref) p.id ∨
          ∃ r q, s'.list = listAddTail (listDel s.list (.proc ref) p.id) r q) →
        Executed s' k param := by
      intro ref i p ret hw hp hlist
      by_cases hid : b.id = p.id
      · obtain ⟨u, hu, hui⟩ := hh _ _ _ _ hw
        obtain ⟨⟨-, hup, huo⟩, -⟩ := hl.same _ hu _ b hbm (hid.trans hui.symm)
        have hbt := ((fitsPeon_of_ne .dcbatch (by simp)).mp (hb.fit _ _ hbm).2).1
        exact Or.inr ⟨u, ret, hsub.subset hu, huo ▸ hbt, huo ▸ hk, hup ▸ hpar⟩
      · have hbd := mem_listDel.mpr ⟨hbm, fun _ : _ = .proc ref => hid⟩
        refine hsame b ?_ ⟨rfl, rfl, rfl⟩
        rcases hlist with he | ⟨r, q, he⟩
        · exact he ▸ hbd
        · exact he ▸ mem_listAddTail.mpr (.inl hbd)
    have hjudge : ∀ type p r k, judgeMark type p (.proc (.static .dcbatch)) b ∈
        listDel (judgeLists s.list type p) (.wait r) k (.proc (.static .dcbatch)) := by
      intro type p r k
      exact mem_listDel.mpr ⟨mem_judgeLists.mpr ⟨b, hbm, rfl⟩, by simp⟩
    have hmark : ∀ type p, SameTask b (judgeMark type p (.proc (.static .dcbatch)) b) := by
      simp [SameTask]
    cases step_cases hs with
    | request | inherit | addFail | add | addDyn | getDead | recheckDrop | relive | deconstruct =>
      exact hsame b (by simpa [mem_listAddTail, mem_listDel, mem_update_nil] using hbm)
        ⟨rfl, rfl, rfl⟩
    | getLeave => exact hsame _ (mem_judgeLists.mpr ⟨b, hbm, rfl⟩) (hmark _ _)
    | @getDiscard ref i rest p => exact hsame _ (hjudge ref.type p ref p.id) (hmark _ _)
    | @getPick ref i rest p =>
      have hd := hjudge ref.type p ref p.id
      exact hsame _ (mem_listAddTail.mpr (.inl hd) : _ ∈ listAddTail _ (.proc ref) p _) (hmark _ _)
    | completeRetry _ hw hp => exact hdel hw hp (.inr ⟨_, _, rfl⟩)
    | completeRecheck _ hw hp => exact hdel hw hp (.inr ⟨_, _, rfl⟩)
    | completeFree _ hw hp => exact hdel hw hp (.inl rfl)
    | addStuck | poll | handle | recheck | recheckKeep | unlockGet | unlockRecheck | exit =>
      exact hsame b hbm ⟨rfl, rfl, rfl⟩
  · exact Or.inr ⟨b, ret, hsub.subset he, hb⟩

theorem eq_dcbatch {l : Lists} (hf : AllFit l) {ref : PeonRef} {b : Task} (hb : b ∈ l (.proc ref))
    (hc : b.origin.type = .dcbatch) : ref = .static .dcbatch := by
  obtain ⟨hne, hf⟩ := hf _ _ hb
  cases ref with
  | static type =>
    have htype : type ≠ .recheck := by simpa using hne
    rw [← hc, ((fitsPeon_of_ne type htype).mp hf).1]
  | dyn k =>
    have hd := ((fitsPeon_of_ne .disconn (by simp)).mp hf).1
    cases hd.symm.trans hc

/-- The dcbatch worker picks `p`. -/
def BatchPick (s s' : Sched) (p : Task) : Prop :=
  p ∈ s.list (.wait (.static .dcbatch)) ∧ superseded s.list .dcbatch p = false ∧
    s'.list = listAddTail (listDel (judgeLists s.list .dcbatch p) (.wait (.static .dcbatch)) p.id)
      (.proc (.static .dcbatch)) p

/-- Who is new among the batches has been picked. -/
theorem executed_back {s s' : Sched} {l : Label} (hb : Base s) {k : ℕ} {param : ConnectParam}
    (hs : step s l = some s') (h : Executed s' k param) :
    Executed s k param ∨ ∃ p, BatchPick s s' p ∧ p.origin.request = k ∧ p.param = param := by
  have hlog : ∀ {v : List Event} {m : Sched}, m.log = s.log ++ v →
      (∀ b ret, .handled b ret ∉ v) →
      (∀ b ∈ m.list (.proc (.static .dcbatch)), ∃ q ∈ s.list (.proc (.static .dcbatch)),
        SameTask q b) → Executed m k param → Executed s k param := by
    rintro v m he hes hm (⟨b, hbm, hk, hpar⟩ | ⟨b, ret, hbl, hb⟩)
    · obtain ⟨q, hq, hqb⟩ := hm b hbm
      exact Or.inl ⟨q, hq, hqb.2.2 ▸ hk, hqb.2.1 ▸ hpar⟩
    · rw [he] at hbl
      exact Or.inr ⟨b, ret, (List.mem_append.mp hbl).resolve_right (hes b ret), hb⟩
  have hjudge : ∀ type p, ∀ b ∈ judgeLists s.list type p (.proc (.static .dcbatch)),
      ∃ q ∈ s.list (.proc (.static .dcbatch)), SameTask q b := by
    intro type p b hbm
    obtain ⟨q, hq, rfl⟩ := mem_judgeLists.mp hbm
    exact ⟨q, hq, by simp [SameTask]⟩
  have hself : ∀ b ∈ s.list (.proc (.static .dcbatch)),
      ∃ q ∈ s.list (.proc (.static .dcbatch)), SameTask q b :=
    fun b hbm => ⟨b, hbm, rfl, rfl, rfl⟩
  cases step_cases hs with
  | request | inherit | addFail | completeRetry | completeRecheck =>
    refine Or.inl (hlog (v := []) (by simp) (by simp) (fun b hbm => hself b ?_) h)
    simp [mem_listAddTail, mem_listDel] at hbm
    tauto
  | add | addDyn | getDead | completeFree | recheckDrop | relive =>
    refine Or.inl (hlog rfl (by simp) (fun b hbm => hself b ?_) h)
    simp [mem_listAddTail, mem_listDel] at hbm
    tauto
  | deconstruct => exact Or.inl (hlog rfl (by simp) (fun b hbm => hself b (by simpa using hbm)) h)
  | getLeave => exact Or.inl (hlog rfl (by simp [judgeDead]) (hjudge _ _) h)
  | @getDiscard ref i rest p =>
    refine Or.inl (hlog (v := judgeDead s.list ref.type p ++ judgeDiscard s.list ref.type p ++
      [.freed p]) (by simp) (by simp [judgeDead, judgeDiscard]) (fun b hbm => ?_) h)
    have hbm : b ∈ listDel (judgeLists s.list ref.type p) (.wait ref) p.id
      (.proc (.static .dcbatch)) := hbm
    exact hjudge _ _ b (mem_listDel.mp hbm).1
  | @getPick ref i rest p now hh hp _ _ hsup =>
    -- in `proc_list` there is `p`, if at all, and whoever was there
    have hproc : ∀ b ∈ listAddTail (listDel (judgeLists s.list ref.type p) (.wait ref) p.id)
        (.proc ref) p (.proc (.static .dcbatch)), (∃ q ∈ s.list (.proc (.static .dcbatch)),
          SameTask q b) ∨ ref = .static .dcbatch ∧ b = p := by
      intro b hbm
      rcases mem_listAddTail.mp hbm with hbm | ⟨he, rfl⟩
      · exact Or.inl (hjudge _ _ b (mem_listDel.mp hbm).1)
      · exact Or.inr ⟨(ListRef.proc.inj he).symm, rfl⟩
    by_cases hr : ref = .static .dcbatch
    · subst hr
      rcases h with ⟨b, hbm, hk, hpar⟩ | ⟨b, ret, hbl, hb⟩
      · rcases hproc b hbm with ⟨q, hq, hqb⟩ | ⟨-, rfl⟩
        · exact Or.inl (.inl ⟨q, hq, hqb.2.2 ▸ hk, hqb.2.1 ▸ hpar⟩)
        · exact Or.inr ⟨b, ⟨hp, hsup, rfl⟩, hk, hpar⟩
      · refine Or.inl (.inr ⟨b, ret, (List.mem_append.mp hbl).resolve_right ?_, hb⟩)
        simp [judgeDead]
    · refine Or.inl (hlog rfl (by simp [judgeDead]) (fun b hbm => ?_) h)
      exact (hproc b hbm).resolve_right fun he => hr he.1
  | @handle ref i p ret hw hp =>
    rcases h with hproc | ⟨b, ret', hbl, ht, hk, hpar⟩
    · exact Or.inl (.inl hproc)
    · rcases List.mem_append.mp hbl with hbl | hbl
      · exact Or.inl (.inr ⟨b, ret', hbl, ht, hk, hpar⟩)
      · -- the batch whose handler is through was in execution
        obtain ⟨rfl, -⟩ := Event.handled.inj (List.mem_singleton.mp hbl)
        have hr : ref = .static .dcbatch := eq_dcbatch hb.fit hp ht
        subst hr
        exact Or.inl (.inl ⟨b, hp, hk, hpar⟩)
  | addStuck | poll | recheck | recheckKeep | unlockGet | unlockRecheck | exit => exact Or.inl h

/-! Where the older connect tasks are. -/

/-- `t` is alive, for the target of `param` or on its host side, and of an
earlier request than `k`. -/
def Older (k : ℕ) (param : ConnectParam) (isbatch : Bool) (t : Task) : Prop :=
  t.state = .live ∧ peonTaskMatch t.param param isbatch = true ∧ t.origin.request < k

theorem Older.congr {k : ℕ} {param : ConnectParam} {b : Bool} {t u : Task} (h : Older k param b t)
    (hl : u.state = .live) (hp : u.param = t.param) (ho : u.origin = t.origin) :
    Older k param b u := by
  rw [Older, hp, ho]
  exact ⟨hl, h.2⟩

/-- Of the connect tasks on the host side only those that wait for a recheck are
older than the batch of request `k`. -/
def Cleared (l : Lists) (k : ℕ) (param : ConnectParam) : Prop :=
  ∀ r, r ≠ .wait (.static .recheck) → ∀ t ∈ l r, t.origin.type = .connect → ¬Older k param true t

namespace Cleared
variable {l m : Lists} {k : ℕ} {param : ConnectParam}

theorem of_mem (h : Cleared l k param)
    (hm : ∀ r, r ≠ .wait (.static .recheck) → ∀ t ∈ m r, t.state = .live →
      t.origin.type = .connect → ∃ x, x ≠ .wait (.static .recheck) ∧ ∃ q ∈ l x, q.state = .live ∧
        q.param = t.param ∧ q.origin = t.origin) : Cleared m k param := by
  intro r hr t ht hc ho
  obtain ⟨x, hx, q, hq, hl, hp, hor⟩ := hm r hr t ht ho.1 hc
  exact h x hx q hq (hor ▸ hc) (ho.congr hl hp hor)

theorem del (h : Cleared l k param) (r : ListRef) (id : ℕ) : Cleared (listDel l r id) k param :=
  fun x hx t ht => h x hx t (mem_listDel.mp ht).1

theorem judge (h : Cleared l k param) (type : PeonType) (p : Task) :
    Cleared (judgeLists l type p) k param := by
  apply h.of_mem
  intro r hr t ht hl _
  exact ⟨r, hr, t, (mem_judgeLists_live ht hl).1, hl, rfl, rfl⟩

theorem add (h : Cleared l k param) {r : ListRef} {q : Task}
    (hq : q.origin.type = .connect → ¬Older k param true q) : Cleared (listAddTail l r q) k param := by
  intro x hx t ht
  rcases mem_listAddTail.mp ht with ht | ⟨-, rfl⟩
  · exact h x hx t ht
  · exact hq

/-- `p`, which does not wait for a recheck, goes over to another list, as `q`. -/
theorem move (h : Cleared l k param) {r x : ListRef} {p q : Task} (hp : p ∈ l r)
    (hr : r ≠ .wait (.static .recheck)) (hst : q.state = p.state) (hpar : q.param = p.param)
    (ho : q.origin = p.origin) : Cleared (listAddTail (listDel l r p.id) x q) k param := by
  refine (h.del r p.id).add fun hc hold => ?_
  exact h r hr p hp (ho ▸ hc) (hold.congr (hst ▸ hold.1) hpar.symm ho.symm)

end Cleared

/-- What the scans for a batch make of the connect peon when nothing newer stops
the batch: an older task is marked, and an equal number is that of the batch. -/
theorem cleared_pick {s s' : Sched} (hb : Base s) (hr : RequestsOk s.list s.requests s.snGen)
    (hown : OwnNumber s.list s.requests) {p : Task} (h : BatchPick s s' p) :
    Cleared s'.list p.origin.request p.param := by
  obtain ⟨hp, hsup, hlist⟩ := h
  have hpf := (fitsPeon_of_ne .dcbatch (by simp)).mp (hb.fit _ _ hp)
  obtain ⟨rq, hrq, hsv, -⟩ := hr.serves _ p hp
  have hpsn : p.sn = rq.sn := hsv.same (by simp [hpf.1])
  rw [hlist]
  rintro r hrne t ht hc ⟨hl, hm, hlt⟩
  have htl : t ∈ judgeLists s.list .dcbatch p r := by
    rcases mem_listAddTail.mp ht with ht | ⟨-, rfl⟩
    · exact (mem_listDel.mp ht).1
    · exact absurd hlt (lt_irrefl _)
  obtain ⟨htl, hmark⟩ := mem_judgeLists_live htl hl
  -- in a list of the connect peon the numbers decide
  have hscan : ∀ sc ∈ judgeScans .dcbatch, sc.list = r → sc.isbatch = true →
      scanOf (judgeScans .dcbatch) r = some sc → t.sn ≠ 0 → False := by
    intro sc hsc hscr hbatch hsome hne
    rcases lt_trichotomy t.sn p.sn with hsn | hsn | hsn
    · have hd := judgeMark_of_outdated .dcbatch r hsome
        (outdated_iff.mpr ⟨hl, hbatch ▸ hm, hsn⟩ : outdated p sc.isbatch t = true)
      rw [hmark, hl] at hd
      cases hd
    · have he := hown r t htl hne _ rq hrq (hpsn.symm.trans hsn.symm)
      omega
    · have hs : superseded s.list .dcbatch p = true :=
        superseded_iff.mpr ⟨sc, hsc, t, hscr ▸ htl, newer_iff.mpr ⟨hl, hbatch ▸ hm, hsn⟩⟩
      rw [hsup] at hs
      cases hs
  have hfit := hb.fit r t htl
  match r with
  | .pending =>
    obtain ⟨rt, -, hst, -⟩ := hr.serves _ t htl
    have hlast := hr.last t htl (hst.inherited_eq hc)
    have hplt := hr.serves_lt hp
    omega
  | .wait (.static .connect) =>
    exact hscan _ (by simp [judgeScans]) rfl rfl rfl ((fitsPeon_of_ne .connect (by simp)).mp hfit).2
  | .proc (.static .connect) =>
    exact hscan ⟨.proc (.static .connect), true, false⟩ (by simp [judgeScans]) rfl rfl rfl
      ((fitsPeon_of_ne .connect (by simp)).mp hfit.2).2
  | .wait (.static .recheck) => exact hrne rfl
  | .proc (.static .recheck) => exact hfit.1 rfl
  | .wait (.static .disconn) | .wait (.dyn _) =>
    cases ((fitsPeon_of_ne .disconn (by simp)).mp hfit).1.symm.trans hc
  | .proc (.static .disconn) | .proc (.dyn _) =>
    cases ((fitsPeon_of_ne .disconn (by simp)).mp hfit.2).1.symm.trans hc
  | .wait (.static .dcbatch) => cases ((fitsPeon_of_ne .dcbatch (by simp)).mp hfit).1.symm.trans hc
  | .proc (.static .dcbatch) =>
    cases ((fitsPeon_of_ne .dcbatch (by simp)).mp hfit.2).1.symm.trans hc

/-! The disconnect tasks that a batch adds. -/

/-- The log says that `d` was executed, or that it is gone. -/
def Finished (log : List Event) (d : Task) : Prop :=
  (∃ u ret, .handled u ret ∈ log ∧ u.id = d.id) ∨ ∃ u, .freed u ∈ log ∧ u.id = d.id

/-- `d` waits, and no worker has come to it. That of a dynamic peon leaves after
its first round. -/
structure Untouched (s : Sched) (d : Task) : Prop where
  live : d.state = .live
  unfinished : ¬Finished s.log d
  place : d ∈ s.list (.wait (.static .disconn)) ∨ ∃ k, s.worker (.dyn k, 0) = .idle ∧
    s.list (.wait (.dyn k)) = [d] ∧ ∀ i rest, s.holder = .get (.dyn k) i rest → rest = [d.id]

/-- Nobody older is left for `d` in the recheck list. -/
def NoneOlder (l : Lists) (d : Task) : Prop :=
  ∀ t ∈ l (.wait (.static .recheck)), ¬Older d.origin.request d.param false t

/-- A connect or disconnect task for the target of `d` marks whoever waits for a
recheck for it: these have the number 0. -/
theorem noneOlder_judge {l : Lists} (hf : AllFit l) {type : PeonType}
    (htype : type = .connect ∨ type = .disconn) {p d : Task} (hp : p.sn ≠ 0)
    (hm : peonTaskMatch d.param p.param false = true) : NoneOlder (judgeLists l type p) d := by
  rintro t ht ⟨hl, hmt, -⟩
  obtain ⟨ht, he⟩ := mem_judgeLists_live ht hl
  have hsn : t.sn = 0 := (fitsPeon_recheck.mp (hf _ _ ht)).2
  have ho : outdated p false t = true :=
    outdated_iff.mpr ⟨hl, peonTaskMatch_trans hmt hm, by omega⟩
  have hscan : scanOf (judgeScans type) (.wait (.static .recheck)) =
      some ⟨.wait (.static .recheck), false, true⟩ := by
    rcases htype with rfl | rfl <;> rfl
  have hd := judgeMark_of_outdated type _ hscan ho
  rw [he, hl] at hd
  cases hd

/-- The scans for `p` leave a waiting disconnect task alone, or mark with it
whoever is older than it. -/
theorem judge_untouched {l : Lists} (hf : AllFit l) {type : PeonType} {p d : Task}
    (hp : FitsPeon type p) (hd : d ∈ l (.wait (.static .disconn))) :
    d ∈ judgeLists l type p (.wait (.static .disconn)) ∨ NoneOlder (judgeLists l type p) d := by
  rcases judgeMark_eq type p (.wait (.static .disconn)) d with he | ⟨-, sc, hsc, hr, ho⟩
  · exact Or.inl (mem_judgeLists.mpr ⟨d, hd, he⟩)
  · have hc : type = .connect ∧ sc.isbatch = false := by
      cases type <;> simp [judgeScans] at hsc <;>
        rcases hsc with rfl | rfl | rfl | rfl | rfl | rfl | rfl <;> simp_all
    obtain ⟨rfl, hb⟩ := hc
    have hm := (outdated_iff.mp ho).2.1
    rw [hb] at hm
    exact Or.inr (noneOlder_judge hf (.inl rfl) ((fitsPeon_of_ne .connect (by simp)).mp hp).2 hm)

/-- Whoever matches anything is for an address of a known family. -/
theorem peonTaskMatch_self {p q : ConnectParam} {b : Bool} (h : peonTaskMatch p q b = true) :
    peonTaskMatch p p false = true := by
  obtain ⟨-, -, h, -⟩ := peonTaskMatch_iff.mp h
  simp only [snsdIpMatch, Bool.or_eq_true, Bool.and_eq_true, beq_iff_eq] at h
  refine peonTaskMatch_iff.mpr ⟨rfl, rfl, ?_, fun _ => ⟨rfl, ?_⟩⟩ <;>
    rcases h with ⟨hf, -⟩ | ⟨hf, -⟩ <;> simp [snsdIpMatch, hf]

theorem untouched_step {s s' : Sched} {l : Label} (hb : Base s) {d : Task} (h : Untouched s d)
    (hself : peonTaskMatch d.param d.param false = true) (hs : step s l = some s') : Untouched s' d ∨ NoneOlder s'.list d := by
  obtain ⟨hl, hu, hplace⟩ := h
  have hwait : ∃ ref, ref.type = .disconn ∧ d ∈ s.list (.wait ref) := by
    rcases hplace with hd | ⟨k, -, hd, -⟩
    · exact ⟨_, rfl, hd⟩
    · exact ⟨.dyn k, rfl, hd ▸ List.mem_singleton_self d⟩
  obtain ⟨w, hwt, hdw⟩ := hwait
  -- whoever is executed, or is in another list, has another address
  have hne : ∀ {r : ListRef} {p : Task}, p ∈ s.list r → r ≠ .wait w → p.id ≠ d.id :=
    fun hp hr hid => hr (hb.ids.place _ _ _ hp _ hdw hid)
  have hold : ∀ {v : List Event}, (∀ u ret, .handled u ret ∈ v → u.id ≠ d.id) →
      (∀ u, .freed u ∈ v → u.id ≠ d.id) → ¬Finished (s.log ++ v) d := by
    rintro v hh hf (⟨u, ret, he, hid⟩ | ⟨u, he, hid⟩)
    · rcases List.mem_append.mp he with he | he
      · exact hu (.inl ⟨u, ret, he, hid⟩)
      · exact hh u ret he hid
    · rcases List.mem_append.mp he with he | he
      · exact hu (.inr ⟨u, he, hid⟩)
      · exact hf u he hid
  -- a step that is none of its peon's business
  have hstay : ∀ {m : Sched}, (d ∈ s.list (.wait (.static .disconn)) →
      d ∈ m.list (.wait (.static .disconn))) →
      (∀ k, s.worker (.dyn k, 0) = .idle → s.list (.wait (.dyn k)) = [d] →
        (∀ i rest, s.holder = .get (.dyn k) i rest → rest = [d.id]) →
        m.worker (.dyn k, 0) = .idle ∧ m.list (.wait (.dyn k)) = [d] ∧
          ∀ i rest, m.holder = .get (.dyn k) i rest → rest = [d.id]) →
      ¬Finished m.log d → Untouched m d := by
    intro m hs hk hf
    refine ⟨hl, hf, ?_⟩
    rcases hplace with hd | ⟨k, hw, hd, hh⟩
    · exact Or.inl (hs hd)
    · exact Or.inr ⟨k, hk k hw hd hh⟩
  -- a worker comes to `p` and scans
  have hlook : ∀ {ref : PeonRef} {p : Task} {m : Sched}, p ∈ s.list (.wait ref) →
      (∀ t ∈ m.list (.wait (.static .recheck)),
        t ∈ judgeLists s.list ref.type p (.wait (.static .recheck))) →
      (p.id ≠ d.id → d ∈ judgeLists s.list ref.type p (.wait (.static .disconn)) →
        d ∈ m.list (.wait (.static .disconn))) →
      (∀ k, ref ≠ .dyn k → s.worker (.dyn k, 0) = .idle → s.list (.wait (.dyn k)) = [d] →
        m.worker (.dyn k, 0) = .idle ∧ m.list (.wait (.dyn k)) = [d] ∧
          ∀ i rest, m.holder ≠ .get (.dyn k) i rest) →
      (p.id ≠ d.id → ¬Finished m.log d) → Untouched m d ∨ NoneOlder m.list d := by
    intro ref p m hp hrw hst hdyn hf
    have hfit := hb.fit _ _ hp
    by_cases hid : p.id = d.id
    · obtain rfl := hb.ids.eq hp hdw hid
      obtain rfl := ListRef.wait.inj (hb.ids.place _ _ p hp p hdw rfl)
      have hsn := ((fitsPeon_of_ne _ (by simp [hwt])).mp hfit).2
      have hnone := noneOlder_judge hb.fit (.inr hwt) hsn hself
      exact Or.inr fun t ht => hnone t (hrw t ht)
    · rcases hplace with hd | ⟨k, hw, hd, -⟩
      · rcases judge_untouched hb.fit hfit hd with hd | hnone
        · exact Or.inl ⟨hl, hf hid, .inl (hst hid hd)⟩
        · exact Or.inr fun t ht => hnone t (hrw t ht)
      · have hk : ref ≠ .dyn k := by
          rintro rfl
          rw [hd, List.mem_singleton] at hp
          exact hid (congrArg Task.id hp)
        obtain ⟨hw, hd, hh⟩ := hdyn k hk hw hd
        exact Or.inl ⟨hl, hf hid, .inr ⟨k, hw, hd, fun i rest he => absurd he (hh i rest)⟩⟩
  -- a worker with a task is not the one that has yet to come to `d`
  have hidle : ∀ {k : ℕ} {x : PeonRef × ℕ} {v : Worker}, s.worker (.dyn k, 0) = .idle →
      s.worker x = v → v ≠ .idle → (PeonRef.dyn k, 0) ≠ x := by
    rintro k x v hwk hw hne rfl
    exact hne (hw.symm.trans hwk)
  have hdynne : ∀ {k i : ℕ} {ref : PeonRef} {v : Worker}, s.worker (.dyn k, 0) = .idle →
      s.worker (ref, i) = v → v ≠ .idle ∧ v ≠ .absent → ref ≠ .dyn k := by
    rintro k i ref v hwk hw hne rfl
    obtain rfl := hb.dyn.zero hw hne.2
    exact hne.1 (hw.symm.trans hwk)
  cases step_cases hs with
  | request | inherit | addFail =>
    exact Or.inl (hstay (by simp [mem_listAddTail, mem_listDel])
      (fun k hw hd hh => ⟨hw, by simpa [listAddTail, listDel] using hd, hh⟩) hu)
  | add =>
    exact Or.inl (hstay (fun hd => by simp [mem_listAddTail, mem_listDel, hd])
      (fun k hw hd hh => ⟨hw, by simpa [listAddTail, listDel] using hd, hh⟩)
      (hold (by simp) (by simp)))
  | addDyn =>
    refine Or.inl (hstay (by simp [mem_listAddTail, mem_listDel]) (fun k hw hd hh => ?_)
      (hold (by simp) (by simp)))
    have hk : k ≠ s.nextDyn := (hb.dyn.lt hw (by simp)).ne
    simp [listAddTail, listDel, hk, hw, hd]
    exact hh
  | addStuck | recheck => exact Or.inl (hstay (fun hd => hd) (fun k hw hd _ => ⟨hw, hd, by simp⟩) hu)
  | poll =>
    refine Or.inl (hstay (fun hd => hd) (fun k hw hd _ => ⟨hw, hd, fun i rest he => ?_⟩) hu)
    obtain ⟨rfl, -, rfl⟩ := Holder.get.inj he
    rw [hd]
    rfl
  | @getDead ref i rest p now hh hp hdead =>
    have hid : p.id ≠ d.id := by
      intro hid
      obtain rfl := hb.ids.eq hp hdw hid
      cases hl.symm.trans hdead
    refine Or.inl (hstay (fun hd => mem_listDel.mpr ⟨hd, fun _ => hid.symm⟩)
      (fun k hw hd _ => ?_) (hold (by simp) (by simp [hid])))
    have hk : ref ≠ .dyn k := by
      rintro rfl
      rw [hd, List.mem_singleton] at hp
      exact hid (congrArg Task.id hp)
    exact ⟨hw, by simpa [listDel, hk.symm] using hd, by simp [hk]⟩
  | @getLeave ref i rest p now hh hp =>
    refine hlook hp (fun t ht => ht) (fun _ hd => hd)
      (fun k hk hw hd => ⟨hw, by simpa using hd, by simp [hk]⟩) fun _ => hold ?_ ?_
    · simp [judgeDead]
    · simp [judgeDead]
  | @getDiscard ref i rest p now hh hp =>
    refine hlook hp (fun t ht => (mem_listDel.mp ht).1)
      (fun hid hd => mem_listDel.mpr ⟨hd, fun _ => hid.symm⟩)
      (fun k hk hw hd => ⟨hw, by simpa [listDel, hk.symm] using hd, by simp [hk]⟩) fun hid => ?_
    have hf := hold (v := judgeDead s.list ref.type p ++ judgeDiscard s.list ref.type p ++ [.freed p])
      (by simp [judgeDead, judgeDiscard]) (by simp [judgeDead, judgeDiscard, hid])
    simpa using hf
  | @getPick ref i rest p now hh hp =>
    refine hlook hp (fun t ht => ?_) (fun hid hd => ?_)
      (fun k hk hw hd => ⟨?_, by simpa [listAddTail, listDel, hk.symm] using hd, by simp⟩)
      fun hid => hold (by simp [judgeDead]) (by simp [judgeDead])
    · simp [mem_listAddTail, mem_listDel] at ht
      exact ht.1
    · show d ∈ listAddTail (listDel _ (.wait ref) p.id) (.proc ref) p (.wait (.static .disconn))
      exact mem_listAddTail.mpr (.inl (mem_listDel.mpr ⟨hd, fun _ => hid.symm⟩))
    · simp [hk.symm, hw]
  | @handle ref i p ret hw hp =>
    refine Or.inl (hstay (fun hd => hd) (fun k hwk hd hh => ⟨?_, hd, hh⟩)
      (hold (by simp [hne hp (by simp)]) (by simp)))
    simp [Function.update_of_ne (hidle hwk hw (by simp)), hwk]
  | @completeRetry ref i p ret now hh hw hp =>
    refine Or.inl (hstay (fun hd => ?_) (fun k hwk hd _ => ?_) hu)
    · simp [mem_listAddTail, mem_listDel, hd]
    · have hk := hidle hwk hw (by simp)
      refine ⟨by simp [Function.update_of_ne hk, hwk], ?_, by simp [hh]⟩
      have hr : ref ≠ .dyn k := hdynne hwk hw (by simp)
      simpa [listAddTail, listDel, hr.symm] using hd
  | @completeRecheck ref i p ret now hh hw hp =>
    refine Or.inl (hstay (by simp [mem_listAddTail, mem_listDel]) (fun k hwk hd _ => ?_) hu)
    have hk := hidle hwk hw (by simp)
    exact ⟨by simp [Function.update_of_ne hk, hwk], by simpa [listAddTail, listDel] using hd,
      by simp [hh]⟩
  | @completeFree ref i p ret now hh hw hp =>
    refine Or.inl (hstay (by simp [mem_listDel]) (fun k hwk hd _ => ?_)
      (hold (by simp) (by simpa using hne hp (by simp))))
    have hk := hidle hwk hw (by simp)
    exact ⟨by simp [Function.update_of_ne hk, hwk], by simpa [listDel] using hd, by simp [hh]⟩
  | recheckKeep | unlockRecheck =>
    exact Or.inl (hstay (fun hd => hd) (fun k hw hd _ => ⟨hw, hd, by simp⟩) hu)
  | recheckDrop _ hp =>
    refine Or.inl (hstay (by simp [mem_listDel])
      (fun k hw hd _ => ⟨hw, by simpa [listDel] using hd, by simp⟩)
      (hold (by simp) ?_))
    have hrw : ListRef.wait (.static .recheck) ≠ .wait w := by
      intro he
      cases (ListRef.wait.inj he) ▸ hwt
    simpa using hne hp hrw
  | relive =>
    exact Or.inl (hstay (by simp [mem_listAddTail, mem_listDel])
      (fun k hw hd _ => ⟨hw, by simpa [listAddTail, listDel] using hd, by simp⟩)
      (hold (by simp) (by simp)))
  | @unlockGet ref i hh =>
    refine Or.inl (hstay (fun hd => hd) (fun k hw hd hhk => ⟨?_, hd, by simp⟩) hu)
    have hr : ref ≠ .dyn k := by
      rintro rfl
      cases hhk i [] hh
    simp [hr.symm, hw]
  | @deconstruct k' hh hw =>
    have hk : ∀ k, s.worker (.dyn k, 0) = .idle → k ≠ k' := by
      rintro k hwk rfl
      cases hwk.symm.trans hw
    refine Or.inl (hstay (by simp) (fun k hwk hd _ => ?_) (hold (by simp) ?_))
    · simp [hk k hwk, hwk, hd, hh]
    · simp only [List.mem_map, Event.freed.injEq, exists_eq_right]
      intro u hu' hid
      obtain rfl := hb.ids.eq hu' hdw hid
      obtain rfl := ListRef.wait.inj (hb.ids.place _ _ u hu' u hdw rfl)
      rcases hplace with hd | ⟨k, hwk, hd, -⟩
      · cases hb.ids.place _ _ u hu' u hd rfl
      · have hdk : u ∈ s.list (.wait (.dyn k)) := hd ▸ List.mem_singleton_self u
        have he := ListRef.wait.inj (hb.ids.place _ _ u hu' u hdk rfl)
        exact hk k hwk (PeonRef.dyn.inj he).symm
  | @exit k' hh hw =>
    refine Or.inl (hstay (fun hd => hd) (fun k hwk hd hhk => ⟨?_, hd, hhk⟩) hu)
    have hk : k ≠ k' := by
      rintro rfl
      cases hwk.symm.trans hw
    simp [hk, hwk]

/-- What a run may not do if batches are to be complete: a batch is through
without having added a disconnect for an older task that waits for a recheck,
and a failed recheck gives such a task a new number once the batch is picked. -/
def BatchOk (s : Sched) : Label → Prop
  | .handle (.static .dcbatch) i _ => ∀ b ∈ s.list (.proc (.static .dcbatch)),
      s.worker (.static .dcbatch, i) = .running b.id →
        ∀ t ∈ s.list (.wait (.static .recheck)), Older b.origin.request b.param true t →
          ∃ d, .added d ∈ s.log ∧ d.origin = ⟨.disconn, b.origin.request, true⟩ ∧
            peonTaskMatch t.param d.param false = true
  | .recheckOne ret _ => ∀ rest, ∀ p ∈ s.list (.wait (.static .recheck)),
      s.holder = .recheck (p.id :: rest) → p.state = .live → p.toolbox.recheck = true → ret ≠ 0 →
        ∀ k param, Executed s k param → ¬Older k param true p
  | _ => True

/-- What a run of requests issued one after another keeps while batches do their
part. -/
structure BatchInv (s : Sched) : Prop where
  base : Base s
  requests : RequestsOk s.list s.requests s.snGen
  own : OwnNumber s.list s.requests
  log : LogOk s.list s.nextId s.log
  handled : HandledLogged s
  known : ∀ k param, Executed s k param → k < s.requests.length
  cleared : ∀ k param, Executed s k param → Cleared s.list k param
  /-- An inherited task is on the host side of its batch. -/
  source : ∀ d, (∃ r, d ∈ s.list r) ∨ .added d ∈ s.log → d.origin.inherited = true →
    ∃ param, Executed s d.origin.request param ∧ peonTaskMatch d.param param true = true
  untouched : ∀ d, .added d ∈ s.log → d.origin.inherited = true → Untouched s d ∨ NoneOlder s.list d
  covered : ∀ b ret, .handled b ret ∈ s.log → b.origin.type = .dcbatch →
    ∀ t ∈ s.list (.wait (.static .recheck)), Older b.origin.request b.param true t →
      ∃ d, .added d ∈ s.log ∧ d.origin = ⟨.disconn, b.origin.request, true⟩ ∧
        peonTaskMatch t.param d.param false = true

section Step
variable {s s' : Sched} {l : Label} (h : BatchInv s)
include h

/-- No older task joins those that wait for a recheck. -/
theorem older_back (hs : step s l = some s') {k : ℕ} {param : ConnectParam} (hex : Executed s k param)
    {t : Task} (ht : t ∈ s'.list (.wait (.static .recheck))) (ho : Older k param true t) :
    t ∈ s.list (.wait (.static .recheck)) := by
  rcases recheck_back h.base hs ht ho.1 with ht | ⟨p, hp, hl, hpt, -⟩
  · exact ht
  · have hc := ((fitsPeon_of_ne .connect (by simp)).mp (h.base.fit _ _ hp).2).1
    exact absurd (ho.congr hl hpt.2.1 hpt.2.2) (h.cleared k param hex _ (by simp) p hp hc)

theorem known_step (hs : step s l = some s') {k : ℕ} {param : ConnectParam}
    (hex : Executed s' k param) : k < s'.requests.length := by
  have hle : s.requests.length ≤ s'.requests.length := by
    cases step_cases hs <;> simp
  rcases executed_back h.base hs hex with hex | ⟨p, ⟨hp, -⟩, rfl, -⟩
  · exact (h.known k param hex).trans_le hle
  · exact (h.requests.serves_lt hp).trans_le hle

theorem cleared_step (hok : BatchOk s l) (hs : step s l = some s') {k : ℕ} {param : ConnectParam}
    (hex : Executed s' k param) : Cleared s'.list k param := by
  rcases executed_back h.base hs hex with hold | ⟨p, hpick, rfl, rfl⟩
  · have hc := h.cleared k param hold
    have hk := h.known k param hold
    cases step_cases hs with
    | request =>
      refine hc.add fun _ ho => ?_
      exact absurd ho.2.2 hk.le.not_gt
    | inherit => exact hc.add (by simp)
    | addFail | getDead | completeFree | recheckDrop => exact hc.del _ _
    | add _ ht | addDyn _ ht => exact hc.move ht (by simp) rfl rfl rfl
    | getLeave => exact hc.judge _ _
    | getDiscard => exact (hc.judge _ _).del _ _
    | @getPick ref i rest p now hh hp =>
      refine (hc.judge _ _).move (mem_judged_self hp) ?_ rfl rfl rfl
      have hne := (h.base.workers.holder _ _ _ hh).2
      simpa using hne
    | completeRetry _ _ hp => exact hc.move hp (by simp) rfl rfl rfl
    | completeRecheck _ _ hp => exact hc.move hp (by simp) rfl rfl rfl
    | @relive rest p ret now hh hp hlive htb hret =>
      refine (hc.del _ _).add fun _ ho => ?_
      exact hok rest p hp hh hlive htb hret k param hold (ho.congr hlive rfl rfl)
    | deconstruct =>
      apply hc.of_mem
      intro r hr t ht hl _
      exact ⟨r, hr, t, (mem_update_nil.mp ht).1, hl, rfl, rfl⟩
    | addStuck | poll | handle | recheck | recheckKeep | unlockGet | unlockRecheck | exit => exact hc
  · exact cleared_pick h.base h.requests h.own hpick

theorem source_step (hs : step s l = some s') {d : Task}
    (hd : (∃ r, d ∈ s'.list r) ∨ .added d ∈ s'.log) (hi : d.origin.inherited = true) :
    ∃ param, Executed s' d.origin.request param ∧ peonTaskMatch d.param param true = true := by
  have hkeep : ∀ q, (∃ r, q ∈ s.list r) ∨ .added q ∈ s.log → SameTask q d →
      ∃ param, Executed s' d.origin.request param ∧ peonTaskMatch d.param param true = true := by
    intro q hq hqd
    obtain ⟨param, hex, hm⟩ := h.source q hq (hqd.2.2 ▸ hi)
    exact ⟨param, hqd.2.2 ▸ executed_step h.base h.log h.handled hex hs, hqd.2.1 ▸ hm⟩
  rcases hd with ⟨r, hd⟩ | hd
  · rcases task_back hs hd with ⟨x, q, hq, hqd⟩ | hown | ⟨b, hb, hreq, hm⟩
    · exact hkeep q (.inl ⟨x, hq⟩) hqd
    · rw [hown] at hi
      cases hi
    · have hex : Executed s b.origin.request b.param := Or.inl ⟨b, hb, rfl, rfl⟩
      exact ⟨b.param, hreq ▸ executed_step h.base h.log h.handled hex hs, hm⟩
  · rcases added_back hs hd with hd | hd
    · exact hkeep d (.inr hd) ⟨rfl, rfl, rfl⟩
    · exact hkeep d (.inl ⟨_, hd⟩) ⟨rfl, rfl, rfl⟩

theorem untouchedOr_step (hs : step s l = some s') {d : Task} (hd : .added d ∈ s'.log)
    (hi : d.origin.inherited = true) : Untouched s' d ∨ NoneOlder s'.list d := by
  rcases added_back hs hd with hold | hpend
  · obtain ⟨param, hex, hm⟩ := h.source d (.inr hold) hi
    rcases h.untouched d hold hi with hu | hn
    · exact untouched_step h.base hu (peonTaskMatch_self hm) hs
    · refine Or.inr fun t ht ho => ?_
      -- whoever is older than `d` is older than its batch
      have hm' : peonTaskMatch t.param param true = true := peonTaskMatch_trans ho.2.1 hm
      exact hn t (older_back h hs hex ht ⟨ho.1, hm', ho.2.2⟩) ho
  · have hnew : ∀ e ∈ s.log, e.task.id ≠ d.id := by
      intro e he hid
      exact (h.log.same e he _ d hpend hid.symm).2 rfl
    have hun : ¬Finished s.log d := by
      rintro (⟨u, ret, he, hid⟩ | ⟨u, he, hid⟩) <;> exact hnew _ he hid
    have hlive := (h.base.fit _ _ hpend).2.2
    obtain ⟨rq, -, hsv, -⟩ := h.requests.serves _ d hpend
    have htype := (hsv.batch hi).1
    have hun' : ∀ t, ¬Finished (s.log ++ [.added t]) d := by
      intro t
      simpa [Finished] using hun
    cases step_cases hs with
    | @add t =>
      rcases List.mem_append.mp hd with hd | hd
      · exact absurd rfl (hnew _ hd)
      · obtain rfl := Event.added.inj (List.mem_singleton.mp hd)
        exact Or.inl ⟨hlive, hun' d, .inl (by simp [mem_listAddTail, htype])⟩
    | @addDyn t hh =>
      rcases List.mem_append.mp hd with hd | hd
      · exact absurd rfl (hnew _ hd)
      · obtain rfl := Event.added.inj (List.mem_singleton.mp hd)
        refine Or.inl ⟨hlive, hun' d, .inr ⟨s.nextDyn, by simp, ?_, by simp [hh]⟩⟩
        simp [listAddTail, listDel, (h.base.dyn.fresh s.nextDyn le_rfl).2]
    | request | inherit | addFail | addStuck | poll | getDead | getLeave | getDiscard | getPick |
      handle | completeRetry | completeRecheck | completeFree | recheck | recheckDrop |
      recheckKeep | relive | unlockGet | unlockRecheck | deconstruct | exit =>
      simp [judgeDead, judgeDiscard] at hd
      exact absurd rfl (hnew _ hd)

theorem covered_step (hok : BatchOk s l) (hs : step s l = some s') {b : Task} {ret : ℤ}
    (hb : .handled b ret ∈ s'.log) (hc : b.origin.type = .dcbatch) {t : Task}
    (ht : t ∈ s'.list (.wait (.static .recheck))) (ho : Older b.origin.request b.param true t) :
    ∃ d, .added d ∈ s'.log ∧ d.origin = ⟨.disconn, b.origin.request, true⟩ ∧
      peonTaskMatch t.param d.param false = true := by
  have hsub := log_sublist hs
  by_cases hold : .handled b ret ∈ s.log
  · have hex : Executed s b.origin.request b.param := Or.inr ⟨b, ret, hold, hc, rfl, rfl⟩
    obtain ⟨d, hd, hor, hm⟩ := h.covered b ret hold hc t (older_back h hs hex ht ho) ho
    exact ⟨d, hsub.subset hd, hor, hm⟩
  · -- the batch has just been through
    cases step_cases hs with
    | @handle ref i p r hw hp =>
      have hbp : .handled b ret ∈ [Event.handled p r] := (List.mem_append.mp hb).resolve_left hold
      obtain ⟨rfl, rfl⟩ := Event.handled.inj (List.mem_singleton.mp hbp)
      have hr : ref = .static .dcbatch := eq_dcbatch h.base.fit hp hc
      subst hr
      obtain ⟨d, hd, hor, hm⟩ := hok b hp hw t ht ho
      exact ⟨d, hsub.subset hd, hor, hm⟩
    | request | inherit | addFail | add | addDyn | addStuck | poll | getDead | getLeave |
      getDiscard | getPick | completeRetry | completeRecheck | completeFree | recheck |
      recheckDrop | recheckKeep | relive | unlockGet | unlockRecheck | deconstruct | exit =>
      simp [judgeDead, judgeDiscard] at hb
      exact absurd hb hold

end Step

theorem batchInv_step {s s' : Sched} {l : Label} (h : BatchInv s) (hseq : Sequential s l)
    (hwrap : NoWrap s l) (hok : BatchOk s l) (hs : step s l = some s') : BatchInv s' where
  base := base_step h.base hs
  requests := requestsOk_step h.base h.requests hseq hwrap hs
  own := ownNumber_step h.requests h.own hwrap hs
  log := logOk_step h.base h.log hs
  handled := handledLogged_step h.handled hs
  known := fun _ _ => known_step h hs
  cleared := fun _ _ => cleared_step h hok hs
  source := fun _ => source_step h hs
  untouched := fun _ => untouchedOr_step h hs
  covered := fun _ _ hb hc _ => covered_step h hok hs hb hc

theorem batchInv_init (cfgRestrainTime : ℕ) : BatchInv (Sched.init cfgRestrainTime) := by
  have hno : ∀ r t, t ∉ (Sched.init cfgRestrainTime).list r := fun r t => List.not_mem_nil
  have hlog : ∀ e, e ∉ (Sched.init cfgRestrainTime).log := fun e => List.not_mem_nil
  have hex : ∀ k param, ¬Executed (Sched.init cfgRestrainTime) k param := by
    rintro k param (⟨b, hb, -⟩ | ⟨b, ret, hb, -⟩)
    · exact hno _ _ hb
    · exact hlog _ hb
  refine ⟨base_init _, (lastWinsInv_init cfgRestrainTime).requests, fun r t ht => absurd ht (hno r t),
    ⟨fun e he => absurd he (hlog e), fun e he => absurd he (hlog e), fun u hu => absurd hu (hlog _)⟩,
    ?_, fun k param he => absurd he (hex k param), fun k param he => absurd he (hex k param), ?_,
    fun d hd => absurd hd (hlog _), fun b ret hb => absurd hb (hlog _)⟩
  · intro ref i id ret hw
    rcases init_worker cfgRestrainTime (ref, i) with he | he <;> cases he.symm.trans hw
  · rintro d (⟨r, hd⟩ | hd)
    · exact absurd hd (hno r d)
    · exact absurd hd (hlog _)

/-- Once a batch and all that it added are through, nobody older is alive on the
connect or the recheck peon. -/
def BatchComplete (s : Sched) : Prop :=
  ∀ b ret, .handled b ret ∈ s.log → b.origin.type = .dcbatch →
    (∀ d, .added d ∈ s.log → d.origin = ⟨.disconn, b.origin.request, true⟩ → Finished s.log d) →
      ∀ type, type = .connect ∨ type = .recheck →
        ∀ t ∈ s.list (.wait (.static type)) ++ s.list (.proc (.static type)),
          ¬Older b.origin.request b.param true t

theorem batch_complete (cfgRestrainTime : ℕ) (ls : List Label) (s : Sched)
    (hseq : RunMeets step Sequential (Sched.init cfgRestrainTime) ls)
    (hok : RunMeets step (fun s l => NoWrap s l ∧ BatchOk s l) (Sched.init cfgRestrainTime) ls)
    (hr : run step (Sched.init cfgRestrainTime) ls = some s) : BatchComplete s := by
  have hinv : BatchInv s := by
    apply run_meets_invariant (I := BatchInv) _ (batchInv_init cfgRestrainTime) (hseq.and hok) hr
    exact fun s l s' h hl hs => batchInv_step h hl.1 hl.2.1 hl.2.2 hs
  intro b ret hb hc hfin type htype t ht ho
  have hex : Executed s b.origin.request b.param := Or.inr ⟨b, ret, hb, hc, rfl, rfl⟩
  have hcl := hinv.cleared _ _ hex
  have hconn : ∀ r, r ≠ .wait (.static .recheck) → t ∈ s.list r → t.origin.type ≠ .connect :=
    fun r hr hm he => hcl r hr t hm he ho
  have htconn : ∀ {ref : PeonRef}, ref.type = .connect → FitsPeon ref.type t →
      t.origin.type = .connect := by
    intro ref hr hf
    rw [hr] at hf
    exact ((fitsPeon_of_ne .connect (by simp)).mp hf).1
  rcases htype with rfl | rfl
  · rcases List.mem_append.mp ht with ht | ht
    · exact hconn _ (by simp) ht (htconn rfl (hinv.base.fit _ _ ht))
    · exact hconn _ (by simp) ht (htconn rfl (hinv.base.fit _ _ ht).2)
  · rcases List.mem_append.mp ht with ht | ht
    · obtain ⟨d, hd, hor, hm⟩ := hinv.covered b ret hb hc t ht ho
      rcases hinv.untouched d hd (by rw [hor]) with hu | hn
      · exact hu.unfinished (hfin d hd hor)
      · exact hn t ht ⟨ho.1, hm, by rw [hor]; exact ho.2.2⟩
    · exact (hinv.base.fit _ _ ht).1 rfl

/-- The host side of the sample target. -/
def sampleHost : ConnectParam := { sampleParam with portid := 0, traddr := [0, 0, 0, 0] }

/-- A target is connected, and a batch for its host address is executed. -/
def connectedThenBatch : List Label :=
  [.request .connect sampleParam sampleToolbox 0, .add 0 .ok, .poll (.static .connect) 0, .get 5,
   .handle (.static .connect) 0 0, .complete (.static .connect) 0 6,
   .request .dcbatch sampleHost sampleToolbox 7, .add 1 .ok, .poll (.static .dcbatch) 0, .get 8]

/-- The batch adds a disconnect for the target, which is executed in its turn. -/
theorem batch_complete_sample :
    ∃ ls s, run step (Sched.init 3) ls = some s ∧
      (∃ b d, .handled b 0 ∈ s.log ∧ b.origin.type = .dcbatch ∧ .handled d 0 ∈ s.log ∧
        d.origin = ⟨.disconn, b.origin.request, true⟩) ∧ BatchComplete s := by
  let ls : List Label := connectedThenBatch ++ [.inherit sampleParam sampleToolbox 8, .add 2 .ok,
    .handle (.static .dcbatch) 0 0, .poll (.static .disconn) 0, .get 20,
    .handle (.static .disconn) 0 0]
  obtain ⟨s, hs⟩ : ∃ s, run step (Sched.init 3) ls = some s := ⟨_, rfl⟩
  refine ⟨ls, s, hs, ?_, batch_complete 3 ls s ?_ ?_ hs⟩
  · obtain rfl := Option.some.inj hs
    exact ⟨⟨1, 7, 0, 2, .live, sampleToolbox, sampleHost, ⟨.dcbatch, 1, false⟩⟩,
      ⟨2, 8, 0, 2, .live, sampleToolbox, sampleParam, ⟨.disconn, 1, true⟩⟩, by decide⟩
  · exact .cons (by decide) rfl <| .cons trivial rfl <| .cons trivial rfl <| .cons trivial rfl <|
      .cons trivial rfl <| .cons trivial rfl <| .cons (by decide) rfl <| .cons trivial rfl <|
      .cons trivial rfl <| .cons trivial rfl <| .cons trivial rfl <| .cons trivial rfl <|
      .cons trivial rfl <| .cons trivial rfl <| .cons trivial rfl <| .cons trivial rfl trivial
  · refine .cons ⟨by decide, trivial⟩ rfl <| .cons ⟨trivial, trivial⟩ rfl <|
      .cons ⟨trivial, trivial⟩ rfl <| .cons ⟨trivial, trivial⟩ rfl <|
      .cons ⟨trivial, trivial⟩ rfl <| .cons ⟨trivial, trivial⟩ rfl <|
      .cons ⟨by decide, trivial⟩ rfl <| .cons ⟨trivial, trivial⟩ rfl <|
      .cons ⟨trivial, trivial⟩ rfl <| .cons ⟨trivial, trivial⟩ rfl <|
      .cons ⟨trivial, trivial⟩ rfl <| .cons ⟨trivial, trivial⟩ rfl <| .cons ⟨trivial, ?_⟩ rfl <|
      .cons ⟨trivial, trivial⟩ rfl <| .cons ⟨trivial, trivial⟩ rfl <|
      .cons ⟨trivial, trivial⟩ rfl trivial
    -- the batch returns with its one disconnect added
    intro b hb _ t ht _
    obtain rfl := List.mem_singleton.mp hb
    obtain rfl := List.mem_singleton.mp ht
    exact ⟨⟨2, 8, 0, 2, .live, sampleToolbox, sampleParam, ⟨.disconn, 1, true⟩⟩, by decide⟩

/-- When sysfs shows the batch no controller, it adds nothing, and the task that
waits for its recheck stays alive: the scans for a batch leave that list out. -/
theorem batch_misses_recheck :
    ¬∀ cfgRestrainTime ls s, RunMeets step Sequential (Sched.init cfgRestrainTime) ls →
      run step (Sched.init cfgRestrainTime) ls = some s → BatchComplete s := by
  intro h
  have hseq : RunMeets step Sequential (Sched.init 3)
      (connectedThenBatch ++ [.handle (.static .dcbatch) 0 0]) :=
    .cons (by decide) rfl <| .cons trivial rfl <| .cons trivial rfl <| .cons trivial rfl <|
      .cons trivial rfl <| .cons trivial rfl <| .cons (by decide) rfl <| .cons trivial rfl <|
      .cons trivial rfl <| .cons trivial rfl <| .cons trivial rfl trivial
  have hrun : ∃ s, run step (Sched.init 3) (connectedThenBatch ++ [.handle (.static .dcbatch) 0 0]) =
      some s ∧
      .handled ⟨1, 7, 0, 2, .live, sampleToolbox, sampleHost, ⟨.dcbatch, 1, false⟩⟩ 0 ∈ s.log ∧
      (∀ e ∈ s.log, e.task.origin.inherited = false) ∧
      ⟨0, 0, 0, 0, .live, sampleToolbox, sampleParam, ⟨.connect, 0, false⟩⟩ ∈
        s.list (.wait (.static .recheck)) := by
    refine ⟨_, rfl, ?_⟩
    decide
  obtain ⟨s, hs, hb, hadd, ht⟩ := hrun
  refine h 3 _ s hseq hs _ 0 hb rfl (fun d hd ho => ?_) .recheck (.inr rfl) _
    (List.mem_append_left _ ht) ⟨rfl, by decide, by decide⟩
  have hi : d.origin.inherited = false := hadd _ hd
  rw [ho] at hi
  cases hi

end NvmeSnsd.ConnPeon
