import NvmeSnsd.ConnPeon.Invariant

/-! A connect task on its way round: it waits, is executed, and is rechecked
until its controller is gone. -/
namespace NvmeSnsd.ConnPeon
open Lib

/-- Where a target counts as connected, or about to be. -/
def Established (r : ListRef) : Prop :=
  r = .proc (.static .connect) ∨ r = .wait (.static .recheck)

/-- No two live tasks for one target are established. -/
def Alone (l : Lists) : Prop :=
  ∀ r x, Established r → Established x → ∀ t ∈ l r, ∀ u ∈ l x, t.state = .live → u.state = .live →
    peonTaskMatch t.param u.param false = true → t.id = u.id

/-- Whoever is established was so before. -/
theorem Alone.of_mem {l m : Lists} (h : Alone l)
    (hm : ∀ r, Established r → ∀ t ∈ m r, t.state = .live → ∃ x, Established x ∧ ∃ q ∈ l x,
      q.state = .live ∧ q.id = t.id ∧ q.param = t.param) : Alone m := by
  intro r x hr hx t ht u hu htl hul hmatch
  obtain ⟨r', hr', t', ht', htl', hti, htp⟩ := hm r hr t ht htl
  obtain ⟨x', hx', u', hu', hul', hui, hup⟩ := hm x hx u hu hul
  rw [← htp, ← hup] at hmatch
  rw [← hti, ← hui]
  exact h r' x' hr' hx' t' ht' u' hu' htl' hul' hmatch

theorem Alone.del {l : Lists} (h : Alone l) (r : ListRef) (id : ℕ) : Alone (listDel l r id) :=
  h.of_mem fun x hx t ht hl => ⟨x, hx, t, (mem_listDel.mp ht).1, hl, rfl, rfl⟩

theorem Alone.judge {l : Lists} (h : Alone l) (type : PeonType) (p : Task) :
    Alone (judgeLists l type p) :=
  h.of_mem fun x hx t ht hl => ⟨x, hx, t, (mem_judgeLists_live ht hl).1, hl, rfl, rfl⟩

theorem Alone.add {l : Lists} (h : Alone l) {r : ListRef} {q : Task} (hr : ¬Established r) :
    Alone (listAddTail l r q) := by
  apply h.of_mem
  intro x hx t ht hl
  rcases mem_listAddTail.mp ht with ht | ⟨rfl, -⟩
  · exact ⟨x, hx, t, ht, hl, rfl, rfl⟩
  · exact absurd hx hr

theorem judgeMark_of_outdated (type : PeonType) (r : ListRef) {p q : Task} {sc : Scan}
    (hsc : scanOf (judgeScans type) r = some sc) (ho : outdated p sc.isbatch q = true) :
    (judgeMark type p r q).state = .dead := by
  rw [judgeMark, hsc]
  dsimp only
  rw [markDead, if_pos ho]

/-- When the connect worker picks `p`, the scans have seen to it that no other
task for the target stays alive in the recheck list, since those have the number
0; and nobody else is in execution. -/
theorem alone_pick {s : Sched} (hb : Base s) (h : Alone s.list) {p : Task}
    (hp : p ∈ s.list (.wait (.static .connect))) (hc : connectIds s.list = []) :
    Alone (listAddTail (listDel (judgeLists s.list .connect p) (.wait (.static .connect)) p.id)
      (.proc (.static .connect)) p) := by
  have hcp : s.list (.proc (.static .connect)) = [] := List.map_eq_nil_iff.mp hc
  have hpsn := ((fitsPeon_of_ne .connect nofun).mp (hb.fit _ _ hp)).2
  -- an established task that is not `p` does not match `p`
  have hother : ∀ r, Established r →
      ∀ t ∈ listDel (judgeLists s.list .connect p) (.wait (.static .connect)) p.id r,
        t.state = .live → t ∈ s.list r ∧ ¬peonTaskMatch t.param p.param false = true := by
    intro r hr t ht hl
    obtain ⟨ht, he⟩ := mem_judgeLists_live (mem_listDel.mp ht).1 hl
    refine ⟨ht, fun hm => ?_⟩
    rcases hr with rfl | rfl
    · rw [hcp] at ht
      cases ht
    · have hsn : t.sn = 0 := (fitsPeon_recheck.mp (hb.fit _ _ ht)).2
      have ho : outdated p false t = true := outdated_iff.mpr ⟨hl, hm, by omega⟩
      have hd := judgeMark_of_outdated .connect (.wait (.static .recheck)) rfl ho
      rw [he, hl] at hd
      cases hd
  intro r x hr hx t ht u hu htl hul hm
  rcases mem_listAddTail.mp ht with ht | ⟨-, rfl⟩
  · obtain ⟨ht', hnt⟩ := hother r hr t ht htl
    rcases mem_listAddTail.mp hu with hu | ⟨-, rfl⟩
    · exact h r x hr hx t ht' u (hother x hx u hu hul).1 htl hul hm
    · exact absurd hm hnt
  · rcases mem_listAddTail.mp hu with hu | ⟨-, rfl⟩
    · exact absurd (peonTaskMatch_symm hm) (hother x hx u hu hul).2
    · rfl

theorem eq_connect_of_type {ref : PeonRef} (h : ref.type = .connect) : ref = .static .connect := by
  cases ref with
  | static type => exact congrArg _ h
  | dyn k => cases h

theorem not_established_wait {ref : PeonRef} (h : ref ≠ .static .recheck) :
    ¬Established (.wait ref) := by
  rintro (he | he)
  · cases he
  · exact h (ListRef.wait.inj he)

theorem not_established_proc {ref : PeonRef} (h : ref ≠ .static .connect) :
    ¬Established (.proc ref) := by
  rintro (he | he)
  · exact h (ListRef.proc.inj he)
  · cases he

theorem alone_step {s s' : Sched} {l : Label} (hb : Base s) (h : Alone s.list)
    (hs : step s l = some s') : Alone s'.list := by
  have hpending : ¬Established .pending := by
    rintro (he | he) <;> cases he
  cases step_cases hs with
  | request | inherit => exact h.add hpending
  | addFail | getDead | completeFree | recheckDrop => exact h.del _ _
  | add _ ht =>
    exact (h.del _ _).add (not_established_wait (by simpa using (hb.fit _ _ ht).1))
  | addDyn => exact (h.del _ _).add (not_established_wait nofun)
  | completeRetry _ _ hp => exact (h.del _ _).add (not_established_wait (hb.fit _ _ hp).1)
  | @completeRecheck ref _ p _ _ _ _ hp hlive _ hc =>
    -- the same task is established in another way
    apply h.of_mem
    intro x hx t ht hl
    rcases mem_listAddTail.mp ht with ht | ⟨rfl, rfl⟩
    · exact ⟨x, hx, t, (mem_listDel.mp ht).1, hl, rfl, rfl⟩
    · exact ⟨_, .inl rfl, p, eq_connect_of_type hc ▸ hp, hlive, rfl, rfl⟩
  | relive => exact (h.del _ _).add (not_established_wait nofun)
  | getLeave => exact h.judge _ _
  | getDiscard => exact (h.judge _ _).del _ _
  | @getPick ref i rest p now hh hp =>
    by_cases hr : ref = .static .connect
    · subst hr
      exact alone_pick hb h hp (hb.workers.connect_zero (hb.workers.holder _ _ _ hh).1 nofun).2
    · exact ((h.judge _ _).del _ _).add (not_established_proc hr)
  | deconstruct =>
    exact h.of_mem fun x hx t ht hl => ⟨x, hx, t, (mem_update_nil.mp ht).1, hl, rfl, rfl⟩
  | addStuck | poll | handle | recheck | recheckKeep | unlockGet | unlockRecheck | exit => exact h

theorem alone_run {cfgRestrainTime : ℕ} {ls : List Label} {s : Sched}
    (hr : run step (Sched.init cfgRestrainTime) ls = some s) : Base s ∧ Alone s.list := by
  apply run_invariant (I := fun s => Base s ∧ Alone s.list) _ _ hr
  · intro s l s' h hs
    exact ⟨base_step h.1 hs, alone_step h.1 h.2 hs⟩
  · exact ⟨base_init cfgRestrainTime, fun r _ _ _ t ht => absurd ht List.not_mem_nil⟩

theorem length_le_one_of_ids {l : List Task} (hn : (l.map Task.id).Nodup)
    (h : ∀ t ∈ l, ∀ u ∈ l, t.id = u.id) : l.length ≤ 1 := by
  match l with
  | [] | [_] => simp
  | t :: u :: l =>
    have he := h t List.mem_cons_self u (List.mem_cons_of_mem _ List.mem_cons_self)
    simp [he] at hn

/-- Two lists have no task in common, and neither has one twice. -/
theorem Ids.nodup_append {l : Lists} {n : ℕ} (h : Ids l n) {a : List Task} (r : ListRef)
    (ha : (a.map Task.id).Nodup) (hr : ∀ t ∈ a, ∃ x, x ≠ r ∧ t ∈ l x) :
    ((a ++ l r).map Task.id).Nodup := by
  rw [List.map_append, List.nodup_append]
  refine ⟨ha, h.nodup r, ?_⟩
  intro i hi j hj he
  obtain ⟨t, ht, rfl⟩ := List.mem_map.mp hi
  obtain ⟨u, hu, rfl⟩ := List.mem_map.mp hj
  obtain ⟨x, hx, ht⟩ := hr t ht
  exact hx (h.place x r t ht u hu he)

/-- Of the live tasks for one target at most one is established. -/
theorem established_at_most_one (cfgRestrainTime : ℕ) (ls : List Label) (s : Sched)
    (hr : run step (Sched.init cfgRestrainTime) ls = some s) (target : ConnectParam) :
    ((s.list (.proc (.static .connect)) ++ s.list (.wait (.static .recheck))).countP fun t =>
      t.state == .live && peonTaskMatch t.param target false) ≤ 1 := by
  obtain ⟨hb, h⟩ := alone_run hr
  have hn : ((s.list (.proc (.static .connect)) ++
      s.list (.wait (.static .recheck))).map Task.id).Nodup :=
    hb.ids.nodup_append (.wait (.static .recheck)) (hb.ids.nodup _) fun t ht =>
      ⟨.proc (.static .connect), nofun, ht⟩
  rw [List.countP_eq_length_filter]
  apply length_le_one_of_ids (hn.sublist (List.filter_sublist.map _))
  intro t ht u hu
  simp only [List.mem_filter, List.mem_append, Bool.and_eq_true, beq_iff_eq] at ht hu
  obtain ⟨ht, htl, htm⟩ := ht
  obtain ⟨hu, hul, hum⟩ := hu
  have hplace : ∀ {t : Task}, t ∈ s.list (.proc (.static .connect)) ∨
      t ∈ s.list (.wait (.static .recheck)) → ∃ r, Established r ∧ t ∈ s.list r := by
    rintro t (ht | ht)
    · exact ⟨_, .inl rfl, ht⟩
    · exact ⟨_, .inr rfl, ht⟩
  obtain ⟨r, hr, ht⟩ := hplace ht
  obtain ⟨x, hx, hu⟩ := hplace hu
  exact h r x hr hx t ht u hu htl hul (peonTaskMatch_trans htm (peonTaskMatch_symm hum))

theorem established_at_most_one_sample :
    ∃ ls s, run step (Sched.init 3) ls = some s ∧ s.list (.wait (.static .recheck)) ≠ [] ∧
      ((s.list (.proc (.static .connect)) ++ s.list (.wait (.static .recheck))).countP fun t =>
        t.state == .live && peonTaskMatch t.param sampleParam false) ≤ 1 := by
  let ls : List Label := [.request .connect sampleParam sampleToolbox 0, .add 0 .ok,
    .poll (.static .connect) 0, .get 5, .handle (.static .connect) 0 0,
    .complete (.static .connect) 0 6]
  obtain ⟨s, hs⟩ : ∃ s, run step (Sched.init 3) ls = some s := ⟨_, rfl⟩
  refine ⟨ls, s, hs, ?_, established_at_most_one 3 ls s hs sampleParam⟩
  obtain rfl := Option.some.inj hs
  decide

/-! The way of one task. -/

def connectLists : List ListRef :=
  [.wait (.static .connect), .proc (.static .connect), .wait (.static .recheck)]

/-- `e` is `t`, at some later time. -/
def Follows (e t : Task) : Prop :=
  e.state = .live ∧ e.id = t.id ∧ e.param = t.param ∧ e.toolbox = t.toolbox

/-- The task that was added as `t` is alive and on its way. -/
def Kept (l : Lists) (t : Task) : Prop := ∃ r ∈ connectLists, ∃ e ∈ l r, Follows e t

theorem Kept.add {l : Lists} {t : Task} (h : Kept l t) (r : ListRef) (q : Task) :
    Kept (listAddTail l r q) t := by
  obtain ⟨x, hx, e, he, hf⟩ := h
  exact ⟨x, hx, e, mem_listAddTail.mpr (.inl he), hf⟩

theorem Kept.put {l : Lists} {t q : Task} {r : ListRef} (hr : r ∈ connectLists)
    (hq : Follows q t) : Kept (listAddTail l r q) t :=
  ⟨r, hr, q, mem_listAddTail.mpr (.inr ⟨rfl, rfl⟩), hq⟩

/-- When `p` is taken off a list, the task is kept unless it is `p`. -/
theorem Kept.del {l : Lists} {n : ℕ} {t p : Task} {r : ListRef} (h : Kept l t) (hi : Ids l n)
    (hp : p ∈ l r) : Kept (listDel l r p.id) t ∨ r ∈ connectLists ∧ Follows p t := by
  obtain ⟨x, hx, e, he, hf⟩ := h
  by_cases hid : e.id = p.id
  · obtain rfl := hi.eq he hp hid
    obtain rfl := hi.place x r e he e hp rfl
    exact Or.inr ⟨hx, hf⟩
  · exact Or.inl ⟨x, hx, e, mem_listDel.mpr ⟨he, fun _ => hid⟩, hf⟩

theorem Kept.judge {l : Lists} {type : PeonType} {t p : Task} (h : Kept l t) (hf : AllFit l)
    (hp : FitsPeon type p) : Kept (judgeLists l type p) t ∨ Overruled (judgeDead l type p) t := by
  obtain ⟨x, hx, e, he, hl, hid, hpar, htb⟩ := h
  by_cases hd : (judgeMark type p x e).state = .dead
  · rcases judgeMark_dead hf hp he hd with hdead | ho
    · rw [hl] at hdead
      cases hdead
    · exact Or.inr (ho.congr hid.symm hpar.symm)
  · have hm := judgeMark_live type p x e (not_dead hd)
    exact Or.inl ⟨x, hx, e, mem_judgeLists.mpr ⟨e, he, hm⟩, hl, hid, hpar, htb⟩

/-- Every connect task that can be rechecked is on its way, or had to yield to a
newer task for its target. -/
def Persist (l : Lists) (log : List Event) : Prop :=
  ∀ t, .added t ∈ log → t.origin.type = .connect → t.toolbox.recheck = true →
    Overruled log t ∨ Kept l t

/-- Steps that add no task keep it if they keep what is on its way. -/
theorem Persist.of_kept {l m : Lists} {log es : List Event} (h : Persist l log)
    (hes : ∀ t, .added t ∉ es)
    (hm : ∀ t, t.toolbox.recheck = true → Kept l t → Overruled es t ∨ Kept m t) :
    Persist m (log ++ es) := by
  intro t ht hc hrc
  rcases List.mem_append.mp ht with ht | ht
  · rcases h t ht hc hrc with ho | hk
    · exact Or.inl (ho.mono (List.sublist_append_left ..))
    · exact (hm t hrc hk).imp_left (·.mono (List.sublist_append_right ..))
  · exact absurd ht (hes t)

theorem persist_step {s s' : Sched} {l : Label} (hb : Base s) (h : Persist s.list s.log)
    (hs : step s l = some s') : Persist s'.list s'.log := by
  have hsame : ∀ {m : Lists}, (∀ t, Kept s.list t → Kept m t) → Persist m s.log := by
    intro m hm t ht hc hrc
    exact (h t ht hc hrc).imp_right (hm t)
  -- what is taken off the list of callers is not on its way yet
  have hpending : ∀ t p, p ∈ s.list .pending → Kept s.list t →
      Kept (listDel s.list .pending p.id) t := by
    intro t p hp hk
    exact (hk.del hb.ids hp).resolve_right fun hr => absurd hr.1 (by decide)
  have hadd : ∀ {ref p}, p ∈ s.list .pending → (p.origin.type = .connect → ref = .static .connect) →
      Persist (listAddTail (listDel s.list .pending p.id) (.wait ref) p) (s.log ++ [.added p]) := by
    intro ref p hp href t ht hc hrc
    rcases List.mem_append.mp ht with ht | ht
    · rcases h t ht hc hrc with ho | hk
      · exact Or.inl (ho.mono (List.sublist_append_left ..))
      · exact Or.inr ((hpending t p hp hk).add _ _)
    · obtain rfl : t = p := by simpa using ht
      rw [href hc]
      exact Or.inr (.put (by decide) ⟨(hb.fit _ _ hp).2.2, rfl, rfl, rfl⟩)
  have hjudge : ∀ {ref p}, p ∈ s.list (.wait ref) → ∀ t, Kept s.list t →
      Kept (judgeLists s.list ref.type p) t ∨ Overruled (judgeDead s.list ref.type p) t :=
    fun hp t hk => hk.judge hb.fit (hb.fit _ _ hp)
  -- after the scans and with `p` off its list, `t` is overruled, still there, or `p`
  have hdel : ∀ {ref p}, p ∈ s.list (.wait ref) → ∀ t, Kept s.list t →
      Overruled (judgeDead s.list ref.type p) t ∨
        Kept (listDel (judgeLists s.list ref.type p) (.wait ref) p.id) t ∨
        .wait ref ∈ connectLists ∧ Follows p t := by
    intro ref p hp t hk
    rcases hjudge hp t hk with hk | ho
    · exact Or.inr (hk.del (hb.ids.judge _ _) (mem_judged_self hp))
    · exact Or.inl ho
  cases step_cases hs with
  | request | inherit => exact hsame fun t hk => hk.add _ _
  | addFail ht => exact hsame fun t hk => hpending t _ ht hk
  | add _ ht => exact hadd ht (congrArg _)
  | addDyn _ ht hc => exact hadd ht fun he => by cases he.symm.trans hc.1
  | getDead _ hp hdead =>
    refine h.of_kept (by simp) fun t _ hk => Or.inr ?_
    exact (hk.del hb.ids hp).resolve_right fun hr => by cases hdead.symm.trans hr.2.1
  | getLeave _ hp => exact h.of_kept (by simp [judgeDead]) fun t _ hk => (hjudge hp t hk).symm
  | @getDiscard ref i rest p now _ hp _ _ hsup =>
    change Persist _ (s.log ++ judgeDead s.list ref.type p ++ judgeDiscard s.list ref.type p ++ [_])
    rw [List.append_assoc, List.append_assoc]
    refine h.of_kept (by simp [judgeDead, judgeDiscard]) fun t _ hk => ?_
    rcases hdel hp t hk with ho | hk | ⟨-, -, hid, hpar, -⟩
    · exact Or.inl (ho.mono (List.sublist_append_left ..))
    · exact Or.inr hk
    · -- the task itself is discarded
      have ho := overruled_of_superseded hb.fit (hb.fit _ _ hp) hsup
      exact Or.inl ((ho.congr hid.symm hpar.symm).mono
        ((List.sublist_append_left ..).trans (List.sublist_append_right ..)))
  | @getPick ref i rest p now hh hp =>
    refine h.of_kept (by simp [judgeDead]) fun t _ hk => ?_
    rcases hdel hp t hk with ho | hk | ⟨hr, hf⟩
    · exact Or.inl ho
    · exact Or.inr (hk.add _ _)
    · have href : ref = .static .connect := by
        have hne := (hb.workers.holder _ _ _ hh).2
        simpa [connectLists, hne] using hr
      subst href
      exact Or.inr (.put (by decide) hf)
  | @completeRetry ref i p ret now _ _ hp =>
    refine hsame fun t hk => ?_
    rcases hk.del hb.ids hp with hk | ⟨hr, hf⟩
    · exact hk.add _ _
    · obtain rfl : ref = .static .connect := by simpa [connectLists] using hr
      exact .put (by decide) hf
  | completeRecheck _ _ hp =>
    refine hsame fun t hk => ?_
    rcases hk.del hb.ids hp with hk | ⟨-, hf⟩
    · exact hk.add _ _
    · exact .put (by decide) hf
  | @completeFree ref i p ret now _ _ hp hf =>
    refine h.of_kept (by simp) fun t _ hk => Or.inr ?_
    refine (hk.del hb.ids hp).resolve_right ?_
    rintro ⟨hr, hfo⟩
    obtain rfl : ref = .static .connect := by simpa [connectLists] using hr
    rcases hf with hdead | ⟨-, hne⟩
    · cases hdead.symm.trans hfo.1
    · exact hne rfl
  | recheckDrop _ hp hd =>
    refine h.of_kept (by simp) fun t hrc hk => Or.inr ?_
    refine (hk.del hb.ids hp).resolve_right ?_
    rintro ⟨-, hl, -, -, htb⟩
    rcases hd with hdead | hno
    · cases hdead.symm.trans hl
    · rw [htb, hrc] at hno
      cases hno
  | relive _ hp =>
    refine h.of_kept (by simp) fun t _ hk => Or.inr ?_
    rcases hk.del hb.ids hp with hk | ⟨-, -, hf⟩
    · exact hk.add _ _
    · exact .put (by decide) ⟨rfl, hf⟩
  | deconstruct =>
    apply h.of_kept (by simp)
    rintro t - ⟨x, hx, e, he, hf⟩
    refine Or.inr ⟨x, hx, e, ?_, hf⟩
    have hne : x ≠ .wait (.dyn ‹ℕ›) := by
      rintro rfl
      simp [connectLists] at hx
    exact mem_update_nil.mpr ⟨he, hne⟩
  | handle => exact h.of_kept (by simp) fun t _ hk => Or.inr hk
  | addStuck | poll | recheck | recheckKeep | unlockGet | unlockRecheck | exit => exact h

theorem persist_run {cfgRestrainTime : ℕ} {ls : List Label} {s : Sched}
    (hr : run step (Sched.init cfgRestrainTime) ls = some s) : Base s ∧ Persist s.list s.log := by
  apply run_invariant (I := fun s => Base s ∧ Persist s.list s.log) _ _ hr
  · intro s l s' h hs
    exact ⟨base_step h.1 hs, persist_step h.1 h.2 hs⟩
  · exact ⟨base_init cfgRestrainTime, fun t ht => absurd ht List.not_mem_nil⟩

/-- The tasks on their way, over the two peons. -/
def onTheWay (l : Lists) : List Task :=
  l (.wait (.static .connect)) ++ l (.proc (.static .connect)) ++ l (.wait (.static .recheck))

theorem onTheWay_nodup {l : Lists} {n : ℕ} (h : Ids l n) : ((onTheWay l).map Task.id).Nodup := by
  apply h.nodup_append
  · apply h.nodup_append _ (h.nodup _)
    exact fun t ht => ⟨.wait (.static .connect), nofun, ht⟩
  · intro t ht
    rcases List.mem_append.mp ht with ht | ht
    · exact ⟨.wait (.static .connect), by decide, ht⟩
    · exact ⟨.proc (.static .connect), nofun, ht⟩

theorem filter_id_eq {l : List Task} (hn : (l.map Task.id).Nodup) {e : Task} (he : e ∈ l) :
    (l.filter fun u => u.id == e.id) = [e] := by
  have hlen : (l.filter fun u => u.id == e.id).length ≤ 1 := by
    apply length_le_one_of_ids (hn.sublist (List.filter_sublist.map _))
    intro t ht u hu
    simp only [List.mem_filter, beq_iff_eq] at ht hu
    rw [ht.2, hu.2]
  have hmem : e ∈ l.filter fun u => u.id == e.id := by simp [he]
  match hl : l.filter fun u => u.id == e.id with
  | [] => simp [hl] at hmem
  | [t] =>
    rw [hl, List.mem_singleton] at hmem
    exact hmem ▸ hl
  | t :: u :: m => simp [hl] at hlen

theorem Kept.once {l : Lists} {n : ℕ} {t : Task} (h : Kept l t) (hi : Ids l n) :
    ∃ e, Follows e t ∧ (onTheWay l).filter (fun u => u.id == t.id) = [e] := by
  obtain ⟨r, hr, e, he, hf⟩ := h
  have hmem : e ∈ onTheWay l := by
    simp only [connectLists, List.mem_cons, List.not_mem_nil, or_false] at hr
    rcases hr with rfl | rfl | rfl <;> simp [onTheWay, he]
  exact ⟨e, hf, hf.2.1 ▸ filter_id_eq (onTheWay_nodup hi) hmem⟩

theorem findTask_of_mem {l : Lists} {n : ℕ} (h : Ids l n) {r : ListRef} {p : Task} (hp : p ∈ l r) :
    findTask (l r) p.id = some p := by
  cases hf : findTask (l r) p.id with
  | none =>
    have := List.find?_eq_none.mp hf p hp
    simp at this
  | some q =>
    obtain ⟨hq, hid⟩ := findTask_some hf
    rw [h.eq hq hp hid]

/-- What becomes of a live connect task whose handler is through. -/
theorem complete_connect {s : Sched} (hb : Base s) (hh : s.holder = .free) {p : Task}
    (hp : p ∈ s.list (.proc (.static .connect))) (hl : p.state = .live) {i : ℕ} {ret : ℤ}
    (hw : s.worker (.static .connect, i) = .handled p.id ret) (now : ℕ) :
    ∃ s', step s (.complete (.static .connect) i now) = some s' ∧
      (ret = 0 → p.rechecked ∈ s'.list (.wait (.static .recheck))) ∧
      (ret ≠ 0 → p.retried now ∈ s'.list (.wait (.static .connect))) := by
  have hstep : step s (.complete (.static .connect) i now) =
      some ((peonTaskComplete s (.static .connect) p ret now).setWorker (.static .connect) i
        (afterRound (.static .connect))) := by
    simp only [step, completeStep, hh, hw, findTask_of_mem hb.ids hp, Option.map_some]
  refine ⟨_, hstep, ?_, ?_⟩
  · intro hret
    rw [peonTaskComplete, if_pos hl, if_neg (not_ne_iff.mpr hret),
      if_pos (show (PeonRef.static .connect).type = .connect from rfl)]
    simp [listAddTail, Task.rechecked]
  · intro hret
    rw [peonTaskComplete, if_pos hl, if_pos hret]
    simp [listAddTail, Task.retried]

/-- What becomes of a live task whose recheck fails. -/
theorem recheckOne_relives {s : Sched} (hb : Base s) {p : Task} {rest : List ℕ}
    (hh : s.holder = .recheck (p.id :: rest)) (hp : p ∈ s.list (.wait (.static .recheck)))
    (hl : p.state = .live) (hc : p.toolbox.recheck = true) {ret : ℤ} (hret : ret ≠ 0) (now : ℕ) :
    ∃ s', step s (.recheckOne ret now) = some s' ∧ s'.snGen = peonSnGenerate s.snGen ∧
      p.relived s'.snGen now ∈ s'.list (.wait (.static .connect)) := by
  have hstep : step s (.recheckOne ret now) = some (peonRunRecheckOne s rest p ret now) := by
    simp only [step, recheckOneStep, hh, findTask_of_mem hb.ids hp, Option.map_some]
  refine ⟨_, hstep, ?_⟩
  have hgo : ¬(decide (p.state = .dead) || !p.toolbox.recheck) = true := by simp [hl, hc]
  rw [peonRunRecheckOne, if_neg hgo, if_neg hret]
  refine ⟨rfl, ?_⟩
  simp [listAddTail, Task.relived]

/-- A connect request persists: its task is in exactly one of the three lists
until a newer task for the target overrules it; a success brings it to the
recheck peon, a failure back to the connect peon, and a failed recheck too, with
a new number. -/
theorem connect_request_persists (cfgRestrainTime : ℕ) (ls : List Label) (s : Sched)
    (hr : run step (Sched.init cfgRestrainTime) ls = some s) :
    (∀ t, .added t ∈ s.log → t.origin.type = .connect → t.toolbox.recheck = true →
      Overruled s.log t ∨
        ∃ e, Follows e t ∧ (onTheWay s.list).filter (fun u => u.id == t.id) = [e]) ∧
    (∀ p ∈ s.list (.proc (.static .connect)), p.state = .live → s.holder = .free →
      ∀ i ret now, s.worker (.static .connect, i) = .handled p.id ret →
        ∃ s', step s (.complete (.static .connect) i now) = some s' ∧
          (ret = 0 → p.rechecked ∈ s'.list (.wait (.static .recheck))) ∧
          (ret ≠ 0 → p.retried now ∈ s'.list (.wait (.static .connect)))) ∧
    ∀ p ∈ s.list (.wait (.static .recheck)), p.state = .live → p.toolbox.recheck = true →
      ∀ rest ret now, s.holder = .recheck (p.id :: rest) → ret ≠ 0 →
        ∃ s', step s (.recheckOne ret now) = some s' ∧ s'.snGen = peonSnGenerate s.snGen ∧
          s'.snGen ≠ 0 ∧ p.relived s'.snGen now ∈ s'.list (.wait (.static .connect)) := by
  obtain ⟨hb, h⟩ := persist_run hr
  refine ⟨?_, ?_, ?_⟩
  · intro t ht hc hrc
    exact (h t ht hc hrc).imp_right (·.once hb.ids)
  · intro p hp hl hh i ret now hw
    exact complete_connect hb hh hp hl hw now
  · intro p hp hl hc rest ret now hh hret
    obtain ⟨s', hs, hg, hmem⟩ := recheckOne_relives hb hh hp hl hc hret now
    exact ⟨s', hs, hg, hg ▸ peonSnGenerate_ne_zero _, hmem⟩

/-- A connect task is added, executed with success, and fails its recheck. -/
def reliving : List Label :=
  [.request .connect sampleParam sampleToolbox 0, .add 0 .ok, .poll (.static .connect) 0, .get 5,
   .handle (.static .connect) 0 0, .complete (.static .connect) 0 6, .recheck, .recheckOne 1 7]

theorem connect_request_persists_sample :
    ∃ s t, run step (Sched.init 3) reliving = some s ∧ .added t ∈ s.log ∧
      (Overruled s.log t ∨
        ∃ e, Follows e t ∧ (onTheWay s.list).filter (fun u => u.id == t.id) = [e]) := by
  obtain ⟨s, hs⟩ : ∃ s, run step (Sched.init 3) reliving = some s := ⟨_, rfl⟩
  have hadd : .added ⟨0, 0, 0, 1, .live, sampleToolbox, sampleParam, ⟨.connect, 0, false⟩⟩ ∈
      s.log := by
    obtain rfl := Option.some.inj hs
    decide
  exact ⟨s, _, hs, hadd, (connect_request_persists 3 reliving s hs).1 _ hadd rfl rfl⟩

end NvmeSnsd.ConnPeon
