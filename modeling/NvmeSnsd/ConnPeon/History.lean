import NvmeSnsd.ConnPeon.LastWins

/-! What the log and the numbers tell about the tasks in the lists, and where
tasks come from. -/
namespace NvmeSnsd.ConnPeon
open Lib

/-- The task that an entry of the log is about. -/
def Event.task : Event → Task
  | .added t | .handled t _ | .markedDead t _ | .discarded t _ | .relived t | .freed t => t

/-- `u` is a record of `t`: the same task, then or now. -/
def SameTask (t u : Task) : Prop := t.id = u.id ∧ t.param = u.param ∧ t.origin = u.origin

/-- The log speaks of tasks that came to the peons, and those that it calls
freed are gone. -/
structure LogOk (l : Lists) (n : ℕ) (log : List Event) : Prop where
  lt : ∀ e ∈ log, e.task.id < n
  same : ∀ e ∈ log, ∀ r, ∀ t ∈ l r, t.id = e.task.id → SameTask t e.task ∧ r ≠ .pending
  gone : ∀ u, .freed u ∈ log → ∀ r, ∀ t ∈ l r, t.id ≠ u.id

namespace LogOk
variable {l m : Lists} {n : ℕ} {log k : List Event}

/-- The tasks are some of those before, and the new entries are about these. -/
theorem of_mem (h : LogOk l n log) (hi : Ids l n)
    (hm : ∀ r, ∀ t ∈ m r, ∃ x, ∃ q ∈ l x, SameTask q t ∧ (r = .pending → x = .pending))
    (hes : ∀ e ∈ k, ∃ x, ∃ q ∈ l x, SameTask q e.task ∧ ∀ t ∈ m .pending, t.id ≠ e.task.id)
    (hf : ∀ u, .freed u ∈ k → ∀ r, ∀ t ∈ m r, t.id ≠ u.id) : LogOk m n (log ++ k) := by
  refine ⟨?_, ?_, ?_⟩
  · intro e he
    rcases List.mem_append.mp he with he | he
    · exact h.lt e he
    · obtain ⟨x, q, hq, hs, -⟩ := hes e he
      exact hs.1 ▸ hi.lt x q hq
  · intro e he r t ht hid
    obtain ⟨x, q, hq, hs, hpend⟩ := hm r t ht
    rcases List.mem_append.mp he with he | he
    · obtain ⟨hqe, hx⟩ := h.same e he x q hq (hs.1.trans hid)
      refine ⟨⟨hid, hs.2.1.symm.trans hqe.2.1, hs.2.2.symm.trans hqe.2.2⟩, ?_⟩
      exact fun hr => hx (hpend hr)
    · obtain ⟨y, p, hp, hpe, hnot⟩ := hes e he
      -- the entry and `t` are about the same task of before
      obtain rfl := hi.eq hq hp (by rw [hs.1, hpe.1, hid])
      refine ⟨⟨hid, hs.2.1.symm.trans hpe.2.1, hs.2.2.symm.trans hpe.2.2⟩, ?_⟩
      rintro rfl
      exact hnot t ht hid
  · intro u hu r t ht
    rcases List.mem_append.mp hu with hu | hu
    · obtain ⟨x, q, hq, hs, -⟩ := hm r t ht
      exact hs.1 ▸ h.gone u hu x q hq
    · exact hf u hu r t ht

/-- No new entries. -/
theorem of_same (h : LogOk l n log) (hi : Ids l n)
    (hm : ∀ r, ∀ t ∈ m r, ∃ x, ∃ q ∈ l x, SameTask q t ∧ (r = .pending → x = .pending)) :
    LogOk m n log := by
  have happ := h.of_mem (k := []) hi hm (by simp) (by simp)
  rwa [List.append_nil] at happ

/-- A task with a new address is about to be added. -/
theorem issue (h : LogOk l n log) {q : Task} (hq : q.id = n) :
    LogOk (listAddTail l .pending q) (n+1) log := by
  have hne : ∀ e ∈ log, q.id ≠ e.task.id := by
    intro e he hid
    exact absurd (h.lt e he) (by omega)
  refine ⟨fun e he => (h.lt e he).trans (Nat.lt_succ_self n), ?_, ?_⟩
  · intro e he r t ht hid
    rcases mem_listAddTail.mp ht with ht | ⟨-, rfl⟩
    · exact h.same e he r t ht hid
    · exact absurd hid (hne e he)
  · intro u hu r t ht
    rcases mem_listAddTail.mp ht with ht | ⟨-, rfl⟩
    · exact h.gone u hu r t ht
    · exact hne _ hu

theorem del (h : LogOk l n log) (hi : Ids l n) (r : ListRef) (k : ℕ) :
    LogOk (listDel l r k) n log := by
  apply h.of_same hi
  intro x t ht
  exact ⟨x, t, (mem_listDel.mp ht).1, ⟨rfl, rfl, rfl⟩, id⟩

/-- `p` leaves list `r` for good. -/
theorem free (h : LogOk l n log) (hi : Ids l n) {r : ListRef} {p : Task} (hp : p ∈ l r) :
    LogOk (listDel l r p.id) n (log ++ [.freed p]) := by
  have hgone : ∀ x, ∀ t ∈ listDel l r p.id x, t.id ≠ p.id := by
    intro x t ht hid
    obtain ⟨ht, hne⟩ := mem_listDel.mp ht
    exact hne (hi.place x r t ht p hp hid) hid
  apply h.of_mem hi
  · intro x t ht
    exact ⟨x, t, (mem_listDel.mp ht).1, ⟨rfl, rfl, rfl⟩, id⟩
  · intro e he
    obtain rfl := List.mem_singleton.mp he
    exact ⟨r, p, hp, ⟨rfl, rfl, rfl⟩, hgone _⟩
  · intro u hu
    obtain rfl := Event.freed.inj (List.mem_singleton.mp hu)
    exact hgone

/-- `p` goes over to a list of a peon, as `q`. -/
theorem move (h : LogOk l n log) (hi : Ids l n) {r x : ListRef} {p q : Task} (hp : p ∈ l r)
    (hx : x ≠ .pending) (hs : SameTask p q)
    (hes : ∀ e ∈ k, SameTask p e.task ∧ ∀ u, e ≠ .freed u) :
    LogOk (listAddTail (listDel l r p.id) x q) n (log ++ k) := by
  apply h.of_mem hi
  · intro y t ht
    rcases mem_listAddTail.mp ht with ht | ⟨rfl, rfl⟩
    · exact ⟨y, t, (mem_listDel.mp ht).1, ⟨rfl, rfl, rfl⟩, id⟩
    · exact ⟨r, p, hp, hs, fun hy => absurd hy hx⟩
  · intro e he
    refine ⟨r, p, hp, (hes e he).1, fun t ht hid => ?_⟩
    rcases mem_listAddTail.mp ht with ht | ⟨hy, -⟩
    · obtain ⟨ht, hne⟩ := mem_listDel.mp ht
      have hpid : t.id = p.id := hid.trans (hes e he).1.1.symm
      exact hne (hi.place _ r t ht p hp hpid) hpid
    · exact hx hy.symm
  · intro u hu
    exact absurd rfl ((hes _ hu).2 u)

/-- The scans for `p`. -/
theorem judge (h : LogOk l n log) (hi : Ids l n) (type : PeonType) (p : Task) :
    LogOk (judgeLists l type p) n (log ++ judgeDead l type p) := by
  have hsame : ∀ r, ∀ t ∈ judgeLists l type p r, ∃ q ∈ l r, SameTask q t := by
    intro r t ht
    obtain ⟨q, hq, rfl⟩ := mem_judgeLists.mp ht
    exact ⟨q, hq, by simp [SameTask]⟩
  apply h.of_mem hi
  · intro r t ht
    obtain ⟨q, hq, hs⟩ := hsame r t ht
    exact ⟨r, q, hq, hs, id⟩
  · intro e he
    obtain ⟨sc, hsc, q, hq, -, rfl⟩ := mem_judgeDead.mp he
    refine ⟨_, q, hq, ⟨rfl, rfl, rfl⟩, fun t ht hid => ?_⟩
    obtain ⟨t', ht', hs⟩ := hsame _ t ht
    exact scan_ne_pending hsc (hi.place _ _ q hq t' ht' (hid.symm.trans hs.1.symm))
  · intro u hu
    simp [judgeDead] at hu

end LogOk

theorem logOk_step {s s' : Sched} {l : Label} (hb : Base s) (h : LogOk s.list s.nextId s.log)
    (hs : step s l = some s') : LogOk s'.list s'.nextId s'.log := by
  have hids := hb.ids
  cases step_cases hs with
  | request | inherit => exact h.issue rfl
  | addFail => exact h.del hids _ _
  | @add t create _ ht =>
    exact h.move hids ht (by simp) ⟨rfl, rfl, rfl⟩ (by simp [Event.task, SameTask])
  | @addDyn t _ ht =>
    exact h.move hids ht (by simp) ⟨rfl, rfl, rfl⟩ (by simp [Event.task, SameTask])
  | getDead _ hp => exact h.free hids hp
  | getLeave => exact h.judge hids _ _
  | @getDiscard ref i rest p now _ hp =>
    have hj := h.judge hids ref.type p
    have hd : LogOk (judgeLists s.list ref.type p) s.nextId
        (s.log ++ judgeDead s.list ref.type p ++ judgeDiscard s.list ref.type p) := by
      apply hj.of_mem (hids.judge _ _)
      · exact fun r t ht => ⟨r, t, ht, ⟨rfl, rfl, rfl⟩, fun hr => hr⟩
      · intro e he
        obtain ⟨sc, hsc, q, hq, -, rfl⟩ := mem_judgeDiscard.mp he
        refine ⟨_, p, mem_judged_self hp, ⟨rfl, rfl, rfl⟩, fun t ht hid => ?_⟩
        have hr := (hids.judge _ _).place _ _ t ht p (mem_judged_self hp) hid
        cases hr
      · intro u hu
        simp [judgeDiscard] at hu
    exact hd.free (hids.judge _ _) (mem_judged_self hp)
  | @getPick ref i rest p now _ hp =>
    have hm := (h.judge hids ref.type p).move (x := .proc ref) (q := p) (k := []) (hids.judge _ _)
      (mem_judged_self hp) (by simp) ⟨rfl, rfl, rfl⟩ (by simp)
    rwa [List.append_nil] at hm
  | @handle ref i p ret _ hp =>
    apply h.of_mem hids
    · exact fun r t ht => ⟨r, t, ht, ⟨rfl, rfl, rfl⟩, fun hr => hr⟩
    · intro e he
      obtain rfl := List.mem_singleton.mp he
      refine ⟨_, p, hp, ⟨rfl, rfl, rfl⟩, fun t ht hid => ?_⟩
      cases hids.place _ _ t ht p hp hid
    · simp
  | @completeRetry ref i p ret now _ _ hp =>
    have hm := h.move (x := .wait ref) (q := p.retried now) (k := []) hids hp (by simp)
      ⟨rfl, rfl, rfl⟩ (by simp)
    rwa [List.append_nil] at hm
  | @completeRecheck ref i p ret now _ _ hp =>
    have hm := h.move (x := .wait (.static .recheck)) (q := p.rechecked) (k := []) hids hp (by simp)
      ⟨rfl, rfl, rfl⟩ (by simp)
    rwa [List.append_nil] at hm
  | completeFree _ _ hp => exact h.free hids hp
  | recheckDrop _ hp => exact h.free hids hp
  | relive _ hp =>
    exact h.move hids hp (by simp) ⟨rfl, rfl, rfl⟩ (by simp [Event.task, SameTask, Task.relived])
  | @deconstruct k =>
    apply h.of_mem hids
    · exact fun r t ht => ⟨r, t, (mem_update_nil.mp ht).1, ⟨rfl, rfl, rfl⟩, fun hr => hr⟩
    · intro e he
      obtain ⟨t, ht, rfl⟩ := List.mem_map.mp he
      refine ⟨_, t, ht, ⟨rfl, rfl, rfl⟩, fun u hu hid => ?_⟩
      have hu : u ∈ Function.update s.list (.wait (.dyn k)) [] .pending := hu
      cases hids.place _ _ u (mem_update_nil.mp hu).1 t ht hid
    · intro u hu r t ht hid
      obtain ⟨q, hq, he⟩ := List.mem_map.mp hu
      obtain rfl := Event.freed.inj he
      obtain ⟨ht, hr⟩ := mem_update_nil.mp ht
      exact hr (hids.place _ _ t ht q hq hid)
  | addStuck | poll | recheck | recheckKeep | unlockGet | unlockRecheck | exit => exact h

theorem logOk_run {cfgRestrainTime : ℕ} {ls : List Label} {s : Sched}
    (hr : run step (Sched.init cfgRestrainTime) ls = some s) : LogOk s.list s.nextId s.log := by
  have hinv : Base s ∧ LogOk s.list s.nextId s.log := by
    apply run_invariant (I := fun s => Base s ∧ LogOk s.list s.nextId s.log) _ _ hr
    · rintro s l s' ⟨hb, h⟩ hs
      exact ⟨base_step hb hs, logOk_step hb h hs⟩
    · refine ⟨base_init cfgRestrainTime, ⟨?_, ?_, ?_⟩⟩
      · intro e he
        cases he
      · intro e he
        cases he
      · intro u hu
        cases hu
  exact hinv.2

/-- No two requests share a number, and a task has that of its own or a newer
one that no request has. -/
def OwnNumber (l : Lists) (rqs : List Request) : Prop :=
  ∀ r, ∀ t ∈ l r, t.sn ≠ 0 → ∀ j rq, rqs[j]? = some rq → rq.sn = t.sn → j = t.origin.request

theorem OwnNumber.of_mem {l m : Lists} {rqs : List Request} (h : OwnNumber l rqs)
    (hm : ∀ r, ∀ t ∈ m r, t.sn ≠ 0 → ∃ x, ∃ q ∈ l x, q.sn = t.sn ∧ q.origin = t.origin) :
    OwnNumber m rqs := by
  intro r t ht hne j rq hj he
  obtain ⟨x, q, hq, hsn, ho⟩ := hm r t ht hne
  rw [← ho]
  exact h x q hq (hsn ▸ hne) j rq hj (hsn ▸ he)

theorem ownNumber_step {s s' : Sched} {l : Label} (hr : RequestsOk s.list s.requests s.snGen)
    (h : OwnNumber s.list s.requests) (hwrap : NoWrap s l) (hs : step s l = some s') :
    OwnNumber s'.list s'.requests := by
  have hold : ∀ {j : ℕ} {rq : Request}, s.requests[j]? = some rq → rq.sn ≤ s.snGen :=
    fun hj => hr.issued _ (List.mem_of_getElem? hj)
  have hmove : ∀ {a b : ListRef} {p q : Task}, p ∈ s.list a → q.sn = p.sn ∨ q.sn = 0 →
      q.origin = p.origin → OwnNumber (listAddTail (listDel s.list a p.id) b q) s.requests := by
    intro a b p q hp hsn ho
    apply h.of_mem
    intro r t ht hne
    rcases mem_listAddTail.mp ht with ht | ⟨rfl, rfl⟩
    · exact ⟨r, t, (mem_listDel.mp ht).1, rfl, rfl⟩
    · exact ⟨a, p, hp, (hsn.resolve_right hne).symm, ho.symm⟩
  have hjudge : ∀ type p, OwnNumber (judgeLists s.list type p) s.requests := by
    intro type p
    apply h.of_mem
    intro r t ht _
    obtain ⟨q, hq, rfl⟩ := mem_judgeLists.mp ht
    exact ⟨r, q, hq, by simp, by simp⟩
  cases step_cases hs with
  | @request type param toolbox tm =>
    have hgen : peonSnGenerate s.snGen = s.snGen+1 := peonSnGenerate_eq hwrap
    intro r t ht hne j rq hj he
    -- the last index is that of the new request
    have hidx : s.requests[j]? = some rq ∨ j = s.requests.length ∧ rq.sn = s.snGen+1 := by
      rcases Nat.lt_or_ge j s.requests.length with hlt | hge
      · exact Or.inl (List.getElem?_append_left hlt ▸ hj)
      · have hlt := (List.getElem?_eq_some_iff.mp hj).1
        obtain rfl : j = s.requests.length := by
          simp at hlt
          omega
        simp at hj
        exact Or.inr ⟨rfl, by rw [← hj, hgen]⟩
    rcases mem_listAddTail.mp ht with ht | ⟨-, rfl⟩
    · rcases hidx with hj | ⟨rfl, hsn⟩
      · exact h r t ht hne j rq hj he
      · obtain ⟨-, -, -, hle⟩ := hr.serves r t ht
        omega
    · rcases hidx with hj | ⟨rfl, -⟩
      · have hle := hold hj
        rw [he] at hle
        dsimp only at hle
        omega
      · rfl
  | @inherit b param toolbox tm _ hb =>
    intro r t ht hne j rq hj he
    rcases mem_listAddTail.mp ht with ht | ⟨-, rfl⟩
    · exact h r t ht hne j rq hj he
    · exact h _ b hb hne j rq hj he
  | addFail | getDead | completeFree | recheckDrop =>
    exact h.of_mem fun r t ht _ => ⟨r, t, (mem_listDel.mp ht).1, rfl, rfl⟩
  | add _ ht | addDyn _ ht => exact hmove ht (.inl rfl) rfl
  | getLeave => exact hjudge _ _
  | getDiscard =>
    exact (hjudge _ _).of_mem fun r t ht _ => ⟨r, t, (mem_listDel.mp ht).1, rfl, rfl⟩
  | getPick _ hp =>
    apply (hjudge _ _).of_mem
    intro r t ht _
    rcases mem_listAddTail.mp ht with ht | ⟨rfl, rfl⟩
    · exact ⟨r, t, (mem_listDel.mp ht).1, rfl, rfl⟩
    · exact ⟨_, t, mem_judged_self hp, rfl, rfl⟩
  | completeRetry _ _ hp => exact hmove hp (.inl rfl) rfl
  | completeRecheck _ _ hp => exact hmove hp (.inr rfl) rfl
  | @relive rest p ret now _ hp =>
    have hgen : peonSnGenerate s.snGen = s.snGen+1 := peonSnGenerate_eq hwrap
    intro r t ht hne j rq hj he
    rcases mem_listAddTail.mp ht with ht | ⟨-, rfl⟩
    · exact h r t (mem_listDel.mp ht).1 hne j rq hj he
    · have hle := hold hj
      rw [he] at hle
      have hsn : (p.relived (peonSnGenerate s.snGen) now).sn = s.snGen+1 := hgen
      omega
  | deconstruct =>
    exact h.of_mem fun r t ht _ => ⟨r, t, (mem_update_nil.mp ht).1, rfl, rfl⟩
  | addStuck | poll | handle | recheck | recheckKeep | unlockGet | unlockRecheck | exit => exact h

theorem log_sublist {s s' : Sched} {l : Label} (hs : step s l = some s') :
    s.log.Sublist s'.log := by
  cases step_cases hs with
  | request | inherit | addFail | add | addDyn | addStuck | poll | getDead | getLeave | getPick |
    handle | completeRetry | completeRecheck | completeFree | recheck | recheckDrop | recheckKeep |
    relive | unlockGet | unlockRecheck | deconstruct | exit => simp
  | getDiscard => simp

/-! Back over a step. -/

/-- Where the tasks after a step come from. -/
theorem task_back {s s' : Sched} {l : Label} (hs : step s l = some s') {r : ListRef} {t : Task}
    (ht : t ∈ s'.list r) : (∃ x, ∃ q ∈ s.list x, SameTask q t) ∨ t.origin.inherited = false ∨
      ∃ b ∈ s.list (.proc (.static .dcbatch)), t.origin.request = b.origin.request ∧
        peonTaskMatch t.param b.param true = true := by
  have hdel : ∀ {a x k}, t ∈ listDel s.list x k a → ∃ x, ∃ q ∈ s.list x, SameTask q t :=
    fun hm => ⟨_, t, (mem_listDel.mp hm).1, rfl, rfl, rfl⟩
  have hmove : ∀ {a b : ListRef} {p q : Task}, p ∈ s.list a →
      t ∈ listAddTail (listDel s.list a p.id) b q r → SameTask p q →
        ∃ x, ∃ q ∈ s.list x, SameTask q t := by
    intro a b p q hp hm hpq
    rcases mem_listAddTail.mp hm with hm | ⟨-, rfl⟩
    · exact hdel hm
    · exact ⟨a, p, hp, hpq⟩
  have hjudge : ∀ {type p a}, t ∈ judgeLists s.list type p a → ∃ x, ∃ q ∈ s.list x, SameTask q t := by
    intro type p a hm
    obtain ⟨q, hq, rfl⟩ := mem_judgeLists.mp hm
    exact ⟨a, q, hq, by simp [SameTask]⟩
  cases step_cases hs with
  | request =>
    rcases mem_listAddTail.mp ht with ht | ⟨-, rfl⟩
    · exact Or.inl ⟨r, t, ht, rfl, rfl, rfl⟩
    · exact Or.inr (.inl rfl)
  | inherit _ hb hm =>
    rcases mem_listAddTail.mp ht with ht | ⟨-, rfl⟩
    · exact Or.inl ⟨r, t, ht, rfl, rfl, rfl⟩
    · exact Or.inr (.inr ⟨_, hb, rfl, hm⟩)
  | addFail | getDead | completeFree | recheckDrop => exact Or.inl (hdel ht)
  | add _ hp | addDyn _ hp => exact Or.inl (hmove hp ht ⟨rfl, rfl, rfl⟩)
  | getLeave => exact Or.inl (hjudge ht)
  | getDiscard => exact Or.inl (hjudge (mem_listDel.mp ht).1)
  | getPick _ hp =>
    rcases mem_listAddTail.mp ht with ht | ⟨-, rfl⟩
    · exact Or.inl (hjudge (mem_listDel.mp ht).1)
    · exact Or.inl ⟨_, t, hp, rfl, rfl, rfl⟩
  | completeRetry _ _ hp => exact Or.inl (hmove hp ht ⟨rfl, rfl, rfl⟩)
  | completeRecheck _ _ hp => exact Or.inl (hmove hp ht ⟨rfl, rfl, rfl⟩)
  | relive _ hp => exact Or.inl (hmove hp ht ⟨rfl, rfl, rfl⟩)
  | deconstruct => exact Or.inl ⟨r, t, (mem_update_nil.mp ht).1, rfl, rfl, rfl⟩
  | addStuck | poll | handle | recheck | recheckKeep | unlockGet | unlockRecheck | exit =>
    exact Or.inl ⟨r, t, ht, rfl, rfl, rfl⟩

/-- A task comes to the peons from where it was filled. -/
theorem added_back {s s' : Sched} {l : Label} (hs : step s l = some s') {d : Task}
    (hd : .added d ∈ s'.log) : .added d ∈ s.log ∨ d ∈ s.list .pending := by
  cases step_cases hs with
  | add _ ht | addDyn _ ht =>
    rcases List.mem_append.mp hd with hd | hd
    · exact Or.inl hd
    · obtain rfl := Event.added.inj (List.mem_singleton.mp hd)
      exact Or.inr ht
  | request | inherit | addFail | addStuck | poll | getDead | getLeave | getDiscard | getPick |
    handle | completeRetry | completeRecheck | completeFree | recheck | recheckDrop | recheckKeep |
    relive | unlockGet | unlockRecheck | deconstruct | exit =>
    simp [judgeDead, judgeDiscard] at hd
    exact Or.inl hd

/-- Who waits for a recheck did so before, or has just been connected. -/
theorem recheck_back {s s' : Sched} {l : Label} (hb : Base s) (hs : step s l = some s') {t : Task}
    (ht : t ∈ s'.list (.wait (.static .recheck))) (hl : t.state = .live) :
    t ∈ s.list (.wait (.static .recheck)) ∨
      ∃ p ∈ s.list (.proc (.static .connect)), p.state = .live ∧ SameTask p t ∧
        ∃ i, s.worker (.static .connect, i) = .handled p.id 0 := by
  cases step_cases hs with
  | request | inherit | addFail | addDyn | getDead | completeFree | recheckDrop | relive |
    deconstruct =>
    simp [mem_listAddTail, mem_listDel] at ht
    tauto
  | add _ hp =>
    simp [mem_listAddTail, mem_listDel] at ht
    rcases ht with ht | ⟨he, -⟩
    · exact Or.inl ht
    · exact absurd he.symm (hb.fit _ _ hp).1
  | getLeave => exact Or.inl (mem_judgeLists_live ht hl).1
  | getDiscard => exact Or.inl (mem_judgeLists_live (mem_listDel.mp ht).1 hl).1
  | @getPick ref i rest p =>
    have ht : t ∈ listDel (judgeLists s.list ref.type p) (.wait ref) p.id
        (.wait (.static .recheck)) := by simpa [mem_listAddTail] using ht
    exact Or.inl (mem_judgeLists_live (mem_listDel.mp ht).1 hl).1
  | completeRetry _ _ hp =>
    simp [mem_listAddTail, mem_listDel] at ht
    rcases ht with ht | ⟨he, -⟩
    · exact Or.inl ht
    · exact absurd he.symm (hb.fit _ _ hp).1
  | completeRecheck _ hw hp hlive hret hc =>
    obtain rfl := eq_connect_of_type hc
    simp [mem_listAddTail, mem_listDel] at ht
    rcases ht with ht | rfl
    · exact Or.inl ht
    · exact Or.inr ⟨_, hp, hlive, ⟨rfl, rfl, rfl⟩, _, hret ▸ hw⟩
  | addStuck | poll | handle | recheck | recheckKeep | unlockGet | unlockRecheck | exit =>
    exact Or.inl ht

end NvmeSnsd.ConnPeon
