import NvmeSnsd.ConnPeon.Steps

/-! What holds of the tasks, the workers and the log in every reachable state. -/
namespace NvmeSnsd.ConnPeon
open Lib

/-- A task is in one list, once, and its address is in use. -/
structure Ids (l : Lists) (n : ℕ) : Prop where
  nodup : ∀ r, ((l r).map Task.id).Nodup
  place : ∀ r x, ∀ t ∈ l r, ∀ u ∈ l x, t.id = u.id → r = x
  lt : ∀ r, ∀ t ∈ l r, t.id < n

namespace Ids
variable {l m : Lists} {n : ℕ}

theorem eq (h : Ids l n) {r x : ListRef} {t u : Task} (ht : t ∈ l r) (hu : u ∈ l x)
    (he : t.id = u.id) : t = u := by
  obtain rfl := h.place r x t ht u hu he
  exact List.inj_on_of_nodup_map (h.nodup r) ht hu he

/-- Fewer tasks, with the same names. -/
theorem of_sublist (h : Ids l n) (hm : ∀ r, ((m r).map Task.id).Sublist ((l r).map Task.id)) :
    Ids m n := by
  have hmem : ∀ r, ∀ t ∈ m r, ∃ q ∈ l r, q.id = t.id := by
    intro r t ht
    exact List.mem_map.mp ((hm r).subset (List.mem_map_of_mem ht))
  refine ⟨fun r => (h.nodup r).sublist (hm r), ?_, ?_⟩
  · intro r x t ht u hu he
    obtain ⟨t', ht', htt⟩ := hmem r t ht
    obtain ⟨u', hu', huu⟩ := hmem x u hu
    exact h.place r x t' ht' u' hu' (by rw [htt, huu, he])
  · intro r t ht
    obtain ⟨t', ht', htt⟩ := hmem r t ht
    exact htt ▸ h.lt r t' ht'

theorem del (h : Ids l n) (r : ListRef) (id : ℕ) : Ids (listDel l r id) n := by
  apply h.of_sublist
  intro x
  apply List.Sublist.map
  by_cases hx : x = r
  · subst hx
    rw [listDel, Function.update_self]
    exact List.filter_sublist
  · rw [listDel, Function.update_of_ne hx]

theorem judge (h : Ids l n) (type : PeonType) (p : Task) : Ids (judgeLists l type p) n := by
  apply h.of_sublist
  intro r
  have hmap : (judgeLists l type p r).map Task.id = (l r).map Task.id := by
    rw [judgeLists, List.map_map]
    apply List.map_congr_left
    intro q _
    exact judgeMark_id type p r q
  rw [hmap]

theorem clear (h : Ids l n) (r : ListRef) : Ids (Function.update l r []) n := by
  apply h.of_sublist
  intro x
  by_cases hx : x = r
  · subst hx
    simp
  · rw [Function.update_of_ne hx]

theorem add (h : Ids l n) {q : Task} {k : ℕ} (r : ListRef) (hq : ∀ x, ∀ t ∈ l x, t.id ≠ q.id)
    (hk : n ≤ k) (hqk : q.id < k) : Ids (listAddTail l r q) k := by
  refine ⟨?_, ?_, ?_⟩
  · intro x
    by_cases hx : x = r
    · subst hx
      rw [listAddTail, Function.update_self, List.map_append, List.nodup_append]
      refine ⟨h.nodup x, List.nodup_singleton _, ?_⟩
      intro a ha b hb
      obtain ⟨t, ht, rfl⟩ := List.mem_map.mp ha
      obtain rfl := List.mem_singleton.mp hb
      exact hq x t ht
    · rw [listAddTail, Function.update_of_ne hx]
      exact h.nodup x
  · intro x y t ht u hu he
    rcases mem_listAddTail.mp ht with ht' | ⟨hx, rfl⟩
    · rcases mem_listAddTail.mp hu with hu' | ⟨-, rfl⟩
      · exact h.place x y t ht' u hu' he
      · exact absurd he (hq x t ht')
    · rcases mem_listAddTail.mp hu with hu' | ⟨hy, -⟩
      · exact absurd he.symm (hq y u hu')
      · rw [hx, hy]
  · intro x t ht
    rcases mem_listAddTail.mp ht with ht | ⟨-, rfl⟩
    · exact (h.lt x t ht).trans_le hk
    · exact hqk

/-- A task is taken out and put into another list, maybe changed. -/
theorem move (h : Ids l n) {r x : ListRef} {p q : Task} (hp : p ∈ l r) (he : q.id = p.id) :
    Ids (listAddTail (listDel l r p.id) x q) n := by
  apply (h.del r p.id).add x _ le_rfl (he ▸ h.lt r p hp)
  intro y t ht
  obtain ⟨hy, hne⟩ := mem_listDel.mp ht
  rw [he]
  intro hid
  exact hne (h.place y r t hy p hp hid) hid

end Ids

theorem mem_judged_self {l : Lists} {type : PeonType} {p : Task} {r : ListRef} (hp : p ∈ l r) :
    p ∈ judgeLists l type p r := by
  refine mem_judgeLists.mpr ⟨p, hp, ?_⟩
  rcases judgeMark_eq type p r p with h | ⟨-, sc, -, -, ho⟩
  · exact h
  · simp [outdated] at ho

theorem ids_step {s s' : Sched} {l : Label} (h : Ids s.list s.nextId) (hs : step s l = some s') :
    Ids s'.list s'.nextId := by
  have hfresh : ∀ r, ∀ t ∈ s.list r, t.id ≠ s.nextId := fun r t ht => (h.lt r t ht).ne
  cases step_cases hs with
  | request _ | inherit => exact h.add _ hfresh (Nat.le_succ _) (Nat.lt_succ_self _)
  | addFail | getDead | completeFree | recheckDrop => exact h.del _ _
  | add _ ht | addDyn _ ht => exact h.move ht rfl
  | completeRetry _ _ hp | completeRecheck _ _ hp => exact h.move hp rfl
  | relive _ hp => exact h.move hp rfl
  | getLeave => exact h.judge _ _
  | getDiscard => exact (h.judge _ _).del _ _
  | getPick _ hp => exact (h.judge _ _).move (mem_judged_self hp) rfl
  | deconstruct => exact h.clear _
  | addStuck | poll | handle | recheck | recheckKeep | unlockGet | unlockRecheck | exit => exact h

/-! The connect peon has one worker, which has at most one task. -/

def connectIds (l : Lists) : List ℕ := (l (.proc (.static .connect))).map Task.id

/-- The tasks in execution, by where the worker stands. -/
def ConnectProc : Worker → List ℕ → Prop
  | .idle, ids => ids = []
  | .running id, ids | .handled id _, ids => ids = [id]
  | _, _ => False

structure WorkersOk (s : Sched) : Prop where
  holder : ∀ ref i rest, s.holder = .get ref i rest →
    s.worker (ref, i) = .idle ∧ ref ≠ .static .recheck
  single : ∀ i, i ≠ 0 → s.worker (.static .connect, i) = .absent
  connect : ConnectProc (s.worker (.static .connect, 0)) (connectIds s.list)

@[simp] theorem connectIds_judge (l : Lists) (type : PeonType) (p : Task) :
    connectIds (judgeLists l type p) = connectIds l := by
  rw [connectIds, judgeLists, List.map_map]
  apply List.map_congr_left
  intro q _
  exact judgeMark_id ..

theorem connectIds_add {l : Lists} (r : ListRef) {q : Task} (h : r ≠ .proc (.static .connect)) :
    connectIds (listAddTail l r q) = connectIds l := by
  rw [connectIds, listAddTail, Function.update_of_ne h.symm, connectIds]

theorem connectIds_del {l : Lists} (r : ListRef) {id : ℕ} (h : r ≠ .proc (.static .connect)) :
    connectIds (listDel l r id) = connectIds l := by
  rw [connectIds, listDel, Function.update_of_ne h.symm, connectIds]

theorem connectIds_pick {l : Lists} (r : ListRef) {p : Task} (h : connectIds l = [])
    (hr : r ≠ .proc (.static .connect)) :
    connectIds (listAddTail (listDel l r p.id) (.proc (.static .connect)) p) = [p.id] := by
  have hl : connectIds (listDel l r p.id) = [] := (connectIds_del r hr).trans h
  rw [connectIds] at hl
  rw [connectIds, listAddTail, Function.update_self, List.map_append, hl]
  rfl

theorem connectIds_complete {l : Lists} {id : ℕ} (h : connectIds l = [id]) :
    connectIds (listDel l (.proc (.static .connect)) id) = [] := by
  rw [connectIds, listDel, Function.update_self, List.map_eq_nil_iff, dropTask,
    List.filter_eq_nil_iff]
  intro t ht
  have hid := List.mem_map_of_mem (f := Task.id) ht
  rw [show (l (.proc (.static .connect))).map Task.id = [id] from h, List.mem_singleton] at hid
  simp [hid]

namespace WorkersOk
variable {s s' : Sched}

theorem of_same (h : WorkersOk s) (hw : s'.worker = s.worker)
    (hc : connectIds s'.list = connectIds s.list)
    (hh : ∀ ref i rest, s'.holder = .get ref i rest →
      s.worker (ref, i) = .idle ∧ ref ≠ .static .recheck) : WorkersOk s' := by
  refine ⟨?_, ?_, ?_⟩
  · rw [hw]
    exact hh
  · rw [hw]
    exact h.single
  · rw [hw, hc]
    exact h.connect

/-- One worker goes on to `w`. -/
theorem set (h : WorkersOk s) {ref : PeonRef} {i : ℕ} (w : Worker)
    (hw : s'.worker = Function.update s.worker (ref, i) w)
    (hold : s.worker (ref, i) ≠ .idle ∧ s'.holder = s.holder ∨ s'.holder = .free)
    (hp : ref ≠ .static .connect ∨ s.worker (ref, i) ≠ .absent)
    (hc : ref = .static .connect → ConnectProc w (connectIds s'.list))
    (hn : ref ≠ .static .connect → connectIds s'.list = connectIds s.list) : WorkersOk s' := by
  refine ⟨?_, ?_, ?_⟩
  · intro ref' i' rest hh
    rcases hold with ⟨hne, he⟩ | he
    · rw [he] at hh
      obtain ⟨hidle, hr⟩ := h.holder _ _ _ hh
      rw [hw, Function.update_of_ne, hidle]
      · exact ⟨rfl, hr⟩
      · rintro hk
        exact hne (hk ▸ hidle)
    · rw [he] at hh
      cases hh
  · intro j hj
    rw [hw, Function.update_of_ne, h.single j hj]
    rintro hk
    obtain ⟨rfl, rfl⟩ := Prod.mk.inj hk
    exact hp.elim (fun hp => hp rfl) fun hp => hp (h.single _ hj)
  · by_cases hr : ref = .static .connect
    · subst hr
      have hi : i = 0 := by
        by_contra hi
        exact hp.elim (fun hp => hp rfl) fun hp => hp (h.single i hi)
      rw [hw, hi, Function.update_self]
      exact hc rfl
    · rw [hw, Function.update_of_ne, hn hr]
      · exact h.connect
      · intro hk
        exact hr (Prod.mk.inj hk).1.symm

/-- The task in execution on the connect peon is that of its worker. -/
theorem connect_zero (h : WorkersOk s) {i : ℕ} {w : Worker}
    (hw : s.worker (.static .connect, i) = w) (hp : w ≠ .absent) :
    i = 0 ∧ ConnectProc w (connectIds s.list) := by
  have hi : i = 0 := by
    by_contra hi
    exact hp (hw ▸ h.single i hi)
  subst hi
  exact ⟨rfl, hw ▸ h.connect⟩

end WorkersOk

theorem workersOk_step {s s' : Sched} {l : Label} (h : WorkersOk s) (hs : step s l = some s') :
    WorkersOk s' := by
  -- the round of a worker of `ref` ends, with its task taken off `proc_list`
  have hround : ∀ {ref : PeonRef} {i : ℕ} {p : Task} {ret : ℤ} {m : Lists},
      s.worker (ref, i) = .handled p.id ret →
      connectIds m = connectIds (listDel s.list (.proc ref) p.id) →
      ∀ {s' : Sched}, s'.worker = Function.update s.worker (ref, i) (afterRound ref) →
        s'.holder = .free → s'.list = m → WorkersOk s' := by
    intro ref i p ret m hw hm s' hw' hf hl
    apply h.set (afterRound ref) hw' (.inr hf) (.inr (hw ▸ nofun))
    · rintro rfl
      rw [hl, hm]
      exact connectIds_complete (h.connect_zero hw nofun).2
    · intro hr
      rw [hl, hm]
      exact connectIds_del _ (by simpa using hr)
  cases step_cases hs with
  | request | inherit => exact h.of_same rfl (connectIds_add .pending nofun) h.holder
  | addFail => exact h.of_same rfl (connectIds_del .pending nofun) h.holder
  | add hh =>
    exact h.of_same rfl ((connectIds_add (.wait _) nofun).trans (connectIds_del .pending nofun))
      h.holder
  | addDyn hh =>
    exact h.set .idle rfl (.inr hh) (.inl nofun) nofun
      fun _ => (connectIds_add (.wait _) nofun).trans (connectIds_del .pending nofun)
  | poll hh hw hr => exact h.of_same rfl rfl fun _ _ _ he => by cases he; exact ⟨hw, hr⟩
  | getDead hh =>
    exact h.of_same rfl (connectIds_del (.wait _) nofun) fun _ _ _ he => by cases he; exact h.holder _ _ _ hh
  | getLeave hh =>
    exact h.of_same rfl (connectIds_judge ..) fun _ _ _ he => by cases he; exact h.holder _ _ _ hh
  | getDiscard hh =>
    exact h.of_same rfl ((connectIds_del (.wait _) nofun).trans (connectIds_judge ..))
      fun _ _ _ he => by cases he; exact h.holder _ _ _ hh
  | @getPick ref i rest p now hh hp =>
    have hidle := (h.holder _ _ _ hh).1
    apply h.set (.running p.id) rfl (.inr rfl) (.inr (hidle ▸ nofun))
    · rintro rfl
      refine connectIds_pick (.wait _) ?_ nofun
      exact (connectIds_judge ..).trans (h.connect_zero hidle nofun).2
    · intro hr
      exact (connectIds_add _ (by simpa using hr)).trans
        ((connectIds_del (.wait _) nofun).trans (connectIds_judge ..))
  | @handle ref i p ret hw =>
    refine h.set (.handled p.id ret) rfl (.inl ⟨hw ▸ nofun, rfl⟩) (.inr (hw ▸ nofun)) ?_ ?_
    · rintro rfl
      exact (h.connect_zero hw nofun).2
    · exact fun _ => rfl
  | completeRetry hh hw => exact hround hw (connectIds_add (.wait _) nofun) rfl hh rfl
  | completeRecheck hh hw => exact hround hw (connectIds_add (.wait _) nofun) rfl hh rfl
  | completeFree hh hw => exact hround hw rfl rfl hh rfl
  | addStuck | recheck => exact h.of_same rfl rfl nofun
  | recheckDrop => exact h.of_same rfl (connectIds_del (.wait _) nofun) nofun
  | recheckKeep => exact h.of_same rfl rfl nofun
  | relive => exact h.of_same rfl ((connectIds_add (.wait _) nofun).trans (connectIds_del (.wait _) nofun)) nofun
  | @unlockGet ref i hh =>
    have hidle := (h.holder _ _ _ hh).1
    apply h.set (afterRound ref) rfl (.inr rfl) (.inr (hidle ▸ nofun))
    · rintro rfl
      exact (h.connect_zero hidle nofun).2
    · exact fun _ => rfl
  | unlockRecheck => exact h.of_same rfl rfl nofun
  | deconstruct hh =>
    exact h.set .exiting rfl (.inr hh) (.inl nofun) nofun fun _ => rfl
  | exit hh => exact h.set .absent rfl (.inr hh) (.inl nofun) nofun fun _ => rfl

/-! Which tasks a list holds. -/

/-- A task on a peon of this kind was made for it, or was relieved by the
connect peon. -/
def FitsPeon (type : PeonType) (t : Task) : Prop :=
  if type = .recheck then t.origin.type = .connect ∧ t.sn = 0 else t.origin.type = type ∧ t.sn ≠ 0

def Fits : ListRef → Task → Prop
  | .pending, t => t.origin.type ≠ .recheck ∧ t.sn ≠ 0 ∧ t.state = .live
  | .wait ref, t => FitsPeon ref.type t
  | .proc ref, t => ref ≠ .static .recheck ∧ FitsPeon ref.type t

def AllFit (l : Lists) : Prop := ∀ r, ∀ t ∈ l r, Fits r t

theorem fitsPeon_of_ne (type : PeonType) (h : type ≠ .recheck) {t : Task} :
    FitsPeon type t ↔ t.origin.type = type ∧ t.sn ≠ 0 := by
  rw [FitsPeon, if_neg h]

theorem fitsPeon_recheck {t : Task} :
    FitsPeon .recheck t ↔ t.origin.type = .connect ∧ t.sn = 0 := by
  rw [FitsPeon, if_pos rfl]

theorem FitsPeon.congr {type : PeonType} {t u : Task} (h : FitsPeon type t) (hs : u.sn = t.sn)
    (ho : u.origin = t.origin) : FitsPeon type u := by
  rw [FitsPeon, hs, ho]
  exact h

theorem peonSnGenerate_ne_zero (gen : ℕ) : peonSnGenerate gen ≠ 0 := by
  rw [peonSnGenerate]
  split
  · rename_i h
    rw [h]
    decide
  · assumption

namespace AllFit
variable {l : Lists}

theorem add (h : AllFit l) {r : ListRef} {q : Task} (hq : Fits r q) :
    AllFit (listAddTail l r q) := by
  intro x t ht
  rcases mem_listAddTail.mp ht with ht | ⟨rfl, rfl⟩
  · exact h x t ht
  · exact hq

theorem del (h : AllFit l) (r : ListRef) (id : ℕ) : AllFit (listDel l r id) :=
  fun x t ht => h x t (mem_listDel.mp ht).1

theorem judge (h : AllFit l) (type : PeonType) (p : Task) : AllFit (judgeLists l type p) := by
  intro r t ht
  obtain ⟨q, hq, rfl⟩ := mem_judgeLists.mp ht
  have hf := h r q hq
  cases r with
  | pending =>
    rcases judgeMark_eq type p .pending q with he | ⟨-, sc, hsc, hr, -⟩
    · rw [he]
      exact hf
    · exact absurd hr (scan_ne_pending hsc)
  | wait ref => exact FitsPeon.congr hf (judgeMark_sn ..) (judgeMark_origin ..)
  | proc ref => exact ⟨hf.1, hf.2.congr (judgeMark_sn ..) (judgeMark_origin ..)⟩

end AllFit

theorem allFit_step {s s' : Sched} {l : Label} (hw : WorkersOk s) (h : AllFit s.list)
    (hs : step s l = some s') : AllFit s'.list := by
  cases step_cases hs with
  | request htype => exact h.add ⟨htype, peonSnGenerate_ne_zero _, rfl⟩
  | inherit _ hb =>
    have hf := (fitsPeon_of_ne .dcbatch nofun).mp (h _ _ hb).2
    exact h.add ⟨nofun, hf.2, rfl⟩
  | addFail | getDead | completeFree | recheckDrop => exact h.del _ _
  | add _ ht =>
    obtain ⟨htype, hsn, -⟩ := h _ _ ht
    exact (h.del _ _).add ((fitsPeon_of_ne _ htype).mpr ⟨rfl, hsn⟩)
  | addDyn _ ht hc =>
    obtain ⟨-, hsn, -⟩ := h _ _ ht
    exact (h.del _ _).add ((fitsPeon_of_ne .disconn nofun).mpr ⟨hc.1, hsn⟩)
  | completeRetry _ _ hp => exact (h.del _ _).add ((h _ _ hp).2.congr rfl rfl)
  | completeRecheck _ _ hp _ _ hc =>
    have hf := (h _ _ hp).2
    rw [hc, fitsPeon_of_ne .connect nofun] at hf
    exact (h.del _ _).add (fitsPeon_recheck.mpr ⟨hf.1, rfl⟩)
  | relive _ hp =>
    have hf := fitsPeon_recheck.mp (h _ _ hp)
    exact (h.del _ _).add
      ((fitsPeon_of_ne .connect nofun).mpr ⟨hf.1, peonSnGenerate_ne_zero s.snGen⟩)
  | getLeave => exact h.judge _ _
  | getDiscard => exact (h.judge _ _).del _ _
  | getPick hh hp =>
    exact ((h.judge _ _).del _ _).add ⟨(hw.holder _ _ _ hh).2, h (.wait _) _ hp⟩
  | deconstruct => exact fun r t ht => h r t (mem_update_nil.mp ht).1
  | addStuck | poll | handle | recheck | recheckKeep | unlockGet | unlockRecheck | exit => exact h

/-! Who dies. -/

/-- A batch goes by the host side, and so does whoever meets one. -/
def isBatch (a b : PeonType) : Bool := a == .dcbatch || b == .dcbatch

/-- `o` is a newer task for the target of `p`. -/
def Beaten (p o : Task) : Prop :=
  peonTaskMatch p.param o.param (isBatch p.origin.type o.origin.type) = true ∧ p.sn < o.sn

/-- The log tells which newer task for its target `t` had to yield to. -/
def Overruled (log : List Event) (t : Task) : Prop :=
  ∃ p o, (.markedDead p o ∈ log ∨ .discarded p o ∈ log) ∧ p.id = t.id ∧ p.param = t.param ∧
    Beaten p o

theorem Overruled.mono {log log' : List Event} {t : Task} (h : Overruled log t)
    (hl : log.Sublist log') : Overruled log' t := by
  obtain ⟨p, o, he, hp⟩ := h
  exact ⟨p, o, he.imp (hl.subset ·) (hl.subset ·), hp⟩

theorem Overruled.congr {log : List Event} {t u : Task} (h : Overruled log t) (hi : u.id = t.id)
    (hp : u.param = t.param) : Overruled log u := by
  rw [Overruled, hi, hp]
  exact h

/-- The scans ask for a match at the level that the two kinds of tasks ask for. -/
theorem scan_isBatch {type : PeonType} {sc : Scan} {p q : Task} (hsc : sc ∈ judgeScans type)
    (hp : FitsPeon type p) (hq : Fits sc.list q) :
    sc.isbatch = isBatch q.origin.type p.origin.type := by
  cases type with
  | recheck => cases hsc
  | connect | disconn | dcbatch =>
    simp only [judgeScans, List.mem_cons, List.not_mem_nil, or_false] at hsc
    rcases hsc with rfl | rfl | rfl | rfl | rfl | rfl | rfl <;>
      simp_all [Fits, FitsPeon, PeonRef.type, isBatch]

theorem isBatch_comm (a b : PeonType) : isBatch a b = isBatch b a := Bool.or_comm ..

section Judge
variable {l : Lists} {type : PeonType} {p : Task} (h : AllFit l) (hp : FitsPeon type p)
include h hp

theorem outdated_beaten {sc : Scan} (hsc : sc ∈ judgeScans type) {q : Task} (hq : q ∈ l sc.list)
    (ho : outdated p sc.isbatch q = true) : Beaten q p := by
  obtain ⟨-, hm, hlt⟩ := outdated_iff.mp ho
  rw [scan_isBatch hsc hp (h _ q hq)] at hm
  exact ⟨hm, hlt⟩

theorem newer_beats {sc : Scan} (hsc : sc ∈ judgeScans type) {q : Task} (hq : q ∈ l sc.list)
    (hn : newer p sc.isbatch q = true) : Beaten p q := by
  obtain ⟨-, hm, hlt⟩ := newer_iff.mp hn
  rw [scan_isBatch hsc hp (h _ q hq), isBatch_comm] at hm
  exact ⟨peonTaskMatch_symm hm, hlt⟩

/-- Whoever is dead after the scans was so before, or the log tells why. -/
theorem judgeMark_dead {r : ListRef} {q : Task} (hq : q ∈ l r)
    (hd : (judgeMark type p r q).state = .dead) :
    q.state = .dead ∨ Overruled (judgeDead l type p) q := by
  rcases judgeMark_eq type p r q with he | ⟨-, sc, hsc, rfl, ho⟩
  · rw [he] at hd
    exact Or.inl hd
  · exact Or.inr ⟨q, p, .inl (mem_judgeDead.mpr ⟨sc, hsc, q, hq, ho, rfl⟩), rfl, rfl,
      outdated_beaten h hp hsc hq ho⟩

theorem overruled_of_superseded (hs : superseded l type p = true) :
    Overruled (judgeDiscard l type p) p := by
  obtain ⟨sc, hsc, q, hq, hn⟩ := superseded_iff.mp hs
  exact ⟨p, q, .inr (mem_judgeDiscard.mpr ⟨sc, hsc, q, hq, hn, rfl⟩), rfl, rfl,
    newer_beats h hp hsc hq hn⟩

end Judge

/-- Every dead task in a list has its entry in the log. -/
def DeadLogged (l : Lists) (log : List Event) : Prop :=
  ∀ r, ∀ t ∈ l r, t.state = .dead → Overruled log t

namespace DeadLogged
variable {l : Lists} {log : List Event}

theorem mono (h : DeadLogged l log) (es : List Event) : DeadLogged l (log ++ es) :=
  fun r t ht hd => (h r t ht hd).mono (List.sublist_append_left ..)

theorem del (h : DeadLogged l log) (r : ListRef) (id : ℕ) : DeadLogged (listDel l r id) log :=
  fun x t ht hd => h x t (mem_listDel.mp ht).1 hd

theorem add (h : DeadLogged l log) {r : ListRef} {q : Task} (hq : q.state = .live) :
    DeadLogged (listAddTail l r q) log := by
  intro x t ht hd
  rcases mem_listAddTail.mp ht with ht | ⟨-, rfl⟩
  · exact h x t ht hd
  · rw [hq] at hd
    cases hd

theorem judge (h : DeadLogged l log) (hf : AllFit l) {type : PeonType} {p : Task}
    (hp : FitsPeon type p) : DeadLogged (judgeLists l type p) (log ++ judgeDead l type p) := by
  intro r t ht hd
  obtain ⟨q, hq, rfl⟩ := mem_judgeLists.mp ht
  rcases judgeMark_dead hf hp hq hd with hq' | ho
  · exact ((h r q hq hq').mono (List.sublist_append_left ..)).congr (by simp) (by simp)
  · exact (ho.mono (List.sublist_append_right ..)).congr (by simp) (by simp)

end DeadLogged

theorem deadLogged_step {s s' : Sched} {l : Label} (hf : AllFit s.list)
    (h : DeadLogged s.list s.log) (hs : step s l = some s') : DeadLogged s'.list s'.log := by
  cases step_cases hs with
  | request | inherit => exact h.add rfl
  | addFail => exact h.del _ _
  | getDead | completeFree | recheckDrop => exact (h.del _ _).mono _
  | add _ ht | addDyn _ ht => exact ((h.del _ _).add (hf _ _ ht).2.2).mono _
  | completeRetry _ _ _ hlive | completeRecheck _ _ _ hlive => exact (h.del _ _).add hlive
  | relive => exact ((h.del _ _).add rfl).mono _
  | getLeave _ hp => exact h.judge hf (hf _ _ hp)
  | getDiscard _ hp => exact (((h.judge hf (hf _ _ hp)).del _ _).mono _).mono _
  | getPick _ hp hlive => exact ((h.judge hf (hf _ _ hp)).del _ _).add hlive
  | deconstruct => exact DeadLogged.mono (fun r t ht => h r t (mem_update_nil.mp ht).1) _
  | handle => exact h.mono _
  | addStuck | poll | recheck | recheckKeep | unlockGet | unlockRecheck | exit => exact h

/-! Dynamic peons have one worker each, and are numbered as they are made. -/

@[simp] theorem judgeLists_dyn (l : Lists) (type : PeonType) (p : Task) (k : ℕ) :
    judgeLists l type p (.wait (.dyn k)) = l (.wait (.dyn k)) := by
  rw [judgeLists_eq, show scanOf (judgeScans type) (.wait (.dyn k)) = none by
    cases type <;> rfl]

theorem update_dyn_of_ne {f : PeonRef × ℕ → Worker} {x k i j : ℕ} {w : Worker}
    (h : (x, i) ≠ (k, j)) : Function.update f (.dyn k, j) w (.dyn x, i) = f (.dyn x, i) := by
  rw [Function.update_of_ne]
  intro he
  simp only [Prod.mk.injEq, PeonRef.dyn.injEq] at he
  exact h (Prod.ext he.1 he.2)

structure DynWorkers (s : Sched) : Prop where
  single : ∀ k i, i ≠ 0 → s.worker (.dyn k, i) = .absent
  fresh : ∀ k, s.nextDyn ≤ k →
    s.worker (.dyn k, 0) = .absent ∧ s.list (.wait (.dyn k)) = []

namespace DynWorkers
variable {s s' : Sched}

theorem zero (h : DynWorkers s) {k i : ℕ} {w : Worker} (hw : s.worker (.dyn k, i) = w)
    (hne : w ≠ .absent) : i = 0 := by
  by_contra hi
  exact hne (hw ▸ h.single k i hi)

theorem lt (h : DynWorkers s) {k : ℕ} {w : Worker} (hw : s.worker (.dyn k, 0) = w)
    (hne : w ≠ .absent) : k < s.nextDyn := by
  by_contra hk
  exact hne (hw ▸ (h.fresh k (Nat.le_of_not_lt hk)).1)

theorem of_same (h : DynWorkers s) (hw : ∀ k i, s'.worker (.dyn k, i) = s.worker (.dyn k, i))
    (hn : s'.nextDyn = s.nextDyn)
    (hl : ∀ k, s.list (.wait (.dyn k)) = [] → s'.list (.wait (.dyn k)) = []) : DynWorkers s' := by
  refine ⟨fun k i hi => (hw k i).trans (h.single k i hi), fun k hk => ?_⟩
  obtain ⟨ha, he⟩ := h.fresh k (hn ▸ hk)
  exact ⟨(hw k 0).trans ha, hl k he⟩

/-- The worker of a peon that has been made goes on to `w`. -/
theorem set (h : DynWorkers s) {k i : ℕ} {w : Worker} (hk : s.worker (.dyn k, i) ≠ .absent)
    (hw : s'.worker = Function.update s.worker (.dyn k, i) w) (hn : s'.nextDyn = s.nextDyn)
    (hl : ∀ x, x ≠ k → s.list (.wait (.dyn x)) = [] → s'.list (.wait (.dyn x)) = []) :
    DynWorkers s' := by
  obtain rfl := h.zero rfl hk
  have hother : ∀ x i, (x, i) ≠ (k, 0) → s'.worker (.dyn x, i) = s.worker (.dyn x, i) :=
    fun x i hne => hw ▸ update_dyn_of_ne hne
  refine ⟨fun x i hi => (hother x i (by simp [hi])).trans (h.single x i hi), fun x hx => ?_⟩
  have hxk : x ≠ k := by
    rintro rfl
    exact hk (h.fresh x (hn ▸ hx)).1
  obtain ⟨ha, he⟩ := h.fresh x (hn ▸ hx)
  exact ⟨(hother x 0 (by simp [hxk])).trans ha, hl x hxk he⟩

end DynWorkers

theorem dynWorkers_step {s s' : Sched} {l : Label} (hwk : WorkersOk s) (h : DynWorkers s)
    (hs : step s l = some s') : DynWorkers s' := by
  cases step_cases hs with
  | request | inherit | addFail | add | relive | recheckDrop =>
    exact h.of_same (fun _ _ => rfl) rfl fun k he => by simp [listAddTail, listDel, he]
  | addDyn =>
    refine ⟨fun k i hi => ?_, fun k hk => ?_⟩
    · simp [hi, h.single k i hi]
    · obtain ⟨ha, he⟩ := h.fresh k (Nat.le_of_succ_le hk)
      have hne : k ≠ s.nextDyn := (Nat.lt_of_succ_le hk).ne'
      simp [listAddTail, listDel, hne, ha, he]
  | getDead | getLeave | getDiscard =>
    refine h.of_same (fun _ _ => rfl) rfl fun k he => List.eq_nil_iff_forall_not_mem.mpr ?_
    intro t ht
    simp [mem_listDel, he] at ht
  | addStuck | poll | recheck | recheckKeep | unlockRecheck =>
    exact h.of_same (fun _ _ => rfl) rfl fun k he => he
  | @getPick ref i rest p now hh =>
    have hlist : ∀ k, s.list (.wait (.dyn k)) = [] →
        listAddTail (listDel (judgeLists s.list ref.type p) (.wait ref) p.id) (.proc ref) p
          (.wait (.dyn k)) = [] := by
      intro k he
      apply List.eq_nil_iff_forall_not_mem.mpr
      intro t ht
      simp [mem_listAddTail, mem_listDel, he] at ht
    cases ref with
    | static type => exact h.of_same (fun _ _ => by simp) rfl hlist
    | dyn k =>
      exact h.set (by simp [(hwk.holder _ _ _ hh).1]) rfl rfl fun x _ => hlist x
  | @handle ref i p ret hw =>
    cases ref with
    | static type => exact h.of_same (fun _ _ => by simp) rfl fun k he => he
    | dyn k => exact h.set (by simp [hw]) rfl rfl fun x _ he => he
  | @completeRetry ref i p ret now hh hw =>
    cases ref with
    | static type =>
      exact h.of_same (fun _ _ => by simp) rfl fun k he => by simp [listAddTail, listDel, he]
    | dyn k =>
      refine h.set (by simp [hw]) rfl rfl fun x hx he => ?_
      simp [listAddTail, listDel, hx, he]
  | @completeRecheck ref i p ret now hh hw hp _ _ hc =>
    cases ref with
    | static type =>
      exact h.of_same (fun _ _ => by simp) rfl fun k he => by simp [listAddTail, listDel, he]
    | dyn k => cases hc
  | @completeFree ref i p ret now hh hw =>
    cases ref with
    | static type =>
      exact h.of_same (fun _ _ => by simp) rfl fun k he => by simp [listDel, he]
    | dyn k =>
      refine h.set (by simp [hw]) rfl rfl fun x hx he => ?_
      simp [listDel, he]
  | @unlockGet ref i hh =>
    cases ref with
    | static type => exact h.of_same (fun _ _ => by simp) rfl fun k he => he
    | dyn k => exact h.set (by simp [(hwk.holder _ _ _ hh).1]) rfl rfl fun x _ he => he
  | deconstruct hh hw =>
    refine h.set (by simp [hw]) rfl rfl fun x hx he => ?_
    simp [hx, he]
  | exit hh hw => exact h.set (by simp [hw]) rfl rfl fun x _ he => he

/-- What every reachable state keeps. -/
structure Base (s : Sched) : Prop where
  ids : Ids s.list s.nextId
  fit : AllFit s.list
  dead : DeadLogged s.list s.log
  workers : WorkersOk s
  dyn : DynWorkers s

theorem base_init (cfgRestrainTime : ℕ) : Base (Sched.init cfgRestrainTime) := by
  have hempty : ∀ r, ∀ t, t ∉ (Sched.init cfgRestrainTime).list r := fun r t => List.not_mem_nil
  refine ⟨⟨fun _ => List.nodup_nil, fun r _ t ht => absurd ht (hempty r t),
    fun r t ht => absurd ht (hempty r t)⟩, fun r t ht => absurd ht (hempty r t),
    fun r t ht => absurd ht (hempty r t), ⟨fun _ _ _ hh => ?_, fun i hi => ?_, rfl⟩,
    ⟨fun _ _ _ => rfl, fun _ _ => ⟨rfl, rfl⟩⟩⟩
  · cases hh
  · have hlt : ¬i < peonConnectWorkerNum := by
      rw [peonConnectWorkerNum]
      omega
    exact if_neg hlt

theorem base_step {s s' : Sched} {l : Label} (h : Base s) (hs : step s l = some s') : Base s' :=
  ⟨ids_step h.ids hs, allFit_step h.workers h.fit hs, deadLogged_step h.fit h.dead hs,
    workersOk_step h.workers hs, dynWorkers_step h.workers h.dyn hs⟩

theorem base_run {cfgRestrainTime : ℕ} {ls : List Label} {s : Sched}
    (hr : run step (Sched.init cfgRestrainTime) ls = some s) : Base s :=
  run_invariant (I := Base) (fun _ _ _ => base_step) (base_init cfgRestrainTime) hr

end NvmeSnsd.ConnPeon
