import NvmeSnsd.ConnPeon.Sched

/-! What `peon_task_action_judge` does, without its scans: a mark in each
scanned list, and two questions about the lists as they were. -/
namespace NvmeSnsd.ConnPeon
open Lib

def scanOf (scs : List Scan) (r : ListRef) : Option Scan := scs.find? fun sc => sc.list == r

/-- What judging `task` makes of `q`, which is in list `r`. -/
def judgeMark (type : PeonType) (task : Task) (r : ListRef) (q : Task) : Task :=
  match scanOf (judgeScans type) r with
  | some sc => markDead task sc.isbatch q
  | none => q

def judgeLists (l : Lists) (type : PeonType) (task : Task) : Lists :=
  fun r => (l r).map (judgeMark type task r)

/-- A newer task for the target is in a scanned list. -/
def superseded (l : Lists) (type : PeonType) (task : Task) : Bool :=
  (judgeScans type).any fun sc => (l sc.list).any (newer task sc.isbatch)

/-- An older task for the target is being executed, as far as the scans see. -/
def blocked (l : Lists) (type : PeonType) (task : Task) : Bool :=
  (judgeScans type).any fun sc => !sc.iswait && (l sc.list).any (outdated task sc.isbatch)

theorem scanOf_some {scs : List Scan} {r : ListRef} {sc : Scan} (h : scanOf scs r = some sc) :
    sc ∈ scs ∧ sc.list = r :=
  ⟨List.mem_of_find?_eq_some h, by simpa using List.find?_some h⟩

theorem scans_foldl (task : Task) (scs : List Scan) (hn : (scs.map Scan.list).Nodup) (l : Lists)
    (a : TaskAction) :
    scs.foldl (fun acc sc =>
      let r := peonTaskScanList (acc.1 sc.list) task sc.isbatch sc.iswait
      (Function.update acc.1 sc.list r.1, acc.2.or r.2)) (l, a) =
    (fun r => match scanOf scs r with
      | some sc => (l r).map (markDead task sc.isbatch)
      | none => l r,
      a.or ⟨scs.any fun sc => (l sc.list).any (newer task sc.isbatch),
        scs.any fun sc => !sc.iswait && (l sc.list).any (outdated task sc.isbatch)⟩) := by
  induction scs generalizing l a with
  | nil => simp [scanOf, TaskAction.or]
  | cons sc scs ih =>
    rw [List.map_cons, List.nodup_cons] at hn
    -- the later scans look at other lists, which are as they were
    have hother : ∀ x ∈ scs, ∀ m, Function.update l sc.list m x.list = l x.list := by
      intro x hx m
      apply Function.update_of_ne
      intro he
      exact hn.1 (he ▸ List.mem_map_of_mem hx)
    have hany (f : Scan → List Task → Bool) (m : List Task) :
        (scs.any fun x => f x (Function.update l sc.list m x.list)) =
          scs.any fun x => f x (l x.list) := by
      rw [Bool.eq_iff_iff, List.any_eq_true, List.any_eq_true]
      apply exists_congr
      intro x
      apply and_congr_right
      intro hx
      rw [hother x hx]
    rw [List.foldl_cons, ih hn.2]
    refine Prod.ext ?_ ?_
    · funext r
      by_cases hr : sc.list = r
      · subst hr
        have hnone : scanOf scs sc.list = none := by
          apply List.find?_eq_none.mpr
          intro x hx he
          exact hn.1 (beq_iff_eq.mp he ▸ List.mem_map_of_mem hx)
        have hself : scanOf (sc :: scs) sc.list = some sc := by simp [scanOf]
        simp only [hnone, hself, peonTaskScanList_eq, Function.update_self]
      · have hcons : scanOf (sc :: scs) r = scanOf scs r := by
          simp [scanOf, hr]
        simp only [hcons, Function.update_of_ne (Ne.symm hr)]
    · simp only [peonTaskScanList_eq]
      rw [hany fun x m => m.any (newer task x.isbatch),
        hany fun x m => !x.iswait && m.any (outdated task x.isbatch)]
      simp [TaskAction.or, Bool.or_assoc]

theorem judgeLists_eq (l : Lists) (type : PeonType) (task : Task) (r : ListRef) :
    judgeLists l type task r = match scanOf (judgeScans type) r with
      | some sc => (l r).map (markDead task sc.isbatch)
      | none => l r := by
  rw [show judgeLists l type task r = (l r).map fun q => judgeMark type task r q from rfl]
  cases h : scanOf (judgeScans type) r with
  | none => simp only [judgeMark, h, List.map_id']
  | some sc => simp only [judgeMark, h]

theorem peonTaskActionJudge_eq (l : Lists) (type : PeonType) (task : Task) :
    peonTaskActionJudge l type task =
      (judgeLists l type task, ⟨superseded l type task, blocked l type task⟩) := by
  rw [peonTaskActionJudge, scans_foldl task _ (by cases type <;> decide)]
  refine Prod.ext ?_ (by simp [TaskAction.or, TaskAction.none, superseded, blocked])
  funext r
  exact (judgeLists_eq l type task r).symm

theorem superseded_iff {l : Lists} {type : PeonType} {p : Task} : superseded l type p = true ↔
    ∃ sc ∈ judgeScans type, ∃ q ∈ l sc.list, newer p sc.isbatch q = true := by
  simp only [superseded, List.any_eq_true]

theorem blocked_iff {l : Lists} {type : PeonType} {p : Task} : blocked l type p = true ↔
    ∃ sc ∈ judgeScans type, sc.iswait = false ∧ ∃ q ∈ l sc.list, outdated p sc.isbatch q = true := by
  simp only [blocked, List.any_eq_true, Bool.and_eq_true, Bool.not_eq_true']

theorem mem_judgeDead {l : Lists} {type : PeonType} {p : Task} {e : Event} :
    e ∈ judgeDead l type p ↔ ∃ sc ∈ judgeScans type, ∃ q ∈ l sc.list,
      outdated p sc.isbatch q = true ∧ e = .markedDead q p := by
  simp only [judgeDead, List.mem_flatMap, List.mem_map, List.mem_filter, and_assoc, eq_comm]

theorem mem_judgeDiscard {l : Lists} {type : PeonType} {p : Task} {e : Event} :
    e ∈ judgeDiscard l type p ↔ ∃ sc ∈ judgeScans type, ∃ q ∈ l sc.list,
      newer p sc.isbatch q = true ∧ e = .discarded p q := by
  simp only [judgeDiscard, List.mem_flatMap, List.mem_map, List.mem_filter, and_assoc, eq_comm]

/-- The scans keep to the lists of the peons. -/
theorem scan_ne_pending {type : PeonType} {sc : Scan} (h : sc ∈ judgeScans type) :
    sc.list ≠ .pending := by
  revert sc
  cases type <;> decide

/-! A mark changes nothing but the state. -/

theorem judgeMark_eq (type : PeonType) (task : Task) (r : ListRef) (q : Task) :
    judgeMark type task r q = q ∨
      judgeMark type task r q = { q with state := .dead } ∧
        ∃ sc ∈ judgeScans type, sc.list = r ∧ outdated task sc.isbatch q = true := by
  rw [judgeMark]
  cases h : scanOf (judgeScans type) r with
  | none => exact Or.inl rfl
  | some sc =>
    obtain ⟨hsc, hr⟩ := scanOf_some h
    dsimp only [markDead]
    by_cases ho : outdated task sc.isbatch q = true
    · rw [if_pos ho]
      exact Or.inr ⟨rfl, sc, hsc, hr, ho⟩
    · rw [if_neg ho]
      exact Or.inl rfl

section Mark
variable (type : PeonType) (task : Task) (r : ListRef) (q : Task)

@[simp] theorem judgeMark_id : (judgeMark type task r q).id = q.id := by
  rcases judgeMark_eq type task r q with h | ⟨h, -⟩ <;> rw [h]

@[simp] theorem judgeMark_sn : (judgeMark type task r q).sn = q.sn := by
  rcases judgeMark_eq type task r q with h | ⟨h, -⟩ <;> rw [h]

@[simp] theorem judgeMark_param : (judgeMark type task r q).param = q.param := by
  rcases judgeMark_eq type task r q with h | ⟨h, -⟩ <;> rw [h]

@[simp] theorem judgeMark_toolbox : (judgeMark type task r q).toolbox = q.toolbox := by
  rcases judgeMark_eq type task r q with h | ⟨h, -⟩ <;> rw [h]

@[simp] theorem judgeMark_origin : (judgeMark type task r q).origin = q.origin := by
  rcases judgeMark_eq type task r q with h | ⟨h, -⟩ <;> rw [h]

/-- A task that is alive after the scans is as it was. -/
theorem judgeMark_live (h : (judgeMark type task r q).state = .live) :
    judgeMark type task r q = q := by
  rcases judgeMark_eq type task r q with he | ⟨he, -⟩
  · exact he
  · rw [he] at h
    cases h

end Mark

/-! What is in the lists after an operation. -/

theorem mem_listDel {l : Lists} {r x : ListRef} {id : ℕ} {t : Task} :
    t ∈ listDel l r id x ↔ t ∈ l x ∧ (x = r → t.id ≠ id) := by
  by_cases hx : x = r
  · subst hx
    simp [listDel, dropTask]
  · simp [listDel, hx]

theorem mem_listAddTail {l : Lists} {r x : ListRef} {q t : Task} :
    t ∈ listAddTail l r q x ↔ t ∈ l x ∨ x = r ∧ t = q := by
  by_cases hx : x = r
  · subst hx
    simp [listAddTail]
  · simp [listAddTail, hx]

theorem mem_update_nil {l : Lists} {r x : ListRef} {t : Task} :
    t ∈ Function.update l r [] x ↔ t ∈ l x ∧ x ≠ r := by
  by_cases hx : x = r
  · subst hx
    simp
  · simp [hx]

theorem mem_judgeLists {l : Lists} {type : PeonType} {task t : Task} {r : ListRef} :
    t ∈ judgeLists l type task r ↔ ∃ q ∈ l r, judgeMark type task r q = t :=
  List.mem_map

/-- A task alive after the scans was so before. -/
theorem mem_judgeLists_live {l : Lists} {type : PeonType} {task t : Task} {r : ListRef}
    (h : t ∈ judgeLists l type task r) (hl : t.state = .live) :
    t ∈ l r ∧ judgeMark type task r t = t := by
  obtain ⟨q, hq, rfl⟩ := mem_judgeLists.mp h
  have he := judgeMark_live type task r q hl
  rw [he]
  exact ⟨hq, he⟩

end NvmeSnsd.ConnPeon
