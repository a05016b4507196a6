import Mathlib.Algebra.BigOperators.Group.List.Basic
import Mathlib.Tactic

/-! Lists that are edited: entries are kept up to a relation, added and dropped. -/
namespace NvmeSnsd.Lib
variable {α M : Type*} {Same : α → α → Prop} {New Drop : α → Prop} {l m l' m' : List α}

inductive Edited (Same : α → α → Prop) (New Drop : α → Prop) : List α → List α → Prop
  | nil : Edited Same New Drop [] []
  | keep {x y l m} (same : Same x y) (rest : Edited Same New Drop l m) :
    Edited Same New Drop (x :: l) (y :: m)
  | add {y l m} (new : New y) (rest : Edited Same New Drop l m) : Edited Same New Drop l (y :: m)
  | drop {x l m} (gone : Drop x) (rest : Edited Same New Drop l m) :
    Edited Same New Drop (x :: l) m

theorem Edited.refl (hsame : ∀ x, Same x x) (l : List α) : Edited Same New Drop l l := by
  induction l with
  | nil => exact .nil
  | cons x l ih => exact .keep (hsame x) ih

theorem Edited.append (h : Edited Same New Drop l m) (h' : Edited Same New Drop l' m') :
    Edited Same New Drop (l ++ l') (m ++ m') := by
  induction h with
  | nil => exact h'
  | keep same _ ih => exact .keep same ih
  | add new _ ih => exact .add new ih
  | drop gone _ ih => exact .drop gone ih

/-- Entries that are dropped in front. -/
theorem edited_drops {pre : List α} (hpre : ∀ x ∈ pre, Drop x) (h : Edited Same New Drop l m) :
    Edited Same New Drop (pre ++ l) m := by
  induction pre with
  | nil => exact h
  | cons x pre ih =>
    exact .drop (hpre x List.mem_cons_self) (ih fun y hy => hpre y (List.mem_cons_of_mem _ hy))

/-- The first entry that is left was added, or kept behind entries that were dropped. -/
theorem edited_cons {y : α} (h : Edited Same New Drop l (y :: m)) :
    ∃ pre rest, (∀ x ∈ pre, Drop x) ∧ Edited Same New Drop rest m ∧
      ((∃ x, l = pre ++ x :: rest ∧ Same x y) ∨ l = pre ++ rest ∧ New y) := by
  generalize hm : y :: m = k at h
  induction h with
  | nil => cases hm
  | keep same rest =>
    obtain ⟨rfl, rfl⟩ := List.cons.inj hm
    exact ⟨[], _, fun _ hx => absurd hx List.not_mem_nil, rest, Or.inl ⟨_, rfl, same⟩⟩
  | add new rest =>
    obtain ⟨rfl, rfl⟩ := List.cons.inj hm
    exact ⟨[], _, fun _ hx => absurd hx List.not_mem_nil, rest, Or.inr ⟨rfl, new⟩⟩
  | @drop x l _ gone _ ih =>
    obtain ⟨pre, rest, hpre, hrest, hl⟩ := ih hm
    refine ⟨x :: pre, rest, List.forall_mem_cons.mpr ⟨gone, hpre⟩, hrest, ?_⟩
    exact hl.imp (fun ⟨z, hz, hzy⟩ => ⟨z, congrArg (x :: ·) hz, hzy⟩) (And.imp_left (congrArg (x :: ·)))

theorem Edited.trans {n : List α} (hsame : ∀ x y z, Same x y → Same y z → Same x z)
    (hnew : ∀ y z, New y → Same y z → New z) (hdrop : ∀ x y, Same x y → Drop y → Drop x)
    (h : Edited Same New Drop l m) (h' : Edited Same New Drop m n) : Edited Same New Drop l n := by
  induction h' generalizing l with
  | nil => exact h
  | keep same _ ih =>
    obtain ⟨pre, rest, hpre, hrest, ⟨x, rfl, hx⟩ | ⟨rfl, hy⟩⟩ := edited_cons h
    · exact edited_drops hpre (.keep (hsame _ _ _ hx same) (ih hrest))
    · exact edited_drops hpre (.add (hnew _ _ hy same) (ih hrest))
  | add new _ ih => exact .add new (ih h)
  | drop gone _ ih =>
    obtain ⟨pre, rest, hpre, hrest, ⟨x, rfl, hx⟩ | ⟨rfl, -⟩⟩ := edited_cons h
    · exact edited_drops hpre (.drop (hdrop _ _ hx gone) (ih hrest))
    · exact edited_drops hpre (ih hrest)

/-- A pass that drops entries and changes the others. -/
theorem edited_filterMap {f : α → Option α} (hsome : ∀ x ∈ l, ∀ y, f x = some y → Same x y)
    (hnone : ∀ x ∈ l, f x = none → Drop x) : Edited Same New Drop l (l.filterMap f) := by
  induction l with
  | nil => exact .nil
  | cons x l ih =>
    have hrest := ih (fun y hy => hsome y (List.mem_cons_of_mem _ hy))
      fun y hy => hnone y (List.mem_cons_of_mem _ hy)
    cases hx : f x with
    | none =>
      rw [List.filterMap_cons_none hx]
      exact .drop (hnone x List.mem_cons_self hx) hrest
    | some y =>
      rw [List.filterMap_cons_some hx]
      exact .keep (hsome x List.mem_cons_self y hx) hrest

/-- Where an entry comes from. -/
theorem Edited.origin (h : Edited Same New Drop l m) {y : α} (hy : y ∈ m) :
    New y ∨ ∃ x ∈ l, Same x y := by
  induction h with
  | nil => exact absurd hy List.not_mem_nil
  | keep same _ ih =>
    rcases List.mem_cons.mp hy with rfl | hy
    · exact Or.inr ⟨_, List.mem_cons_self, same⟩
    · exact (ih hy).imp_right fun ⟨x, hx, hxy⟩ => ⟨x, List.mem_cons_of_mem _ hx, hxy⟩
  | add new _ ih =>
    rcases List.mem_cons.mp hy with rfl | hy
    · exact Or.inl new
    · exact ih hy
  | drop _ _ ih => exact (ih hy).imp_right fun ⟨x, hx, hxy⟩ => ⟨x, List.mem_cons_of_mem _ hx, hxy⟩

section Sum
variable [AddCommMonoid M] {f : α → M}

/-- What new and dropped entries do not count for is the same before and after. -/
theorem Edited.sum_eq (h : Edited Same New Drop l m) (hsame : ∀ x y, Same x y → f y = f x)
    (hnew : ∀ y, New y → f y = 0) (hdrop : ∀ x ∈ l, Drop x → f x = 0) :
    (m.map f).sum = (l.map f).sum := by
  induction h with
  | nil => rfl
  | keep same _ ih =>
    have hrest := ih (List.forall_mem_cons.mp hdrop).2
    rw [List.map_cons, List.sum_cons, List.map_cons, List.sum_cons, hrest, hsame _ _ same]
  | add new _ ih => rw [List.map_cons, List.sum_cons, ih hdrop, hnew _ new, zero_add]
  | drop gone _ ih =>
    obtain ⟨hx, hrest⟩ := List.forall_mem_cons.mp hdrop
    rw [List.map_cons, List.sum_cons, ih hrest, hx gone, zero_add]

/-- What dropped entries counted for is missing. -/
theorem Edited.sum_add (h : Edited Same New Drop l m) (hsame : ∀ x y, Same x y → f y = f x)
    (hnew : ∀ y, New y → f y = 0) : ∃ gone, (l.map f).sum = (m.map f).sum + gone := by
  induction h with
  | nil => exact ⟨0, (add_zero _).symm⟩
  | @keep x y l m same _ ih =>
    obtain ⟨gone, hgone⟩ := ih
    refine ⟨gone, ?_⟩
    rw [List.map_cons, List.sum_cons, List.map_cons, List.sum_cons, hgone, hsame _ _ same, add_assoc]
  | add new _ ih =>
    obtain ⟨gone, hgone⟩ := ih
    refine ⟨gone, ?_⟩
    rw [List.map_cons, List.sum_cons, hgone, hnew _ new, zero_add]
  | @drop x l m _ _ ih =>
    obtain ⟨gone, hgone⟩ := ih
    refine ⟨f x + gone, ?_⟩
    rw [List.map_cons, List.sum_cons, hgone, add_left_comm]

end Sum

end NvmeSnsd.Lib
