import Mathlib.Tactic

/-! Entries under names, and what the bearers of a name are known to be while
entries come and go and names are given again. -/
namespace NvmeSnsd.Lib
variable {α κ : Type*} {key : α → κ} {P : α → Prop} {k : κ} {xs ys : List α}

/-- Whoever bears the name `k` has the property. -/
def Bears (key : α → κ) (P : α → Prop) (k : κ) (xs : List α) : Prop := ∀ x ∈ xs, key x = k → P x

namespace Bears

theorem subset (h : Bears key P k ys) (hs : xs ⊆ ys) : Bears key P k xs :=
  fun x hx hk => h x (hs hx) hk

/-- An entry is added: it has another name, or the property. -/
theorem concat (h : Bears key P k xs) {x : α} (hx : key x = k → P x) :
    Bears key P k (xs ++ [x]) := by
  intro y hy hk
  rcases List.mem_append.mp hy with hy | hy
  · exact h y hy hk
  · obtain rfl := List.mem_singleton.mp hy
    exact hx hk

/-- Entries are changed, but keep their names. -/
theorem map (h : Bears key P k xs) {f : α → α} (hf : ∀ x, key (f x) = key x)
    (hp : ∀ x, P x → P (f x)) : Bears key P k (xs.map f) := by
  intro y hy hk
  obtain ⟨x, hx, rfl⟩ := List.mem_map.mp hy
  exact hp x (h x hx ((hf x).symm.trans hk))

end Bears

section Find
variable [DecidableEq κ]

/-- The entry under a name. -/
def bearer (key : α → κ) (k : κ) (xs : List α) : Option α := xs.find? fun x => key x = k

theorem bearer_some {x : α} (h : bearer key k xs = some x) : x ∈ xs ∧ key x = k :=
  ⟨List.mem_of_find?_eq_some h, by simpa using List.find?_some h⟩

theorem bearer_of_mem (hn : (xs.map key).Nodup) {x : α} (hx : x ∈ xs) :
    bearer key (key x) xs = some x := by
  cases h : bearer key (key x) xs with
  | none =>
    have hno := List.find?_eq_none.mp h x hx
    simp at hno
  | some y =>
    obtain ⟨hy, hk⟩ := bearer_some h
    rw [List.inj_on_of_nodup_map hn hy hx hk]

/-- With no name given twice, what holds of the entry that is found holds of every
bearer of its name. -/
theorem bears_of_bearer (hn : (xs.map key).Nodup) {x : α} (h : bearer key k xs = some x)
    (hp : P x) : Bears key P k xs := by
  obtain ⟨hx, hk⟩ := bearer_some h
  intro y hy hky
  obtain rfl := List.inj_on_of_nodup_map hn hy hx (hky.trans hk.symm)
  exact hp

end Find

/-! Names are numbers, and the lowest one that is free is given. -/

/-- The lowest number below `bound` that is not in use. -/
def lowestFree (used : ℕ → Bool) (bound : ℕ) : Option ℕ :=
  (List.range bound).find? fun n => !used n

theorem lowestFree_eq_some {used : ℕ → Bool} {bound n : ℕ} :
    lowestFree used bound = some n ↔ used n = false ∧ n < bound ∧ ∀ m < n, used m = true := by
  rw [lowestFree, List.find?_range_eq_some]
  simp

end NvmeSnsd.Lib
