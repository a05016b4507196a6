import Mathlib.Tactic
import Mathlib.Data.Fintype.Card

/-! Items that are out, each with one holder. -/
namespace NvmeSnsd.Lib
variable {ω ι : Type*} {has : ω → Option ι} {out : ι → Prop}

/-- What a holder has is out, and what is out has one holder. -/
structure Assigned (has : ω → Option ι) (out : ι → Prop) : Prop where
  is_out : ∀ w x, has w = some x → out x
  holder : ∀ x, out x → ∃ w, has w = some x
  alone : ∀ w w' x, has w = some x → has w' = some x → w = w'

namespace Assigned

theorem congr {has' : ω → Option ι} {out' : ι → Prop} (h : Assigned has out)
    (hhas : ∀ w, has' w = has w) (hout : ∀ x, out' x ↔ out x) : Assigned has' out' := by
  obtain rfl : has' = has := funext hhas
  refine ⟨fun w x hx => (hout x).mpr (h.is_out w x hx), fun x hx => ?_, h.alone⟩
  exact h.holder x ((hout x).mp hx)

section Move
variable [DecidableEq ω]

/-- A holder with empty hands takes an item that is not out. -/
theorem take (h : Assigned has out) {w : ω} {x : ι} (hw : has w = none) (hx : ¬out x) :
    Assigned (Function.update has w (some x)) fun y => out y ∨ y = x := by
  refine ⟨?_, ?_, ?_⟩
  · intro v y hv
    by_cases hvw : v = w
    · subst hvw
      rw [Function.update_self] at hv
      exact Or.inr (Option.some.inj hv).symm
    · rw [Function.update_of_ne hvw] at hv
      exact Or.inl (h.is_out v y hv)
  · rintro y (hy | rfl)
    · obtain ⟨v, hv⟩ := h.holder y hy
      have hvw : v ≠ w := by
        rintro rfl
        rw [hw] at hv
        cases hv
      exact ⟨v, by rw [Function.update_of_ne hvw, hv]⟩
    · exact ⟨w, Function.update_self ..⟩
  · intro v v' y hv hv'
    -- whoever has `y` is `w`, or had it before
    have hback : ∀ {u}, Function.update has w (some x) u = some y →
        u = w ∧ y = x ∨ has u = some y := by
      intro u hu
      by_cases huw : u = w
      · subst huw
        rw [Function.update_self] at hu
        exact Or.inl ⟨rfl, (Option.some.inj hu).symm⟩
      · rw [Function.update_of_ne huw] at hu
        exact Or.inr hu
    rcases hback hv with ⟨hvw, hyx⟩ | hold
    · rcases hback hv' with ⟨hvw', -⟩ | hold'
      · rw [hvw, hvw']
      · exact absurd (h.is_out v' y hold') (hyx ▸ hx)
    · rcases hback hv' with ⟨-, hyx⟩ | hold'
      · exact absurd (h.is_out v y hold) (hyx ▸ hx)
      · exact h.alone v v' y hold hold'

/-- A holder gives its item back. -/
theorem give (h : Assigned has out) {w : ω} {x : ι} (hw : has w = some x) :
    Assigned (Function.update has w none) fun y => out y ∧ y ≠ x := by
  have hback : ∀ {u y}, Function.update has w none u = some y → u ≠ w ∧ has u = some y := by
    intro u y hu
    by_cases huw : u = w
    · subst huw
      simp at hu
    · rw [Function.update_of_ne huw] at hu
      exact ⟨huw, hu⟩
  refine ⟨?_, ?_, ?_⟩
  · intro v y hv
    obtain ⟨hvw, hv⟩ := hback hv
    refine ⟨h.is_out v y hv, ?_⟩
    rintro rfl
    exact hvw (h.alone v w y hv hw)
  · rintro y ⟨hy, hyx⟩
    obtain ⟨v, hv⟩ := h.holder y hy
    have hvw : v ≠ w := by
      rintro rfl
      exact hyx (Option.some.inj (hv.symm.trans hw))
    exact ⟨v, by rw [Function.update_of_ne hvw, hv]⟩
  · intro v v' y hv hv'
    exact h.alone v v' y (hback hv).2 (hback hv').2

end Move

/-- There are no more items out than holders. -/
theorem length_le (h : Assigned has out) {xs : List ι} (hn : xs.Nodup) (hx : ∀ x ∈ xs, out x)
    {n : ℕ} (f : Fin n → ω) (hf : ∀ w x, x ∈ xs → has w = some x → ∃ i, f i = w) :
    xs.length ≤ n := by
  have hpick : ∀ x : {x // x ∈ xs}, ∃ i, has (f i) = some x.1 := by
    intro x
    obtain ⟨w, hw⟩ := h.holder x.1 (hx x.1 x.2)
    obtain ⟨i, hi⟩ := hf w x.1 x.2 hw
    exact ⟨i, hi ▸ hw⟩
  choose g hg using hpick
  have hinj : Function.Injective fun i : Fin xs.length => g ⟨xs.get i, List.get_mem _ _⟩ := by
    intro i j hij
    have hi := hg ⟨xs.get i, List.get_mem _ _⟩
    have hj := hg ⟨xs.get j, List.get_mem _ _⟩
    dsimp only at hij
    rw [hij, hj] at hi
    exact (List.nodup_iff_injective_get.mp hn (Option.some.inj hi)).symm
  simpa using Fintype.card_le_of_injective _ hinj

end Assigned

end NvmeSnsd.Lib
