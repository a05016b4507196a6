import Mathlib.Tactic
import Mathlib.Data.Finset.Card

/-! Sets kept in an array of fixed size, where one value marks a free place. -/
namespace NvmeSnsd.Lib
variable {α : Type*} {n : ℕ}

/-- `v` with `a` at place `i`. -/
def setAt (v : Vector α n) (i : Fin n) (a : α) : Vector α n := v.set i a

/-- The first place whose value `p` accepts. -/
def firstIdx (v : Vector α n) (p : α → Bool) : Option (Fin n) := Fin.find? fun i => p (v.get i)

section Find
variable {v : Vector α n} {p q : α → Bool} {i : Fin n} {a : α}

theorem firstIdx_eq_some :
    firstIdx v p = some i ↔ p (v.get i) = true ∧ ∀ j, j < i → p (v.get j) = false := Fin.find?_eq_some_iff

theorem firstIdx_eq_none : firstIdx v p = none ↔ ∀ j : Fin n, p (v.get j) = false := by
  rw [firstIdx, Fin.find?_eq_none_iff]

theorem firstIdx_holds (h : firstIdx v p = some i) : p (v.get i) = true := (firstIdx_eq_some.mp h).1

theorem exists_firstIdx (h : p (v.get i) = true) : ∃ j, firstIdx v p = some j ∧ j ≤ i := by
  rcases hf : firstIdx v p with _ | j
  · rw [firstIdx_eq_none.mp hf i] at h
    exact absurd h (by decide)
  · refine ⟨j, rfl, ?_⟩
    by_contra hlt
    rw [(firstIdx_eq_some.mp hf).2 i (not_le.mp hlt)] at h
    exact absurd h (by decide)

theorem get_setAt_self (v : Vector α n) (i : Fin n) (a : α) : (setAt v i a).get i = a :=
  Vector.getElem_set_self _

theorem get_setAt_ne (v : Vector α n) {i j : Fin n} (h : j ≠ i) (a : α) :
    (setAt v i a).get j = v.get j := Vector.getElem_set_ne _ _ fun he => h (Fin.ext he.symm)

/-- A place whose new value is accepted as the old one was. -/
theorem map_get {β : Type*} (f : α → β) (v : Vector α n) (i : Fin n) :
    (v.map f).get i = f (v.get i) :=
  Vector.getElem_map ..

theorem setAt_setAt (v : Vector α n) (i : Fin n) (a b : α) :
    setAt (setAt v i a) i b = setAt v i b :=
  Vector.set_set ..

theorem firstIdx_set (h : p a = p (v.get i)) : firstIdx (setAt v i a) p = firstIdx v p := by
  unfold firstIdx
  congr 1
  funext j
  by_cases hj : j = i
  · rw [hj, get_setAt_self, h]
  · rw [get_setAt_ne v hj]

/-- The first place that `q` accepts is filled with a value for `p`. -/
theorem firstIdx_set_first (hi : firstIdx v q = some i) (hpq : ∀ x, p x = true → q x = true)
    (ha : p a = true) : firstIdx (setAt v i a) p = some i := by
  refine firstIdx_eq_some.mpr ⟨?_, fun j hj => ?_⟩
  · rw [get_setAt_self, ha]
  · rw [get_setAt_ne v hj.ne]
    have hq := (firstIdx_eq_some.mp hi).2 j hj
    by_contra hp
    rw [hpq _ (by simpa using hp)] at hq
    exact absurd hq (by decide)

theorem firstIdx_congr {w : Vector α n} (h : ∀ j : Fin n, p (w.get j) = q (v.get j)) :
    firstIdx w p = firstIdx v q := by
  unfold firstIdx
  congr 1
  funext j
  exact h j

end Find

/-- The first place that holds `a`. -/
def placeOf [DecidableEq α] (v : Vector α n) (a : α) : Option (Fin n) := firstIdx v (· == a)

theorem placeOf_holds [DecidableEq α] {v : Vector α n} {a : α} {i : Fin n}
    (h : placeOf v a = some i) : v.get i = a := by
  rw [placeOf] at h
  simpa using firstIdx_holds h

theorem placeOf_eq_none [DecidableEq α] {v : Vector α n} {a : α} :
    placeOf v a = none ↔ ∀ j : Fin n, v.get j ≠ a := by
  rw [placeOf, firstIdx_eq_none]
  simp only [beq_eq_false_iff_ne]

/-! The set. -/

/-- `v` holds the values `s`, each in one place, and `e` everywhere else. -/
structure SlotSet (e : α) (v : Vector α n) (s : Finset α) : Prop where
  mem : ∀ a, a ∈ s ↔ a ≠ e ∧ ∃ i : Fin n, v.get i = a
  inj : ∀ i j : Fin n, v.get i = v.get j → v.get i ≠ e → i = j

namespace SlotSet
variable {e a : α} {v : Vector α n} {s : Finset α} {i : Fin n}

theorem empty (h : ∀ i : Fin n, v.get i = e) : SlotSet e v ∅ := by
  refine ⟨fun a => ?_, fun i _ _ hne => absurd (h i) hne⟩
  simp only [Finset.notMem_empty, false_iff, not_and, not_exists]
  intro hne i hi
  exact hne (hi.symm.trans (h i))

theorem marker_notMem (h : SlotSet e v s) : e ∉ s := fun he => ((h.mem e).mp he).1 rfl

variable [DecidableEq α]

/-- A free place takes a new value. -/
theorem insert (h : SlotSet e v s) (hi : v.get i = e) (ha : a ≠ e) (hnew : a ∉ s) :
    SlotSet e (setAt v i a) (Insert.insert a s) := by
  have hold (j : Fin n) : v.get j ≠ a := fun hj => hnew ((h.mem a).mpr ⟨ha, j, hj⟩)
  refine ⟨fun b => ?_, fun j k hjk hne => ?_⟩
  · rw [Finset.mem_insert, h.mem]
    constructor
    · rintro (rfl | ⟨hb, j, hj⟩)
      · exact ⟨ha, i, get_setAt_self v i b⟩
      · have hji : j ≠ i := by
          rintro rfl
          exact hb (hj.symm.trans hi)
        exact ⟨hb, j, (get_setAt_ne v hji a).trans hj⟩
    · rintro ⟨hb, j, hj⟩
      by_cases hji : j = i
      · rw [hji, get_setAt_self] at hj
        exact Or.inl hj.symm
      · rw [get_setAt_ne v hji] at hj
        exact Or.inr ⟨hb, j, hj⟩
  · by_cases hj : j = i <;> by_cases hk : k = i
    · exact hj.trans hk.symm
    · rw [hj, get_setAt_self, get_setAt_ne v hk] at hjk
      exact absurd hjk.symm (hold k)
    · rw [hk, get_setAt_self, get_setAt_ne v hj] at hjk
      exact absurd hjk (hold j)
    · rw [get_setAt_ne v hj, get_setAt_ne v hk] at hjk
      rw [get_setAt_ne v hj] at hne
      exact h.inj j k hjk hne

/-- The place of a value is marked free. -/
theorem erase (h : SlotSet e v s) (hi : v.get i = a) : SlotSet e (setAt v i e) (s.erase a) := by
  refine ⟨fun b => ?_, fun j k hjk hne => ?_⟩
  · rw [Finset.mem_erase, h.mem]
    constructor
    · rintro ⟨hba, hb, j, hj⟩
      have hji : j ≠ i := by
        rintro rfl
        exact hba (hj.symm.trans hi)
      exact ⟨hb, j, (get_setAt_ne v hji e).trans hj⟩
    · rintro ⟨hb, j, hj⟩
      have hji : j ≠ i := by
        rintro rfl
        rw [get_setAt_self] at hj
        exact hb hj.symm
      rw [get_setAt_ne v hji] at hj
      refine ⟨?_, hb, j, hj⟩
      rintro rfl
      have he : v.get j ≠ e := fun he => hb (hj.symm.trans he)
      exact hji (h.inj j i (hj.trans hi.symm) he)
  · have hji : j ≠ i := by
      rintro rfl
      exact hne (get_setAt_self v j e)
    rw [get_setAt_ne v hji] at hjk hne
    have hki : k ≠ i := by
      rintro rfl
      rw [get_setAt_self] at hjk
      exact hne hjk
    rw [get_setAt_ne v hki] at hjk
    exact h.inj j k hjk hne

/-- A place is free as long as the array is not full. -/
theorem free_iff (h : SlotSet e v s) : (∃ i : Fin n, v.get i = e) ↔ s.card < n := by
  have hsub : s ⊆ Finset.univ.image fun i : Fin n => v.get i := by
    intro a ha
    obtain ⟨-, i, hi⟩ := (h.mem a).mp ha
    exact Finset.mem_image.mpr ⟨i, Finset.mem_univ i, hi⟩
  constructor
  · rintro ⟨i, hi⟩
    have hlt : s ⊂ Finset.univ.image fun i : Fin n => v.get i := by
      refine (Finset.ssubset_iff_of_subset hsub).mpr ⟨e, ?_, h.marker_notMem⟩
      exact Finset.mem_image.mpr ⟨i, Finset.mem_univ i, hi⟩
    calc s.card < (Finset.univ.image fun i : Fin n => v.get i).card := Finset.card_lt_card hlt
      _ ≤ (Finset.univ : Finset (Fin n)).card := Finset.card_image_le
      _ = n := by rw [Finset.card_univ, Fintype.card_fin]
  · intro hlt
    by_contra hfull
    have hne (i : Fin n) : v.get i ≠ e := fun hi => hfull ⟨i, hi⟩
    have hinj : Function.Injective fun i : Fin n => v.get i := fun i j hij => h.inj i j hij (hne i)
    have hsup : (Finset.univ.image fun i : Fin n => v.get i) ⊆ s := by
      intro a ha
      obtain ⟨i, -, hi⟩ := Finset.mem_image.mp ha
      exact (h.mem a).mpr ⟨fun he => hne i (hi.trans he), i, hi⟩
    have hcard := Finset.card_le_card hsup
    rw [Finset.card_image_of_injective _ hinj, Finset.card_univ, Fintype.card_fin] at hcard
    omega

end SlotSet

section Ops
variable [DecidableEq α]

/-- Nothing changes for a value that is there; `none` when no place is free. -/
def insertSlot (e a : α) (v : Vector α n) : Option (Vector α n) :=
  match placeOf v a with
  | some _ => some v
  | none => (placeOf v e).map fun i : Fin n => setAt v i a

def eraseSlot (e a : α) (v : Vector α n) : Vector α n :=
  match placeOf v a with
  | some i => setAt v i e
  | none => v

variable {e a : α} {v w : Vector α n} {s : Finset α}

theorem insertSlot_eq_none (h : SlotSet e v s) (ha : a ≠ e) :
    insertSlot e a v = none ↔ a ∉ s ∧ n ≤ s.card := by
  rw [insertSlot, ← not_lt, ← h.free_iff, h.mem]
  rcases hf : placeOf v a with _ | i
  · have hno := placeOf_eq_none.mp hf
    simp only [Option.map_eq_none_iff, placeOf_eq_none, not_and, not_exists]
    exact ⟨fun hfull => ⟨fun _ => hno, hfull⟩, fun hfull => hfull.2⟩
  · simp only [reduceCtorEq, false_iff]
    rintro ⟨hno, -⟩
    exact hno ⟨ha, i, placeOf_holds hf⟩

/-- Inserting the marker where it is possible changes nothing. -/
theorem insertSlot_marker (h : insertSlot e e v = some w) : w = v := by
  rw [insertSlot] at h
  rcases hf : placeOf v e with _ | i
  · rw [hf] at h
    exact absurd h (by simp)
  · rw [hf] at h
    exact (Option.some.inj h).symm

theorem SlotSet.insertSlot (h : SlotSet e v s) (ha : a ≠ e) (hw : insertSlot e a v = some w) :
    SlotSet e w (Insert.insert a s) := by
  rw [Lib.insertSlot] at hw
  rcases hf : placeOf v a with _ | i
  · rw [hf] at hw
    obtain ⟨i, hi, rfl⟩ := Option.map_eq_some_iff.mp hw
    apply h.insert (placeOf_holds hi) ha
    intro hmem
    obtain ⟨-, j, hj⟩ := (h.mem a).mp hmem
    exact placeOf_eq_none.mp hf j hj
  · rw [hf] at hw
    obtain rfl := Option.some.inj hw
    rwa [Finset.insert_eq_self.mpr ((h.mem a).mpr ⟨ha, i, placeOf_holds hf⟩)]

theorem SlotSet.eraseSlot (h : SlotSet e v s) : SlotSet e (eraseSlot e a v) (s.erase a) := by
  rw [Lib.eraseSlot]
  rcases hf : placeOf v a with _ | i
  · rwa [Finset.erase_eq_of_notMem]
    intro hmem
    obtain ⟨-, j, hj⟩ := (h.mem a).mp hmem
    exact placeOf_eq_none.mp hf j hj
  · exact h.erase (placeOf_holds hf)

end Ops

end NvmeSnsd.Lib
