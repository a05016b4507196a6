import NvmeSnsd.Lib.Bytes

/-! Loops with faults, and the rule that proves them to terminate: an invariant
for the loop head and a measure that every further iteration lowers. -/
namespace NvmeSnsd.Lib

/-- What one pass through a loop body asks for. -/
inductive Ctl (σ : Type*)
  | again (s : σ)
  | done (s : σ)

/-- `do body while (…)`: `fuel` bounds the number of passes. -/
def loop {σ : Type*} (body : σ → Except Fault (Ctl σ)) : ℕ → σ → Except Fault σ
  | 0, _ => .error .fuel
  | fuel+1, s =>
    match body s with
    | .error e => .error e
    | .ok (.done s') => .ok s'
    | .ok (.again s') => loop body fuel s'

section
variable {σ : Type*} {body : σ → Except Fault (Ctl σ)} {fuel : ℕ} {s s' : σ}

theorem loop_done (h : body s = .ok (.done s')) : loop body (fuel+1) s = .ok s' := by
  simp only [loop, h]

theorem loop_again (h : body s = .ok (.again s')) :
    loop body (fuel+1) s = loop body fuel s' := by
  simp only [loop, h]

theorem loop_error {e : Fault} (h : body s = .error e) : loop body (fuel+1) s = .error e := by
  simp only [loop, h]

end

/-- What one pass must give: no fault, and either the end result or the
invariant again at a smaller measure. -/
def BodyMeets {σ : Type*} (I Q : σ → Prop) (μ : σ → ℕ) (s : σ) (r : Except Fault (Ctl σ)) : Prop :=
  (∃ s', r = .ok (.done s') ∧ Q s') ∨ (∃ s', r = .ok (.again s') ∧ I s' ∧ μ s' < μ s)

/-- Total correctness of a loop. -/
theorem loop_total {σ : Type*} {body : σ → Except Fault (Ctl σ)} {I Q : σ → Prop} (μ : σ → ℕ)
    (hbody : ∀ s, I s → BodyMeets I Q μ s (body s)) :
    ∀ (fuel : ℕ) {s : σ}, I s → μ s < fuel → ∃ s', loop body fuel s = .ok s' ∧ Q s' := by
  intro fuel
  induction fuel with
  | zero =>
    intro s _ hf
    omega
  | succ fuel ih =>
    intro s hI hf
    rcases hbody s hI with ⟨s', hr, hQ⟩ | ⟨s', hr, hI', hlt⟩
    · exact ⟨s', by simp only [loop, hr], hQ⟩
    · obtain ⟨t, ht, hQ⟩ := ih hI' (by omega)
      exact ⟨t, by simp only [loop, hr, ht], hQ⟩

end NvmeSnsd.Lib
