import Mathlib.Tactic

/-! Programs of one thread over a state that a lock protects, which is not recursive. -/
namespace NvmeSnsd.Lib

inductive LockFault
  | relock
  | notHeld
  deriving DecidableEq

/-- The flag says whether the thread holds the lock. -/
abbrev Locked (σ : Type) := StateT (Bool × σ) (Except LockFault)

namespace Locked
variable {σ α β : Type}

/-- The lock is granted after the other threads did `others`. -/
def lock (others : σ → σ) : Locked σ Unit := fun s =>
  if s.1 then .error .relock else .ok ((), true, others s.2)

def unlock : Locked σ Unit := fun s =>
  if s.1 then .ok ((), false, s.2) else .error .notHeld

def change (f : σ → σ) : Locked σ Unit := fun s => .ok ((), s.1, f s.2)

def look : Locked σ σ := fun s => .ok (s.2, s)

/-- Code that may take the lock itself. -/
def outside (others : σ → σ) : Locked σ Unit := do
  lock others
  unlock

/-- Called with the lock as `held` says, it comes back with the lock as `after` says. -/
def Moves (held after : Bool) (p : Locked σ α) : Prop :=
  ∀ s, ∃ a s', p (held, s) = .ok (a, after, s')

section Moves
variable {held after later : Bool} {p : Locked σ α} {f : α → Locked σ β}

theorem bind_eq (p : Locked σ α) (f : α → Locked σ β) (s : Bool × σ) :
    (p >>= f) s = (p s).bind fun r => f r.1 r.2 := rfl

theorem bind_ok {s t : Bool × σ} {a : α} (h : p s = .ok (a, t)) : (p >>= f) s = f a t := by
  rw [bind_eq, h]
  rfl

theorem bind_error {s : Bool × σ} {e : LockFault} (h : p s = .error e) :
    (p >>= f) s = .error e := by
  rw [bind_eq, h]
  rfl

theorem moves_pure (a : α) : Moves held held (pure a : Locked σ α) := fun s => ⟨a, s, rfl⟩

theorem moves_change (g : σ → σ) : Moves held held (change g) := fun s => ⟨(), g s, rfl⟩

theorem moves_look : Moves held held (look : Locked σ σ) := fun s => ⟨s, s, rfl⟩

theorem moves_lock (others : σ → σ) : Moves false true (lock others) :=
  fun s => ⟨(), others s, rfl⟩

theorem moves_unlock : Moves true false (unlock : Locked σ Unit) := fun s => ⟨(), s, rfl⟩

theorem moves_outside (others : σ → σ) : Moves false false (outside others) :=
  fun s => ⟨(), others s, rfl⟩

theorem Moves.bind (hp : Moves held after p) (hf : ∀ a, Moves after later (f a)) :
    Moves held later (p >>= f) := by
  intro s
  obtain ⟨a, t, hpt⟩ := hp s
  obtain ⟨b, u, hfu⟩ := hf a t
  exact ⟨b, u, (bind_ok hpt).trans hfu⟩

theorem moves_forM {γ : Type} {g : γ → Locked σ PUnit} (hg : ∀ c, Moves held held (g c))
    (cs : List γ) : Moves held held (cs.forM g) := by
  induction cs with
  | nil => exact moves_pure ()
  | cons c cs ih => exact (hg c).bind fun _ => ih

end Moves

end Locked

end NvmeSnsd.Lib
