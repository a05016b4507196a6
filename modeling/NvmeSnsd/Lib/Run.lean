import Mathlib.Tactic

/-! Runs of a system given by a partial step function, and what they keep. -/
namespace NvmeSnsd.Lib
variable {σ ℓ : Type*} {step : σ → ℓ → Option σ}

/-- The state after the labels, when each of them is possible in its turn. -/
def run (step : σ → ℓ → Option σ) : σ → List ℓ → Option σ
  | s, [] => some s
  | s, l :: ls => (step s l).bind fun s' => run step s' ls

/-- Every step of the run meets `ok`, which sees the state before it. -/
def RunMeets (step : σ → ℓ → Option σ) (ok : σ → ℓ → Prop) : σ → List ℓ → Prop
  | _, [] => True
  | s, l :: ls => ok s l ∧ ∀ s', step s l = some s' → RunMeets step ok s' ls

theorem run_cons {s s' : σ} {l : ℓ} {ls : List ℓ} :
    run step s (l :: ls) = some s' ↔ ∃ t, step s l = some t ∧ run step t ls = some s' := by
  rw [run, Option.bind_eq_some_iff]

theorem run_append {s s' : σ} {ls ms : List ℓ} :
    run step s (ls ++ ms) = some s' ↔ ∃ t, run step s ls = some t ∧ run step t ms = some s' := by
  induction ls generalizing s with
  | nil =>
    rw [List.nil_append]
    constructor
    · intro h
      exact ⟨s, rfl, h⟩
    · rintro ⟨t, ht, h⟩
      obtain rfl := Option.some.inj ht
      exact h
  | cons l ls ih =>
    rw [List.cons_append, run_cons]
    constructor
    · rintro ⟨u, hu, h⟩
      obtain ⟨t, ht, h⟩ := ih.mp h
      exact ⟨t, run_cons.mpr ⟨u, hu, ht⟩, h⟩
    · rintro ⟨t, ht, h⟩
      obtain ⟨u, hu, ht⟩ := run_cons.mp ht
      exact ⟨u, hu, ih.mpr ⟨t, ht, h⟩⟩

theorem RunMeets.cons {ok : σ → ℓ → Prop} {s t : σ} {l : ℓ} {ls : List ℓ} (ho : ok s l)
    (hs : step s l = some t) (h : RunMeets step ok t ls) : RunMeets step ok s (l :: ls) := by
  refine ⟨ho, fun t' ht => ?_⟩
  obtain rfl := Option.some.inj (hs.symm.trans ht)
  exact h

instance RunMeets.decidable {ok : σ → ℓ → Prop} [∀ s l, Decidable (ok s l)] :
    ∀ (s : σ) (ls : List ℓ), Decidable (RunMeets step ok s ls)
  | _, [] => .isTrue trivial
  | s, l :: ls =>
    match h : step s l with
    | none => decidable_of_iff (ok s l)
      ⟨fun ho => ⟨ho, fun _ ht => absurd (h.symm.trans ht) (Option.some_ne_none _).symm⟩, And.left⟩
    | some t =>
      have : Decidable (RunMeets step ok t ls) := RunMeets.decidable t ls
      decidable_of_iff (ok s l ∧ RunMeets step ok t ls)
        ⟨fun ho => .cons ho.1 h ho.2, fun ho => ⟨ho.1, ho.2 t h⟩⟩

theorem runMeets_append {ok : σ → ℓ → Prop} {s : σ} {ls ms : List ℓ} :
    RunMeets step ok s (ls ++ ms) ↔
      RunMeets step ok s ls ∧ ∀ t, run step s ls = some t → RunMeets step ok t ms := by
  induction ls generalizing s with
  | nil => simp [RunMeets, run]
  | cons l ls ih =>
    simp only [List.cons_append, RunMeets, run_cons, ih]
    constructor
    · rintro ⟨hl, hrest⟩
      refine ⟨⟨hl, fun t ht => (hrest t ht).1⟩, ?_⟩
      rintro u ⟨t, ht, hu⟩
      exact (hrest t ht).2 u hu
    · rintro ⟨⟨hl, hls⟩, hms⟩
      exact ⟨hl, fun t ht => ⟨hls t ht, fun u hu => hms u ⟨t, ht, hu⟩⟩⟩

theorem RunMeets.and {ok ok' : σ → ℓ → Prop} {s : σ} {ls : List ℓ} (h : RunMeets step ok s ls)
    (h' : RunMeets step ok' s ls) : RunMeets step (fun s l => ok s l ∧ ok' s l) s ls := by
  induction ls generalizing s with
  | nil => trivial
  | cons l ls ih =>
    refine ⟨⟨h.1, h'.1⟩, fun t ht => ?_⟩
    exact ih (h.2 t ht) (h'.2 t ht)

/-- What steps keep as long as they meet `ok`, a run keeps whose steps all do. -/
theorem run_meets_invariant {ok : σ → ℓ → Prop} {I : σ → Prop}
    (hstep : ∀ s l s', I s → ok s l → step s l = some s' → I s') {s s' : σ} {ls : List ℓ}
    (h : I s) (hok : RunMeets step ok s ls) (hr : run step s ls = some s') : I s' := by
  induction ls generalizing s with
  | nil =>
    obtain rfl := Option.some.inj hr
    exact h
  | cons l ls ih =>
    obtain ⟨t, ht, hr⟩ := run_cons.mp hr
    obtain ⟨hl, hls⟩ := hok
    apply ih (hstep s l t h hl ht) (hls t ht) hr

/-- What every step keeps, every run keeps. -/
theorem run_invariant {I : σ → Prop} (hstep : ∀ s l s', I s → step s l = some s' → I s')
    {s s' : σ} {ls : List ℓ} (h : I s) (hr : run step s ls = some s') : I s' := by
  induction ls generalizing s with
  | nil =>
    obtain rfl := Option.some.inj hr
    exact h
  | cons l ls ih =>
    obtain ⟨t, ht, hr⟩ := run_cons.mp hr
    apply ih (hstep s l t h ht) hr

/-! The same for a step function that is total. -/

/-- Every step meets `ok`, which sees the state before it. -/
def FoldMeets {τ : Type*} (next : σ → τ → σ) (ok : σ → τ → Prop) : σ → List τ → Prop
  | _, [] => True
  | s, e :: es => ok s e ∧ FoldMeets next ok (next s e) es

/-- A relation to a second fold over the same steps. -/
theorem foldl_relation {τ ρ : Type*} {next : σ → τ → σ} {other : ρ → τ → ρ} {ok : σ → τ → Prop}
    {R : σ → ρ → Prop} (hstep : ∀ s r e, R s r → ok s e → R (next s e) (other r e)) {s : σ} {r : ρ}
    {es : List τ} (h : R s r) (hok : FoldMeets next ok s es) :
    R (es.foldl next s) (es.foldl other r) := by
  induction es generalizing s r with
  | nil => exact h
  | cons e es ih =>
    obtain ⟨he, hes⟩ := hok
    exact ih (hstep s r e h he) hes

theorem foldMeets_append {τ : Type*} {next : σ → τ → σ} {ok : σ → τ → Prop} {s : σ}
    {es fs : List τ} :
    FoldMeets next ok s (es ++ fs) ↔
      FoldMeets next ok s es ∧ FoldMeets next ok (es.foldl next s) fs := by
  induction es generalizing s with
  | nil => simp only [List.nil_append, FoldMeets, List.foldl_nil, true_and]
  | cons e es ih =>
    rw [List.cons_append, FoldMeets, FoldMeets, ih, List.foldl_cons, and_assoc]

theorem foldl_invariant {τ : Type*} {next : σ → τ → σ} {ok : σ → τ → Prop} {I : σ → Prop}
    (hstep : ∀ s e, I s → ok s e → I (next s e)) {s : σ} {es : List τ} (h : I s)
    (hok : FoldMeets next ok s es) : I (es.foldl next s) := by
  induction es generalizing s with
  | nil => exact h
  | cons e es ih =>
    obtain ⟨he, hes⟩ := hok
    exact ih (hstep s e h he) hes

/-! A log grows at its end. -/

variable {ε : Type*} {P : List ε → ε → Prop} {log es : List ε}

/-- Every entry meets `P`, which sees the entries before it. -/
def Always (P : List ε → ε → Prop) (log : List ε) : Prop :=
  ∀ before e after, log = before ++ e :: after → P before e

theorem always_nil : Always P [] := by
  intro before e after h
  simp at h

theorem Always.concat (h : Always P log) {e : ε} (he : P log e) : Always P (log ++ [e]) := by
  intro before x after hx
  rcases List.eq_nil_or_concat after with rfl | ⟨after, y, rfl⟩
  · obtain ⟨rfl, hxe⟩ := List.append_inj' hx rfl
    rwa [← List.singleton_inj.mp hxe]
  · rw [List.concat_eq_append, ← List.cons_append, ← List.append_assoc] at hx
    exact h before x after (List.append_inj' hx rfl).1

/-- Entries of which `P` asks nothing may be added. -/
theorem Always.append (h : Always P log) (hes : ∀ e ∈ es, ∀ before, P before e) :
    Always P (log ++ es) := by
  induction es generalizing log with
  | nil => rwa [List.append_nil]
  | cons e es ih =>
    rw [← List.singleton_append, ← List.append_assoc]
    apply ih (h.concat (hes e List.mem_cons_self log))
    intro x hx
    exact hes x (List.mem_cons_of_mem _ hx)

end NvmeSnsd.Lib
