import NvmeSnsd.Lib.Text

/-! Searching a text for a word, from each place where it stands on to behind it,
until one of them passes a test. -/
namespace NvmeSnsd.Lib

/-- The search, with `skip` bytes to pass over first. -/
def searchFrom (w : Bytes) (test : Bytes → Bool) : ℕ → Bytes → Option ℕ
  | _, [] => none
  | skip+1, _ :: l => (searchFrom w test skip l).map (·+1)
  | 0, b :: l =>
    if w <+: b :: l then
      if test (b :: l) then some 0 else (searchFrom w test (w.length-1) l).map (·+1)
    else (searchFrom w test 0 l).map (·+1)

/-- The first place of `w` among those that do not overlap where the rest of the
text passes the test. -/
def search (w : Bytes) (test : Bytes → Bool) (l : Bytes) : Option ℕ := searchFrom w test 0 l

section
variable {w : Bytes} {test : Bytes → Bool}

@[simp] theorem search_nil : search w test [] = none := rfl

theorem searchFrom_skip (k : ℕ) (l : Bytes) :
    searchFrom w test k l = (search w test (l.drop k)).map (·+k) := by
  induction l generalizing k with
  | nil => cases k <;> rfl
  | cons b l ih =>
    cases k with
    | zero =>
      rw [List.drop_zero]
      exact Option.map_id_apply.symm
    | succ k =>
      rw [searchFrom, ih k, List.drop_succ_cons, Option.map_map]
      rfl

theorem search_hit {l : Bytes} (hw : w ≠ []) (h : w <+: l) (ht : test l = true) :
    search w test l = some 0 := by
  cases l with
  | nil => exact absurd (List.prefix_nil.mp h) hw
  | cons b l => rw [search, searchFrom, if_pos h, if_pos ht]

theorem search_pass {l : Bytes} (hw : w ≠ []) (h : w <+: l) (ht : test l = false) :
    search w test l = (search w test (l.drop w.length)).map (·+w.length) := by
  cases l with
  | nil => exact absurd (List.prefix_nil.mp h) hw
  | cons b l =>
    have hlen : w.length-1+1 = w.length :=
      Nat.sub_add_cancel (List.length_pos_iff.mpr hw)
    rw [search, searchFrom, if_pos h, if_neg (by simp [ht]), searchFrom_skip, Option.map_map,
      ← hlen, List.drop_succ_cons, hlen]
    congr 1
    funext i
    simp only [Function.comp_apply]
    omega

theorem search_next {b : UInt8} {l : Bytes} (h : ¬ w <+: b :: l) :
    search w test (b :: l) = (search w test l).map (·+1) := by
  rw [search, searchFrom, if_neg h]
  rfl

/-- Places where the word does not stand are passed over. -/
theorem search_drop {l : Bytes} {k : ℕ} (h : ∀ i < k, ¬ w <+: l.drop i) :
    search w test l = (search w test (l.drop k)).map (·+k) := by
  induction k generalizing l with
  | zero =>
    rw [List.drop_zero]
    exact Option.map_id_apply.symm
  | succ k ih =>
    cases l with
    | nil => rfl
    | cons b l =>
      have hl : ∀ i < k, ¬ w <+: l.drop i := by
        intro i hi
        have hnext := h (i+1) (by omega)
        rwa [List.drop_succ_cons] at hnext
      have hstart : ¬ w <+: b :: l := h 0 (by omega)
      rw [search_next hstart, ih hl, List.drop_succ_cons, Option.map_map]
      rfl

/-- Where the search ends the word stands and the test passes. -/
theorem search_sound {l : Bytes} {i : ℕ} (h : search w test l = some i) :
    w <+: l.drop i ∧ test (l.drop i) = true := by
  have hfrom : ∀ l k i, searchFrom w test k l = some i →
      w <+: l.drop i ∧ test (l.drop i) = true := by
    intro l
    induction l with
    | nil => exact fun k i h => by cases k <;> cases h
    | cons b l ih =>
      intro k i h
      have hstep : ∀ j, (searchFrom w test j l).map (·+1) = some i →
          w <+: (b :: l).drop i ∧ test ((b :: l).drop i) = true := by
        intro j hj
        obtain ⟨n, hn, rfl⟩ := Option.map_eq_some_iff.mp hj
        exact ih j n hn
      cases k with
      | succ k => exact hstep k h
      | zero =>
        rw [searchFrom] at h
        split_ifs at h with hp ht
        · obtain rfl := Option.some.inj h
          exact ⟨hp, ht⟩
        · exact hstep _ h
        · exact hstep _ h
  exact hfrom l 0 i h

theorem search_lt {l : Bytes} {i : ℕ} (hw : w ≠ []) (h : search w test l = some i) :
    i < l.length := by
  by_contra hle
  have hp := (search_sound h).1
  rw [List.drop_eq_nil_of_le (Nat.le_of_not_lt hle)] at hp
  exact hw (List.prefix_nil.mp hp)

theorem search_eq_none {l : Bytes} (h : ∀ v, w <+: v → v <:+ l → test v = false) :
    search w test l = none := by
  apply Option.eq_none_iff_forall_ne_some.mpr
  intro i hi
  obtain ⟨hp, ht⟩ := search_sound hi
  rw [h _ hp (List.drop_suffix i l)] at ht
  cases ht

theorem search_absent {l : Bytes} (h : ¬ w <:+: l) : search w test l = none :=
  search_eq_none fun _ hp hs => absurd (hp.isInfix.trans hs.isInfix) h

/-- With a test that all places pass, the search finds what stands in the text. -/
theorem search_eq_none_iff {l : Bytes} (hw : w ≠ [])
    (ht : ∀ v, w <+: v → v <:+ l → test v = true) : search w test l = none ↔ ¬ w <:+: l := by
  refine ⟨?_, search_absent⟩
  intro hnone
  induction l with
  | nil => rwa [List.infix_nil]
  | cons b l ih =>
    by_cases hp : w <+: b :: l
    · rw [search_hit hw hp (ht _ hp (List.suffix_refl _))] at hnone
      cases hnone
    · rw [search_next hp, Option.map_eq_none_iff] at hnone
      rw [List.infix_cons_iff, not_or]
      exact ⟨hp, ih (fun v hv hs => ht v hv (hs.trans (List.suffix_cons b l))) hnone⟩

/-- Only how the test takes the ends of the text that start with the word counts. -/
theorem search_congr {l : Bytes} {test' : Bytes → Bool}
    (ht : ∀ v, w <+: v → v <:+ l → test v = test' v) : search w test l = search w test' l := by
  have hfrom : ∀ l k, (∀ v, w <+: v → v <:+ l → test v = test' v) →
      searchFrom w test k l = searchFrom w test' k l := by
    intro l
    induction l with
    | nil => exact fun k _ => by cases k <;> rfl
    | cons b l ih =>
      intro k ht
      have hrest := fun j => ih j fun v hv hs => ht v hv (hs.trans (List.suffix_cons b l))
      cases k with
      | succ k => rw [searchFrom, searchFrom, hrest]
      | zero =>
        rw [searchFrom, searchFrom, hrest, hrest]
        by_cases hp : w <+: b :: l
        · rw [if_pos hp, if_pos hp, ht _ hp (List.suffix_refl _)]
        · rw [if_neg hp, if_neg hp]
  exact hfrom l 0 ht

/-- A word without a separator in it stands before the separator or not at all. -/
theorem prefix_sep {a b : Bytes} {s : UInt8} (hs : s ∉ w) : w <+: a ++ s :: b ↔ w <+: a := by
  constructor
  · intro h
    obtain ⟨q, h⟩ := h
    rcases List.append_eq_append_iff.mp h with ⟨x, rfl, -⟩ | ⟨x, hx, hb⟩
    · exact List.prefix_append w x
    · cases x with
      | nil => rw [hx, List.append_nil]
      | cons t x =>
        obtain ⟨rfl, -⟩ := List.cons_eq_cons.mp hb
        exact absurd (by rw [hx]; simp) hs
  · exact fun h => h.trans (List.prefix_append a _)

/-- A word without a separator in it is searched for on each side of a separator. -/
theorem search_sep {a b : Bytes} {s : UInt8} (hw : w ≠ []) (hs : s ∉ w) :
    search w test (a ++ s :: b) =
      (search w (fun v => test (v ++ s :: b)) a).or
        ((search w test b).map (·+(a.length+1))) := by
  have hfrom : ∀ a k, k ≤ a.length → searchFrom w test k (a ++ s :: b) =
      (searchFrom w (fun v => test (v ++ s :: b)) k a).or
        ((search w test b).map (·+(a.length+1))) := by
    intro a
    induction a with
    | nil =>
      intro k hk
      obtain rfl := Nat.le_zero.mp hk
      have hp : ¬ w <+: s :: b := by
        intro hp
        obtain ⟨c, w, rfl⟩ := List.exists_cons_of_ne_nil hw
        obtain ⟨rfl, -⟩ := List.cons_prefix_cons.mp hp
        exact hs List.mem_cons_self
      exact search_next hp
    | cons c a ih =>
      intro k hk
      have hstep : ∀ j ≤ a.length, (searchFrom w test j (a ++ s :: b)).map (·+1) =
          ((searchFrom w (fun v => test (v ++ s :: b)) j a).map (·+1)).or
            ((search w test b).map (·+((c :: a).length+1))) := by
        intro j hj
        rw [ih j hj, Option.map_or, Option.map_map]
        rfl
      cases k with
      | succ k => exact hstep k (Nat.le_of_succ_le_succ hk)
      | zero =>
        have hp : w <+: c :: (a ++ s :: b) ↔ w <+: c :: a := prefix_sep (a := c :: a) hs
        rw [List.cons_append, searchFrom, searchFrom]
        by_cases h : w <+: c :: a
        · have hlen : w.length-1 ≤ a.length := Nat.sub_le_of_le_add h.length_le
          rw [if_pos (hp.mpr h), if_pos h, hstep _ hlen]
          split_ifs with ht ht' ht'
          · rfl
          · exact absurd ht ht'
          · exact absurd ht' ht
          · rfl
        · rw [if_neg (fun h' => h (hp.mp h')), if_neg h]
          exact hstep 0 (Nat.zero_le _)
  exact hfrom a 0 (Nat.zero_le _)

end

end NvmeSnsd.Lib
