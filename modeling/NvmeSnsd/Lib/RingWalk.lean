import NvmeSnsd.Lib.CircularList

/-! Walks along a circular list. A walk ends where it comes back to the node it
was started from, which need not be the head of the list. -/
namespace NvmeSnsd.Lib.Links
variable {α : Type*} [DecidableEq α] {l : Links α} {head : α} {xs ys : List α}

/-- `list_for_each (cur, head)` around a body that may leave the walk with
`false`; `none` where `fuel` nodes are not enough. -/
def forEach (l : Links α) (body : α → Option Bool) (head : α) : ℕ → α → Option Bool
  | 0, _ => none
  | fuel+1, cur =>
    if cur = head then some true
    else
      match body cur with
      | some true => l.forEach body head fuel (l.next cur)
      | r => r

variable {body : α → Option Bool} {ok : α → Bool} {fuel : ℕ}

theorem forEach_path {zs : List α} (hn : head ∉ zs)
    (hb : ∀ z ∈ zs, body z = some (ok z)) (hf : zs.length < fuel) :
    ∀ {p : α}, List.IsChain (fun a b => l.next a = b) (p :: (zs ++ [head])) →
      l.forEach body head fuel (l.next p) = some (zs.all ok) := by
  induction zs generalizing fuel with
  | nil =>
    intro p hc
    have hp : l.next p = head := (List.isChain_cons_cons.mp hc).1
    obtain ⟨fuel, rfl⟩ : ∃ f, fuel = f+1 := ⟨fuel - 1, by simp at hf; omega⟩
    rw [forEach, hp, if_pos rfl, List.all_nil]
  | cons z zs ih =>
    intro p hc
    obtain ⟨hp, hc'⟩ := List.isChain_cons_cons.mp hc
    obtain ⟨fuel, rfl⟩ : ∃ f, fuel = f+1 := ⟨fuel - 1, by simp at hf; omega⟩
    have hz : z ≠ head := fun he => hn (he ▸ List.mem_cons_self)
    rw [forEach, hp, if_neg hz, hb z List.mem_cons_self, List.all_cons]
    cases hok : ok z with
    | false => rfl
    | true =>
      rw [Bool.true_and]
      apply ih
      · exact fun hm => hn (List.mem_cons_of_mem _ hm)
      · exact fun y hy => hb y (List.mem_cons_of_mem _ hy)
      · rw [List.length_cons] at hf
        omega
      · exact hc'

omit [DecidableEq α] in
theorem Ring.nexts (h : l.Ring head xs) :
    List.IsChain (fun a b => l.next a = b) (head :: (xs ++ [head])) :=
  h.chain.imp fun _ _ hab => hab.1

/-- A walk from the head visits the elements. -/
theorem Ring.forEach_head (h : l.Ring head xs) (ok : α → Bool)
    (hb : ∀ z ∈ xs, body z = some (ok z)) (hf : xs.length < fuel) : l.forEach body head fuel (l.next head) = some (xs.all ok) :=
  forEach_path (List.nodup_cons.mp h.nodup).1 hb hf h.nexts

/-- A walk from an element visits the elements behind it, the head as if it were
one of them, and the elements before it. -/
theorem Ring.forEach_elem {x : α} (h : l.Ring head (xs ++ x :: ys)) (ok : α → Bool)
    (hb : ∀ z ∈ ys ++ head :: xs, body z = some (ok z))
    (hf : (xs ++ x :: ys).length < fuel) :
    l.forEach body x fuel (l.next x) = some ((ys ++ head :: xs).all ok) := by
  apply forEach_path _ hb
  · simp only [List.length_append, List.length_cons] at hf ⊢
    omega
  · -- the ring, cut open at the element instead of at the head
    have hc := h.nexts
    rw [List.append_assoc, List.cons_append, ← List.cons_append, List.isChain_split] at hc
    have hsplit : x :: ((ys ++ head :: xs) ++ [x]) = (x :: ys) ++ head :: (xs ++ [x]) := by simp
    rw [hsplit, List.isChain_split]
    exact ⟨hc.2, hc.1⟩
  · have hnd : (head :: xs ++ x :: ys).Nodup := h.nodup
    rw [List.nodup_append] at hnd
    intro hx
    rcases List.mem_append.mp hx with hx | hx
    · exact (List.nodup_cons.mp hnd.2.1).1 hx
    · exact hnd.2.2 x hx x List.mem_cons_self rfl

end NvmeSnsd.Lib.Links
