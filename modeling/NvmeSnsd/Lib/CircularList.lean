import Mathlib.Tactic
import Mathlib.Data.List.Chain

/-! Circular doubly linked lists with a head that is not an element: the links
of all lists live in one memory, and a list owns its head and its elements. -/
namespace NvmeSnsd.Lib

structure Links (α : Type*) where
  next : α → α
  prev : α → α

namespace Links
variable {α : Type*}

section Ops
variable [DecidableEq α]

def setNext (l : Links α) (a b : α) : Links α := { l with next := Function.update l.next a b }

def setPrev (l : Links α) (a b : α) : Links α := { l with prev := Function.update l.prev a b }

/-- `INIT_LIST_HEAD` -/
def initHead (l : Links α) (head : α) : Links α := (l.setPrev head head).setNext head head

/-- `list_add_tail`, one store after the other. -/
def addTail (l : Links α) (newp head : α) : Links α :=
  let l := l.setNext (l.prev head) newp
  let l := l.setNext newp head
  let l := l.setPrev newp (l.prev head)
  l.setPrev head newp

/-- `list_del` -/
def del (l : Links α) (elem : α) : Links α :=
  let l := l.setPrev (l.next elem) (l.prev elem)
  l.setNext (l.prev elem) (l.next elem)

/-- `list_empty` -/
def isEmpty (l : Links α) (head : α) : Bool := l.next head == head

end Ops

def Linked (l : Links α) (a b : α) : Prop := l.next a = b ∧ l.prev b = a

/-- The list with head `head` has exactly the elements `xs`, in this order. -/
structure Ring (l : Links α) (head : α) (xs : List α) : Prop where
  nodup : (head :: xs).Nodup
  chain : List.IsChain l.Linked (head :: (xs ++ [head]))

variable {l l' : Links α} {head : α} {xs ys : List α}

/-- A chain only reads the next link of all but its last element and the
previous link of all but its first. -/
theorem chain_congr {zs : List α} (hn : ∀ a ∈ zs.dropLast, l'.next a = l.next a)
    (hp : ∀ b ∈ zs.tail, l'.prev b = l.prev b) (h : List.IsChain l.Linked zs) :
    List.IsChain l'.Linked zs := by
  induction zs with
  | nil => exact List.isChain_nil
  | cons a zs ih =>
    cases zs with
    | nil => exact List.isChain_singleton a
    | cons b zs =>
      rw [List.isChain_cons_cons] at h ⊢
      obtain ⟨⟨hab, hba⟩, h⟩ := h
      refine ⟨⟨?_, ?_⟩, ih ?_ ?_ h⟩
      · rw [hn a (by simp only [List.dropLast_cons_cons, List.mem_cons, true_or]), hab]
      · rw [hp b (by simp only [List.tail_cons, List.mem_cons, true_or]), hba]
      · intro c hc
        exact hn c (by rw [List.dropLast_cons_cons]; exact List.mem_cons_of_mem _ hc)
      · intro c hc
        exact hp c (by rw [List.tail_cons]; exact List.mem_of_mem_tail hc)

/-- A list depends on the links of its own cells alone. -/
theorem Ring.congr (h : l.Ring head xs) (hl : ∀ a ∈ head :: xs, l'.next a = l.next a ∧
    l'.prev a = l.prev a) : l'.Ring head xs := by
  refine ⟨h.nodup, chain_congr ?_ ?_ h.chain⟩
  · intro a ha
    rw [← List.cons_append, List.dropLast_concat] at ha
    exact (hl a ha).1
  · intro b hb
    rw [List.tail_cons, List.mem_append, List.mem_singleton] at hb
    rcases hb with hb | rfl
    · exact (hl b (List.mem_cons_of_mem _ hb)).2
    · exact (hl b List.mem_cons_self).2

theorem exists_last (a : α) (xs : List α) : ∃ A p, a :: xs = A ++ [p] :=
  (List.eq_nil_or_concat' (a :: xs)).resolve_left (List.cons_ne_nil a xs)

theorem exists_first (xs : List α) (a : α) : ∃ n B, xs ++ [a] = n :: B :=
  List.exists_cons_of_ne_nil (List.append_ne_nil_of_right_ne_nil xs (List.cons_ne_nil a []))

/-- The two links between neighbours. -/
theorem Ring.link (h : l.Ring head (xs ++ ys)) {A B : List α} {p n : α}
    (hp : head :: xs = A ++ [p]) (hn : ys ++ [head] = n :: B) : l.next p = n ∧ l.prev n = p := by
  have hc := h.chain
  rw [List.append_assoc, hn, ← List.cons_append, hp, List.append_assoc, List.singleton_append,
    List.isChain_append_cons_cons] at hc
  exact hc.2.1

theorem Ring.next_head_cons {x : α} (h : l.Ring head (x :: xs)) : l.next head = x := by
  have h' : l.Ring head ([] ++ x :: xs) := h
  exact (h'.link (A := []) rfl rfl).1

theorem Ring.next_head_nil (h : l.Ring head []) : l.next head = head := by
  have h' : l.Ring head ([] ++ []) := h
  exact (h'.link (A := []) rfl rfl).1

/-- The last cell of the list. -/
theorem Ring.prev_head (h : l.Ring head xs) {A : List α} {p : α} (hA : head :: xs = A ++ [p]) :
    l.prev head = p := by
  rw [← List.append_nil xs] at h
  exact (h.link hA rfl).2

/-- The element behind `x`, or the head behind the last one. -/
theorem Ring.next_elem {x : α} (h : l.Ring head (xs ++ x :: ys)) :
    l.next x = (ys ++ [head]).head (by simp) := by
  obtain ⟨n, B, hB⟩ := exists_first ys head
  have h' : l.Ring head ((xs ++ [x]) ++ ys) := by
    rw [List.append_assoc]
    exact h
  have hl := (h'.link (A := head :: xs) (p := x) rfl hB).1
  simp only [hB, List.head_cons]
  exact hl

section Spec
variable [DecidableEq α]

theorem ring_initHead (l : Links α) (head : α) : (l.initHead head).Ring head [] := by
  refine ⟨List.nodup_singleton _, ?_⟩
  rw [List.nil_append, List.isChain_pair]
  exact ⟨Function.update_self .., Function.update_self ..⟩

theorem Ring.initHead_frame {h' : α} (h : l.Ring head xs) (hne : h' ∉ head :: xs) :
    (l.initHead h').Ring head xs := by
  apply h.congr
  intro a ha
  have : a ≠ h' := by
    rintro rfl
    exact hne ha
  exact ⟨Function.update_of_ne this .., Function.update_of_ne this ..⟩

theorem addTail_next (l : Links α) (newp head a : α) : (l.addTail newp head).next a =
    if a = newp then head else if a = l.prev head then newp else l.next a := by
  simp only [addTail, setNext, setPrev, Function.update_apply]

theorem addTail_prev (l : Links α) (newp head a : α) : (l.addTail newp head).prev a =
    if a = head then newp else if a = newp then l.prev head else l.prev a := by
  simp only [addTail, setNext, setPrev, Function.update_apply]

theorem del_next (l : Links α) (elem a : α) :
    (l.del elem).next a = if a = l.prev elem then l.next elem else l.next a := by
  simp only [del, setNext, setPrev, Function.update_apply, ite_self]

theorem del_prev (l : Links α) (elem a : α) :
    (l.del elem).prev a = if a = l.next elem then l.prev elem else l.prev a := by
  simp only [del, setNext, setPrev, Function.update_apply]

theorem Ring.isEmpty_iff (h : l.Ring head xs) : l.isEmpty head = true ↔ xs = [] := by
  rw [isEmpty, beq_iff_eq]
  cases xs with
  | nil => exact ⟨fun _ => rfl, fun _ => h.next_head_nil⟩
  | cons x xs =>
    rw [h.next_head_cons]
    have hne : x ≠ head := fun hx => (List.nodup_cons.mp h.nodup).1 (hx ▸ List.mem_cons_self)
    exact ⟨fun hx => absurd hx hne, fun hx => absurd hx (List.cons_ne_nil x xs)⟩

theorem Ring.addTail {newp : α} (h : l.Ring head xs) (hnew : newp ∉ head :: xs) :
    (l.addTail newp head).Ring head (xs ++ [newp]) := by
  have hnd : (head :: (xs ++ [newp])).Nodup := by
    rw [← List.cons_append]
    exact List.nodup_append.mpr ⟨h.nodup, List.nodup_singleton _, fun a ha b hb =>
      by rw [List.mem_singleton.mp hb]; exact fun he => hnew (he ▸ ha)⟩
  obtain ⟨A, p, hA⟩ := exists_last head xs
  have hlast : l.prev head = p := h.prev_head hA
  have hndA : (A ++ [p]).Nodup := hA ▸ h.nodup
  have hpA : p ∉ A := fun hp => (List.nodup_append.mp hndA).2.2 p hp p List.mem_cons_self rfl
  have hnewA : ∀ a ∈ A ++ [p], a ≠ newp := fun a ha he => hnew (by rw [hA]; exact he ▸ ha)
  have hnh : head ≠ newp := fun he => hnew (he ▸ List.mem_cons_self)
  have hhead : head ∉ xs := (List.nodup_cons.mp h.nodup).1
  refine ⟨hnd, ?_⟩
  rw [List.append_assoc, List.singleton_append, ← List.cons_append, hA, List.append_assoc,
    List.singleton_append, List.isChain_append_cons_cons]
  refine ⟨?_, ⟨?_, ?_⟩, List.isChain_pair.mpr ⟨?_, ?_⟩⟩
  · -- the links up to the old last element stay
    have hc := h.chain
    rw [← List.cons_append, hA, List.append_assoc, List.singleton_append,
      List.isChain_append_cons_cons] at hc
    refine chain_congr ?_ ?_ hc.1
    · intro a ha
      rw [List.dropLast_concat] at ha
      have hap : a ≠ p := fun he => hpA (he ▸ ha)
      rw [addTail_next, if_neg (hnewA a (List.mem_append_left _ ha)), hlast, if_neg hap]
    · intro b hb
      rw [← hA, List.tail_cons] at hb
      have hbh : b ≠ head := fun he => hhead (he ▸ hb)
      have hbn : b ≠ newp := fun he => hnew (he ▸ List.mem_cons_of_mem _ hb)
      rw [addTail_prev, if_neg hbh, if_neg hbn]
  · rw [addTail_next, if_neg (hnewA p (by simp)), hlast, if_pos rfl]
  · rw [addTail_prev, if_neg hnh.symm, if_pos rfl, hlast]
  · rw [addTail_next, if_pos rfl]
  · rw [addTail_prev, if_pos rfl]

theorem Ring.addTail_frame {newp h' : α} {zs : List α} (h : l.Ring head xs) (hz : l.Ring h' zs)
    (hnew : newp ∉ head :: xs) (hdis : List.Disjoint (head :: xs) (h' :: zs)) :
    (l.addTail newp h').Ring head xs := by
  obtain ⟨A, p, hA⟩ := exists_last h' zs
  have hlast : l.prev h' = p := hz.prev_head hA
  apply h.congr
  intro a ha
  have han : a ≠ newp := fun he => hnew (he ▸ ha)
  have hap : a ≠ p := fun he => hdis ha (by rw [hA, he]; simp)
  have hah : a ≠ h' := fun he => hdis ha (by rw [he]; exact List.mem_cons_self)
  rw [addTail_next, addTail_prev, if_neg han, hlast, if_neg hap, if_neg hah, if_neg han]
  exact ⟨rfl, rfl⟩

theorem Ring.del {e : α} (h : l.Ring head (xs ++ e :: ys)) : (l.del e).Ring head (xs ++ ys) := by
  obtain ⟨A, p, hA⟩ := exists_last head xs
  obtain ⟨n, B, hB⟩ := exists_first ys head
  have h' : l.Ring head ((xs ++ [e]) ++ ys) := by
    rw [List.append_assoc]
    exact h
  have hpe := h.link hA (n := e) (B := ys ++ [head]) rfl
  have hen := h'.link (A := head :: xs) (p := e) rfl hB
  have hnd : (A ++ [p] ++ e :: ys).Nodup := by
    rw [← hA]
    exact h.nodup
  have hc := h.chain
  rw [List.append_assoc, List.cons_append, hB, ← List.cons_append, hA, List.append_assoc,
    List.singleton_append, List.isChain_append_cons_cons, List.isChain_cons_cons] at hc
  refine ⟨?_, ?_⟩
  · have hs : (head :: (xs ++ ys)).Sublist (head :: (xs ++ e :: ys)) :=
      ((List.sublist_cons_self e ys).append_left xs).cons_cons head
    exact hs.nodup h.nodup
  rw [List.append_assoc, hB, ← List.cons_append, hA, List.append_assoc, List.singleton_append,
    List.isChain_append_cons_cons]
  obtain ⟨hndA, hndB, hdis⟩ := List.nodup_append.mp hnd
  have hpA : p ∉ A := fun hp => (List.nodup_append.mp hndA).2.2 p hp p List.mem_cons_self rfl
  have hnB : (n :: B).Nodup := by
    rw [← hB]
    refine List.nodup_append.mpr ⟨(List.nodup_cons.mp hndB).2, List.nodup_singleton _, ?_⟩
    intro a ha b hb
    rw [List.mem_singleton.mp hb]
    exact (hdis head (by rw [← hA]; exact List.mem_cons_self) a (List.mem_cons_of_mem _ ha)).symm
  refine ⟨chain_congr ?_ ?_ hc.1, ⟨?_, ?_⟩, chain_congr ?_ ?_ hc.2.2.2⟩
  · intro a ha
    rw [List.dropLast_concat] at ha
    have hap : a ≠ p := fun he => hpA (he ▸ ha)
    rw [del_next, hpe.2, if_neg hap]
  · intro b hb
    rw [← hA, List.tail_cons] at hb
    have hbn : b ≠ n := by
      have hn : n ∈ ys ++ [head] := by rw [hB]; exact List.mem_cons_self
      have hbA : b ∈ A ++ [p] := by rw [← hA]; exact List.mem_cons_of_mem _ hb
      rcases List.mem_append.mp hn with hn | hn
      · exact hdis b hbA n (List.mem_cons_of_mem _ hn)
      · rw [List.mem_singleton.mp hn]
        rintro rfl
        exact (List.nodup_cons.mp h.nodup).1 (List.mem_append_left _ hb)
    rw [del_prev, hen.1, if_neg hbn]
  · rw [del_next, if_pos hpe.2.symm, hen.1]
  · rw [del_prev, if_pos hen.1.symm, hpe.2]
  · intro a ha
    rw [← hB, List.dropLast_concat] at ha
    have hap : a ≠ p := (hdis p (by simp) a (List.mem_cons_of_mem _ ha)).symm
    rw [del_next, hpe.2, if_neg hap]
  · intro b hb
    have hbn : b ≠ n := fun he => (List.nodup_cons.mp hnB).1 (he ▸ hb)
    rw [del_prev, hen.1, if_neg hbn]

theorem Ring.del_frame {e h' : α} {zs ws : List α} (h : l.Ring head xs)
    (hz : l.Ring h' (zs ++ e :: ws)) (hdis : List.Disjoint (head :: xs) (h' :: (zs ++ e :: ws))) :
    (l.del e).Ring head xs := by
  obtain ⟨A, p, hA⟩ := exists_last h' zs
  obtain ⟨n, B, hB⟩ := exists_first ws h'
  have hz' : l.Ring h' ((zs ++ [e]) ++ ws) := by
    rw [List.append_assoc]
    exact hz
  have hpe := hz.link hA (n := e) (B := ws ++ [h']) rfl
  have hen := hz'.link (A := h' :: zs) (p := e) rfl hB
  have hp : p ∈ h' :: (zs ++ e :: ws) := by
    rw [← List.cons_append, hA]
    simp
  have hn : n ∈ h' :: (zs ++ e :: ws) := by
    have : n ∈ ws ++ [h'] := by rw [hB]; exact List.mem_cons_self
    simp only [List.mem_append, List.mem_singleton] at this
    simp only [List.mem_cons, List.mem_append]
    tauto
  apply h.congr
  intro a ha
  have hap : a ≠ p := fun he => hdis ha (he ▸ hp)
  have han : a ≠ n := fun he => hdis ha (he ▸ hn)
  rw [del_next, del_prev, hpe.2, hen.1, if_neg hap, if_neg han]
  exact ⟨rfl, rfl⟩
end Spec

end Links

end NvmeSnsd.Lib
