import NvmeSnsd.ConnPeon.Disconn

/-! Which request a task serves, and how the serial numbers of tasks go with the
order of the requests. -/
namespace NvmeSnsd.ConnPeon
open Lib

/-- `t` was made for `rq`, or by the batch that `rq` asked for. -/
structure Serves (rq : Request) (t : Task) : Prop where
  own : t.origin.inherited = false → rq.type = t.origin.type ∧ rq.param = t.param
  batch : t.origin.inherited = true → t.origin.type = .disconn ∧ rq.type = .dcbatch ∧
    peonTaskMatch t.param rq.param true = true
  since : t.sn ≠ 0 → rq.sn ≤ t.sn
  same : t.origin.type ≠ .connect → t.sn = rq.sn

theorem Serves.inherited_eq {rq : Request} {t : Task} (h : Serves rq t)
    (hc : t.origin.type = .connect) : t.origin.inherited = false := by
  by_contra hi
  cases hc.symm.trans (h.batch (by simpa using hi)).1

/-- A request for the target of `t` came after that of `t`. -/
def HasLater (rqs : List Request) (t : Task) : Prop :=
  ∃ j rq, t.origin.request < j ∧ rqs[j]? = some rq ∧
    peonTaskMatch t.param rq.param (isBatch t.origin.type rq.type) = true

theorem HasLater.congr {rqs : List Request} {t u : Task} (h : HasLater rqs t)
    (hp : u.param = t.param) (ho : u.origin = t.origin) : HasLater rqs u := by
  rw [HasLater, hp, ho]
  exact h

theorem getElem?_append_some {rqs : List Request} {rq x : Request} {i : ℕ}
    (h : rqs[i]? = some rq) : (rqs ++ [x])[i]? = some rq := by
  rw [List.getElem?_append_left (List.getElem?_eq_some_iff.mp h).1, h]

theorem HasLater.mono {rqs : List Request} {t : Task} (h : HasLater rqs t) (x : Request) :
    HasLater (rqs ++ [x]) t := by
  obtain ⟨j, rq, hj, hrq, hm⟩ := h
  exact ⟨j, rq, hj, getElem?_append_some hrq, hm⟩

structure RequestsOk (l : Lists) (rqs : List Request) (gen : ℕ) : Prop where
  sorted : ∀ i j : ℕ, ∀ ri rj : Request, i < j → rqs[i]? = some ri → rqs[j]? = some rj → ri.sn < rj.sn
  issued : ∀ rq ∈ rqs, rq.sn ≤ gen
  serves : ∀ r, ∀ t ∈ l r, ∃ rq, rqs[t.origin.request]? = some rq ∧ Serves rq t ∧ t.sn ≤ gen
  /-- A request has one task of its own. -/
  once : ∀ r x, ∀ t ∈ l r, ∀ u ∈ l x, t.origin.inherited = false → u.origin.inherited = false →
    t.origin.request = u.origin.request → t.id = u.id
  /-- Who is about to be added has the number of its request. -/
  pending : ∀ t ∈ l .pending, ∀ rq, rqs[t.origin.request]? = some rq → t.sn = rq.sn
  /-- Of these, only the latest request may have its own task. -/
  last : ∀ t ∈ l .pending, t.origin.inherited = false → t.origin.request+1 = rqs.length
  /-- Connect tasks have numbers of their own. -/
  distinct : ∀ r x, ∀ t ∈ l r, ∀ u ∈ l x, t.origin.type = .connect → u.origin.type = .connect →
    t.sn = u.sn → t.sn ≠ 0 → t.id = u.id

namespace RequestsOk
variable {l m : Lists} {rqs : List Request} {gen : ℕ}

theorem serves_lt (h : RequestsOk l rqs gen) {r : ListRef} {t : Task} (ht : t ∈ l r) :
    t.origin.request < rqs.length := by
  obtain ⟨rq, hrq, -⟩ := h.serves r t ht
  exact (List.getElem?_eq_some_iff.mp hrq).1

/-- Tasks that were there before, with their number or, on the way to a recheck,
without. -/
theorem of_mem (h : RequestsOk l rqs gen)
    (hm : ∀ r, ∀ t ∈ m r, ∃ x, ∃ q ∈ l x, q.id = t.id ∧ q.param = t.param ∧ q.origin = t.origin ∧
      (t.sn = q.sn ∨ t.sn = 0 ∧ t.origin.type = .connect) ∧
      (r = .pending → x = .pending ∧ t.sn = q.sn)) : RequestsOk m rqs gen := by
  refine ⟨h.sorted, h.issued, ?_, ?_, ?_, ?_, ?_⟩
  · intro r t ht
    obtain ⟨x, q, hq, -, hp, ho, hsn, -⟩ := hm r t ht
    obtain ⟨rq, hrq, hs, hle⟩ := h.serves x q hq
    rw [ho] at hrq
    refine ⟨rq, hrq, ⟨?_, ?_, ?_, ?_⟩, ?_⟩
    · rw [← ho, ← hp]
      exact hs.own
    · rw [← ho, ← hp]
      exact hs.batch
    · intro hne
      rcases hsn with he | ⟨he, -⟩
      · rw [he] at hne ⊢
        exact hs.since hne
      · exact absurd he hne
    · intro hc
      rcases hsn with he | ⟨-, he⟩
      · rw [he]
        exact hs.same (ho ▸ hc)
      · exact absurd he hc
    · omega
  · intro r x t ht u hu hti hui he
    obtain ⟨r', t', ht', hid, -, ho, -⟩ := hm r t ht
    obtain ⟨x', u', hu', hid', -, ho', -⟩ := hm x u hu
    rw [← hid, ← hid']
    rw [← ho] at hti he
    rw [← ho'] at hui he
    exact h.once r' x' t' ht' u' hu' hti hui he
  · intro t ht rq hrq
    obtain ⟨x, q, hq, -, -, ho, -, hpend⟩ := hm .pending t ht
    obtain ⟨rfl, he⟩ := hpend rfl
    rw [he]
    exact h.pending q hq rq (ho ▸ hrq)
  · intro t ht hi
    obtain ⟨x, q, hq, -, -, ho, -, hpend⟩ := hm .pending t ht
    obtain ⟨rfl, -⟩ := hpend rfl
    rw [← ho] at hi ⊢
    exact h.last q hq hi
  · intro r x t ht u hu htc huc he hne
    obtain ⟨r', t', ht', hid, -, ho, hsn, -⟩ := hm r t ht
    obtain ⟨x', u', hu', hid', -, ho', hsn', -⟩ := hm x u hu
    rw [← hid, ← hid']
    apply h.distinct r' x' t' ht' u' hu' (ho ▸ htc) (ho' ▸ huc) <;> omega

theorem del (h : RequestsOk l rqs gen) (r : ListRef) (id : ℕ) :
    RequestsOk (listDel l r id) rqs gen :=
  h.of_mem fun x t ht =>
    ⟨x, t, (mem_listDel.mp ht).1, rfl, rfl, rfl, .inl rfl, fun hx => ⟨hx, rfl⟩⟩

theorem judge (h : RequestsOk l rqs gen) (type : PeonType) (p : Task) :
    RequestsOk (judgeLists l type p) rqs gen := by
  apply h.of_mem
  intro x t ht
  obtain ⟨q, hq, rfl⟩ := mem_judgeLists.mp ht
  exact ⟨x, q, hq, by simp, by simp, by simp, .inl (by simp), fun hx => ⟨hx, by simp⟩⟩

/-- `p` goes over to a list of a peon. -/
theorem move (h : RequestsOk l rqs gen) {r x : ListRef} {p q : Task} (hp : p ∈ l r)
    (hx : x ≠ .pending) (hid : p.id = q.id) (hpar : p.param = q.param) (ho : p.origin = q.origin)
    (hsn : q.sn = p.sn ∨ q.sn = 0 ∧ q.origin.type = .connect) :
    RequestsOk (listAddTail (listDel l r p.id) x q) rqs gen := by
  apply h.of_mem
  intro y t ht
  rcases mem_listAddTail.mp ht with ht | ⟨rfl, rfl⟩
  · exact ⟨y, t, (mem_listDel.mp ht).1, rfl, rfl, rfl, .inl rfl, fun hy => ⟨hy, rfl⟩⟩
  · exact ⟨r, p, hp, hid, hpar, ho, hsn, fun hy => absurd hy hx⟩

/-- The next request is out, and no task of an earlier one is about to be added. -/
theorem issue (h : RequestsOk l rqs gen) (hseq : ∀ t ∈ l .pending, t.origin.inherited = true)
    {rq : Request} (hrq : gen < rq.sn) : RequestsOk l (rqs ++ [rq]) rq.sn := by
  -- an index is an old one or the last
  have hidx : ∀ {i x}, (rqs ++ [rq])[i]? = some x → rqs[i]? = some x ∨ i = rqs.length ∧ x = rq := by
    intro i x hi
    rcases lt_trichotomy i rqs.length with hlt | rfl | hgt
    · rw [List.getElem?_append_left hlt] at hi
      exact Or.inl hi
    · simp at hi
      exact Or.inr ⟨rfl, hi.symm⟩
    · rw [List.getElem?_eq_none (by simp; omega)] at hi
      cases hi
  have hle : ∀ x ∈ rqs, x.sn < rq.sn := fun x hx => (h.issued x hx).trans_lt hrq
  refine ⟨?_, ?_, ?_, h.once, ?_, ?_, h.distinct⟩
  · intro i j ri rj hij hi hj
    rcases hidx hj with hj | ⟨rfl, rfl⟩
    · rcases hidx hi with hi | ⟨rfl, -⟩
      · exact h.sorted i j ri rj hij hi hj
      · exact absurd (List.getElem?_eq_some_iff.mp hj).1 (by omega)
    · rcases hidx hi with hi | ⟨rfl, -⟩
      · exact hle ri (List.mem_of_getElem? hi)
      · exact absurd hij (lt_irrefl _)
  · intro x hx
    rcases List.mem_append.mp hx with hx | hx
    · exact (hle x hx).le
    · exact (List.mem_singleton.mp hx).symm ▸ le_rfl
  · intro r t ht
    obtain ⟨x, hx, hs, hsn⟩ := h.serves r t ht
    exact ⟨x, getElem?_append_some hx, hs, hsn.trans hrq.le⟩
  · intro t ht x hx
    rcases hidx hx with hx | ⟨he, -⟩
    · exact h.pending t ht x hx
    · exact absurd (h.serves_lt ht) (by omega)
  · intro t ht hi
    rw [hseq t ht] at hi
    cases hi

/-- A task comes in with a number that is in order. -/
theorem add (h : RequestsOk l rqs gen) {gen' : ℕ} (hgen : gen ≤ gen') {r : ListRef} {q : Task}
    {rq : Request} (hrq : rqs[q.origin.request]? = some rq) (hs : Serves rq q) (hsn : q.sn ≤ gen')
    (honce : q.origin.inherited = false → ∀ x, ∀ t ∈ l x, t.origin.inherited = false →
      t.origin.request = q.origin.request → t.id = q.id)
    (hpend : r = .pending → q.sn = rq.sn ∧
      (q.origin.inherited = false → q.origin.request+1 = rqs.length))
    (hdist : q.origin.type = .connect → ∀ x, ∀ t ∈ l x, t.sn ≠ q.sn) :
    RequestsOk (listAddTail l r q) rqs gen' := by
  refine ⟨h.sorted, fun x hx => (h.issued x hx).trans hgen, ?_, ?_, ?_, ?_, ?_⟩
  · intro x t ht
    rcases mem_listAddTail.mp ht with ht | ⟨-, rfl⟩
    · obtain ⟨y, hy, hsy, hle⟩ := h.serves x t ht
      exact ⟨y, hy, hsy, hle.trans hgen⟩
    · exact ⟨rq, hrq, hs, hsn⟩
  · intro x y t ht u hu hti hui he
    rcases mem_listAddTail.mp ht with ht' | ⟨-, rfl⟩
    · rcases mem_listAddTail.mp hu with hu | ⟨-, rfl⟩
      · exact h.once x y t ht' u hu hti hui he
      · exact honce hui x t ht' hti he
    · rcases mem_listAddTail.mp hu with hu | ⟨-, rfl⟩
      · exact (honce hti y u hu hui he.symm).symm
      · rfl
  · intro t ht x hx
    rcases mem_listAddTail.mp ht with ht | ⟨hr, rfl⟩
    · exact h.pending t ht x hx
    · obtain rfl := Option.some.inj (hrq.symm.trans hx)
      exact (hpend hr.symm).1
  · intro t ht hi
    rcases mem_listAddTail.mp ht with ht | ⟨hr, rfl⟩
    · exact h.last t ht hi
    · exact (hpend hr.symm).2 hi
  · intro x y t ht u hu htc huc he hne
    rcases mem_listAddTail.mp ht with ht' | ⟨-, rfl⟩
    · rcases mem_listAddTail.mp hu with hu | ⟨-, rfl⟩
      · exact h.distinct x y t ht' u hu htc huc he hne
      · exact absurd he (hdist huc x t ht')
    · rcases mem_listAddTail.mp hu with hu | ⟨-, rfl⟩
      · exact absurd he.symm (hdist htc y u hu)
      · rfl

end RequestsOk

/-- Requests are issued one after another: the call for the one before is back. -/
def Sequential (s : Sched) : Label → Prop
  | .request .. => ∀ t ∈ s.list .pending, t.origin.inherited = true
  | _ => True

/-- The number generator has not come to its end. -/
def NoWrap (s : Sched) : Label → Prop
  | .request .. | .recheckOne .. => s.snGen+1 < 2^64
  | _ => True

instance : ∀ s l, Decidable (Sequential s l)
  | s, .request .. =>
    inferInstanceAs (Decidable (∀ t ∈ s.list .pending, t.origin.inherited = true))
  | _, .inherit .. | _, .addFail .. | _, .add .. | _, .poll .. | _, .get .. | _, .handle ..
  | _, .complete .. | _, .recheck | _, .recheckOne .. | _, .unlock | _, .deconstruct ..
  | _, .exit .. => isTrue trivial

instance : ∀ s l, Decidable (NoWrap s l)
  | s, .request .. | s, .recheckOne .. => inferInstanceAs (Decidable (s.snGen+1 < 2^64))
  | _, .inherit .. | _, .addFail .. | _, .add .. | _, .poll .. | _, .get .. | _, .handle ..
  | _, .complete .. | _, .recheck | _, .unlock | _, .deconstruct .. | _, .exit .. => isTrue trivial

theorem peonSnGenerate_eq {gen : ℕ} (h : gen+1 < 2^64) : peonSnGenerate gen = gen+1 := by
  rw [peonSnGenerate, u64, Nat.mod_eq_of_lt h]
  exact if_neg (Nat.succ_ne_zero gen)

theorem requestsOk_step {s s' : Sched} {l : Label} (hb : Base s)
    (h : RequestsOk s.list s.requests s.snGen) (hseq : Sequential s l) (hwrap : NoWrap s l)
    (hs : step s l = some s') : RequestsOk s'.list s'.requests s'.snGen := by
  cases step_cases hs with
  | @request type param toolbox tm htype =>
    have hgen : peonSnGenerate s.snGen = s.snGen+1 := peonSnGenerate_eq hwrap
    have hrq : s.snGen < (⟨type, param, peonSnGenerate s.snGen⟩ : Request).sn := by
      rw [hgen]
      exact Nat.lt_succ_self _
    have hget : (s.requests ++ [⟨type, param, peonSnGenerate s.snGen⟩])[s.requests.length]? =
        some ⟨type, param, peonSnGenerate s.snGen⟩ := by simp
    refine (h.issue hseq hrq).add le_rfl hget
      ⟨fun _ => ⟨rfl, rfl⟩, nofun, fun _ => le_rfl, fun _ => rfl⟩ le_rfl ?_ ?_ ?_
    · intro _ x t ht _ he
      exact absurd (h.serves_lt ht) (he ▸ lt_irrefl _)
    · exact fun _ => ⟨rfl, fun _ => by simp⟩
    · intro _ x t ht
      obtain ⟨-, -, -, hle⟩ := h.serves x t ht
      exact (hle.trans_lt hrq).ne
  | @inherit b param toolbox tm _ hbm hm =>
    obtain ⟨rq, hrq, hs, hle⟩ := h.serves _ b hbm
    have hfit := ((fitsPeon_of_ne .dcbatch nofun).mp (hb.fit _ _ hbm).2)
    have hown : b.origin.inherited = false := by
      by_contra hi
      cases hfit.1.symm.trans (hs.batch (by simpa using hi)).1
    have hsn : b.sn = rq.sn := hs.same (by rw [hfit.1]; nofun)
    refine h.add le_rfl hrq ⟨nofun, fun _ => ⟨rfl, ?_, ?_⟩, fun _ => hsn.ge, fun _ => hsn⟩ hle nofun
      (fun _ => ⟨hsn, nofun⟩) nofun
    · rw [(hs.own hown).1, hfit.1]
    · rw [(hs.own hown).2]
      exact hm
  | addFail | getDead | completeFree | recheckDrop => exact h.del _ _
  | add _ ht | addDyn _ ht => exact h.move ht nofun rfl rfl rfl (.inl rfl)
  | completeRetry _ _ hp => exact h.move hp nofun rfl rfl rfl (.inl rfl)
  | completeRecheck _ _ hp _ _ hc =>
    have hf := (hb.fit _ _ hp).2
    rw [hc, fitsPeon_of_ne .connect nofun] at hf
    exact h.move hp nofun rfl rfl rfl (.inr ⟨rfl, hf.1⟩)
  | @relive rest p ret now _ hp =>
    have hgen : peonSnGenerate s.snGen = s.snGen+1 := peonSnGenerate_eq hwrap
    obtain ⟨rq, hrq, hs, -⟩ := h.serves _ p hp
    have hc := (fitsPeon_recheck.mp (hb.fit _ _ hp)).1
    have hle : rq.sn ≤ s.snGen := h.issued rq (List.mem_of_getElem? hrq)
    refine (h.del (.wait (.static .recheck)) p.id).add (r := .wait (.static .connect)) ?_ hrq
      ⟨hs.own, hs.batch, fun _ => ?_, fun hne => absurd hc hne⟩ le_rfl ?_ nofun ?_
    · rw [Sched.setHolder_snGen, Sched.emit_snGen, Sched.addTail_snGen, Sched.del_snGen,
        Sched.setGen_snGen, hgen]
      exact Nat.le_succ _
    · exact hle.trans (hgen ▸ Nat.le_succ _)
    · intro hi x t ht hti he
      exact h.once x _ t (mem_listDel.mp ht).1 p hp hti hi he
    · intro _ x t ht
      obtain ⟨-, -, -, hlt⟩ := h.serves x t (mem_listDel.mp ht).1
      exact (hlt.trans_lt (hgen ▸ Nat.lt_succ_self _)).ne
  | getLeave => exact h.judge _ _
  | getDiscard => exact (h.judge _ _).del _ _
  | getPick _ hp =>
    exact (h.judge _ _).move (mem_judged_self hp) nofun rfl rfl rfl (.inl rfl)
  | deconstruct =>
    exact h.of_mem fun x t ht => ⟨x, t, (mem_update_nil.mp ht).1, rfl, rfl, rfl, .inl rfl,
      fun hx => ⟨hx, rfl⟩⟩
  | addStuck | poll | handle | recheck | recheckKeep | unlockGet | unlockRecheck | exit => exact h

section Order
variable {l : Lists} {rqs : List Request} {gen : ℕ} (h : RequestsOk l rqs gen) {r z : ListRef}
  {x y : Task} (hx : x ∈ l r) (hy : y ∈ l z)
  (hm : peonTaskMatch x.param y.param (isBatch x.origin.type y.origin.type) = true)
include h hy hm

/-- A task of a later request for the target is the sign of that request. -/
theorem later_of_request_lt (hlt : x.origin.request < y.origin.request) : HasLater rqs x := by
  obtain ⟨rq, hrq, hs, -⟩ := h.serves z y hy
  refine ⟨_, rq, hlt, hrq, ?_⟩
  cases hi : y.origin.inherited with
  | false =>
    obtain ⟨htype, hparam⟩ := hs.own hi
    rw [htype, hparam]
    exact hm
  | true =>
    -- the batch is on the host side of the target
    obtain ⟨-, htype, hmatch⟩ := hs.batch hi
    have hbatch : isBatch x.origin.type rq.type = true := by simp [isBatch, htype]
    rw [hbatch]
    have htrans := peonTaskMatch_trans hm hmatch
    rwa [Bool.or_true] at htrans

include hx

/-- A greater number that still is that of its request tells of a later request. -/
theorem later_of_sn_lt (hsn : x.sn ≠ 0) (hlt : x.sn < y.sn)
    (hown : ∀ rq, rqs[y.origin.request]? = some rq → y.sn = rq.sn) : HasLater rqs x := by
  apply later_of_request_lt h hy hm
  obtain ⟨rx, hrx, hsx, -⟩ := h.serves r x hx
  obtain ⟨ry, hry, -, -⟩ := h.serves z y hy
  have hxy : rx.sn < ry.sn := by
    calc rx.sn ≤ x.sn := hsx.since hsn
      _ < y.sn := hlt
      _ = ry.sn := hown ry hry
  by_contra hge
  rcases Nat.lt_or_eq_of_le (Nat.le_of_not_lt hge) with hlt' | he
  · exact absurd (h.sorted _ _ ry rx hlt' hry hrx) (by omega)
  · rw [he] at hry
    obtain rfl := Option.some.inj (hry.symm.trans hrx)
    exact lt_irrefl _ hxy

end Order

end NvmeSnsd.ConnPeon
