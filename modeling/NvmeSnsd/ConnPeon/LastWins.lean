import NvmeSnsd.ConnPeon.Request

/-! Of several requests for a target the last one wins. -/
namespace NvmeSnsd.ConnPeon
open Lib

/-- Where a task is that has yet to stand up to the others: it is about to be
added, waits or is executed. On a dynamic peon it does so once, and nobody scans
these. -/
def Contends (s : Sched) : ListRef → Prop
  | .pending => True
  | .wait (.static type) | .proc (.static type) => type ≠ .recheck
  | .wait (.dyn k) => s.worker (.dyn k, 0) = .idle
  | .proc (.dyn _) => False

/-- `x` is alive, has a request of its own, and is on the side of its target
that `y`, a task of the connect peon, is for. -/
def Rivals (x y : Task) : Prop :=
  x.state = .live ∧ x.origin.inherited = false ∧
    peonTaskMatch x.param y.param (isBatch x.origin.type .connect) = true

/-- What a run may not do if the last request is to win: a failed recheck gives
the task a new number while the task of another request is under way that is not
older, and a disconnect task looks for older ones while a task of a later
request, which has no number, is in the recheck list. -/
def LastWinsOk (s : Sched) : Label → Prop
  | .recheckOne ret _ => ∀ rest, ∀ p ∈ s.list (.wait (.static .recheck)),
      s.holder = .recheck (p.id :: rest) → p.state = .live → p.toolbox.recheck = true → ret ≠ 0 →
        ∀ r, Contends s r → ∀ x ∈ s.list r, Rivals x p → p.origin.request ≤ x.origin.request →
          HasLater s.requests x
  | .get _ => ∀ ref i rest, ∀ p ∈ s.list (.wait ref), s.holder = .get ref i (p.id :: rest) →
      p.state = .live → ref.type = .disconn →
        ∀ q ∈ s.list (.wait (.static .recheck)), q.state = .live →
          peonTaskMatch q.param p.param false = true → p.origin.request ≤ q.origin.request →
            HasLater s.requests q
  | _ => True

def OnConnect (r : ListRef) : Prop :=
  r = .wait (.static .connect) ∨ r = .proc (.static .connect)

/-- A greater number on the connect peon tells of a later request. -/
def Ordered (C : ListRef → Prop) (l : Lists) (rqs : List Request) : Prop :=
  ∀ r, C r → ∀ x ∈ l r, ∀ z, OnConnect z → ∀ y ∈ l z, Rivals x y → x.sn < y.sn → HasLater rqs x

/-- So does a waiting connect task, whoever is established for its target. -/
def Newest (l : Lists) (rqs : List Request) : Prop :=
  ∀ r, Established r → ∀ q ∈ l r, q.state = .live →
    ∀ t ∈ l (.wait (.static .connect)), t.state = .live →
      peonTaskMatch q.param t.param false = true → HasLater rqs q

theorem Rivals.congr {x y x' y' : Task} (h : Rivals x y) (hst : x'.state = .live)
    (hxp : x'.param = x.param) (hxo : x'.origin = x.origin) (hyp : y'.param = y.param) :
    Rivals x' y' := by
  rw [Rivals, hxp, hxo, hyp]
  exact ⟨hst, h.2⟩

namespace Ordered
variable {C D : ListRef → Prop} {l m : Lists} {rqs : List Request}

/-- Tasks that were there before, with the number they have. -/
theorem of_mem (h : Ordered C l rqs)
    (hx : ∀ r, D r → ∀ x ∈ m r, x.state = .live → ∃ a, C a ∧ ∃ x' ∈ l a, x'.state = .live ∧
      x'.sn = x.sn ∧ x'.param = x.param ∧ x'.origin = x.origin)
    (hy : ∀ z, OnConnect z → ∀ y ∈ m z, ∃ b, OnConnect b ∧ ∃ y' ∈ l b, y'.sn = y.sn ∧
      y'.param = y.param) : Ordered D m rqs := by
  intro r hr x hxm z hz y hym hriv hlt
  obtain ⟨a, ha, x', hx', hst, hsn, hp, ho⟩ := hx r hr x hxm hriv.1
  obtain ⟨b, hb, y', hy', hsn', hp'⟩ := hy z hz y hym
  have hl := h a ha x' hx' b hb y' hy' (hriv.congr hst hp ho hp') (by omega)
  exact hl.congr hp.symm ho.symm

theorem mono (h : Ordered C l rqs) (hC : ∀ r, D r → ∀ t ∈ l r, C r) : Ordered D l rqs :=
  fun r hr x hx => h r (hC r hr x hx) x hx

theorem issue (h : Ordered C l rqs) (x : Request) : Ordered C l (rqs ++ [x]) :=
  fun r hr t ht z hz y hy hriv hlt => (h r hr t ht z hz y hy hriv hlt).mono x

theorem del (h : Ordered C l rqs) (r : ListRef) (id : ℕ) : Ordered C (listDel l r id) rqs :=
  h.of_mem (fun a ha x hx hst => ⟨a, ha, x, (mem_listDel.mp hx).1, hst, rfl, rfl, rfl⟩)
    fun b hb y hy => ⟨b, hb, y, (mem_listDel.mp hy).1, rfl, rfl⟩

theorem judge (h : Ordered C l rqs) (type : PeonType) (p : Task) :
    Ordered C (judgeLists l type p) rqs := by
  refine h.of_mem (fun a ha x hx hst => ?_) fun b hb y hy => ?_
  · exact ⟨a, ha, x, (mem_judgeLists_live hx hst).1, hst, rfl, rfl, rfl⟩
  · obtain ⟨q, hq, rfl⟩ := mem_judgeLists.mp hy
    exact ⟨b, hb, q, hq, by simp, by simp⟩

theorem add (h : Ordered C l rqs) {r : ListRef} {q : Task}
    (hx : C r → ∀ z, OnConnect z → ∀ y ∈ l z, Rivals q y → q.sn < y.sn → HasLater rqs q)
    (hy : OnConnect r → ∀ a, C a → ∀ x ∈ l a, Rivals x q → x.sn < q.sn → HasLater rqs x) :
    Ordered C (listAddTail l r q) rqs := by
  intro a ha x hxm z hz y hym hriv hlt
  rcases mem_listAddTail.mp hxm with hxl | ⟨har, rfl⟩
  · rcases mem_listAddTail.mp hym with hyl | ⟨hzr, rfl⟩
    · exact h a ha x hxl z hz y hyl hriv hlt
    · exact hy (hzr ▸ hz) a ha x hxl hriv hlt
  · rcases mem_listAddTail.mp hym with hyl | ⟨-, rfl⟩
    · exact hx (har ▸ ha) z hz y hyl hriv hlt
    · exact absurd hlt (lt_irrefl _)

/-- `p` goes from `a` to `b` and keeps its number. -/
theorem move (h : Ordered C l rqs) {a b : ListRef} {p q : Task} (hp : p ∈ l a)
    (hst : p.state = .live) (hsn : q.sn = p.sn) (hpar : q.param = p.param)
    (ho : q.origin = p.origin) (hC : C b → C a) (hon : OnConnect b → OnConnect a) :
    Ordered C (listAddTail (listDel l a p.id) b q) rqs := by
  refine (h.del a p.id).add (fun hb z hz y hy hriv hlt => ?_) fun hb r hr x hx hriv hlt => ?_
  · have hl := h a (hC hb) p hp z hz y (mem_listDel.mp hy).1
      (hriv.congr hst hpar.symm ho.symm rfl) (hsn ▸ hlt)
    exact hl.congr hpar ho
  · exact h r hr x (mem_listDel.mp hx).1 a (hon hb) p hp
      (hriv.congr hriv.1 rfl rfl hpar.symm) (hsn ▸ hlt)

end Ordered

namespace Newest
variable {l m : Lists} {rqs : List Request}

theorem of_mem (h : Newest l rqs)
    (hq : ∀ r, Established r → ∀ q ∈ m r, q.state = .live → ∃ x, Established x ∧ ∃ q' ∈ l x,
      q'.state = .live ∧ q'.param = q.param ∧ q'.origin = q.origin)
    (ht : ∀ t ∈ m (.wait (.static .connect)), t.state = .live →
      t ∈ l (.wait (.static .connect))) : Newest m rqs := by
  intro r hr q hqm hql t htm htl hmatch
  obtain ⟨x, hx, q', hq', hst, hp, ho⟩ := hq r hr q hqm hql
  exact (h x hx q' hq' hst t (ht t htm htl) htl (hp ▸ hmatch)).congr hp.symm ho.symm

theorem issue (h : Newest l rqs) (x : Request) : Newest l (rqs ++ [x]) :=
  fun r hr q hq hql t ht htl hm => (h r hr q hq hql t ht htl hm).mono x

theorem del (h : Newest l rqs) (r : ListRef) (id : ℕ) : Newest (listDel l r id) rqs :=
  h.of_mem (fun x hx q hq hl => ⟨x, hx, q, (mem_listDel.mp hq).1, hl, rfl, rfl⟩)
    fun _ ht _ => (mem_listDel.mp ht).1

theorem judge (h : Newest l rqs) (type : PeonType) (p : Task) : Newest (judgeLists l type p) rqs :=
  h.of_mem (fun x hx q hq hl => ⟨x, hx, q, (mem_judgeLists_live hq hl).1, hl, rfl, rfl⟩)
    fun _ ht hl => (mem_judgeLists_live ht hl).1

theorem add (h : Newest l rqs) {r : ListRef} {p : Task} (hr : ¬Established r)
    (hp : r = .wait (.static .connect) → ∀ x, Established x → ∀ q ∈ l x, q.state = .live →
      peonTaskMatch q.param p.param false = true → HasLater rqs q) :
    Newest (listAddTail l r p) rqs := by
  intro x hx q hq hql t ht htl hm
  rcases mem_listAddTail.mp hq with hq' | ⟨rfl, -⟩
  · rcases mem_listAddTail.mp ht with ht' | ⟨he, rfl⟩
    · exact h x hx q hq' hql t ht' htl hm
    · exact hp he.symm x hx q hq' hql hm
  · exact absurd hx hr

end Newest

/-- When `p` is picked, no other live task for its target stays in the connect
peon's list: the older ones are marked, a newer one would have stopped `p`, and
no two have the same number. -/
theorem newest_pick {l : Lists} {rqs : List Request} {gen : ℕ} (hr : RequestsOk l rqs gen)
    (hf : AllFit l) (h : Newest l rqs) {p : Task} (hp : p ∈ l (.wait (.static .connect)))
    (hs : superseded l .connect p = false) :
    Newest (listAddTail (listDel (judgeLists l .connect p) (.wait (.static .connect)) p.id)
      (.proc (.static .connect)) p) rqs := by
  have hwait : ∀ t ∈ listAddTail (listDel (judgeLists l .connect p) (.wait (.static .connect)) p.id)
      (.proc (.static .connect)) p (.wait (.static .connect)), t.state = .live →
      t ∈ l (.wait (.static .connect)) ∧ t.id ≠ p.id ∧
        judgeMark .connect p (.wait (.static .connect)) t = t := by
    intro t ht hl
    rcases mem_listAddTail.mp ht with ht | ⟨he, -⟩
    · obtain ⟨ht, hne⟩ := mem_listDel.mp ht
      obtain ⟨ht, he⟩ := mem_judgeLists_live ht hl
      exact ⟨ht, hne rfl, he⟩
    · cases he
  intro r hre q hq hql t ht htl hm
  obtain ⟨htw, hne, hmark⟩ := hwait t ht htl
  rcases mem_listAddTail.mp hq with hq | ⟨-, rfl⟩
  · exact h r hre q (mem_judgeLists_live (mem_listDel.mp hq).1 hql).1 hql t htw htl hm
  · exfalso
    have hold : ¬t.sn < q.sn := by
      intro hlt
      have ho : outdated q false t = true := outdated_iff.mpr ⟨htl, peonTaskMatch_symm hm, hlt⟩
      have hd := judgeMark_of_outdated .connect (.wait (.static .connect)) rfl ho
      rw [hmark, htl] at hd
      cases hd
    have hnew : ¬q.sn < t.sn := by
      intro hlt
      have hsup : superseded l .connect q = true :=
        superseded_iff.mpr ⟨⟨.wait (.static .connect), false, true⟩, by simp [judgeScans], t, htw,
          newer_iff.mpr ⟨htl, peonTaskMatch_symm hm, hlt⟩⟩
      rw [hs] at hsup
      cases hsup
    have hft := (fitsPeon_of_ne .connect (by simp)).mp (hf _ _ htw)
    have hfq := (fitsPeon_of_ne .connect (by simp)).mp (hf _ _ hp)
    exact hne (hr.distinct _ _ t htw q hp hft.1 hfq.1 (by omega) hft.2)

/-- A task that leaves one of the places of established tasks for the connect
peon's list had no other there. -/
theorem newest_return {l : Lists} {n : ℕ} {rqs : List Request} (hi : Ids l n) (ha : Alone l)
    (h : Newest l rqs) {r : ListRef} {p q : Task} (hr : Established r) (hp : p ∈ l r)
    (hl : p.state = .live) (hpar : q.param = p.param) :
    Newest (listAddTail (listDel l r p.id) (.wait (.static .connect)) q) rqs := by
  refine (h.del r p.id).add (not_established_wait nofun) fun _ x hx t ht htl hm => ?_
  obtain ⟨ht, hne⟩ := mem_listDel.mp ht
  have he := ha x r hx hr t ht p hp htl hl (hpar ▸ hm)
  exact absurd he (hne (hi.place x r t ht p hp he))

theorem newest_step {s s' : Sched} {l : Label} (hb : Base s) (ha : Alone s.list)
    (hr : RequestsOk s.list s.requests s.snGen) (h : Newest s.list s.requests)
    (hs : step s l = some s') : Newest s'.list s'.requests := by
  have hpending : ¬Established .pending := by
    rintro (he | he) <;> cases he
  cases step_cases hs with
  | request => exact (h.issue _).add hpending nofun
  | inherit => exact h.add hpending nofun
  | addFail | getDead | completeFree | recheckDrop => exact h.del _ _
  | @add t create _ ht =>
    have hfit := hb.fit _ _ ht
    refine (h.del _ _).add (not_established_wait (by simpa using hfit.1)) ?_
    -- the latest request comes in, and the task established has another one
    rintro he x hx q hq hql hm
    have htc : t.origin.type = .connect := by simpa using he
    have hq := (mem_listDel.mp hq).1
    have hqc : q.origin.type = .connect := by
      rcases hx with rfl | rfl
      · exact ((fitsPeon_of_ne .connect nofun).mp (hb.fit _ _ hq).2).1
      · exact (fitsPeon_recheck.mp (hb.fit _ _ hq)).1
    obtain ⟨rq, -, hsq, -⟩ := hr.serves x q hq
    obtain ⟨rt, -, hst, -⟩ := hr.serves .pending t ht
    have hqi := hsq.inherited_eq hqc
    have hti := hst.inherited_eq htc
    have hlast := hr.last t ht hti
    have hlt := hr.serves_lt hq
    have hne : q.origin.request ≠ t.origin.request := by
      intro he
      have hid := hr.once x .pending q hq t ht hqi hti he
      exact hpending (hb.ids.place x .pending q hq t ht hid ▸ hx)
    refine later_of_request_lt hr ht ?_ (by omega)
    rw [hqc, htc]
    exact hm
  | addDyn => exact (h.del _ _).add (not_established_wait nofun) nofun
  | @completeRetry ref i p ret now _ _ hp hlive =>
    by_cases hc : ref = .static .connect
    · subst hc
      exact newest_return hb.ids ha h (.inl rfl) hp hlive rfl
    · exact (h.del _ _).add (not_established_wait (hb.fit _ _ hp).1) (by simp [hc])
  | @completeRecheck ref i p ret now _ _ hp hlive _ hc =>
    obtain rfl := eq_connect_of_type hc
    refine h.of_mem (fun x hx q hq hql => ?_) fun t ht _ => ?_
    · rcases mem_listAddTail.mp hq with hq | ⟨-, rfl⟩
      · exact ⟨x, hx, q, (mem_listDel.mp hq).1, hql, rfl, rfl⟩
      · exact ⟨_, .inl rfl, p, hp, hlive, rfl, rfl⟩
    · simpa [mem_listAddTail, mem_listDel] using ht
  | relive _ hp hlive => exact newest_return hb.ids ha h (.inr rfl) hp hlive rfl
  | getLeave => exact h.judge _ _
  | getDiscard => exact (h.judge _ _).del _ _
  | @getPick ref i rest p now hh hp _ _ hsup =>
    by_cases hc : ref = .static .connect
    · subst hc
      exact newest_pick hr hb.fit h hp hsup
    · exact ((h.judge _ _).del _ _).add (not_established_proc hc) nofun
  | deconstruct =>
    exact h.of_mem (fun x hx q hq hl => ⟨x, hx, q, (mem_update_nil.mp hq).1, hl, rfl, rfl⟩)
      fun _ ht _ => by simpa using ht
  | addStuck | poll | handle | recheck | recheckKeep | unlockGet | unlockRecheck | exit => exact h

/-! The numbers of contending tasks. -/

theorem contends_of_worker {s s' : Sched}
    (hw : ∀ k, s'.worker (.dyn k, 0) = .idle → s.worker (.dyn k, 0) = .idle) {r : ListRef}
    (h : Contends s' r) : Contends s r := by
  match r with
  | .pending => trivial
  | .wait (.static _) | .proc (.static _) => exact h
  | .wait (.dyn k) => exact hw k h
  | .proc (.dyn _) => exact h

theorem contends_sn {s : Sched} (hf : AllFit s.list) {r : ListRef} (hr : Contends s r) {x : Task}
    (hx : x ∈ s.list r) : x.sn ≠ 0 := by
  have hfit := hf r x hx
  match r with
  | .pending => exact hfit.2.1
  | .wait (.static type) => exact ((fitsPeon_of_ne type hr).mp hfit).2
  | .proc (.static type) => exact ((fitsPeon_of_ne type hr).mp hfit.2).2
  | .wait (.dyn _) => exact ((fitsPeon_of_ne .disconn nofun).mp hfit).2
  | .proc (.dyn _) => exact hr.elim

theorem not_onConnect {r : ListRef} (h : r = .pending ∨ (∃ k, r = .wait (.dyn k)) ∨
    r = .wait (.static .recheck)) : ¬OnConnect r := by
  rintro (rfl | rfl) <;> simp at h

theorem ordered_step {s s' : Sched} {l : Label} (hb : Base s)
    (hr : RequestsOk s.list s.requests s.snGen) (h : Ordered (Contends s) s.list s.requests)
    (hok : LastWinsOk s l) (hwrap : NoWrap s l) (hs : step s l = some s') :
    Ordered (Contends s') s'.list s'.requests := by
  have hsame : ∀ {t : Sched}, (∀ k, t.worker (.dyn k, 0) = .idle → s.worker (.dyn k, 0) = .idle) →
      Ordered (Contends t) s.list s.requests :=
    fun hw => h.mono fun r hc _ _ => contends_of_worker hw hc
  have hgen : ∀ r, ∀ y ∈ s.list r, y.sn ≤ s.snGen := by
    intro r y hy
    obtain ⟨-, -, -, hle⟩ := hr.serves r y hy
    exact hle
  -- a worker that goes on to something else than idling
  have hset : ∀ w : Worker, w ≠ .idle → ∀ {t : Sched} {x : PeonRef × ℕ},
      t.worker = Function.update s.worker x w → ∀ k, t.worker (.dyn k, 0) = .idle →
        s.worker (.dyn k, 0) = .idle := by
    intro w hw t x ht k hk
    rw [ht] at hk
    by_cases hx : (PeonRef.dyn k, 0) = x
    · subst hx
      rw [Function.update_self] at hk
      exact absurd hk hw
    · rwa [Function.update_of_ne hx] at hk
  have hround : ∀ {ref : PeonRef} {i : ℕ} {t : Sched},
      t.worker = Function.update s.worker (ref, i) (afterRound ref) → ∀ k,
        t.worker (.dyn k, 0) = .idle → s.worker (.dyn k, 0) = .idle := by
    intro ref i t ht k hk
    cases ref with
    | static type =>
      rw [ht] at hk
      simpa using hk
    | dyn j => exact hset .leaving nofun ht k hk
  cases step_cases hs with
  | @request type param toolbox tm =>
    refine ((hsame fun _ => id).issue _).add (fun _ z _ y hy _ hlt => ?_)
      fun hon => absurd hon (not_onConnect (.inl rfl))
    have hle := hgen z y hy
    have hlt : peonSnGenerate s.snGen < y.sn := hlt
    rw [peonSnGenerate_eq hwrap] at hlt
    omega
  | inherit =>
    refine (hsame fun _ => id).add (fun _ _ _ _ _ hriv => ?_)
      fun hon => absurd hon (not_onConnect (.inl rfl))
    cases hriv.2.1
  | addFail | getDead | recheckDrop => exact (hsame fun _ => id).del _ _
  | @add t create _ ht =>
    refine ((hsame fun _ => id).del _ _).add (fun _ z hz y hy hriv hlt => ?_)
      fun hon a hca x hx hriv hlt => ?_
    · exact h .pending trivial t ht z hz y (mem_listDel.mp hy).1 hriv hlt
    · have htc : t.origin.type = .connect := by simpa [OnConnect] using hon
      have hx := (mem_listDel.mp hx).1
      have hca : Contends s a := contends_of_worker (fun _ => id) hca
      exact later_of_sn_lt hr hx ht (htc ▸ hriv.2.2) (contends_sn hb.fit hca hx) hlt
        (hr.pending t ht)
  | @addDyn t _ ht hc =>
    have hnew : Ordered (Contends ((peonDynCreate (s.del .pending t.id) t).emit [.added t])) s.list
        s.requests := by
      apply h.mono
      intro r hcr x hx
      by_cases hk : r = .wait (.dyn s.nextDyn)
      · rw [hk, (hb.dyn.fresh _ le_rfl).2] at hx
        cases hx
      · match r with
        | .pending => trivial
        | .wait (.static _) | .proc (.static _) => exact hcr
        | .wait (.dyn k) =>
          have hne : k ≠ s.nextDyn := by simpa using hk
          simpa [Contends, hne] using hcr
        | .proc (.dyn _) => exact hcr
    refine (hnew.del _ _).add (fun _ z hz y hy hriv hlt => ?_)
      fun hon => absurd hon (not_onConnect (.inr (.inl ⟨_, rfl⟩)))
    exact h .pending trivial t ht z hz y (mem_listDel.mp hy).1 hriv hlt
  | @completeRetry ref i p ret now _ hw hp hlive =>
    refine (hsame (hround rfl)).move hp hlive rfl rfl rfl (fun hcw => ?_) fun hon => ?_
    · cases ref with
      | static type => exact hcw
      | dyn k =>
        -- the worker of a dynamic peon is on its way out
        obtain rfl := hb.dyn.zero hw nofun
        simp [Contends, afterRound] at hcw
    · simpa [OnConnect] using hon
  | @completeRecheck ref i p ret now _ hw hp hlive _ hc =>
    refine ((hsame (hround rfl)).del _ _).add (fun hcr => absurd rfl hcr)
      fun hon => absurd hon (not_onConnect (.inr (.inr rfl)))
  | completeFree _ hw => exact (hsame (hround rfl)).del _ _
  | @relive rest p ret now hh hp hlive hc hret =>
    have hsn : peonSnGenerate s.snGen = s.snGen+1 := peonSnGenerate_eq hwrap
    refine ((hsame fun _ => id).del _ _).add (fun _ z _ y hy _ hlt => ?_)
      fun _ a hca x hx hriv hlt => ?_
    · have hle := hgen z y (mem_listDel.mp hy).1
      have hlt : peonSnGenerate s.snGen < y.sn := hlt
      omega
    · have hx := (mem_listDel.mp hx).1
      have hca : Contends s a := contends_of_worker (fun _ => id) hca
      rcases Nat.lt_or_ge x.origin.request p.origin.request with hlt | hge
      · have hpc := (fitsPeon_recheck.mp (hb.fit _ _ hp)).1
        exact later_of_request_lt hr hp (hpc ▸ hriv.2.2) hlt
      · exact hok rest p hp hh hlive hc hret a hca x hx hriv hge
  | getLeave => exact (hsame fun _ => id).judge _ _
  | getDiscard => exact ((hsame fun _ => id).judge _ _).del _ _
  | @getPick ref i rest p now hh hp hlive =>
    refine ((hsame (hset (.running p.id) nofun rfl)).judge _ _).move (mem_judged_self hp) hlive
      rfl rfl rfl (fun hcp => ?_) fun hon => ?_
    · cases ref with
      | static type => exact hcp
      | dyn k => exact hcp.elim
    · simpa [OnConnect] using hon
  | deconstruct =>
    refine h.of_mem (fun r hcr x hx hst => ?_) fun z hz y hy => ?_
    · exact ⟨r, contends_of_worker (hset .exiting nofun rfl) hcr, x, (mem_update_nil.mp hx).1, hst,
        rfl, rfl, rfl⟩
    · exact ⟨z, hz, y, (mem_update_nil.mp hy).1, rfl, rfl⟩
  | @handle ref i p ret => exact hsame (hset (.handled p.id ret) nofun rfl)
  | unlockGet => exact hsame (hround rfl)
  | exit => exact hsame (hset .absent nofun rfl)
  | addStuck | poll | recheck | recheckKeep | unlockRecheck => exact hsame fun _ => id

/-! The scans go by the order of the requests. -/

theorem scan_place (s : Sched) {type : PeonType} {sc : Scan} (h : sc ∈ judgeScans type) :
    sc.list = .wait (.static .recheck) ∧ (type = .connect ∨ type = .disconn) ∨
      Contends s sc.list := by
  cases type with
  | recheck => cases h
  | connect | disconn | dcbatch =>
    simp only [judgeScans, List.mem_cons, List.not_mem_nil, or_false] at h
    rcases h with rfl | rfl | rfl | rfl | rfl | rfl | rfl <;> simp [Contends]

theorem scan_connect {type : PeonType} {sc : Scan} (h : sc ∈ judgeScans type) {q : Task}
    (hf : Fits sc.list q) (hc : q.origin.type = .connect) : OnConnect sc.list ∨ q.sn = 0 := by
  cases type with
  | recheck => cases h
  | connect | disconn | dcbatch =>
    simp only [judgeScans, List.mem_cons, List.not_mem_nil, or_false] at h
    rcases h with rfl | rfl | rfl | rfl | rfl | rfl | rfl <;>
      simp_all [Fits, FitsPeon, PeonRef.type, OnConnect]

section Scans
variable {s : Sched} (hb : Base s) (hr : RequestsOk s.list s.requests s.snGen)
  (h : Ordered (Contends s) s.list s.requests) {ref : PeonRef} {i : ℕ} {rest : List ℕ} {p : Task}
  (hh : s.holder = .get ref i (p.id :: rest)) (hp : p ∈ s.list (.wait ref))
  (hlive : p.state = .live)
include hb hr h hh hp hlive

theorem dead_has_later (hn : Newest s.list s.requests) {now : ℕ} (hok : LastWinsOk s (.get now))
    {sc : Scan} (hsc : sc ∈ judgeScans ref.type) {q : Task} (hq : q ∈ s.list sc.list)
    (ho : outdated p sc.isbatch q = true) (hi : q.origin.inherited = false) :
    HasLater s.requests q := by
  have href : ref.type ≠ .recheck := by
    intro hrc
    rw [hrc] at hsc
    cases hsc
  obtain ⟨hpt, hpsn⟩ := (fitsPeon_of_ne _ href).mp (hb.fit _ p hp)
  obtain ⟨hm, hlt⟩ := outdated_beaten hb.fit (hb.fit _ p hp) hsc hq ho
  have hql := (outdated_iff.mp ho).1
  have hqf := hb.fit _ q hq
  rcases scan_place s hsc with ⟨hrw, htype⟩ | hcon
  · -- `q` waits for its recheck
    rw [hrw] at hq hqf
    have hqc := (fitsPeon_recheck.mp hqf).1
    have hm' : peonTaskMatch q.param p.param false = true := by
      rwa [hqc, hpt, show isBatch .connect ref.type = false by
        rcases htype with he | he <;> rw [he] <;> rfl] at hm
    rcases htype with hc | hd
    · rw [eq_connect_of_type hc] at hp
      exact hn _ (.inr rfl) q hq hql p hp hlive hm'
    · rcases Nat.lt_or_ge q.origin.request p.origin.request with hlt' | hge
      · exact later_of_request_lt hr hp hm hlt'
      · exact hok ref i rest p hp hh hlive hd q hq hql hm' hge
  · by_cases hc : ref.type = .connect
    · rw [eq_connect_of_type hc] at hp
      exact h _ hcon q hq _ (.inl rfl) p hp ⟨hql, hi, (hpt.trans hc) ▸ hm⟩ hlt
    · refine later_of_sn_lt hr hq hp hm (contends_sn hb.fit hcon hq) hlt fun rq hrq => ?_
      obtain ⟨rp, hrp, hs, -⟩ := hr.serves _ p hp
      obtain rfl := Option.some.inj (hrp.symm.trans hrq)
      exact hs.same (hpt ▸ hc)

theorem discarded_has_later {sc : Scan} (hsc : sc ∈ judgeScans ref.type) {q : Task}
    (hq : q ∈ s.list sc.list) (hn : newer p sc.isbatch q = true)
    (hi : p.origin.inherited = false) : HasLater s.requests p := by
  obtain ⟨hm, hlt⟩ := newer_beats hb.fit (hb.fit _ p hp) hsc hq hn
  have hcon : Contends s (.wait ref) := by
    obtain ⟨hidle, hne⟩ := hb.workers.holder _ _ _ hh
    cases ref with
    | static type => simpa [Contends] using hne
    | dyn k =>
      obtain rfl := hb.dyn.zero hidle nofun
      exact hidle
  by_cases hqc : q.origin.type = .connect
  · rcases scan_connect hsc (hb.fit _ q hq) hqc with hon | hz
    · exact h _ hcon p hp _ hon q hq ⟨hlive, hi, hqc ▸ hm⟩ hlt
    · omega
  · refine later_of_sn_lt hr hp hq hm (contends_sn hb.fit hcon hp) hlt fun rq hrq => ?_
    obtain ⟨rp, hrp, hs, -⟩ := hr.serves _ q hq
    obtain rfl := Option.some.inj (hrp.symm.trans hrq)
    exact hs.same hqc

end Scans

/-- A task of its own request that loses is one whose target has a later one. -/
def LosersHaveLater (rqs : List Request) (log : List Event) : Prop :=
  ∀ q o, .markedDead q o ∈ log ∨ .discarded q o ∈ log → q.origin.inherited = false →
    HasLater rqs q ∧ ∃ rq, rqs[q.origin.request]? = some rq ∧ rq.type = q.origin.type ∧
      rq.param = q.param

namespace LosersHaveLater
variable {rqs : List Request} {log es : List Event}

theorem append (h : LosersHaveLater rqs log) (hes : LosersHaveLater rqs es) :
    LosersHaveLater rqs (log ++ es) := by
  intro q o he hi
  simp only [List.mem_append] at he
  have hor : (.markedDead q o ∈ log ∨ .discarded q o ∈ log) ∨
      (.markedDead q o ∈ es ∨ .discarded q o ∈ es) := by
    rcases he with (he | he) | he | he <;> simp [he]
  exact hor.elim (h q o · hi) (hes q o · hi)

theorem of_not (h : ∀ q o, .markedDead q o ∉ es ∧ .discarded q o ∉ es) : LosersHaveLater rqs es :=
  fun q o he _ => absurd he (by simp [h q o])

theorem issue (h : LosersHaveLater rqs log) (x : Request) : LosersHaveLater (rqs ++ [x]) log := by
  intro q o he hi
  obtain ⟨hl, rq, hrq, heq⟩ := h q o he hi
  exact ⟨hl.mono x, rq, getElem?_append_some hrq, heq⟩

end LosersHaveLater

theorem losers_step {s s' : Sched} {l : Label} (hb : Base s)
    (hr : RequestsOk s.list s.requests s.snGen) (ho : Ordered (Contends s) s.list s.requests)
    (hn : Newest s.list s.requests) (h : LosersHaveLater s.requests s.log) (hok : LastWinsOk s l)
    (hs : step s l = some s') : LosersHaveLater s'.requests s'.log := by
  have hown : ∀ {r q}, q ∈ s.list r → q.origin.inherited = false →
      ∃ rq, s.requests[q.origin.request]? = some rq ∧ rq.type = q.origin.type ∧
        rq.param = q.param := by
    intro r q hq hi
    obtain ⟨rq, hrq, hsv, -⟩ := hr.serves r q hq
    exact ⟨rq, hrq, hsv.own hi⟩
  have hdead : ∀ {ref i rest p now}, l = .get now → s.holder = .get ref i (p.id :: rest) →
      p ∈ s.list (.wait ref) → p.state = .live →
        LosersHaveLater s.requests (judgeDead s.list ref.type p) := by
    rintro ref i rest p now rfl hh hp hlive q o (he | he) hi
    · obtain ⟨sc, hsc, q', hq, hout, he⟩ := mem_judgeDead.mp he
      obtain ⟨rfl, rfl⟩ := Event.markedDead.inj he
      exact ⟨dead_has_later hb hr ho hh hp hlive hn hok hsc hq hout hi, hown hq hi⟩
    · simp [judgeDead] at he
  have hdiscard : ∀ {ref i rest p}, s.holder = .get ref i (p.id :: rest) →
      p ∈ s.list (.wait ref) → p.state = .live →
        LosersHaveLater s.requests (judgeDiscard s.list ref.type p) := by
    rintro ref i rest p hh hp hlive q o (he | he) hi
    · simp [judgeDiscard] at he
    · obtain ⟨sc, hsc, q', hq, hnew, he⟩ := mem_judgeDiscard.mp he
      obtain ⟨rfl, rfl⟩ := Event.discarded.inj he
      exact ⟨discarded_has_later hb hr ho hh hp hlive hsc hq hnew hi, hown hp hi⟩
  cases step_cases hs with
  | request => exact h.issue _
  | getLeave hh hp hlive | getPick hh hp hlive => exact h.append (hdead rfl hh hp hlive)
  | getDiscard hh hp hlive =>
    exact ((h.append (hdead rfl hh hp hlive)).append (hdiscard hh hp hlive)).append
      (.of_not (by simp))
  | add | addDyn | getDead | handle | completeFree | recheckDrop | relive | deconstruct =>
    exact h.append (.of_not (by simp))
  | inherit | addFail | addStuck | poll | completeRetry | completeRecheck | recheck | recheckKeep |
    unlockGet | unlockRecheck | exit => exact h

/-- What a run of requests issued one after another keeps. -/
structure LastWinsInv (s : Sched) : Prop where
  base : Base s
  alone : Alone s.list
  requests : RequestsOk s.list s.requests s.snGen
  ordered : Ordered (Contends s) s.list s.requests
  newest : Newest s.list s.requests
  losers : LosersHaveLater s.requests s.log

theorem lastWinsInv_step {s s' : Sched} {l : Label} (h : LastWinsInv s) (hseq : Sequential s l)
    (hwrap : NoWrap s l) (hok : LastWinsOk s l) (hs : step s l = some s') : LastWinsInv s' where
  base := base_step h.base hs
  alone := alone_step h.base h.alone hs
  requests := requestsOk_step h.base h.requests hseq hwrap hs
  ordered := ordered_step h.base h.requests h.ordered hok hwrap hs
  newest := newest_step h.base h.alone h.requests h.newest hs
  losers := losers_step h.base h.requests h.ordered h.newest h.losers hok hs

theorem lastWinsInv_init (cfgRestrainTime : ℕ) : LastWinsInv (Sched.init cfgRestrainTime) where
  base := base_init cfgRestrainTime
  alone := fun _ _ _ _ _ ht => absurd ht List.not_mem_nil
  requests := by
    refine ⟨fun _ _ _ _ _ hi => ?_, nofun, fun _ _ ht => absurd ht List.not_mem_nil,
      fun _ _ _ ht => absurd ht List.not_mem_nil, fun _ ht => absurd ht List.not_mem_nil,
      fun _ ht => absurd ht List.not_mem_nil, fun _ _ _ ht => absurd ht List.not_mem_nil⟩
    cases hi
  ordered := fun _ _ _ hx => absurd hx List.not_mem_nil
  newest := fun _ _ _ hq => absurd hq List.not_mem_nil
  losers := .of_not fun _ _ => ⟨List.not_mem_nil, List.not_mem_nil⟩

/-- The request `r` is the latest for its target. -/
def Latest (rqs : List Request) (r : ℕ) (rq : Request) : Prop :=
  ∀ j rj, r < j → rqs[j]? = some rj →
    peonTaskMatch rq.param rj.param (isBatch rq.type rj.type) = false

/-- In a run of requests issued one after another that keeps to `LastWinsOk`, the
task of the latest request for a target is neither marked dead nor discarded. -/
theorem last_request_wins (cfgRestrainTime : ℕ) (ls : List Label) (s : Sched)
    (hseq : RunMeets step Sequential (Sched.init cfgRestrainTime) ls)
    (hok : RunMeets step (fun s l => NoWrap s l ∧ LastWinsOk s l) (Sched.init cfgRestrainTime) ls)
    (hr : run step (Sched.init cfgRestrainTime) ls = some s) :
    ∀ r rq, s.requests[r]? = some rq → Latest s.requests r rq →
      ∀ q o, q.origin.request = r → q.origin.inherited = false →
        .markedDead q o ∉ s.log ∧ .discarded q o ∉ s.log := by
  have hinv : LastWinsInv s := by
    apply run_meets_invariant (I := LastWinsInv) _ (lastWinsInv_init cfgRestrainTime)
      (hseq.and hok) hr
    exact fun s l s' h hl hs => lastWinsInv_step h hl.1 hl.2.1 hl.2.2 hs
  intro r rq hrq hlatest q o hqr hi
  apply not_or.mp
  intro he
  obtain ⟨⟨j, rj, hj, hrj, hm⟩, rq', hrq', htype, hparam⟩ := hinv.losers q o he hi
  rw [hqr] at hj hrq'
  obtain rfl := Option.some.inj (hrq.symm.trans hrq')
  rw [← htype, ← hparam, hlatest j rj hj hrj] at hm
  cases hm

/-- Two connects for one target: the first is discarded for the second. -/
theorem last_request_wins_sample :
    ∃ ls s, run step (Sched.init 3) ls = some s ∧ (∃ q o, .discarded q o ∈ s.log) ∧
      ∀ r rq, s.requests[r]? = some rq → Latest s.requests r rq →
        ∀ q o, q.origin.request = r → q.origin.inherited = false →
          .markedDead q o ∉ s.log ∧ .discarded q o ∉ s.log := by
  let ls : List Label := [.request .connect sampleParam sampleToolbox 0, .add 0 .ok,
    .request .connect sampleParam sampleToolbox 1, .add 1 .ok, .poll (.static .connect) 0, .get 5]
  obtain ⟨s, hs⟩ : ∃ s, run step (Sched.init 3) ls = some s := ⟨_, rfl⟩
  refine ⟨ls, s, hs, ?_, last_request_wins 3 ls s ?_ ?_ hs⟩
  · obtain rfl := Option.some.inj hs
    exact ⟨⟨0, 0, 0, 1, .live, sampleToolbox, sampleParam, ⟨.connect, 0, false⟩⟩,
      ⟨1, 1, 0, 2, .live, sampleToolbox, sampleParam, ⟨.connect, 1, false⟩⟩, by decide⟩
  · exact .cons (by decide) rfl <| .cons trivial rfl <| .cons (by decide) rfl <|
      .cons trivial rfl <| .cons trivial rfl <| .cons trivial rfl trivial
  · refine .cons ⟨by decide, trivial⟩ rfl <| .cons ⟨trivial, trivial⟩ rfl <|
      .cons ⟨by decide, trivial⟩ rfl <| .cons ⟨trivial, trivial⟩ rfl <|
      .cons ⟨trivial, trivial⟩ rfl <| .cons ⟨trivial, ?_⟩ rfl trivial
    intro ref i rest p _ hh _ hd
    injection hh with href
    cases href
    cases hd

/-- A target is connected; a disconnect for it is added, and before a worker
comes to it the recheck fails and the connect worker polls. -/
def relivedFirst : List Label :=
  [.request .connect sampleParam sampleToolbox 0, .add 0 .ok, .poll (.static .connect) 0, .get 5,
   .handle (.static .connect) 0 0, .complete (.static .connect) 0 6,
   .request .disconn sampleParam sampleToolbox 7, .add 1 .ok,
   .recheck, .recheckOne 1 8, .unlock, .poll (.static .connect) 0, .get 9]

theorem last_request_loses_relived :
    ¬∀ cfgRestrainTime ls s, RunMeets step Sequential (Sched.init cfgRestrainTime) ls →
      run step (Sched.init cfgRestrainTime) ls = some s →
        ∀ r rq, s.requests[r]? = some rq → Latest s.requests r rq →
          ∀ q o, q.origin.request = r → q.origin.inherited = false →
            .markedDead q o ∉ s.log ∧ .discarded q o ∉ s.log := by
  intro h
  have hseq : RunMeets step Sequential (Sched.init 3) relivedFirst :=
    .cons (by decide) rfl <| .cons trivial rfl <| .cons trivial rfl <| .cons trivial rfl <|
      .cons trivial rfl <| .cons trivial rfl <| .cons (by decide) rfl <| .cons trivial rfl <|
      .cons trivial rfl <| .cons trivial rfl <| .cons trivial rfl <| .cons trivial rfl <|
      .cons trivial rfl trivial
  have hrun : ∃ s, run step (Sched.init 3) relivedFirst = some s ∧
      s.requests = [⟨.connect, sampleParam, 1⟩, ⟨.disconn, sampleParam, 2⟩] ∧
      .markedDead ⟨1, 7, 0, 2, .live, sampleToolbox, sampleParam, ⟨.disconn, 1, false⟩⟩
        ⟨0, 8, 0, 3, .live, sampleToolbox, sampleParam, ⟨.connect, 0, false⟩⟩ ∈ s.log := by
    refine ⟨_, rfl, ?_⟩
    decide
  obtain ⟨s, hs, hrq, hdead⟩ := hrun
  refine (h 3 relivedFirst s hseq hs 1 ⟨.disconn, sampleParam, 2⟩ (by rw [hrq]; rfl) ?_ _ _ rfl
    rfl).1 hdead
  intro j rj hj hrj
  rw [hrq, List.getElem?_eq_none (Nat.succ_le_of_lt hj)] at hrj
  cases hrj

end NvmeSnsd.ConnPeon
