import Jancy.Sys.Timer
import Mathlib.Algebra.Order.Group.Nat

/-! Runs of a timer: what holds of each of its threads and of each call in progress. -/
namespace Jancy.Sys

variable {F : Type}

/-- In `start`, past `stop`. -/
def CallPc.isPast : CallPc → Bool
  | .setting | .resetting | .creating => true
  | _ => false

namespace Timer

variable {s s' : Timer F} {caller caller' : Caller} {t : ℕ} {thread : TimerThread F}

@[simp] theorem setCall_calls (s : Timer F) (caller caller' : Caller) (c : Option (CallState F)) :
    (s.setCall caller c).calls caller' = if caller' = caller then c else s.calls caller' :=
  Function.update_apply _ _ _ _

@[simp] theorem setThread_threads (s : Timer F) (t t' : ℕ) (thread : TimerThread F) :
    (s.setThread t thread).threads t' = if t' = t then some thread else s.threads t' :=
  Function.update_apply _ _ _ _

/-- A thread that has not ended is the one that the timer has, or its function has called `start`
and has not returned yet. -/
structure ThreadOk (s : Timer F) (t : ℕ) (thread : TimerThread F) : Prop where
  alive : thread.pc ≠ .ended → s.thread = some t ∨
    (thread.isRestarted = true ∧ ∃ isFirst, thread.pc = .inside isFirst)
  stopped : thread.pc ≠ .ended → thread.isStopped = true →
    (∃ isFirst, thread.pc = .inside isFirst) ∨
      (thread.isRestarted = false ∧ ∃ deadline, thread.pc = .pausing deadline)
  restarted : thread.isRestarted = true → thread.isStopped = true
  running : s.thread = some t → thread.pc ≠ .ended → thread.isStopped = false →
    s.timerFuncPtr = some thread.schedule.ptr ∧ s.dueTime = thread.schedule.dueTime
  settled : s.thread = some t → thread.pc ≠ .ended → thread.isStopped = true →
    thread.isRestarted = false → s.interval = 0 ∧ s.stopEvent = true
  delayed : ∀ deadline, thread.pc = .delaying (some deadline) → thread.schedule.dueTime ≤ deadline
  due : thread.pc = .calling true → thread.schedule.dueTime ≤ s.now

/-- How far a call in progress can have come. -/
structure CallOk (s : Timer F) (caller : Caller) (c : CallState F) : Prop where
  inside : ∀ t, caller = .timer t →
    ∃ thread isFirst, s.threads t = some thread ∧ thread.pc = .inside isFirst
  starts : c.pc.isPast = true → c.call.isStart = true
  filled : c.pc = .resetting ∨ c.pc = .creating → ∀ schedule, c.call = .start schedule →
    s.timerFuncPtr = some schedule.ptr ∧ s.dueTime = schedule.dueTime
  closed : s.isOwn caller = false → c.pc = .clearing ∨ c.pc.isPast = true → s.thread = none
  awaited : ∀ w, c.pc = .waiting w → w = s.thread ∧ s.isOwn caller = false
  signaled : s.isOwn caller = true → c.pc = .checking ∨ c.pc = .clearing → s.stopEvent = true
  noted : s.isOwn caller = true → c.pc.isPast = true → ∀ t thread, s.thread = some t →
    s.threads t = some thread → thread.isRestarted = true

structure Inv (s : Timer F) : Prop where
  fresh : ∀ t, s.threadCount ≤ t → s.threads t = none
  threads : ∀ t thread, s.threads t = some thread → s.ThreadOk t thread
  calls : ∀ caller c, s.calls caller = some c → s.CallOk caller c
  /-- calls do not overlap, except for `stop` from inside of the function -/
  alone : ∀ caller caller' c c', s.calls caller = some c → s.calls caller' = some c' →
    ¬s.IsOwnStop caller c.call → ¬s.IsOwnStop caller' c'.call → caller = caller'

theorem initial_inv : (initial : Timer F).Inv :=
  ⟨fun _ _ => rfl,nofun,nofun,nofun⟩

theorem isOwn_iff : s.isOwn caller = true ↔ ∃ t, caller = .timer t ∧ s.thread = some t := by
  cases caller with
  | timer t => simp [isOwn]
  | other i => simp [isOwn]

theorem isOwn_unique (h : s.isOwn caller = true) (h' : s.isOwn caller' = true) :
    caller = caller' := by
  obtain ⟨t,rfl,ht⟩ := isOwn_iff.mp h
  obtain ⟨t',rfl,ht'⟩ := isOwn_iff.mp h'
  rw [Option.some.inj (ht.symm.trans ht')]

theorem isOwn_congr (h : s'.thread = s.thread) (caller : Caller) :
    s'.isOwn caller = s.isOwn caller := by
  cases caller with
  | timer t => simp [isOwn,h]
  | other i => rfl

theorem Inv.only (h : s.Inv) {c c' : CallState F} (hc : s.calls caller = some c)
    (hc' : s.calls caller' = some c')
    (halone : (s.isOwn caller = true ∧ c.call.isStart = true) ∨ s.thread = none) :
    caller' = caller := by
  have hnot : ¬s.IsOwnStop caller c.call := by
    rintro ⟨hown,hstop⟩
    rcases halone with ⟨-,hstart⟩ | hnone
    · rw [hstop] at hstart
      cases hstart
    · obtain ⟨t,-,ht⟩ := isOwn_iff.mp hown
      rw [hnone] at ht
      cases ht
  by_cases hown' : s.isOwn caller' = true
  · rcases halone with ⟨hown,-⟩ | hnone
    · exact isOwn_unique hown' hown
    · obtain ⟨t,-,ht⟩ := isOwn_iff.mp hown'
      rw [hnone] at ht
      cases ht
  · exact (h.alone caller caller' c c' hc hc' hnot fun hstop => hown' hstop.1).symm

theorem ThreadOk.congr (h : s.ThreadOk t thread) (hthread : s'.thread = s.thread)
    (hfields : s'.timerFuncPtr = s.timerFuncPtr ∧ s'.dueTime = s.dueTime ∧ s'.interval = s.interval)
    (hevent : s.stopEvent = true → s'.stopEvent = true) (hnow : s.now ≤ s'.now) :
    s'.ThreadOk t thread where
  alive := by rw [hthread]; exact h.alive
  stopped := h.stopped
  restarted := h.restarted
  running := by rw [hthread,hfields.1,hfields.2.1]; exact h.running
  settled := fun ht hpc hs hr => by
    rw [hfields.2.2]
    exact (h.settled (hthread ▸ ht) hpc hs hr).imp_right hevent
  delayed := h.delayed
  due := fun hpc => (h.due hpc).trans hnow

theorem ThreadOk.apart (h : s.ThreadOk t thread) (hne : s'.thread ≠ some t)
    (halive : thread.pc ≠ .ended → thread.isRestarted = true ∧ ∃ isFirst, thread.pc = .inside isFirst)
    (hnow : s.now ≤ s'.now) : s'.ThreadOk t thread where
  alive := fun hpc => Or.inr (halive hpc)
  stopped := h.stopped
  restarted := h.restarted
  running := fun ht => absurd ht hne
  settled := fun ht => absurd ht hne
  delayed := h.delayed
  due := fun hpc => (h.due hpc).trans hnow

variable {c : CallState F}

theorem CallOk.congr (h : s.CallOk caller c) (hthread : s'.thread = s.thread)
    (hthreads : s'.threads = s.threads) (hfields : c.pc.isPast = true →
      s'.timerFuncPtr = s.timerFuncPtr ∧ s'.dueTime = s.dueTime)
    (hevent : s.stopEvent = true → s'.stopEvent = true) : s'.CallOk caller c where
  inside := by rw [hthreads]; exact h.inside
  starts := h.starts
  filled := fun hpc schedule hcall => by
    have hpast : c.pc.isPast = true := by rcases hpc with hpc | hpc <;> rw [hpc] <;> rfl
    rw [(hfields hpast).1,(hfields hpast).2]
    exact h.filled hpc schedule hcall
  closed := by rw [isOwn_congr hthread,hthread]; exact h.closed
  awaited := by rw [isOwn_congr hthread,hthread]; exact h.awaited
  signaled := fun hown hpc => hevent (h.signaled (isOwn_congr hthread caller ▸ hown) hpc)
  noted := by rw [isOwn_congr hthread,hthread,hthreads]; exact h.noted

variable {c' : Option (CallState F)}

theorem Inv.goOn (h : s.Inv) (hc : s.calls caller = some c) (d : Timer F)
    (hsame : ∀ e, c' = some e → e.call = c.call) (hcalls : d.calls = s.calls)
    (hthread : d.thread = s.thread) (hfresh : ∀ t, d.threadCount ≤ t → d.threads t = none)
    (hthreads : ∀ t thread, d.threads t = some thread → d.ThreadOk t thread)
    (hothers : ∀ caller' e, caller' ≠ caller → s.calls caller' = some e → d.CallOk caller' e)
    (hself : ∀ e, c' = some e → d.CallOk caller e) : (d.setCall caller c').Inv where
  fresh := hfresh
  threads := fun t thread ht => (hthreads t thread ht).congr rfl ⟨rfl,rfl,rfl⟩ id le_rfl
  calls := by
    intro caller' e he
    rw [setCall_calls] at he
    split_ifs at he with heq
    · rw [heq]
      exact (hself e he).congr rfl rfl (fun _ => ⟨rfl,rfl⟩) id
    · rw [hcalls] at he
      exact (hothers caller' e heq he).congr rfl rfl (fun _ => ⟨rfl,rfl⟩) id
  alone := by
    have hbefore : ∀ caller' e, (d.setCall caller c').calls caller' = some e →
        ¬(d.setCall caller c').IsOwnStop caller' e.call →
          ∃ e', s.calls caller' = some e' ∧ ¬s.IsOwnStop caller' e'.call := by
      intro caller' e he hnot
      have hown : (d.setCall caller c').isOwn caller' = s.isOwn caller' :=
        isOwn_congr hthread caller'
      rw [IsOwnStop,hown] at hnot
      rw [setCall_calls] at he
      split_ifs at he with heq
      · rw [hsame e he] at hnot
        exact ⟨c,heq ▸ hc,hnot⟩
      · exact ⟨e,hcalls ▸ he,hnot⟩
    intro caller₁ caller₂ e₁ e₂ he₁ he₂ hnot₁ hnot₂
    obtain ⟨e₁',he₁',hnot₁'⟩ := hbefore caller₁ e₁ he₁ hnot₁
    obtain ⟨e₂',he₂',hnot₂'⟩ := hbefore caller₂ e₂ he₂ hnot₂
    exact h.alone caller₁ caller₂ e₁' e₂' he₁' he₂' hnot₁' hnot₂'

theorem goOn_only (d : Timer F) (hnone : ∀ caller', caller' ≠ caller → d.calls caller' = none)
    (hfresh : ∀ t, d.threadCount ≤ t → d.threads t = none)
    (hthreads : ∀ t thread, d.threads t = some thread → d.ThreadOk t thread)
    (hself : ∀ e, c' = some e → d.CallOk caller e) : (d.setCall caller c').Inv := by
  have hcalls : ∀ caller' e, (d.setCall caller c').calls caller' = some e →
      caller' = caller ∧ c' = some e := by
    intro caller' e he
    rw [setCall_calls] at he
    split_ifs at he with heq
    · exact ⟨heq,he⟩
    · rw [hnone caller' heq] at he
      cases he
  refine ⟨hfresh,fun t thread ht => (hthreads t thread ht).congr rfl ⟨rfl,rfl,rfl⟩ id le_rfl,
    fun caller' e he => ?_,fun caller₁ caller₂ e₁ e₂ he₁ he₂ _ _ => ?_⟩
  · obtain ⟨rfl,hnew⟩ := hcalls caller' e he
    exact (hself e hnew).congr rfl rfl (fun _ => ⟨rfl,rfl⟩) id
  · rw [(hcalls caller₁ e₁ he₁).1,(hcalls caller₂ e₂ he₂).1]

theorem Inv.tick (h : s.Inv) (time : ℕ) : ({ s with now := s.now + time } : Timer F).Inv where
  fresh := h.fresh
  threads := fun t thread ht =>
    (h.threads t thread ht).congr rfl ⟨rfl,rfl,rfl⟩ id (Nat.le_add_right _ _)
  calls := fun caller c hc => (h.calls caller c hc).congr rfl rfl (fun _ => ⟨rfl,rfl⟩) id
  alone := h.alone

theorem Inv.call (h : s.Inv) {call : TimerCall F} (hok : s.StepOk (.call caller call))
    (hs : s.call caller call = some s') : s'.Inv := by
  unfold Timer.call at hs
  extract_lets isFree at hs
  split_ifs at hs with hfree
  cases hs
  have hself : s.CallOk caller ⟨call,.signaling⟩ := by
    refine ⟨?_,nofun,by simp,by simp [CallPc.isPast],nofun,by simp,nofun⟩
    rintro t rfl
    have hinside := hfree.1
    simp only [isFree] at hinside
    split at hinside
    · next ht => exact ⟨_,_,ht,rfl⟩
    · cases hinside
  refine ⟨h.fresh,fun t thread ht => (h.threads t thread ht).congr rfl ⟨rfl,rfl,rfl⟩ id le_rfl,
    fun caller' e he => ?_,fun caller₁ caller₂ e₁ e₂ he₁ he₂ hnot₁ hnot₂ => ?_⟩
  · rw [setCall_calls] at he
    split_ifs at he with heq
    · cases he
      rw [heq]
      exact hself.congr rfl rfl (fun _ => ⟨rfl,rfl⟩) id
    · exact (h.calls caller' e he).congr rfl rfl (fun _ => ⟨rfl,rfl⟩) id
  · rw [setCall_calls] at he₁ he₂
    split_ifs at he₁ he₂ with heq₁ heq₂ heq₂
    · rw [heq₁,heq₂]
    · cases he₁
      rw [heq₁] at hnot₁
      exact absurd (hok.resolve_left hnot₁ caller₂ e₂ he₂) hnot₂
    · cases he₂
      rw [heq₂] at hnot₂
      exact absurd (hok.resolve_left hnot₂ caller₁ e₁ he₁) hnot₁
    · exact h.alone caller₁ caller₂ e₁ e₂ he₁ he₂ hnot₁ hnot₂

theorem ThreadOk.stale (h : s.ThreadOk t thread) (hne : s.thread ≠ some t)
    (hpc : thread.pc ≠ .ended) :
    thread.isRestarted = true ∧ ∃ isFirst, thread.pc = .inside isFirst :=
  (h.alive hpc).resolve_left hne

theorem note_threads (s : Timer F) (t : ℕ) (isRestarted : Bool) (t' : ℕ) :
    (s.note (.timer t) isRestarted).threads t' = if t' = t then
      (s.threads t).map fun thread => { thread with isStopped := true, isRestarted }
      else s.threads t' := by
  unfold note
  dsimp only
  cases ht : s.threads t with
  | none =>
    split_ifs with heq
    · rw [heq,ht]
      rfl
    · rfl
  | some thread => exact setThread_threads s t t' _

theorem note_same (s : Timer F) (caller : Caller) (isRestarted : Bool) :
    (s.note caller isRestarted).calls = s.calls ∧
      (s.note caller isRestarted).thread = s.thread ∧
      (s.note caller isRestarted).threadCount = s.threadCount ∧
      (s.note caller isRestarted).stopEvent = s.stopEvent ∧
      (s.note caller isRestarted).interval = s.interval ∧
      (s.note caller isRestarted).now = s.now := by
  unfold note
  split
  · exact ⟨rfl,rfl,rfl,rfl,rfl,rfl⟩
  · split <;> exact ⟨rfl,rfl,rfl,rfl,rfl,rfl⟩

/-- No thread is left but those whose functions have called `start`. -/
theorem Inv.close (h : s.Inv) (hc : s.calls caller = some c) (hpc : c.pc = .waiting s.thread)
    (hended : s.hasEnded s.thread = true) :
    (s.close.setCall caller (some ⟨c.call,.clearing⟩)).Inv := by
  have hstale : ∀ t thread, s.threads t = some thread → thread.pc ≠ .ended →
      thread.isRestarted = true ∧ ∃ isFirst, thread.pc = .inside isFirst := by
    intro t thread ht hne
    refine (h.threads t thread ht).stale (fun hthread => ?_) hne
    rw [hthread] at hended
    simp only [hasEnded,ht,decide_eq_true_eq] at hended
    exact hne hended
  refine goOn_only s.close (fun caller' hne => ?_) (fun t ht => ?_) (fun t thread ht => ?_) ?_
  · show s.calls caller' = none
    refine Option.eq_none_iff_forall_ne_some.mpr fun c' hc' => ?_
    have hnotown := ((h.calls caller c hc).awaited _ hpc).2
    by_cases hown : s.isOwn caller' = true
    · obtain ⟨t,rfl,hthread⟩ := isOwn_iff.mp hown
      obtain ⟨thread,isFirst,ht,hinside⟩ := (h.calls _ c' hc').inside t rfl
      rw [hthread] at hended
      simp only [hasEnded,ht,decide_eq_true_eq] at hended
      rw [hinside] at hended
      cases hended
    · refine hne (h.alone caller caller' c c' hc hc' (fun hstop => ?_) fun hstop => ?_).symm
      · exact absurd (hnotown.symm.trans hstop.1) (by decide)
      · exact hown hstop.1
  · show (s.threads t).map _ = none
    rw [h.fresh t ht]
    rfl
  · obtain ⟨before,hbefore,rfl⟩ := Option.map_eq_some_iff.mp ht
    have hok := h.threads t before hbefore
    exact ⟨fun hne => Or.inr (hstale t before hbefore hne),
      fun hne _ => Or.inl (hstale t before hbefore hne).2,fun _ => rfl,by rintro ⟨⟩,
      by rintro ⟨⟩,hok.delayed,hok.due⟩
  · rintro _ ⟨⟩
    refine ⟨fun t ht => ?_,by rintro ⟨⟩,by simp,fun _ _ => rfl,by rintro _ ⟨⟩,fun hown => ?_,
      by rintro _ ⟨⟩⟩
    · obtain ⟨thread,isFirst,hthread,hinside⟩ := (h.calls caller c hc).inside t ht
      exact ⟨_,isFirst,Option.map_eq_some_iff.mpr ⟨thread,hthread,rfl⟩,hinside⟩
    · obtain ⟨t,-,ht⟩ := isOwn_iff.mp hown
      cases ht

theorem CallOk.past (h : s.CallOk caller c) (hpast : c.pc.isPast = true)
    (hthread : s.thread = some t) (ht : s.threads t = some thread) : thread.isRestarted = true := by
  by_cases hown : s.isOwn caller = true
  · exact h.noted hown hpast t thread hthread ht
  · rw [h.closed (Bool.eq_false_iff.mpr hown) (Or.inr hpast)] at hthread
    cases hthread

section

variable (h : s.Inv)

include h

theorem Inv.past_only (hc : s.calls caller = some c) (hpast : c.pc.isPast = true) {caller' : Caller}
    (hne : caller' ≠ caller) :
    s.calls caller' = none := by
  refine Option.eq_none_iff_forall_ne_some.mpr fun c' hc' => hne (h.only hc hc' ?_)
  have hok := h.calls caller c hc
  by_cases hown : s.isOwn caller = true
  · exact Or.inl ⟨hown,hok.starts hpast⟩
  · exact Or.inr (hok.closed (Bool.eq_false_iff.mpr hown) (Or.inr hpast))

theorem Inv.signal (hc : s.calls caller = some c) :
    (({ s with stopEvent := true } : Timer F).setCall caller (some ⟨c.call,.checking⟩)).Inv := by
  refine h.goOn hc { s with stopEvent := true } (fun e he => ?_) rfl rfl h.fresh
    (fun t thread ht => (h.threads t thread ht).congr rfl ⟨rfl,rfl,rfl⟩ (fun _ => rfl) le_rfl)
    (fun caller' e _ he => (h.calls caller' e he).congr rfl rfl (fun _ => ⟨rfl,rfl⟩) fun _ => rfl)
    fun e he => ?_
  · cases he
    rfl
  · cases he
    exact ⟨(h.calls caller c hc).inside,nofun,by simp,by simp [CallPc.isPast],nofun,
      fun _ _ => rfl,nofun⟩

theorem Inv.check (hc : s.calls caller = some c) (hpc : c.pc = .checking) :
    (s.setCall caller (some ⟨c.call,
      if s.isOwn caller then .clearing else .waiting s.thread⟩)).Inv := by
  have hok := h.calls caller c hc
  refine h.goOn hc s (fun e he => ?_) rfl rfl h.fresh h.threads (fun caller' e _ => h.calls caller' e)
    fun e he => ?_
  · cases he
    rfl
  · cases he
    cases hown : s.isOwn caller with
    | true =>
      exact ⟨hok.inside,nofun,by simp,fun hnot => absurd (hown.symm.trans hnot) (by decide),nofun,
        fun _ _ => hok.signaled hown (Or.inl hpc),nofun⟩
    | false =>
      exact ⟨hok.inside,nofun,by simp,fun _ hpast => by simp [CallPc.isPast] at hpast,
        fun w hw => ⟨(CallPc.waiting.inj hw).symm,hown⟩,by simp,nofun⟩

theorem Inv.clearOwn (hc : s.calls (.timer t) = some c) (hpc : c.pc = .clearing)
    (hthread : s.thread = some t)
    (hnext : c' = if c.call.isStart then some ⟨c.call,.setting⟩ else none) :
    ((s.clear.note (.timer t) c.call.isStart).setCall (.timer t) c').Inv := by
  have hown : s.isOwn (.timer t) = true := isOwn_iff.mpr ⟨t,rfl,hthread⟩
  have hok := h.calls _ c hc
  obtain ⟨thread,isFirst,ht,hinside⟩ := hok.inside t rfl
  obtain ⟨hcalls,hsame,hcount,hevent,hinterval,hnow⟩ := s.clear.note_same (.timer t) c.call.isStart
  have hnoted : ∀ t', (s.clear.note (.timer t) c.call.isStart).threads t' = if t' = t then
      some { thread with isStopped := true, isRestarted := c.call.isStart } else s.threads t' := by
    intro t'
    rw [note_threads]
    show (if t' = t then (s.threads t).map _ else s.threads t') = _
    rw [ht]
    rfl
  have hkeeps : ∀ t' before, s.threads t' = some before → ∃ after,
      (s.clear.note (.timer t) c.call.isStart).threads t' = some after ∧ after.pc = before.pc := by
    intro t' before hbefore
    rw [hnoted]
    split_ifs with heq
    · rw [heq,ht] at hbefore
      cases hbefore
      exact ⟨_,rfl,rfl⟩
    · exact ⟨before,hbefore,rfl⟩
  refine h.goOn hc _ (fun e he => ?_) hcalls hsame (fun t' ht' => ?_) (fun t' after ht' => ?_)
    (fun caller' e hne he => ?_) fun e he => ?_
  · rw [hnext] at he
    split_ifs at he
    cases he
    rfl
  · rw [hnoted,if_neg (fun heq => ?_)]
    · exact h.fresh t' (hcount ▸ ht')
    · rw [hcount,heq] at ht'
      rw [h.fresh t ht'] at ht
      cases ht
  · rw [hnoted] at ht'
    split_ifs at ht' with heq
    · cases ht'
      rw [heq]
      refine ⟨fun _ => Or.inl (hsame.trans hthread),fun _ _ => Or.inl ⟨isFirst,hinside⟩,
        fun _ => rfl,fun _ _ => nofun,fun _ _ _ _ => ?_,fun deadline hd => ?_,
        fun hd => ?_⟩
      · rw [hinterval,hevent]
        exact ⟨rfl,hok.signaled hown (Or.inr hpc)⟩
      · cases hinside.symm.trans hd
      · cases hinside.symm.trans hd
    · have hapart := h.threads t' after ht'
      have hne : s.thread ≠ some t' := fun hthread' =>
        heq (Option.some.inj (hthread.symm.trans hthread')).symm
      exact hapart.apart (hsame ▸ hne) (hapart.stale hne) hnow.ge
  · have hother := h.calls caller' e he
    have hnot : s.isOwn caller' = false :=
      Bool.eq_false_iff.mpr fun hown' => hne (isOwn_unique hown' hown)
    have hnot' : (s.clear.note (.timer t) c.call.isStart).isOwn caller' = false :=
      (isOwn_congr hsame caller').trans hnot
    have hnotpast : ¬(e.pc = .clearing ∨ e.pc.isPast = true) := by
      intro hpast
      rw [hother.closed hnot hpast] at hthread
      cases hthread
    refine ⟨fun t' ht' => ?_,hother.starts,fun hpc => ?_,fun _ hpast => absurd hpast hnotpast,
      fun w hw => ?_,fun hown' => ?_,fun hown' => ?_⟩
    · obtain ⟨before,isFirst',hbefore,hinside'⟩ := hother.inside t' ht'
      obtain ⟨after,hafter,hpcs⟩ := hkeeps t' before hbefore
      exact ⟨after,isFirst',hafter,hpcs.trans hinside'⟩
    · refine absurd (Or.inr ?_) hnotpast
      rcases hpc with hpc | hpc <;> rw [hpc] <;> rfl
    · exact ⟨(hother.awaited w hw).1.trans hsame.symm,hnot'⟩
    · cases hnot'.symm.trans hown'
    · cases hnot'.symm.trans hown'
  · rw [hnext] at he
    split_ifs at he with hstart
    cases he
    have hown' : (s.clear.note (.timer t) c.call.isStart).isOwn (.timer t) = true :=
      (isOwn_congr hsame _).trans hown
    refine ⟨fun t' ht' => ?_,fun _ => hstart,by simp,fun hnot => ?_,nofun,by simp,
      fun _ _ t' after hthread' ht' => ?_⟩
    · cases ht'
      obtain ⟨after,hafter,hpcs⟩ := hkeeps t thread ht
      exact ⟨after,isFirst,hafter,hpcs.trans hinside⟩
    · cases hown'.symm.trans hnot
    · have heq : t' = t := Option.some.inj (hthread'.symm.trans (hsame.trans hthread))
      rw [hnoted,if_pos heq] at ht'
      cases ht'
      exact hstart

theorem Inv.clear (hc : s.calls caller = some c) (hpc : c.pc = .clearing)
    (hown : s.isOwn caller = false)
    (hnext : c' = if c.call.isStart then some ⟨c.call,.setting⟩ else none) :
    (s.clear.setCall caller c').Inv := by
  have hok := h.calls caller c hc
  have hthread := hok.closed hown (Or.inl hpc)
  have hne : ∀ t, s.clear.thread ≠ some t := fun t ht => by cases hthread.symm.trans ht
  refine goOn_only s.clear (fun caller' hne => ?_) h.fresh (fun t thread ht => ?_) fun e he => ?_
  · exact Option.eq_none_iff_forall_ne_some.mpr fun c' hc' =>
      hne (h.only hc hc' (Or.inr hthread))
  · have hapart := h.threads t thread ht
    exact hapart.apart (hne t) (hapart.stale (hne t)) le_rfl
  · rw [hnext] at he
    split_ifs at he with hstart
    cases he
    exact ⟨hok.inside,fun _ => hstart,by simp,fun _ _ => hthread,nofun,by simp,
      fun _ _ t thread ht => absurd ht (hne t)⟩

theorem Inv.set {schedule : Schedule F} (hc : s.calls caller = some ⟨.start schedule,.setting⟩) :
    (({ s with
      timerFuncPtr := some schedule.ptr
      dueTime := schedule.dueTime
      interval := schedule.interval } : Timer F).setCall caller
        (some ⟨.start schedule,.resetting⟩)).Inv := by
  have hok := h.calls caller _ hc
  refine goOn_only _ (fun caller' hne => h.past_only hc rfl hne) h.fresh (fun t thread ht => ?_)
    fun e he => ?_
  · have hthread := h.threads t thread ht
    refine ⟨hthread.alive,hthread.stopped,hthread.restarted,fun heq hpc hs => ?_,
      fun heq _ _ hr => ?_,hthread.delayed,hthread.due⟩
    · have := hthread.restarted (hok.past rfl heq ht)
      rw [hs] at this
      cases this
    · rw [hok.past rfl heq ht] at hr
      cases hr
  · cases he
    refine ⟨hok.inside,fun _ => rfl,fun _ other hother => ?_,fun hnot _ => hok.closed hnot (Or.inr rfl),
      nofun,by simp,fun hown _ => hok.noted hown rfl⟩
    cases hother
    exact ⟨rfl,rfl⟩

theorem Inv.reset (hc : s.calls caller = some c) (hpc : c.pc = .resetting) :
    (({ s with stopEvent := false } : Timer F).setCall caller (some ⟨c.call,.creating⟩)).Inv := by
  have hok := h.calls caller _ hc
  have hpast : c.pc.isPast = true := by rw [hpc]; rfl
  refine goOn_only _ (fun caller' hne => h.past_only hc hpast hne) h.fresh
    (fun t thread ht => ?_) fun e he => ?_
  · have hthread := h.threads t thread ht
    refine ⟨hthread.alive,hthread.stopped,hthread.restarted,hthread.running,fun heq _ _ hr => ?_,
      hthread.delayed,hthread.due⟩
    rw [hok.past hpast heq ht] at hr
    cases hr
  · cases he
    exact ⟨hok.inside,fun _ => hok.starts hpast,fun _ => hok.filled (Or.inl hpc),
      fun hnot _ => hok.closed hnot (Or.inr hpast),nofun,by simp,fun hown _ => hok.noted hown hpast⟩

/-- Past its wait there is only the thread whose function has made the call. -/
theorem Inv.create {schedule : Schedule F} (hc : s.calls caller = some ⟨.start schedule,.creating⟩)
    (result : Bool) :
    ((s.create schedule result).setCall caller none).Inv := by
  have hok := h.calls caller _ hc
  obtain ⟨hptr,hdue⟩ := hok.filled (Or.inr rfl) schedule rfl
  have hstale : ∀ t thread, s.threads t = some thread → thread.pc ≠ .ended →
      thread.isRestarted = true ∧ ∃ isFirst, thread.pc = .inside isFirst := by
    intro t thread ht hpc
    by_cases heq : s.thread = some t
    · have hr := hok.past rfl heq ht
      have hthread := h.threads t thread ht
      rcases hthread.stopped hpc (hthread.restarted hr) with hinside | ⟨hnot,-⟩
      · exact ⟨hr,hinside⟩
      · cases hr.symm.trans hnot
    · exact (h.threads t thread ht).stale heq hpc
  cases result with
  | false =>
    refine goOn_only (s.create schedule false) (fun caller' hne => h.past_only hc rfl hne) h.fresh
      (fun t thread ht => ?_) nofun
    have hthread := h.threads t thread ht
    refine ⟨hthread.alive,hthread.stopped,hthread.restarted,fun heq hpc hs => ?_,
      hthread.settled,hthread.delayed,hthread.due⟩
    have := hthread.restarted (hok.past rfl heq ht)
    rw [hs] at this
    cases this
  | true =>
    have hthreads : ∀ t, (s.create schedule true).threads t =
        if t = s.threadCount then some ⟨schedule,.starting,false,false⟩ else s.threads t :=
      fun t => setThread_threads s s.threadCount t _
    refine goOn_only (s.create schedule true) (fun caller' hne => h.past_only hc rfl hne)
      (fun t ht => ?_) (fun t thread ht => ?_) nofun
    · have hlt : s.threadCount < t := ht
      rw [hthreads,if_neg hlt.ne']
      exact h.fresh t hlt.le
    · rw [hthreads] at ht
      split_ifs at ht with heq
      · cases ht
        rw [heq]
        exact ⟨fun _ => Or.inl rfl,fun _ => nofun,nofun,fun _ _ _ => ⟨hptr,hdue⟩,
          fun _ _ => nofun,nofun,nofun⟩
      · exact (h.threads t thread ht).apart (fun hthread => heq (Option.some.inj hthread).symm)
          (hstale t thread ht) le_rfl

theorem Inv.advance {result : Bool} (hs : s.advance caller result = some s') :
    s'.Inv := by
  unfold Timer.advance at hs
  split at hs
  · cases hs
  · next call pc hc =>
    cases pc with
    | signaling =>
      cases hs
      exact h.signal hc
    | checking =>
      have hchecked := h.check hc rfl
      cases hown : s.isOwn caller with
      | true =>
        simp only [hown,if_true,Option.some.injEq] at hs hchecked
        exact hs ▸ hchecked
      | false =>
        simp only [hown,Bool.false_eq_true,if_false,Option.some.injEq] at hs hchecked
        exact hs ▸ hchecked
    | waiting w =>
      obtain ⟨rfl,-⟩ := (h.calls caller _ hc).awaited w rfl
      dsimp only at hs
      split_ifs at hs with hended
      cases hs
      exact h.close hc rfl hended
    | clearing =>
      have hnext : ∀ t : Timer F, (if call.isStart then t.setCall caller (some ⟨call,.setting⟩)
          else t.setCall caller none) =
            t.setCall caller (if call.isStart then some ⟨call,.setting⟩ else none) := fun t =>
        (apply_ite (t.setCall caller) _ _ _).symm
      cases hown : s.isOwn caller with
      | true =>
        obtain ⟨t,rfl,hthread⟩ := isOwn_iff.mp hown
        simp only [hown,if_true,Option.some.injEq,hnext] at hs
        exact hs ▸ h.clearOwn hc rfl hthread rfl
      | false =>
        simp only [hown,Bool.false_eq_true,if_false,Option.some.injEq,hnext] at hs
        exact hs ▸ h.clear hc rfl hown rfl
    | setting =>
      cases call with
      | stop => cases hs
      | start schedule =>
        cases hs
        exact h.set hc
    | resetting =>
      cases hs
      exact h.reset hc rfl
    | creating =>
      cases call with
      | stop => cases hs
      | start schedule =>
        cases hs
        exact h.create hc result

theorem Inv.goesOn (ht : s.threads t = some thread) (pc : ThreadPc) {stopEvent : Bool}
    (hevent : stopEvent = s.stopEvent ∨ s.thread = some t)
    (hfree : (∃ isFirst, thread.pc = .inside isFirst) → s.calls (.timer t) = none)
    (hthread : ({ s with stopEvent } : Timer F).ThreadOk t { thread with pc }) :
    (({ s with stopEvent } : Timer F).setThread t { thread with pc }).Inv := by
  have hnotcaller : ∀ caller c, s.calls caller = some c → caller ≠ .timer t := by
    rintro caller c hc rfl
    obtain ⟨before,isFirst,hbefore,hinside⟩ := (h.calls _ c hc).inside t rfl
    obtain rfl := Option.some.inj (ht.symm.trans hbefore)
    rw [hfree ⟨isFirst,hinside⟩] at hc
    cases hc
  refine ⟨fun t' ht' => ?_,fun t' after ht' => ?_,fun caller c hc => ?_,h.alone⟩
  · rw [setThread_threads,if_neg (fun heq => ?_)]
    · exact h.fresh t' ht'
    · have hnone := h.fresh t' ht'
      rw [heq,ht] at hnone
      cases hnone
  · rw [setThread_threads] at ht'
    split_ifs at ht' with heq
    · cases ht'
      rw [heq]
      exact hthread.congr rfl ⟨rfl,rfl,rfl⟩ id le_rfl
    · have hother := h.threads t' after ht'
      rcases hevent with hsame | hown
      · exact hother.congr rfl ⟨rfl,rfl,rfl⟩ (fun he => hsame.trans he) le_rfl
      · have hne : s.thread ≠ some t' := fun he => heq (Option.some.inj (he.symm.trans hown))
        exact hother.apart hne (hother.stale hne) le_rfl
  · have hcall := h.calls caller c hc
    have hne := hnotcaller caller c hc
    refine ⟨fun t' ht' => ?_,hcall.starts,hcall.filled,hcall.closed,hcall.awaited,fun hown hpc => ?_,
      fun hown hpast t' after hthread' ht' => ?_⟩
    · obtain ⟨before,isFirst,hbefore,hinside⟩ := hcall.inside t' ht'
      refine ⟨before,isFirst,?_,hinside⟩
      rw [setThread_threads,if_neg (fun heq => hne (ht'.trans (congrArg _ heq)))]
      exact hbefore
    · rcases hevent with hsame | hthread'
      · exact hsame.trans (hcall.signaled hown hpc)
      · obtain ⟨t',rfl,ht'⟩ := isOwn_iff.mp hown
        exact absurd (congrArg Caller.timer (Option.some.inj (ht'.symm.trans hthread'))) hne
    · obtain ⟨t'',rfl,hown'⟩ := isOwn_iff.mp hown
      have heq : t' = t'' := Option.some.inj (hthread'.symm.trans hown')
      rw [setThread_threads,if_neg (fun hsame => hne (congrArg _ (heq.symm.trans hsame)))] at ht'
      exact hcall.noted hown hpast t' after hthread' ht'

end

/-- A thread that waits, or is in front of a call, is the timer's own; it is stopped only while it
pauses. -/
theorem ThreadOk.outside (h : s.ThreadOk t thread) (hpc : thread.pc ≠ .ended)
    (hnot : ∀ isFirst, thread.pc ≠ .inside isFirst) : s.thread = some t ∧
      (thread.isStopped = true →
        thread.isRestarted = false ∧ ∃ deadline, thread.pc = .pausing deadline) := by
  refine ⟨?_,fun hs => ?_⟩
  · rcases h.alive hpc with hthread | ⟨-,isFirst,hinside⟩
    · exact hthread
    · exact absurd hinside (hnot isFirst)
  · rcases h.stopped hpc hs with ⟨isFirst,hinside⟩ | hpausing
    · exact absurd hinside (hnot isFirst)
    · exact hpausing

theorem ThreadOk.goesOn (h : s.ThreadOk t thread) (hpc : thread.pc ≠ .ended)
    (hthread : s.thread = some t) (hs : thread.isStopped = false) (pc : ThreadPc)
    (hdelayed : ∀ deadline, pc = .delaying (some deadline) → thread.schedule.dueTime ≤ deadline)
    (hdue : pc = .calling true → thread.schedule.dueTime ≤ s.now) :
    s.ThreadOk t { thread with pc } where
  alive := fun _ => Or.inl hthread
  stopped := fun _ hs' => by cases hs.symm.trans hs'
  restarted := h.restarted
  running := fun _ _ => h.running hthread hpc
  settled := fun _ _ hs' => by cases hs.symm.trans hs'
  delayed := hdelayed
  due := hdue

theorem ThreadOk.ends (h : s.ThreadOk t thread) (stopEvent : Bool) :
    ({ s with stopEvent } : Timer F).ThreadOk t { thread with pc := .ended } :=
  ⟨fun hpc => absurd rfl hpc,fun hpc => absurd rfl hpc,h.restarted,fun _ hpc => absurd rfl hpc,
    fun _ hpc => absurd rfl hpc,nofun,nofun⟩

theorem Inv.wait (h : s.Inv) (ht : s.threads t = some thread) {deadline : Option ℕ}
    {isFirst : Bool} (hpc : thread.pc ≠ .ended) (hnot : ∀ isFirst, thread.pc ≠ .inside isFirst)
    (hfirst : isFirst = true → ∀ time, deadline = some time → thread.schedule.dueTime ≤ time)
    (hs : s.wait t thread deadline isFirst = some s') : s'.Inv := by
  have hok := h.threads t thread ht
  obtain ⟨hthread,hstopped⟩ := hok.outside hpc hnot
  have hfree : (∃ isFirst, thread.pc = .inside isFirst) → s.calls (.timer t) = none := by
    rintro ⟨isFirst,hinside⟩
    exact absurd hinside (hnot isFirst)
  unfold Timer.wait at hs
  split_ifs at hs with hevent
  · cases hs
    exact h.goesOn ht .ended (Or.inr hthread) hfree (hok.ends false)
  · split at hs
    · cases hs
    · next time =>
      split_ifs at hs with htime
      cases hs
      refine h.goesOn ht (.calling isFirst) (Or.inl rfl) hfree ?_
      refine hok.goesOn hpc hthread ?_ _ (by rintro _ ⟨⟩) fun heq => ?_
      · refine Bool.eq_false_iff.mpr fun hs => ?_
        exact hevent (hok.settled hthread hpc hs (hstopped hs).1).2
      · exact (hfirst (ThreadPc.calling.inj heq) time rfl).trans htime

theorem waitUntil_delay (hok : (s.dueTime - s.now) % 10000 = 0)
    (hfits : (s.dueTime - s.now) / 10000 < 2 ^ 32) {deadline : ℕ}
    (hd : s.waitUntil s.delay = some deadline) : s.dueTime ≤ deadline := by
  have hdelay : s.delay = (s.dueTime - s.now) / 10000 := Nat.mod_eq_of_lt hfits
  unfold waitUntil at hd
  split_ifs at hd
  cases hd
  rw [hdelay]
  omega

theorem Inv.threadFunc (h : s.Inv) (hok : s.StepOk (.thread t)) (hs : s.threadFunc t = some s') :
    s'.Inv := by
  unfold Timer.threadFunc at hs
  split at hs
  · cases hs
  · next thread ht =>
    have hthread := h.threads t thread ht
    have hstep := hok
    simp only [StepOk,ht] at hstep
    cases hpc : thread.pc with
    | starting =>
      have hne : thread.pc ≠ .ended := by rw [hpc]; nofun
      have hnot : ∀ isFirst, thread.pc ≠ .inside isFirst := by rw [hpc]; nofun
      obtain ⟨hown,hstopped⟩ := hthread.outside hne hnot
      have hrunning : thread.isStopped = false := by
        refine Bool.eq_false_iff.mpr fun hs => ?_
        obtain ⟨-,deadline,hpausing⟩ := hstopped hs
        cases hpc.symm.trans hpausing
      have hdue := (hthread.running hown hne hrunning).2
      simp only [hpc] at hs hstep
      cases hs
      refine h.goesOn ht _ (Or.inl rfl) (fun ⟨isFirst,hinside⟩ => absurd hinside (hnot isFirst)) ?_
      refine hthread.goesOn hne hown hrunning _ (fun deadline hd => ?_) fun hd => ?_
      · split_ifs at hd with hlt
        rw [← hdue]
        obtain ⟨hzero,hfits⟩ := hstep.resolve_left (Nat.not_le.mpr hlt)
        exact waitUntil_delay hzero hfits (ThreadPc.delaying.inj hd)
      · split_ifs at hd with hlt
        rw [← hdue]
        exact Nat.le_of_not_lt hlt
    | delaying deadline =>
      simp only [hpc] at hs
      refine h.wait ht (by rw [hpc]; nofun) (by rw [hpc]; nofun) (fun _ time heq => ?_) hs
      exact hthread.delayed time (by rw [hpc,heq])
    | calling isFirst =>
      simp only [hpc] at hs
      cases hs
      have hne : thread.pc ≠ .ended := by rw [hpc]; nofun
      have hnot : ∀ isFirst, thread.pc ≠ .inside isFirst := by rw [hpc]; nofun
      obtain ⟨hown,hstopped⟩ := hthread.outside hne hnot
      have hrunning : thread.isStopped = false := by
        refine Bool.eq_false_iff.mpr fun hs => ?_
        obtain ⟨-,deadline,hpausing⟩ := hstopped hs
        cases hpc.symm.trans hpausing
      exact h.goesOn ht _ (Or.inl rfl) (fun ⟨isFirst,hinside⟩ => absurd hinside (hnot isFirst))
        (hthread.goesOn hne hown hrunning _ nofun nofun)
    | inside isFirst =>
      simp only [hpc] at hs hstep
      have hne : thread.pc ≠ .ended := by rw [hpc]; nofun
      split_ifs at hs with hcalls hlast
      · cases hs
        exact h.goesOn ht _ (Or.inl rfl) (fun _ => not_not.mp hcalls) (hthread.ends s.stopEvent)
      · cases hs
        have hnone : s.calls (.timer t) = none := not_not.mp hcalls
        refine h.goesOn ht _ (Or.inl rfl) (fun _ => hnone) ?_
        have hnot : thread.isRestarted = false := by
          refine Bool.eq_false_iff.mpr fun hr => hlast ?_
          rw [(hstep hnone hr).1,(hstep hnone hr).2]
          rfl
        have hown : s.thread = some t :=
          (hthread.alive hne).resolve_right fun hr => by cases hnot.symm.trans hr.1
        exact ⟨fun _ => Or.inl hown,fun _ _ => Or.inr ⟨hnot,_,rfl⟩,hthread.restarted,
          fun heq _ => hthread.running heq hne,fun heq _ => hthread.settled heq hne,nofun,nofun⟩
    | pausing deadline =>
      simp only [hpc] at hs
      exact h.wait ht (by rw [hpc]; nofun) (by rw [hpc]; nofun)
        (fun hfirst => absurd hfirst Bool.false_ne_true) hs
    | ended =>
      simp only [hpc] at hs
      cases hs

theorem Inv.step (h : s.Inv) {a : TimerAction F} (hok : s.StepOk a) (hs : s.step a = some s') :
    s'.Inv := by
  cases a with
  | tick time =>
    cases hs
    exact h.tick time
  | call caller call => exact h.call hok hs
  | advance caller result => exact h.advance hs
  | thread t => exact h.threadFunc hok hs

theorem Inv.atMostOne (h : s.Inv) : s.AtMostOne := by
  have hactive : ∀ t, s.IsActive t → s.thread = some t := by
    rintro t ⟨thread,ht,hpc,hs⟩
    have hok := h.threads t thread ht
    refine (hok.alive hpc).resolve_right fun hr => ?_
    cases hs.symm.trans (hok.restarted hr.1)
  exact fun t t' ht ht' => Option.some.inj ((hactive t ht).symm.trans (hactive t' ht'))

theorem Inv.proper (h : s.Inv) (a : TimerAction F) : s.Proper a := by
  cases a with
  | thread t =>
    intro thread isFirst ht hpc
    have hok := h.threads t thread ht
    have hne : thread.pc ≠ .ended := by rw [hpc]; nofun
    obtain ⟨hown,hstopped⟩ := hok.outside hne (by rw [hpc]; nofun)
    have hrunning : thread.isStopped = false := by
      refine Bool.eq_false_iff.mpr fun hs => ?_
      obtain ⟨-,deadline,hpausing⟩ := hstopped hs
      cases hpc.symm.trans hpausing
    refine ⟨hrunning,(hok.running hown hne hrunning).1,?_⟩
    rintro rfl
    exact hok.due hpc
  | _ => trivial

/-- In every run whose steps meet the condition there is at most one schedule at a time, its
function is called not before it is due, and not after it is stopped. -/
theorem calls_proper_of_stepOk (as : List (TimerAction F)) (hok : Run.Along step StepOk initial as) :
    Run.Always step AtMostOne (initial : Timer F) as ∧ Run.Along step Proper initial as := by
  have hinv : ∀ (s : Timer F) a s', s.Inv → s.StepOk a → s.step a = some s' → s'.Inv :=
    fun s a s' h hok hs => h.step hok hs
  refine ⟨Run.always_of_along (fun s h => h.atMostOne) hinv initial_inv hok,?_⟩
  exact Run.Along.of_invariant (fun s a h _ => h.proper a) hinv initial_inv hok

/-- A schedule is started, and stopped from inside of its first call. -/
theorem calls_proper_of_stepOk_stop : Run.Always step AtMostOne (initial : Timer ℕ)
      ([.call (.other 0) (.start ⟨7,0,5⟩)] ++ List.replicate 7 (.advance (.other 0) true) ++
        [.thread 0,.thread 0,.call (.timer 0) .stop] ++
        List.replicate 3 (.advance (.timer 0) true) ++ [.thread 0]) ∧
    Run.Along step Proper (initial : Timer ℕ)
      ([.call (.other 0) (.start ⟨7,0,5⟩)] ++ List.replicate 7 (.advance (.other 0) true) ++
        [.thread 0,.thread 0,.call (.timer 0) .stop] ++
        List.replicate 3 (.advance (.timer 0) true) ++ [.thread 0]) := by
  refine calls_proper_of_stepOk _ ?_
  exact .cons rfl (Or.inr nofun) <| .cons rfl trivial <|
    .cons rfl trivial <| .cons rfl trivial <| .cons rfl trivial <|
    .cons rfl trivial <| .cons rfl trivial <| .cons rfl trivial <|
    .cons rfl (Or.inl le_rfl) <| .cons rfl trivial <|
    .cons rfl (Or.inl ⟨rfl,rfl⟩) <| .cons rfl trivial <|
    .cons rfl trivial <| .cons rfl trivial <| .cons rfl nofun trivial

/-- A schedule that is replaced from inside of its function is called on with the new one, and
schedules whose times are no milliseconds, or too many of them, are called at once. -/
theorem calls_not_always_proper :
    ¬Run.Along step Proper (initial : Timer ℕ)
        (([.call (.other 0) (.start ⟨7,0,5⟩)] ++ List.replicate 7 (.advance (.other 0) true) ++
          [.thread 0,.thread 0,.call (.timer 0) (.start ⟨8,0,9⟩)] ++
          List.replicate 6 (.advance (.timer 0) true) ++ [.thread 0,.tick 90000,.thread 0]) ++
          [.thread 0]) ∧
      ¬Run.Along step Proper (initial : Timer ℕ)
        (([.call (.other 0) (.start ⟨7,9999,0⟩)] ++ List.replicate 7 (.advance (.other 0) true) ++
          [.thread 0,.thread 0]) ++ [.thread 0]) ∧
      ¬Run.Along step Proper (initial : Timer ℕ)
        (([.call (.other 0) (.start ⟨7,2 ^ 32 * 10000,0⟩)] ++
          List.replicate 7 (.advance (.other 0) true) ++ [.thread 0,.thread 0]) ++
          [.thread 0]) := by
  refine ⟨fun h => ?_,fun h => ?_,fun h => ?_⟩
  · have hproper := h.last rfl rfl _ _ rfl rfl
    cases hproper.1
  · have hproper := h.last rfl rfl _ _ rfl rfl
    exact absurd (hproper.2.2 rfl) (by decide)
  · have hproper := h.last rfl rfl _ _ rfl rfl
    exact absurd (hproper.2.2 rfl) (by decide)

end Timer
end Jancy.Sys
