import Jancy.Lib.Run
import Jancy.Rt.MutatorThread

/-! Call sites and regions: `Runtime::initializeCallSite`, `Runtime::uninitializeCallSite` and
the region functions of `GcHeap`. Each locked body is one step, and so is each unlocked access
of a thread to its own record. -/
namespace Jancy.Rt

/-- `jnc_CallSite`: the exception recovery snapshot. -/
structure CallSite where
  nestLevel : ℕ := 0
  waitRegionLevel : ℕ := 0
  noCollectRegionLevel : ℕ := 0
  deriving DecidableEq, Repr

def CallSite.restore (c : CallSite) (g : GcMutatorThread) : GcMutatorThread where
  isSafePoint := g.isSafePoint
  waitRegionLevel := c.waitRegionLevel
  noCollectRegionLevel := c.noCollectRegionLevel

/-- `callSites` is the `m_prev` chain of a thread, innermost first. A thread is `idleWaiting`
while `waitIdleAndLock` keeps it in a wait region of its own, and `unregistering` between the
restored snapshot of its outermost call site and the end of `unregisterMutatorThread`. -/
structure Runtime where
  gcHeap : MutatorTable
  callSites : ThreadId → List CallSite
  idleWaiting : ThreadId → Bool
  unregistering : ThreadId → Bool

inductive Action where
  | initializeCallSite (t : ThreadId)
  | uninitializeCallSite (t : ThreadId)
  | unregisterMutatorThread (t : ThreadId)
  | enterWaitRegion (t : ThreadId)
  | leaveWaitRegion (t : ThreadId)
  | enterNoCollectRegion (t : ThreadId)
  | leaveNoCollectRegion (t : ThreadId)
  | beginIdleWait (t : ThreadId)
  | endIdleWait (t : ThreadId)
  deriving DecidableEq, Repr

namespace Runtime

def initial : Runtime := ⟨.initial,fun _ => [],fun _ => false,fun _ => false⟩

/-- The thread runs its own code, outside of every function modelled here. -/
def isRunning (s : Runtime) (t : ThreadId) : Bool := !s.idleWaiting t && !s.unregistering t

def isRegistered (s : Runtime) (t : ThreadId) : Bool := decide (t ∈ s.gcHeap.mutatorThreadList)

def current (s : Runtime) (t : ThreadId) : GcMutatorThread := s.gcHeap.thread t

/-- `save exception recovery snapshot`, in a call site nested in `prev`. -/
def saveSnapshot (s : Runtime) (t : ThreadId) (prev : CallSite) : CallSite where
  nestLevel := prev.nestLevel + 1
  waitRegionLevel := (s.current t).waitRegionLevel
  noCollectRegionLevel := (s.current t).noCollectRegionLevel

def initializeCallSite (s : Runtime) (t : ThreadId) : Runtime :=
  match s.callSites t with
  | prev :: rest =>
      { s with
        callSites := Function.update s.callSites t (s.saveSnapshot t prev :: prev :: rest) }
  | [] =>
      { s with
        gcHeap := s.gcHeap.registerMutatorThread t
        callSites := Function.update s.callSites t [{}] }

/-- `restore exception recovery snapshot`, on the normal and on the exceptional exit alike. -/
def restoreSnapshot (s : Runtime) (t : ThreadId) (c : CallSite) : MutatorTable :=
  s.gcHeap.setThread t (c.restore (s.current t))

def uninitializeCallSite (s : Runtime) (t : ThreadId) (c : CallSite) (rest : List CallSite) :
    Runtime :=
  { s with
    gcHeap := s.restoreSnapshot t c
    callSites := Function.update s.callSites t rest
    unregistering := Function.update s.unregistering t (decide (c.nestLevel = 0)) }

def unregisterMutatorThread (s : Runtime) (t : ThreadId) : Runtime :=
  { s with
    gcHeap := s.gcHeap.unregisterMutatorThread t
    unregistering := Function.update s.unregistering t false }

def enterWaitRegion (s : Runtime) (t : ThreadId) : Runtime :=
  if (s.current t).waitRegionLevel ≠ 0 then { s with gcHeap := s.gcHeap.nestWaitRegion t }
  else { s with gcHeap := s.gcHeap.beginWaitRegion t }

def leaveWaitRegion (s : Runtime) (t : ThreadId) : Runtime :=
  if 1 < (s.current t).waitRegionLevel then { s with gcHeap := s.gcHeap.unnestWaitRegion t }
  else { s with gcHeap := s.gcHeap.endWaitRegion t }

def enterNoCollectRegion (s : Runtime) (t : ThreadId) : Runtime :=
  if (s.current t).noCollectRegionLevel ≠ 0 then
    { s with gcHeap := s.gcHeap.nestNoCollectRegion t }
  else { s with gcHeap := s.gcHeap.beginNoCollectRegion t }

def leaveNoCollectRegion (s : Runtime) (t : ThreadId) : Runtime :=
  if 1 < (s.current t).noCollectRegionLevel then
    { s with gcHeap := s.gcHeap.unnestNoCollectRegion t }
  else { s with gcHeap := s.gcHeap.endNoCollectRegion t }

/-- The guards are the assertions at the head of each function. -/
def step (s : Runtime) : Action → Option Runtime
  | .initializeCallSite t => if s.isRunning t then some (s.initializeCallSite t) else none
  | .uninitializeCallSite t =>
      match s.callSites t with
      | [] => none
      | c :: rest => if s.isRunning t then some (s.uninitializeCallSite t c rest) else none
  | .unregisterMutatorThread t =>
      if s.unregistering t && !s.idleWaiting t then some (s.unregisterMutatorThread t) else none
  | .enterWaitRegion t =>
      if s.isRunning t && s.isRegistered t then some (s.enterWaitRegion t) else none
  | .leaveWaitRegion t =>
      if s.isRunning t && s.isRegistered t && (s.current t).isWaiting
      then some (s.leaveWaitRegion t) else none
  | .enterNoCollectRegion t =>
      if s.isRunning t && s.isRegistered t && !(s.current t).isWaiting
      then some (s.enterNoCollectRegion t) else none
  | .leaveNoCollectRegion t =>
      if s.isRunning t && s.isRegistered t && !(s.current t).isWaiting &&
        (s.current t).isNoCollect
      then some (s.leaveNoCollectRegion t) else none
  | .beginIdleWait t =>
      if s.isRegistered t && !s.idleWaiting t && !(s.current t).isWaiting
      then some { s with
        gcHeap := s.gcHeap.beginWaitRegion t
        idleWaiting := Function.update s.idleWaiting t true }
      else none
  | .endIdleWait t =>
      if s.idleWaiting t
      then some { s with
        gcHeap := s.gcHeap.endWaitRegion t
        idleWaiting := Function.update s.idleWaiting t false }
      else none

/-- `collect` and the allocation triggers give up while the counter is not zero. -/
def collectionBlocked (s : Runtime) : Prop := s.gcHeap.noCollectMutatorThreadCount ≠ 0

def Accounted (s : Runtime) : Prop :=
  s.gcHeap.waitingMutatorThreadCount = s.gcHeap.waitingCount ∧
    s.gcHeap.noCollectMutatorThreadCount = s.gcHeap.noCollectCount ∧
    (s.collectionBlocked →
      ∃ t ∈ s.gcHeap.mutatorThreadList, 0 < (s.current t).noCollectRegionLevel)

instance : DecidablePred Accounted := fun s => by
  unfold Accounted collectionBlocked
  infer_instance

/-- A call site is left inside a region of either kind exactly if it was entered inside one. -/
def LeavesAsEntered (s : Runtime) : Action → Prop
  | .uninitializeCallSite t =>
      match s.callSites t with
      | [] => True
      | c :: _ =>
          (0 < c.waitRegionLevel ↔ 0 < (s.current t).waitRegionLevel) ∧
            (0 < c.noCollectRegionLevel ↔ 0 < (s.current t).noCollectRegionLevel)
  | _ => True

structure Invariant (s : Runtime) : Prop where
  counted : s.gcHeap.Counted
  registered : ∀ t, t ∈ s.gcHeap.mutatorThreadList ↔ s.callSites t ≠ [] ∨ s.unregistering t
  exclusive : ∀ t, s.unregistering t → s.callSites t = []
  nesting : ∀ t c rest, c :: rest <:+ s.callSites t → (c.nestLevel = 0 ↔ rest = [])
  idle : ∀ t, s.idleWaiting t →
    t ∈ s.gcHeap.mutatorThreadList ∧ 0 < (s.current t).waitRegionLevel

theorem initial_invariant : initial.Invariant where
  counted := MutatorTable.initial_counted
  registered t := by simp [initial,MutatorTable.initial]
  exclusive t h := by simp [initial] at h
  nesting t c rest h := by simp [initial] at h
  idle t h := by simp [initial] at h

variable {s : Runtime}

theorem Invariant.accounted (h : s.Invariant) : s.Accounted :=
  ⟨h.counted.waiting,h.counted.noCollect,h.counted.exists_noCollect⟩

variable {t : ThreadId}

theorem isRunning_iff :
    s.isRunning t = true ↔ s.idleWaiting t = false ∧ s.unregistering t = false := by
  simp [isRunning]

theorem Invariant.of_table (h : s.Invariant) {m : MutatorTable} (hm : m.Counted)
    (hl : m.mutatorThreadList = s.gcHeap.mutatorThreadList)
    (hi : ∀ u, s.idleWaiting u = true → 0 < (m.thread u).waitRegionLevel) :
    Invariant { s with gcHeap := m } where
  counted := hm
  registered t := by simpa [hl] using h.registered t
  exclusive := h.exclusive
  nesting := h.nesting
  idle t ht := ⟨by simpa [hl] using (h.idle t ht).1,hi t ht⟩

theorem Invariant.of_running (h : s.Invariant) (hr : s.isRunning t = true) {m : MutatorTable}
    {g : GcMutatorThread} (hm : m.Counted)
    (hl : m.mutatorThreadList = s.gcHeap.mutatorThreadList)
    (hset : m.thread = (s.gcHeap.setThread t g).thread) :
    Invariant { s with gcHeap := m } := by
  refine h.of_table hm hl fun u hu => ?_
  have hne : u ≠ t := by
    rintro rfl
    simp [(isRunning_iff.mp hr).1] at hu
  rw [hset,MutatorTable.setThread_ne _ _ hne]
  exact (h.idle u hu).2

theorem initializeCallSite_invariant (h : s.Invariant) (hr : s.isRunning t = true) :
    (s.initializeCallSite t).Invariant := by
  obtain ⟨hidle,hun⟩ := isRunning_iff.mp hr
  unfold initializeCallSite
  split
  case h_1 prev rest hcs =>
    refine ⟨h.counted,fun u => ?_,fun u hu => ?_,fun u c r hc => ?_,h.idle⟩
    · by_cases he : u = t
      · subst he
        simpa [hcs] using h.registered u
      · simpa [he] using h.registered u
    · have hne : u ≠ t := by
        rintro rfl
        simp [hun] at hu
      simpa [hne] using h.exclusive u hu
    · by_cases he : u = t
      · subst he
        simp only [Function.update_self,List.suffix_cons_iff,List.cons.injEq] at hc
        rcases hc with ⟨rfl,rfl⟩ | hc
        · simp [saveSnapshot]
        · exact h.nesting u c r (by simpa [hcs,List.suffix_cons_iff] using hc)
      · simp only [Function.update_of_ne he] at hc
        exact h.nesting u c r hc
  case h_2 hcs =>
    have hnew : t ∉ s.gcHeap.mutatorThreadList := by
      rw [h.registered t]
      simp [hcs,hun]
    refine ⟨h.counted.register hnew,fun u => ?_,fun u hu => ?_,fun u c r hc => ?_,fun u hu => ?_⟩
    · by_cases he : u = t
      · subst he
        simp [MutatorTable.registerMutatorThread]
      · simpa [MutatorTable.registerMutatorThread,he] using h.registered u
    · have hne : u ≠ t := by
        rintro rfl
        simp [hun] at hu
      simpa [hne] using h.exclusive u hu
    · by_cases he : u = t
      · subst he
        simp only [Function.update_self,List.suffix_cons_iff,List.cons.injEq,List.suffix_nil,
          reduceCtorEq,or_false] at hc
        obtain ⟨rfl,rfl⟩ := hc
        simp
      · simp only [Function.update_of_ne he] at hc
        exact h.nesting u c r hc
    · have hne : u ≠ t := by
        rintro rfl
        simp [hidle] at hu
      have hu' := h.idle u hu
      refine ⟨List.mem_append_left _ hu'.1,?_⟩
      simpa [current,MutatorTable.registerMutatorThread,hne] using hu'.2

variable {rest : List CallSite}

section

variable (h : s.Invariant)

include h

theorem restoreSnapshot_counted {c : CallSite} (hcs : s.callSites t = c :: rest)
    (hc : s.LeavesAsEntered (.uninitializeCallSite t)) : (s.restoreSnapshot t c).Counted := by
  have ht : t ∈ s.gcHeap.mutatorThreadList := (h.registered t).mpr (.inl (by simp [hcs]))
  simp only [LeavesAsEntered,hcs] at hc
  apply h.counted.setThread ht
  · exact decide_eq_decide.mpr hc.1
  · exact decide_eq_decide.mpr hc.2

theorem uninitializeCallSite_invariant {c : CallSite} (hcs : s.callSites t = c :: rest)
    (hr : s.isRunning t = true) (hc : s.LeavesAsEntered (.uninitializeCallSite t)) :
    (s.uninitializeCallSite t c rest).Invariant := by
  obtain ⟨hidle,hun⟩ := isRunning_iff.mp hr
  have hlevel := h.nesting t c rest (hcs ▸ List.suffix_rfl)
  have hm := restoreSnapshot_counted h hcs hc
  refine ⟨hm,fun u => ?_,fun u hu => ?_,fun u c' r hc' => ?_,fun u hu => ?_⟩
  · by_cases he : u = t
    · subst he
      have hreg := h.registered u
      simp only [hcs] at hreg
      simp only [uninitializeCallSite,restoreSnapshot,MutatorTable.setThread_list,hreg,
        Function.update_self,decide_eq_true_eq,hlevel]
      by_cases hnil : rest = [] <;> simp [hnil]
    · simpa [uninitializeCallSite,restoreSnapshot,he] using h.registered u
  · by_cases he : u = t
    · subst he
      simp only [uninitializeCallSite,Function.update_self,decide_eq_true_eq] at hu ⊢
      exact hlevel.mp hu
    · simp only [uninitializeCallSite,Function.update_of_ne he] at hu ⊢
      exact h.exclusive u hu
  · by_cases he : u = t
    · subst he
      simp only [uninitializeCallSite,Function.update_self] at hc'
      exact h.nesting u c' r (by rw [hcs]; exact hc'.trans (List.suffix_cons c rest))
    · simp only [uninitializeCallSite,Function.update_of_ne he] at hc'
      exact h.nesting u c' r hc'
  · have hne : u ≠ t := by
      rintro rfl
      simp [uninitializeCallSite,hidle] at hu
    have hu' := h.idle u hu
    refine ⟨hu'.1,?_⟩
    simpa [uninitializeCallSite,restoreSnapshot,current,hne] using hu'.2

theorem unregisterMutatorThread_invariant (hun : s.unregistering t = true)
    (hidle : s.idleWaiting t = false) :
    (s.unregisterMutatorThread t).Invariant := by
  have ht : t ∈ s.gcHeap.mutatorThreadList := (h.registered t).mpr (.inr hun)
  have hmem : ∀ u, u ∈ (s.gcHeap.unregisterMutatorThread t).mutatorThreadList ↔
      u ≠ t ∧ u ∈ s.gcHeap.mutatorThreadList := fun u => h.counted.nodup.mem_erase_iff
  refine ⟨h.counted.unregister ht,fun u => ?_,fun u hu => ?_,h.nesting,fun u hu => ?_⟩
  · by_cases he : u = t
    · subst he
      simp [unregisterMutatorThread,hmem,h.exclusive u hun]
    · simpa [unregisterMutatorThread,hmem,he] using h.registered u
  · have hne : u ≠ t := by
      rintro rfl
      simp [unregisterMutatorThread] at hu
    exact h.exclusive u (by simpa [unregisterMutatorThread,hne] using hu)
  · have hne : u ≠ t := by
      rintro rfl
      simp [unregisterMutatorThread,hidle] at hu
    exact ⟨(hmem u).mpr ⟨hne,(h.idle u hu).1⟩,(h.idle u hu).2⟩

theorem enterWaitRegion_invariant (hr : s.isRunning t = true) (ht : t ∈ s.gcHeap.mutatorThreadList) :
    (s.enterWaitRegion t).Invariant := by
  unfold enterWaitRegion
  split
  case isTrue hl =>
    exact h.of_running hr (h.counted.nestWait ht hl) rfl rfl
  case isFalse hl =>
    exact h.of_running hr (h.counted.beginWait ht (not_not.mp hl)) rfl rfl

theorem leaveWaitRegion_invariant (hr : s.isRunning t = true) (ht : t ∈ s.gcHeap.mutatorThreadList)
    (hw : (s.current t).isWaiting = true) :
    (s.leaveWaitRegion t).Invariant := by
  unfold leaveWaitRegion
  split
  case isTrue hl =>
    exact h.of_running hr (h.counted.unnestWait ht hl) rfl rfl
  case isFalse hl =>
    exact h.of_running hr (h.counted.endWait ht (of_decide_eq_true hw)) rfl rfl

theorem enterNoCollectRegion_invariant (hr : s.isRunning t = true)
    (ht : t ∈ s.gcHeap.mutatorThreadList) :
    (s.enterNoCollectRegion t).Invariant := by
  unfold enterNoCollectRegion
  split
  case isTrue hl =>
    exact h.of_running hr (h.counted.nestNoCollect ht hl) rfl rfl
  case isFalse hl =>
    exact h.of_running hr (h.counted.beginNoCollect ht (not_not.mp hl)) rfl rfl

theorem leaveNoCollectRegion_invariant (hr : s.isRunning t = true)
    (ht : t ∈ s.gcHeap.mutatorThreadList) (hn : (s.current t).isNoCollect = true) :
    (s.leaveNoCollectRegion t).Invariant := by
  unfold leaveNoCollectRegion
  split
  case isTrue hl =>
    exact h.of_running hr (h.counted.unnestNoCollect ht hl) rfl rfl
  case isFalse hl =>
    exact h.of_running hr (h.counted.endNoCollect ht (of_decide_eq_true hn)) rfl rfl

theorem beginIdleWait_invariant (ht : t ∈ s.gcHeap.mutatorThreadList)
    (hw : (s.current t).isWaiting = false) :
    Invariant { s with
      gcHeap := s.gcHeap.beginWaitRegion t
      idleWaiting := Function.update s.idleWaiting t true } := by
  have hl : (s.gcHeap.thread t).waitRegionLevel = 0 := by
    simpa [GcMutatorThread.isWaiting,current,Nat.pos_iff_ne_zero] using hw
  refine ⟨h.counted.beginWait ht hl,h.registered,h.exclusive,h.nesting,fun u hu => ?_⟩
  by_cases he : u = t
  · subst he
    exact ⟨ht,by simp [current,MutatorTable.beginWaitRegion]⟩
  · have hu' := h.idle u (by simpa [he] using hu)
    exact ⟨hu'.1,by simpa [current,MutatorTable.beginWaitRegion,he] using hu'.2⟩

theorem endIdleWait_invariant (hidle : s.idleWaiting t = true) :
    Invariant { s with
      gcHeap := s.gcHeap.endWaitRegion t
      idleWaiting := Function.update s.idleWaiting t false } := by
  have ht := h.idle t hidle
  refine ⟨h.counted.endWait ht.1 ht.2,h.registered,h.exclusive,h.nesting,fun u hu => ?_⟩
  have hne : u ≠ t := by
    rintro rfl
    simp at hu
  have hu' := h.idle u (by simpa [hne] using hu)
  exact ⟨hu'.1,by simpa [current,MutatorTable.endWaitRegion,hne] using hu'.2⟩

end

theorem step_invariant (s : Runtime) (a : Action) (s' : Runtime) (h : s.Invariant)
    (hc : s.LeavesAsEntered a) (hs : s.step a = some s') : s'.Invariant := by
  cases a with
  | initializeCallSite t =>
    obtain ⟨hr,⟨⟩⟩ := Option.ite_none_right_eq_some.mp hs
    exact initializeCallSite_invariant h hr
  | uninitializeCallSite t =>
    cases hcs : s.callSites t with
    | nil => simp [step,hcs] at hs
    | cons c rest =>
      simp only [step,hcs] at hs
      obtain ⟨hr,⟨⟩⟩ := Option.ite_none_right_eq_some.mp hs
      exact uninitializeCallSite_invariant h hcs hr hc
  | unregisterMutatorThread t =>
    obtain ⟨hg,⟨⟩⟩ := Option.ite_none_right_eq_some.mp hs
    simp only [Bool.and_eq_true,Bool.not_eq_true'] at hg
    exact unregisterMutatorThread_invariant h hg.1 hg.2
  | enterWaitRegion t =>
    obtain ⟨hg,⟨⟩⟩ := Option.ite_none_right_eq_some.mp hs
    simp only [Bool.and_eq_true] at hg
    exact enterWaitRegion_invariant h hg.1 (of_decide_eq_true hg.2)
  | leaveWaitRegion t =>
    obtain ⟨hg,⟨⟩⟩ := Option.ite_none_right_eq_some.mp hs
    simp only [Bool.and_eq_true] at hg
    exact leaveWaitRegion_invariant h hg.1.1 (of_decide_eq_true hg.1.2) hg.2
  | enterNoCollectRegion t =>
    obtain ⟨hg,⟨⟩⟩ := Option.ite_none_right_eq_some.mp hs
    simp only [Bool.and_eq_true] at hg
    exact enterNoCollectRegion_invariant h hg.1.1 (of_decide_eq_true hg.1.2)
  | leaveNoCollectRegion t =>
    obtain ⟨hg,⟨⟩⟩ := Option.ite_none_right_eq_some.mp hs
    simp only [Bool.and_eq_true] at hg
    exact leaveNoCollectRegion_invariant h hg.1.1.1 (of_decide_eq_true hg.1.1.2) hg.2
  | beginIdleWait t =>
    obtain ⟨hg,⟨⟩⟩ := Option.ite_none_right_eq_some.mp hs
    simp only [Bool.and_eq_true,Bool.not_eq_true'] at hg
    exact beginIdleWait_invariant h (of_decide_eq_true hg.1.1) hg.2
  | endIdleWait t =>
    obtain ⟨hg,⟨⟩⟩ := Option.ite_none_right_eq_some.mp hs
    exact endIdleWait_invariant h hg

private theorem toNat_decide_eq_iff {p q : Prop} [Decidable p] [Decidable q] :
    (decide p).toNat = (decide q).toNat ↔ (p ↔ q) := by
  by_cases hp : p <;> by_cases hq : q <;> simp [hp,hq]

theorem restore_breaks (h : s.Invariant) {c : CallSite} (hcs : s.callSites t = c :: rest)
    (hc : ¬ s.LeavesAsEntered (.uninitializeCallSite t)) :
    ¬ (s.uninitializeCallSite t c rest).Accounted := by
  have ht : t ∈ s.gcHeap.mutatorThreadList := (h.registered t).mpr (.inl (by simp [hcs]))
  have hw := s.gcHeap.setThread_waitingCount h.counted.nodup ht (c.restore (s.current t))
  have hn := s.gcHeap.setThread_noCollectCount h.counted.nodup ht (c.restore (s.current t))
  rintro ⟨haw,han,-⟩
  simp only [uninitializeCallSite,restoreSnapshot,MutatorTable.setThread_waiting,
    MutatorTable.setThread_noCollect,h.counted.waiting,h.counted.noCollect,Int.ofNat_inj] at haw han
  simp only [LeavesAsEntered,hcs] at hc
  rw [← haw,Nat.add_left_cancel_iff] at hw
  rw [← han,Nat.add_left_cancel_iff] at hn
  exact hc ⟨(toNat_decide_eq_iff.mp hw).symm,(toNat_decide_eq_iff.mp hn).symm⟩

theorem step_breaks (s : Runtime) (a : Action) (s' : Runtime) (h : s.Invariant)
    (hc : ¬ s.LeavesAsEntered a) (hs : s.step a = some s') : ¬ s'.Accounted := by
  cases a with
  | uninitializeCallSite t =>
    cases hcs : s.callSites t with
    | nil => simp [step,hcs] at hs
    | cons c rest =>
      simp only [step,hcs] at hs
      obtain ⟨-,⟨⟩⟩ := Option.ite_none_right_eq_some.mp hs
      exact restore_breaks h hcs hc
  | _ => exact absurd trivial hc

/-- A run keeps both counters exact in all its states if and only if it leaves every call site
as that call site was entered. -/
theorem accounted_iff_leavesAsEntered (as : List Action) :
    Run.Always step Accounted initial as ↔ Run.Along step LeavesAsEntered initial as :=
  Run.always_iff_along (fun _ h => h.accounted) step_invariant step_breaks initial_invariant as

/-- An exception leaves a call site from inside a no-collect region. -/
def throwOutOfNoCollect : List Action :=
  [.initializeCallSite 0,.enterNoCollectRegion 0,.uninitializeCallSite 0,
    .unregisterMutatorThread 0]

/-- The counter stays at one although no thread is left, and blocks every later collection. -/
theorem throwOutOfNoCollect_leaks :
    ¬ Run.Always step Accounted initial throwOutOfNoCollect ∧
      (Run.exec step initial throwOutOfNoCollect).map (fun s =>
        (s.gcHeap.noCollectMutatorThreadCount,s.gcHeap.mutatorThreadList)) = some (1,[]) := by
  decide

end Runtime
end Jancy.Rt
