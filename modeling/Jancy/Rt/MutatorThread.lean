import Jancy.Lib.Counting
import Mathlib.Data.Int.Notation

/-! Mutator threads and their regions: the fields of `GcHeap` that count regions, and the
bodies of the region functions, as they run under `m_lock`. -/
namespace Jancy.Rt

abbrev ThreadId := ℕ

/-- `jnc_GcMutatorThread`, without its link, thread id and allocation pools. -/
structure GcMutatorThread where
  isSafePoint : Bool := false
  waitRegionLevel : ℕ := 0
  noCollectRegionLevel : ℕ := 0
  deriving DecidableEq, Repr

def GcMutatorThread.isWaiting (g : GcMutatorThread) : Bool := decide (0 < g.waitRegionLevel)

def GcMutatorThread.isNoCollect (g : GcMutatorThread) : Bool := decide (0 < g.noCollectRegionLevel)

/-- The two counters are `volatile size_t`; they are integers here, so that a decrement below
zero would be seen. -/
structure MutatorTable where
  mutatorThreadList : List ThreadId
  thread : ThreadId → GcMutatorThread
  waitingMutatorThreadCount : ℤ
  noCollectMutatorThreadCount : ℤ

namespace MutatorTable

def initial : MutatorTable := ⟨[],fun _ => {},0,0⟩

def setThread (m : MutatorTable) (t : ThreadId) (g : GcMutatorThread) : MutatorTable :=
  { m with thread := Function.update m.thread t g }

@[simp] theorem setThread_self (m : MutatorTable) (t : ThreadId) (g : GcMutatorThread) :
    (m.setThread t g).thread t = g := by simp [setThread]

@[simp] theorem setThread_ne (m : MutatorTable) {t u : ThreadId} (g : GcMutatorThread)
    (h : u ≠ t) : (m.setThread t g).thread u = m.thread u := by simp [setThread,h]

@[simp] theorem setThread_list (m : MutatorTable) (t : ThreadId) (g : GcMutatorThread) :
    (m.setThread t g).mutatorThreadList = m.mutatorThreadList := rfl

@[simp] theorem setThread_waiting (m : MutatorTable) (t : ThreadId) (g : GcMutatorThread) :
    (m.setThread t g).waitingMutatorThreadCount = m.waitingMutatorThreadCount := rfl

@[simp] theorem setThread_noCollect (m : MutatorTable) (t : ThreadId) (g : GcMutatorThread) :
    (m.setThread t g).noCollectMutatorThreadCount = m.noCollectMutatorThreadCount := rfl

/-- `getCurrentGcMutatorThread() && !m_waitRegionLevel`, as `waitIdleAndLock` computes it. -/
def isMutatorThread (m : MutatorTable) (t : ThreadId) : Bool :=
  decide (t ∈ m.mutatorThreadList) && !(m.thread t).isWaiting

def registerMutatorThread (m : MutatorTable) (t : ThreadId) : MutatorTable :=
  { m.setThread t {} with mutatorThreadList := m.mutatorThreadList ++ [t] }

def unregisterMutatorThread (m : MutatorTable) (t : ThreadId) : MutatorTable :=
  { m with
    waitingMutatorThreadCount := if (m.thread t).waitRegionLevel ≠ 0
      then m.waitingMutatorThreadCount - 1 else m.waitingMutatorThreadCount
    noCollectMutatorThreadCount := if (m.thread t).noCollectRegionLevel ≠ 0
      then m.noCollectMutatorThreadCount - 1 else m.noCollectMutatorThreadCount
    mutatorThreadList := m.mutatorThreadList.erase t }

/-- `m_waitRegionLevel = 1; m_waitingMutatorThreadCount++`: the outermost `enterWaitRegion`, and
the wait region `waitIdleAndLock` takes for itself. -/
def beginWaitRegion (m : MutatorTable) (t : ThreadId) : MutatorTable :=
  { m.setThread t { m.thread t with waitRegionLevel := 1 } with
    waitingMutatorThreadCount := m.waitingMutatorThreadCount + 1 }

def endWaitRegion (m : MutatorTable) (t : ThreadId) : MutatorTable :=
  { m.setThread t { m.thread t with waitRegionLevel := 0 } with
    waitingMutatorThreadCount := m.waitingMutatorThreadCount - 1 }

def beginNoCollectRegion (m : MutatorTable) (t : ThreadId) : MutatorTable :=
  { m.setThread t { m.thread t with noCollectRegionLevel := 1 } with
    noCollectMutatorThreadCount := m.noCollectMutatorThreadCount + 1 }

def endNoCollectRegion (m : MutatorTable) (t : ThreadId) : MutatorTable :=
  { m.setThread t { m.thread t with noCollectRegionLevel := 0 } with
    noCollectMutatorThreadCount := m.noCollectMutatorThreadCount - 1 }

def nestWaitRegion (m : MutatorTable) (t : ThreadId) : MutatorTable :=
  m.setThread t { m.thread t with waitRegionLevel := (m.thread t).waitRegionLevel + 1 }

def unnestWaitRegion (m : MutatorTable) (t : ThreadId) : MutatorTable :=
  m.setThread t { m.thread t with waitRegionLevel := (m.thread t).waitRegionLevel - 1 }

def nestNoCollectRegion (m : MutatorTable) (t : ThreadId) : MutatorTable :=
  m.setThread t { m.thread t with noCollectRegionLevel := (m.thread t).noCollectRegionLevel + 1 }

def unnestNoCollectRegion (m : MutatorTable) (t : ThreadId) : MutatorTable :=
  m.setThread t { m.thread t with noCollectRegionLevel := (m.thread t).noCollectRegionLevel - 1 }

def waitingCount (m : MutatorTable) : ℕ :=
  m.mutatorThreadList.countP fun t => (m.thread t).isWaiting

def noCollectCount (m : MutatorTable) : ℕ :=
  m.mutatorThreadList.countP fun t => (m.thread t).isNoCollect

/-- Each counter is the number of registered threads whose level is positive. -/
structure Counted (m : MutatorTable) : Prop where
  nodup : m.mutatorThreadList.Nodup
  waiting : m.waitingMutatorThreadCount = m.waitingCount
  noCollect : m.noCollectMutatorThreadCount = m.noCollectCount

theorem initial_counted : initial.Counted := ⟨List.nodup_nil,rfl,rfl⟩

variable {t : ThreadId}

/-- Rewriting one thread's record changes a count only as far as it changes that thread's own
test. -/
theorem setThread_countP (m : MutatorTable) (hm : m.mutatorThreadList.Nodup)
    (ht : t ∈ m.mutatorThreadList) (g : GcMutatorThread) (p : GcMutatorThread → Bool) :
    m.mutatorThreadList.countP (fun u => p ((m.setThread t g).thread u)) + (p (m.thread t)).toNat =
      m.mutatorThreadList.countP (fun u => p (m.thread u)) + (p g).toNat := by
  have h := Counting.countP_change hm ht (p := fun u => p (m.thread u))
    (q := fun u => p ((m.setThread t g).thread u))
    (fun u _ hu => by simp only [setThread_ne m g hu])
  simp only [setThread_self] at h
  omega

theorem setThread_waitingCount (m : MutatorTable) (hm : m.mutatorThreadList.Nodup)
    (ht : t ∈ m.mutatorThreadList) (g : GcMutatorThread) :
    (m.setThread t g).waitingCount + (m.thread t).isWaiting.toNat =
      m.waitingCount + g.isWaiting.toNat :=
  setThread_countP m hm ht g GcMutatorThread.isWaiting

theorem setThread_noCollectCount (m : MutatorTable) (hm : m.mutatorThreadList.Nodup)
    (ht : t ∈ m.mutatorThreadList) (g : GcMutatorThread) :
    (m.setThread t g).noCollectCount + (m.thread t).isNoCollect.toNat =
      m.noCollectCount + g.isNoCollect.toNat :=
  setThread_countP m hm ht g GcMutatorThread.isNoCollect

variable {m : MutatorTable}

section

variable (h : m.Counted)

include h

theorem Counted.replace (ht : t ∈ m.mutatorThreadList) (g : GcMutatorThread) (w n : ℤ)
    (hw : w + (m.thread t).isWaiting.toNat = m.waitingMutatorThreadCount + g.isWaiting.toNat)
    (hn : n + (m.thread t).isNoCollect.toNat =
      m.noCollectMutatorThreadCount + g.isNoCollect.toNat) :
    Counted ⟨m.mutatorThreadList,Function.update m.thread t g,w,n⟩ := by
  have hwc := setThread_waitingCount m h.nodup ht g
  have hnc := setThread_noCollectCount m h.nodup ht g
  rw [h.waiting] at hw
  rw [h.noCollect] at hn
  refine ⟨h.nodup,?_,?_⟩
  · show w = ((m.setThread t g).waitingCount : ℤ)
    omega
  · show n = ((m.setThread t g).noCollectCount : ℤ)
    omega

theorem Counted.setThread (ht : t ∈ m.mutatorThreadList) {g : GcMutatorThread}
    (hw : g.isWaiting = (m.thread t).isWaiting) (hn : g.isNoCollect = (m.thread t).isNoCollect) :
    (m.setThread t g).Counted :=
  h.replace ht g _ _ (by rw [hw]) (by rw [hn])

theorem Counted.register (ht : t ∉ m.mutatorThreadList) :
    (m.registerMutatorThread t).Counted := by
  have hsame : ∀ p : GcMutatorThread → Bool, p {} = false →
      (m.mutatorThreadList ++ [t]).countP (fun u => p ((m.setThread t {}).thread u)) =
        m.mutatorThreadList.countP fun u => p (m.thread u) := by
    intro p hp
    rw [List.countP_append]
    have hold : m.mutatorThreadList.countP (fun u => p ((m.setThread t {}).thread u)) =
        m.mutatorThreadList.countP fun u => p (m.thread u) := by
      apply Counting.countP_same
      intro u hu
      have hne : u ≠ t := fun he => ht (he ▸ hu)
      simp only [setThread_ne m _ hne]
    simp [hold,hp]
  refine ⟨?_,?_,?_⟩
  · simpa [registerMutatorThread,List.nodup_append] using
      ⟨h.nodup,fun u hu (he : u = t) => ht (he ▸ hu)⟩
  · show m.waitingMutatorThreadCount = _
    rw [h.waiting]
    exact congrArg Nat.cast (hsame GcMutatorThread.isWaiting rfl).symm
  · show m.noCollectMutatorThreadCount = _
    rw [h.noCollect]
    exact congrArg Nat.cast (hsame GcMutatorThread.isNoCollect rfl).symm

theorem Counted.unregister (ht : t ∈ m.mutatorThreadList) :
    (m.unregisterMutatorThread t).Counted := by
  have hw := Counting.countP_erase_of_nodup ht fun u => (m.thread u).isWaiting
  have hn := Counting.countP_erase_of_nodup ht fun u => (m.thread u).isNoCollect
  refine ⟨h.nodup.erase t,?_,?_⟩
  · simp only [unregisterMutatorThread,waitingCount,h.waiting]
    by_cases hl : (m.thread t).waitRegionLevel = 0 <;>
      simp [GcMutatorThread.isWaiting,hl,Nat.pos_iff_ne_zero] at hw ⊢ <;> omega
  · simp only [unregisterMutatorThread,noCollectCount,h.noCollect]
    by_cases hl : (m.thread t).noCollectRegionLevel = 0 <;>
      simp [GcMutatorThread.isNoCollect,hl,Nat.pos_iff_ne_zero] at hn ⊢ <;> omega

theorem Counted.beginWait (ht : t ∈ m.mutatorThreadList) (hl : (m.thread t).waitRegionLevel = 0) :
    (m.beginWaitRegion t).Counted := by
  apply h.replace ht
  · simp [GcMutatorThread.isWaiting,hl]
  · rfl

theorem Counted.endWait (ht : t ∈ m.mutatorThreadList) (hl : 0 < (m.thread t).waitRegionLevel) :
    (m.endWaitRegion t).Counted := by
  apply h.replace ht
  · simp [GcMutatorThread.isWaiting,hl]
  · rfl

theorem Counted.beginNoCollect (ht : t ∈ m.mutatorThreadList)
    (hl : (m.thread t).noCollectRegionLevel = 0) :
    (m.beginNoCollectRegion t).Counted := by
  apply h.replace ht
  · rfl
  · simp [GcMutatorThread.isNoCollect,hl]

theorem Counted.endNoCollect (ht : t ∈ m.mutatorThreadList)
    (hl : 0 < (m.thread t).noCollectRegionLevel) :
    (m.endNoCollectRegion t).Counted := by
  apply h.replace ht
  · rfl
  · simp [GcMutatorThread.isNoCollect,hl]

theorem Counted.nestWait (ht : t ∈ m.mutatorThreadList) (hl : (m.thread t).waitRegionLevel ≠ 0) :
    (m.nestWaitRegion t).Counted :=
  h.setThread ht (by simp [GcMutatorThread.isWaiting,Nat.pos_iff_ne_zero,hl]) rfl

theorem Counted.unnestWait (ht : t ∈ m.mutatorThreadList) (hl : 1 < (m.thread t).waitRegionLevel) :
    (m.unnestWaitRegion t).Counted :=
  h.setThread ht (by simp only [GcMutatorThread.isWaiting,decide_eq_decide]; omega) rfl

theorem Counted.nestNoCollect (ht : t ∈ m.mutatorThreadList)
    (hl : (m.thread t).noCollectRegionLevel ≠ 0) :
    (m.nestNoCollectRegion t).Counted :=
  h.setThread ht rfl (by simp [GcMutatorThread.isNoCollect,Nat.pos_iff_ne_zero,hl])

theorem Counted.unnestNoCollect (ht : t ∈ m.mutatorThreadList)
    (hl : 1 < (m.thread t).noCollectRegionLevel) :
    (m.unnestNoCollectRegion t).Counted :=
  h.setThread ht rfl (by simp only [GcMutatorThread.isNoCollect,decide_eq_decide]; omega)

theorem Counted.exists_noCollect (hc : m.noCollectMutatorThreadCount ≠ 0) :
    ∃ t ∈ m.mutatorThreadList, 0 < (m.thread t).noCollectRegionLevel := by
  have hpos : 0 < m.noCollectCount := by
    have := h.noCollect
    omega
  obtain ⟨t,ht,hp⟩ := Counting.pos_of_countP_pos hpos
  exact ⟨t,ht,of_decide_eq_true hp⟩

end

end MutatorTable
end Jancy.Rt
