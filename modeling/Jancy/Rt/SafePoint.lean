import Jancy.Lib.Run
import Jancy.Rt.MutatorThread

/-! The stop-the-world handshake of `GcHeap` with simple safe points. Every thread has its own
program counter; a body under `m_lock` is one step, and so is every event and atomic operation
outside the lock. -/
namespace Jancy.Rt
namespace SafePoint

/-- `GcHeap::State`. -/
inductive GcState where
  | idle | stopTheWorld | mark | buildDestructGraph | sweep | resumeTheWorld
  deriving DecidableEq, Repr

/-- The functions of `GcHeap` that begin with `waitIdleAndLock`. `other` is every body under the
lock that leaves threads, regions and the handshake alone. -/
inductive Op where
  | registerMutatorThread
  | unregisterMutatorThread
  | enterWaitRegion
  | leaveWaitRegion
  | enterNoCollectRegion
  | leaveNoCollectRegion (canCollectNow : Bool)
  | allocate
  | collect
  | abort
  | other
  deriving DecidableEq, Repr

inductive Phase where
  | stopping | stopped | marking | building | sweeping | resuming | finishing
  deriving DecidableEq, Repr

/-- The locals of the initiator. `counted` is not stored by the code: it lists the threads that
`handshakeCount` counts. -/
structure Collection where
  phase : Phase
  handshakeCount : ℤ
  counted : List ThreadId
  isAbort : Bool
  next : Option Op
  deriving DecidableEq, Repr

/-- Where a thread stands. The flag of the waiting states is the `isMutatorThread` that
`waitIdleAndLock` computed; `next` is the function that a safe point returns into. -/
inductive Pc where
  | running
  | locking (op : Op) (isMutator : Bool)
  | idleWaiting (op : Op) (isMutator : Bool)
  | relocking (op : Op) (isMutator : Bool)
  | safePoint (next : Option Op)
  | parking (next : Option Op)
  | parked (next : Option Op)
  | leaving (next : Option Op)
  | collecting (c : Collection)
  deriving DecidableEq, Repr

structure Heap where
  state : GcState
  isAborted : Bool
  mutators : MutatorTable
  handshakeCount : ℤ
  idleEvent : Bool
  resumeEvent : Bool
  handshakeEvent : Bool
  pc : ThreadId → Pc

/-- `advance` carries the answer to the one question the model leaves open at the thread's
current point: is a collection triggered, is there anything to destruct, does an abort throw. -/
inductive Action where
  | call (t : ThreadId) (op : Op)
  | callSafePoint (t : ThreadId)
  | nestWaitRegion (t : ThreadId)
  | unnestWaitRegion (t : ThreadId)
  | nestNoCollectRegion (t : ThreadId)
  | unnestNoCollectRegion (t : ThreadId)
  | advance (t : ThreadId) (answer : Bool)
  deriving DecidableEq, Repr

namespace Heap

def initial : Heap where
  state := .idle
  isAborted := false
  mutators := .initial
  handshakeCount := 0
  idleEvent := true
  resumeEvent := false
  handshakeEvent := false
  pc _ := .running

def goto (s : Heap) (t : ThreadId) (p : Pc) : Heap :=
  { s with pc := Function.update s.pc t p }

def setSafePoint (s : Heap) (t : ThreadId) (b : Bool) : Heap :=
  { s with mutators := s.mutators.setThread t { s.mutators.thread t with isSafePoint := b } }

/-- Back from a safe point: to the caller's own code, or into the loop of `waitIdleAndLock`. -/
def afterSafePoint : Option Op → Pc
  | none => .running
  | some op => .locking op true

/-- Out of a collection: to the caller's own code, or to `waitIdleAndLock` once more. -/
def afterCollection (s : Heap) (t : ThreadId) : Option Op → Pc
  | none => .running
  | some op => .locking op (s.mutators.isMutatorThread t)

/-- `sys::atomicDec(&m_handshakeCount)`, and the signal when it reaches zero. -/
def decHandshake (s : Heap) : Heap :=
  { s with
    handshakeCount := s.handshakeCount - 1
    handshakeEvent := s.handshakeEvent || decide (s.handshakeCount - 1 = 0) }

/-- The threads that have to park before the world is stopped. -/
def counted (s : Heap) (t : ThreadId) : List ThreadId :=
  s.mutators.mutatorThreadList.filter fun u =>
    decide (u ≠ t) && !(s.mutators.thread u).isWaiting

def stopTheWorld_l (s : Heap) (t : ThreadId) (isMutator isAbort : Bool) (next : Option Op) :
    Heap :=
  let n := (s.mutators.mutatorThreadList.length : ℤ) - s.mutators.waitingMutatorThreadCount -
    (if isMutator then 1 else 0)
  let c : Collection := ⟨.stopping,n,s.counted t,isAbort,next⟩
  if n = 0 then
    { s with state := .stopTheWorld, idleEvent := false }.goto t
      (.collecting { c with phase := .stopped })
  else
    { s with
      resumeEvent := false
      handshakeCount := n
      state := .stopTheWorld
      idleEvent := false }.goto t (.collecting c)

def resumeTheWorld (s : Heap) (t : ThreadId) (c : Collection) : Heap :=
  if c.handshakeCount = 0 then s.goto t (.collecting { c with phase := .finishing })
  else
    { s with
      handshakeCount := c.handshakeCount
      state := .resumeTheWorld
      resumeEvent := true }.goto t (.collecting { c with phase := .resuming })

/-- `isCollectionTriggered_l`; whether a size has passed its trigger is `answer`. -/
def isCollectionTriggered_l (s : Heap) (answer : Bool) : Bool :=
  decide (s.mutators.noCollectMutatorThreadCount = 0) && answer

/-- The bodies that run once `waitIdleAndLock` has returned. -/
def locked (s : Heap) (t : ThreadId) (isMutator answer : Bool) : Op → Heap
  | .registerMutatorThread =>
      { s with mutators := s.mutators.registerMutatorThread t }.goto t .running
  | .unregisterMutatorThread =>
      { s with mutators := s.mutators.unregisterMutatorThread t }.goto t .running
  | .enterWaitRegion => { s with mutators := s.mutators.beginWaitRegion t }.goto t .running
  | .leaveWaitRegion => { s with mutators := s.mutators.endWaitRegion t }.goto t .running
  | .enterNoCollectRegion =>
      { s with mutators := s.mutators.beginNoCollectRegion t }.goto t .running
  | .leaveNoCollectRegion canCollectNow =>
      let s' := { s with mutators := s.mutators.endNoCollectRegion t }
      if canCollectNow && s'.isCollectionTriggered_l answer then
        s'.stopTheWorld_l t isMutator false none
      else s'.goto t .running
  | .allocate =>
      if s.isCollectionTriggered_l answer then s.stopTheWorld_l t isMutator false (some .other)
      else s.goto t .running
  | .collect =>
      if s.mutators.noCollectMutatorThreadCount = 0 then s.stopTheWorld_l t isMutator false none
      else s.goto t .running
  | .abort => s.stopTheWorld_l t isMutator true none
  | .other => s.goto t .running

/-- The first pass of `waitIdleAndLock` through the lock. -/
def lockFirst (s : Heap) (t : ThreadId) (isMutator answer : Bool) (op : Op) : Heap :=
  if s.state = .idle then s.locked t isMutator answer op
  else if isMutator then
    if s.state = .stopTheWorld then s.goto t (.safePoint (some op))
    else { s with mutators := s.mutators.beginWaitRegion t }.goto t (.idleWaiting op true)
  else s.goto t (.idleWaiting op false)

/-- Its further passes, each after `m_idleEvent` was seen. -/
def lockAgain (s : Heap) (t : ThreadId) (isMutator answer : Bool) (op : Op) : Heap :=
  if s.state = .idle then
    if isMutator then
      { s with mutators := s.mutators.endWaitRegion t }.locked t true answer op
    else s.locked t false answer op
  else s.goto t (.idleWaiting op isMutator)

/-- One step of the initiator: `collect_l`, or the shorter path of `abort`. -/
def advanceCollection (s : Heap) (t : ThreadId) (answer : Bool) (c : Collection) : Option Heap :=
  match c.phase with
  | .stopping =>
      if s.handshakeEvent then
        some ({ s with handshakeEvent := false }.goto t (.collecting { c with phase := .stopped }))
      else none
  | .stopped =>
      if c.isAbort then some ({ s with isAborted := true }.resumeTheWorld t c)
      else some ({ s with state := .mark }.goto t (.collecting { c with phase := .marking }))
  | .marking =>
      if answer then
        some ({ s with state := .buildDestructGraph }.goto t
          (.collecting { c with phase := .building }))
      else some ({ s with state := .sweep }.goto t (.collecting { c with phase := .sweeping }))
  | .building => some ({ s with state := .sweep }.goto t (.collecting { c with phase := .sweeping }))
  | .sweeping => some (s.resumeTheWorld t c)
  | .resuming =>
      if s.handshakeEvent then
        some ({ s with handshakeEvent := false }.goto t
          (.collecting { c with phase := .finishing }))
      else none
  | .finishing =>
      some ({ s with state := .idle, idleEvent := true }.goto t (s.afterCollection t c.next))

def advance (s : Heap) (t : ThreadId) (answer : Bool) : Option Heap :=
  match s.pc t with
  | .running => none
  | .locking op isMutator => some (s.lockFirst t isMutator answer op)
  | .idleWaiting op isMutator =>
      if s.idleEvent then some (s.goto t (.relocking op isMutator)) else none
  | .relocking op isMutator => some (s.lockAgain t isMutator answer op)
  | .safePoint next =>
      if s.state = .stopTheWorld then some ((s.setSafePoint t true).goto t (.parking next))
      else some (s.goto t (afterSafePoint next))
  | .parking next => some (s.decHandshake.goto t (.parked next))
  | .parked next =>
      if s.resumeEvent then some ((s.setSafePoint t false).goto t (.leaving next)) else none
  | .leaving next =>
      if s.isAborted && answer then some (s.decHandshake.goto t .running)
      else some (s.decHandshake.goto t (afterSafePoint next))
  | .collecting c => s.advanceCollection t answer c

/-- The assertions about the calling thread that each function makes. -/
def Allowed (m : MutatorTable) (t : ThreadId) : Op → Prop
  | .registerMutatorThread => t ∉ m.mutatorThreadList
  | .unregisterMutatorThread | .enterWaitRegion | .allocate => m.isMutatorThread t = true
  | .leaveWaitRegion => t ∈ m.mutatorThreadList ∧ (m.thread t).waitRegionLevel = 1
  | .enterNoCollectRegion =>
      m.isMutatorThread t = true ∧ (m.thread t).noCollectRegionLevel = 0
  | .leaveNoCollectRegion _ =>
      m.isMutatorThread t = true ∧ (m.thread t).noCollectRegionLevel = 1
  | .collect | .abort | .other => True

instance (m : MutatorTable) (t : ThreadId) (op : Op) : Decidable (Allowed m t op) := by
  cases op <;> unfold Allowed <;> infer_instance

def step (s : Heap) : Action → Option Heap
  | .call t op =>
      if s.pc t = .running ∧ Allowed s.mutators t op
      then some (s.goto t (.locking op (s.mutators.isMutatorThread t))) else none
  | .callSafePoint t =>
      if s.pc t = .running ∧ s.mutators.isMutatorThread t = true
      then some (s.goto t (.safePoint none)) else none
  | .nestWaitRegion t =>
      if s.pc t = .running ∧ t ∈ s.mutators.mutatorThreadList ∧
        (s.mutators.thread t).waitRegionLevel ≠ 0
      then some { s with mutators := s.mutators.nestWaitRegion t } else none
  | .unnestWaitRegion t =>
      if s.pc t = .running ∧ t ∈ s.mutators.mutatorThreadList ∧
        1 < (s.mutators.thread t).waitRegionLevel
      then some { s with mutators := s.mutators.unnestWaitRegion t } else none
  | .nestNoCollectRegion t =>
      if s.pc t = .running ∧ t ∈ s.mutators.mutatorThreadList ∧
        (s.mutators.thread t).noCollectRegionLevel ≠ 0
      then some { s with mutators := s.mutators.nestNoCollectRegion t } else none
  | .unnestNoCollectRegion t =>
      if s.pc t = .running ∧ t ∈ s.mutators.mutatorThreadList ∧
        1 < (s.mutators.thread t).noCollectRegionLevel
      then some { s with mutators := s.mutators.unnestNoCollectRegion t } else none
  | .advance t answer => s.advance t answer

end Heap
end SafePoint
end Jancy.Rt
