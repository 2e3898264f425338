import Jancy.Rt.SafePoint

/-! The global invariant of the stop-the-world handshake, and what it says about the phases in
which the heap is touched. -/
namespace Jancy.Rt
namespace SafePoint

def Pc.isPark : Pc → Bool
  | .parking _ | .parked _ | .leaving _ => true
  | _ => false

def Pc.isCollecting : Pc → Bool
  | .collecting _ => true
  | _ => false

/-- Neither part of a handshake nor the initiator of one. -/
def Pc.isPlain (p : Pc) : Bool := !p.isPark && !p.isCollecting

/-- The flag `m_isSafePoint` is up from the announcement to the wake-up. -/
def Pc.hasSafePointFlag : Pc → Bool
  | .parking _ | .parked _ => true
  | _ => false

def Pc.isParking : Pc → Bool
  | .parking _ => true
  | _ => false

def Pc.isParked : Pc → Bool
  | .parked _ => true
  | _ => false

def Pc.isLeaving : Pc → Bool
  | .leaving _ => true
  | _ => false

def AllowedNext (m : MutatorTable) (t : ThreadId) : Option Op → Prop
  | none => True
  | some op => Heap.Allowed m t op

/-- What the program counter of a thread says about its record. -/
def LocalOk (m : MutatorTable) (t : ThreadId) : Pc → Prop
  | .running => True
  | .locking op isMutator => isMutator = m.isMutatorThread t ∧ Heap.Allowed m t op
  | .idleWaiting op true | .relocking op true =>
      t ∈ m.mutatorThreadList ∧ (m.thread t).waitRegionLevel = 1 ∧
        Heap.Allowed (m.endWaitRegion t) t op
  | .idleWaiting op false | .relocking op false =>
      m.isMutatorThread t = false ∧ Heap.Allowed m t op
  | .safePoint next | .parking next | .parked next | .leaving next =>
      m.isMutatorThread t = true ∧ AllowedNext m t next
  | .collecting c => AllowedNext m t c.next

structure ThreadOk (m : MutatorTable) (t : ThreadId) (p : Pc) : Prop where
  flag : (m.thread t).isSafePoint = p.hasSafePointFlag
  localOk : LocalOk m t p

variable {m m' : MutatorTable} {t : ThreadId}

section

variable (hl : t ∈ m'.mutatorThreadList ↔ t ∈ m.mutatorThreadList)

include hl

theorem isMutatorThread_congr (hw : (m'.thread t).waitRegionLevel = (m.thread t).waitRegionLevel) :
    m'.isMutatorThread t = m.isMutatorThread t := by
  simp [MutatorTable.isMutatorThread,GcMutatorThread.isWaiting,hl,hw]

theorem allowed_congr (hw : (m'.thread t).waitRegionLevel = (m.thread t).waitRegionLevel)
    (hn : (m'.thread t).noCollectRegionLevel = (m.thread t).noCollectRegionLevel) (op : Op) :
    Heap.Allowed m' t op ↔ Heap.Allowed m t op := by
  cases op <;> simp only [Heap.Allowed,isMutatorThread_congr hl hw,hl,hw,hn]

theorem AllowedNext.congr (hw : (m'.thread t).waitRegionLevel = (m.thread t).waitRegionLevel)
    (hn : (m'.thread t).noCollectRegionLevel = (m.thread t).noCollectRegionLevel) {next : Option Op}
    (h : AllowedNext m t next) : AllowedNext m' t next := by
  cases next with
  | none => trivial
  | some op => exact (allowed_congr hl hw hn op).mpr h

/-- A thread's own view depends on its record and its registration only. -/
theorem ThreadOk.congr {p : Pc} (ht : m'.thread t = m.thread t) (h : ThreadOk m t p) :
    ThreadOk m' t p := by
  have hw : (m'.thread t).waitRegionLevel = (m.thread t).waitRegionLevel := by rw [ht]
  have hn : (m'.thread t).noCollectRegionLevel = (m.thread t).noCollectRegionLevel := by rw [ht]
  have hend : (m'.endWaitRegion t).thread t = (m.endWaitRegion t).thread t := by
    simp [MutatorTable.endWaitRegion,ht]
  have hlEnd : t ∈ (m'.endWaitRegion t).mutatorThreadList ↔
      t ∈ (m.endWaitRegion t).mutatorThreadList := hl
  have hendOp : ∀ op, Heap.Allowed (m'.endWaitRegion t) t op ↔
      Heap.Allowed (m.endWaitRegion t) t op :=
    allowed_congr hlEnd (by rw [hend]) (by rw [hend])
  refine ⟨by rw [ht]; exact h.flag,?_⟩
  have hloc := h.localOk
  have hnext : ∀ next, AllowedNext m t next → AllowedNext m' t next := fun _ =>
    AllowedNext.congr hl hw hn
  match p, hloc with
  | .running, _ => trivial
  | .locking op b, hloc =>
    exact ⟨by rw [isMutatorThread_congr hl hw]; exact hloc.1,(allowed_congr hl hw hn op).mpr hloc.2⟩
  | .idleWaiting op true, hloc =>
    exact ⟨hl.mpr hloc.1,by rw [ht]; exact hloc.2.1,(hendOp op).mpr hloc.2.2⟩
  | .relocking op true, hloc =>
    exact ⟨hl.mpr hloc.1,by rw [ht]; exact hloc.2.1,(hendOp op).mpr hloc.2.2⟩
  | .idleWaiting op false, hloc =>
    exact ⟨by rw [isMutatorThread_congr hl hw]; exact hloc.1,(allowed_congr hl hw hn op).mpr hloc.2⟩
  | .relocking op false, hloc =>
    exact ⟨by rw [isMutatorThread_congr hl hw]; exact hloc.1,(allowed_congr hl hw hn op).mpr hloc.2⟩
  | .safePoint next, hloc =>
    exact ⟨by rw [isMutatorThread_congr hl hw]; exact hloc.1,hnext next hloc.2⟩
  | .parking next, hloc =>
    exact ⟨by rw [isMutatorThread_congr hl hw]; exact hloc.1,hnext next hloc.2⟩
  | .parked next, hloc =>
    exact ⟨by rw [isMutatorThread_congr hl hw]; exact hloc.1,hnext next hloc.2⟩
  | .leaving next, hloc =>
    exact ⟨by rw [isMutatorThread_congr hl hw]; exact hloc.1,hnext next hloc.2⟩
  | .collecting c, hloc => exact hnext c.next hloc

end

/-- No handshake is under way. -/
structure Quiet (s : Heap) : Prop where
  state : s.state = .idle
  plain : ∀ u, (s.pc u).isPlain = true
  handshakeCount : s.handshakeCount = 0
  handshakeEvent : s.handshakeEvent = false

/-- Every registered thread except the initiator is counted or waits. -/
def Held (s : Heap) (t : ThreadId) (c : Collection) : Prop :=
  ∀ u, u ∈ c.counted ↔
    u ∈ s.mutators.mutatorThreadList ∧ u ≠ t ∧ (s.mutators.thread u).isWaiting = false

/-- The counter is the number of counted threads that have not parked yet. -/
structure Stopping (s : Heap) (t : ThreadId) (c : Collection) : Prop where
  held : Held s t c
  parks : ∀ u, (s.pc u).isPark = true → u ∈ c.counted ∧ (s.pc u).isLeaving = false
  count : s.handshakeCount = (c.counted.countP fun u => !(s.pc u).isParked : ℕ)
  event : s.handshakeEvent = decide (s.handshakeCount = 0)
  resume : s.resumeEvent = false

structure Stopped (s : Heap) (t : ThreadId) (c : Collection) : Prop where
  held : Held s t c
  parks : ∀ u, (s.pc u).isPark = true → u ∈ c.counted
  parked : ∀ u ∈ c.counted, (s.pc u).isParked = true
  count : s.handshakeCount = 0
  event : s.handshakeEvent = false
  resume : c.counted ≠ [] → s.resumeEvent = false

/-- The counter is the number of counted threads that are still at their safe point. -/
structure Resuming (s : Heap) (c : Collection) : Prop where
  parks : ∀ u, (s.pc u).isPark = true → u ∈ c.counted ∧ (s.pc u).isParking = false
  count : s.handshakeCount = (c.counted.countP fun u => (s.pc u).isPark : ℕ)
  event : s.handshakeEvent = decide (s.handshakeCount = 0)

/-- The world runs again, or there was nobody to stop. -/
structure Finishing (s : Heap) (t : ThreadId) (c : Collection) : Prop where
  parks : ∀ u, (s.pc u).isPark = false
  count : s.handshakeCount = 0
  event : s.handshakeEvent = false
  state : s.state = .resumeTheWorld ∨
    (s.state = .stopTheWorld ∨ s.state = .sweep) ∧ Held s t c ∧ c.counted = []

def PhaseOk (s : Heap) (t : ThreadId) (c : Collection) : Prop :=
  match c.phase with
  | .stopping => s.state = .stopTheWorld ∧ Stopping s t c
  | .stopped => s.state = .stopTheWorld ∧ Stopped s t c
  | .marking => s.state = .mark ∧ Stopped s t c
  | .building => s.state = .buildDestructGraph ∧ Stopped s t c
  | .sweeping => s.state = .sweep ∧ Stopped s t c
  | .resuming => s.state = .resumeTheWorld ∧ Resuming s c
  | .finishing => Finishing s t c

/-- Thread `t` is the one initiator. -/
structure Active (s : Heap) (t : ThreadId) (c : Collection) : Prop where
  pc : s.pc t = .collecting c
  unique : ∀ u, u ≠ t → (s.pc u).isCollecting = false
  nodup : c.counted.Nodup
  count : c.handshakeCount = c.counted.length
  phase : PhaseOk s t c

def World (s : Heap) : Prop := Quiet s ∨ ∃ t c, Active s t c

structure Invariant (s : Heap) : Prop where
  counted : s.mutators.Counted
  threads : ∀ u, ThreadOk s.mutators u (s.pc u)
  world : World s

theorem initial_invariant : Invariant Heap.initial where
  counted := MutatorTable.initial_counted
  threads _ := ⟨rfl,trivial⟩
  world := .inl ⟨rfl,fun _ => rfl,rfl,rfl⟩

theorem Active.not_idle {s : Heap} {c : Collection} (h : Active s t c) :
    s.state ≠ .idle := by
  have hp := h.phase
  unfold PhaseOk at hp
  split at hp
  case h_7 =>
    rcases hp.state with hs | ⟨hs | hs,-⟩ <;> simp [hs]
  all_goals simp [hp.1]

theorem World.quiet_of_idle {s : Heap} (h : World s) (hs : s.state = .idle) : Quiet s := by
  rcases h with hq | ⟨t,c,ha⟩
  · exact hq
  · exact absurd hs ha.not_idle

theorem World.active_of_not_idle {s : Heap} (h : World s) (hs : s.state ≠ .idle) :
    ∃ t c, Active s t c := h.resolve_left fun hq => hs hq.state

@[simp] theorem isPark_of_plain {p : Pc} (h : p.isPlain = true) : p.isPark = false := by
  cases p <;> simp_all [Pc.isPlain,Pc.isPark,Pc.isCollecting]

@[simp] theorem isCollecting_of_plain {p : Pc} (h : p.isPlain = true) :
    p.isCollecting = false := by
  cases p <;> simp_all [Pc.isPlain,Pc.isPark,Pc.isCollecting]

/-- Only thread `t` moves, and neither from nor to a place at a safe point. -/
structure Moves (s s' : Heap) (t : ThreadId) : Prop where
  pc : ∀ u, u ≠ t → s'.pc u = s.pc u
  before : (s.pc t).isPark = false
  after : (s'.pc t).isPark = false

/-- Nor does the handshake change. -/
structure Alike (s s' : Heap) (t : ThreadId) : Prop extends Moves s s' t where
  handshakeCount : s'.handshakeCount = s.handshakeCount
  handshakeEvent : s'.handshakeEvent = s.handshakeEvent
  resumeEvent : s'.resumeEvent = s.resumeEvent

/-- The phases that hold the world also need the regions to stay as they were. -/
structure SameRegions (s s' : Heap) : Prop where
  list : ∀ u, u ∈ s'.mutators.mutatorThreadList ↔ u ∈ s.mutators.mutatorThreadList
  waiting : ∀ u, (s'.mutators.thread u).isWaiting = (s.mutators.thread u).isWaiting

theorem SameRegions.of_eq {s s' : Heap} (h : s'.mutators = s.mutators) : SameRegions s s' :=
  ⟨fun u => by rw [h],fun u => by rw [h]⟩

section Moves

variable {s s' : Heap} {t : ThreadId}

theorem Moves.isPark (h : Moves s s' t) (u : ThreadId) : (s'.pc u).isPark = (s.pc u).isPark := by
  by_cases he : u = t
  · subst he
    rw [h.after,h.before]
  · rw [h.pc u he]

theorem Moves.eq_of_park (h : Moves s s' t) {u : ThreadId} (hu : (s'.pc u).isPark = true) :
    s'.pc u = s.pc u := by
  apply h.pc
  rintro rfl
  simp [h.after] at hu

theorem isParked_of_not_isPark {p : Pc} (h : p.isPark = false) : p.isParked = false := by
  cases p <;> simp_all [Pc.isPark,Pc.isParked]

theorem Moves.isParked (h : Moves s s' t) (u : ThreadId) :
    (s'.pc u).isParked = (s.pc u).isParked := by
  by_cases he : u = t
  · subst he
    rw [isParked_of_not_isPark h.after,isParked_of_not_isPark h.before]
  · rw [h.pc u he]

variable {t₀ : ThreadId}

theorem SameRegions.held {c c' : Collection} (h : SameRegions s s') (hc : c'.counted = c.counted)
    (hh : Held s t₀ c) : Held s' t₀ c' := by
  intro u
  rw [hc,hh u,h.list u,h.waiting u]

variable {c : Collection}

theorem Alike.stopping (h : Alike s s' t) (hr : SameRegions s s') (hs : Stopping s t₀ c) :
    Stopping s' t₀ c where
  held := hr.held rfl hs.held
  parks u hu := by
    have he := h.eq_of_park hu
    rw [he] at hu ⊢
    exact hs.parks u hu
  count := by
    rw [h.handshakeCount,hs.count]
    exact congrArg Nat.cast (Counting.countP_same fun u _ => by rw [h.isParked u])
  event := by rw [h.handshakeEvent,h.handshakeCount,hs.event]
  resume := h.resumeEvent.trans hs.resume

theorem Alike.stopped (h : Alike s s' t) (hr : SameRegions s s') {c c' : Collection}
    (hc : c'.counted = c.counted) (hs : Stopped s t₀ c) :
    Stopped s' t₀ c' where
  held := hr.held hc hs.held
  parks u hu := by rw [hc]; exact hs.parks u (by rw [← h.isPark u]; exact hu)
  parked u hu := by rw [h.isParked u]; exact hs.parked u (hc ▸ hu)
  count := h.handshakeCount.trans hs.count
  event := h.handshakeEvent.trans hs.event
  resume hne := h.resumeEvent.trans (hs.resume (hc ▸ hne))

theorem Alike.resuming (h : Alike s s' t) (hr : Resuming s c) :
    Resuming s' c where
  parks u hu := by
    have he := h.eq_of_park hu
    rw [he] at hu ⊢
    exact hr.parks u hu
  count := by
    rw [h.handshakeCount,hr.count]
    exact congrArg Nat.cast (Counting.countP_same fun u _ => (h.isPark u).symm)
  event := by rw [h.handshakeEvent,h.handshakeCount,hr.event]

theorem Alike.finishing (h : Alike s s' t) (hstate : s'.state = s.state) (hr : SameRegions s s')
    (hs : Finishing s t₀ c) :
    Finishing s' t₀ c where
  parks u := (h.isPark u).trans (hs.parks u)
  count := h.handshakeCount.trans hs.count
  event := h.handshakeEvent.trans hs.event
  state := by
    rw [hstate]
    exact hs.state.imp_right fun hc => ⟨hc.1,hr.held rfl hc.2.1,hc.2.2⟩

/-- Thread `t` moves between plain places and the handshake does not change. -/
structure PlainStep (s s' : Heap) (t : ThreadId) : Prop extends Alike s s' t where
  state : s'.state = s.state
  plainBefore : (s.pc t).isPlain = true
  plainAfter : (s'.pc t).isPlain = true

section

variable (h : PlainStep s s' t)

include h

theorem PlainStep.quiet (hq : Quiet s) : Quiet s' where
  state := h.state.trans hq.state
  plain u := by
    by_cases he : u = t
    · subst he
      exact h.plainAfter
    · rw [h.pc u he]
      exact hq.plain u
  handshakeCount := h.handshakeCount.trans hq.handshakeCount
  handshakeEvent := h.handshakeEvent.trans hq.handshakeEvent

theorem PlainStep.initiator (ha : Active s t₀ c) : t₀ ≠ t := by
  rintro rfl
  have := h.plainBefore
  simp [ha.pc,Pc.isPlain,Pc.isCollecting] at this

/-- The initiator and its locals survive another thread's plain step; what is left to show is
the phase. -/
theorem PlainStep.active (ha : Active s t₀ c) (hp : PhaseOk s' t₀ c) :
    Active s' t₀ c := by
  refine ⟨(h.pc t₀ (h.initiator ha)).trans ha.pc,fun u hu => ?_,ha.nodup,ha.count,hp⟩
  by_cases he : u = t
  · subst he
    exact isCollecting_of_plain h.plainAfter
  · rw [h.pc u he]
    exact ha.unique u hu

theorem PlainStep.phase (hr : SameRegions s s') (hp : PhaseOk s t₀ c) :
    PhaseOk s' t₀ c := by
  unfold PhaseOk at hp ⊢
  split at hp
  case h_1 => exact ⟨h.state.trans hp.1,h.stopping hr hp.2⟩
  case h_6 => exact ⟨h.state.trans hp.1,h.resuming hp.2⟩
  case h_7 => exact h.finishing h.state hr hp
  all_goals exact ⟨h.state.trans hp.1,h.stopped hr rfl hp.2⟩

theorem PlainStep.world (hr : SameRegions s s') (hw : World s) : World s' :=
  hw.imp h.quiet fun ⟨t₀,c,ha⟩ => ⟨t₀,c,h.active ha (h.phase hr ha.phase)⟩

end

end Moves

theorem counted_length {s : Heap} (hc : s.mutators.Counted) (t : ThreadId) :
    ((s.counted t).length : ℤ) = (s.mutators.mutatorThreadList.length : ℤ) -
      s.mutators.waitingMutatorThreadCount - (if s.mutators.isMutatorThread t then 1 else 0) := by
  have hsplit := List.length_eq_countP_add_countP (l := s.mutators.mutatorThreadList)
    fun u => (s.mutators.thread u).isWaiting
  have hlen : (s.counted t).length = s.mutators.mutatorThreadList.countP fun u =>
      decide (u ≠ t) && !(s.mutators.thread u).isWaiting := by
    rw [List.countP_eq_length_filter]
    rfl
  have hw := hc.waiting
  unfold MutatorTable.waitingCount at hw
  by_cases ht : t ∈ s.mutators.mutatorThreadList
  · have hchange := Counting.countP_change hc.nodup ht
      (p := fun u => decide (u ≠ t) && !(s.mutators.thread u).isWaiting)
      (q := fun u => !(s.mutators.thread u).isWaiting) (fun u _ hu => by simp [hu])
    cases hwt : (s.mutators.thread t).isWaiting <;>
      simp [MutatorTable.isMutatorThread,ht,hwt] at hchange hsplit hlen ⊢ <;> omega
  · have hsame : s.mutators.mutatorThreadList.countP (fun u =>
        decide (u ≠ t) && !(s.mutators.thread u).isWaiting) =
          s.mutators.mutatorThreadList.countP fun u => !(s.mutators.thread u).isWaiting := by
      apply Counting.countP_same
      intro u hu
      have hne : u ≠ t := fun he => ht (he ▸ hu)
      simp [hne]
    simp [MutatorTable.isMutatorThread,ht] at hsame hsplit hlen ⊢
    omega

end SafePoint
end Jancy.Rt
