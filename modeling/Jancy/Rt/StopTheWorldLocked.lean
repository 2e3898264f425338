import Jancy.Rt.StopTheWorld

/-! The bodies that run under the lock with the heap idle keep the handshake invariant. -/
namespace Jancy.Rt
namespace SafePoint

/-- Nothing but the record and the registration of thread `t` changes. -/
structure Frame (m m' : MutatorTable) (t : ThreadId) : Prop where
  mem : ∀ u, u ≠ t → (u ∈ m'.mutatorThreadList ↔ u ∈ m.mutatorThreadList)
  thread : ∀ u, u ≠ t → m'.thread u = m.thread u

theorem Frame.refl (m : MutatorTable) (t : ThreadId) : Frame m m t :=
  ⟨fun _ _ => Iff.rfl,fun _ _ => rfl⟩

theorem Frame.record (m : MutatorTable) (t : ThreadId) (g : GcMutatorThread) (w n : ℤ) :
    Frame m ⟨m.mutatorThreadList,Function.update m.thread t g,w,n⟩ t :=
  ⟨fun _ _ => Iff.rfl,fun _ hu => MutatorTable.setThread_ne m g hu⟩

theorem Frame.register (m : MutatorTable) (t : ThreadId) :
    Frame m (m.registerMutatorThread t) t :=
  ⟨fun u hu => by simp [MutatorTable.registerMutatorThread,hu],
    fun u hu => MutatorTable.setThread_ne m _ hu⟩

variable {m : MutatorTable}

theorem Frame.unregister (hm : m.mutatorThreadList.Nodup) (t : ThreadId) :
    Frame m (m.unregisterMutatorThread t) t :=
  ⟨fun u hu => by simp [MutatorTable.unregisterMutatorThread,hm.mem_erase_iff,hu],
    fun _ _ => rfl⟩

variable {t : ThreadId}

theorem Invariant.update {s s' : Heap} (h : Invariant s) (hm : s'.mutators.Counted)
    (hf : Frame s.mutators s'.mutators t) (hpc : ∀ u, u ≠ t → s'.pc u = s.pc u)
    (hown : ThreadOk s'.mutators t (s'.pc t)) (hw : World s') : Invariant s' where
  counted := hm
  threads u := by
    by_cases he : u = t
    · subst he
      exact hown
    · rw [hpc u he]
      exact (h.threads u).congr (hf.mem u he) (hf.thread u he)
  world := hw

@[simp] theorem goto_self (s : Heap) (t : ThreadId) (p : Pc) : (s.goto t p).pc t = p := by
  simp [Heap.goto]

@[simp] theorem goto_ne (s : Heap) {t u : ThreadId} (p : Pc) (h : u ≠ t) :
    (s.goto t p).pc u = s.pc u := by simp [Heap.goto,h]

@[simp] theorem goto_mutators (s : Heap) (t : ThreadId) (p : Pc) :
    (s.goto t p).mutators = s.mutators := rfl

variable {s : Heap}

theorem Invariant.goto_plain {p : Pc} (h : Invariant s) (hb : (s.pc t).isPlain = true)
    (ha : p.isPlain = true) (hown : ThreadOk s.mutators t p) :
    Invariant (s.goto t p) := by
  refine h.update h.counted (Frame.refl _ t) (fun u hu => goto_ne s p hu) (by simpa using hown) ?_
  have hstep : PlainStep s (s.goto t p) t := by
    refine ⟨⟨⟨fun u hu => goto_ne s p hu,isPark_of_plain hb,?_⟩,rfl,rfl,rfl⟩,rfl,hb,?_⟩
    · simpa using isPark_of_plain ha
    · simpa using ha
  exact hstep.world (SameRegions.of_eq rfl) h.world

theorem Invariant.nest (h : Invariant s) (hp : s.pc t = .running) (hm : m.Counted)
    (hf : Frame s.mutators m t) (hl : m.mutatorThreadList = s.mutators.mutatorThreadList)
    (hflag : (m.thread t).isSafePoint = (s.mutators.thread t).isSafePoint)
    (hw : (m.thread t).isWaiting = (s.mutators.thread t).isWaiting) :
    Invariant { s with mutators := m } := by
  refine h.update hm hf (fun _ _ => rfl) ⟨?_,by simp [hp,LocalOk]⟩ ?_
  · rw [hflag]
    exact (h.threads t).flag
  · have hplain : (s.pc t).isPlain = true := by simp [hp,Pc.isPlain,Pc.isPark,Pc.isCollecting]
    have hpark : (s.pc t).isPark = false := isPark_of_plain hplain
    have hstep : PlainStep s { s with mutators := m } t :=
      ⟨⟨⟨fun _ _ => rfl,hpark,hpark⟩,rfl,rfl,rfl⟩,rfl,hplain,hplain⟩
    have hregions : SameRegions s { s with mutators := m } := by
      refine ⟨fun u => by simp only [hl],fun u => ?_⟩
      by_cases he : u = t
      · subst he
        exact hw
      · simp only [hf.thread u he]
    exact hstep.world hregions h.world

/-- Thread `t` holds the lock and `m_state` is idle. -/
structure Ready (s : Heap) (t : ThreadId) : Prop where
  quiet : Quiet s
  counted : s.mutators.Counted
  others : ∀ u, u ≠ t → ThreadOk s.mutators u (s.pc u)
  flag : (s.mutators.thread t).isSafePoint = false

theorem Ready.goto (h : Ready s t) (hm : m.Counted) (hf : Frame s.mutators m t)
    (hflag : (m.thread t).isSafePoint = false) :
    Invariant ({ s with mutators := m }.goto t .running) where
  counted := hm
  threads u := by
    by_cases he : u = t
    · subst he
      exact ⟨by simpa [Pc.hasSafePointFlag] using hflag,by simp [LocalOk]⟩
    · rw [goto_ne _ _ he]
      exact (h.others u he).congr (hf.mem u he) (hf.thread u he)
  world := by
    refine .inl ⟨h.quiet.state,fun u => ?_,h.quiet.handshakeCount,h.quiet.handshakeEvent⟩
    by_cases he : u = t
    · subst he
      simp [Pc.isPlain,Pc.isPark,Pc.isCollecting]
    · rw [goto_ne _ _ he]
      exact h.quiet.plain u

theorem Ready.not_park (h : Ready s t) (c : Collection) (u : ThreadId) :
    ((s.goto t (.collecting c)).pc u).isPark = false := by
  by_cases he : u = t
  · subst he
    simp [Pc.isPark]
  · rw [goto_ne _ _ he]
    exact isPark_of_plain (h.quiet.plain u)

theorem mem_counted {t u : ThreadId} :
    u ∈ s.counted t ↔
      u ∈ s.mutators.mutatorThreadList ∧ u ≠ t ∧ (s.mutators.thread u).isWaiting = false := by
  simp [Heap.counted]

theorem stopTheWorld_l_invariant (h : Ready s t) {isMutator : Bool}
    (hm : isMutator = s.mutators.isMutatorThread t) (isAbort : Bool) {next : Option Op}
    (hn : AllowedNext s.mutators t next) :
    Invariant (s.stopTheWorld_l t isMutator isAbort next) := by
  subst hm
  have hlen := counted_length h.counted t
  have hnd : (s.counted t).Nodup := h.counted.nodup.filter _
  have hunique : ∀ (c : Collection) u, u ≠ t →
      ((s.goto t (.collecting c)).pc u).isCollecting = false := by
    intro c u hu
    rw [goto_ne _ _ hu]
    exact isCollecting_of_plain (h.quiet.plain u)
  have hthreads : ∀ c : Collection, c.next = next → ∀ u,
      ThreadOk s.mutators u ((s.goto t (.collecting c)).pc u) := by
    intro c hc u
    by_cases he : u = t
    · subst he
      refine ⟨by simpa [Pc.hasSafePointFlag] using h.flag,?_⟩
      simpa [LocalOk,hc] using hn
    · rw [goto_ne _ _ he]
      exact h.others u he
  unfold Heap.stopTheWorld_l
  dsimp only
  rw [← hlen]
  split
  case isTrue hz =>
    have hnil : s.counted t = [] := List.eq_nil_of_length_eq_zero (by omega)
    refine ⟨h.counted,hthreads _ rfl,.inr ⟨t,_,goto_self _ _ _,hunique _,hnd,rfl,rfl,?_⟩⟩
    exact {
      held := fun u => mem_counted
      parks := fun u hu => absurd ((h.not_park _ u).symm.trans hu) Bool.false_ne_true
      parked := fun u hu => by simp [hnil] at hu
      count := h.quiet.handshakeCount
      event := h.quiet.handshakeEvent
      resume := fun hne => absurd hnil hne }
  case isFalse hz =>
    refine ⟨h.counted,hthreads _ rfl,.inr ⟨t,_,goto_self _ _ _,hunique _,hnd,rfl,rfl,?_⟩⟩
    have hall : ∀ c u, ((s.goto t (.collecting c)).pc u).isParked = false :=
      fun c u => isParked_of_not_isPark (h.not_park c u)
    exact {
      held := fun u => mem_counted
      parks := fun u hu => absurd ((h.not_park _ u).symm.trans hu) Bool.false_ne_true
      count := by
        exact congrArg Nat.cast (List.countP_eq_length.mpr fun u _ => congrArg not (hall _ u)).symm
      event := h.quiet.handshakeEvent.trans (decide_eq_false hz).symm
      resume := rfl }

theorem isMutatorThread_mem (h : m.isMutatorThread t = true) :
    t ∈ m.mutatorThreadList ∧ (m.thread t).waitRegionLevel = 0 := by
  simpa [MutatorTable.isMutatorThread,GcMutatorThread.isWaiting] using h

theorem locked_invariant (h : Ready s t) {isMutator : Bool}
    (hm : isMutator = s.mutators.isMutatorThread t) (answer : Bool) {op : Op}
    (ha : Heap.Allowed s.mutators t op) : Invariant (s.locked t isMutator answer op) := by
  have hrun : Invariant (s.goto t .running) := h.goto h.counted (Frame.refl _ t) h.flag
  cases op with
  | registerMutatorThread =>
    exact h.goto (h.counted.register ha) (Frame.register _ t)
      (by simp [MutatorTable.registerMutatorThread])
  | unregisterMutatorThread =>
    exact h.goto (h.counted.unregister (isMutatorThread_mem ha).1)
      (Frame.unregister h.counted.nodup t) h.flag
  | enterWaitRegion =>
    obtain ⟨hmem,hl⟩ := isMutatorThread_mem ha
    exact h.goto (h.counted.beginWait hmem hl) (Frame.record _ t _ _ _)
      (by simpa [MutatorTable.beginWaitRegion] using h.flag)
  | leaveWaitRegion =>
    exact h.goto (h.counted.endWait ha.1 (by rw [ha.2]; exact Nat.one_pos))
      (Frame.record _ t _ _ _) (by simpa [MutatorTable.endWaitRegion] using h.flag)
  | enterNoCollectRegion =>
    exact h.goto (h.counted.beginNoCollect (isMutatorThread_mem ha.1).1 ha.2)
      (Frame.record _ t _ _ _) (by simpa [MutatorTable.beginNoCollectRegion] using h.flag)
  | leaveNoCollectRegion canCollectNow =>
    have hcount := h.counted.endNoCollect (isMutatorThread_mem ha.1).1
      (by rw [ha.2]; exact Nat.one_pos)
    have hf : Frame s.mutators (s.mutators.endNoCollectRegion t) t := Frame.record _ t _ _ _
    have hflag : ((s.mutators.endNoCollectRegion t).thread t).isSafePoint = false := by
      simpa [MutatorTable.endNoCollectRegion] using h.flag
    simp only [Heap.locked]
    split
    · have hready : Ready { s with mutators := s.mutators.endNoCollectRegion t } t :=
        ⟨⟨h.quiet.state,h.quiet.plain,h.quiet.handshakeCount,h.quiet.handshakeEvent⟩,hcount,
          fun u hu => (h.others u hu).congr (hf.mem u hu) (hf.thread u hu),hflag⟩
      refine stopTheWorld_l_invariant hready (hm.trans ?_) _ trivial
      have hwait : ((s.mutators.endNoCollectRegion t).thread t).isWaiting =
          (s.mutators.thread t).isWaiting := by
        simp [MutatorTable.endNoCollectRegion,GcMutatorThread.isWaiting]
      exact congrArg (decide (t ∈ s.mutators.mutatorThreadList) && !·) hwait.symm
    · exact h.goto hcount hf hflag
  | allocate =>
    simp only [Heap.locked]
    split
    · exact stopTheWorld_l_invariant h hm _ trivial
    · exact hrun
  | collect =>
    simp only [Heap.locked]
    split
    · exact stopTheWorld_l_invariant h hm _ trivial
    · exact hrun
  | abort => exact stopTheWorld_l_invariant h hm _ trivial
  | other => exact hrun

end SafePoint
end Jancy.Rt
