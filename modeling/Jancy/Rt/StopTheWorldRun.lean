import Jancy.Rt.StopTheWorldHandshake

/-! Every step of every thread keeps the handshake invariant; what follows for whole runs. -/
namespace Jancy.Rt
namespace SafePoint

variable {t : ThreadId}

theorem Active.advance {s s' : Heap} {c c' : Collection} (h : Invariant s) (ha : Active s t c)
    (hm : s'.mutators = s.mutators) (hpc : s'.pc = Function.update s.pc t (.collecting c'))
    (hcounted : c'.counted = c.counted) (hcount : c'.handshakeCount = c.handshakeCount)
    (hnext : c'.next = c.next) (hp : PhaseOk s' t c') : Invariant s' := by
  have hself : s'.pc t = .collecting c' := by simp [hpc]
  have hother : ∀ u, u ≠ t → s'.pc u = s.pc u := fun u hu => by simp [hpc,hu]
  have hok : ThreadOk s.mutators t (.collecting c) := ha.pc ▸ h.threads t
  refine h.update (hm ▸ h.counted) (hm ▸ Frame.refl _ t) hother ?_ (.inr ⟨t,c',hself,?_,?_,?_,hp⟩)
  · rw [hm,hself]
    exact ⟨hok.flag,by simpa only [LocalOk,hnext] using hok.localOk⟩
  · intro u hu
    rw [hother u hu]
    exact ha.unique u hu
  · rw [hcounted]
    exact ha.nodup
  · rw [hcounted,hcount]
    exact ha.count

theorem Active.moves {s s' : Heap} {c c' : Collection} (ha : Active s t c)
    (hpc : s'.pc = Function.update s.pc t (.collecting c')) : Moves s s' t :=
  ⟨fun u hu => by simp [hpc,hu],by simp [ha.pc,Pc.isPark],by simp [hpc,Pc.isPark]⟩

variable {s : Heap} {c : Collection}

theorem Active.next (h : Invariant s) (ha : Active s t c) (hs : Stopped s t c) (state : GcState)
    (phase : Phase) (hp : ∀ s', s'.state = state → Stopped s' t { c with phase } →
      PhaseOk s' t { c with phase }) :
    Invariant ({ s with state }.goto t (.collecting { c with phase })) := by
  let s' := { s with state }.goto t (.collecting { c with phase })
  have halike : Alike s s' t := ⟨ha.moves rfl,rfl,rfl,rfl⟩
  have hst : Stopped s' t { c with phase } :=
    Alike.stopped (c := c) halike (SameRegions.of_eq rfl) rfl hs
  exact ha.advance h rfl rfl rfl rfl rfl (hp s' rfl hst)

theorem stopped_invariant (h : Invariant s) (ha : Active s t c) (hc : c.phase = .stopping)
    (he : s.handshakeEvent = true) :
    Invariant ({ s with handshakeEvent := false }.goto t
      (.collecting { c with phase := .stopped })) := by
  have hphase := ha.phase
  simp only [PhaseOk,hc] at hphase
  obtain ⟨hs,hst⟩ := hphase
  have hzero : s.handshakeCount = 0 := of_decide_eq_true (hst.event.symm.trans he)
  have hparked : ∀ u ∈ c.counted, (s.pc u).isParked = true := by
    have hnone := hst.count.symm.trans hzero
    intro u hu
    have := List.countP_eq_zero.mp (Int.natCast_eq_zero.mp hnone) u hu
    simpa using this
  have hmoves : Moves s ({ s with handshakeEvent := false }.goto t
      (.collecting { c with phase := .stopped })) t := ha.moves rfl
  refine ha.advance h rfl rfl rfl rfl rfl ⟨hs,fun u => hst.held u,fun u hu => ?_,fun u hu => ?_,
    hzero,rfl,fun _ => hst.resume⟩
  · exact (hst.parks u ((hmoves.isPark u).symm.trans hu)).1
  · exact (hmoves.isParked u).trans (hparked u hu)

theorem isPark_of_isParked {p : Pc} (h : p.isParked = true) : p.isPark = true := by
  cases p <;> simp_all [Pc.isPark,Pc.isParked]

theorem isParking_of_isParked {p : Pc} (h : p.isParked = true) : p.isParking = false := by
  cases p <;> simp_all [Pc.isParking,Pc.isParked]

theorem resumeTheWorld_invariant (h : Invariant s) (ha : Active s t c) (hs : Stopped s t c)
    (hstate : s.state = .stopTheWorld ∨ s.state = .sweep) (b : Bool) :
    Invariant ({ s with isAborted := b }.resumeTheWorld t c) := by
  have hcount := ha.count
  unfold Heap.resumeTheWorld
  split
  case isTrue hz =>
    have hnil : c.counted = [] := List.eq_nil_of_length_eq_zero (by omega)
    have hmoves : Moves s ({ s with isAborted := b }.goto t
        (.collecting { c with phase := .finishing })) t := ha.moves rfl
    refine ha.advance h rfl rfl rfl rfl rfl ⟨fun u => ?_,hs.count,hs.event,
      .inr ⟨hstate,fun u => hs.held u,hnil⟩⟩
    rw [hmoves.isPark u]
    by_contra hu
    have := hs.parks u (by simpa using hu)
    simp [hnil] at this
  case isFalse hz =>
    let s' := { s with
      isAborted := b
      handshakeCount := c.handshakeCount
      state := .resumeTheWorld
      resumeEvent := true }.goto t (.collecting { c with phase := .resuming })
    have hmoves : Moves s s' t := ha.moves rfl
    refine ha.advance h rfl rfl rfl rfl rfl ⟨rfl,fun u hu => ?_,?_,?_⟩
    · have hmem := hs.parks u ((hmoves.isPark u).symm.trans hu)
      have hu' : s'.pc u = s.pc u := hmoves.eq_of_park hu
      exact ⟨hmem,(congrArg Pc.isParking hu').trans (isParking_of_isParked (hs.parked u hmem))⟩
    · refine hcount.trans (congrArg Nat.cast (List.countP_eq_length.mpr fun u hu => ?_).symm)
      exact (hmoves.isPark u).trans (isPark_of_isParked (hs.parked u hu))
    · exact hs.event.trans (decide_eq_false hz).symm

theorem resumed_invariant (h : Invariant s) (ha : Active s t c) (hc : c.phase = .resuming)
    (he : s.handshakeEvent = true) :
    Invariant ({ s with handshakeEvent := false }.goto t
      (.collecting { c with phase := .finishing })) := by
  have hphase := ha.phase
  simp only [PhaseOk,hc] at hphase
  obtain ⟨hs,hr⟩ := hphase
  have hzero : s.handshakeCount = 0 := of_decide_eq_true (hr.event.symm.trans he)
  have hnone := hr.count.symm.trans hzero
  have hmoves : Moves s ({ s with handshakeEvent := false }.goto t
      (.collecting { c with phase := .finishing })) t := ha.moves rfl
  refine ha.advance h rfl rfl rfl rfl rfl ⟨fun u => ?_,hzero,rfl,.inl hs⟩
  rw [hmoves.isPark u]
  by_contra hu
  have hu' : (s.pc u).isPark = true := by simpa using hu
  exact List.countP_eq_zero.mp (Int.natCast_eq_zero.mp hnone) u (hr.parks u hu').1 hu'

theorem finish_invariant (h : Invariant s) (ha : Active s t c) (hc : c.phase = .finishing) :
    Invariant ({ s with state := .idle, idleEvent := true }.goto t
      (s.afterCollection t c.next)) := by
  have hf : Finishing s t c := by simpa only [PhaseOk,hc] using ha.phase
  have hok : ThreadOk s.mutators t (.collecting c) := ha.pc ▸ h.threads t
  have hafter : (s.afterCollection t c.next).isPlain = true := by
    cases c.next <;> simp [Heap.afterCollection,Pc.isPlain,Pc.isPark,Pc.isCollecting]
  refine h.update h.counted (Frame.refl _ t) (fun u hu => goto_ne _ _ hu) ?_
    (.inl ⟨rfl,fun u => ?_,hf.count,hf.event⟩)
  · rw [goto_self,goto_mutators]
    have hnext : AllowedNext s.mutators t c.next := hok.localOk
    cases hn : c.next with
    | none => exact ⟨hok.flag,trivial⟩
    | some op =>
      rw [hn] at hnext
      exact ⟨hok.flag,rfl,hnext⟩
  · by_cases he : u = t
    · subst he
      rw [goto_self]
      exact hafter
    · rw [goto_ne _ _ he]
      simp [Pc.isPlain,hf.parks u,ha.unique u he]

theorem advanceCollection_invariant {s s' : Heap} (h : Invariant s) (hp : s.pc t = .collecting c)
    {answer : Bool} (hs : s.advanceCollection t answer c = some s') : Invariant s' := by
  have ha := h.world.active_of_collecting hp
  have hphase := ha.phase
  unfold Heap.advanceCollection at hs
  split at hs
  case h_1 hc =>
    obtain ⟨he,⟨⟩⟩ := Option.ite_none_right_eq_some.mp hs
    exact stopped_invariant h ha hc he
  case h_2 hc =>
    simp only [PhaseOk,hc] at hphase
    split at hs
    · cases hs
      exact resumeTheWorld_invariant h ha hphase.2 (.inl hphase.1) true
    · cases hs
      exact ha.next h hphase.2 .mark .marking fun _ hs' hst => ⟨hs',hst⟩
  case h_3 hc =>
    simp only [PhaseOk,hc] at hphase
    split at hs
    · cases hs
      exact ha.next h hphase.2 .buildDestructGraph .building fun _ hs' hst => ⟨hs',hst⟩
    · cases hs
      exact ha.next h hphase.2 .sweep .sweeping fun _ hs' hst => ⟨hs',hst⟩
  case h_4 hc =>
    simp only [PhaseOk,hc] at hphase
    cases hs
    exact ha.next h hphase.2 .sweep .sweeping fun _ hs' hst => ⟨hs',hst⟩
  case h_5 hc =>
    simp only [PhaseOk,hc] at hphase
    cases hs
    exact resumeTheWorld_invariant h ha hphase.2 (.inr hphase.1) s.isAborted
  case h_6 hc =>
    obtain ⟨he,⟨⟩⟩ := Option.ite_none_right_eq_some.mp hs
    exact resumed_invariant h ha hc he
  case h_7 hc =>
    cases hs
    exact finish_invariant h ha hc

theorem Invariant.ready (h : Invariant s) (hs : s.state = .idle)
    (hp : (s.pc t).hasSafePointFlag = false) : Ready s t :=
  ⟨h.world.quiet_of_idle hs,h.counted,fun u _ => h.threads u,(h.threads t).flag.trans hp⟩

theorem lockFirst_invariant {op : Op} {isMutator : Bool} (h : Invariant s)
    (hp : s.pc t = .locking op isMutator) (answer : Bool) :
    Invariant (s.lockFirst t isMutator answer op) := by
  have hown : LocalOk s.mutators t (.locking op isMutator) := hp ▸ (h.threads t).localOk
  have hflag : (s.mutators.thread t).isSafePoint = false := by
    rw [(h.threads t).flag,hp]
    rfl
  have hplain : (s.pc t).isPlain = true := by simp [hp,Pc.isPlain,Pc.isPark,Pc.isCollecting]
  unfold Heap.lockFirst
  split
  case isTrue hidle =>
    exact locked_invariant (h.ready hidle (by simp [hp,Pc.hasSafePointFlag])) hown.1 answer hown.2
  case isFalse hidle =>
    split
    case isTrue hm =>
      subst hm
      split
      case isTrue hstop =>
        exact h.goto_plain hplain rfl ⟨hflag,hown.1.symm,hown.2⟩
      case isFalse hstop => exact implicitWait_invariant h hp hidle hstop
    case isFalse hm =>
      have hm' : isMutator = false := by simpa using hm
      subst hm'
      exact h.goto_plain hplain rfl ⟨hflag,hown.1.symm,hown.2⟩

theorem lockAgain_invariant {op : Op} {isMutator : Bool} (h : Invariant s)
    (hp : s.pc t = .relocking op isMutator) (answer : Bool) :
    Invariant (s.lockAgain t isMutator answer op) := by
  have hown : LocalOk s.mutators t (.relocking op isMutator) := hp ▸ (h.threads t).localOk
  have hflag : (s.mutators.thread t).isSafePoint = false := by
    rw [(h.threads t).flag,hp]
    rfl
  have hplain : (s.pc t).isPlain = true := by simp [hp,Pc.isPlain,Pc.isPark,Pc.isCollecting]
  unfold Heap.lockAgain
  split
  case isTrue hidle =>
    have hready := h.ready hidle (t := t) (by simp [hp,Pc.hasSafePointFlag])
    cases isMutator with
    | true =>
      obtain ⟨hmem,hlevel,hallowed⟩ := hown
      have hframe : Frame s.mutators (s.mutators.endWaitRegion t) t := Frame.record _ t _ _ _
      refine locked_invariant (s := { s with mutators := s.mutators.endWaitRegion t })
        ⟨⟨hready.quiet.state,hready.quiet.plain,hready.quiet.handshakeCount,
          hready.quiet.handshakeEvent⟩,?_,fun u hu => ?_,?_⟩ ?_ answer hallowed
      · exact h.counted.endWait hmem (by omega)
      · exact (hready.others u hu).congr (hframe.mem u hu) (hframe.thread u hu)
      · simpa [MutatorTable.endWaitRegion] using hflag
      · simp [MutatorTable.isMutatorThread,MutatorTable.endWaitRegion,
          GcMutatorThread.isWaiting,hmem]
    | false => exact locked_invariant hready hown.1.symm answer hown.2
  case isFalse hidle =>
    refine h.goto_plain hplain rfl ⟨hflag,?_⟩
    cases isMutator <;> exact hown

theorem advance_invariant {s s' : Heap} {answer : Bool} (h : Invariant s)
    (hs : s.advance t answer = some s') : Invariant s' := by
  have hown := (h.threads t).localOk
  have hflag := (h.threads t).flag
  unfold Heap.advance at hs
  split at hs
  case h_1 => cases hs
  case h_2 op isMutator hp =>
    cases hs
    exact lockFirst_invariant h hp answer
  case h_3 op isMutator hp =>
    obtain ⟨-,⟨⟩⟩ := Option.ite_none_right_eq_some.mp hs
    rw [hp] at hown hflag
    refine h.goto_plain (by simp [hp,Pc.isPlain,Pc.isPark,Pc.isCollecting]) rfl ⟨hflag,?_⟩
    cases isMutator <;> exact hown
  case h_4 op isMutator hp =>
    cases hs
    exact lockAgain_invariant h hp answer
  case h_5 next hp =>
    rw [hp] at hown hflag
    split at hs
    case isTrue hstop =>
      cases hs
      exact announce_invariant h hp hstop
    case isFalse hstop =>
      cases hs
      refine h.goto_plain (by simp [hp,Pc.isPlain,Pc.isPark,Pc.isCollecting]) ?_ ?_
      · cases next <;> rfl
      · cases next with
        | none => exact ⟨hflag,trivial⟩
        | some op => exact ⟨hflag,hown.1.symm,hown.2⟩
  case h_6 next hp =>
    cases hs
    exact park_invariant h hp
  case h_7 next hp =>
    obtain ⟨he,⟨⟩⟩ := Option.ite_none_right_eq_some.mp hs
    exact wake_invariant h hp he
  case h_8 next hp =>
    rw [hp] at hown hflag
    split at hs
    · cases hs
      exact leave_invariant h hp rfl ⟨hflag,trivial⟩
    · cases hs
      refine leave_invariant h hp ?_ ?_
      · cases next <;> rfl
      · cases next with
        | none => exact ⟨hflag,trivial⟩
        | some op => exact ⟨hflag,hown.1.symm,hown.2⟩
  case h_9 c hp => exact advanceCollection_invariant h hp hs

theorem step_invariant (s : Heap) (a : Action) (s' : Heap) (h : Invariant s)
    (hs : s.step a = some s') : Invariant s' := by
  cases a with
  | call t op =>
    obtain ⟨⟨hp,ha⟩,⟨⟩⟩ := Option.ite_none_right_eq_some.mp hs
    have hflag := (h.threads t).flag
    rw [hp] at hflag
    exact h.goto_plain (by simp [hp,Pc.isPlain,Pc.isPark,Pc.isCollecting]) rfl ⟨hflag,rfl,ha⟩
  | callSafePoint t =>
    obtain ⟨⟨hp,hm⟩,⟨⟩⟩ := Option.ite_none_right_eq_some.mp hs
    have hflag := (h.threads t).flag
    rw [hp] at hflag
    exact h.goto_plain (by simp [hp,Pc.isPlain,Pc.isPark,Pc.isCollecting]) rfl
      ⟨hflag,hm,trivial⟩
  | nestWaitRegion t =>
    obtain ⟨⟨hp,hmem,hl⟩,⟨⟩⟩ := Option.ite_none_right_eq_some.mp hs
    refine h.nest hp (h.counted.nestWait hmem hl) (Frame.record _ t _ _ _) rfl
      (by simp [MutatorTable.nestWaitRegion]) ?_
    simp [MutatorTable.nestWaitRegion,GcMutatorThread.isWaiting]
    omega
  | unnestWaitRegion t =>
    obtain ⟨⟨hp,hmem,hl⟩,⟨⟩⟩ := Option.ite_none_right_eq_some.mp hs
    refine h.nest hp (h.counted.unnestWait hmem hl) (Frame.record _ t _ _ _) rfl
      (by simp [MutatorTable.unnestWaitRegion]) ?_
    simp [MutatorTable.unnestWaitRegion,GcMutatorThread.isWaiting]
    omega
  | nestNoCollectRegion t =>
    obtain ⟨⟨hp,hmem,hl⟩,⟨⟩⟩ := Option.ite_none_right_eq_some.mp hs
    exact h.nest hp (h.counted.nestNoCollect hmem hl) (Frame.record _ t _ _ _) rfl
      (by simp [MutatorTable.nestNoCollectRegion])
      (by simp [MutatorTable.nestNoCollectRegion,GcMutatorThread.isWaiting])
  | unnestNoCollectRegion t =>
    obtain ⟨⟨hp,hmem,hl⟩,⟨⟩⟩ := Option.ite_none_right_eq_some.mp hs
    exact h.nest hp (h.counted.unnestNoCollect hmem hl) (Frame.record _ t _ _ _) rfl
      (by simp [MutatorTable.unnestNoCollectRegion])
      (by simp [MutatorTable.unnestNoCollectRegion,GcMutatorThread.isWaiting])
  | advance t answer => exact advance_invariant h hs

/-- Thread `u` stands at its safe point until the resume event, or in a wait region. -/
def AtRest (s : Heap) (u : ThreadId) : Prop :=
  ((s.pc u).isParked = true ∧ (s.mutators.thread u).isSafePoint = true) ∨
    (s.mutators.thread u).isWaiting = true

def WorldStopped (s : Heap) : Prop :=
  s.state = .mark ∨ s.state = .buildDestructGraph ∨ s.state = .sweep →
    ∃ t, (∀ u, (s.pc u).isCollecting = true ↔ u = t) ∧
      ∀ u ∈ s.mutators.mutatorThreadList, u ≠ t → AtRest s u

/-- The counter stays in range, and the initiator gets past a handshake exactly when the last of
the threads it counted has done its part. -/
structure HandshakeExact (s : Heap) : Prop where
  noUnderflow : 0 ≤ s.handshakeCount
  counts : ∀ t c, s.pc t = .collecting c → c.counted.Nodup ∧ c.handshakeCount = c.counted.length
  counted : ∀ t c, s.pc t = .collecting c → c.phase = .stopping → ∀ u,
    u ∈ c.counted ↔ u ∈ s.mutators.mutatorThreadList ∧ u ≠ t ∧
      (s.mutators.thread u).isWaiting = false
  stop : ∀ t c, s.pc t = .collecting c → c.phase = .stopping → ∀ answer,
    ((s.advance t answer).isSome ↔ ∀ u ∈ c.counted, (s.pc u).isParked = true)
  resume : ∀ t c, s.pc t = .collecting c → c.phase = .resuming → ∀ answer,
    ((s.advance t answer).isSome ↔ ∀ u ∈ c.counted, (s.pc u).isPark = false)

/-- The wait region that `waitIdleAndLock` takes for its own caller. -/
def EntersToWaitIdle (s s' : Heap) : Prop :=
  s.state = .resumeTheWorld ∧ ∃ t op, s.pc t = .locking op true ∧
    s' = { s with mutators := s.mutators.beginWaitRegion t }.goto t (.idleWaiting op true)

/-- While a collection is on, no step registers or unregisters a thread, and none crosses the
boundary of a wait region but into the one of `waitIdleAndLock`. -/
def RegionsFixed (s : Heap) : Prop :=
  s.state ≠ .idle → ∀ a s', s.step a = some s' → SameRegions s s' ∨ EntersToWaitIdle s s'

theorem Invariant.worldStopped (h : Invariant s) : WorldStopped s := by
  intro hs
  obtain ⟨t,c,ha⟩ := h.world.active_of_not_idle (by rcases hs with hs | hs | hs <;> simp [hs])
  have hphase := ha.phase
  have hheld : Held s t c ∧ ∀ u ∈ c.counted, (s.pc u).isParked = true := by
    unfold PhaseOk at hphase
    split at hphase
    case h_1 => simp [hphase.1] at hs
    case h_6 => simp [hphase.1] at hs
    case h_7 =>
      rcases hphase.state with hr | ⟨-,hheld,hnil⟩
      · simp [hr] at hs
      · exact ⟨hheld,by simp [hnil]⟩
    all_goals exact ⟨hphase.2.held,hphase.2.parked⟩
  refine ⟨t,fun u => ⟨fun hu => ?_,?_⟩,fun u hmem hne => ?_⟩
  · by_contra hne
    simp [ha.unique u hne] at hu
  · rintro rfl
    simp [ha.pc,Pc.isCollecting]
  · cases hw : (s.mutators.thread u).isWaiting with
    | true => exact .inr hw
    | false =>
      have hparked := hheld.2 u ((hheld.1 u).mpr ⟨hmem,hne,hw⟩)
      refine .inl ⟨hparked,(h.threads u).flag.trans ?_⟩
      cases hp : s.pc u <;> simp_all [Pc.isParked,Pc.hasSafePointFlag]

theorem Active.handshakeCount_nonneg (h : Active s t c) : 0 ≤ s.handshakeCount := by
  have hphase := h.phase
  unfold PhaseOk at hphase
  split at hphase
  case h_1 => exact hphase.2.count ▸ Int.natCast_nonneg _
  case h_6 => exact hphase.2.count ▸ Int.natCast_nonneg _
  case h_7 => exact Int.le_of_eq hphase.count.symm
  all_goals exact Int.le_of_eq hphase.2.count.symm

theorem Invariant.handshakeExact (h : Invariant s) : HandshakeExact s where
  noUnderflow := by
    rcases h.world with hq | ⟨t,c,ha⟩
    · exact Int.le_of_eq hq.handshakeCount.symm
    · exact ha.handshakeCount_nonneg
  counts t c hp := by
    have ha := h.world.active_of_collecting hp
    exact ⟨ha.nodup,ha.count⟩
  counted t c hp hc := by
    have hphase := (h.world.active_of_collecting hp).phase
    simp only [PhaseOk,hc] at hphase
    exact hphase.2.held
  stop t c hp hc answer := by
    have hphase := (h.world.active_of_collecting hp).phase
    simp only [PhaseOk,hc] at hphase
    have hst := hphase.2
    have hall : s.handshakeEvent = true ↔ ∀ u ∈ c.counted, (s.pc u).isParked = true := by
      rw [hst.event,decide_eq_true_eq,hst.count,Int.natCast_eq_zero,List.countP_eq_zero]
      simp
    simp only [Heap.advance,hp,Heap.advanceCollection,hc,← hall]
    cases s.handshakeEvent <;> simp
  resume t c hp hc answer := by
    have hphase := (h.world.active_of_collecting hp).phase
    simp only [PhaseOk,hc] at hphase
    have hr := hphase.2
    have hall : s.handshakeEvent = true ↔ ∀ u ∈ c.counted, (s.pc u).isPark = false := by
      rw [hr.event,decide_eq_true_eq,hr.count,Int.natCast_eq_zero,List.countP_eq_zero]
      simp
    simp only [Heap.advance,hp,Heap.advanceCollection,hc,← hall]
    cases s.handshakeEvent <;> simp

theorem resumeTheWorld_mutators (s : Heap) (t : ThreadId) (c : Collection) :
    (s.resumeTheWorld t c).mutators = s.mutators := by
  unfold Heap.resumeTheWorld
  split <;> rfl

theorem advanceCollection_mutators {s s' : Heap} {answer : Bool}
    (hs : s.advanceCollection t answer c = some s') : s'.mutators = s.mutators := by
  unfold Heap.advanceCollection at hs
  split at hs
  case h_1 =>
    obtain ⟨-,⟨⟩⟩ := Option.ite_none_right_eq_some.mp hs
    rfl
  case h_2 =>
    split at hs <;> cases hs
    · exact resumeTheWorld_mutators _ t c
    · rfl
  case h_3 => split at hs <;> cases hs <;> rfl
  case h_4 => cases hs; rfl
  case h_5 => cases hs; exact resumeTheWorld_mutators s t c
  case h_6 =>
    obtain ⟨-,⟨⟩⟩ := Option.ite_none_right_eq_some.mp hs
    rfl
  case h_7 => cases hs; rfl

theorem lockFirst_regions {op : Op} {isMutator : Bool} (h : Invariant s)
    (hp : s.pc t = .locking op isMutator) (hidle : s.state ≠ .idle) (answer : Bool) :
    SameRegions s (s.lockFirst t isMutator answer op) ∨
      EntersToWaitIdle s (s.lockFirst t isMutator answer op) := by
  have hown : LocalOk s.mutators t (.locking op isMutator) := hp ▸ (h.threads t).localOk
  have hplain : (s.pc t).isPlain = true := by simp [hp,Pc.isPlain,Pc.isPark,Pc.isCollecting]
  unfold Heap.lockFirst
  rw [if_neg hidle]
  split
  case isTrue hm =>
    subst hm
    split
    case isTrue hstop => exact .inl (SameRegions.of_eq rfl)
    case isFalse hstop =>
      obtain ⟨t₀,c,ha⟩ := h.world.active_of_not_idle hidle
      have hne := ha.ne_of_not_collecting (isCollecting_of_plain hplain)
      have hphase := (ha.phase_of_plain hne hown.1.symm (isPark_of_plain hplain)).resolve_left
        fun hs => hstop hs.1
      exact .inr ⟨hphase.1,t,op,hp,rfl⟩
  case isFalse hm => exact .inl (SameRegions.of_eq rfl)

theorem SameRegions.of_record {s s' : Heap}
    (hl : s'.mutators.mutatorThreadList = s.mutators.mutatorThreadList)
    (hf : Frame s.mutators s'.mutators t)
    (hw : (s'.mutators.thread t).isWaiting = (s.mutators.thread t).isWaiting) :
    SameRegions s s' := by
  refine ⟨fun u => by rw [hl],fun u => ?_⟩
  by_cases he : u = t
  · subst he
    exact hw
  · rw [hf.thread u he]

theorem Invariant.regionsFixed (h : Invariant s) : RegionsFixed s := by
  intro hidle a s' hs
  cases a with
  | call t op =>
    obtain ⟨-,⟨⟩⟩ := Option.ite_none_right_eq_some.mp hs
    exact .inl (SameRegions.of_eq rfl)
  | callSafePoint t =>
    obtain ⟨-,⟨⟩⟩ := Option.ite_none_right_eq_some.mp hs
    exact .inl (SameRegions.of_eq rfl)
  | nestWaitRegion t =>
    obtain ⟨⟨-,-,hl⟩,⟨⟩⟩ := Option.ite_none_right_eq_some.mp hs
    refine .inl (SameRegions.of_record rfl (Frame.record _ t _ _ _) ?_)
    simp [MutatorTable.nestWaitRegion,GcMutatorThread.isWaiting]
    omega
  | unnestWaitRegion t =>
    obtain ⟨⟨-,-,hl⟩,⟨⟩⟩ := Option.ite_none_right_eq_some.mp hs
    refine .inl (SameRegions.of_record rfl (Frame.record _ t _ _ _) ?_)
    simp [MutatorTable.unnestWaitRegion,GcMutatorThread.isWaiting]
    omega
  | nestNoCollectRegion t =>
    obtain ⟨-,⟨⟩⟩ := Option.ite_none_right_eq_some.mp hs
    refine .inl (SameRegions.of_record rfl (Frame.record _ t _ _ _) ?_)
    simp [MutatorTable.nestNoCollectRegion,GcMutatorThread.isWaiting]
  | unnestNoCollectRegion t =>
    obtain ⟨-,⟨⟩⟩ := Option.ite_none_right_eq_some.mp hs
    refine .inl (SameRegions.of_record rfl (Frame.record _ t _ _ _) ?_)
    simp [MutatorTable.unnestNoCollectRegion,GcMutatorThread.isWaiting]
  | advance t answer =>
    change s.advance t answer = some s' at hs
    unfold Heap.advance at hs
    split at hs
    case h_1 => cases hs
    case h_2 op isMutator hp =>
      cases hs
      exact lockFirst_regions h hp hidle answer
    case h_3 =>
      obtain ⟨-,⟨⟩⟩ := Option.ite_none_right_eq_some.mp hs
      exact .inl (SameRegions.of_eq rfl)
    case h_4 =>
      cases hs
      simp only [Heap.lockAgain,if_neg hidle]
      exact .inl (SameRegions.of_eq rfl)
    case h_5 =>
      split at hs <;> cases hs
      · exact .inl (setSafePoint_sameRegions s t true _)
      · exact .inl (SameRegions.of_eq rfl)
    case h_6 =>
      cases hs
      exact .inl (SameRegions.of_eq rfl)
    case h_7 =>
      obtain ⟨-,⟨⟩⟩ := Option.ite_none_right_eq_some.mp hs
      exact .inl (setSafePoint_sameRegions s t false _)
    case h_8 => split at hs <;> cases hs <;> exact .inl (SameRegions.of_eq rfl)
    case h_9 => exact .inl (SameRegions.of_eq (advanceCollection_mutators hs))

/-- In every state of every run the world is stopped while the heap is touched, both handshakes
are exact, and threads and wait regions stay put outside `Idle`, but for the wait region that
`waitIdleAndLock` takes while the world resumes. -/
theorem stopTheWorld_safe (as : List Action) :
    Run.Always Heap.step (fun s => WorldStopped s ∧ HandshakeExact s ∧ RegionsFixed s)
      Heap.initial as :=
  Run.always_of_invariant (fun _ h => ⟨h.worldStopped,h.handshakeExact,h.regionsFixed⟩)
    step_invariant initial_invariant as

/-- No step registers, unregisters or crosses the boundary of a wait region outside `Idle`. -/
def CrossesOnlyIdle (s : Heap) : Prop :=
  s.state ≠ .idle → ∀ a s', s.step a = some s' → SameRegions s s'

/-- Thread 1 collects; thread 0, on its way into a no-collect region, parks, is resumed and asks
for the lock again. -/
def resumeRun : List Action :=
  [.call 0 .registerMutatorThread,.advance 0 false,.call 0 .enterNoCollectRegion,
    .call 1 .collect,.advance 1 false,.advance 0 false,.advance 0 false,.advance 0 false,
    .advance 1 false,.advance 1 false,.advance 1 false,.advance 1 false,.advance 0 false,
    .advance 0 false]

/-- It enters a wait region while the heap is in `ResumeTheWorld`. -/
theorem resumeRun_crosses : ¬ Run.Always Heap.step CrossesOnlyIdle Heap.initial resumeRun := by
  intro h
  have hstate : (Run.exec Heap.step Heap.initial resumeRun).map (fun s => (s.state,
      (s.mutators.thread 0).isWaiting)) = some (.resumeTheWorld,false) := by decide
  have hnext : ((Run.exec Heap.step Heap.initial resumeRun).bind fun s =>
      s.step (.advance 0 false)).map (fun s => (s.mutators.thread 0).isWaiting) =
        some true := by decide
  cases he : Run.exec Heap.step Heap.initial resumeRun with
  | none => simp [he] at hstate
  | some s =>
    simp only [he,Option.map_some,Option.some.injEq,Prod.mk.injEq] at hstate
    simp only [he,Option.bind_some] at hnext
    obtain ⟨s',hs',hw⟩ := Option.map_eq_some_iff.mp hnext
    have hsame := h.last he (by simp [hstate.1]) _ s' hs'
    have := hsame.waiting 0
    simp [hstate.2,hw] at this

end SafePoint
end Jancy.Rt
