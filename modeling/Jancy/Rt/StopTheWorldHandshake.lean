import Jancy.Rt.StopTheWorldLocked

/-! The steps of a thread that waits, parks, wakes and leaves keep the handshake invariant. -/
namespace Jancy.Rt
namespace SafePoint

variable {t : ThreadId} {s : Heap} {c : Collection}

theorem World.active_of_collecting (h : World s) (hp : s.pc t = .collecting c) : Active s t c := by
  rcases h with hq | ⟨t₀,c₀,ha⟩
  · have := hq.plain t
    simp [hp,Pc.isPlain,Pc.isCollecting] at this
  · by_cases he : t = t₀
    · subst he
      have hc : c = c₀ := by simpa [hp] using ha.pc
      exact hc ▸ ha
    · have := ha.unique t he
      simp [hp,Pc.isCollecting] at this

theorem World.active_of_park (h : World s) (hp : (s.pc t).isPark = true) :
    ∃ t₀ c, t₀ ≠ t ∧ Active s t₀ c := by
  rcases h with hq | ⟨t₀,c,ha⟩
  · simp [isPark_of_plain (hq.plain t)] at hp
  · refine ⟨t₀,c,?_,ha⟩
    rintro rfl
    simp [ha.pc,Pc.isPark] at hp

theorem Held.mem {t₀ t : ThreadId} (h : Held s t₀ c) (hne : t₀ ≠ t)
    (hm : s.mutators.isMutatorThread t = true) : t ∈ c.counted := by
  simp only [MutatorTable.isMutatorThread,Bool.and_eq_true,decide_eq_true_eq,
    Bool.not_eq_true'] at hm
  exact (h t).mpr ⟨hm.1,hne.symm,hm.2⟩

theorem Stopped.not_plain {t₀ t : ThreadId} (h : Stopped s t₀ c) (hne : t₀ ≠ t)
    (hm : s.mutators.isMutatorThread t = true) : (s.pc t).isParked = true :=
  h.parked t (h.held.mem hne hm)

/-- A mutator thread that is on its own is left alone by a running world and sees a stopping
one. -/
theorem Active.phase_of_plain {t₀ t : ThreadId} (h : Active s t₀ c) (hne : t₀ ≠ t)
    (hm : s.mutators.isMutatorThread t = true) (hp : (s.pc t).isPark = false) :
    (s.state = .stopTheWorld ∧ c.phase = .stopping ∧ Stopping s t₀ c) ∨
      (s.state = .resumeTheWorld ∧ PhaseOk s t₀ c ∧ (c.phase = .resuming ∨ c.phase = .finishing)) := by
  have hphase := h.phase
  have hnot : ¬ Stopped s t₀ c := fun hs => by
    have := hs.not_plain hne hm
    rw [isParked_of_not_isPark hp] at this
    exact Bool.false_ne_true this
  cases hc : c.phase with
  | stopping =>
    simp only [PhaseOk,hc] at hphase
    exact .inl ⟨hphase.1,rfl,hphase.2⟩
  | resuming => exact .inr ⟨by simp only [PhaseOk,hc] at hphase; exact hphase.1,hphase,.inl rfl⟩
  | finishing =>
    have hf : Finishing s t₀ c := by simpa only [PhaseOk,hc] using hphase
    rcases hf.state with hs | ⟨-,hheld,hnil⟩
    · exact .inr ⟨hs,hphase,.inr rfl⟩
    · have := hheld.mem hne hm
      simp [hnil] at this
  | stopped => simp only [PhaseOk,hc] at hphase; exact absurd hphase.2 hnot
  | marking => simp only [PhaseOk,hc] at hphase; exact absurd hphase.2 hnot
  | building => simp only [PhaseOk,hc] at hphase; exact absurd hphase.2 hnot
  | sweeping => simp only [PhaseOk,hc] at hphase; exact absurd hphase.2 hnot

theorem Active.phase_of_park {t₀ t : ThreadId} (h : Active s t₀ c) (hp : (s.pc t).isPark = true) :
    (s.state = .stopTheWorld ∧ c.phase = .stopping ∧ Stopping s t₀ c) ∨
      (s.pc t).isParked = true ∧ s.resumeEvent = false ∨
      (s.state = .resumeTheWorld ∧ c.phase = .resuming ∧ Resuming s c) := by
  have hphase := h.phase
  have hstopped : Stopped s t₀ c → (s.pc t).isParked = true ∧ s.resumeEvent = false := fun hs =>
    have hmem := hs.parks t hp
    ⟨hs.parked t hmem,hs.resume (List.ne_nil_of_mem hmem)⟩
  cases hc : c.phase with
  | stopping =>
    simp only [PhaseOk,hc] at hphase
    exact .inl ⟨hphase.1,rfl,hphase.2⟩
  | resuming =>
    simp only [PhaseOk,hc] at hphase
    exact .inr (.inr ⟨hphase.1,rfl,hphase.2⟩)
  | finishing =>
    simp only [PhaseOk,hc] at hphase
    simp [hphase.parks t] at hp
  | stopped => simp only [PhaseOk,hc] at hphase; exact .inr (.inl (hstopped hphase.2))
  | marking => simp only [PhaseOk,hc] at hphase; exact .inr (.inl (hstopped hphase.2))
  | building => simp only [PhaseOk,hc] at hphase; exact .inr (.inl (hstopped hphase.2))
  | sweeping => simp only [PhaseOk,hc] at hphase; exact .inr (.inl (hstopped hphase.2))

theorem Active.step_other {s s' : Heap} {t₀ t : ThreadId} (h : Active s t₀ c) (hne : t₀ ≠ t)
    (hpc : ∀ u, u ≠ t → s'.pc u = s.pc u) (hcol : (s'.pc t).isCollecting = false)
    (hp : PhaseOk s' t₀ c) : Active s' t₀ c := by
  refine ⟨(hpc t₀ hne).trans h.pc,fun u hu => ?_,h.nodup,h.count,hp⟩
  by_cases he : u = t
  · subst he
    exact hcol
  · rw [hpc u he]
    exact h.unique u hu

theorem Active.ne_of_not_collecting {t₀ t : ThreadId} (h : Active s t₀ c)
    (hp : (s.pc t).isCollecting = false) : t₀ ≠ t := by
  rintro rfl
  simp [h.pc,Pc.isCollecting] at hp

/-- By then the world runs again: the thread would be at its safe point otherwise. -/
theorem implicitWait_invariant {op : Op} (h : Invariant s) (hp : s.pc t = .locking op true)
    (hidle : s.state ≠ .idle) (hstop : s.state ≠ .stopTheWorld) :
    Invariant ({ s with mutators := s.mutators.beginWaitRegion t }.goto t
      (.idleWaiting op true)) := by
  have hown : LocalOk s.mutators t (.locking op true) := hp ▸ (h.threads t).localOk
  obtain ⟨hmem,hlevel⟩ := isMutatorThread_mem hown.1.symm
  have hflag : (s.mutators.thread t).isSafePoint = false := by
    rw [(h.threads t).flag,hp]
    rfl
  have hplain : (s.pc t).isPlain = true := by simp [hp,Pc.isPlain,Pc.isPark,Pc.isCollecting]
  obtain ⟨t₀,c,ha⟩ := h.world.active_of_not_idle hidle
  have hne := ha.ne_of_not_collecting (isCollecting_of_plain hplain)
  have hphase := (ha.phase_of_plain hne hown.1.symm (isPark_of_plain hplain)).resolve_left
    fun hs => hstop hs.1
  let s' := { s with mutators := s.mutators.beginWaitRegion t }.goto t (.idleWaiting op true)
  have hpc : ∀ u, u ≠ t → s'.pc u = s.pc u := fun u hu => goto_ne _ _ hu
  have hself : s'.pc t = .idleWaiting op true := goto_self _ _ _
  have halike : Alike s s' t :=
    ⟨⟨hpc,isPark_of_plain hplain,by simp [hself,Pc.isPark]⟩,rfl,rfl,rfl⟩
  refine h.update (h.counted.beginWait hmem hlevel) (Frame.record _ t _ _ _) hpc ⟨?_,?_⟩
    (.inr ⟨t₀,c,ha.step_other hne hpc (by simp [Pc.isCollecting]) ?_⟩)
  · rw [hself]
    simpa [MutatorTable.beginWaitRegion,Pc.hasSafePointFlag,s'] using hflag
  · rw [hself]
    refine ⟨hmem,by simp [MutatorTable.beginWaitRegion],?_⟩
    have hl : t ∈ ((s.mutators.beginWaitRegion t).endWaitRegion t).mutatorThreadList ↔
        t ∈ s.mutators.mutatorThreadList := Iff.rfl
    refine (allowed_congr hl ?_ ?_ op).mpr hown.2
    · simp [MutatorTable.beginWaitRegion,MutatorTable.endWaitRegion,hlevel]
    · simp [MutatorTable.beginWaitRegion,MutatorTable.endWaitRegion]
  · obtain ⟨hstate,hok,hc | hc⟩ := hphase
    · simp only [PhaseOk,hc] at hok ⊢
      exact ⟨hok.1,halike.resuming hok.2⟩
    · simp only [PhaseOk,hc] at hok ⊢
      exact ⟨fun u => (halike.isPark u).trans (hok.parks u),hok.count,hok.event,.inl hstate⟩

variable {next : Option Op}

theorem setSafePoint_threadOk {m : MutatorTable} {b : Bool} {p p' : Pc} (h : ThreadOk m t p)
    (hp : LocalOk m t p = (m.isMutatorThread t = true ∧ AllowedNext m t next))
    (hp' : ∀ m', LocalOk m' t p' = (m'.isMutatorThread t = true ∧ AllowedNext m' t next))
    (hb : p'.hasSafePointFlag = b) :
    ThreadOk (m.setThread t { m.thread t with isSafePoint := b }) t p' := by
  obtain ⟨hm,hn⟩ := hp ▸ h.localOk
  refine ⟨by simp [hb],?_⟩
  rw [hp']
  have hl : ∀ g, t ∈ (m.setThread t g).mutatorThreadList ↔ t ∈ m.mutatorThreadList :=
    fun _ => Iff.rfl
  refine ⟨?_,hn.congr (hl _) (by simp) (by simp)⟩
  rw [isMutatorThread_congr (hl _) (by simp),hm]

theorem setSafePoint_counted {m : MutatorTable} (h : m.Counted) (hm : m.isMutatorThread t = true)
    (b : Bool) :
    (m.setThread t { m.thread t with isSafePoint := b }).Counted :=
  h.setThread (isMutatorThread_mem hm).1 rfl rfl

theorem setSafePoint_sameRegions (s : Heap) (t : ThreadId) (b : Bool) (p : Pc) :
    SameRegions s ((s.setSafePoint t b).goto t p) := by
  refine ⟨fun u => Iff.rfl,fun u => ?_⟩
  by_cases he : u = t
  · subst he
    simp [Heap.setSafePoint,GcMutatorThread.isWaiting]
  · simp [Heap.setSafePoint,he]

theorem announce_invariant (h : Invariant s) (hp : s.pc t = .safePoint next)
    (hs : s.state = .stopTheWorld) :
    Invariant ((s.setSafePoint t true).goto t (.parking next)) := by
  have hown : LocalOk s.mutators t (.safePoint next) := hp ▸ (h.threads t).localOk
  have hplain : (s.pc t).isPlain = true := by simp [hp,Pc.isPlain,Pc.isPark,Pc.isCollecting]
  obtain ⟨t₀,c,ha⟩ := h.world.active_of_not_idle (by simp [hs])
  have hne := ha.ne_of_not_collecting (isCollecting_of_plain hplain)
  obtain ⟨-,hc,hst⟩ := (ha.phase_of_plain hne hown.1 (isPark_of_plain hplain)).resolve_right
    fun hr => by simp [hs] at hr
  let s' := (s.setSafePoint t true).goto t (.parking next)
  have hpc : ∀ u, u ≠ t → s'.pc u = s.pc u := fun u hu => goto_ne _ _ hu
  have hself : s'.pc t = .parking next := goto_self _ _ _
  have hok : ThreadOk s'.mutators t (s'.pc t) := by
    rw [hself]
    exact setSafePoint_threadOk (h.threads t) (by rw [hp]; rfl) (fun _ => rfl) rfl
  refine h.update (setSafePoint_counted h.counted hown.1 true) (Frame.record _ t _ _ _) hpc hok
    (.inr ⟨t₀,c,ha.step_other hne hpc (by simp [Pc.isCollecting]) ?_⟩)
  simp only [PhaseOk,hc]
  refine ⟨hs,(setSafePoint_sameRegions s t true _).held rfl hst.held,fun u hu => ?_,?_,hst.event,
    hst.resume⟩
  · by_cases he : u = t
    · subst he
      exact ⟨hst.held.mem hne hown.1,by rw [goto_self]; rfl⟩
    · rw [goto_ne _ _ he] at hu ⊢
      exact hst.parks u hu
  · refine hst.count.trans (congrArg Nat.cast (Counting.countP_same fun u _ => ?_))
    by_cases he : u = t
    · subst he
      simp [hp,Pc.isParked]
    · rw [goto_ne _ _ he]
      rfl

theorem park_invariant (h : Invariant s) (hp : s.pc t = .parking next) :
    Invariant (s.decHandshake.goto t (.parked next)) := by
  have hown : LocalOk s.mutators t (.parking next) := hp ▸ (h.threads t).localOk
  have hpark : (s.pc t).isPark = true := by simp [hp,Pc.isPark]
  obtain ⟨t₀,c,hne,ha⟩ := h.world.active_of_park hpark
  rcases ha.phase_of_park hpark with ⟨hs,hc,hst⟩ | ⟨hparked,-⟩ | ⟨-,-,hr⟩
  case inr.inl => simp [hp,Pc.isParked] at hparked
  case inr.inr =>
    have := (hr.parks t hpark).2
    simp [hp,Pc.isParking] at this
  let s' := s.decHandshake.goto t (.parked next)
  have hpc : ∀ u, u ≠ t → s'.pc u = s.pc u := fun u hu => goto_ne _ _ hu
  have hself : s'.pc t = .parked next := goto_self _ _ _
  have hmem := (hst.parks t hpark).1
  have hfall : (c.counted.countP fun u => !(s.pc u).isParked) =
      (c.counted.countP fun u => !(s'.pc u).isParked) + 1 := by
    refine Counting.countP_fall ha.nodup hmem (fun u _ hu => ?_) (by simp [hp,Pc.isParked])
      (by simp [hself,Pc.isParked])
    rw [hpc u hu]
  have hbefore := hst.count
  have hcount : s'.handshakeCount = (c.counted.countP fun u => !(s'.pc u).isParked : ℕ) := by
    have hdec : s'.handshakeCount = s.handshakeCount - 1 := rfl
    omega
  refine h.update h.counted (Frame.refl _ t) hpc ?_
    (.inr ⟨t₀,c,ha.step_other hne hpc (by simp [Pc.isCollecting]) ?_⟩)
  · rw [hself]
    refine ⟨?_,hown⟩
    rw [goto_mutators]
    exact (h.threads t).flag.trans (by rw [hp]; rfl)
  · simp only [PhaseOk,hc]
    refine ⟨hs,fun u => hst.held u,fun u hu => ?_,hcount,?_,hst.resume⟩
    · by_cases he : u = t
      · subst he
        exact ⟨hmem,by rw [goto_self]; rfl⟩
      · rw [goto_ne _ _ he] at hu ⊢
        exact hst.parks u hu
    · have hpos : s.handshakeCount ≠ 0 := by omega
      simp [Heap.goto,Heap.decHandshake,hst.event,hpos]

theorem wake_invariant (h : Invariant s) (hp : s.pc t = .parked next) (he : s.resumeEvent = true) :
    Invariant ((s.setSafePoint t false).goto t (.leaving next)) := by
  have hown : LocalOk s.mutators t (.parked next) := hp ▸ (h.threads t).localOk
  have hpark : (s.pc t).isPark = true := by simp [hp,Pc.isPark]
  obtain ⟨t₀,c,hne,ha⟩ := h.world.active_of_park hpark
  rcases ha.phase_of_park hpark with ⟨-,-,hst⟩ | ⟨-,hresume⟩ | ⟨hs,hc,hr⟩
  case inl => simp [hst.resume] at he
  case inr.inl => simp [hresume] at he
  let s' := (s.setSafePoint t false).goto t (.leaving next)
  have hpc : ∀ u, u ≠ t → s'.pc u = s.pc u := fun u hu => goto_ne _ _ hu
  have hself : s'.pc t = .leaving next := goto_self _ _ _
  have hok : ThreadOk s'.mutators t (s'.pc t) := by
    rw [hself]
    exact setSafePoint_threadOk (h.threads t) (by rw [hp]; rfl) (fun _ => rfl) rfl
  refine h.update (setSafePoint_counted h.counted hown.1 false) (Frame.record _ t _ _ _) hpc hok
    (.inr ⟨t₀,c,ha.step_other hne hpc (by simp [Pc.isCollecting]) ?_⟩)
  simp only [PhaseOk,hc]
  refine ⟨hs,fun u hu => ?_,hr.count.trans (congrArg Nat.cast ?_),hr.event⟩
  · by_cases hu' : u = t
    · subst hu'
      exact ⟨(hr.parks u hpark).1,by rw [goto_self]; rfl⟩
    · rw [goto_ne _ _ hu'] at hu ⊢
      exact hr.parks u hu
  · refine Counting.countP_same fun u _ => ?_
    by_cases hu' : u = t
    · subst hu'
      simp [hp,Pc.isPark]
    · rw [goto_ne _ _ hu']
      rfl

theorem leave_invariant {p : Pc} (h : Invariant s) (hp : s.pc t = .leaving next)
    (hplain : p.isPlain = true) (hok : ThreadOk s.mutators t p) :
    Invariant (s.decHandshake.goto t p) := by
  have hpark : (s.pc t).isPark = true := by simp [hp,Pc.isPark]
  obtain ⟨t₀,c,hne,ha⟩ := h.world.active_of_park hpark
  rcases ha.phase_of_park hpark with ⟨-,-,hst⟩ | ⟨hparked,-⟩ | ⟨hs,hc,hr⟩
  case inl =>
    have := (hst.parks t hpark).2
    simp [hp,Pc.isLeaving] at this
  case inr.inl => simp [hp,Pc.isParked] at hparked
  let s' := s.decHandshake.goto t p
  have hpc : ∀ u, u ≠ t → s'.pc u = s.pc u := fun u hu => goto_ne _ _ hu
  have hself : s'.pc t = p := goto_self _ _ _
  have hfall : (c.counted.countP fun u => (s.pc u).isPark) =
      (c.counted.countP fun u => (s'.pc u).isPark) + 1 := by
    refine Counting.countP_fall ha.nodup (hr.parks t hpark).1 (fun u _ hu => ?_) hpark
      (by rw [hself]; exact isPark_of_plain hplain)
    rw [hpc u hu]
  have hbefore := hr.count
  have hcount : s'.handshakeCount = (c.counted.countP fun u => (s'.pc u).isPark : ℕ) := by
    have hdec : s'.handshakeCount = s.handshakeCount - 1 := rfl
    omega
  refine h.update h.counted (Frame.refl _ t) hpc (by rw [hself]; exact hok)
    (.inr ⟨t₀,c,ha.step_other hne hpc (by rw [hself]; exact isCollecting_of_plain hplain) ?_⟩)
  simp only [PhaseOk,hc]
  refine ⟨hs,fun u hu => ?_,hcount,?_⟩
  · have hu' : u ≠ t := by
      rintro rfl
      rw [goto_self,isPark_of_plain hplain] at hu
      exact Bool.false_ne_true hu
    rw [goto_ne _ _ hu'] at hu ⊢
    exact hr.parks u hu
  · have hpos : s.handshakeCount ≠ 0 := by omega
    simp [Heap.goto,Heap.decHandshake,hr.event,hpos]

end SafePoint
end Jancy.Rt
