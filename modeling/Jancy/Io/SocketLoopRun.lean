import Jancy.Io.SocketEvents

/-! Runs of a socket: its events at the end of each pass, and of the thread. -/
namespace Jancy.Io

variable {F α : Type} {H : HandleTable ℕ}

open AsyncIoDeviceEvent

/-- The call has ended the connection, and not by an error of another kind. -/
def LoopResult.endsTcp : LoopResult α → Bool
  | .disconnected | .failed .connReset | .failed .connAborted | .failed .timedOut => true
  | _ => false

namespace SocketLoop

variable {s s' : SocketLoop F α H} {o : WaitOutcome F H} {next : LoopNext}

def AtRest (s : SocketLoop F α H) : Prop := s.thread.isWaiting = true ∨ s.thread.isEnded = true

structure Sound (s : SocketLoop F α H) : Prop where
  unread : s.AtRest → s.device.readBytesHeld ≠ [] →
    incomingData.Meets s.device.activeEvents
  waits : s.AtRest → ∀ w ∈ s.waits.asyncWaitList, ¬ w.mask.Meets s.device.activeEvents
  /-- a blocking call whose events are active has been let go -/
  blocked : s.AtRest → ∀ (i : ℕ) mask, s.calls[i]? = some (.blocked mask) →
    mask.Meets s.device.activeEvents → ⟨i,mask,true⟩ ∈ s.waits.syncWaitList
  stays : s.reached &&& s.device.activeEvents = s.reached

/-- The loop is not left in the middle of a pass with unread data, and a pass that ends with the
events that it began with has registered no wait for one of them. -/
def Careful (s : SocketLoop F α H) : SocketAction F α → Prop
  | .thread result =>
      match s.thread with
      | .receiving => s.kind = .tcp → s.receives = true → result.endsTcp = true →
          s.device.readBytesHeld = []
      | .sending =>
          (s.kind = .tcp → s.takeBlock.sends = true → result.endsTcp = true →
            s.device.readBytesHeld = []) ∧
          (s.takeBlock.sends = false →
            s.takeBlock.updated.device.activeEvents = s.prevActiveEvents →
              ∀ mask ∈ s.late, ¬ mask.Meets s.prevActiveEvents)
      | .failing _ => s.device.readBytesHeld = []
      | _ => True
  | _ => True

end SocketLoop

namespace SocketPc

/-- Between the beginning of a pass and its end. -/
def inPass : SocketPc F → Bool
  | .receiving | .sending | .reading | .writing | .accepting | .failing _ => true
  | _ => false

/-- In front of the first pass. -/
def isEarly : SocketPc F → Bool
  | .starting | .suspended | .connecting | .handshaking => true
  | .setting _ .handshake | .setting _ .enter => true
  | .notifying _ .handshake | .notifying _ .enter => true
  | _ => false

/-- The loop is left, and events may have been set that last. -/
def isLeft : SocketPc F → Bool
  | .notifying _ .exit | .ended => true
  | _ => false

variable {pc : SocketPc F}

theorem outside_of_isEarly (h : pc.isEarly = true) : pc.inPass = false := by
  cases pc <;> first | rfl | cases h

theorem not_isLeft_of_inPass (h : pc.inPass = true) : pc.isLeft = false := by
  cases pc <;> first | rfl | cases h

theorem left_cases (h : pc.isLeft = true) :
    pc = .ended ∨ ∃ wait, pc = .notifying wait .exit := by
  unfold isLeft at h
  split at h
  · exact Or.inr ⟨_,rfl⟩
  · exact Or.inl rfl
  · cases h

theorem eq_waiting (h : pc.isWaiting = true) : pc = .waiting := by
  unfold isWaiting at h
  split at h
  · rfl
  · cases h

theorem eq_ended (h : pc.isEnded = true) : pc = .ended := by
  unfold isEnded at h
  split at h
  · rfl
  · cases h

/-- Events that last are set where the loop is left, and only there. -/
def Proper : SocketPc F → Prop
  | .setting events next => next ≠ .exit → events &&& SocketLoop.lasting = 0
  | .failing events => events.Meets SocketLoop.lasting
  | _ => True

end SocketPc

theorem getSocketEvents_lasting (error : SocketError) :
    (getSocketEventsFromTcpSendRecvError error).Meets SocketLoop.lasting := by
  cases error
  · decide
  · decide
  · decide
  · decide

theorem tcpDisconnected_lasting : SocketEvent.tcpDisconnected.Meets SocketLoop.lasting := by decide

namespace SocketLoop

variable {s s' : SocketLoop F α H} {o : WaitOutcome F H} {next : LoopNext}

/-- What no registered wait is for: the active events, in a pass those from before it, except for
the waits that came since. -/
def Watched (s : SocketLoop F α H) (mask : Events) : Prop :=
  if s.thread.inPass then mask.Meets s.prevActiveEvents ∧ mask ∉ s.late
  else mask.Meets s.device.activeEvents

theorem watched_inPass (h : s.thread.inPass = true) (mask : Events) :
    s.Watched mask ↔ mask.Meets s.prevActiveEvents ∧ mask ∉ s.late := by
  simp [Watched,h]

theorem watched_outside (h : s.thread.inPass = false) (mask : Events) :
    s.Watched mask ↔ mask.Meets s.device.activeEvents := by
  simp [Watched,h]

structure Inv (s : SocketLoop F α H) : Prop where
  full : s.device.ReadFull
  proper : s.thread.Proper
  early : s.thread.isEarly = true ∨ s.isAccepting = true → s.device.readBytesHeld = []
  unread : s.thread.inPass = false → s.device.readBytesHeld ≠ [] →
    incomingData.Meets s.device.activeEvents
  quiet : Quiet s.calls s.base s.Watched
  alive : s.thread.isLeft = false → s.device.activeEvents &&& lasting = 0
  late : s.thread = .accepting → s.late = [] ∧ s.isAccepting = true
  loop : s.isAccepting = true → s.thread.inPass = true →
    s.thread = .accepting ∨ ∃ events, s.thread = .failing events

theorem initial_inv {kind : SocketKind} {readBlockSize : ℕ} {readBufferSize writeBufferSize : ℕ+} :
    (initial kind readBlockSize readBufferSize writeBufferSize : SocketLoop F α H).Inv where
  full hov := absurd rfl hov
  proper := trivial
  early _ := rfl
  unread _ hheld := absurd rfl hheld
  quiet := ⟨nofun,nofun,nofun⟩
  alive := nofun
  late := nofun
  loop := nofun

theorem AtRest.outside (hrest : s.AtRest) : s.thread.inPass = false := by
  rcases hrest with hrest | hrest
  · rw [SocketPc.eq_waiting hrest]
    rfl
  · rw [SocketPc.eq_ended hrest]
    rfl

theorem Inv.sound (h : s.Inv) (hreached : s.reached = s.device.activeEvents &&& lasting) :
    s.Sound where
  unread hrest := h.unread hrest.outside
  waits hrest w hw hm := h.quiet.waits w hw ((watched_outside hrest.outside _).mpr hm)
  blocked hrest i mask hi hm := by
    obtain ⟨x,hx,hsignaled⟩ := h.quiet.blocked i mask hi
    rwa [hsignaled ((watched_outside hrest.outside _).mpr hm)] at hx
  stays := by
    rw [hreached,BitVec.and_comm,← BitVec.and_assoc,BitVec.and_self]

theorem Inv.spares (h : s.Inv) (hd : AsyncIoDevice.Spares s.device s'.device)
    (hthread : s'.thread = s.thread) (hcalls : s'.calls = s.calls) (hwaits : s'.waits = s.waits)
    (hacc : s'.isAccepting = s.isAccepting) (hprev : s'.prevActiveEvents = s.prevActiveEvents)
    (hlate : s'.late = s.late) : s'.Inv where
  full := hd.full h.full
  proper := by
    rw [hthread]
    exact h.proper
  early hearly := by
    rw [hthread,hacc] at hearly
    exact hd.held (h.early hearly)
  unread hpass hheld := by
    rw [hthread] at hpass
    exact hd.unread h.full hheld (h.unread hpass fun hnil => hheld (hd.held hnil))
  quiet := by
    rw [hcalls]
    refine (h.quiet.mono fun mask hm => ?_).congr ?_ ?_
    · unfold Watched at hm ⊢
      rw [hthread,hprev,hlate] at hm
      split_ifs at hm ⊢
      · exact hm
      · exact hd.events.within mask hm
    · show s'.waits.asyncWaitList = s.waits.asyncWaitList
      rw [hwaits]
    · show s'.waits.syncWaitList = s.waits.syncWaitList
      rw [hwaits]
  alive hleft := by
    rw [hthread] at hleft
    rw [hd.events.stays]
    exact h.alive hleft
  late hacc' := by
    rw [hthread] at hacc'
    rw [hlate,hacc]
    exact h.late hacc'
  loop := by
    rw [hthread,hacc]
    exact h.loop

theorem accept_spares (s : SocketLoop F α H) :
    AsyncIoDevice.Spares s.device s.accept.device := by
  unfold accept
  split
  · exact .refl _
  · exact ⟨id,id,.clear (by decide),fun _ _ hmeets => hmeets.clear (by decide)⟩
  · exact .refl _

section

variable (h : s.Inv)

include h

theorem Inv.accept : s.accept.Inv := by
  refine h.spares s.accept_spares ?_ ?_ ?_ ?_ ?_ ?_ <;>
  · unfold SocketLoop.accept
    split <;> rfl

theorem Inv.call {request : WaitRequest F} (hs : s.call request = some s') :
    s'.Inv := by
  simp only [SocketLoop.call] at hs
  split_ifs at hs with hallowed
  cases hs
  have hpublic : (WaitPc.entered request).isPublic = true := by
    split at hallowed
    · rfl
    · rfl
    · rfl
    · rfl
    · cases hallowed
  exact ⟨h.full,h.proper,h.early,h.unread,h.quiet.call hpublic,h.alive,h.late,
    h.loop⟩

theorem Inv.timeout {i : ℕ} (hs : s.timeout i = some s') : s'.Inv := by
  unfold SocketLoop.timeout at hs
  split at hs
  · next mask hpc =>
    cases hs
    exact ⟨h.full,h.proper,h.early,h.unread,h.quiet.timeout hpc,h.alive,h.late,
    h.loop⟩
  · cases hs

theorem Inv.advance {i : ℕ} (hs : s.advance i = some s') :
    s'.Inv ∧ s'.device.activeEvents = s.device.activeEvents := by
  unfold SocketLoop.advance at hs
  cases hpc : s.calls[i]? with
  | none =>
    rw [hpc] at hs
    cases hs
  | some pc =>
    simp only [hpc] at hs
    split_ifs at hs with hlock
    obtain ⟨o,ho,rfl⟩ := Option.map_eq_some_iff.mp hs
    have hquiet : Quiet s.calls s.base
        (fun mask => if s.thread.inPass then
          mask.Meets s.prevActiveEvents ∧ mask ∉ s.late ++ pc.registers
        else mask.Meets s.device.activeEvents) := by
      refine h.quiet.mono fun mask hm => ?_
      unfold Watched
      split_ifs at hm ⊢
      · exact ⟨hm.1,fun hmem => hm.2 (List.mem_append_left _ hmem)⟩
      · exact hm
    obtain ⟨hquiet,hactive⟩ := hquiet.advance hpc ho fun mask hmem hm => by
      split_ifs
      · exact fun hw => hw.2 (List.mem_append_right _ hmem)
      · exact hm
    have hactive : o.base.activeEvents = s.device.activeEvents := hactive
    refine ⟨⟨h.full,h.proper,h.early,?_,?_,?_,?_,h.loop⟩,hactive⟩
    · show _ → _ → incomingData.Meets o.base.activeEvents
      rw [hactive]
      exact h.unread
    · refine Quiet.mono (hquiet.congr rfl rfl) fun mask hm => ?_
      unfold Watched at hm
      rw [← hactive]
      exact hm
    · show _ → o.base.activeEvents &&& lasting = 0
      rw [hactive]
      exact h.alive
    · intro hacc
      have hacc : s.thread = .accepting := hacc
      have hfree : pc.takesLock = false := by
        rw [hacc] at hlock
        simpa [SocketPc.isLocked] using hlock
      refine ⟨?_,(h.late hacc).2⟩
      show s.late ++ pc.registers = []
      rw [(h.late hacc).1,WaitPc.registers_of_not_takesLock hfree,List.nil_append]

theorem Inv.open {kind : SocketKind} {mode : DeviceMode} {isIncoming isSuspended : Bool}
    (hs : s.open' kind mode isIncoming isSuspended = some s') : s'.Inv := by
  unfold SocketLoop.open' at hs
  split_ifs at hs with hclosed
  cases hs
  refine ⟨fun hov => absurd rfl hov,trivial,fun _ => rfl,fun _ hheld => absurd rfl hheld,?_,
    fun _ => by simp [AsyncIoDevice.open'],nofun,nofun⟩
  refine Quiet.mono (h.quiet.congr rfl rfl) fun mask hm => ?_
  exact absurd ((watched_outside rfl mask).mp hm) (Events.not_meets_zero mask)

theorem Inv.outside (hpass : s.thread.inPass = false) (hproper : s'.thread.Proper)
    (hpass' : s'.thread.inPass = false) (hearly : s'.thread.isEarly = true ∨ s'.isAccepting = true →
      s.thread.isEarly = true ∨ s.isAccepting = true)
    (hleft : s'.thread.isLeft = false → s.thread.isLeft = false) (hdevice : s'.device = s.device)
    (hcalls : s'.calls = s.calls) (hwaits : s'.waits = s.waits) :
    s'.Inv where
  full := by
    rw [hdevice]
    exact h.full
  proper := hproper
  early hor := by
    rw [hdevice]
    exact h.early (hearly hor)
  unread _ := by
    rw [hdevice]
    exact h.unread hpass
  quiet := by
    rw [hcalls]
    refine (h.quiet.mono fun mask hm => ?_).congr ?_ ?_
    · rw [watched_outside hpass',hdevice] at hm
      exact (watched_outside hpass mask).mpr hm
    · show s'.waits.asyncWaitList = s.waits.asyncWaitList
      rw [hwaits]
    · show s'.waits.syncWaitList = s.waits.syncWaitList
      rw [hwaits]
  alive hl := by
    rw [hdevice]
    exact h.alive (hleft hl)
  late hacc := by
    rw [hacc] at hpass'
    cases hpass'
  loop _ hin := by
    rw [hin] at hpass'
    cases hpass'

theorem Inv.end (hpass : s.thread.inPass = false) (woken : Bool) :
    Inv { s with woken, thread := .ended } := by
  refine h.outside hpass trivial rfl (fun hor => Or.inr ?_) nofun rfl rfl rfl
  exact hor.resolve_left Bool.false_ne_true

theorem Inv.start (hthread : s.thread = .starting) (hs : s.start = some s') :
    s'.Inv := by
  have hpass : s.thread.inPass = false := by rw [hthread]; rfl
  have hleft : s.thread.isLeft = false := by rw [hthread]; rfl
  have hearly : s.thread.isEarly = true := by rw [hthread]; rfl
  unfold SocketLoop.start at hs
  dsimp only at hs
  split_ifs at hs
  · cases hs
    exact h.end hpass false
  · cases hs
    exact h.outside hpass trivial rfl (fun _ => Or.inl hearly) (fun _ => hleft) rfl rfl rfl
  · cases hs
    exact h.outside hpass trivial rfl (fun _ => Or.inl hearly) (fun _ => hleft) rfl rfl rfl
  · cases hs
    exact h.outside hpass trivial rfl (fun _ => Or.inl hearly) (fun _ => hleft) rfl rfl rfl
  · cases hs
    exact h.end hpass false
  · cases hs
    exact h.outside hpass trivial rfl (fun _ => Or.inl hearly) (fun _ => hleft) rfl rfl rfl
  · cases hs
    exact h.outside hpass trivial rfl (fun _ => Or.inl hearly) (fun _ => hleft) rfl rfl rfl

theorem Inv.suspendLoop (hthread : s.thread = .suspended) (hs : s.suspendLoop = some s') :
    s'.Inv := by
  have hpass : s.thread.inPass = false := by rw [hthread]; rfl
  have hleft : s.thread.isLeft = false := by rw [hthread]; rfl
  have hearly : s.thread.isEarly = true := by rw [hthread]; rfl
  unfold SocketLoop.suspendLoop at hs
  split_ifs at hs
  · cases hs
    exact h.end hpass s.woken
  · cases hs
    exact h.outside hpass trivial rfl (fun _ => Or.inl hearly) (fun _ => hleft) rfl rfl rfl
  · cases hs
    exact h.outside hpass h.proper hpass (fun _ => Or.inl hearly) (fun _ => hleft) rfl rfl rfl

theorem Inv.fail (hpass : s.thread.inPass = false) (hleft : s.thread.isLeft = false) :
    s.fail.Inv := by
  refine h.outside hpass (fun hne => absurd rfl hne) rfl (fun hor => Or.inr ?_) (fun _ => hleft)
    rfl rfl rfl
  exact hor.resolve_left Bool.false_ne_true

end

variable {result : LoopResult α}

theorem Inv.connectLoop (h : s.Inv) (hthread : s.thread = .connecting)
    (hs : s.connectLoop result = some s') : s'.Inv := by
  have hpass : s.thread.inPass = false := by rw [hthread]; rfl
  have hleft : s.thread.isLeft = false := by rw [hthread]; rfl
  have hearly : s.thread.isEarly = true := by rw [hthread]; rfl
  cases result with
  | completed =>
    cases hs
    exact h.outside hpass (fun _ => by decide) rfl (fun _ => Or.inl hearly) (fun _ => hleft)
      rfl rfl rfl
  | failed error =>
    cases hs
    exact h.fail hpass hleft
  | wouldBlock =>
    simp only [SocketLoop.connectLoop] at hs
    split_ifs at hs
    · cases hs
      exact h.end hpass false
    · cases hs
      exact h.outside hpass h.proper hpass (fun _ => Or.inl hearly) (fun _ => hleft) rfl rfl rfl
  | _ => cases hs

theorem Inv.select (h : s.Inv) {readable writable : Bool}
    (hs : s.select readable writable = some s') : s'.Inv := by
  unfold SocketLoop.select at hs
  split_ifs at hs with hdisabled
  cases hs
  rw [not_or,Bool.not_eq_false] at hdisabled
  have hwaiting := SocketPc.eq_waiting hdisabled.1
  refine h.outside (by rw [hwaiting]; rfl) trivial rfl (fun hor => Or.inr ?_)
    (fun _ => by rw [hwaiting]; rfl) rfl rfl rfl
  exact hor.resolve_left Bool.false_ne_true

theorem notify_inv (hfull : s.device.ReadFull)
    (hearly : next = .handshake ∨ next = .enter ∨ s.isAccepting = true →
      s.device.readBytesHeld = [])
    (hunread : s.device.readBytesHeld ≠ [] → incomingData.Meets o.base.activeEvents)
    (hquiet : Quiet s.calls o.base (fun mask => mask.Meets o.base.activeEvents))
    (halive : next ≠ .exit → o.base.activeEvents &&& lasting = 0) : (s.notify o next).Inv := by
  have hafter : ∀ t : SocketLoop F α H, t.thread.inPass = false → t.thread.Proper →
      t.device = (s.setBase o.base).device → t.waits = (s.setBase o.base).waits →
      t.calls = s.calls → t.isAccepting = s.isAccepting →
      (t.thread.isEarly = true → next = .handshake ∨ next = .enter) →
      (t.thread.isLeft = false → next ≠ .exit) → t.Inv := by
    intro t hpass hproper hdevice hwaits hcalls hacc hpre hleft
    refine ⟨?_,hproper,fun hor => ?_,fun _ hheld => ?_,?_,fun hl => ?_,fun hl => ?_,
      fun _ hin => ?_⟩
    · rw [hdevice]
      exact hfull
    · rw [hdevice]
      rcases hor with hpc | hl
      · exact hearly ((hpre hpc).imp_right Or.inl)
      · exact hearly (Or.inr (Or.inr (hacc ▸ hl)))
    · rw [hdevice] at hheld ⊢
      exact hunread hheld
    · rw [hcalls]
      refine (hquiet.mono fun mask hm => ?_).congr ?_ ?_
      · rw [watched_outside hpass,hdevice] at hm
        exact hm
      · show t.waits.asyncWaitList = _
        rw [hwaits]
        rfl
      · show t.waits.syncWaitList = _
        rw [hwaits]
        rfl
    · rw [hdevice]
      exact halive (hleft hl)
    · rw [hl] at hpass
      cases hpass
    · rw [hin] at hpass
      cases hpass
  unfold SocketLoop.notify
  cases next with
  | handshake =>
    split
    · exact hafter _ rfl trivial rfl rfl rfl rfl (fun _ => Or.inl rfl) nofun
    · exact hafter _ rfl trivial rfl rfl rfl rfl (fun _ => Or.inl rfl) nofun
  | enter =>
    split
    · exact hafter _ rfl trivial rfl rfl rfl rfl (fun _ => Or.inr rfl) nofun
    · exact hafter _ rfl trivial rfl rfl rfl rfl (fun _ => Or.inr rfl) nofun
  | loop =>
    split
    · exact hafter _ rfl trivial rfl rfl rfl rfl nofun nofun
    · exact hafter _ rfl trivial rfl rfl rfl rfl nofun nofun
  | exit =>
    split
    · exact hafter _ rfl trivial rfl rfl rfl rfl nofun nofun
    · exact hafter _ rfl trivial rfl rfl rfl rfl nofun nofun

variable {events : Events}

theorem setEvents_quiet {calls : List (WaitPc F)} {b : AsyncIoBase F H} {watched : Events → Prop}
    (h : Quiet calls b watched) (hnew : b.activeEvents &&& events ≠ events) :
    (b.setEvents events).base.activeEvents = b.activeEvents ||| events ∧
      Quiet calls (b.setEvents events).base
        (fun mask => mask.Meets (b.setEvents events).base.activeEvents) := by
  unfold AsyncIoBase.setEvents
  rw [if_neg hnew]
  have hlists : Quiet calls { b with activeEvents := b.activeEvents ||| events } watched :=
    h.congr rfl rfl
  obtain ⟨hquiet,hactive⟩ := hlists.processWaitLists
  refine ⟨hactive,?_⟩
  rw [hactive]
  exact hquiet

theorem Inv.setting (h : s.Inv) (hthread : s.thread = .setting events next) :
    (s.notify (s.base.setEvents events) next).Inv := by
  have hpass : s.thread.inPass = false := by rw [hthread]; rfl
  have hearly : next = .handshake ∨ next = .enter ∨ s.isAccepting = true →
      s.device.readBytesHeld = [] := by
    rintro (rfl | rfl | hacc)
    · exact h.early (Or.inl (by rw [hthread]; rfl))
    · exact h.early (Or.inl (by rw [hthread]; rfl))
    · exact h.early (Or.inr hacc)
  have halive : s.device.activeEvents &&& lasting = 0 := h.alive (by rw [hthread]; rfl)
  have hproper : next ≠ .exit → events &&& lasting = 0 := by
    have hproper := h.proper
    rw [hthread] at hproper
    exact hproper
  by_cases hset : s.base.activeEvents &&& events = events
  · have hbase : (s.base.setEvents events).base = s.base := by
      unfold AsyncIoBase.setEvents
      rw [if_pos hset]
    refine notify_inv h.full hearly ?_ ?_ ?_
    · rw [hbase]
      exact h.unread hpass
    · rw [hbase]
      exact h.quiet.mono fun mask hm => (watched_outside hpass mask).mpr hm
    · rw [hbase]
      exact fun _ => halive
  · obtain ⟨hactive,hquiet⟩ := setEvents_quiet h.quiet hset
    refine notify_inv h.full hearly ?_ hquiet ?_
    · rw [hactive]
      exact fun hheld => (h.unread hpass hheld).or_left _
    · rw [hactive]
      intro hne
      show (s.device.activeEvents ||| events) &&& lasting = 0
      rw [Events.or_lasting (hproper hne),halive]

theorem Inv.exitWith (h : s.Inv) (hleft : s.thread.isLeft = false) (hevents : events.Meets lasting)
    (hheld : s.device.readBytesHeld = []) :
    (s.exitWith events).Inv := by
  obtain ⟨-,hquiet⟩ := setEvents_quiet h.quiet
    (Events.not_all_of_meets (a := s.base.activeEvents) (h.alive hleft) hevents)
  exact notify_inv h.full (fun _ => hheld) (fun hne => absurd hheld hne) hquiet
    fun hne => absurd rfl hne

theorem Inv.failing (h : s.Inv) (hthread : s.thread = .failing events)
    (hheld : s.device.readBytesHeld = []) : (s.exitWith events).Inv := by
  have hproper := h.proper
  rw [hthread] at hproper
  exact h.exitWith (by rw [hthread]; rfl) hproper hheld

theorem Inv.notified (h : s.Inv) {wait : AsyncWait F} (hthread : s.thread = .notifying wait next) :
    (s.notify (s.base.notified wait) next).Inv := by
  have hpass : s.thread.inPass = false := by rw [hthread]; rfl
  obtain ⟨hquiet,hactive⟩ := h.quiet.notified wait
  refine notify_inv h.full ?_ ?_ ?_ fun hne => ?_
  · rintro (rfl | rfl | hacc)
    · exact h.early (Or.inl (by rw [hthread]; rfl))
    · exact h.early (Or.inl (by rw [hthread]; rfl))
    · exact h.early (Or.inr hacc)
  · rw [hactive]
    exact h.unread hpass
  · rw [hactive]
    exact hquiet.mono fun mask hm => (watched_outside hpass mask).mpr hm
  · rw [hactive]
    refine h.alive ?_
    rw [hthread]
    cases next with
    | exit => exact absurd rfl hne
    | _ => rfl

theorem Inv.sslHandshakeLoop (h : s.Inv) (hthread : s.thread = .handshaking)
    (hs : s.sslHandshakeLoop result = some s') : s'.Inv := by
  have hpass : s.thread.inPass = false := by rw [hthread]; rfl
  have hleft : s.thread.isLeft = false := by rw [hthread]; rfl
  have hearly : s.thread.isEarly = true := by rw [hthread]; rfl
  have hwait : ∀ t, (if s.closing then some { s with woken := false, thread := .ended }
      else some { s with woken := false }) = some t → t.Inv := by
    intro t ht
    split_ifs at ht
    · cases ht
      exact h.end hpass false
    · cases ht
      exact h.outside hpass h.proper hpass (fun _ => Or.inl hearly) (fun _ => hleft) rfl rfl rfl
  cases result with
  | completed =>
    cases hs
    have hlists : Quiet s.calls (s.setActiveEvents
        (SocketEvent.tcpConnected ||| SslSocketEvent.sslHandshakeCompleted)).base s.Watched :=
      h.quiet.congr rfl rfl
    obtain ⟨hquiet,hactive⟩ := hlists.processWaitLists
    have hheld := h.early (Or.inl hearly)
    refine notify_inv h.full (fun _ => hheld) (fun hne => absurd hheld hne) ?_ fun _ => ?_
    · rw [hactive]
      exact hquiet
    · rw [hactive]
      show (_ ||| _) &&& _ = _
      decide
  | failed error =>
    cases hs
    exact h.fail hpass hleft
  | wantRead => exact hwait _ hs
  | wantWrite => exact hwait _ hs
  | _ => cases hs

theorem baseEvents_lasting (s : SocketLoop F α H) : s.baseEvents &&& lasting = 0 := by
  unfold baseEvents
  split_ifs
  · decide
  split
  · decide
  · decide
  · decide

theorem Inv.lock (h : s.Inv) (hthread : s.thread = .locking) : s.lock.Inv := by
  have hpass : s.thread.inPass = false := by rw [hthread]; rfl
  have hleft : s.thread.isLeft = false := by rw [hthread]; rfl
  unfold SocketLoop.lock
  split_ifs with hclosing hsuspended hacc
  · exact h.end hpass s.woken
  · refine h.outside hpass trivial rfl (fun hor => Or.inr ?_) (fun _ => hleft) rfl rfl rfl
    exact hor.resolve_left Bool.false_ne_true
  · refine ⟨h.full,trivial,fun _ => h.early (Or.inr hacc),nofun,?_,
      fun _ => s.baseEvents_lasting,fun _ => ⟨rfl,hacc⟩,fun _ _ => Or.inl rfl⟩
    refine (h.quiet.mono fun mask hm => ?_).congr rfl rfl
    exact (watched_outside hpass mask).mpr ((watched_inPass rfl mask).mp hm).1
  · refine ⟨h.full,trivial,fun hor => absurd (hor.resolve_left Bool.false_ne_true) hacc,nofun,?_,
      fun _ => s.baseEvents_lasting,nofun,fun hacc' => absurd hacc' hacc⟩
    refine (h.quiet.mono fun mask hm => ?_).congr rfl rfl
    exact (watched_outside hpass mask).mpr ((watched_inPass rfl mask).mp hm).1

theorem Inv.inside (h : s.Inv) (hpass : s.thread.inPass = true) (hpass' : s'.thread.inPass = true)
    (hproper : s'.thread.Proper) (hfull : s'.device.ReadFull)
    (hactive : s'.device.activeEvents = s.device.activeEvents)
    (hacc : s'.isAccepting = true → s.isAccepting = true ∧ s'.device = s.device ∧
      (s'.thread = .accepting ∨ ∃ events, s'.thread = .failing events))
    (hcalls : s'.calls = s.calls) (hwaits : s'.waits = s.waits)
    (hprev : s'.prevActiveEvents = s.prevActiveEvents) (hlate : s'.late = s.late)
    (hfresh : s'.thread = .accepting → s.thread = .accepting ∧ s'.isAccepting = s.isAccepting) :
    s'.Inv where
  full := hfull
  proper := hproper
  early hor := by
    rcases hor with hearly | hacc'
    · rw [SocketPc.outside_of_isEarly hearly] at hpass'
      cases hpass'
    · obtain ⟨hold,hdevice,-⟩ := hacc hacc'
      rw [hdevice]
      exact h.early (Or.inr hold)
  unread hout := by
    rw [hpass'] at hout
    cases hout
  quiet := by
    rw [hcalls]
    refine (h.quiet.mono fun mask hm => ?_).congr ?_ ?_
    · rw [watched_inPass hpass',hprev,hlate] at hm
      exact (watched_inPass hpass mask).mpr hm
    · show s'.waits.asyncWaitList = s.waits.asyncWaitList
      rw [hwaits]
    · show s'.waits.syncWaitList = s.waits.syncWaitList
      rw [hwaits]
  alive _ := by
    rw [hactive]
    exact h.alive (SocketPc.not_isLeft_of_inPass hpass)
  late hthread := by
    obtain ⟨hold,hsame⟩ := hfresh hthread
    rw [hlate,hsame]
    exact h.late hold
  loop hacc' _ := (hacc hacc').2.2

theorem endPass_inv (hfull : s.device.ReadFull)
    (hacc : s.isAccepting = true → s.device.readBytesHeld = [])
    (hunread : s.device.readBytesHeld ≠ [] → incomingData.Meets s.device.activeEvents)
    (hquiet : Quiet s.calls s.base
      (fun mask => mask.Meets s.prevActiveEvents ∧ mask ∉ s.late))
    (halive : s.device.activeEvents &&& lasting = 0)
    (hlate : s.device.activeEvents = s.prevActiveEvents →
      ∀ mask ∈ s.late, ¬ mask.Meets s.prevActiveEvents) : s.endPass.Inv := by
  unfold SocketLoop.endPass
  split_ifs with hchanged
  · obtain ⟨hnew,hactive⟩ := hquiet.processWaitLists
    refine notify_inv hfull ?_ ?_ ?_ fun _ => ?_
    · rintro (hnext | hnext | hl)
      · cases hnext
      · cases hnext
      · exact hacc hl
    · rw [hactive]
      exact hunread
    · rw [hactive]
      exact hnew
    · rw [hactive]
      exact halive
  · rw [not_not] at hchanged
    refine ⟨hfull,trivial,fun hor => hacc (hor.resolve_left Bool.false_ne_true),fun _ => hunread,?_,
      fun _ => halive,nofun,nofun⟩
    refine (hquiet.mono fun mask hm => ?_).congr rfl rfl
    have hm : mask.Meets s.device.activeEvents := by simpa [Watched,SocketPc.inPass] using hm
    rw [hchanged] at hm
    exact ⟨hm,fun hmem => hlate hchanged mask hmem hm⟩

theorem Inv.not_accepting (h : s.Inv) (hpass : s.thread.inPass = true)
    (hacc : s.thread ≠ .accepting) (hfailing : ∀ events, s.thread ≠ .failing events) :
    s.isAccepting = false := by
  rw [Bool.eq_false_iff]
  intro hl
  rcases h.loop hl hpass with hthread | ⟨events,hthread⟩
  · exact hacc hthread
  · exact hfailing events hthread

theorem Inv.moves (h : s.Inv) (hpass : s.thread.inPass = true) (hacc : s.isAccepting = false)
    (pc : SocketPc F) (hpc : pc.inPass = true) (hproper : pc.Proper) (hnot : pc ≠ .accepting)
    (device : AsyncIoDevice α) (hfull : device.ReadFull)
    (hactive : device.activeEvents = s.device.activeEvents) (block : Block α)
    (canReadSocket canWriteSocket : Bool) :
    Inv { s with device, block, canReadSocket, canWriteSocket, thread := pc } := by
  refine h.inside hpass hpc hproper hfull hactive (fun hl => ?_) rfl rfl rfl rfl
    fun hthread => absurd hthread hnot
  have hl : s.isAccepting = true := hl
  rw [hacc] at hl
  cases hl

theorem addToReadBuffer_full {d : AsyncIoDevice α} (h : d.ReadFull) (p params : List α) :
    (d.addToReadBuffer p params).ReadFull := (AsyncIoDevice.addToReadBuffer_bytes p params h).2

theorem Inv.processTcpSendRecvErrno (h : s.Inv) (hpass : s.thread.inPass = true)
    (hacc : s.isAccepting = false) (error : SocketError)
    (hheld : (LoopResult.failed error : LoopResult α).endsTcp = true →
      s.device.readBytesHeld = []) : (s.processTcpSendRecvErrno error).Inv := by
  have hleft := SocketPc.not_isLeft_of_inPass hpass
  unfold SocketLoop.processTcpSendRecvErrno
  dsimp only
  cases error with
  | other =>
    rw [if_pos (by decide)]
    exact h.moves hpass hacc (.failing _) rfl (getSocketEvents_lasting .other) nofun s.device h.full rfl _ _ _
  | connReset =>
    rw [if_neg (by decide)]
    exact h.exitWith hleft (getSocketEvents_lasting .connReset) (hheld rfl)
  | connAborted =>
    rw [if_neg (by decide)]
    exact h.exitWith hleft (getSocketEvents_lasting .connAborted) (hheld rfl)
  | timedOut =>
    rw [if_neg (by decide)]
    exact h.exitWith hleft (getSocketEvents_lasting .timedOut) (hheld rfl)

theorem Inv.receive (h : s.Inv) (hthread : s.thread = .receiving)
    (hcareful : s.kind = .tcp → s.receives = true → result.endsTcp = true →
      s.device.readBytesHeld = []) (hs : s.receive result = some s') : s'.Inv := by
  have hpass : s.thread.inPass = true := by rw [hthread]; rfl
  have hacc := h.not_accepting hpass (by rw [hthread]; nofun) (by rw [hthread]; nofun)
  have hstay : ∀ (device : AsyncIoDevice α) (canReadSocket : Bool), device.ReadFull →
      device.activeEvents = s.device.activeEvents → Inv { s with device, canReadSocket } := by
    intro device canReadSocket hfull hactive
    have hmoved := h.moves hpass hacc s.thread hpass h.proper (by rw [hthread]; nofun)
      device hfull hactive s.block canReadSocket s.canWriteSocket
    exact hmoved
  unfold SocketLoop.receive at hs
  split_ifs at hs with hreceives
  · split at hs
    · cases hs
      exact h.moves hpass hacc .reading rfl trivial nofun s.device h.full rfl _ _ _
    · split_ifs at hs
      cases hs
      exact hstay _ _ (addToReadBuffer_full h.full _ _) (AsyncIoDevice.addToReadBuffer_events _ _ _)
    · cases hs
      exact hstay _ _ h.full rfl
    · next hkind =>
      cases hs
      exact h.exitWith (SocketPc.not_isLeft_of_inPass hpass) tcpDisconnected_lasting
        (hcareful hkind hreceives rfl)
    · next error hkind =>
      cases hs
      exact h.processTcpSendRecvErrno hpass hacc error (hcareful hkind hreceives)
    · split_ifs at hs
      cases hs
      exact hstay _ _ (addToReadBuffer_full h.full _ _) (AsyncIoDevice.addToReadBuffer_events _ _ _)
    · cases hs
      exact hstay _ _ h.full rfl
    · cases hs
      exact h.moves hpass hacc (.failing _) rfl (getSocketEvents_lasting .other) nofun s.device h.full rfl _ _ _
    · cases hs
  · cases hs
    exact h.moves hpass hacc .sending rfl trivial nofun s.device h.full rfl _ _ _

theorem Inv.sslRead (h : s.Inv) (hthread : s.thread = .reading) (hs : s.sslRead result = some s') :
    s'.Inv := by
  have hpass : s.thread.inPass = true := by rw [hthread]; rfl
  have hacc := h.not_accepting hpass (by rw [hthread]; nofun) (by rw [hthread]; nofun)
  cases result with
  | received p params =>
    simp only [SocketLoop.sslRead] at hs
    split_ifs at hs
    cases hs
    exact h.moves hpass hacc .receiving rfl trivial nofun _ (addToReadBuffer_full h.full _ _)
      (AsyncIoDevice.addToReadBuffer_events _ _ _) _ _ _
  | wantRead =>
    cases hs
    exact h.moves hpass hacc .receiving rfl trivial nofun s.device h.full rfl _ _ _
  | wantWrite =>
    cases hs
    exact h.moves hpass hacc .receiving rfl trivial nofun s.device h.full rfl _ _ _
  | disconnected =>
    cases hs
    exact h.moves hpass hacc (.failing _) rfl tcpDisconnected_lasting nofun s.device h.full rfl _ _ _
  | failed error =>
    cases hs
    exact h.moves hpass hacc (.failing _) rfl (getSocketEvents_lasting error) nofun s.device h.full rfl _ _ _
  | _ => cases hs

theorem Inv.takeBlock (h : s.Inv) (hpass : s.thread.inPass = true) (hacc : s.isAccepting = false)
    (hthread : s.thread ≠ .accepting) :
    s.takeBlock.Inv ∧ s.takeBlock.device.readBytesHeld = s.device.readBytesHeld := by
  unfold SocketLoop.takeBlock
  split_ifs
  · have hframed := BufferedRun.getNextWriteBlock_framed s.device s.block
    have hmoved := h.moves hpass hacc s.thread hpass h.proper hthread _ (hframed.full h.full)
      (s.device.getNextWriteBlock_events s.block) (s.device.getNextWriteBlock s.block).1
      s.canReadSocket s.canWriteSocket
    exact ⟨hmoved,hframed.held⟩
  · exact ⟨h,rfl⟩

theorem takeBlock_same (s : SocketLoop F α H) :
    s.takeBlock.thread = s.thread ∧ s.takeBlock.isAccepting = s.isAccepting ∧
      s.takeBlock.kind = s.kind ∧ s.takeBlock.prevActiveEvents = s.prevActiveEvents ∧
      s.takeBlock.late = s.late := by
  unfold takeBlock
  split_ifs
  · exact ⟨rfl,rfl,rfl,rfl,rfl⟩
  · exact ⟨rfl,rfl,rfl,rfl,rfl⟩

theorem Inv.updated_endPass (h : s.Inv) (hpass : s.thread.inPass = true)
    (hacc : s.isAccepting = false)
    (hlate : s.updated.device.activeEvents = s.prevActiveEvents →
      ∀ mask ∈ s.late, ¬ mask.Meets s.prevActiveEvents) : s.updated.endPass.Inv := by
  obtain ⟨hlasting,hincoming⟩ := s.device.update_events
  refine endPass_inv h.full (fun hl => ?_) (fun hheld => hincoming (h.full.not_isEmpty hheld)) ?_ ?_
    hlate
  · have hl : s.isAccepting = true := hl
    rw [hacc] at hl
    cases hl
  · exact (h.quiet.mono fun mask hm => (watched_inPass hpass mask).mpr hm).congr rfl rfl
  · show s.device.updateReadWriteBufferEvents.activeEvents &&& lasting = 0
    rw [hlasting]
    exact h.alive (SocketPc.not_isLeft_of_inPass hpass)

theorem Inv.send (h : s.Inv) (hthread : s.thread = .sending) (hcareful : s.Careful (.thread result))
    (hs : s.send result = some s') : s'.Inv := by
  have hpass : s.thread.inPass = true := by rw [hthread]; rfl
  have hacc := h.not_accepting hpass (by rw [hthread]; nofun) (by rw [hthread]; nofun)
  simp only [Careful,hthread] at hcareful
  obtain ⟨hleaves,hends⟩ := hcareful
  obtain ⟨htaken,hheld⟩ := h.takeBlock hpass hacc (by rw [hthread]; nofun)
  obtain ⟨hsthread,hsacc,hskind,hsprev,hslate⟩ := s.takeBlock_same
  rw [← hheld,← hskind] at hleaves
  rw [← hsprev,← hslate] at hends
  unfold SocketLoop.send at hs
  generalize s.takeBlock = t at *
  dsimp only at hs
  have htpass : t.thread.inPass = true := by rw [hsthread]; exact hpass
  have htacc : t.isAccepting = false := by rw [hsacc]; exact hacc
  have hnot : t.thread ≠ .accepting := by
    rw [hsthread,hthread]
    nofun
  have hstay : ∀ (block : Block α) (canWriteSocket : Bool),
      Inv { t with block, canWriteSocket } := fun block canWriteSocket =>
    htaken.moves htpass htacc t.thread htpass htaken.proper hnot t.device htaken.full rfl block
      t.canReadSocket canWriteSocket
  split_ifs at hs with hsends
  · split at hs
    · cases hs
      exact htaken.moves htpass htacc .writing rfl trivial nofun t.device htaken.full rfl _ _ _
    · cases hs
      exact hstay _ _
    · cases hs
      exact hstay _ _
    · next error hkind =>
      cases hs
      exact htaken.processTcpSendRecvErrno htpass htacc error (hleaves hkind hsends)
    · cases hs
      exact hstay _ _
    · cases hs
      exact hstay _ _
    · cases hs
      exact htaken.moves htpass htacc (.failing _) rfl (getSocketEvents_lasting .other) nofun t.device htaken.full rfl _ _ _
    · cases hs
  · cases hs
    exact htaken.updated_endPass htpass htacc (hends (Bool.eq_false_iff.mpr hsends))

theorem Inv.sslWrite (h : s.Inv) (hthread : s.thread = .writing) (hs : s.sslWrite result = some s') :
    s'.Inv := by
  have hpass : s.thread.inPass = true := by rw [hthread]; rfl
  have hacc := h.not_accepting hpass (by rw [hthread]; nofun) (by rw [hthread]; nofun)
  cases result with
  | sent size =>
    cases hs
    exact h.moves hpass hacc .sending rfl trivial nofun s.device h.full rfl _ _ _
  | wantRead =>
    cases hs
    exact h.moves hpass hacc .sending rfl trivial nofun s.device h.full rfl _ _ _
  | wantWrite =>
    cases hs
    exact h.moves hpass hacc .sending rfl trivial nofun s.device h.full rfl _ _ _
  | failed error =>
    cases hs
    exact h.moves hpass hacc (.failing _) rfl (getSocketEvents_lasting error) nofun s.device h.full rfl _ _ _
  | _ => cases hs

theorem Inv.acceptLoop (h : s.Inv) (hthread : s.thread = .accepting)
    (hs : s.acceptLoop result = some s') : s'.Inv := by
  have hpass : s.thread.inPass = true := by rw [hthread]; rfl
  obtain ⟨hlate,hacc⟩ := h.late hthread
  have hheld : s.device.readBytesHeld = [] := h.early (Or.inr hacc)
  have halive : s.device.activeEvents &&& lasting = 0 :=
    h.alive (SocketPc.not_isLeft_of_inPass hpass)
  have hquiet : Quiet s.calls s.base
      (fun mask => mask.Meets s.prevActiveEvents ∧ mask ∉ s.late) :=
    h.quiet.mono fun mask hm => (watched_inPass hpass mask).mpr hm
  have hnone : ∀ P : Events → Prop, ∀ mask ∈ s.late, P mask := by
    rw [hlate]
    nofun
  unfold SocketLoop.acceptLoop at hs
  split_ifs at hs
  · split at hs
    · cases hs
      exact h.inside hpass hpass h.proper h.full rfl (fun hl => ⟨hl,rfl,Or.inl hthread⟩) rfl rfl rfl
        rfl fun _ => ⟨hthread,rfl⟩
    · cases hs
      exact h.inside hpass hpass h.proper h.full rfl (fun hl => ⟨hl,rfl,Or.inl hthread⟩) rfl rfl rfl
        rfl fun _ => ⟨hthread,rfl⟩
    · cases hs
      exact h.inside hpass rfl (getSocketEvents_lasting .other) h.full rfl (fun hl => ⟨hl,rfl,Or.inr ⟨_,rfl⟩⟩) rfl rfl rfl
        rfl nofun
    · cases hs
  · cases hs
    exact endPass_inv h.full (fun _ => hheld) (fun hne => absurd hheld hne) hquiet halive
      fun _ => hnone _
  · cases hs
    refine endPass_inv h.full (fun _ => hheld) (fun hne => absurd hheld hne) (hquiet.congr rfl rfl) ?_
      fun _ => hnone _
    show (s.device.activeEvents ||| SocketEvent.incomingConnection) &&& lasting = 0
    rw [Events.or_lasting (by decide),halive]

theorem Inv.threadStep (h : s.Inv) (hcareful : s.Careful (.thread result))
    (hs : s.threadStep result = some s') : s'.Inv := by
  unfold SocketLoop.threadStep at hs
  split at hs
  · next hthread => exact h.start hthread hs
  · next hthread => exact h.suspendLoop hthread hs
  · next hthread => exact h.connectLoop hthread hs
  · next hthread => exact h.sslHandshakeLoop hthread hs
  · next hthread =>
    split at hs
    · cases hs
      exact h.fail (by rw [hthread]; rfl) (by rw [hthread]; rfl)
    · cases hs
  · next hthread =>
    cases hs
    exact h.lock hthread
  · next hthread =>
    simp only [Careful,hthread] at hcareful
    exact h.receive hthread hcareful hs
  · next hthread => exact h.send hthread hcareful hs
  · next hthread => exact h.sslRead hthread hs
  · next hthread => exact h.sslWrite hthread hs
  · next hthread => exact h.acceptLoop hthread hs
  · next events next hthread =>
    cases hs
    exact h.setting hthread
  · next events hthread =>
    simp only [Careful,hthread] at hcareful
    cases hs
    exact h.failing hthread hcareful
  · next wait next hthread =>
    cases hs
    exact h.notified hthread
  · cases hs

theorem Inv.locked (h : s'.Inv) {t : SocketLoop F α H} (hs : s.locked s' = some t) : t.Inv := by
  unfold SocketLoop.locked at hs
  split_ifs at hs
  cases hs
  exact h

theorem Inv.act (h : s.Inv) (a : SocketAction F α) (hcareful : s.Careful a)
    (hs : s.act a = some s') : s'.Inv := by
  have hsame : ∀ t : SocketLoop F α H, AsyncIoDevice.Spares s.device t.device →
      t.thread = s.thread → t.calls = s.calls → t.waits = s.waits → t.isAccepting = s.isAccepting →
      t.prevActiveEvents = s.prevActiveEvents → t.late = s.late → t.Inv :=
    fun t hd h1 h2 h3 h4 h5 h6 => h.spares hd h1 h2 h3 h4 h5 h6
  cases a with
  | «open» kind mode isIncoming isSuspended => exact h.open hs
  | connect =>
    refine Inv.locked ?_ hs
    unfold SocketLoop.connect
    split_ifs
    · exact hsame _ (.refl _) rfl rfl rfl rfl rfl rfl
    · exact h
  | listen =>
    refine Inv.locked ?_ hs
    unfold SocketLoop.listen
    split_ifs
    · exact hsame _ (.refl _) rfl rfl rfl rfl rfl rfl
    · exact h
  | accept => exact h.accept.locked hs
  | read size =>
    exact (hsame (s.read size) (s.device.bufferedRead_spares size) rfl rfl rfl rfl rfl rfl).locked hs
  | write p params =>
    exact (hsame (s.write p params) (s.device.bufferedWrite_spares p params)
      rfl rfl rfl rfl rfl rfl).locked hs
  | setReadBufferSize size result =>
    exact (hsame (s.setReadBufferSize size result) (s.device.setReadBufferSize_spares size result)
      rfl rfl rfl rfl rfl rfl).locked hs
  | setWriteBufferSize size result =>
    exact (hsame (s.setWriteBufferSize size result) (s.device.setWriteBufferSize_spares size result)
      rfl rfl rfl rfl rfl rfl).locked hs
  | setReadBlockSize size =>
    exact (hsame (s.setReadBlockSize size) (.refl _) rfl rfl rfl rfl rfl rfl).locked hs
  | setOptions mode =>
    simp only [SocketLoop.act,SocketLoop.setOptions] at hs
    split at hs
    · cases hs
    · split at hs
      · cases hs
      · cases hs
        exact hsame _ ⟨id,id,.refl _,fun _ _ => id⟩ rfl rfl rfl rfl rfl rfl
  | unsuspend =>
    exact (hsame { s with suspended := false, woken := true } (.refl _)
      rfl rfl rfl rfl rfl rfl).locked hs
  | close =>
    refine Inv.locked ?_ hs
    unfold SocketLoop.close
    split_ifs
    · exact hsame _ (.refl _) rfl rfl rfl rfl rfl rfl
    · exact h
  | call request => exact h.call hs
  | advance i => exact (h.advance hs).1
  | timeout i => exact h.timeout hs
  | select readable writable => exact h.select hs
  | thread result => exact h.threadStep hcareful hs

theorem Inv.act_left (h : s.Inv) (hleft : s.thread.isLeft = true) {a : SocketAction F α}
    (ha : a.opens = false) (hs : s.act a = some s') :
    s'.device.activeEvents &&& lasting = s.device.activeEvents &&& lasting := by
  have hlocked : ∀ t : SocketLoop F α H, AsyncIoDevice.Spares s.device t.device →
      s.locked t = some s' →
        s'.device.activeEvents &&& lasting = s.device.activeEvents &&& lasting := by
    intro t hd ht
    unfold SocketLoop.locked at ht
    split_ifs at ht
    cases ht
    exact hd.events.stays
  cases a with
  | «open» kind mode isIncoming isSuspended => cases ha
  | connect =>
    refine hlocked s.connect ?_ hs
    unfold SocketLoop.connect
    split_ifs
    · exact .refl _
    · exact .refl _
  | listen =>
    refine hlocked s.listen ?_ hs
    unfold SocketLoop.listen
    split_ifs
    · exact .refl _
    · exact .refl _
  | accept => exact hlocked s.accept s.accept_spares hs
  | read size => exact hlocked (s.read size) (s.device.bufferedRead_spares size) hs
  | write p params => exact hlocked (s.write p params) (s.device.bufferedWrite_spares p params) hs
  | setReadBufferSize size result =>
    exact hlocked (s.setReadBufferSize size result)
      (s.device.setReadBufferSize_spares size result) hs
  | setWriteBufferSize size result =>
    exact hlocked (s.setWriteBufferSize size result)
      (s.device.setWriteBufferSize_spares size result) hs
  | setReadBlockSize size => exact hlocked (s.setReadBlockSize size) (.refl _) hs
  | setOptions mode =>
    simp only [SocketLoop.act,SocketLoop.setOptions] at hs
    split at hs
    · cases hs
    · split at hs
      · cases hs
      · cases hs
        rfl
  | unsuspend => exact hlocked { s with suspended := false, woken := true } (.refl _) hs
  | close =>
    refine hlocked s.close ?_ hs
    unfold SocketLoop.close
    split_ifs
    · exact .refl _
    · exact .refl _
  | call request =>
    simp only [SocketLoop.act,SocketLoop.call] at hs
    split_ifs at hs
    cases hs
    rfl
  | advance i => rw [(h.advance hs).2]
  | timeout i =>
    simp only [SocketLoop.act,SocketLoop.timeout] at hs
    split at hs
    · cases hs
      rfl
    · cases hs
  | select readable writable =>
    simp only [SocketLoop.act,SocketLoop.select] at hs
    split_ifs at hs with hdisabled
    rw [not_or,Bool.not_eq_false] at hdisabled
    rw [SocketPc.eq_waiting hdisabled.1] at hleft
    cases hleft
  | thread result =>
    simp only [SocketLoop.act,SocketLoop.threadStep] at hs
    rcases SocketPc.left_cases hleft with hthread | ⟨wait,hthread⟩
    · rw [hthread] at hs
      cases hs
    · rw [hthread] at hs
      cases hs
      have hactive : (s.notify (s.base.notified wait) .exit).device.activeEvents =
          (s.base.notified wait).base.activeEvents := by
        unfold SocketLoop.notify
        split
        · rfl
        · rfl
      rw [hactive,(h.quiet.notified wait).2]
      rfl

theorem Inv.step (h : s.Inv) (hreached : s.reached = s.device.activeEvents &&& lasting)
    (a : SocketAction F α) (hcareful : s.Careful a) (hs : s.step a = some s') :
    s'.Inv ∧ s'.reached = s'.device.activeEvents &&& lasting := by
  obtain ⟨t,ht,rfl⟩ := Option.map_eq_some_iff.mp hs
  have hinv := h.act a hcareful ht
  refine ⟨⟨hinv.full,hinv.proper,hinv.early,hinv.unread,hinv.quiet.congr rfl rfl,hinv.alive,
    hinv.late,hinv.loop⟩,?_⟩
  show (if a.opens then 0 else s.reached) ||| t.device.activeEvents &&& lasting = _
  split_ifs with ha
  · simp
  cases hleft : s.thread.isLeft with
  | false =>
    rw [hreached,h.alive hleft]
    simp
  | true =>
    rw [hreached,h.act_left hleft (Bool.eq_false_iff.mpr ha) ht]
    simp

/-- Where each step is careful, the events are right at the end of every pass, and of the thread. -/
theorem events_sound (kind : SocketKind) (readBlockSize : ℕ)
    (readBufferSize writeBufferSize : ℕ+) (as : List (SocketAction F α))
    (h : Run.Along step Careful
      (initial kind readBlockSize readBufferSize writeBufferSize : SocketLoop F α H) as) :
    Run.Always step Sound
      (initial kind readBlockSize readBufferSize writeBufferSize : SocketLoop F α H) as := by
  refine Run.always_of_along
    (I := fun s => s.Inv ∧ s.reached = s.device.activeEvents &&& lasting)
    (fun s hs => hs.1.sound hs.2) ?_ ⟨initial_inv,by simp [initial,AsyncIoDevice.ofSizes]⟩ h
  intro s a s' hs hcareful hstep
  exact hs.1.step hs.2 a hcareful hstep

/-- Data that is read before the connection ends. -/
theorem events_sound_read :
    Run.Always step Sound (initial .tcp 16 16 16 : SocketLoop Unit ℕ (.counting ℕ))
      [.open .tcp ⟨false,false,false,nofun⟩ true false,.thread .wouldBlock,.select true false,
        .thread .wouldBlock,.thread (.received [7] []),.thread .wouldBlock,.thread .wouldBlock,
        .thread .wouldBlock,.read 5,.select true false,.thread .wouldBlock,
        .thread .disconnected] := by
  refine events_sound .tcp 16 16 16 _ ?_
  exact .cons rfl trivial <| .cons rfl trivial <| .cons rfl trivial <|
    .cons rfl trivial <| .cons rfl nofun <| .cons rfl nofun <|
    .cons rfl nofun <| .cons rfl ⟨nofun,nofun⟩ <| .cons rfl trivial <|
    .cons rfl trivial <| .cons rfl trivial <|
    .cons rfl (fun _ _ _ => rfl) trivial

/-- The disconnect that follows data in one pass leaves it without its event. -/
theorem not_sound_disconnected :
    ¬ Run.Always step Sound (initial .tcp 16 16 16 : SocketLoop Unit ℕ (.counting ℕ))
      [.open .tcp ⟨false,false,false,nofun⟩ true false,.thread .wouldBlock,.select true false,
        .thread .wouldBlock,.thread (.received [7] []),.thread .disconnected] := by
  intro h
  have hunread := (h.last rfl).unread (Or.inr rfl)
  revert hunread
  decide

/-- A wait for `WriteBufferEmpty`, which is active in front of the pass and behind it. -/
example : ¬ Run.Always step Sound (initial .ssl 16 16 16 : SocketLoop Unit ℕ (.counting ℕ))
    [.open .ssl ⟨false,false,false,nofun⟩ true false,.thread .wouldBlock,.thread .wouldBlock,
      .thread .completed,.select false false,.thread .wouldBlock,.thread .wouldBlock,
      .thread .wantRead,.thread .wouldBlock,.thread .wouldBlock,.select true false,
      .thread .wouldBlock,.thread .wouldBlock,.call (.wait 8 ()),.advance 0,.advance 0,
      .thread .wantRead,.thread .wouldBlock,.thread .wouldBlock] := by
  intro h
  have hwaits := (h.last rfl).waits (Or.inl rfl)
  revert hwaits
  decide

end SocketLoop
end Jancy.Io
