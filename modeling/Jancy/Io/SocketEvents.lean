import Jancy.Io.AsyncIoBaseRun
import Jancy.Io.AsyncIoDeviceRun
import Jancy.Io.SocketLoop

/-! What the calls of users, and the passes of the thread, do to the events of a device. -/
namespace Jancy.Io

open AsyncIoDeviceEvent SocketLoop

/-- Events that may have been switched off, none of which lasts. -/
structure Events.Fades (old new : Events) : Prop where
  within : ∀ mask : Events, mask.Meets new → mask.Meets old
  stays : new &&& lasting = old &&& lasting

namespace Events

variable {a b m mask : Events}

theorem Fades.refl (a : Events) : Fades a a := ⟨fun _ => id,rfl⟩

theorem Fades.clear (hm : ~~~ m &&& lasting = lasting) : Fades a (a &&& ~~~ m) where
  within mask h hz := by
    refine h ?_
    rw [← BitVec.and_assoc,hz]
    simp
  stays := by rw [BitVec.and_assoc,hm]

theorem Fades.trans {c' : Events} (h : Fades a b) (h' : Fades b c') : Fades a c' :=
  ⟨fun mask hm => h.within mask (h'.within mask hm),h'.stays.trans h.stays⟩

theorem Meets.clear (h : mask.Meets a) (hm : mask &&& ~~~ m = mask) : mask.Meets (a &&& ~~~ m) := by
  intro hz
  refine h ?_
  rwa [BitVec.and_comm a,← BitVec.and_assoc,hm] at hz

theorem Meets.or_left (h : mask.Meets a) (b : Events) : mask.Meets (a ||| b) := by
  intro hz
  rw [BitVec.and_or_distrib_left] at hz
  exact h (BitVec.or_eq_zero_iff.mp hz).1

theorem meets_or_self (a : Events) (hm : m ≠ 0) : m.Meets (a ||| m) := by
  intro hz
  rw [BitVec.and_or_distrib_left,BitVec.and_self] at hz
  exact hm (BitVec.or_eq_zero_iff.mp hz).2

theorem or_lasting (hm : m &&& lasting = 0) : (a ||| m) &&& lasting = a &&& lasting := by
  rw [BitVec.and_comm (a ||| m),BitVec.and_or_distrib_left,BitVec.and_comm lasting m,hm,
    BitVec.and_comm]
  simp

theorem not_all_of_meets (ha : a &&& lasting = 0) (hm : m.Meets lasting) : a &&& m ≠ m := by
  intro h
  refine hm ?_
  rw [← h,BitVec.and_comm a,BitVec.and_assoc,ha]
  simp

end Events

namespace AsyncIoDevice

variable {α : Type} {d d' : AsyncIoDevice α}

theorem ReadFull.not_isEmpty (hfull : d.ReadFull) (hheld : d.readBytesHeld ≠ []) :
    d.readBuffer.isEmpty = false := by
  rw [Bool.eq_false_iff,Ne,CircularBuffer.isEmpty_iff]
  intro hnil
  have hov : d.readOverflowBuffer ≠ [] := by
    intro hov
    exact hheld (by rw [readBytesHeld,hnil,hov,List.nil_append])
  have hlen := hfull hov
  have hpos := d.readBuffer.positive
  simp only [CircularBuffer.isFull,hnil,List.length_nil,decide_eq_true_eq] at hlen
  omega

/-- What a call of a user leaves of the data that was received and of the events. -/
structure Spares (d d' : AsyncIoDevice α) : Prop where
  full : d.ReadFull → d'.ReadFull
  held : d.readBytesHeld = [] → d'.readBytesHeld = []
  events : Events.Fades d.activeEvents d'.activeEvents
  unread : d.ReadFull → d'.readBytesHeld ≠ [] → incomingData.Meets d.activeEvents →
    incomingData.Meets d'.activeEvents

theorem Spares.refl (d : AsyncIoDevice α) : Spares d d :=
  ⟨id,id,.refl _,fun _ _ => id⟩

theorem WriteFramed.spares (h : BufferedRun.WriteFramed d d')
    (hevents : d'.activeEvents = d.activeEvents ∨
      d'.activeEvents = d.activeEvents &&& ~~~ writeBufferEmpty) : Spares d d' := by
  refine ⟨h.full,fun hheld => by rw [h.held,hheld],?_,fun _ _ hmeets => ?_⟩
  · rcases hevents with heq | heq
    · rw [heq]
      exact .refl _
    · rw [heq]
      exact .clear (by decide)
  · rcases hevents with heq | heq
    · rwa [heq]
    · rw [heq]
      exact hmeets.clear (by decide)

theorem bufferedWrite_spares (d : AsyncIoDevice α) (p params : List α) :
    Spares d (d.bufferedWrite p params).2 := by
  unfold bufferedWrite
  split_ifs
  · exact .refl d
  · refine WriteFramed.spares (BufferedRun.addToWriteBuffer_framed d p params) ?_
    unfold addToWriteBuffer
    by_cases hfull : d.writeBuffer.isFull = true
    · rw [if_pos hfull]
      exact Or.inl rfl
    · rw [if_neg hfull]
      exact ite_eq_or_eq _ _ _

theorem setWriteBufferSize_spares (d : AsyncIoDevice α) (size : ℕ+) (result : Bool) :
    Spares d (d.setWriteBufferSize size result) := by
  refine WriteFramed.spares (BufferedRun.setWriteBufferSize_framed d size result) (Or.inl ?_)
  unfold setWriteBufferSize
  split_ifs
  · rfl
  · rfl

theorem setReadBufferSize_spares (d : AsyncIoDevice α) (size : ℕ+) (result : Bool) :
    Spares d (d.setReadBufferSize size result) := by
  unfold setReadBufferSize
  split_ifs
  · exact .refl d
  · have hdata : (resized d.readBuffer.clear size result).data = [] :=
      BufferedRun.resized_data _ size result rfl
    exact ⟨fun _ hov => absurd rfl hov,fun _ => by simp [readBytesHeld,hdata],.clear (by decide),
      fun _ hheld => absurd (by simp [readBytesHeld,hdata]) hheld⟩

theorem bufferedRead_spares (d : AsyncIoDevice α) (size : ℕ) :
    Spares d (d.bufferedRead size).2 := by
  cases ho : d.isOpen with
  | false =>
    unfold bufferedRead
    rw [if_pos ho]
    exact .refl d
  | true =>
    obtain ⟨-,-,-,hheld,hmain,hov,-,-,-,-⟩ := BufferedRun.bufferedRead_open ho size
    have hfull : d.ReadFull → (d.bufferedRead size).2.ReadFull := by
      intro hfull
      obtain ⟨-,-,hrest⟩ := readBytes_spec hfull (d.takeReadMeta size).2.1
      unfold ReadFull
      rw [hmain,hov]
      exact hrest
    have hevents : (d.bufferedRead size).2.readBuffer.isEmpty = false →
        incomingData.Meets d.activeEvents →
          incomingData.Meets (d.bufferedRead size).2.activeEvents := by
      intro hempty hmeets
      rw [hmain] at hempty
      unfold bufferedRead
      rw [if_neg (by simp [ho])]
      dsimp only
      rw [hempty,Bool.false_and,if_neg (by simp)]
      split_ifs
      · exact hmeets
      · exact hmeets.clear (by decide)
    refine ⟨hfull,fun hnil => ?_,?_,fun hf hne => hevents ((hfull hf).not_isEmpty hne)⟩
    · have hov' : d.readOverflowBuffer = [] := (List.append_eq_nil_iff.mp hnil).2
      have hspec := (readBytes_spec (d := d) (fun h => absurd hov' h)
        (d.takeReadMeta size).2.1).2.1
      rw [hheld,hspec,hnil,List.drop_nil]
    · unfold bufferedRead
      rw [if_neg (by simp [ho])]
      dsimp only
      split_ifs
      · exact .clear (by decide)
      · exact Events.Fades.trans (.clear (by decide)) (.clear (by decide))
      · exact .refl _
      · exact .clear (by decide)

theorem addToReadBuffer_events (d : AsyncIoDevice α) (p params : List α) :
    (d.addToReadBuffer p params).activeEvents = d.activeEvents := by
  unfold addToReadBuffer
  by_cases hnone : p = [] ∧ d.mode.keepReadBlockSize = false
  · rw [if_pos hnone]
  · rw [if_neg hnone]

theorem getNextWriteBlock_events (d : AsyncIoDevice α) (block : Block α) :
    (d.getNextWriteBlock block).2.activeEvents = d.activeEvents := by
  unfold getNextWriteBlock
  split_ifs
  · rfl
  split
  · rfl
  · dsimp only
    split_ifs
    · rfl
    · rfl

theorem update_events (d : AsyncIoDevice α) :
    d.updateReadWriteBufferEvents.activeEvents &&& lasting = d.activeEvents &&& lasting ∧
      (d.readBuffer.isEmpty = false →
        incomingData.Meets d.updateReadWriteBufferEvents.activeEvents) := by
  unfold updateReadWriteBufferEvents
  dsimp only
  constructor
  · split_ifs <;> simp only [Events.or_lasting (m := readBufferFull) (by decide),
      Events.or_lasting (m := incomingData) (by decide),
      Events.or_lasting (m := writeBufferEmpty) (by decide)]
  · intro hempty
    have hheld : ¬ (d.readBuffer.isEmpty && d.readMetaList.isEmpty) = true := by simp [hempty]
    simp only [if_neg hheld]
    split_ifs
    · exact (Events.meets_or_self _ (by decide)).or_left _
    · exact (Events.meets_or_self _ (by decide)).or_left _
    · exact Events.meets_or_self _ (by decide)
    · exact Events.meets_or_self _ (by decide)

end AsyncIoDevice
end Jancy.Io

/-! The waits of a socket against the events that they have been tested for. -/
namespace Jancy.Io

variable {F : Type} {H : HandleTable ℕ}

/-- Where a call of a user may stand. -/
def WaitPc.isPublic : WaitPc F → Bool
  | .entered .open | .entered (.setEvents _) | .entered .cancelAllWaits | .notifying _ => false
  | _ => true

/-- No wait is registered for what is `watched`, and the blocking calls for it have been let go. -/
structure Quiet (calls : List (WaitPc F)) (b : AsyncIoBase F H) (watched : Events → Prop) :
    Prop where
  users : ∀ pc ∈ calls, pc.isPublic = true
  waits : ∀ w ∈ b.asyncWaitList, ¬ watched w.mask
  blocked : ∀ (i : ℕ) mask, calls[i]? = some (.blocked mask) →
    ∃ x, ⟨i,mask,x⟩ ∈ b.syncWaitList ∧ (watched mask → x = true)

theorem WaitPc.registers_of_not_takesLock {pc : WaitPc F} (h : pc.takesLock = false) :
    pc.registers = [] := by
  unfold WaitPc.takesLock at h
  split at h
  · rfl
  · rfl
  · rfl
  · cases h

namespace Quiet

variable {calls : List (WaitPc F)} {b : AsyncIoBase F H} {watched watched' : Events → Prop}
  {i : ℕ} {pc : WaitPc F} {o : WaitOutcome F H} {mask : Events}

section

variable (h : Quiet calls b watched)

include h

theorem mono (hsub : ∀ mask, watched' mask → watched mask) :
    Quiet calls b watched' where
  users := h.users
  waits w hw hm := h.waits w hw (hsub _ hm)
  blocked i mask hi := by
    obtain ⟨x,hx,hsignaled⟩ := h.blocked i mask hi
    exact ⟨x,hx,fun hm => hsignaled (hsub mask hm)⟩

theorem congr {b' : AsyncIoBase F H} (hlist : b'.asyncWaitList = b.asyncWaitList)
    (hsync : b'.syncWaitList = b.syncWaitList) :
    Quiet calls b' watched where
  users := h.users
  waits := by
    rw [hlist]
    exact h.waits
  blocked := by
    rw [hsync]
    exact h.blocked

theorem call {request : WaitRequest F} (hrequest : (WaitPc.entered request).isPublic = true) :
    Quiet (calls ++ [.entered request]) b watched where
  users pc hpc := by
    rcases List.mem_append.mp hpc with hpc | hpc
    · exact h.users pc hpc
    · rwa [List.mem_singleton.mp hpc]
  waits := h.waits
  blocked i mask hi := by
    simp only [Calls.append_iff,reduceCtorEq,and_false,false_or] at hi
    exact h.blocked i mask hi

theorem set (hpc : calls[i]? = some pc) (hpublic : o.pc.isPublic = true)
    (hnew : ∀ mask, o.pc ≠ .blocked mask) (hwaits : ∀ w ∈ o.base.asyncWaitList, ¬ watched w.mask)
    (hsync : ∀ (j : ℕ) mask x, j ≠ i → ⟨j,mask,x⟩ ∈ b.syncWaitList →
      ∃ y, ⟨j,mask,y⟩ ∈ o.base.syncWaitList ∧ (x = true → y = true)) :
    Quiet (calls.set i o.pc) o.base watched where
  users pc hmem := by
    rcases List.mem_or_eq_of_mem_set hmem with hmem | rfl
    · exact h.users pc hmem
    · exact hpublic
  waits := hwaits
  blocked j mask hj := by
    rcases (Calls.set_iff hpc).mp hj with ⟨-,heq⟩ | ⟨hji,hj⟩
    · exact absurd heq.symm (hnew mask)
    · obtain ⟨x,hx,hsignaled⟩ := h.blocked j mask hj
      obtain ⟨y,hy,hxy⟩ := hsync j mask x hji hx
      exact ⟨y,hy,fun hm => hxy (hsignaled hm)⟩

theorem set_same (hpc : calls[i]? = some pc) (hpublic : o.pc.isPublic = true)
    (hnew : ∀ mask, o.pc ≠ .blocked mask) (hwaits : ∀ w ∈ o.base.asyncWaitList, ¬ watched w.mask)
    (hsync : o.base.syncWaitList = b.syncWaitList) :
    Quiet (calls.set i o.pc) o.base watched := by
  refine h.set hpc hpublic hnew hwaits fun j mask x _ hx => ⟨x,?_,id⟩
  rwa [hsync]

theorem addWait {f : F} (hpc : calls[i]? = some (.opened mask f))
    (hreg : ¬ mask.Meets b.activeEvents → ¬ watched mask) :
    Quiet (calls.set i (b.addWait i mask f).pc) (b.addWait i mask f).base watched := by
  unfold AsyncIoBase.addWait
  split_ifs with hm
  · exact h.set_same (o := ⟨b,.serving,_⟩) hpc rfl nofun h.waits rfl
  · refine h.set_same hpc rfl nofun (fun w hw => ?_) rfl
    rcases List.mem_append.mp hw with hw | hw
    · exact h.waits w hw
    · rw [List.mem_singleton.mp hw]
      exact hreg hm

theorem cancelWait {handle : Handle} (hpc : calls[i]? = some (.entered (.cancelWait handle))) :
    Quiet (calls.set i (b.cancelWait handle).pc) (b.cancelWait handle).base watched := by
  unfold AsyncIoBase.cancelWait
  split
  · exact h.set_same (o := ⟨b,.returned (.bool false),_⟩) hpc rfl nofun h.waits rfl
  · exact h.set_same hpc rfl nofun (fun w hw => h.waits w (List.mem_filter.mp hw).1) rfl

theorem blockingWait (hpc : calls[i]? = some (.entered (.blockingWait mask)))
    (hreg : ¬ mask.Meets b.activeEvents → ¬ watched mask) :
    Quiet (calls.set i (b.blockingWait i mask).pc) (b.blockingWait i mask).base watched := by
  unfold AsyncIoBase.blockingWait
  split_ifs with hm
  · exact h.set_same (o := ⟨b,.returned (.events _),_⟩) hpc rfl nofun h.waits rfl
  refine ⟨fun pc hmem => ?_,h.waits,fun j m hj => ?_⟩
  · rcases List.mem_or_eq_of_mem_set hmem with hmem | rfl
    · exact h.users pc hmem
    · rfl
  · rcases (Calls.set_iff hpc).mp hj with ⟨rfl,heq⟩ | ⟨-,hj⟩
    · cases heq
      exact ⟨false,by simp,fun hw => absurd hw (hreg hm)⟩
    · obtain ⟨x,hx,hsignaled⟩ := h.blocked j m hj
      exact ⟨x,List.mem_append_left _ hx,hsignaled⟩

theorem cancelAllWaits (hpc : calls[i]? = some pc) :
    Quiet (calls.set i .closing) b.cancelAllWaits.1 watched := by
  refine h.set (o := ⟨b.cancelAllWaits.1,.closing,[]⟩) hpc rfl nofun nofun fun j mask x _ hx => ?_
  exact ⟨true,List.mem_map.mpr ⟨_,hx,rfl⟩,fun _ => rfl⟩

theorem wake (hpc : calls[i]? = some pc) :
    Quiet (calls.set i (.awake mask)) (b.wake i) watched := by
  refine h.set (o := ⟨b.wake i,.awake mask,[]⟩) hpc rfl nofun h.waits fun j m x hji hx => ?_
  exact ⟨x,List.mem_map.mpr ⟨_,hx,by simp [hji]⟩,id⟩

theorem leaveWait (hpc : calls[i]? = some pc) :
    Quiet (calls.set i (b.leaveWait i mask).pc) (b.leaveWait i mask).base watched := by
  refine h.set hpc rfl nofun h.waits fun j m x hji hx => ?_
  exact ⟨x,List.mem_filter.mpr ⟨hx,by simpa using hji⟩,id⟩

theorem timeout (hpc : calls[i]? = some pc) :
    Quiet (calls.set i (.awake mask)) b watched :=
  h.set_same (o := ⟨b,.awake mask,[]⟩) hpc rfl nofun h.waits rfl

theorem advance (hpc : calls[i]? = some pc) (ho : b.advance i pc = some o)
    (hreg : ∀ mask ∈ pc.registers, ¬ mask.Meets b.activeEvents → ¬ watched mask) :
    Quiet (calls.set i o.pc) o.base watched ∧ o.base.activeEvents = b.activeEvents := by
  have hpublic := h.users pc (List.mem_of_getElem? hpc)
  cases pc with
  | entered request =>
    cases request with
    | «open» => cases hpublic
    | wait mask f =>
      cases ho
      refine ⟨h.set_same (o := ⟨b,b.wait mask f,[]⟩) hpc ?_ (fun m => ?_) h.waits rfl,rfl⟩
      · show (b.wait mask f).isPublic = true
        unfold AsyncIoBase.wait
        split_ifs
        · rfl
        · rfl
      · show b.wait mask f ≠ .blocked m
        unfold AsyncIoBase.wait
        split_ifs
        · rintro ⟨⟩
        · rintro ⟨⟩
    | cancelWait handle =>
      cases ho
      refine ⟨h.cancelWait hpc,?_⟩
      unfold AsyncIoBase.cancelWait
      split
      · rfl
      · rfl
    | blockingWait mask =>
      cases ho
      refine ⟨h.blockingWait hpc (hreg mask (List.mem_singleton_self mask)),?_⟩
      unfold AsyncIoBase.blockingWait
      split_ifs
      · rfl
      · rfl
    | setEvents events => cases hpublic
    | cancelAllWaits => cases hpublic
    | close =>
      cases ho
      exact ⟨h.cancelAllWaits hpc,rfl⟩
  | opened mask f =>
    cases ho
    refine ⟨h.addWait hpc (hreg mask (List.mem_singleton_self mask)),?_⟩
    unfold AsyncIoBase.addWait
    split_ifs
    · rfl
    · rfl
  | serving =>
    cases ho
    exact ⟨h.set_same (o := ⟨b,.returned (.handle (some 0)),[]⟩) hpc rfl (by rintro _ ⟨⟩)
      h.waits rfl,rfl⟩
  | notifying wait => cases hpublic
  | blocked mask =>
    simp only [AsyncIoBase.advance] at ho
    split_ifs at ho
    cases ho
    exact ⟨h.wake hpc,rfl⟩
  | awake mask =>
    cases ho
    exact ⟨h.leaveWait hpc,rfl⟩
  | closing =>
    cases ho
    refine ⟨h.set_same (o := ⟨{ b with isOpen := false },.returned .void,[]⟩) hpc rfl
      (by rintro _ ⟨⟩)
      h.waits rfl,rfl⟩
  | returned value => cases ho

theorem processWaitLists :
    Quiet calls b.processWaitLists.base (fun mask => mask.Meets b.activeEvents) ∧
      b.processWaitLists.base.activeEvents = b.activeEvents := by
  have hframe := AsyncIoBase.moveTriggered_framed (b := b) b.asyncWaitList []
    b.pendingAsyncWaitList b.asyncWaitMap []
  have hprompt := AsyncIoBase.moveTriggered_prompt (b := b) b.asyncWaitList []
    b.pendingAsyncWaitList b.asyncWaitMap [] (by simp)
  have hbase : b.processWaitLists.base = (b.moveTriggered b.asyncWaitList []
      b.pendingAsyncWaitList b.asyncWaitMap []).1.signalTriggered := by
    unfold AsyncIoBase.processWaitLists AsyncIoBase.notifyLoop
    simp only
    split
    · rfl
    · rfl
  rw [hbase]
  generalize b.moveTriggered b.asyncWaitList [] b.pendingAsyncWaitList b.asyncWaitMap [] = m at *
  refine ⟨⟨h.users,hprompt,fun i mask hi => ?_⟩,hframe.activeEvents⟩
  obtain ⟨x,hx,-⟩ := h.blocked i mask hi
  rw [← hframe.syncWaitList] at hx
  have hmem : (⟨i,mask,if mask.Meets m.1.activeEvents then true else x⟩ : SyncWait) ∈
      m.1.signalTriggered.syncWaitList := by
    refine List.mem_map.mpr ⟨_,hx,?_⟩
    split_ifs
    · rfl
    · rfl
  refine ⟨_,hmem,fun hmeets => ?_⟩
  rw [hframe.activeEvents,if_pos hmeets]

theorem notified (wait : AsyncWait F) :
    Quiet calls (b.notified wait).base watched ∧
      (b.notified wait).base.activeEvents = b.activeEvents := by
  unfold AsyncIoBase.notified AsyncIoBase.notifyLoop
  simp only
  split
  · exact ⟨h.congr rfl rfl,rfl⟩
  · exact ⟨h.congr rfl rfl,rfl⟩

end

end Quiet
end Jancy.Io
