import Jancy.Io.UsbEndpointReads
import Jancy.Io.UsbEndpointWrites

/-! Runs of an endpoint: its transfers, what enters the read buffer and what is sent. -/
namespace Jancy.Io
namespace UsbEndpointState

variable {α : Type} {e e' : UsbEndpointState α} {id left : ℕ} {t : EndpointTransfer α}

/-- The thread has nothing to do, and libusb neither. -/
structure Settled (e : UsbEndpointState α) : Prop where
  thread : e.thread = .sleeping
  woken : e.woken = false
  owned : e.owned = []

structure Sound (e : UsbEndpointState α) : Prop where
  /-- each transfer is on one of the lists, once -/
  once : e.device.isOpen = true → ∀ id, e.ids.count id = if id < e.allocated then 1 else 0
  owned : e.owned.Nodup ∧ ∀ id ∈ e.owned, id ∈ e.activeTransferList.map EndpointTransfer.id ∧
    id ∉ e.completedTransferList.map EndpointTransfer.id ∧ id ∉ e.transferPool
  closed : e.device.isOpen = false → e.owned = []
  /-- reads enter the read buffer in the order of their submission, each once -/
  readOrder : e.isIn = true → e.added.map Prod.fst = List.range e.added.length
  readResults : e.isIn = true → ∀ a ∈ e.added, a ∈ e.delivered
  readBytes : e.isIn = true →
    e.taken ++ e.device.readBytesHeld = e.added.flatMap Prod.snd
  readAll : e.isIn = true → e.Settled → e.suspended = false → e.added.length = e.inserted
  /-- accepted bytes are sent in order, each once -/
  writeOrder : e.isIn = false → e.transmitted <+: e.accepted.map Prod.fst
  writeAll : e.isIn = false → e.Settled →
    e.transmitted = e.accepted.map Prod.fst ∧ e.emptyTransfers = e.emptyBlocks
  steady : e.isIn = false → ∀ t ∈ e.activeTransferList, t.block = e.writeBlock
  /-- only writes that have not returned may have something left -/
  completed : e.isIn = false → e.thread.inLoop = true → e.WriteCompleted →
    ∀ p ∈ e.accepted.drop e.transmitted.length,
      ∃ r : DeviceReturn α, e.calls[p.2]? = some (.written r)

/-- No block of no bytes is put into the list of sizes, and no transfer that is the last thing to do
completes in part before the thread has seen its submission through. -/
def Careful (e : UsbEndpointState α) : EndpointAction α → Prop
  | .advance i => e.calls[i]? = some (.write []) → e.isIn = true ∨ e.device.isOpen = false ∨
      e.device.mode.keepWriteBlockSize = false ∨ e.device.writeBuffer.isFull = true
  | .complete _ result => e.isIn = false → e.thread.isSubmitted = true →
      e.device.writeBuffer.isEmpty = true → result.bytes = e.writeBlock
  | _ => True

theorem careful_advance {i : ℕ} (pc : EndpointCallPc α) (hc : e.calls[i]? = some pc)
    (hpc : pc ≠ .write []) : e.Careful (.advance i) := fun h =>
  absurd (Option.some.inj (hc.symm.trans h)) hpc

structure Inv (e : UsbEndpointState α) : Prop where
  places : e.Places
  awaited : e.thread.inLoop = true → e.Awaited
  side : e.Reads ∨ e.Writes ∧ (e.thread.inLoop = true → e.Told)

theorem initial_inv {platform : Platform} {isIn : Bool} {readParallelism readBlockSize : ℕ}
    {readBufferSize writeBufferSize : ℕ+}
    {keepReadBlockSize keepWriteBlockSize isSuspended : Bool} :
    Inv (initial platform isIn readParallelism readBlockSize readBufferSize writeBufferSize
      keepReadBlockSize keepWriteBlockSize isSuspended : UsbEndpointState α) := by
  refine ⟨opened_places rfl,fun _ => ⟨nofun,nofun,nofun⟩,?_⟩
  cases isIn with
  | true => exact Or.inl (opened_reads rfl)
  | false =>
    exact Or.inr ⟨opened_writes ⟨rfl,rfl,fun _ _ => rfl,fun _ => rfl,nofun⟩ rfl,
      fun _ => opened_told rfl rfl⟩

section

variable (h : e.Inv)

include h

theorem Inv.leave (hthread : e.thread ≠ .ended) {pc : EndpointPc} (woken : Bool) (events : Events)
    (hpc : pc ≠ .ended) (hin : pc.inLoop = false) (hun : pc.unsubmitted = none) :
    Inv { e.setActiveEvents events with woken, thread := pc } := by
  have hout : ∀ {P : Prop}, pc.inLoop = true → P := fun hf => by
    rw [hin] at hf
    cases hf
  refine ⟨h.places.congr rfl rfl rfl rfl rfl rfl (Or.inr ⟨hthread,hpc,hun⟩),hout,?_⟩
  rcases h.side with hr | ⟨hw,-⟩
  · exact Or.inl (hr.congr rfl rfl rfl id hout)
  · exact Or.inr ⟨hw.congr rfl rfl (fun h => ⟨h.1,h.2,h.3,h.4,h.5⟩) rfl hout,hout⟩

theorem Inv.wake (hthread : e.thread = .sleeping) :
    Inv { e with woken := false, thread := .awake } := by
  have hne : e.thread ≠ .ended := by simp [hthread]
  have hin : e.thread.inLoop = true := by rw [hthread]; rfl
  refine ⟨h.places.congr rfl rfl rfl rfl rfl rfl (Or.inr ⟨hne,EndpointPc.noConfusion,rfl⟩),
    fun _ => (h.awaited hin).congr rfl rfl (Or.inl (by rw [hthread]; rfl)),?_⟩
  rcases h.side with hr | ⟨hw,ht⟩
  · exact Or.inl (hr.congr rfl rfl rfl id fun _ => ⟨hin,fun _ => Or.inr (Or.inl rfl)⟩)
  · refine Or.inr ⟨hw.congr rfl rfl id rfl fun _ => ⟨hin,rfl⟩,fun _ => ?_⟩
    exact (ht hin).congr rfl rfl (Or.inr ⟨rfl,hthread⟩) (fun _ => Or.inr rfl) fun _ r hr => ⟨r,hr⟩

theorem Inv.pass (hthread : e.thread = .awake) (ok : Bool) :
    Inv (if e.isIn then e.readPass ok else e.writePass) := by
  have hin : e.thread.inLoop = true := by rw [hthread]; rfl
  have ha := h.awaited hin
  rcases h.side with hr | ⟨hw,ht⟩
  · rw [if_pos hr.isIn]
    obtain ⟨hplaces,hawaited,hreads⟩ := readPass_spec h.places ha hr hthread ok
    exact ⟨hplaces,hawaited,Or.inl hreads⟩
  · rw [if_neg (by simp [hw.isIn])]
    obtain ⟨hplaces,hwrites,hloop⟩ := writePass_spec h.places ha hw (ht hin) hthread
    exact ⟨hplaces,fun hl => (hloop hl).1,Or.inr ⟨hwrites,fun hl => (hloop hl).2⟩⟩

theorem Inv.submit (hthread : e.thread = .submitting id left) (ok : Bool) :
    (e.submitTransfer id left ok).Inv := by
  have hin : e.thread.inLoop = true := by rw [hthread]; rfl
  refine ⟨h.places.submit hthread ok,fun _ => (h.awaited hin).submit hthread ok,?_⟩
  rcases h.side with hr | ⟨hw,ht⟩
  · refine Or.inl (hr.congr rfl rfl rfl (fun hf => hf) fun _ => ⟨hin,fun hne => ?_⟩)
    rcases hr.wake hin hne with hwoken | hawake | hsusp
    · exact Or.inl hwoken
    · rw [hthread] at hawake
      cases hawake
    · exact Or.inr (Or.inr hsusp)
  · exact Or.inr ⟨hw.submit h.places hthread ok,fun _ => (ht hin).submit h.places hthread ok⟩

theorem Inv.unsubmitted (hthread : e.thread = .submitted id left false) :
    Inv { (e.removeActive id).putTransfer id with thread := .failing } := by
  have hun : e.thread.unsubmitted = some id := by rw [hthread]; rfl
  obtain ⟨-,t,ht,htid,-⟩ := h.places.fresh id hun
  refine ⟨h.places.unsubmitted hun,nofun,?_⟩
  have hsub : ∀ u ∈ e.activeTransferList.filter fun t => decide (t.id ≠ id),
      u ∈ e.activeTransferList := fun u hu => (List.mem_filter.mp hu).1
  rcases h.side with hr | ⟨hw,-⟩
  · refine Or.inl ⟨hr.isIn,hr.full,hr.bytes,hr.numbers,fun u hu => ?_,hr.added,nofun,nofun⟩
    rcases List.mem_append.mp hu with hu | hu
    · exact hr.results u (List.mem_append_left _ hu)
    · exact hr.results u (List.mem_append_right _ (hsub u hu))
  · obtain ⟨hactive,hcompleted⟩ := hw.single_active ht
    have hnil : e.activeTransferList.filter (fun t => decide (t.id ≠ id)) = [] := by
      rw [hactive]
      simp [htid]
    refine Or.inr ⟨⟨hw.isIn,hw.stores,?_,fun u hu => hw.block u (hsub u hu),hw.order,fun hor => ?_,
      hw.noEmpties,nofun⟩,nofun⟩
    · show (e.activeTransferList.filter _).length + e.completedTransferList.length ≤ 1
      rw [hnil,hcompleted]
      exact Nat.zero_le _
    · rcases hor with hf | hf
      · cases hf
      · exact absurd hnil hf

theorem Inv.finish (hthread : e.thread = .submitted id 0 true) :
    Inv (if e.isIn then e.finishRead else e.finishWrite) := by
  have hin : e.thread.inLoop = true := by rw [hthread]; rfl
  have hun : e.thread.unsubmitted = none := by rw [hthread]; rfl
  have ha := h.awaited hin
  rcases h.side with hr | ⟨hw,ht⟩
  · rw [if_pos hr.isIn]
    obtain ⟨hplaces,hawaited,hreads⟩ := finishRead_spec h.places ha hr hin hun fun hne => by
      rcases hr.wake hin hne with hwoken | hawake | hsusp
      · exact Or.inl hwoken
      · rw [hthread] at hawake
        cases hawake
      · exact Or.inr hsusp
    exact ⟨hplaces,hawaited,Or.inl hreads⟩
  · rw [if_neg (by simp [hw.isIn])]
    have ht := ht hin
    obtain ⟨hplaces,hawaited,hwrites,htold⟩ := finishWrite_spec h.places ha hw hin hun
      (fun hactive hempty => ht.drained hactive hempty (Or.inr (by rw [hthread]; rfl)))
      (ht.idle (by simp [hthread]))
    exact ⟨hplaces,fun _ => hawaited,Or.inr ⟨hwrites,fun _ => htold⟩⟩

theorem Inv.endThread (hthread : e.thread ≠ .ended) (hactive : e.activeTransferList = []) :
    e.endThread.Inv := by
  refine ⟨h.places.endThread hthread hactive,nofun,?_⟩
  rcases h.side with hr | ⟨hw,-⟩
  · have hdevice : e.endThread.device = e.device := if_pos hr.isIn
    refine Or.inl ⟨hr.isIn,?_,?_,hr.numbers,fun u hu => ?_,hr.added,nofun,nofun⟩
    · rw [hdevice]
      exact hr.full
    · rw [hdevice]
      exact hr.bytes
    · exact hr.results u (List.mem_append_right _ hu)
  · have hdevice : e.endThread.device = { e.device with
        activeEvents := e.device.activeEvents ||| UsbEndpointEvent.writeCompleted } :=
      if_neg (by simp [hw.isIn])
    refine Or.inr ⟨⟨hw.isIn,?_,?_,hw.block,hw.order,fun hor => ?_,hw.noEmpties,nofun⟩,nofun⟩
    · rw [hdevice]
      exact ⟨hw.stores.1,hw.stores.2,hw.stores.3,hw.stores.4,hw.stores.5⟩
    · show e.activeTransferList.length + 0 ≤ 1
      rw [hactive]
      exact Nat.zero_le _
    · rcases hor with hf | hf
      · cases hf
      · exact absurd hactive hf

theorem Inv.threadStep {ok : Bool} (hs : e.threadStep ok = some e') : e'.Inv := by
  unfold UsbEndpointState.threadStep at hs
  cases hthread : e.thread with
  | sleeping =>
    simp only [hthread] at hs
    split_ifs at hs
    cases hs
    exact h.wake hthread
  | awake =>
    simp only [hthread] at hs
    split_ifs at hs with hclosing hisIn
    · cases hs
      exact h.leave (by simp [hthread]) e.woken e.device.activeEvents EndpointPc.noConfusion rfl rfl
    · cases hs
      have := h.pass hthread ok
      rwa [if_pos hisIn] at this
    · cases hs
      have := h.pass hthread ok
      rwa [if_neg hisIn] at this
  | submitting id left =>
    simp only [hthread] at hs
    cases hs
    exact h.submit hthread ok
  | submitted id left result =>
    cases result with
    | false =>
      simp only [hthread] at hs
      cases hs
      exact h.unsubmitted hthread
    | true =>
      have hin : e.thread.inLoop = true := by rw [hthread]; rfl
      cases left with
      | zero =>
        simp only [hthread] at hs
        cases hs
        exact h.finish hthread
      | succ left =>
        simp only [hthread] at hs
        cases hs
        rcases h.side with hr | ⟨hw,-⟩
        · obtain ⟨hplaces,hawaited,hreads⟩ := startRead_spec h.places (h.awaited hin) hr hin
            (by rw [hthread]; rfl) (fun hne => by
              rcases hr.wake hin hne with hwoken | hawake | hsusp
              · exact Or.inl hwoken
              · rw [hthread] at hawake
                cases hawake
              · exact Or.inr hsusp) left ok
          exact ⟨hplaces,hawaited,Or.inl hreads⟩
        · have hleft := hw.reads hin
          rw [hthread] at hleft
          cases hleft
  | failing =>
    simp only [hthread] at hs
    cases hs
    exact h.leave (by simp [hthread]) e.woken _ EndpointPc.noConfusion rfl rfl
  | cancelling =>
    simp only [hthread] at hs
    cases hs
    exact h.leave (by simp [hthread]) e.woken e.device.activeEvents EndpointPc.noConfusion rfl rfl
  | draining =>
    simp only [hthread] at hs
    split_ifs at hs with hactive
    · cases hs
      exact h.endThread (by simp [hthread]) hactive
    · cases hs
      exact h.leave (by simp [hthread]) e.woken e.device.activeEvents EndpointPc.noConfusion rfl rfl
  | drainSleeping =>
    simp only [hthread] at hs
    split_ifs at hs
    cases hs
    exact h.leave (by simp [hthread]) false e.device.activeEvents EndpointPc.noConfusion rfl rfl
  | ended =>
    simp only [hthread] at hs
    cases hs

end

theorem onTransferCompleted_thread (e : UsbEndpointState α) (t : EndpointTransfer α)
    (r : EndpointResult α) : (e.onTransferCompleted t r).thread = e.thread := by
  unfold onTransferCompleted
  split_ifs
  · obtain ⟨active,completed,woken,heq,-⟩ :=
      ((e.takeBack t r).setResult t.id r t.isCompletedOutOfOrder).completeHead_eq
    rw [heq]
    rfl
  · rfl

theorem Inv.complete (h : e.Inv) (ht : t ∈ e.activeTransferList) {r : EndpointResult α}
    (hr : e.Reports t r) (hcare : e.isIn = false → e.thread.isSubmitted = true →
      e.device.writeBuffer.isEmpty = true → r.bytes = e.writeBlock) :
    (e.onTransferCompleted t r).Inv := by
  have hthread := e.onTransferCompleted_thread t r
  refine ⟨h.places.complete ht hr.1 r,fun hin => ?_,?_⟩
  · rw [hthread] at hin
    exact (h.awaited hin).complete h.places ht r
  · rcases h.side with hreads | ⟨hw,htold⟩
    · exact Or.inl (hreads.complete h.places ht r)
    · refine Or.inr ⟨(hw.complete ht hr).1,fun hin => ?_⟩
      rw [hthread] at hin
      refine (htold hin).complete hw ht hr (hcare hw.isIn) ?_ hin
      cases hun : e.thread.unsubmitted with
      | none => rfl
      | some id =>
        -- libusb does not have the only transfer yet
        obtain ⟨hnot,u,hu,huid,-⟩ := h.places.fresh id hun
        rw [(hw.single_active ht).1,List.mem_singleton] at hu
        rw [← huid,hu] at hnot
        exact absurd hr.1 hnot

theorem Inv.quiet (h : e.Inv) {calls : List (EndpointCallPc α)} {closing suspended woken : Bool}
    (hsuspended : e.woken = true ∨ e.suspended = true → woken = true ∨ suspended = true)
    (hwoken : e.woken = true → woken = true)
    (hcalls : ∀ (i : ℕ) (r : DeviceReturn α), e.calls[i]? = some (.written r) →
      ∃ r : DeviceReturn α, calls[i]? = some (.written r)) :
    Inv { e with calls, closing, suspended, woken } := by
  refine ⟨h.places.congr rfl rfl rfl rfl rfl rfl (Or.inl rfl),fun hin =>
    (h.awaited hin).congr rfl rfl (Or.inr rfl),?_⟩
  rcases h.side with hr | ⟨hw,ht⟩
  · refine Or.inl (hr.congr rfl rfl rfl id fun hin => ⟨hin,fun hne => ?_⟩)
    rcases hr.wake hin hne with hk | hawake | hk
    · exact (hsuspended (Or.inl hk)).imp_right Or.inr
    · exact Or.inr (Or.inl hawake)
    · exact (hsuspended (Or.inr hk)).imp_right Or.inr
  · refine Or.inr ⟨hw.congr rfl rfl id rfl fun hin => ⟨hin,hw.reads hin⟩,fun hin => ?_⟩
    refine (ht hin).congr rfl rfl (Or.inl rfl) (fun hk => Or.inl ?_) hcalls
    by_contra hne
    have := hwoken (by simpa using hne)
    rw [this] at hk
    cases hk

theorem written_set {i : ℕ} {pc q : EndpointCallPc α} (hc : e.calls[i]? = some pc)
    (hpc : ∀ r, pc ≠ .written r) (j : ℕ) (r : DeviceReturn α)
    (hj : e.calls[j]? = some (.written r)) :
    ∃ r : DeviceReturn α, (e.calls.set i q)[j]? = some (.written r) := by
  have hne : j ≠ i := by
    rintro rfl
    rw [hc] at hj
    exact hpc r (Option.some.inj hj)
  rw [Calls.set_eq hc,if_neg hne]
  exact ⟨r,hj⟩

theorem bufferedWrite_isOpen (d : AsyncIoDevice α) (p : List α) :
    (d.bufferedWrite p []).2.isOpen = d.isOpen := by
  unfold AsyncIoDevice.bufferedWrite
  split_ifs
  · rfl
  · exact (BufferedRun.addToWriteBuffer_framed d p []).isOpen

theorem bufferedRead_isOpen (d : AsyncIoDevice α) (size : ℕ) :
    (d.bufferedRead size).2.isOpen = d.isOpen := by
  cases ho : d.isOpen with
  | false =>
    unfold AsyncIoDevice.bufferedRead
    rw [if_pos ho]
    exact ho
  | true => exact (BufferedRun.bufferedRead_open ho size).2.1

theorem clearWriteCompleted_eq (e : UsbEndpointState α) :
    ∃ events, e.clearWriteCompleted = e.setActiveEvents events := by
  unfold clearWriteCompleted
  split_ifs
  · exact ⟨_,rfl⟩
  · exact ⟨e.device.activeEvents,rfl⟩

theorem Inv.written (h : e.Inv) (i : ℕ) (r : DeviceReturn α) :
    Inv { e.clearWriteCompleted with
      calls := e.clearWriteCompleted.calls.set i (.returned r) } := by
  have htold : e.Writes → e.thread.inLoop = true → e.Told → Told { e.clearWriteCompleted with
      calls := e.clearWriteCompleted.calls.set i (.returned r) } :=
    fun hw hin ht => ht.clear hw hin i r
  obtain ⟨events,heq⟩ := e.clearWriteCompleted_eq
  rw [heq] at htold ⊢
  refine ⟨h.places.congr rfl rfl rfl rfl rfl rfl (Or.inl rfl),fun hin =>
    (h.awaited hin).congr rfl rfl (Or.inr rfl),?_⟩
  rcases h.side with hr | ⟨hw,ht⟩
  · exact Or.inl (hr.congr rfl rfl rfl id fun hin => ⟨hin,hr.wake hin⟩)
  · refine Or.inr ⟨?_,fun hin => htold hw hin (ht hin)⟩
    exact hw.congr rfl rfl (fun h => ⟨h.1,h.2,h.3,h.4,h.5⟩) rfl fun hin => ⟨hin,hw.reads hin⟩

theorem Inv.advance (h : e.Inv) {i : ℕ} {pc : EndpointCallPc α} (hc : e.calls[i]? = some pc)
    (hcare : e.Careful (.advance i)) {r : UsbEndpointState α × EndpointCallPc α}
    (hr : e.advance i pc = some r) : Inv { r.1 with calls := r.1.calls.set i r.2 } := by
  cases pc with
  | read size =>
    simp only [UsbEndpointState.advance] at hr
    split_ifs at hr with hisIn
    · cases hr
      exact h.quiet id id (written_set hc (by simp))
    · cases hr
      have hreads : e.Reads := h.side.resolve_right fun hw => hisIn hw.1.isIn
      refine ⟨h.places.congr rfl rfl rfl rfl rfl (bufferedRead_isOpen _ _) (Or.inl rfl),
        fun hin => (h.awaited hin).congr rfl rfl (Or.inr rfl),Or.inl ?_⟩
      have hread := hreads.read size
      exact hread.congr rfl rfl rfl id fun hin => ⟨hin,hread.wake hin⟩
  | write p =>
    simp only [UsbEndpointState.advance] at hr
    split_ifs at hr with hisIn
    · cases hr
      exact h.quiet id id (written_set hc (by simp))
    · cases hr
      obtain ⟨hw,ht⟩ := h.side.resolve_left fun hr => hisIn hr.isIn
      have hp : p = [] → e.device.isOpen = false ∨ e.device.mode.keepWriteBlockSize = false ∨
          e.device.writeBuffer.isFull = true := by
        rintro rfl
        exact (hcare hc).resolve_left hisIn
      refine ⟨h.places.congr rfl rfl rfl rfl rfl (bufferedWrite_isOpen _ _) (Or.inl rfl),
        fun hin => (h.awaited hin).congr rfl rfl (Or.inr rfl),Or.inr ⟨?_,fun hin => ?_⟩⟩
      · have hwrite := hw.bufferedWrite (i := i) hp
        exact hwrite.congr rfl rfl id rfl fun hin => ⟨hin,hwrite.reads hin⟩
      · exact (ht hin).bufferedWrite hw hp hc
  | written r =>
    cases hr
    exact h.written i r
  | close =>
    simp only [UsbEndpointState.advance] at hr
    split_ifs at hr
    · cases hr
      exact h.quiet id id (written_set hc (by simp))
    · cases hr
      exact h.quiet (fun _ => Or.inl rfl) (fun _ => rfl) (written_set hc (by simp))
  | closing =>
    simp only [UsbEndpointState.advance] at hr
    split_ifs at hr with hended
    cases hr
    have hout : ∀ {P : Prop}, e.thread.inLoop = true → P := fun hf => by
      rw [hended] at hf
      cases hf
    refine ⟨(h.places.close hended).congr rfl rfl rfl rfl rfl rfl (Or.inl rfl),hout,?_⟩
    rcases h.side with hr | ⟨hw,-⟩
    · refine Or.inl (hr.congr rfl rfl ?_ ?_ hout)
      · cases hp : e.platform <;> simp only <;> rfl
      · cases hp : e.platform <;> simp only <;> exact id
    · refine Or.inr ⟨hw.congr rfl rfl (fun hs => hs.close _) ?_ hout,hout⟩
      cases hp : e.platform <;> simp only <;> rfl
  | unsuspend =>
    cases hr
    exact h.quiet (fun _ => Or.inl rfl) (fun _ => rfl) (written_set hc (by simp))
  | returned r => cases hr

theorem Inv.step [DecidableEq α] (h : e.Inv) (a : EndpointAction α) (hcare : e.Careful a)
    (hs : e.step a = some e') : e'.Inv := by
  cases a with
  | call pc =>
    simp only [UsbEndpointState.step] at hs
    split_ifs at hs
    cases hs
    exact h.quiet id id fun j r hj => ⟨r,Calls.append_iff.mpr (Or.inr hj)⟩
  | advance i =>
    simp only [UsbEndpointState.step] at hs
    cases hc : e.calls[i]? with
    | none =>
      rw [hc] at hs
      cases hs
    | some pc =>
      simp only [hc,Option.map_eq_some_iff] at hs
      obtain ⟨r,hr,rfl⟩ := hs
      exact h.advance hc hcare hr
  | thread ok => exact h.threadStep hs
  | complete id result =>
    simp only [UsbEndpointState.step] at hs
    split at hs
    · cases hs
    · next t hfind =>
      split_ifs at hs with hr
      cases hs
      exact h.complete (List.mem_of_find?_eq_some hfind) hr hcare

theorem Inv.owned (h : e.Inv) : e.owned.Nodup ∧ ∀ id ∈ e.owned,
    id ∈ e.activeTransferList.map EndpointTransfer.id ∧
      id ∉ e.completedTransferList.map EndpointTransfer.id ∧ id ∉ e.transferPool := by
  refine ⟨h.places.ownedOnce,fun id hid => ?_⟩
  obtain ⟨t,ht,rfl,-⟩ := h.places.owned id hid
  have hmem := List.mem_map_of_mem (f := EndpointTransfer.id) ht
  obtain ⟨hlists,-,hpool⟩ := List.nodup_append.mp h.places.nodup
  obtain ⟨-,-,hcompleted⟩ := List.nodup_append.mp hlists
  refine ⟨hmem,fun hc => hcompleted t.id hmem t.id hc rfl,fun hp => ?_⟩
  exact hpool t.id (List.mem_append_left _ hmem) t.id hp rfl

theorem Settled.active (hs : e.Settled) (h : e.Inv) : e.activeTransferList = [] :=
  (h.awaited (by rw [hs.thread]; rfl)).owned_nil hs.owned (by rw [hs.thread]; rfl)

theorem Reads.all (h : e.Reads) (hi : e.Inv) (hs : e.Settled) (hsuspended : e.suspended = false) :
    e.added.length = e.inserted := by
  have hin : e.thread.inLoop = true := by rw [hs.thread]; rfl
  have hcompleted : e.completedTransferList = [] := by
    by_contra hne
    rcases h.wake hin hne with hk | hk | hk
    · rw [hs.woken] at hk
      cases hk
    · rw [hs.thread] at hk
      cases hk
    · rw [hsuspended] at hk
      cases hk
  have horder := congrArg List.length (h.order hin)
  rw [queue,hcompleted,hs.active hi] at horder
  simpa using horder

theorem Writes.all (h : e.Writes) (ht : e.Told) (hi : e.Inv) (hs : e.Settled) :
    e.transmitted = e.accepted.map Prod.fst := by
  have hin : e.thread.inLoop = true := by rw [hs.thread]; rfl
  have hpending := ht.idle (by rw [hs.thread]; exact EndpointPc.noConfusion) hs.woken (hs.active hi)
  have hflow := h.flow (Or.inl hin)
  rwa [hpending,List.append_nil] at hflow

theorem Inv.sound (h : e.Inv) : e.Sound := by
  have howned := h.owned
  have hclosed : e.device.isOpen = false → e.owned = [] := by
    intro hc
    have hids := (h.places.closed hc).2
    refine List.eq_nil_iff_forall_not_mem.mpr fun id hid => ?_
    have hmem := (howned.2 id hid).1
    rw [(List.append_eq_nil_iff.mp (List.append_eq_nil_iff.mp hids).1).1] at hmem
    cases hmem
  rcases h.side with hr | ⟨hw,ht⟩
  · have hout : ∀ {P : Prop}, e.isIn = false → P := fun hf => by
      rw [hr.isIn] at hf
      cases hf
    exact ⟨h.places.once,howned,hclosed,fun _ => hr.numbers,fun _ => hr.added,fun _ => hr.bytes,
      fun _ => hr.all h,hout,hout,hout,hout⟩
  · have hout : ∀ {P : Prop}, e.isIn = true → P := fun hf => by
      rw [hw.isIn] at hf
      cases hf
    refine ⟨h.places.once,howned,hclosed,hout,hout,hout,hout,fun _ => hw.order,fun _ hs => ?_,
      fun _ t ht => (hw.block t ht).1,fun _ hin => (ht hin).told⟩
    exact ⟨hw.all (ht (by rw [hs.thread]; rfl)) h hs,hw.noEmpties.2.trans hw.noEmpties.1.symm⟩

/-- In every run whose steps are careful each transfer has one place, reads enter the read buffer in
order, and accepted bytes are sent in order, all of them before `WriteCompleted` tells so. -/
theorem transfers_sound [DecidableEq α] (platform : Platform) (isIn : Bool)
    (readParallelism readBlockSize : ℕ) (readBufferSize writeBufferSize : ℕ+)
    (keepReadBlockSize keepWriteBlockSize isSuspended : Bool) {as : List (EndpointAction α)}
    (h : Run.Along step Careful (initial platform isIn readParallelism readBlockSize readBufferSize
      writeBufferSize keepReadBlockSize keepWriteBlockSize isSuspended) as) :
    Run.Always step Sound (initial platform isIn readParallelism readBlockSize readBufferSize
      writeBufferSize keepReadBlockSize keepWriteBlockSize isSuspended) as :=
  Run.always_of_along (fun _ hi => hi.sound) (fun _ a _ hi hc hs => hi.step a hc hs) initial_inv h

/-- A block that is sent in two parts. -/
theorem transfers_sound_parts :
    Run.Always step Sound (initial .posix false 1 8 4 4 true true false : UsbEndpointState ℕ)
      [.call (.write [1,2]),.advance 0,.advance 0,.thread true,.thread true,.thread true,
        .thread true,.complete 0 ⟨.completed,[1]⟩,.thread true,.thread true,.thread true,
        .thread true,.complete 0 ⟨.completed,[2]⟩,.thread true,.thread true] :=
  transfers_sound .posix false 1 8 4 4 true true false <|
    .cons rfl trivial <| .cons rfl (careful_advance (.write [1,2]) rfl (by simp)) <|
    .cons rfl (careful_advance (.written ⟨some 2,[],[]⟩) rfl nofun) <| .cons rfl trivial <| .cons rfl trivial <|
    .cons rfl trivial <| .cons rfl trivial <| .cons rfl nofun <| .cons rfl trivial <|
    .cons rfl trivial <| .cons rfl trivial <| .cons rfl trivial <| .cons rfl nofun <|
    .cons rfl trivial <| .cons rfl trivial trivial

/-- A block of no bytes ends the pass, and what is behind it stays. -/
theorem not_sound_empty_block :
    ¬ Run.Always step Sound (initial .posix false 1 8 4 4 true true false : UsbEndpointState ℕ)
      [.call (.write []),.advance 0,.advance 0,.call (.write [1]),.advance 1,.advance 1,
        .thread true,.thread true] := by
  intro h
  have hall := (h.last rfl).writeAll rfl ⟨rfl,rfl,rfl⟩
  exact absurd hall.1 (by decide)

end UsbEndpointState
end Jancy.Io
