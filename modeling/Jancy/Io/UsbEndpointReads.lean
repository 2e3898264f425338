import Jancy.Io.UsbEndpointTransfers
import Mathlib.Data.List.Range

/-! The reads of an IN endpoint: they enter the read buffer in the order of their submission. -/
namespace Jancy.Io
namespace UsbEndpointState

variable {α : Type} {e e' : UsbEndpointState α} {id left : ℕ} {t : EndpointTransfer α}

/-- Transfers in the order of their submission, those that have completed first. -/
def queue (e : UsbEndpointState α) : List (EndpointTransfer α) :=
  e.completedTransferList ++ e.activeTransferList

/-- What reads are about, besides the device and the thread. -/
def readView (e : UsbEndpointState α) : List (EndpointTransfer α) × List (EndpointTransfer α) ×
    List (ℕ × List α) × List (ℕ × List α) × List α × ℕ :=
  (e.completedTransferList,e.activeTransferList,e.delivered,e.added,e.taken,e.inserted)

structure Reads (e : UsbEndpointState α) : Prop where
  isIn : e.isIn = true
  full : e.device.ReadFull
  bytes : e.taken ++ e.device.readBytesHeld = e.added.flatMap Prod.snd
  numbers : e.added.map Prod.fst = List.range e.added.length
  results : ∀ t ∈ e.queue, ∀ r, t.result = some r → (t.number,r.bytes) ∈ e.delivered
  added : ∀ a ∈ e.added, a ∈ e.delivered
  order : e.thread.inLoop = true →
    e.added.map Prod.fst ++ e.queue.map EndpointTransfer.number = List.range e.inserted
  wake : e.thread.inLoop = true → e.completedTransferList ≠ [] →
    e.woken = true ∨ e.thread = .awake ∨ e.suspended = true

theorem opened_reads {platform : Platform} {readParallelism readBlockSize : ℕ}
    {device : AsyncIoDevice α} {isSuspended : Bool} (hheld : device.readBytesHeld = []) :
    (opened platform true readParallelism readBlockSize device isSuspended).Reads where
  isIn := rfl
  full hov := by
    have : device.readOverflowBuffer = [] := (List.append_eq_nil_iff.mp hheld).2
    exact absurd this hov
  bytes := by simpa [opened] using hheld
  numbers := rfl
  results := by simp [opened,queue]
  added := by simp [opened]
  order _ := by simp [opened,queue]
  wake _ h := absurd rfl h

theorem Reads.congr (h : e.Reads) (hisIn : e'.isIn = e.isIn) (hview : e'.readView = e.readView)
    (hheld : e'.device.readBytesHeld = e.device.readBytesHeld)
    (hfull : e.device.ReadFull → e'.device.ReadFull)
    (hloop : e'.thread.inLoop = true → e.thread.inLoop = true ∧
      (e.completedTransferList ≠ [] →
        e'.woken = true ∨ e'.thread = .awake ∨ e'.suspended = true)) : e'.Reads := by
  simp only [readView,Prod.mk.injEq] at hview
  obtain ⟨hcompleted,hactive,hdelivered,hadded,htaken,hinserted⟩ := hview
  have hqueue : e'.queue = e.queue := by rw [queue,queue,hcompleted,hactive]
  refine ⟨hisIn.trans h.isIn,hfull h.full,?_,?_,?_,?_,fun hin => ?_,fun hin hne => ?_⟩
  · rw [htaken,hheld,hadded]
    exact h.bytes
  · rw [hadded]
    exact h.numbers
  · rw [hqueue,hdelivered]
    exact h.results
  · rw [hadded,hdelivered]
    exact h.added
  · rw [hadded,hqueue,hinserted]
    exact h.order (hloop hin).1
  · exact (hloop hin).2 (hcompleted ▸ hne)

theorem prefix_range {l l' : List ℕ} {n : ℕ} (h : l ++ l' = List.range n) :
    l = List.range l.length := by
  have hlen : l.length ≤ n := by
    have := congrArg List.length h
    rw [List.length_append,List.length_range] at this
    omega
  calc l = (l ++ l').take l.length := by simp
    _ = List.range l.length := by rw [h,List.take_range,Nat.min_eq_left hlen]

theorem Reads.add (h : e.Reads) (hthread : e.thread = .awake) {rest : List (EndpointTransfer α)}
    (hcompleted : e.completedTransferList = t :: rest) {r : EndpointResult α}
    (hr : t.result = some r) : Reads { e.putTransfer t.id with
      completedTransferList := rest
      device := e.device.addToReadBuffer r.bytes []
      added := e.added ++ [(t.number,r.bytes)] } := by
  obtain ⟨hbytes,hfull⟩ := AsyncIoDevice.addToReadBuffer_bytes r.bytes [] h.full
  have hqueue : e.queue = t :: (rest ++ e.activeTransferList) := by
    rw [queue,hcompleted,List.cons_append]
  have horder := h.order (by rw [hthread]; rfl)
  rw [hqueue,List.map_cons,List.append_cons] at horder
  have hnumbers := prefix_range horder
  refine ⟨h.isIn,hfull,?_,?_,fun u hu => ?_,fun a ha => ?_,fun _ => ?_,fun _ _ => ?_⟩
  · show e.taken ++ (e.device.addToReadBuffer r.bytes []).readBytesHeld = _
    rw [hbytes,← List.append_assoc,h.bytes,List.flatMap_append]
    simp
  · rw [List.map_append,List.map_cons,List.map_nil,hnumbers]
    simp
  · exact h.results u (hqueue ▸ List.mem_cons_of_mem t hu)
  · rcases List.mem_append.mp ha with ha | ha
    · exact h.added a ha
    · rw [List.mem_singleton.mp ha]
      exact h.results t (hqueue ▸ List.mem_cons_self) r hr
  · show (e.added ++ [(t.number,r.bytes)]).map Prod.fst ++
      (rest ++ e.activeTransferList).map EndpointTransfer.number = List.range e.inserted
    rw [← horder]
    simp
  · exact Or.inr (Or.inl hthread)

theorem Reads.fail (h : e.Reads) {rest : List (EndpointTransfer α)}
    (hcompleted : e.completedTransferList = t :: rest) :
    Reads { e.putTransfer t.id with completedTransferList := rest, thread := .failing } := by
  refine ⟨h.isIn,h.full,h.bytes,h.numbers,fun u hu => ?_,h.added,nofun,nofun⟩
  refine h.results u ?_
  rw [queue,hcompleted]
  exact List.mem_cons_of_mem t hu

theorem addCompleted_spec (l : List (EndpointTransfer α)) (e : UsbEndpointState α)
    (hthread : e.thread = .awake) (hr : Reads { e with completedTransferList := l })
    (hp : Places { e with completedTransferList := l }) :
    (e.addCompleted l).2.thread = .awake ∧
      (e.addCompleted l).2.activeTransferList = e.activeTransferList ∧
      (e.addCompleted l).2.owned = e.owned ∧
      ((e.addCompleted l).1 = false → (e.addCompleted l).2.Reads ∧ (e.addCompleted l).2.Places ∧
        (e.addCompleted l).2.completedTransferList = []) ∧
      ((e.addCompleted l).1 = true → Reads { (e.addCompleted l).2 with thread := .failing } ∧
        Places { (e.addCompleted l).2 with thread := .failing }) := by
  induction l generalizing e with
  | nil => exact ⟨hthread,rfl,rfl,fun _ => ⟨hr,hp,rfl⟩,nofun⟩
  | cons t rest ih =>
    have hne : e.thread ≠ .ended := by simp [hthread]
    have hput := hp.put hne rfl
    have hsome := hp.completed t List.mem_cons_self
    unfold addCompleted
    cases hres : t.result with
    | none =>
      rw [hres] at hsome
      cases hsome
    | some r =>
      have hadd := hr.add hthread rfl hres
      have hopen : (e.device.addToReadBuffer r.bytes []).isOpen = e.device.isOpen :=
        (BufferedRun.addToReadBuffer_framed _ _ _).1
      have hplaces : Places { e.putTransfer t.id with
          completedTransferList := rest
          device := e.device.addToReadBuffer r.bytes []
          added := e.added ++ [(t.number,r.bytes)] } :=
        hput.congr rfl rfl rfl rfl rfl hopen (Or.inl rfl)
      obtain ⟨status,bytes⟩ := r
      cases status with
      | failed =>
        refine ⟨hthread,rfl,rfl,nofun,fun _ => ⟨hr.fail rfl,?_⟩⟩
        exact hput.congr rfl rfl rfl rfl rfl rfl
          (Or.inr ⟨hne,EndpointPc.noConfusion,rfl⟩)
      | completed => exact ih _ hthread hadd hplaces
      | timedOut => exact ih _ hthread hadd hplaces
      | cancelled => exact ih _ hthread hadd hplaces

theorem Reads.insert (h : e.Reads) (hin : e.thread.inLoop = true)
    (hcompleted : e.completedTransferList ≠ [] → e.woken = true ∨ e.suspended = true)
    (block : List α) (size left : ℕ) : (e.insertTransfer block size left).Reads := by
  obtain ⟨pool,n,heq⟩ := e.insertTransfer_eq block size left
  rw [heq]
  refine ⟨h.isIn,h.full,h.bytes,h.numbers,fun u hu r hr => ?_,h.added,fun _ => ?_,fun _ hne => ?_⟩
  · change u ∈ e.completedTransferList ++ (e.activeTransferList ++ [_]) at hu
    rw [← List.append_assoc] at hu
    rcases List.mem_append.mp hu with hu | hu
    · exact h.results u hu r hr
    · rw [List.mem_singleton.mp hu] at hr
      cases hr
  · show e.added.map Prod.fst ++ (e.completedTransferList ++ (e.activeTransferList ++ [_])).map _ =
      List.range (e.inserted + 1)
    rw [List.range_succ,← h.order hin,queue]
    simp
  · exact (hcompleted hne).imp_right Or.inr

theorem Places.giveUp (h : e.Places) (hthread : e.thread ≠ .ended) :
    Places { e.getTransfer.2.putTransfer e.getTransfer.1 with thread := .failing } := by
  have hopen := h.isOpen hthread
  unfold getTransfer
  split
  · next hpool =>
    refine ⟨fun _ id => ?_,fun hc => ?_,by rintro ⟨⟩,h.ownedOnce,h.owned,h.completed,h.parked,
      by rintro _ ⟨⟩⟩
    · have := h.once hopen id
      simp only [ids,putTransfer,hpool,List.count_append,List.count_nil,List.count_cons,
        beq_iff_eq] at this ⊢
      split_ifs at this ⊢ <;> omega
    · exact absurd (hopen.symm.trans hc) (by decide)
  · next free rest hpool =>
    refine ⟨fun _ id => ?_,fun hc => ?_,by rintro ⟨⟩,h.ownedOnce,h.owned,h.completed,h.parked,
      by rintro _ ⟨⟩⟩
    · have := h.once hopen id
      simp only [ids,putTransfer,hpool] at this ⊢
      exact this
    · exact absurd (hopen.symm.trans hc) (by decide)

theorem startRead_spec (hp : e.Places) (ha : e.Awaited) (hr : e.Reads)
    (hin : e.thread.inLoop = true) (hun : e.thread.unsubmitted = none)
    (hcompleted : e.completedTransferList ≠ [] → e.woken = true ∨ e.suspended = true)
    (left : ℕ) (ok : Bool) : (e.startRead left ok).Places ∧
      ((e.startRead left ok).thread.inLoop = true → (e.startRead left ok).Awaited) ∧
      (e.startRead left ok).Reads := by
  have hne : e.thread ≠ .ended := by
    intro hended
    rw [hended] at hin
    cases hin
  cases ok with
  | true =>
    exact ⟨hp.insert hne _ _ _,fun _ => ha.insert hun _ _ _,hr.insert hin hcompleted _ _ _⟩
  | false =>
    refine ⟨hp.giveUp hne,nofun,?_⟩
    obtain ⟨pool,n,heq⟩ := e.getTransfer_eq
    show Reads { e.getTransfer.2.putTransfer e.getTransfer.1 with thread := .failing }
    rw [heq]
    exact hr.congr rfl rfl rfl id nofun

theorem finishRead_spec (hp : e.Places) (ha : e.Awaited) (hr : e.Reads)
    (hin : e.thread.inLoop = true) (hun : e.thread.unsubmitted = none)
    (hcompleted : e.completedTransferList ≠ [] → e.woken = true ∨ e.suspended = true) :
    e.finishRead.Places ∧ (e.finishRead.thread.inLoop = true → e.finishRead.Awaited) ∧
      e.finishRead.Reads := by
  have hne : e.thread ≠ .ended := by
    intro hended
    rw [hended] at hin
    cases hin
  refine ⟨hp.congr rfl rfl rfl rfl rfl rfl (Or.inr ⟨hne,EndpointPc.noConfusion,rfl⟩),
    fun _ => ha.congr rfl rfl (Or.inl hun),hr.congr rfl rfl rfl id fun _ => ⟨hin,fun h => ?_⟩⟩
  exact (hcompleted h).imp_right Or.inr

theorem readPass_spec (hp : e.Places) (ha : e.Awaited) (hr : e.Reads) (hthread : e.thread = .awake)
    (ok : Bool) : (e.readPass ok).Places ∧
      ((e.readPass ok).thread.inLoop = true → (e.readPass ok).Awaited) ∧ (e.readPass ok).Reads := by
  have hne : e.thread ≠ .ended := by simp [hthread]
  have hun : e.thread.unsubmitted = none := by rw [hthread]; rfl
  unfold readPass
  by_cases hsusp : e.suspended = true
  · rw [if_pos hsusp]
    refine ⟨hp.congr rfl rfl rfl rfl rfl rfl (Or.inr ⟨hne,EndpointPc.noConfusion,rfl⟩),
      fun _ => ha.congr rfl rfl (Or.inl hun),hr.congr rfl rfl rfl id fun _ => ⟨?_,fun _ => ?_⟩⟩
    · rw [hthread]
      rfl
    · exact Or.inr (Or.inr hsusp)
  rw [if_neg hsusp]
  obtain ⟨hawake,hactive,howned,hdone,hfail⟩ :=
    addCompleted_spec e.completedTransferList e hthread hr hp
  split
  · next e₁ heq =>
    rw [heq] at hfail
    obtain ⟨hreads,hplaces⟩ := hfail rfl
    exact ⟨hplaces,nofun,hreads⟩
  · next e₁ heq =>
    rw [heq] at hawake hactive howned hdone
    obtain ⟨hreads,hplaces,hnil⟩ := hdone rfl
    have hawaited : e₁.Awaited := ha.congr hactive howned (Or.inl hun)
    have hin : e₁.thread.inLoop = true := by rw [hawake]; rfl
    have hun : e₁.thread.unsubmitted = none := by rw [hawake]; rfl
    split_ifs
    · exact startRead_spec hplaces hawaited hreads hin hun (fun h => absurd hnil h) _ _
    · exact finishRead_spec hplaces hawaited hreads hin hun fun h => absurd hnil h

theorem setResult_numbers (e : UsbEndpointState α) (id : ℕ) (r : EndpointResult α) (o : Bool) :
    (e.setResult id r o).activeTransferList.map EndpointTransfer.number =
      e.activeTransferList.map EndpointTransfer.number := by
  rw [setResult,List.map_map]
  refine List.map_congr_left fun t _ => ?_
  simp only [Function.comp_apply]
  split_ifs <;> rfl

theorem completeHead_queue (e : UsbEndpointState α) : e.completeHead.queue = e.queue := by
  unfold completeHead queue
  split
  · rfl
  · next t rest hactive =>
    rw [hactive,List.append_assoc,List.cons_append,List.takeWhile_append_dropWhile]

theorem completeHead_eq (e : UsbEndpointState α) :
    ∃ active completed woken, e.completeHead = { e with
      activeTransferList := active, completedTransferList := completed, woken } ∧
      (completed = e.completedTransferList ∧ woken = e.woken ∨ woken = true) := by
  unfold completeHead
  split
  · exact ⟨e.activeTransferList,e.completedTransferList,e.woken,rfl,Or.inl ⟨rfl,rfl⟩⟩
  · exact ⟨_,_,true,rfl,Or.inr rfl⟩

theorem Reads.completeHead (h : e.Reads) : e.completeHead.Reads := by
  have hqueue := e.completeHead_queue
  obtain ⟨active,completed,woken,heq,hwoken⟩ := e.completeHead_eq
  rw [heq] at hqueue ⊢
  refine ⟨h.isIn,h.full,h.bytes,h.numbers,?_,h.added,?_,fun hin hne => ?_⟩
  · rw [hqueue]
    exact h.results
  · rw [hqueue]
    exact h.order
  · rcases hwoken with ⟨hcompleted,hwoken⟩ | hwoken
    · show woken = true ∨ _
      rw [hwoken]
      exact h.wake hin (hcompleted ▸ hne)
    · exact Or.inl hwoken

theorem Reads.report (h : e.Reads) (hp : e.Places) (ht : t ∈ e.activeTransferList)
    (r : EndpointResult α) (o : Bool) : ((e.takeBack t r).setResult t.id r o).Reads := by
  have hdelivered : (e.takeBack t r).delivered = e.delivered ++ [(t.number,r.bytes)] := by
    rw [takeBack,h.isIn]
    rfl
  have hold : ∀ a ∈ e.delivered, a ∈ (e.takeBack t r).delivered := fun a ha => by
    rw [hdelivered]
    exact List.mem_append_left _ ha
  refine ⟨h.isIn,h.full,h.bytes,h.numbers,fun u hu r' hr' => ?_,fun a ha => hold a (h.added a ha),
    fun hin => ?_,h.wake⟩
  · show (u.number,r'.bytes) ∈ (e.takeBack t r).delivered
    rcases List.mem_append.mp hu with hu | hu
    · exact hold _ (h.results u (List.mem_append_left _ hu) r' hr')
    · obtain ⟨v,hv,rfl⟩ := List.mem_map.mp hu
      by_cases hvt : v.id = t.id
      · obtain rfl := hp.active_unique hv ht hvt
        rw [if_pos rfl] at hr' ⊢
        cases hr'
        rw [hdelivered]
        exact List.mem_append_right _ (List.mem_singleton.mpr rfl)
      · rw [if_neg hvt] at hr' ⊢
        exact hold _ (h.results v (List.mem_append_right _ hv) r' hr')
  · rw [queue,List.map_append,setResult_numbers,← List.map_append]
    exact h.order hin

theorem Reads.complete (h : e.Reads) (hp : e.Places) (ht : t ∈ e.activeTransferList)
    (r : EndpointResult α) : (e.onTransferCompleted t r).Reads := by
  unfold onTransferCompleted
  split_ifs
  · exact (h.report hp ht r _).completeHead
  · exact h.report hp ht r true

theorem Reads.read (h : e.Reads) (size : ℕ) : Reads { e with
    device := (e.device.bufferedRead size).2
    woken := e.woken || e.device.isOpen
    taken := e.taken ++ (e.device.bufferedRead size).1.data } := by
  have hwake : ∀ {e' : UsbEndpointState α}, e'.thread = e.thread → e'.suspended = e.suspended →
      e'.woken = (e.woken || e.device.isOpen) → e.thread.inLoop = true →
      e.completedTransferList ≠ [] →
        e'.woken = true ∨ e'.thread = .awake ∨ e'.suspended = true := by
    intro e' hthread hsusp hwoken hin hne
    rw [hthread,hsusp,hwoken]
    exact (h.wake hin hne).imp_left fun hw => by rw [hw]; rfl
  cases ho : e.device.isOpen with
  | false =>
    have hread : e.device.bufferedRead size = (⟨none,[],[]⟩,e.device) := by
      rw [AsyncIoDevice.bufferedRead,if_pos ho]
    rw [hread]
    refine ⟨h.isIn,h.full,?_,h.numbers,h.results,h.added,h.order,?_⟩
    · show e.taken ++ [] ++ e.device.readBytesHeld = _
      rw [List.append_nil]
      exact h.bytes
    · exact hwake rfl rfl (by rw [ho])
  | true =>
    obtain ⟨hret,-,-,hheld,hmain,hov,-⟩ := BufferedRun.bufferedRead_open ho size
    obtain ⟨hp,hrest,hfull⟩ :=
      AsyncIoDevice.readBytes_spec h.full (e.device.takeReadMeta size).2.1
    refine ⟨h.isIn,?_,?_,h.numbers,h.results,h.added,h.order,?_⟩
    · show (e.device.bufferedRead size).2.ReadFull
      unfold AsyncIoDevice.ReadFull
      rw [hmain,hov]
      exact hfull
    · show e.taken ++ (e.device.bufferedRead size).1.data ++
        (e.device.bufferedRead size).2.readBytesHeld = _
      rw [hheld,hrest,hret]
      show e.taken ++ (e.device.readBytes (e.device.takeReadMeta size).2.1).1 ++ _ = _
      rw [hp,List.append_assoc,List.take_append_drop]
      exact h.bytes
    · exact hwake rfl rfl (by rw [ho])

end UsbEndpointState
end Jancy.Io
