import Jancy.Io.UsbAsyncControlEndpoint
import Jancy.Lib.Calls
import Jancy.Lib.Counting

/-! Control transfers over whole runs: what has been promised to each, what the collector sees and
when the completion thread sleeps. -/
namespace Jancy.Io

namespace CompletionPc

/-- What the thread has taken over and not begun with. -/
def transferList : CompletionPc → List (ControlTransfer × UsbTransferStatus)
  | .finalizing l _ | .calling _ l _ => l
  | _ => []

/-- The thread has taken the completed transfers over for the last time. -/
def isOver : CompletionPc → Bool
  | .finalizing _ last | .calling _ _ last => last
  | .ended => true
  | _ => false

/-- The transfer whose completion function runs. -/
def current : CompletionPc → Option ControlTransfer
  | .calling t _ _ => some t
  | _ => none

end CompletionPc

namespace ControlEvent

@[simp] def invokedCall : ControlEvent → Option ℕ
  | .invoked call _ => some call
  | _ => none

/-- At every collection the roots of what was submitted, and whose completion function has not
returned, are marked. -/
def Marks (log : List ControlEvent) : Prop :=
  ∀ before marked after, log = before ++ .collected marked :: after →
    ∃ roots, marked = some roots ∧ ∀ t, .submitted t ∈ before → .finished t.call ∉ before →
      t.roots ⊆ roots

end ControlEvent

@[simp] abbrev invokedIn (log : List ControlEvent) : List ℕ :=
  log.filterMap ControlEvent.invokedCall

namespace UsbAsyncControlEndpoint

/-- Nothing moves without a new call: the thread sleeps or has ended, libusb has nothing, and no
transfer is on its way there. -/
structure AtRest (e : UsbAsyncControlEndpoint) : Prop where
  thread : e.thread = .waiting ∧ e.event = false ∨ e.thread = .ended
  owned : e.owned = []
  calls : ∀ (i : ℕ) c t, e.calls[i]? = some c → c.pc ≠ .inserted t

/-- `held` tells whether a completion counts as pending while a cancellation in progress waits for
the other transfers. -/
structure Sound (held : Bool) (e : UsbAsyncControlEndpoint) : Prop where
  once : ∀ i, (invokedIn e.log).count i ≤ 1
  settled : e.AtRest → ∀ (i : ℕ) c r, e.calls[i]? = some c → c.pc = .transferred r →
    (invokedIn e.log).count i = 1
  /-- what is active has been given to libusb, or is about to be -/
  active : ∀ t ∈ e.activeTransferList, t.call ∈ e.owned ∨
    ∃ c, e.calls[t.call]? = some c ∧ c.pc = .inserted t
  /-- the thread does not wait for itself -/
  nested : ∀ (i : ℕ) c, e.calls[i]? = some c → c.nested = true →
    c.pc ≠ .awaitingIdle ∧ c.pc ≠ .awaitingThread
  ended : e.thread = .ended → e.activeTransferList = [] ∧ e.completedTransferList = []
  marks : ControlEvent.Marks e.log
  awake : e.thread = .waiting → e.event = false →
    e.stopFlag = false ∧ e.cancelFlag = false ∧ e.completedTransferList = []
  drainAwake : ∀ last, e.thread = .drainWaiting last → e.event = false →
    e.activeTransferList ≠ [] ∧ (last = false → e.stopFlag = false ∧ e.cancelFlag = false) ∧
      (held = true → e.completedTransferList = [])

/-- No transfer is made once `stop` has finalized the others, the last one that a cancellation waits
for does not fail to be submitted, the signal of a request is not consumed there, completion
functions do not wait for their own thread, and no garbage is collected while the thread finalizes
transfers or a completion function has no closure. -/
def Careful (held : Bool) (e : UsbAsyncControlEndpoint) : ControlAction → Prop
  | .call request nested => nested = true → request ≠ .cancelTransfers ∧ request ≠ .stop
  | .advance i ok =>
      match (e.calls[i]?).map ControlCall.pc with
      | some (.filled _) => e.thread.isOver = false
      | some (.inserted _) => ok = true ∨ e.event = true ∨
          (∃ t ∈ e.activeTransferList, t.call ≠ i) ∨ ∀ last, e.thread ≠ .drainWaiting last
      | _ => True
  | .thread =>
      match e.thread with
      | .drainWaiting false => e.stopFlag = false ∧ e.cancelFlag = false
      | .draining _ => held = true →
          e.activeTransferList = [] ∨ e.completedTransferList = [] ∨ e.event = true
      | _ => True
  | .complete _ _ => True
  | .collect => e.thread.transferList = [] ∧ e.thread.current = none ∧
      ∀ t ∈ e.activeTransferList ++ e.completedTransferList.map Prod.fst, t.hasClosure = true

/-- Calls whose transfer is on a list, or whose completion function has been called. -/
def weight : Option ControlCall → ℕ
  | some c =>
      match c.pc with
      | .inserted _ | .failing | .transferred _ => 1
      | _ => 0
  | none => 0

def registered (e : UsbAsyncControlEndpoint) : List ControlTransfer :=
  e.activeTransferList ++ e.completedTransferList.map Prod.fst ++ e.thread.transferList.map Prod.fst

structure Ledger (e : UsbAsyncControlEndpoint) : Prop where
  balance : ∀ i, (e.registered.map ControlTransfer.call).count i + (invokedIn e.log).count i =
    weight e.calls[i]?
  own : ∀ (i : ℕ) c t, e.calls[i]? = some c → c.pc = .filled t ∨ c.pc = .inserted t → t.call = i
  inserted : ∀ (i : ℕ) c t, e.calls[i]? = some c → c.pc = .inserted t →
    t ∈ e.activeTransferList ∧ i ∉ e.owned
  active : ∀ t ∈ e.activeTransferList, t.call ∈ e.owned ∨
    ∃ c, e.calls[t.call]? = some c ∧ c.pc = .inserted t
  owned : ∀ i ∈ e.owned, i ∈ e.activeTransferList.map ControlTransfer.call
  ownedOnce : e.owned.Nodup
  submitted : ∀ t, .submitted t ∈ e.log →
    ∃ c, e.calls[t.call]? = some c ∧ c.pc = .transferred true
  pending : ∀ t, .submitted t ∈ e.log → .finished t.call ∈ e.log ∨ t ∈ e.registered ∨
    e.thread.current = some t

variable {e e' : UsbAsyncControlEndpoint} {i : ℕ} {c : ControlCall} {t : ControlTransfer}
  {held : Bool}

theorem initial_ledger : initial.Ledger where
  balance i := by simp [initial,registered,CompletionPc.transferList,weight]
  own := by simp [initial]
  inserted := by simp [initial]
  active := by simp [initial]
  owned := by simp [initial]
  ownedOnce := List.nodup_nil
  submitted := by simp [initial]
  pending := by simp [initial]

/-- Flags, events and where the thread stands do not matter, as long as it has the same
transfers. -/
theorem Ledger.congr (h : e.Ledger) (hactive : e'.activeTransferList = e.activeTransferList)
    (hregistered : e'.registered = e.registered) (hcalls : e'.calls = e.calls)
    (howned : e'.owned = e.owned) (hlog : e'.log = e.log)
    (hcurrent : e'.thread.current = e.thread.current) : e'.Ledger where
  balance := by rw [hregistered,hlog,hcalls]; exact h.balance
  own := by rw [hcalls]; exact h.own
  inserted := by rw [hcalls,hactive,howned]; exact h.inserted
  active := by rw [hcalls,hactive,howned]; exact h.active
  owned := by rw [hactive,howned]; exact h.owned
  ownedOnce := by rw [howned]; exact h.ownedOnce
  submitted := by rw [hlog,hcalls]; exact h.submitted
  pending := by rw [hlog,hregistered,hcurrent]; exact h.pending

variable {pc : ControlCallPc}

section

variable (h : e.Ledger)

include h

theorem Ledger.setCall (hc : e.calls[i]? = some c)
    (hweight : weight (some ⟨pc,c.nested⟩) = weight (some c))
    (hold : (∀ t, c.pc ≠ .inserted t) ∧ c.pc ≠ .transferred true)
    (hnew : (∀ t, pc = .filled t → t.call = i) ∧ ∀ t, pc ≠ .inserted t) :
    (e.setCall i ⟨pc,c.nested⟩).Ledger where
  balance j := by
    show _ = weight (e.calls.set i ⟨pc,c.nested⟩)[j]?
    rw [Calls.set_eq hc]
    split_ifs with hj
    · rw [hweight,hj,← hc]
      exact h.balance i
    · exact h.balance j
  own j c' t hj ht := by
    rcases (Calls.set_iff hc).mp hj with ⟨rfl,rfl⟩ | ⟨-,hj⟩
    · exact ht.elim (hnew.1 t) fun hins => absurd hins (hnew.2 t)
    · exact h.own j c' t hj ht
  inserted j c' t hj ht := by
    rcases (Calls.set_iff hc).mp hj with ⟨rfl,rfl⟩ | ⟨-,hj⟩
    · exact absurd ht (hnew.2 t)
    · exact h.inserted j c' t hj ht
  active t ht := (h.active t ht).imp_right (Calls.set_keeps hc (hold.1 t))
  owned := h.owned
  ownedOnce := h.ownedOnce
  submitted t ht := Calls.set_keeps hc hold.2 (h.submitted t ht)
  pending := h.pending

/-- A completion function is called by `transfer` itself, or has returned there. -/
theorem Ledger.emitCall (hc : e.calls[i]? = some c) {ev : ControlEvent}
    (hev : (∀ t, ev ≠ .submitted t))
    (hweight : (invokedIn [ev]).count i + weight (some c) = weight (some ⟨pc,c.nested⟩))
    (hother : ∀ j, j ≠ i → (invokedIn [ev]).count j = 0)
    (hold : (∀ t, c.pc ≠ .inserted t) ∧ c.pc ≠ .transferred true)
    (hnew : (∀ t, pc ≠ .filled t) ∧ ∀ t, pc ≠ .inserted t) :
    ((e.emit ev).setCall i ⟨pc,c.nested⟩).Ledger where
  balance j := by
    show (e.registered.map ControlTransfer.call).count j + (invokedIn (e.log ++ [ev])).count j =
      weight (e.calls.set i ⟨pc,c.nested⟩)[j]?
    have hj := h.balance j
    rw [Calls.set_eq hc]
    simp only [invokedIn,List.filterMap_append,List.count_append] at hj hweight hother ⊢
    split_ifs with hji
    · rw [hji] at hj ⊢
      rw [hc] at hj
      omega
    · have := hother j hji
      omega
  own j c' t hj ht := by
    rcases (Calls.set_iff hc).mp hj with ⟨rfl,rfl⟩ | ⟨-,hj⟩
    · exact ht.elim (fun hf => absurd hf (hnew.1 t)) fun hins => absurd hins (hnew.2 t)
    · exact h.own j c' t hj ht
  inserted j c' t hj ht := by
    rcases (Calls.set_iff hc).mp hj with ⟨rfl,rfl⟩ | ⟨-,hj⟩
    · exact absurd ht (hnew.2 t)
    · exact h.inserted j c' t hj ht
  active t ht := (h.active t ht).imp_right (Calls.set_keeps hc (hold.1 t))
  owned := h.owned
  ownedOnce := h.ownedOnce
  submitted t ht := by
    have ht : .submitted t ∈ e.log := by
      rcases List.mem_append.mp ht with ht | ht
      · exact ht
      · exact absurd (List.mem_singleton.mp ht).symm (hev t)
    exact Calls.set_keeps hc hold.2 (h.submitted t ht)
  pending t ht := by
    have ht : .submitted t ∈ e.log := by
      rcases List.mem_append.mp ht with ht | ht
      · exact ht
      · exact absurd (List.mem_singleton.mp ht).symm (hev t)
    exact (h.pending t ht).imp_left (List.mem_append_left _)

theorem Ledger.unregistered (hc : e.calls[i]? = some c) (hweight : weight (some c) = 0) :
    i ∉ e.registered.map ControlTransfer.call := by
  have := h.balance i
  rw [hc,hweight] at this
  exact List.count_eq_zero.mp (by omega)

theorem Ledger.insert (hc : e.calls[i]? = some c) (hpc : c.pc = .filled t) :
    ((e.insertActive t).setCall i ⟨.inserted t,c.nested⟩).Ledger := by
  have hown : t.call = i := h.own i c t hc (.inl hpc)
  have hfresh : i ∉ e.registered.map ControlTransfer.call :=
    h.unregistered hc (by simp [weight,hpc])
  have hunowned : i ∉ e.owned := by
    intro hi
    obtain ⟨u,hu,hui⟩ := List.mem_map.mp (h.owned i hi)
    exact hfresh (List.mem_map.mpr ⟨u,by simp [registered,hu],hui⟩)
  constructor
  · intro j
    show (((e.activeTransferList ++ [t]) ++ e.completedTransferList.map Prod.fst ++
      e.thread.transferList.map Prod.fst).map ControlTransfer.call).count j + _ =
      weight (e.calls.set i ⟨.inserted t,c.nested⟩)[j]?
    have hj := h.balance j
    rw [Calls.set_eq hc]
    simp only [registered,List.map_append,List.count_append,List.map_cons,List.map_nil,hown,
      insertActive,UsbAsyncControlEndpoint.setCall,List.count_singleton,beq_iff_eq] at hj ⊢
    by_cases hji : j = i
    · subst hji
      rw [hc] at hj
      simp only [weight,hpc,if_true] at hj ⊢
      omega
    · simp only [hji,Ne.symm hji,if_false]
      omega
  · intro j c' u hj hu
    rcases (Calls.set_iff hc).mp hj with ⟨rfl,rfl⟩ | ⟨-,hj⟩
    · rcases hu with hu | hu
      · cases hu
      · cases hu
        exact hown
    · exact h.own j c' u hj hu
  · intro j c' u hj hu
    rcases (Calls.set_iff hc).mp hj with ⟨rfl,rfl⟩ | ⟨-,hj⟩
    · cases hu
      exact ⟨by simp [insertActive,UsbAsyncControlEndpoint.setCall],hunowned⟩
    · obtain ⟨hmem,hno⟩ := h.inserted j c' u hj hu
      exact ⟨List.mem_append_left _ hmem,hno⟩
  · intro u hu
    rcases List.mem_append.mp hu with hu | hu
    · exact (h.active u hu).imp_right (Calls.set_keeps hc (by simp [hpc]))
    · obtain rfl := List.mem_singleton.mp hu
      exact .inr ⟨_,(Calls.set_iff hc).mpr (.inl ⟨hown,rfl⟩),rfl⟩
  · intro j hj
    obtain ⟨u,hu,huj⟩ := List.mem_map.mp (h.owned j hj)
    exact List.mem_map.mpr ⟨u,List.mem_append_left _ hu,huj⟩
  · exact h.ownedOnce
  · intro u hu
    exact Calls.set_keeps hc (by simp [hpc]) (h.submitted u hu)
  · intro u hu
    refine (h.pending u hu).imp_right fun hrest => hrest.imp_left fun hreg => ?_
    simp only [registered,insertActive,UsbAsyncControlEndpoint.setCall,List.mem_append,
      List.mem_singleton] at hreg ⊢
    tauto

theorem Ledger.submit (hc : e.calls[i]? = some c) (hpc : c.pc = .inserted t) :
    (({ e with owned := e.owned ++ [i] }.emit (.submitted t)).setCall i
      ⟨.transferred true,c.nested⟩).Ledger := by
  have hown : t.call = i := h.own i c t hc (.inr hpc)
  obtain ⟨hmem,hunowned⟩ := h.inserted i c t hc hpc
  constructor
  · intro j
    show (e.registered.map ControlTransfer.call).count j +
      (invokedIn (e.log ++ [.submitted t])).count j =
        weight (e.calls.set i ⟨.transferred true,c.nested⟩)[j]?
    have hj := h.balance j
    rw [Calls.set_eq hc]
    simp only [invokedIn,List.filterMap_append,List.filterMap_cons,ControlEvent.invokedCall,
      List.filterMap_nil,List.append_nil] at hj ⊢
    split_ifs with hji
    · subst hji
      rw [hc] at hj
      simp only [weight,hpc] at hj ⊢
      exact hj
    · exact hj
  · intro j c' u hj hu
    rcases (Calls.set_iff hc).mp hj with ⟨rfl,rfl⟩ | ⟨-,hj⟩
    · rcases hu with hu | hu <;> cases hu
    · exact h.own j c' u hj hu
  · intro j c' u hj hu
    rcases (Calls.set_iff hc).mp hj with ⟨rfl,rfl⟩ | ⟨hji,hj⟩
    · cases hu
    · obtain ⟨hu,hno⟩ := h.inserted j c' u hj hu
      refine ⟨hu,fun hj => ?_⟩
      rcases List.mem_append.mp hj with hj | hj
      · exact hno hj
      · exact hji (List.mem_singleton.mp hj)
  · intro u hu
    by_cases hui : u.call = i
    · exact .inl (List.mem_append_right _ (List.mem_singleton.mpr hui))
    · refine (h.active u hu).imp (List.mem_append_left _) fun ⟨c',hc',hins⟩ => ⟨c',?_,hins⟩
      exact (Calls.set_iff hc).mpr (.inr ⟨hui,hc'⟩)
  · intro j hj
    rcases List.mem_append.mp hj with hj | hj
    · exact h.owned j hj
    · obtain rfl := List.mem_singleton.mp hj
      exact List.mem_map.mpr ⟨t,hmem,hown⟩
  · refine List.nodup_append.mpr ⟨h.ownedOnce,by simp,?_⟩
    rintro j hj k hk rfl
    rw [List.mem_singleton.mp hk] at hj
    exact hunowned hj
  · intro u hu
    rcases List.mem_append.mp hu with hu | hu
    · exact Calls.set_keeps hc (by simp [hpc]) (h.submitted u hu)
    · cases List.mem_singleton.mp hu
      exact ⟨_,(Calls.set_iff hc).mpr (.inl ⟨hown,rfl⟩),rfl⟩
  · intro u hu
    rcases List.mem_append.mp hu with hu | hu
    · exact (h.pending u hu).imp_left (List.mem_append_left _)
    · cases List.mem_singleton.mp hu
      exact .inr (.inl (List.mem_append_left _ (List.mem_append_left _ hmem)))

theorem Ledger.unsubmitted (hc : e.calls[i]? = some c) (hpc : c.pc = .inserted t) :
    ((e.removeActive i).setCall i ⟨.failed,c.nested⟩).Ledger := by
  have hown : t.call = i := h.own i c t hc (.inr hpc)
  obtain ⟨hmem,hunowned⟩ := h.inserted i c t hc hpc
  have hkeep : ∀ u ∈ e.activeTransferList, u.call ≠ i →
      u ∈ e.activeTransferList.filter fun t => decide (t.call ≠ i) := fun u hu hui =>
    List.mem_filter.mpr ⟨hu,by simpa using hui⟩
  constructor
  · intro j
    show (((e.activeTransferList.filter fun t => decide (t.call ≠ i)) ++
      e.completedTransferList.map Prod.fst ++ e.thread.transferList.map Prod.fst).map
        ControlTransfer.call).count j + (invokedIn e.log).count j =
      weight (e.calls.set i ⟨.failed,c.nested⟩)[j]?
    have hj := h.balance j
    rw [Calls.set_eq hc]
    simp only [registered,List.map_append,List.count_append,Counting.count_filter_ne] at hj ⊢
    split_ifs with hji
    · subst hji
      have hpos := List.count_pos_iff.mpr (List.mem_map.mpr ⟨t,hmem,hown⟩)
      rw [hc] at hj
      simp only [weight,hpc] at hj ⊢
      omega
    · exact hj
  · intro j c' u hj hu
    rcases (Calls.set_iff hc).mp hj with ⟨rfl,rfl⟩ | ⟨-,hj⟩
    · rcases hu with hu | hu <;> cases hu
    · exact h.own j c' u hj hu
  · intro j c' u hj hu
    rcases (Calls.set_iff hc).mp hj with ⟨rfl,rfl⟩ | ⟨hji,hj⟩
    · cases hu
    · obtain ⟨hmem,hno⟩ := h.inserted j c' u hj hu
      exact ⟨hkeep u hmem (by rwa [h.own j c' u hj (.inr hu)]),hno⟩
  · intro u hu
    obtain ⟨hu,hui⟩ := List.mem_filter.mp hu
    have hui : u.call ≠ i := by simpa using hui
    exact (h.active u hu).imp_right fun ⟨c',hc',hins⟩ =>
      ⟨c',(Calls.set_iff hc).mpr (.inr ⟨hui,hc'⟩),hins⟩
  · intro j hj
    obtain ⟨u,hu,huj⟩ := List.mem_map.mp (h.owned j hj)
    refine List.mem_map.mpr ⟨u,hkeep u hu ?_,huj⟩
    rintro rfl
    rw [huj] at hunowned
    exact hunowned hj
  · exact h.ownedOnce
  · intro u hu
    exact Calls.set_keeps hc (by simp [hpc]) (h.submitted u hu)
  · intro u hu
    have hui : u.call ≠ i := by
      rintro rfl
      obtain ⟨c',hc',htr⟩ := h.submitted u hu
      rw [hc] at hc'
      cases hc'
      rw [hpc] at htr
      cases htr
    refine (h.pending u hu).imp_right fun hrest => hrest.imp_left fun hreg => ?_
    simp only [registered,removeActive,UsbAsyncControlEndpoint.setCall,List.mem_append] at hreg ⊢
    exact hreg.imp_left fun hleft => hleft.imp_left fun hu => hkeep u hu hui

/-- libusb gives a transfer back. -/
theorem Ledger.complete (hi : i ∈ e.owned) (status : UsbTransferStatus) :
    (e.onTransferCompleted i status).Ledger := by
  have hcalls : ∀ (c : ControlCall) (t : ControlTransfer), e.calls[i]? = some c →
      c.pc ≠ .inserted t := fun c t hc hpc => (h.inserted i c t hc hpc).2 hi
  have hkeep : ∀ u ∈ e.activeTransferList, u.call ≠ i →
      u ∈ e.activeTransferList.filter fun t => decide (t.call ≠ i) := fun u hu hui =>
    List.mem_filter.mpr ⟨hu,by simpa using hui⟩
  constructor
  · intro j
    show (((e.activeTransferList.filter fun t => decide (t.call ≠ i)) ++
      (e.completedTransferList ++ (e.activeTransferList.filter fun t =>
        decide (t.call = i)).map fun t => (t,status)).map Prod.fst ++
      e.thread.transferList.map Prod.fst).map ControlTransfer.call).count j +
        (invokedIn e.log).count j = weight e.calls[j]?
    have hj := h.balance j
    have hmap : ((e.activeTransferList.filter fun t => decide (t.call = i)).map fun t =>
        (t,status)).map Prod.fst = e.activeTransferList.filter fun t => decide (t.call = i) := by
      rw [List.map_map]
      exact List.map_id _
    simp only [List.map_append,hmap,registered,List.count_append,Counting.count_filter_ne,
      Counting.count_filter_eq] at hj ⊢
    split_ifs <;> omega
  · exact h.own
  · intro j c u hj hu
    obtain ⟨hmem,hno⟩ := h.inserted j c u hj hu
    refine ⟨hkeep u hmem fun hui => ?_,fun hj => hno (List.mem_of_mem_erase hj)⟩
    rw [h.own j c u hj (.inr hu)] at hui
    subst hui
    exact hcalls c u hj hu
  · intro u hu
    obtain ⟨hu,hui⟩ := List.mem_filter.mp hu
    have hui : u.call ≠ i := by simpa using hui
    exact (h.active u hu).imp_left fun ho => (List.mem_erase_of_ne hui).mpr ho
  · intro j hj
    have hji : j ≠ i := fun heq => h.ownedOnce.not_mem_erase (heq ▸ hj)
    obtain ⟨u,hu,huj⟩ := List.mem_map.mp (h.owned j (List.mem_of_mem_erase hj))
    exact List.mem_map.mpr ⟨u,hkeep u hu (huj ▸ hji),huj⟩
  · exact h.ownedOnce.erase i
  · exact h.submitted
  · intro u hu
    refine (h.pending u hu).imp_right fun hrest => hrest.imp_left fun hreg => ?_
    simp only [registered,onTransferCompleted,removeActive,List.mem_append,List.map_append] at hreg ⊢
    rcases hreg with (hreg | hreg) | hreg
    · by_cases hui : u.call = i
      · refine .inl (.inr (.inr ?_))
        simp [hreg,hui]
      · exact .inl (.inl (hkeep u hreg hui))
    · exact .inl (.inr (.inl hreg))
    · exact .inr hreg

theorem Ledger.invoke {status : UsbTransferStatus}
    {rest : List (ControlTransfer × UsbTransferStatus)} {last : Bool}
    (hthread : e.thread = .finalizing ((t,status) :: rest) last) :
    ({ e with thread := .calling t rest last }.emit (.invoked t.call status.result)).Ledger where
  balance j := by
    have hj := h.balance j
    simp only [registered,hthread,CompletionPc.transferList,List.map_cons,List.map_append,emit,
      List.count_append,List.count_cons,invokedIn,List.filterMap_append,List.filterMap_cons,
      ControlEvent.invokedCall,List.filterMap_nil,List.count_nil] at hj ⊢
    omega
  own := h.own
  inserted := h.inserted
  active := h.active
  owned := h.owned
  ownedOnce := h.ownedOnce
  submitted u hu := h.submitted u (by simpa [emit] using hu)
  pending u hu := by
    have hpending := h.pending u (by simpa [emit] using hu)
    simp only [registered,hthread,CompletionPc.transferList,CompletionPc.current,List.map_cons,
      List.mem_append,List.mem_cons,emit,reduceCtorEq,List.not_mem_nil,or_false,
      Option.some.injEq] at hpending ⊢
    rcases hpending with hp | (hp | hp) | hp | hp
    · exact .inl hp
    · exact .inr (.inl (.inl (.inl hp)))
    · exact .inr (.inl (.inl (.inr hp)))
    · exact .inr (.inr (by rw [hp]))
    · exact .inr (.inl (.inr hp))

theorem Ledger.finish {rest : List (ControlTransfer × UsbTransferStatus)} {last : Bool}
    (hthread : e.thread = .calling t rest last) :
    ({ e with thread := .finalizing rest last }.emit (.finished t.call)).Ledger where
  balance j := by
    have hj := h.balance j
    simp only [registered,hthread,CompletionPc.transferList,emit,invokedIn,List.filterMap_append,
      List.filterMap_cons,ControlEvent.invokedCall,List.filterMap_nil,List.append_nil] at hj ⊢
    exact hj
  own := h.own
  inserted := h.inserted
  active := h.active
  owned := h.owned
  ownedOnce := h.ownedOnce
  submitted u hu := h.submitted u (by simpa [emit] using hu)
  pending u hu := by
    have hpending := h.pending u (by simpa [emit] using hu)
    simp only [registered,hthread,CompletionPc.transferList,CompletionPc.current,emit,
      List.mem_append,List.mem_singleton,Option.some.injEq] at hpending ⊢
    rcases hpending with hp | hp | hp
    · exact .inl (.inl hp)
    · exact .inr (.inl hp)
    · exact .inl (.inr (by rw [hp]))

end

/-- No request is set that the thread has not seen. -/
def Unrequested (e : UsbAsyncControlEndpoint) : Prop := e.stopFlag = false ∧ e.cancelFlag = false

/-- Where the thread cancels transfers: for `stop`, or with every later request signaled. -/
def Serves (e : UsbAsyncControlEndpoint) (last : Bool) : Prop :=
  if last then e.stopFlag = true else e.event = false → e.Unrequested

def Over (e : UsbAsyncControlEndpoint) : Prop :=
  e.stopFlag = true ∧ e.activeTransferList = [] ∧ e.completedTransferList = []

/-- Nothing is to be done that has not been signaled. -/
def Idle (e : UsbAsyncControlEndpoint) : Prop :=
  e.event = false → e.Unrequested ∧ e.completedTransferList = []

def Signals (held : Bool) (e : UsbAsyncControlEndpoint) : Prop :=
  match e.thread with
  | .waiting => e.Idle
  | .woken => True
  | .cancelling _ last | .draining last => e.Serves last
  | .drainWaiting last => e.Serves last ∧ (e.event = false → e.activeTransferList ≠ [] ∧
      (held = true → e.completedTransferList = []))
  | .finalizing _ last | .calling _ _ last => if last then e.Over else e.Idle
  | .ended => e.Over

theorem Signals.signal (h : e.Signals held) (hthread : e'.thread = e.thread)
    (hevent : e'.event = true) (hstop : e.stopFlag = true → e'.stopFlag = true)
    (hover : e.Over → e'.Over) : e'.Signals held := by
  have hidle : e'.Idle := fun hoff => by rw [hevent] at hoff; cases hoff
  have hserves : ∀ last, e.Serves last → e'.Serves last := by
    intro last hs
    cases last
    · exact fun hoff => by rw [hevent] at hoff; cases hoff
    · exact hstop hs
  unfold Signals at h ⊢
  rw [hthread]
  cases hpc : e.thread with
  | waiting => exact hidle
  | woken => trivial
  | cancelling l last =>
    rw [hpc] at h
    exact hserves last h
  | draining last =>
    rw [hpc] at h
    exact hserves last h
  | drainWaiting last =>
    rw [hpc] at h
    exact ⟨hserves last h.1,fun hoff => by rw [hevent] at hoff; cases hoff⟩
  | finalizing l last =>
    rw [hpc] at h
    cases last
    · exact hidle
    · exact hover h
  | calling t l last =>
    rw [hpc] at h
    cases last
    · exact hidle
    · exact hover h
  | ended =>
    rw [hpc] at h
    exact hover h

theorem Signals.congr (h : e.Signals held) (hthread : e'.thread = e.thread)
    (hevent : e'.event = e.event) (hstop : e'.stopFlag = e.stopFlag)
    (hcancel : e'.cancelFlag = e.cancelFlag) (hactive : e'.activeTransferList = e.activeTransferList)
    (hcompleted : e'.completedTransferList = e.completedTransferList) : e'.Signals held := by
  unfold Signals Serves Idle Over Unrequested at *
  rw [hthread,hevent,hstop,hcancel,hactive,hcompleted]
  exact h

theorem Signals.active (h : e.Signals held) (hthread : e'.thread = e.thread)
    (hevent : e'.event = e.event) (hstop : e'.stopFlag = e.stopFlag)
    (hcancel : e'.cancelFlag = e.cancelFlag)
    (hcompleted : e'.completedTransferList = e.completedTransferList)
    (hover : e.thread.isOver = true → e.activeTransferList = [] → e'.activeTransferList = [])
    (hdrain : ∀ last, e.thread = .drainWaiting last → e.event = false → e.activeTransferList ≠ [] →
      e'.activeTransferList ≠ []) : e'.Signals held := by
  have hover' : e.thread.isOver = true → e.Over → e'.Over := fun hlast ho =>
    ⟨hstop.trans ho.1,hover hlast ho.2.1,hcompleted.trans ho.2.2⟩
  unfold Signals Serves Idle Unrequested at *
  rw [hthread,hevent,hstop,hcancel,hcompleted]
  cases hpc : e.thread with
  | drainWaiting last =>
    rw [hpc] at h
    exact ⟨h.1,fun hoff => ⟨hdrain last hpc hoff (h.2 hoff).1,(h.2 hoff).2⟩⟩
  | finalizing l last =>
    rw [hpc] at h hover'
    cases last
    · exact h
    · exact hover' rfl h
  | calling t l last =>
    rw [hpc] at h hover'
    cases last
    · exact h
    · exact hover' rfl h
  | ended =>
    rw [hpc] at h hover'
    exact hover' rfl h
  | _ =>
    rw [hpc] at h
    exact h

/-- No call of a completion function is to wait for the thread. -/
def NestedFree (e : UsbAsyncControlEndpoint) : Prop :=
  ∀ (i : ℕ) c, e.calls[i]? = some c → c.nested = true → c.pc ≠ .entered .cancelTransfers ∧
    c.pc ≠ .entered .stop ∧ c.pc ≠ .awaitingIdle ∧ c.pc ≠ .awaitingThread

structure Inv (held : Bool) (e : UsbAsyncControlEndpoint) : Prop where
  ledger : e.Ledger
  signals : e.Signals held
  nested : e.NestedFree
  marks : ControlEvent.Marks e.log

theorem initial_inv : initial.Inv held where
  ledger := initial_ledger
  signals _ := ⟨⟨rfl,rfl⟩,rfl⟩
  nested := by simp [NestedFree,initial]
  marks := by simp [ControlEvent.Marks,initial]

theorem NestedFree.setCall (h : e.NestedFree) (hc : e.calls[i]? = some c)
    (hpc : c.nested = true → pc ≠ .entered .cancelTransfers ∧ pc ≠ .entered .stop ∧
      pc ≠ .awaitingIdle ∧ pc ≠ .awaitingThread) :
    (e.setCall i ⟨pc,c.nested⟩).NestedFree := by
  intro j c' hj hn
  rcases (Calls.set_iff hc).mp hj with ⟨-,rfl⟩ | ⟨-,hj⟩
  · exact hpc hn
  · exact h j c' hj hn

theorem marks_append {log : List ControlEvent} (h : ControlEvent.Marks log) {ev : ControlEvent}
    (hev : ∀ marked, ev ≠ .collected marked) : ControlEvent.Marks (log ++ [ev]) := by
  intro before marked after heq
  rcases List.append_eq_append_iff.mp heq with ⟨l,hl,hr⟩ | ⟨l,hl,hr⟩
  · cases l with
    | nil =>
      cases hr
      exact absurd rfl (hev marked)
    | cons x l =>
      cases l <;> cases hr
  · cases l with
    | nil =>
      cases hr
      exact absurd rfl (hev marked)
    | cons x l =>
      cases hr
      exact h before marked l hl

theorem marks_collect {log : List ControlEvent} (h : ControlEvent.Marks log)
    {marked : Option (List ControlRoot)} (hm : ∃ roots, marked = some roots ∧
      ∀ t, .submitted t ∈ log → .finished t.call ∉ log → t.roots ⊆ roots) :
    ControlEvent.Marks (log ++ [.collected marked]) := by
  intro before marked' after heq
  rcases List.append_eq_append_iff.mp heq with ⟨l,hl,hr⟩ | ⟨l,hl,hr⟩
  · cases l with
    | nil =>
      cases hr
      rw [List.append_nil] at hl
      rwa [hl]
    | cons x l =>
      cases l <;> cases hr
  · cases l with
    | nil =>
      cases hr
      rw [List.append_nil] at hl
      rwa [← hl]
    | cons x l =>
      cases hr
      exact h before marked' l hl

section

variable (h : e.Inv held)

include h

theorem Inv.call (request : ControlRequest) (nested : Bool)
    (hcare : nested = true → request ≠ .cancelTransfers ∧ request ≠ .stop) :
    Inv held { e with calls := e.calls ++ [⟨.entered request,nested⟩] } := by
  have hget : ∀ j : ℕ, weight (e.calls ++ [⟨.entered request,nested⟩])[j]? = weight e.calls[j]? := by
    intro j
    rw [Calls.append_eq]
    split_ifs with hj
    · rw [List.getElem?_eq_none (Nat.le_of_eq hj.symm)]
      rfl
    · rfl
  refine ⟨⟨fun j => ?_,?_,?_,?_,h.ledger.owned,h.ledger.ownedOnce,?_,h.ledger.pending⟩,?_,?_,h.marks⟩
  · show _ = weight (e.calls ++ [⟨.entered request,nested⟩])[j]?
    rw [hget]
    exact h.ledger.balance j
  · intro j c t hj ht
    rcases Calls.append_iff.mp hj with ⟨-,rfl⟩ | hj
    · rcases ht with ht | ht <;> cases ht
    · exact h.ledger.own j c t hj ht
  · intro j c t hj ht
    rcases Calls.append_iff.mp hj with ⟨-,rfl⟩ | hj
    · cases ht
    · exact h.ledger.inserted j c t hj ht
  · intro t ht
    exact (h.ledger.active t ht).imp_right fun ⟨c,hc,hins⟩ => ⟨c,Calls.append_iff.mpr (.inr hc),hins⟩
  · intro t ht
    obtain ⟨c,hc,htr⟩ := h.ledger.submitted t ht
    exact ⟨c,Calls.append_iff.mpr (.inr hc),htr⟩
  · exact h.signals.congr rfl rfl rfl rfl rfl rfl
  · intro j c hj hn
    rcases Calls.append_iff.mp hj with ⟨-,rfl⟩ | hj
    · obtain ⟨hcancel,hstop⟩ := hcare hn
      simp [hcancel,hstop]
    · exact h.nested j c hj hn

theorem Inv.advance (hc : e.calls[i]? = some c) {ok : Bool} (hcare : e.Careful held (.advance i ok))
    {r : UsbAsyncControlEndpoint × ControlCallPc} (hr : e.advance i ok c.pc = some r) :
    (r.1.setCall i ⟨r.2,c.nested⟩).Inv held := by
  simp only [Careful,hc,Option.map_some] at hcare
  have hsame : ∀ {pc : ControlCallPc}, (e.setCall i ⟨pc,c.nested⟩).Signals held :=
    h.signals.congr rfl rfl rfl rfl rfl rfl
  cases hpc : c.pc with
  | entered request =>
    rw [hpc] at hr
    cases request with
    | transfer isIn hasValidator hasClosure =>
      cases hr
      cases ok
      · exact ⟨h.ledger.setCall hc (by simp [weight,hpc]) (by simp [hpc]) (by simp),hsame,
          h.nested.setCall hc (by simp),h.marks⟩
      · refine ⟨h.ledger.setCall hc (by simp [weight,hpc]) (by simp [hpc]) (by simp),hsame,
          h.nested.setCall hc (by simp),h.marks⟩
    | cancelTransfers =>
      cases hr
      have hledger : (e.setCall i ⟨.awaitingIdle,c.nested⟩).Ledger :=
        h.ledger.setCall hc (by simp [weight,hpc]) (by simp [hpc]) (by simp)
      refine ⟨hledger.congr rfl rfl rfl rfl rfl rfl,h.signals.signal rfl rfl id id,?_,h.marks⟩
      refine NestedFree.setCall (e := e) h.nested hc fun hn => ?_
      exact absurd hpc (h.nested i c hc hn).1
    | stop =>
      cases hr
      have hledger : (e.setCall i ⟨.awaitingThread,c.nested⟩).Ledger :=
        h.ledger.setCall hc (by simp [weight,hpc]) (by simp [hpc]) (by simp)
      refine ⟨hledger.congr rfl rfl rfl rfl rfl rfl,
        h.signals.signal rfl rfl (fun _ => rfl) fun ho => ⟨rfl,ho.2⟩,?_,h.marks⟩
      refine NestedFree.setCall (e := e) h.nested hc fun hn => ?_
      exact absurd hpc (h.nested i c hc hn).2.1
  | filled t =>
    rw [hpc] at hr hcare
    cases hr
    refine ⟨h.ledger.insert hc hpc,?_,NestedFree.setCall (e := e) h.nested hc (by simp),h.marks⟩
    refine h.signals.active rfl rfl rfl rfl rfl (fun ho => ?_) fun last _ _ _ => ?_
    · exact absurd (hcare.symm.trans ho) Bool.false_ne_true
    · simp [insertActive,UsbAsyncControlEndpoint.setCall]
  | inserted t =>
    rw [hpc] at hr hcare
    cases ok with
    | true =>
      cases hr
      exact ⟨h.ledger.submit hc hpc,h.signals.congr rfl rfl rfl rfl rfl rfl,
        NestedFree.setCall (e := e) h.nested hc (by simp),marks_append h.marks (by simp)⟩
    | false =>
      cases hr
      refine ⟨h.ledger.unsubmitted hc hpc,?_,NestedFree.setCall (e := e) h.nested hc (by simp),
        h.marks⟩
      refine h.signals.active rfl rfl rfl rfl rfl (fun _ ho => ?_) fun last hlast hoff _ => ?_
      · simp [removeActive,UsbAsyncControlEndpoint.setCall,ho]
      · rcases hcare with hok | hon | ⟨u,hu,hui⟩ | hnot
        · cases hok
        · exact absurd (hoff.symm.trans hon) Bool.false_ne_true
        · exact List.ne_nil_of_mem (List.mem_filter.mpr ⟨hu,by simpa using hui⟩)
        · exact absurd hlast (hnot last)
  | failed =>
    rw [hpc] at hr
    cases hr
    refine ⟨h.ledger.emitCall hc (by simp) (by simp [weight,hpc])
      (fun j hj => ?_) (by simp [hpc]) (by simp),h.signals.congr rfl rfl rfl rfl rfl rfl,
      NestedFree.setCall (e := e) h.nested hc (by simp),marks_append h.marks (by simp)⟩
    simp [Ne.symm hj]
  | failing =>
    rw [hpc] at hr
    cases hr
    exact ⟨h.ledger.emitCall hc (by simp) (by simp [weight,hpc,List.filterMap_cons])
      (by simp [List.filterMap_cons]) (by simp [hpc]) (by simp),h.signals.congr rfl rfl rfl rfl rfl rfl,
      NestedFree.setCall (e := e) h.nested hc (by simp),marks_append h.marks (by simp)⟩
  | awaitingIdle =>
    rw [hpc] at hr
    simp only [UsbAsyncControlEndpoint.advance] at hr
    split_ifs at hr
    cases hr
    exact ⟨h.ledger.setCall hc (by simp [weight,hpc]) (by simp [hpc]) (by simp),hsame,
      h.nested.setCall hc (by simp),h.marks⟩
  | awaitingThread =>
    rw [hpc] at hr
    simp only [UsbAsyncControlEndpoint.advance] at hr
    split_ifs at hr
    cases hr
    exact ⟨h.ledger.setCall hc (by simp [weight,hpc]) (by simp [hpc]) (by simp),hsame,
      h.nested.setCall hc (by simp),h.marks⟩
  | transferred result =>
    rw [hpc] at hr
    cases hr
  | returned =>
    rw [hpc] at hr
    cases hr

theorem Inv.complete (hi : i ∈ e.owned) (status : UsbTransferStatus) :
    (e.onTransferCompleted i status).Inv held := by
  refine ⟨h.ledger.complete hi status,h.signals.signal rfl rfl id fun ho => ?_,h.nested,h.marks⟩
  have hmem := h.ledger.owned i hi
  rw [ho.2.1] at hmem
  cases hmem

theorem Inv.collect (hcare : e.Careful held .collect) :
    (e.emit (.collected e.markOpaqueGcRoots)).Inv held := by
  obtain ⟨hlist,hcurrent,hclosures⟩ := hcare
  have hregistered : e.registered =
      e.activeTransferList ++ e.completedTransferList.map Prod.fst := by
    simp [registered,hlist]
  have hmarked : e.markOpaqueGcRoots = some (e.registered.map ControlTransfer.roots).flatten := by
    have hall : ∀ l : List ControlTransfer, (∀ t ∈ l, t.hasClosure = true) →
        l.mapM ControlTransfer.markGcRoots = some (l.map ControlTransfer.roots) := by
      intro l hl
      induction l with
      | nil => rfl
      | cons t l ih =>
        rw [List.mapM_cons,ih fun u hu => hl u (List.mem_cons_of_mem t hu)]
        simp [ControlTransfer.markGcRoots,hl t List.mem_cons_self]
    rw [markOpaqueGcRoots,hall _ hclosures,hregistered]
    rfl
  refine ⟨⟨fun j => ?_,h.ledger.own,h.ledger.inserted,h.ledger.active,h.ledger.owned,
    h.ledger.ownedOnce,fun t ht => h.ledger.submitted t (by simpa [emit] using ht),fun t ht => ?_⟩,
    h.signals.congr rfl rfl rfl rfl rfl rfl,h.nested,marks_collect h.marks ⟨_,hmarked,?_⟩⟩
  · have hj := h.ledger.balance j
    simpa [emit,registered,List.filterMap_cons] using hj
  · have hpending := h.ledger.pending t (by simpa [emit] using ht)
    exact hpending.imp_left (List.mem_append_left _)
  · intro t hs hf
    have hmem : t ∈ e.registered := by
      rcases h.ledger.pending t hs with hp | hp | hp
      · exact absurd hp hf
      · exact hp
      · rw [hcurrent] at hp
        cases hp
    intro root hroot
    exact List.mem_flatten.mpr ⟨_,List.mem_map_of_mem hmem,hroot⟩

theorem Inv.threadStep (hcare : e.Careful held .thread) (hs : e.threadStep = some e') :
    e'.Inv held := by
  have hsignals := h.signals
  unfold Signals at hsignals
  unfold UsbAsyncControlEndpoint.threadStep at hs
  simp only [Careful] at hcare
  cases hpc : e.thread with
  | waiting =>
    simp only [hpc] at hs
    split_ifs at hs
    cases hs
    refine ⟨h.ledger.congr rfl ?_ rfl rfl rfl ?_,trivial,h.nested,h.marks⟩
    · simp [registered,hpc,CompletionPc.transferList]
    · simp [hpc,CompletionPc.current]
  | woken =>
    have hcancel : ∀ (e' : UsbAsyncControlEndpoint) (last : Bool),
        e'.activeTransferList = e.activeTransferList →
        e'.completedTransferList = e.completedTransferList → e'.calls = e.calls →
        e'.owned = e.owned → e'.log = e.log → e'.Serves last →
        (e'.cancelAllActiveTransfers last).Inv held := by
      intro e' last h₁ h₂ h₃ h₄ h₅ hserves
      refine ⟨h.ledger.congr h₁ ?_ h₃ h₄ h₅ ?_,hserves,?_,?_⟩
      · simp [registered,hpc,CompletionPc.transferList,cancelAllActiveTransfers,h₁,h₂]
      · simp [hpc,CompletionPc.current,cancelAllActiveTransfers]
      · show NestedFree { e' with thread := _ }
        unfold NestedFree
        rw [h₃]
        exact h.nested
      · show ControlEvent.Marks e'.log
        rw [h₅]
        exact h.marks
    simp only [hpc] at hs
    split_ifs at hs with hstop hflag
    · cases hs
      exact hcancel e true rfl rfl rfl rfl rfl hstop
    · cases hs
      exact hcancel _ false rfl rfl rfl rfl rfl fun _ => ⟨by simpa using hstop,rfl⟩
    · cases hs
      refine ⟨h.ledger.congr rfl ?_ rfl rfl rfl ?_,fun _ => ⟨⟨?_,?_⟩,rfl⟩,h.nested,h.marks⟩
      · simp [registered,hpc,CompletionPc.transferList,takeOverCompleted]
      · simp [hpc,CompletionPc.current,takeOverCompleted]
      · show e.stopFlag = false
        simpa using hstop
      · show e.cancelFlag = false
        simpa using hflag
  | cancelling l last =>
    rw [hpc] at hsignals
    cases l with
    | nil =>
      simp only [hpc] at hs
      cases hs
      refine ⟨h.ledger.congr rfl ?_ rfl rfl rfl ?_,hsignals,h.nested,h.marks⟩
      · simp [registered,hpc,CompletionPc.transferList]
      · simp [hpc,CompletionPc.current]
    | cons i l =>
      simp only [hpc] at hs
      cases hs
      refine ⟨h.ledger.congr rfl ?_ rfl rfl rfl ?_,hsignals,h.nested,h.marks⟩
      · simp [registered,hpc,CompletionPc.transferList]
      · simp [hpc,CompletionPc.current]
  | draining last =>
    rw [hpc] at hsignals
    simp only [hpc] at hs hcare
    split_ifs at hs with hactive
    · cases hs
      refine ⟨h.ledger.congr rfl ?_ rfl rfl rfl ?_,?_,h.nested,h.marks⟩
      · simp [registered,hpc,CompletionPc.transferList,takeOverCompleted]
      · simp [hpc,CompletionPc.current,takeOverCompleted]
      · cases last
        · exact fun hoff => ⟨hsignals hoff,rfl⟩
        · exact ⟨hsignals,hactive,rfl⟩
    · cases hs
      refine ⟨h.ledger.congr rfl ?_ rfl rfl rfl ?_,⟨hsignals,fun hoff => ⟨hactive,fun hheld => ?_⟩⟩,
        h.nested,h.marks⟩
      · simp [registered,hpc,CompletionPc.transferList]
      · simp [hpc,CompletionPc.current]
      · rcases hcare hheld with hnil | hnil | hon
        · exact absurd hnil hactive
        · exact hnil
        · exact absurd (hoff.symm.trans hon) Bool.false_ne_true
  | drainWaiting last =>
    rw [hpc] at hsignals
    simp only [hpc] at hs hcare
    split_ifs at hs
    cases hs
    refine ⟨h.ledger.congr rfl ?_ rfl rfl rfl ?_,?_,h.nested,h.marks⟩
    · simp [registered,hpc,CompletionPc.transferList]
    · simp [hpc,CompletionPc.current]
    · cases last
      · exact fun _ => hcare
      · exact hsignals.1
  | finalizing l last =>
    rw [hpc] at hsignals
    cases l with
    | nil =>
      simp only [hpc] at hs
      cases hs
      refine ⟨h.ledger.congr rfl ?_ rfl rfl rfl ?_,?_,h.nested,h.marks⟩
      · cases last <;> simp [registered,hpc,CompletionPc.transferList]
      · cases last <;> simp [hpc,CompletionPc.current]
      · cases last
        · exact hsignals
        · exact hsignals
    | cons p l =>
      obtain ⟨t,status⟩ := p
      simp only [hpc] at hs
      cases hs
      exact ⟨h.ledger.invoke hpc,hsignals,h.nested,marks_append h.marks (by simp)⟩
  | calling t l last =>
    rw [hpc] at hsignals
    simp only [hpc] at hs
    split_ifs at hs
    cases hs
    exact ⟨h.ledger.finish hpc,hsignals,h.nested,marks_append h.marks (by simp)⟩
  | ended =>
    simp only [hpc] at hs
    cases hs

theorem Inv.step (a : ControlAction) (hcare : e.Careful held a) (hs : e.step a = some e') :
    e'.Inv held := by
  cases a with
  | call request nested =>
    simp only [UsbAsyncControlEndpoint.step] at hs
    split at hs
    · split_ifs at hs
      cases hs
      exact h.call request true hcare
    · cases hs
    · cases hs
      exact h.call request false hcare
  | advance i ok =>
    simp only [UsbAsyncControlEndpoint.step] at hs
    cases hc : e.calls[i]? with
    | none =>
      rw [hc] at hs
      cases hs
    | some c =>
      simp only [hc,Option.map_eq_some_iff] at hs
      obtain ⟨r,hr,rfl⟩ := hs
      exact h.advance hc hcare hr
  | thread => exact h.threadStep hcare hs
  | complete i status =>
    simp only [UsbAsyncControlEndpoint.step] at hs
    split_ifs at hs with hi
    cases hs
    exact h.complete hi status
  | collect =>
    cases hs
    exact h.collect hcare

end

theorem weight_le_one (c : Option ControlCall) : weight c ≤ 1 := by
  unfold weight
  split
  · split <;> omega
  · omega

theorem Inv.settled (h : e.Inv held) (hrest : e.AtRest) (hc : e.calls[i]? = some c) {r : Bool}
    (hpc : c.pc = .transferred r) : (invokedIn e.log).count i = 1 := by
  have hactive : e.activeTransferList = [] := by
    refine List.eq_nil_iff_forall_not_mem.mpr fun t ht => ?_
    rcases h.ledger.active t ht with ho | ⟨c',hc',hins⟩
    · rw [hrest.owned] at ho
      cases ho
    · exact hrest.calls t.call c' t hc' hins
  have hsignals := h.signals
  unfold Signals at hsignals
  have hothers : e.completedTransferList = [] ∧ e.thread.transferList = [] := by
    rcases hrest.thread with ⟨hwaiting,hoff⟩ | hended
    · rw [hwaiting] at hsignals ⊢
      exact ⟨(hsignals hoff).2,rfl⟩
    · rw [hended] at hsignals ⊢
      exact ⟨hsignals.2.2,rfl⟩
  have hbalance := h.ledger.balance i
  rw [hc] at hbalance
  simp only [registered,hactive,hothers,weight,hpc,List.map_nil,List.append_nil,
    List.count_nil] at hbalance
  omega

theorem Inv.sound (h : e.Inv held) : e.Sound held where
  once i := by
    have := h.ledger.balance i
    have := weight_le_one e.calls[i]?
    omega
  settled hrest i c r hc hpc := h.settled hrest hc hpc
  active := h.ledger.active
  nested i c hc hn := ⟨(h.nested i c hc hn).2.2.1,(h.nested i c hc hn).2.2.2⟩
  ended hended := by
    have hsignals := h.signals
    unfold Signals at hsignals
    rw [hended] at hsignals
    exact hsignals.2
  marks := h.marks
  awake hwaiting hoff := by
    have hsignals := h.signals
    unfold Signals at hsignals
    rw [hwaiting] at hsignals
    obtain ⟨hrequests,hcompleted⟩ := hsignals hoff
    exact ⟨hrequests.1,hrequests.2,hcompleted⟩
  drainAwake last hdrain hoff := by
    have hsignals := h.signals
    unfold Signals at hsignals
    rw [hdrain] at hsignals
    obtain ⟨hserves,hactive⟩ := hsignals
    refine ⟨(hactive hoff).1,fun hlast => ?_,(hactive hoff).2⟩
    subst hlast
    exact hserves hoff

/-- In every run whose steps are careful each transfer is completed once, its roots are marked as
long as they are needed, and the thread never sleeps on something to do. -/
theorem requests_sound {as : List ControlAction}
    (h : Run.Along step (Careful held) initial as) : Run.Always step (Sound held) initial as :=
  Run.always_of_along (fun _ hi => hi.sound) (fun _ a _ hi hc hs => hi.step a hc hs) initial_inv h

/-- A transfer that is cancelled, with collections before and after its completion function. -/
theorem requests_sound_cancelled : Run.Always step (Sound true) initial
    [.call (.transfer true true true) false,.advance 0 true,.advance 0 true,.advance 0 true,.collect,
      .call .cancelTransfers false,.advance 1 true,.thread,.thread,.thread,.thread,.thread,
      .complete 0 .cancelled,.collect,.thread,.thread,.thread,.thread,.thread,.collect] :=
  requests_sound <| .cons rfl (by rintro ⟨⟩) <| .cons rfl trivial <| .cons rfl rfl <|
    .cons rfl (.inl rfl) <| .cons rfl ⟨rfl,rfl,by decide⟩ <| .cons rfl (by rintro ⟨⟩) <|
    .cons rfl trivial <| .cons rfl trivial <| .cons rfl trivial <| .cons rfl trivial <|
    .cons rfl trivial <| .cons rfl (fun _ => .inr (.inl rfl)) <| .cons rfl trivial <|
    .cons rfl ⟨rfl,rfl,by decide⟩ <| .cons rfl ⟨rfl,rfl⟩ <| .cons rfl (fun _ => .inl rfl) <|
    .cons rfl trivial <| .cons rfl trivial <| .cons rfl trivial <|
    .cons rfl ⟨rfl,rfl,by decide⟩ trivial

/-- The collector does not see the transfer whose completion function is about to be called. -/
theorem not_sound_collect : ¬ Run.Always step (Sound false) initial
    [.call (.transfer true true true) false,.advance 0 true,.advance 0 true,.advance 0 true,
      .complete 0 (.completed 1),.thread,.thread,.collect] := by
  intro h
  have hmarks := (h.last rfl).marks
  obtain ⟨roots,hroots,hall⟩ := hmarks [.submitted ⟨0,true,true⟩] (some []) [] rfl
  cases hroots
  have hmem := hall ⟨0,true,true⟩ (by simp) (by simp)
  simp [ControlTransfer.roots] at hmem

end UsbAsyncControlEndpoint
end Jancy.Io
