import Jancy.Io.AsyncIoBase
import Jancy.Lib.Calls
import Mathlib.Data.List.Count

/-! Delivery: what becomes of every wait, in every interleaving of the calls. -/
namespace Jancy.Io

variable {F : Type} {H : HandleTable ℕ}

namespace WaitEvent

@[simp] def addedWait : WaitEvent F → Option (AsyncWait F)
  | .added wait => some wait
  | _ => none

@[simp] def deliveredAddress : WaitEvent F → Option ℕ
  | .delivered address _ _ => some address
  | _ => none

@[simp] def cancelledAddress : WaitEvent F → Option ℕ
  | .cancelled address => some address
  | _ => none

@[simp] def servedCall : WaitEvent F → Option ℕ
  | .served call _ _ => some call
  | _ => none

@[simp] def unlistedAddress : WaitEvent F → Option ℕ
  | .unlisted address => some address
  | _ => none

@[simp] def unmappedHandle : WaitEvent F → Option Handle
  | .unmapped handle => some handle
  | _ => none

@[simp] def erasedAddress : WaitEvent F → Option ℕ
  | .erased address => some address
  | _ => none

end WaitEvent

def seen {β : Type} (g : WaitEvent F → Option β) (log : List (WaitEvent F)) : List β :=
  log.filterMap g

section Seen

variable {β : Type} (g : WaitEvent F → Option β)

@[simp] theorem seen_nil : seen g [] = [] := rfl

@[simp] theorem seen_append (log events : List (WaitEvent F)) :
    seen g (log ++ events) = seen g log ++ seen g events := List.filterMap_append

@[simp] theorem seen_cons (e : WaitEvent F) (log : List (WaitEvent F)) :
    seen g (e :: log) = (g e).toList ++ seen g log := by
  cases h : g e <;> simp [seen,h]

end Seen

@[simp] abbrev addedIn (log : List (WaitEvent F)) : List (AsyncWait F) := seen WaitEvent.addedWait log

@[simp] abbrev deliveredIn (log : List (WaitEvent F)) : List ℕ := seen WaitEvent.deliveredAddress log

@[simp] abbrev cancelledIn (log : List (WaitEvent F)) : List ℕ := seen WaitEvent.cancelledAddress log

@[simp] abbrev servedIn (log : List (WaitEvent F)) : List ℕ := seen WaitEvent.servedCall log

@[simp] abbrev unlistedIn (log : List (WaitEvent F)) : List ℕ := seen WaitEvent.unlistedAddress log

@[simp] abbrev unmappedIn (log : List (WaitEvent F)) : List Handle := seen WaitEvent.unmappedHandle log

@[simp] abbrev erasedIn (log : List (WaitEvent F)) : List ℕ := seen WaitEvent.erasedAddress log

@[simp] abbrev addresses (l : List (AsyncWait F)) : List ℕ := l.map AsyncWait.address

@[simp] abbrev handles (l : List (AsyncWait F)) : List Handle := l.map AsyncWait.handle

/-- The events that a handler is called with are some of those that its wait is for. -/
structure Events.Triggers (triggered mask : Events) : Prop where
  meets : triggered.Meets mask
  within : triggered &&& mask = triggered

namespace WaitSystem

structure Delivers (s : WaitSystem F H) : Prop where
  once : ∀ a, (deliveredIn s.log).count a + (cancelledIn s.log).count a ≤ 1
  kept : ∀ w ∈ addedIn s.log, w.address ∈ deliveredIn s.log ∨ w.address ∈ cancelledIn s.log ∨
    w ∈ s.base.asyncWaitList ∨ w.address ∈ addresses s.base.pendingAsyncWaitList
  own : ∀ a f t, .delivered a f t ∈ s.log →
    ∃ w ∈ addedIn s.log, w.address = a ∧ w.handlerPtr = f ∧ t.Triggers w.mask
  /-- a wait that has been picked is delivered by the call that picked it -/
  inTurn : ∀ w ∈ s.base.pendingAsyncWaitList, ∃ (i : ℕ) (v : AsyncWait F), s.calls[i]? = some (.notifying v)
  prompt : ∀ w ∈ s.base.asyncWaitList, ¬ w.mask.Meets s.base.activeEvents
  closed : s.base.isOpen = false → s.base.asyncWaitList = []
  servedOnce : ∀ i, (servedIn s.log).count i ≤ 1
  servedOwn : ∀ i mask t, .served i mask t ∈ s.log → t.Triggers mask

structure Unlinks (s : WaitSystem F H) : Prop where
  list : ∀ w ∈ addedIn s.log, (unlistedIn s.log).count w.address +
    (addresses s.base.asyncWaitList).count w.address = 1
  map : ∀ w ∈ addedIn s.log, (unmappedIn s.log).count w.handle +
    ((H.entries s.base.asyncWaitMap).map Prod.fst).count w.handle = 1
  pending : ∀ a, (erasedIn s.log).count a ≤ 1
  agree : H.entries s.base.asyncWaitMap =
    s.base.asyncWaitList.map fun w => (w.handle,w.address)

def Wakes (s : WaitSystem F H) : Prop :=
  ∀ (i : ℕ) mask, s.calls[i]? = some (.blocked mask) → mask.Meets s.base.activeEvents →
    ⟨i,mask,true⟩ ∈ s.base.syncWaitList

structure Correct (s : WaitSystem F H) : Prop where
  delivers : s.Delivers
  unlinks : s.Unlinks
  wakes : s.Wakes

/-- No call sets new events while a handler runs that events set before have triggered, and no
wait slips in behind the cancellation that closes the object. -/
def TakesTurns (s : WaitSystem F H) : WaitAction F → Prop
  | .advance i =>
      match s.calls[i]? with
      | some (.entered (.setEvents events)) =>
          s.base.activeEvents &&& events = events ∨ s.base.pendingAsyncWaitList = []
      | some (.opened eventMask _) =>
          s.base.isOpen = true ∨ eventMask.Meets s.base.activeEvents
      | some .closing => s.base.asyncWaitList = []
      | _ => True
  | _ => True

end WaitSystem

theorem Events.Meets.triggers {mask events : Events} (h : mask.Meets events) :
    (mask &&& events).Triggers mask := by
  have heq : mask &&& events &&& mask = mask &&& events := by
    rw [BitVec.and_comm (mask &&& events),← BitVec.and_assoc,BitVec.and_self]
  refine ⟨?_,heq⟩
  show _ &&& _ ≠ _
  rwa [heq]

theorem Events.not_meets_zero (mask : Events) : ¬ mask.Meets 0 := by
  simp [Events.Meets]

/-- What the lists, the map and the log say of every wait; the first `n` of the pending waits have
been delivered. -/
structure Records (b : AsyncIoBase F H) (log : List (WaitEvent F)) (n : ℕ) : Prop where
  entries : H.entries b.asyncWaitMap = b.asyncWaitList.map fun w => (w.handle,w.address)
  issued : ∀ w ∈ addedIn log, w.handle ∈ H.issued b.asyncWaitMap
  allocated : ∀ w ∈ addedIn log, w.address < b.nextAddress
  nodupAddresses : (addresses (addedIn log)).Nodup
  nodupHandles : (handles (addedIn log)).Nodup
  listed : ∀ w ∈ b.asyncWaitList, w ∈ addedIn log
  picked : ∀ w ∈ b.pendingAsyncWaitList, ∃ v ∈ addedIn log,
    v.address = w.address ∧ v.handlerPtr = w.handlerPtr ∧ w.mask.Triggers v.mask
  balance : ∀ a, (addresses (addedIn log)).count a = (addresses b.asyncWaitList).count a +
    (addresses (b.pendingAsyncWaitList.drop n)).count a + (deliveredIn log).count a +
    (cancelledIn log).count a
  unlisted : ∀ a, (addresses (addedIn log)).count a =
    (unlistedIn log).count a + (addresses b.asyncWaitList).count a
  unmapped : ∀ h, (handles (addedIn log)).count h =
    (unmappedIn log).count h + (handles b.asyncWaitList).count h
  erased : ∀ a, (erasedIn log).count a +
    (addresses (b.pendingAsyncWaitList.take n)).count a = (deliveredIn log).count a
  own : ∀ a f t, .delivered a f t ∈ log →
    ∃ w ∈ addedIn log, w.address = a ∧ w.handlerPtr = f ∧ t.Triggers w.mask

namespace Records

variable {b b' : AsyncIoBase F H} {log events : List (WaitEvent F)} {n : ℕ} {w : AsyncWait F}
  {l r : List (AsyncWait F)}

theorem initial : Records (.initial : AsyncIoBase F H) [] n where
  entries := H.entries_new
  issued := by simp
  allocated := by simp
  nodupAddresses := List.nodup_nil
  nodupHandles := List.nodup_nil
  listed := by simp [AsyncIoBase.initial]
  picked := by simp [AsyncIoBase.initial]
  balance a := by simp [AsyncIoBase.initial]
  unlisted a := by simp [AsyncIoBase.initial]
  unmapped h := by simp [AsyncIoBase.initial]
  erased a := by simp [AsyncIoBase.initial]
  own := by simp

section

variable (h : Records b log n)

include h

theorem congr (hlist : b'.asyncWaitList = b.asyncWaitList)
    (hpending : b'.pendingAsyncWaitList = b.pendingAsyncWaitList)
    (hentries : H.entries b'.asyncWaitMap = H.entries b.asyncWaitMap)
    (hissued : H.issued b'.asyncWaitMap = H.issued b.asyncWaitMap)
    (hnext : b'.nextAddress = b.nextAddress) : Records b' log n where
  entries := by rw [hentries,hlist]; exact h.entries
  issued := by rw [hissued]; exact h.issued
  allocated := by rw [hnext]; exact h.allocated
  nodupAddresses := h.nodupAddresses
  nodupHandles := h.nodupHandles
  listed := by rw [hlist]; exact h.listed
  picked := by rw [hpending]; exact h.picked
  balance := by rw [hlist,hpending]; exact h.balance
  unlisted := by rw [hlist]; exact h.unlisted
  unmapped := by rw [hlist]; exact h.unmapped
  erased := by rw [hpending]; exact h.erased
  own := h.own

theorem served (i : ℕ) (mask t : Events) :
    Records b (log ++ [.served i mask t]) n where
  entries := h.entries
  issued := by simpa using h.issued
  allocated := by simpa using h.allocated
  nodupAddresses := by simpa using h.nodupAddresses
  nodupHandles := by simpa using h.nodupHandles
  listed := by simpa using h.listed
  picked := by simpa using h.picked
  balance := by simpa using h.balance
  unlisted := by simpa using h.unlisted
  unmapped := by simpa using h.unmapped
  erased := by simpa using h.erased
  own := by simpa using h.own

theorem nodup_list : (addresses b.asyncWaitList).Nodup := by
  refine List.nodup_iff_count_le_one.mpr fun a => ?_
  have := List.nodup_iff_count_le_one.mp h.nodupAddresses a
  have := h.unlisted a
  omega

theorem nodup_handles : (handles b.asyncWaitList).Nodup := by
  refine List.nodup_iff_count_le_one.mpr fun a => ?_
  have := List.nodup_iff_count_le_one.mp h.nodupHandles a
  have := h.unmapped a
  omega

theorem add (hw : w.address = b.nextAddress)
    (hh : w.handle = (H.add b.asyncWaitMap b.nextAddress).1) :
    Records { b with
      asyncWaitList := b.asyncWaitList ++ [w]
      asyncWaitMap := (H.add b.asyncWaitMap b.nextAddress).2
      nextAddress := b.nextAddress + 1 } (log ++ [.added w]) n := by
  have hadded : addedIn (log ++ [.added w]) = addedIn log ++ [w] := by simp
  have hfresh := H.add_fresh b.asyncWaitMap b.nextAddress
  constructor
  · simp only [H.entries_add,h.entries,List.map_append,List.map_cons,List.map_nil,hw,hh]
  · rw [hadded]
    intro v hv
    simp only [H.issued_add,← hh]
    rcases List.mem_append.mp hv with hv | hv
    · exact List.mem_cons_of_mem _ (h.issued v hv)
    · rw [List.mem_singleton.mp hv]
      exact List.mem_cons_self
  · rw [hadded]
    intro v hv
    rcases List.mem_append.mp hv with hv | hv
    · exact Nat.lt_succ_of_lt (h.allocated v hv)
    · rw [List.mem_singleton.mp hv,hw]
      exact Nat.lt_succ_self _
  · rw [hadded,addresses,List.map_append,List.nodup_append]
    refine ⟨h.nodupAddresses,by simp,?_⟩
    rintro a ha c hc rfl
    obtain ⟨v,hv,rfl⟩ := List.mem_map.mp ha
    have hlt := h.allocated v hv
    simp only [List.map_cons,List.map_nil,List.mem_singleton] at hc
    omega
  · rw [hadded,handles,List.map_append,List.nodup_append]
    refine ⟨h.nodupHandles,by simp,?_⟩
    rintro a ha c hc rfl
    obtain ⟨v,hv,rfl⟩ := List.mem_map.mp ha
    simp only [List.map_cons,List.map_nil,List.mem_singleton] at hc
    rw [← hh,← hc] at hfresh
    exact hfresh (h.issued v hv)
  · rw [hadded]
    intro v hv
    rcases List.mem_append.mp hv with hv | hv
    · exact List.mem_append_left _ (h.listed v hv)
    · exact List.mem_append_right _ hv
  · rw [hadded]
    intro v hv
    obtain ⟨u,hu,hrest⟩ := h.picked v hv
    exact ⟨u,List.mem_append_left _ hu,hrest⟩
  · intro a
    have := h.balance a
    simp [List.count_append] at this ⊢
    omega
  · intro a
    have := h.unlisted a
    simp [List.count_append] at this ⊢
    omega
  · intro a
    have := h.unmapped a
    simp [List.count_append] at this ⊢
    omega
  · simpa using h.erased
  · rw [hadded]
    intro a f t hmem
    obtain ⟨v,hv,hrest⟩ := h.own a f t (by simpa using hmem)
    exact ⟨v,List.mem_append_left _ hv,hrest⟩

theorem unlink (hlist : b.asyncWaitList = l ++ w :: r) :
    H.entries (H.erase b.asyncWaitMap w.handle) = (l ++ r).map (fun w => (w.handle,w.address)) ∧
      ∀ v ∈ addedIn log, v.handle ∈ H.issued (H.erase b.asyncWaitMap w.handle) := by
  have hentries := h.entries
  have hnd := h.nodup_handles
  rw [hlist] at hentries hnd
  refine ⟨HandleTable.entries_erase_record hentries hnd,fun v hv => ?_⟩
  rw [H.issued_erase]
  exact h.issued v hv

theorem cancel (hlist : b.asyncWaitList = l ++ w :: r) :
    Records { b with
      asyncWaitList := l ++ r
      asyncWaitMap := H.erase b.asyncWaitMap w.handle }
      (log ++ [.cancelled w.address,.unlisted w.address,.unmapped w.handle]) n := by
  obtain ⟨hentries,hissued⟩ := h.unlink hlist
  have hadded : addedIn (log ++ [.cancelled w.address,.unlisted w.address,.unmapped w.handle]) =
      addedIn log := by simp
  constructor
  · exact hentries
  · rwa [hadded]
  · rw [hadded]
    exact h.allocated
  · rw [hadded]
    exact h.nodupAddresses
  · rw [hadded]
    exact h.nodupHandles
  · rw [hadded]
    intro v hv
    refine h.listed v ?_
    simp only [hlist,List.mem_append,List.mem_cons] at hv ⊢
    tauto
  · rw [hadded]
    exact h.picked
  · intro a
    have := h.balance a
    simp [hlist,List.count_append,List.count_cons] at this ⊢
    omega
  · intro a
    have := h.unlisted a
    simp [hlist,List.count_append,List.count_cons] at this ⊢
    omega
  · intro a
    have := h.unmapped a
    simp [hlist,List.count_append,List.count_cons] at this ⊢
    omega
  · simpa using h.erased
  · simpa using h.own

theorem cancelAll :
    Records { b with asyncWaitList := [], asyncWaitMap := H.clear b.asyncWaitMap }
      (log ++ b.asyncWaitList.flatMap fun wait =>
        [.cancelled wait.address,.unlisted wait.address,.unmapped wait.handle]) n := by
  generalize hlist : b.asyncWaitList = cut
  induction cut generalizing b log with
  | nil =>
    rw [List.flatMap_nil,List.append_nil]
    have hentries := h.entries
    rw [hlist,List.map_nil] at hentries
    refine h.congr hlist.symm rfl ?_ (H.issued_clear _) rfl
    rw [hentries]
    exact H.entries_clear _
  | cons w cut ih =>
    have hrest := ih (h.cancel (l := []) hlist) rfl
    rw [List.flatMap_cons,← List.append_assoc]
    refine hrest.congr rfl rfl ?_ ?_ rfl
    · rw [H.entries_clear,H.entries_clear]
    · rw [H.issued_clear,H.issued_clear,H.issued_erase]

end

theorem pick (h : Records b log 0) (hlist : b.asyncWaitList = l ++ w :: r)
    {triggered : Events} (ht : triggered.Triggers w.mask) :
    Records { b with
      asyncWaitList := l ++ r
      pendingAsyncWaitList := b.pendingAsyncWaitList ++ [{ w with mask := triggered }]
      asyncWaitMap := H.erase b.asyncWaitMap w.handle }
      (log ++ [.unlisted w.address,.unmapped w.handle]) 0 := by
  obtain ⟨hentries,hissued⟩ := h.unlink hlist
  have hadded : addedIn (log ++ [.unlisted w.address,.unmapped w.handle]) = addedIn log := by simp
  constructor
  · exact hentries
  · rwa [hadded]
  · rw [hadded]
    exact h.allocated
  · rw [hadded]
    exact h.nodupAddresses
  · rw [hadded]
    exact h.nodupHandles
  · rw [hadded]
    intro v hv
    refine h.listed v ?_
    simp only [hlist,List.mem_append,List.mem_cons] at hv ⊢
    tauto
  · rw [hadded]
    intro v hv
    rcases List.mem_append.mp hv with hv | hv
    · exact h.picked v hv
    · obtain rfl := List.mem_singleton.mp hv
      exact ⟨w,h.listed w (by simp [hlist]),rfl,rfl,ht⟩
  · intro a
    have := h.balance a
    simp [hlist,List.count_append,List.count_cons] at this ⊢
    omega
  · intro a
    have := h.unlisted a
    simp [hlist,List.count_append,List.count_cons] at this ⊢
    omega
  · intro a
    have := h.unmapped a
    simp [hlist,List.count_append,List.count_cons] at this ⊢
    omega
  · simpa using h.erased
  · simpa using h.own

variable {rest : List (AsyncWait F)}

theorem deliver (h : Records b log 0) (hpending : b.pendingAsyncWaitList = w :: rest) :
    Records b (log ++ [.delivered w.address w.handlerPtr w.mask]) 1 := by
  have hadded : addedIn (log ++ [.delivered w.address w.handlerPtr w.mask]) = addedIn log := by simp
  constructor
  · exact h.entries
  · rw [hadded]
    exact h.issued
  · rw [hadded]
    exact h.allocated
  · rw [hadded]
    exact h.nodupAddresses
  · rw [hadded]
    exact h.nodupHandles
  · rw [hadded]
    exact h.listed
  · rw [hadded]
    exact h.picked
  · intro a
    have := h.balance a
    simp [hpending,List.count_append,List.count_cons] at this ⊢
    omega
  · simpa using h.unlisted
  · simpa using h.unmapped
  · intro a
    have := h.erased a
    simp [hpending,List.count_append,List.count_cons] at this ⊢
    omega
  · rw [hadded]
    intro a f t hmem
    rcases List.mem_append.mp hmem with hmem | hmem
    · exact h.own a f t hmem
    · cases List.mem_singleton.mp hmem
      obtain ⟨v,hv,ha,hf,ht⟩ := h.picked w (by simp [hpending])
      exact ⟨v,hv,ha,hf,ht⟩

theorem erase (h : Records b log 1) (hpending : b.pendingAsyncWaitList = w :: rest) :
    Records { b with pendingAsyncWaitList := rest } (log ++ [.erased w.address]) 0 := by
  have hadded : addedIn (log ++ [.erased w.address]) = addedIn log := by simp
  constructor
  · exact h.entries
  · rw [hadded]
    exact h.issued
  · rw [hadded]
    exact h.allocated
  · rw [hadded]
    exact h.nodupAddresses
  · rw [hadded]
    exact h.nodupHandles
  · rw [hadded]
    exact h.listed
  · rw [hadded]
    intro v hv
    exact h.picked v (by simp [hpending,hv])
  · intro a
    have := h.balance a
    simp [hpending] at this ⊢
    omega
  · simpa using h.unlisted
  · simpa using h.unmapped
  · intro a
    have := h.erased a
    simp [hpending,List.count_append,List.count_cons] at this ⊢
    omega
  · simpa using h.own

theorem idle (h : Records b log n) (hpending : b.pendingAsyncWaitList = []) (m : ℕ) :
    Records b log m where
  entries := h.entries
  issued := h.issued
  allocated := h.allocated
  nodupAddresses := h.nodupAddresses
  nodupHandles := h.nodupHandles
  listed := h.listed
  picked := h.picked
  balance a := by simpa [hpending] using h.balance a
  unlisted := h.unlisted
  unmapped := h.unmapped
  erased a := by simpa [hpending] using h.erased a
  own := h.own

theorem filter_head (h : Records b log 1) (hpending : b.pendingAsyncWaitList = w :: rest) :
    b.pendingAsyncWaitList.filter (fun v => decide (v.address ≠ w.address)) = rest := by
  have hzero : (addresses rest).count w.address = 0 := by
    have := List.nodup_iff_count_le_one.mp h.nodupAddresses w.address
    have := h.balance w.address
    have := h.erased w.address
    simp [hpending] at *
    omega
  rw [hpending,List.filter_cons_of_neg (by simp)]
  refine List.filter_eq_self.mpr fun v hv => ?_
  have hne : v.address ≠ w.address := by
    intro heq
    exact List.count_eq_zero.mp hzero (heq ▸ List.mem_map_of_mem hv)
  simpa using hne

end Records

namespace AsyncIoBase

variable {b : AsyncIoBase F H} {log : List (WaitEvent F)}

/-- What the loops over the waits leave alone. -/
structure Framed (b b' : AsyncIoBase F H) : Prop where
  activeEvents : b'.activeEvents = b.activeEvents
  isOpen : b'.isOpen = b.isOpen
  syncWaitList : b'.syncWaitList = b.syncWaitList

theorem moveTriggered_framed (todo kept pending : List (AsyncWait F)) (t : H.Table)
    (events : List (WaitEvent F)) : Framed b (b.moveTriggered todo kept pending t events).1 := by
  induction todo generalizing kept pending t events with
  | nil => exact ⟨rfl,rfl,rfl⟩
  | cons w todo ih =>
    unfold moveTriggered
    split_ifs
    · exact ih _ _ _ _
    · exact ih _ _ _ _

theorem moveTriggered_records (todo kept pending : List (AsyncWait F)) (t : H.Table)
    (events : List (WaitEvent F))
    (h : Records { b with
      asyncWaitList := kept ++ todo, pendingAsyncWaitList := pending, asyncWaitMap := t }
      (log ++ events) 0) :
    Records (b.moveTriggered todo kept pending t events).1
      (log ++ (b.moveTriggered todo kept pending t events).2) 0 := by
  induction todo generalizing kept pending t events with
  | nil => simpa [moveTriggered] using h
  | cons w todo ih =>
    unfold moveTriggered
    split_ifs with hw
    · refine ih _ _ _ _ ?_
      rw [← List.append_assoc]
      exact h.pick rfl hw.triggers
    · refine ih _ _ _ _ ?_
      simpa using h

theorem moveTriggered_prompt (todo kept pending : List (AsyncWait F)) (t : H.Table)
    (events : List (WaitEvent F)) (hkept : ∀ w ∈ kept, ¬ w.mask.Meets b.activeEvents) :
    ∀ w ∈ (b.moveTriggered todo kept pending t events).1.asyncWaitList,
      ¬ w.mask.Meets b.activeEvents := by
  induction todo generalizing kept pending t events with
  | nil => simpa [moveTriggered] using hkept
  | cons w todo ih =>
    unfold moveTriggered
    split_ifs with hw
    · exact ih _ _ _ _ hkept
    · refine ih _ _ _ _ fun v hv => ?_
      rcases List.mem_append.mp hv with hv | hv
      · exact hkept v hv
      · rwa [List.mem_singleton.mp hv]

theorem moveTriggered_empty (todo kept pending : List (AsyncWait F)) (t : H.Table)
    (events : List (WaitEvent F)) (hkept : kept = []) (htodo : todo = []) :
    (b.moveTriggered todo kept pending t events).1.asyncWaitList = [] := by
  rw [htodo,hkept,moveTriggered]

theorem notifyLoop_records (h : Records b log 0) :
    Records b (log ++ b.notifyLoop.events) 1 := by
  unfold notifyLoop
  split
  · next hpending =>
    simpa using h.idle hpending 1
  · next w rest hpending => exact h.deliver hpending

theorem moveTriggered_pending (todo kept pending : List (AsyncWait F)) (t : H.Table)
    (events : List (WaitEvent F)) :
    ∃ more, (b.moveTriggered todo kept pending t events).1.pendingAsyncWaitList =
      pending ++ more := by
  induction todo generalizing kept pending t events with
  | nil => exact ⟨[],by simp [moveTriggered]⟩
  | cons w todo ih =>
    unfold moveTriggered
    split_ifs
    · obtain ⟨more,hmore⟩ := ih kept (pending ++ [{ w with mask := w.mask &&& b.activeEvents }])
        (H.erase t w.handle) (events ++ [.unlisted w.address,.unmapped w.handle])
      exact ⟨_,by rw [hmore,List.append_assoc]⟩
    · exact ih _ _ _ _

end AsyncIoBase

section Calls

variable {calls : List (WaitPc F)} {i j : ℕ} {pc pc' : WaitPc F} {log : List (WaitEvent F)}
  {pending : List (AsyncWait F)} {l : List SyncWait} {a : Events}

/-- One call at most is in the handler of a pending wait: the head of the pending list, which is
not empty while it runs. -/
structure Stage (calls : List (WaitPc F)) (pending : List (AsyncWait F)) : Prop where
  head : ∀ (i : ℕ) v, calls[i]? = some (.notifying v) → ∃ rest, pending = v :: rest
  only : ∀ (i j : ℕ) v w, calls[i]? = some (.notifying v) → calls[j]? = some (.notifying w) → i = j
  running : pending ≠ [] → ∃ (i : ℕ) (v : AsyncWait F), calls[i]? = some (.notifying v)

/-- A call that is blocked has its record, which is signaled if its events are active. -/
def Sync (calls : List (WaitPc F)) (l : List SyncWait) (a : Events) : Prop :=
  ∀ (i : ℕ) mask, calls[i]? = some (.blocked mask) →
    ∃ x, ⟨i,mask,x⟩ ∈ l ∧ (mask.Meets a → x = true)

/-- A call that has served itself does not come back to where it did. -/
structure Served (calls : List (WaitPc F)) (log : List (WaitEvent F)) : Prop where
  once : (servedIn log).Nodup
  past : ∀ i ∈ servedIn log, calls[i]? = some .serving ∨ ∃ v, calls[i]? = some (.returned v)
  own : ∀ i mask t, .served i mask t ∈ log → t.Triggers mask

/-- Where a call that has gone through the last loop of `processWaitLists_l` stands. -/
def Notifies (pc : WaitPc F) (pending : List (AsyncWait F)) : Prop :=
  pending = [] ∧ pc = .returned .void ∨ ∃ w rest, pending = w :: rest ∧ pc = .notifying w

theorem Stage.append (h : Stage calls pending) (request : WaitRequest F) :
    Stage (calls ++ [.entered request]) pending where
  head i v hi := by
    simp only [Calls.append_iff,reduceCtorEq,and_false,false_or] at hi
    exact h.head i v hi
  only i j v w hi hj := by
    simp only [Calls.append_iff,reduceCtorEq,and_false,false_or] at hi hj
    exact h.only i j v w hi hj
  running hne := by
    obtain ⟨i,v,hi⟩ := h.running hne
    exact ⟨i,v,Calls.append_iff.mpr (.inr hi)⟩

theorem Stage.set (h : Stage calls pending) (hpc : calls[i]? = some pc)
    (hold : ∀ v, pc ≠ .notifying v) (hnew : ∀ v, pc' ≠ .notifying v) :
    Stage (calls.set i pc') pending where
  head j v hj := by
    rcases (Calls.set_iff hpc).mp hj with ⟨-,heq⟩ | ⟨-,hj⟩
    · exact absurd heq.symm (hnew v)
    · exact h.head j v hj
  only j k v w hj hk := by
    rcases (Calls.set_iff hpc).mp hj with ⟨-,heq⟩ | ⟨-,hj⟩
    · exact absurd heq.symm (hnew v)
    rcases (Calls.set_iff hpc).mp hk with ⟨-,heq⟩ | ⟨-,hk⟩
    · exact absurd heq.symm (hnew w)
    · exact h.only j k v w hj hk
  running hne := by
    obtain ⟨j,v,hj⟩ := h.running hne
    have hji : j ≠ i := by
      rintro rfl
      rw [hpc] at hj
      exact hold v (Option.some.inj hj)
    exact ⟨j,v,(Calls.set_iff hpc).mpr (.inr ⟨hji,hj⟩)⟩

theorem Stage.turn (hpc : calls[i]? = some pc)
    (hothers : ∀ (j : ℕ) v, calls[j]? = some (.notifying v) → j = i)
    (hn : Notifies pc' pending) : Stage (calls.set i pc') pending where
  head j v hj := by
    rcases (Calls.set_iff hpc).mp hj with ⟨-,heq⟩ | ⟨hji,hj⟩
    · rcases hn with ⟨-,hret⟩ | ⟨w,rest,hpending,hw⟩
      · rw [hret] at heq
        cases heq
      · rw [hw] at heq
        cases heq
        exact ⟨rest,hpending⟩
    · exact absurd (hothers j v hj) hji
  only j k v w hj hk := by
    rcases (Calls.set_iff hpc).mp hj with ⟨hj,-⟩ | ⟨hji,hj⟩
    · rcases (Calls.set_iff hpc).mp hk with ⟨hk,-⟩ | ⟨hki,hk⟩
      · rw [hj,hk]
      · exact absurd (hothers k w hk) hki
    · exact absurd (hothers j v hj) hji
  running hne := by
    rcases hn with ⟨hnil,-⟩ | ⟨w,rest,-,hw⟩
    · exact absurd hnil hne
    · exact ⟨i,w,(Calls.set_iff hpc).mpr (.inl ⟨rfl,hw.symm⟩)⟩

theorem Stage.idle (h : Stage calls []) (j : ℕ) (v : AsyncWait F) :
    calls[j]? ≠ some (.notifying v) := by
  intro hj
  obtain ⟨rest,hrest⟩ := h.head j v hj
  cases hrest

theorem Sync.append (h : Sync calls l a) (request : WaitRequest F) :
    Sync (calls ++ [.entered request]) l a := by
  intro i mask hi
  simp only [Calls.append_iff,reduceCtorEq,and_false,false_or] at hi
  exact h i mask hi

theorem Sync.set (h : Sync calls l a) (hpc : calls[i]? = some pc)
    (hnew : ∀ mask, pc' ≠ .blocked mask) : Sync (calls.set i pc') l a := by
  intro j mask hj
  rcases (Calls.set_iff hpc).mp hj with ⟨-,heq⟩ | ⟨-,hj⟩
  · exact absurd heq.symm (hnew mask)
  · exact h j mask hj

theorem Served.append (h : Served calls log) (request : WaitRequest F) :
    Served (calls ++ [.entered request]) log where
  once := h.once
  past i hi := by
    simp only [Calls.append_iff,reduceCtorEq,and_false,false_or]
    exact h.past i hi
  own := h.own

theorem Served.set (h : Served calls log) (hpc : calls[i]? = some pc)
    (hold : ∀ v, pc ≠ .returned v) (hserving : pc = .serving → ∃ v, pc' = .returned v)
    {events : List (WaitEvent F)} (hnone : ∀ e ∈ events, e.servedCall = none) :
    Served (calls.set i pc') (log ++ events) := by
  have hseen : servedIn (log ++ events) = servedIn log := by
    simp [seen,List.filterMap_eq_nil_iff.mpr hnone]
  constructor
  · rw [hseen]
    exact h.once
  · rw [hseen]
    intro j hj
    by_cases hji : j = i
    · subst hji
      rcases h.past j hj with hs | ⟨v,hv⟩
      · rw [hpc] at hs
        obtain ⟨v,hv⟩ := hserving (Option.some.inj hs)
        exact .inr ⟨v,(Calls.set_iff hpc).mpr (.inl ⟨rfl,hv.symm⟩)⟩
      · rw [hpc] at hv
        exact absurd (Option.some.inj hv) (hold v)
    · refine (h.past j hj).imp (fun hs => ?_) fun ⟨v,hv⟩ => ⟨v,?_⟩
      · exact (Calls.set_iff hpc).mpr (.inr ⟨hji,hs⟩)
      · exact (Calls.set_iff hpc).mpr (.inr ⟨hji,hv⟩)
  · intro j mask t hmem
    rcases List.mem_append.mp hmem with hmem | hmem
    · exact h.own j mask t hmem
    · have := hnone _ hmem
      cases this

theorem Served.serve (h : Served calls log) (hpc : calls[i]? = some pc)
    (hold : ∀ v, pc ≠ .returned v) (hserving : pc ≠ .serving) {mask t : Events}
    (ht : t.Triggers mask) :
    Served (calls.set i .serving) (log ++ [.served i mask t]) := by
  have hfresh : i ∉ servedIn log := by
    intro hi
    rcases h.past i hi with hs | ⟨v,hv⟩
    · rw [hpc] at hs
      exact hserving (Option.some.inj hs)
    · rw [hpc] at hv
      exact hold v (Option.some.inj hv)
  have hseen : servedIn (log ++ [.served i mask t]) = servedIn log ++ [i] := by simp
  constructor
  · rw [hseen,List.nodup_append]
    refine ⟨h.once,by simp,?_⟩
    rintro j hj k hk rfl
    rw [List.mem_singleton.mp hk] at hj
    exact hfresh hj
  · rw [hseen]
    intro j hj
    by_cases hji : j = i
    · exact .inl ((Calls.set_iff hpc).mpr (.inl ⟨hji,rfl⟩))
    · have hj : j ∈ servedIn log := by
        rcases List.mem_append.mp hj with hj | hj
        · exact hj
        · exact absurd (List.mem_singleton.mp hj) hji
      refine (h.past j hj).imp (fun hs => ?_) fun ⟨v,hv⟩ => ⟨v,?_⟩
      · exact (Calls.set_iff hpc).mpr (.inr ⟨hji,hs⟩)
      · exact (Calls.set_iff hpc).mpr (.inr ⟨hji,hv⟩)
  · intro j m t' hmem
    rcases List.mem_append.mp hmem with hmem | hmem
    · exact h.own j m t' hmem
    · cases List.mem_singleton.mp hmem
      exact ht

end Calls

namespace AsyncIoBase

variable {b : AsyncIoBase F H} {log : List (WaitEvent F)}

theorem moveTriggered_unserved (todo kept pending : List (AsyncWait F)) (t : H.Table)
    (events : List (WaitEvent F)) (h : ∀ e ∈ events, e.servedCall = none) :
    ∀ e ∈ (b.moveTriggered todo kept pending t events).2, e.servedCall = none := by
  induction todo generalizing kept pending t events with
  | nil => simpa [moveTriggered] using h
  | cons w todo ih =>
    unfold moveTriggered
    split_ifs
    · refine ih _ _ _ _ fun e he => ?_
      simp only [List.mem_append,List.mem_cons,List.not_mem_nil,or_false] at he
      rcases he with he | rfl | rfl
      · exact h e he
      · rfl
      · rfl
    · exact ih _ _ _ _ h

/-- What a call that goes through the last loop leaves. -/
structure Turned (b : AsyncIoBase F H) (log : List (WaitEvent F)) (o : WaitOutcome F H) : Prop where
  base : o.base = b
  records : Records b (log ++ o.events) 1
  notifies : Notifies o.pc b.pendingAsyncWaitList
  unserved : ∀ e ∈ o.events, e.servedCall = none

theorem notifyLoop_turned (h : Records b log 0) : Turned b log b.notifyLoop := by
  have hrecords := notifyLoop_records h
  unfold notifyLoop at *
  split at hrecords
  · next hpending => exact ⟨rfl,hrecords,.inl ⟨hpending,rfl⟩,by simp⟩
  · next w rest hpending => exact ⟨rfl,hrecords,.inr ⟨w,rest,hpending,rfl⟩,by simp⟩

/-- A base after the first two loops. -/
structure Processed (b b' : AsyncIoBase F H) : Prop where
  activeEvents : b'.activeEvents = b.activeEvents
  isOpen : b'.isOpen = b.isOpen
  syncWaitList : b'.syncWaitList = b.signalTriggered.syncWaitList
  prompt : ∀ w ∈ b'.asyncWaitList, ¬ w.mask.Meets b.activeEvents
  closed : b.asyncWaitList = [] → b'.asyncWaitList = []

theorem processWaitLists_turned (h : Records b log 0) : ∃ b', Processed b b' ∧
    b'.Turned log b.processWaitLists := by
  have hframe := moveTriggered_framed (b := b) b.asyncWaitList [] b.pendingAsyncWaitList
    b.asyncWaitMap []
  have hmoved := moveTriggered_records (b := b) b.asyncWaitList [] b.pendingAsyncWaitList
    b.asyncWaitMap [] (by simpa using h)
  have hprompt := moveTriggered_prompt (b := b) b.asyncWaitList [] b.pendingAsyncWaitList
    b.asyncWaitMap [] (by simp)
  have hempty := moveTriggered_empty (b := b) b.asyncWaitList [] b.pendingAsyncWaitList
    b.asyncWaitMap [] rfl
  have hunserved := moveTriggered_unserved (b := b) b.asyncWaitList [] b.pendingAsyncWaitList
    b.asyncWaitMap [] (by simp)
  unfold processWaitLists
  generalize b.moveTriggered b.asyncWaitList [] b.pendingAsyncWaitList b.asyncWaitMap [] = m at *
  obtain ⟨m,events⟩ := m
  have hsignaled : Records m.signalTriggered (log ++ events) 0 := hmoved.congr rfl rfl rfl rfl rfl
  have hturned := notifyLoop_turned hsignaled
  refine ⟨m.signalTriggered,⟨hframe.activeEvents,hframe.isOpen,?_,hprompt,hempty⟩,hturned.base,?_,
    hturned.notifies,?_⟩
  · have hactive : m.activeEvents = b.activeEvents := hframe.activeEvents
    have hsync : m.syncWaitList = b.syncWaitList := hframe.syncWaitList
    simp only [signalTriggered,hactive,hsync]
  · rw [← List.append_assoc]
    exact hturned.records
  · intro e he
    rcases List.mem_append.mp he with he | he
    · exact hunserved e he
    · exact hturned.unserved e he

theorem processWaitLists_head {w : AsyncWait F} {rest : List (AsyncWait F)}
    (hpending : b.pendingAsyncWaitList = w :: rest) :
    w.address ∈ deliveredIn b.processWaitLists.events := by
  obtain ⟨more,hmore⟩ := moveTriggered_pending (b := b) b.asyncWaitList []
    b.pendingAsyncWaitList b.asyncWaitMap []
  unfold processWaitLists
  generalize b.moveTriggered b.asyncWaitList [] b.pendingAsyncWaitList b.asyncWaitMap [] = m at *
  have hhead : m.1.signalTriggered.pendingAsyncWaitList = w :: (rest ++ more) := by
    rw [hpending] at hmore
    exact hmore
  simp only [notifyLoop,hhead]
  simp

theorem notified_turned (h : Records b log 1) {w : AsyncWait F} {rest : List (AsyncWait F)}
    (hpending : b.pendingAsyncWaitList = w :: rest) :
    Turned { b with pendingAsyncWaitList := rest } log (b.notified w) := by
  have hturned := notifyLoop_turned (h.erase hpending)
  have hfilter := h.filter_head hpending
  unfold notified
  simp only [hfilter]
  refine ⟨hturned.base,?_,hturned.notifies,?_⟩
  · have := hturned.records
    rwa [List.append_assoc] at this
  · intro e he
    rcases List.mem_cons.mp he with rfl | he
    · rfl
    · exact hturned.unserved e he

end AsyncIoBase

namespace WaitSystem

variable {s s' : WaitSystem F H} {i : ℕ} {pc : WaitPc F} {o : WaitOutcome F H}

structure Inv (s : WaitSystem F H) : Prop where
  records : Records s.base s.log 1
  stage : Stage s.calls s.base.pendingAsyncWaitList
  sync : Sync s.calls s.base.syncWaitList s.base.activeEvents
  served : Served s.calls s.log
  prompt : ∀ w ∈ s.base.asyncWaitList, ¬ w.mask.Meets s.base.activeEvents
  closed : s.base.isOpen = false → s.base.asyncWaitList = []

theorem initial_inv : (initial : WaitSystem F H).Inv where
  records := .initial
  stage := ⟨by simp [initial],by simp [initial],by simp [initial,AsyncIoBase.initial]⟩
  sync := by
    intro i mask hi
    simp [initial] at hi
  served := ⟨by simp [initial],by simp [initial],by simp [initial]⟩
  prompt := by simp [initial,AsyncIoBase.initial]
  closed _ := rfl

section

variable (h : s.Inv)

include h

theorem Inv.call (request : WaitRequest F) :
    Inv { s with calls := s.calls ++ [.entered request] } where
  records := h.records
  stage := h.stage.append request
  sync := h.sync.append request
  served := h.served.append request
  prompt := h.prompt
  closed := h.closed

theorem Inv.advance (hpc : s.calls[i]? = some pc)
    (hold : (∀ v, pc ≠ .notifying v) ∧ (∀ v, pc ≠ .returned v) ∧ pc ≠ .serving)
    (hnew : (∀ v, o.pc ≠ .notifying v) ∧ ∀ mask, o.pc ≠ .blocked mask)
    (hpending : o.base.pendingAsyncWaitList = s.base.pendingAsyncWaitList)
    (hrecords : Records o.base (s.log ++ o.events) 1)
    (hsync : Sync s.calls o.base.syncWaitList o.base.activeEvents)
    (hevents : ∀ e ∈ o.events, e.servedCall = none)
    (hprompt : ∀ w ∈ o.base.asyncWaitList, ¬ w.mask.Meets o.base.activeEvents)
    (hclosed : o.base.isOpen = false → o.base.asyncWaitList = []) : (s.apply i o).Inv where
  records := hrecords
  stage := by
    show Stage (s.calls.set i o.pc) o.base.pendingAsyncWaitList
    rw [hpending]
    exact h.stage.set hpc hold.1 hnew.1
  sync := hsync.set hpc hnew.2
  served := h.served.set hpc hold.2.1 (fun heq => absurd heq hold.2.2) hevents
  prompt := hprompt
  closed := hclosed

theorem Inv.turn {b : AsyncIoBase F H} (hpc : s.calls[i]? = some pc)
    (hold : (∀ v, pc ≠ .returned v) ∧ pc ≠ .serving)
    (hothers : ∀ (j : ℕ) v, s.calls[j]? = some (.notifying v) → j = i) (ht : b.Turned s.log o)
    (hsync : Sync s.calls b.syncWaitList b.activeEvents)
    (hprompt : ∀ w ∈ b.asyncWaitList, ¬ w.mask.Meets b.activeEvents)
    (hclosed : b.isOpen = false → b.asyncWaitList = []) : (s.apply i o).Inv := by
  obtain ⟨rfl,hrecords,hnotifies,hunserved⟩ := ht
  refine ⟨hrecords,Stage.turn hpc hothers hnotifies,hsync.set hpc fun mask heq => ?_,
    h.served.set hpc hold.1 (fun heq => absurd heq hold.2) hunserved,hprompt,hclosed⟩
  rcases hnotifies with ⟨-,hret⟩ | ⟨w,rest,-,hw⟩
  · rw [hret] at heq
    cases heq
  · rw [hw] at heq
    cases heq

theorem Inv.setEvents {events : Events} (hpc : s.calls[i]? = some (.entered (.setEvents events)))
    (hturn : s.base.activeEvents &&& events = events ∨ s.base.pendingAsyncWaitList = []) :
    (s.apply i (s.base.setEvents events)).Inv := by
  unfold AsyncIoBase.setEvents
  split_ifs with hset
  · exact h.advance hpc (by simp) (by simp) rfl (by simpa using h.records) h.sync (by simp) h.prompt
      h.closed
  have hpending := hturn.resolve_left hset
  have hrecords : Records { s.base with activeEvents := s.base.activeEvents ||| events } s.log 0 :=
    (h.records.idle hpending 0).congr rfl rfl rfl rfl rfl
  obtain ⟨b,hp,hb⟩ := AsyncIoBase.processWaitLists_turned hrecords
  refine h.turn hpc (by simp) (fun j v hj => ?_) hb ?_ ?_ ?_
  · exact absurd hj ((hpending ▸ h.stage).idle j v)
  · intro j mask hj
    obtain ⟨x,hx,-⟩ := h.sync j mask hj
    rw [hp.syncWaitList,hp.activeEvents]
    by_cases hm : mask.Meets (s.base.activeEvents ||| events)
    · exact ⟨true,List.mem_map.mpr ⟨_,hx,by simp [hm]⟩,fun _ => rfl⟩
    · exact ⟨x,List.mem_map.mpr ⟨_,hx,by simp [hm]⟩,fun hmeets => absurd hmeets hm⟩
  · rw [hp.activeEvents]
    exact hp.prompt
  · rw [hp.isOpen]
    exact fun ho => hp.closed (h.closed ho)

theorem Inv.notified {w : AsyncWait F} (hpc : s.calls[i]? = some (.notifying w)) :
    (s.apply i (s.base.notified w)).Inv := by
  obtain ⟨rest,hpending⟩ := h.stage.head i w hpc
  refine h.turn hpc (by simp) (fun j v hj => h.stage.only j i v w hj hpc)
    (AsyncIoBase.notified_turned h.records hpending) h.sync h.prompt h.closed

theorem Inv.cancelAllWaits {pc' : WaitPc F} (hpc : s.calls[i]? = some pc)
    (hold : (∀ v, pc ≠ .notifying v) ∧ (∀ v, pc ≠ .returned v) ∧ pc ≠ .serving)
    (hnew : (∀ v, pc' ≠ .notifying v) ∧ ∀ mask, pc' ≠ .blocked mask) :
    (s.apply i ⟨s.base.cancelAllWaits.1,pc',s.base.cancelAllWaits.2⟩).Inv := by
  refine h.advance hpc hold hnew rfl ?_ ?_ ?_ ?_ ?_
  · exact h.records.cancelAll.congr rfl rfl rfl rfl rfl
  · intro j mask hj
    obtain ⟨x,hx,-⟩ := h.sync j mask hj
    exact ⟨true,List.mem_map.mpr ⟨_,hx,rfl⟩,fun _ => rfl⟩
  · intro e he
    obtain ⟨w,-,he⟩ := List.mem_flatMap.mp he
    simp only [List.mem_cons,List.not_mem_nil,or_false] at he
    rcases he with rfl | rfl | rfl
    · rfl
    · rfl
    · rfl
  · intro w hw
    cases hw
  · intro _
    rfl

theorem Inv.cancelWait {handle : Handle} (hpc : s.calls[i]? = some (.entered (.cancelWait handle))) :
    (s.apply i (s.base.cancelWait handle)).Inv := by
  unfold AsyncIoBase.cancelWait
  split
  · exact h.advance hpc (by simp) (by simp) rfl (by simpa using h.records) h.sync (by simp) h.prompt
      h.closed
  next address hfind =>
  obtain ⟨l,w,r,hlist,hw⟩ := HandleTable.find_record h.records.entries h.records.nodup_handles hfind
  obtain ⟨rfl,rfl⟩ := Prod.mk.inj hw
  have hfilter : (s.base.eraseWait w.address).asyncWaitList = l ++ r := by
    have hnd := h.records.nodup_list
    rw [hlist,addresses,List.map_append,List.map_cons] at hnd
    obtain ⟨hnot,-⟩ := List.nodup_cons.mp (List.nodup_middle.mp hnd)
    rw [List.mem_append,not_or] at hnot
    have hkeep : ∀ l' : List (AsyncWait F), w.address ∉ l'.map AsyncWait.address →
        l'.filter (fun v => decide (v.address ≠ w.address)) = l' := by
      intro l' hl'
      refine List.filter_eq_self.mpr fun v hv => ?_
      have hne : v.address ≠ w.address := fun heq => hl' (heq ▸ List.mem_map_of_mem hv)
      simpa using hne
    simp only [AsyncIoBase.eraseWait,hlist,List.filter_append,hkeep l hnot.1]
    rw [List.filter_cons_of_neg (by simp),hkeep r hnot.2]
  have hsub : ∀ v ∈ l ++ r, v ∈ s.base.asyncWaitList := by
    intro v hv
    simp only [hlist,List.mem_append,List.mem_cons] at hv ⊢
    tauto
  refine h.advance hpc (by simp) (by simp) rfl ?_ h.sync (by simp) ?_ ?_
  · exact (h.records.cancel hlist).congr hfilter rfl rfl rfl rfl
  · intro v hv
    exact h.prompt v (hsub v (hfilter ▸ hv))
  · intro ho
    have := h.closed ho
    rw [hlist] at this
    simp at this

end

variable {mask : Events}

section

variable (h : s.Inv)

include h

theorem Inv.blockingWait (hpc : s.calls[i]? = some (.entered (.blockingWait mask))) :
    (s.apply i (s.base.blockingWait i mask)).Inv := by
  unfold AsyncIoBase.blockingWait
  split_ifs with hm
  · exact h.advance hpc (by simp) (by simp) rfl (by simpa using h.records) h.sync (by simp) h.prompt
      h.closed
  refine ⟨?_,h.stage.set hpc (by simp) (by simp),?_,
    h.served.set hpc (by simp) (by simp) (by simp),h.prompt,h.closed⟩
  · show Records _ (s.log ++ []) 1
    rw [List.append_nil]
    exact h.records.congr rfl rfl rfl rfl rfl
  · intro j m hj
    rcases (Calls.set_iff hpc).mp hj with ⟨rfl,heq⟩ | ⟨-,hj⟩
    · cases heq
      exact ⟨false,by simp [apply],fun hmeets => absurd hmeets hm⟩
    · obtain ⟨x,hx,hsignaled⟩ := h.sync j m hj
      exact ⟨x,List.mem_append_left _ hx,hsignaled⟩

theorem Inv.addWait {f : F} (hpc : s.calls[i]? = some (.opened mask f))
    (hturn : s.base.isOpen = true ∨ mask.Meets s.base.activeEvents) :
    (s.apply i (s.base.addWait i mask f)).Inv := by
  unfold AsyncIoBase.addWait
  split_ifs with hm
  · refine ⟨h.records.served i mask _,h.stage.set hpc (by simp) (by simp),
      h.sync.set hpc (by simp),h.served.serve hpc (by simp) (by simp) hm.triggers,h.prompt,h.closed⟩
  refine h.advance hpc (by simp) (by simp) rfl (h.records.add rfl rfl) h.sync (by simp) ?_ ?_
  · intro v hv
    rcases List.mem_append.mp hv with hv | hv
    · exact h.prompt v hv
    · rwa [List.mem_singleton.mp hv]
  · intro ho
    have ho : s.base.isOpen = false := ho
    rw [hturn.resolve_right hm] at ho
    cases ho

theorem Inv.idle {pc' : WaitPc F} {b : AsyncIoBase F H} (hpc : s.calls[i]? = some pc)
    (hold : (∀ v, pc ≠ .notifying v) ∧ (∀ v, pc ≠ .returned v))
    (hserving : pc = .serving → ∃ v, pc' = .returned v)
    (hnew : (∀ v, pc' ≠ .notifying v) ∧ ∀ mask, pc' ≠ .blocked mask)
    (hlist : b.asyncWaitList = s.base.asyncWaitList)
    (hpending : b.pendingAsyncWaitList = s.base.pendingAsyncWaitList)
    (hmap : b.asyncWaitMap = s.base.asyncWaitMap) (hnext : b.nextAddress = s.base.nextAddress)
    (hsync : Sync (s.calls.set i pc') b.syncWaitList b.activeEvents)
    (hprompt : ∀ w ∈ s.base.asyncWaitList, ¬ w.mask.Meets b.activeEvents)
    (hclosed : b.isOpen = false → s.base.asyncWaitList = []) :
    (s.apply i ⟨b,pc',[]⟩).Inv where
  records := by
    show Records b (s.log ++ []) 1
    rw [List.append_nil]
    exact h.records.congr hlist hpending (by rw [hmap]) (by rw [hmap]) hnext
  stage := by
    show Stage (s.calls.set i pc') b.pendingAsyncWaitList
    rw [hpending]
    exact h.stage.set hpc hold.1 hnew.1
  sync := hsync
  served := h.served.set hpc hold.2 hserving (by simp)
  prompt := by
    show ∀ w ∈ b.asyncWaitList, _
    rw [hlist]
    exact hprompt
  closed := by
    show b.isOpen = false → b.asyncWaitList = []
    rw [hlist]
    exact hclosed

theorem Inv.wait {f : F} (hpc : s.calls[i]? = some (.entered (.wait mask f))) :
    (s.apply i ⟨s.base,s.base.wait mask f,[]⟩).Inv := by
  unfold AsyncIoBase.wait
  split_ifs
  · exact h.idle hpc (by simp) (by simp) (by simp) rfl rfl rfl rfl (h.sync.set hpc (by simp))
      h.prompt h.closed
  · exact h.idle hpc (by simp) (by simp) (by simp) rfl rfl rfl rfl (h.sync.set hpc (by simp))
      h.prompt h.closed

theorem Inv.open (hpc : s.calls[i]? = some (.entered .open)) :
    (s.apply i ⟨s.base.open',.returned .void,[]⟩).Inv := by
  refine h.idle hpc (by simp) (by simp) (by simp) rfl rfl rfl rfl ?_
    (fun w _ => Events.not_meets_zero _) (by simp [AsyncIoBase.open'])
  intro j mask hj
  obtain ⟨x,hx,-⟩ := h.sync.set hpc (by simp) j mask hj
  exact ⟨x,hx,fun hmeets => absurd hmeets (Events.not_meets_zero _)⟩

theorem Inv.wake (hpc : s.calls[i]? = some (.blocked mask)) :
    (s.apply i ⟨s.base.wake i,.awake mask,[]⟩).Inv := by
  refine h.idle hpc (by simp) (by simp) (by simp) rfl rfl rfl rfl ?_ h.prompt h.closed
  intro j m hj
  rcases (Calls.set_iff hpc).mp hj with ⟨-,heq⟩ | ⟨hji,hj⟩
  · cases heq
  obtain ⟨x,hx,hsignaled⟩ := h.sync j m hj
  exact ⟨x,List.mem_map.mpr ⟨_,hx,by simp [hji]⟩,hsignaled⟩

theorem Inv.leaveWait (hpc : s.calls[i]? = some (.awake mask)) :
    (s.apply i (s.base.leaveWait i mask)).Inv := by
  refine h.idle hpc (by simp) (by simp) (by simp) rfl rfl rfl rfl ?_ h.prompt h.closed
  intro j m hj
  rcases (Calls.set_iff hpc).mp hj with ⟨-,heq⟩ | ⟨hji,hj⟩
  · cases heq
  obtain ⟨x,hx,hsignaled⟩ := h.sync j m hj
  exact ⟨x,List.mem_filter.mpr ⟨hx,by simpa using hji⟩,hsignaled⟩

theorem Inv.timeout (hpc : s.calls[i]? = some (.blocked mask)) :
    Inv { s with calls := s.calls.set i (.awake mask) } := by
  have hidle : (s.apply i ⟨s.base,.awake mask,[]⟩).Inv :=
    h.idle hpc (by simp) (by simp) (by simp) rfl rfl rfl rfl (h.sync.set hpc (by simp))
      h.prompt h.closed
  simpa [apply] using hidle

theorem Inv.step (a : WaitAction F) (hturns : s.TakesTurns a) (hs : s.step a = some s') :
    s'.Inv := by
  cases a with
  | call request =>
    cases hs
    exact h.call request
  | timeout i =>
    simp only [WaitSystem.step] at hs
    split at hs
    · next mask hpc =>
      cases hs
      exact h.timeout hpc
    · cases hs
  | advance i =>
    simp only [WaitSystem.step] at hs
    cases hpc : s.calls[i]? with
    | none =>
      rw [hpc] at hs
      cases hs
    | some pc =>
      simp only [TakesTurns,hpc] at hturns
      simp only [hpc,Option.map_eq_some_iff] at hs
      obtain ⟨o,ho,rfl⟩ := hs
      cases pc with
      | entered request =>
        cases request with
        | «open» => cases ho; exact h.open hpc
        | wait mask f => cases ho; exact h.wait hpc
        | cancelWait handle => cases ho; exact h.cancelWait hpc
        | blockingWait mask => cases ho; exact h.blockingWait hpc
        | setEvents events => cases ho; exact h.setEvents hpc hturns
        | cancelAllWaits => cases ho; exact h.cancelAllWaits hpc (by simp) (by simp)
        | close => cases ho; exact h.cancelAllWaits hpc (by simp) (by simp)
      | opened mask f => cases ho; exact h.addWait hpc hturns
      | serving =>
        cases ho
        exact h.idle hpc (by simp) (by simp) (by simp) rfl rfl rfl rfl (h.sync.set hpc (by simp))
          h.prompt h.closed
      | notifying w => cases ho; exact h.notified hpc
      | blocked mask =>
        simp only [AsyncIoBase.advance] at ho
        split_ifs at ho
        cases ho
        exact h.wake hpc
      | awake mask => cases ho; exact h.leaveWait hpc
      | closing =>
        cases ho
        exact h.idle hpc (by simp) (by simp) (by simp) rfl rfl rfl rfl (h.sync.set hpc (by simp))
          h.prompt (fun _ => hturns)
      | returned value => cases ho

theorem Inv.delivers : s.Delivers where
  once a := by
    have := List.nodup_iff_count_le_one.mp h.records.nodupAddresses a
    have := h.records.balance a
    omega
  kept w hw := by
    have hpos : 0 < (addresses (addedIn s.log)).count w.address :=
      List.count_pos_iff.mpr (List.mem_map_of_mem hw)
    rw [h.records.balance] at hpos
    by_contra hlost
    push Not at hlost
    obtain ⟨hdelivered,hcancelled,hlisted,hpending⟩ := hlost
    have hlist : w.address ∉ addresses s.base.asyncWaitList := by
      intro hmem
      obtain ⟨v,hv,hvw⟩ := List.mem_map.mp hmem
      obtain rfl := List.inj_on_of_nodup_map h.records.nodupAddresses (h.records.listed v hv) hw hvw
      exact hlisted hv
    have hrest : w.address ∉ addresses (s.base.pendingAsyncWaitList.drop 1) := by
      intro hmem
      obtain ⟨v,hv,hvw⟩ := List.mem_map.mp hmem
      exact hpending (List.mem_map.mpr ⟨v,List.mem_of_mem_drop hv,hvw⟩)
    rw [List.count_eq_zero.mpr hlist,List.count_eq_zero.mpr hrest,
      List.count_eq_zero.mpr hdelivered,List.count_eq_zero.mpr hcancelled] at hpos
    omega
  own := h.records.own
  inTurn w hw := h.stage.running (List.ne_nil_of_mem hw)
  prompt := h.prompt
  closed := h.closed
  servedOnce i := List.nodup_iff_count_le_one.mp h.served.once i
  servedOwn := h.served.own

theorem Inv.unlinks : s.Unlinks where
  list w hw := by
    have := List.nodup_iff_count_le_one.mp h.records.nodupAddresses w.address
    have := List.count_pos_iff.mpr (List.mem_map_of_mem (f := AsyncWait.address) hw)
    have := h.records.unlisted w.address
    simp only [addresses] at *
    omega
  map w hw := by
    have := List.nodup_iff_count_le_one.mp h.records.nodupHandles w.handle
    have := List.count_pos_iff.mpr (List.mem_map_of_mem (f := AsyncWait.handle) hw)
    have := h.records.unmapped w.handle
    have hkeys : (H.entries s.base.asyncWaitMap).map Prod.fst = handles s.base.asyncWaitList := by
      rw [h.records.entries,List.map_map]
      rfl
    rw [hkeys]
    simp only [handles] at *
    omega
  pending a := by
    have := List.nodup_iff_count_le_one.mp h.records.nodupAddresses a
    have := h.records.balance a
    have := h.records.erased a
    omega
  agree := h.records.entries

theorem Inv.wakes : s.Wakes := by
  intro i mask hi hmeets
  obtain ⟨x,hx,hsignaled⟩ := h.sync i mask hi
  rwa [hsignaled hmeets] at hx

theorem Inv.correct : s.Correct := ⟨h.delivers,h.unlinks,h.wakes⟩

theorem Inv.setEvents_again {events : Events} (hset : s.base.activeEvents &&& events ≠ events)
    (hpending : s.base.pendingAsyncWaitList ≠ []) :
    ¬ (s.apply i (s.base.setEvents events)).Delivers := by
  intro hd
  obtain ⟨w,rest,hw⟩ := List.exists_cons_of_ne_nil hpending
  have hdelivered : w.address ∈ deliveredIn s.log := by
    refine List.count_pos_iff.mp ?_
    have := h.records.erased w.address
    simp [hw] at this
    show 0 < (seen WaitEvent.deliveredAddress s.log).count w.address
    omega
  have hagain : w.address ∈ deliveredIn (s.base.setEvents events).events := by
    unfold AsyncIoBase.setEvents
    rw [if_neg hset]
    exact AsyncIoBase.processWaitLists_head hw
  have honce := hd.once w.address
  have hfirst := List.count_pos_iff.mpr hdelivered
  have hsecond := List.count_pos_iff.mpr hagain
  simp only [apply,deliveredIn,seen_append,List.count_append] at honce hfirst hsecond
  omega

end

theorem addWait_late {f : F} (ho : s.base.isOpen = false) (hm : ¬ mask.Meets s.base.activeEvents) :
    ¬ (s.apply i (s.base.addWait i mask f)).Delivers := by
  intro hd
  unfold AsyncIoBase.addWait at hd
  rw [if_neg hm] at hd
  have := hd.closed ho
  simp [apply] at this

theorem Inv.out_of_turn (h : s.Inv) (a : WaitAction F) (hturns : ¬ s.TakesTurns a)
    (hs : s.step a = some s') : ¬ s'.Correct := by
  rintro ⟨hd,-,-⟩
  cases a with
  | call request => exact hturns trivial
  | timeout i => exact hturns trivial
  | advance i =>
    simp only [WaitSystem.step] at hs
    simp only [TakesTurns] at hturns
    split at hturns
    · next events hpc =>
      rw [hpc] at hs
      cases hs
      rw [not_or] at hturns
      exact h.setEvents_again hturns.1 hturns.2 hd
    · next mask f hpc =>
      rw [hpc] at hs
      cases hs
      rw [not_or] at hturns
      exact addWait_late (Bool.eq_false_iff.mpr hturns.1) hturns.2 hd
    · next hpc =>
      rw [hpc] at hs
      cases hs
      exact hturns (hd.closed rfl)
    · exact hturns trivial

/-- Waits are delivered or cancelled once, leave their lists once and wake their callers in every
state of a run exactly when its calls take turns. -/
theorem correct_iff_takesTurns (as : List (WaitAction F)) :
    Run.Always WaitSystem.step Correct (initial : WaitSystem F H) as ↔
      Run.Along WaitSystem.step TakesTurns (initial : WaitSystem F H) as :=
  Run.always_iff_along (fun _ h => h.correct) (fun _ a _ h => h.step a)
    (fun _ a _ h => h.out_of_turn a) initial_inv as

/-- The events of a second call find the handler that the first one has called. -/
theorem not_correct_setEvents_twice :
    ¬ Run.Always WaitSystem.step Correct (initial : WaitSystem Unit (.counting ℕ))
      [.call .open,.advance 0,.call (.wait 1 ()),.advance 1,.advance 1,.call (.setEvents 1),
        .advance 2,.call (.setEvents 2),.advance 3] := by
  intro h
  have honce := (h.last rfl).delivers.once 0
  revert honce
  decide

end WaitSystem
end Jancy.Io
