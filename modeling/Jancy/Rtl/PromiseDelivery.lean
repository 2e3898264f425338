import Jancy.Rtl.Promise
import Mathlib.Data.List.Count

/-! Delivery: what becomes of every handler that waits for a promise. -/
namespace Jancy.Rtl

variable {V E F : Type} {H : HandleTable ℕ}

namespace PromiseEvent

def addedHandle : PromiseEvent V E F → Option Handle
  | .added handle _ => some handle
  | _ => none

def cancelledHandle : PromiseEvent V E F → Option Handle
  | .cancelled handle => some handle
  | _ => none

def invokedHandle : PromiseEvent V E F → Option Handle
  | .invoked handle _ _ => some handle
  | _ => none

end PromiseEvent

/-- The call is in the loop of `complete_2`. -/
def PromisePc.inLoop : PromisePc V E F → Bool
  | .notifying _ | .notified _ => true
  | _ => false

namespace PromiseSystem

def added (s : PromiseSystem V E F H) : List Handle := s.log.filterMap PromiseEvent.addedHandle

def cancelled (s : PromiseSystem V E F H) : List Handle :=
  s.log.filterMap PromiseEvent.cancelledHandle

def invoked (s : PromiseSystem V E F H) : List Handle :=
  s.log.filterMap PromiseEvent.invokedHandle

/-- Added, and neither cancelled nor taken by a completion. -/
structure Registered (s : PromiseSystem V E F H) (h : Handle) : Prop where
  added : h ∈ s.added
  notCancelled : h ∉ s.cancelled
  notInvoked : h ∉ s.invoked
  notTaken : ∀ (i : ℕ) (w : AsyncWait F), s.calls[i]? = some (.notifying w) → w.handle ≠ h

def Settled (s : PromiseSystem V E F H) : Prop :=
  s.promise.state = .completed ∧
    ∀ (i : ℕ) (pc : PromisePc V E F), s.calls[i]? = some pc → pc.inLoop = false

structure Delivers (s : PromiseSystem V E F H) : Prop where
  distinct : s.added.Nodup
  atMostOnce : ∀ h, s.invoked.count h + s.cancelled.count h ≤ s.added.count h
  exactlyOnce : s.Settled → ∀ h, s.invoked.count h + s.cancelled.count h = s.added.count h
  own : ∀ h f args, .invoked h f args ∈ s.log → .added h f ∈ s.log

structure Cancels (s : PromiseSystem V E F H) : Prop where
  found : ∀ i h, s.calls[i]? = some (.entered (.cancelWait h)) →
    ∃ found s', s.step (.advance i) = some s' ∧
      s'.calls[i]? = some (.returned (.bool found)) ∧ (found = true ↔ s.Registered h) ∧
      s'.cancelled = s.cancelled ++ if found then [h] else []

/-- The first completion stands. -/
structure Completes (s : PromiseSystem V E F H) : Prop where
  again : s.promise.state = .completed → ∀ i result errorPtr,
    s.calls[i]? = some (.entered (.complete result errorPtr)) →
    s.step (.advance i) = some { s with calls := s.calls.set i (.returned .void) }
  keeps : s.promise.state = .completed → ∀ a s', s.step a = some s' →
    s'.promise.state = .completed ∧ s'.promise.result = s.promise.result ∧
      s'.promise.errorPtr = s.promise.errorPtr
  args : ∀ h f args, .invoked h f args ∈ s.log →
    s.promise.state = .completed ∧ args = .resultError s.promise.result s.promise.errorPtr

/-- A wait that comes after the completion is served with what is stored. -/
structure Serves (s : PromiseSystem V E F H) : Prop where
  wait : s.promise.state = .completed → ∀ i kind f,
    s.calls[i]? = some (.entered (.wait kind f)) →
    s.step (.advance i) = some { s with calls := s.calls.set i (.serving kind f) }
  serve : ∀ i kind f, s.calls[i]? = some (.serving kind f) → s.promise.state = .completed ∧
    s.step (.advance i) =
      some ⟨s.promise,s.calls.set i .served,
        s.log ++ [.served i f (s.promise.waitArgs kind)]⟩
  blocking : s.promise.state = .completed → ∀ i,
    s.calls[i]? = some (.entered .blockingWait) →
    s.step (.advance i) = some { s with calls := s.calls.set i s.promise.blockingResult }

structure Correct (s : PromiseSystem V E F H) : Prop where
  delivers : s.Delivers
  cancels : s.Cancels
  completes : s.Completes
  serves : s.Serves

/-- No handler that a completion calls throws while another one is registered. -/
def ThrowsLast (s : PromiseSystem V E F H) (a : PromiseAction V E F) : Prop :=
  ∀ i w, a = .handlerThrows i → s.calls[i]? = some (.notified w) →
    H.entries s.promise.asyncWaitMap = []

end PromiseSystem

def AsyncWait.entry (w : AsyncWait F) : Handle × ℕ := (w.handle,w.address)

/-- The waits in the list are those behind `front`, which are in the map, and those in `front`,
which are not any more. -/
structure Waits (p : Promise V E F H) (front rest : List (AsyncWait F)) : Prop where
  list : p.asyncWaitList = front ++ rest
  entries : H.entries p.asyncWaitMap = rest.map AsyncWait.entry
  addresses : (p.asyncWaitList.map AsyncWait.address).Nodup
  handles : (p.asyncWaitList.map AsyncWait.handle).Nodup
  allocated : ∀ w ∈ p.asyncWaitList, w.address < p.nextAddress
  issued : ∀ w ∈ p.asyncWaitList, w.handle ∈ H.issued p.asyncWaitMap

namespace Waits

variable {p : Promise V E F H} {front rest : List (AsyncWait F)}

theorem initial : Waits (.initial : Promise V E F H) [] [] where
  list := rfl
  entries := H.entries_new
  addresses := List.nodup_nil
  handles := List.nodup_nil
  allocated := by simp [Promise.initial]
  issued := by simp [Promise.initial]

theorem keys (h : Waits p front rest) :
    (H.entries p.asyncWaitMap).map Prod.fst = rest.map AsyncWait.handle := by
  rw [h.entries,List.map_map]
  rfl

theorem nodup_keys (h : Waits p front rest) : ((H.entries p.asyncWaitMap).map Prod.fst).Nodup := by
  have hhandles := h.handles
  rw [h.list,List.map_append] at hhandles
  rw [h.keys]
  exact (List.nodup_append.mp hhandles).2.1

theorem add (h : Waits p front rest) (kind : AsyncWaitKind) (f : F) :
    Waits (p.addAsyncWait kind f).promise front
      (rest ++ [⟨p.nextAddress,kind,f,(H.add p.asyncWaitMap p.nextAddress).1⟩]) := by
  have hfresh := H.add_fresh p.asyncWaitMap p.nextAddress
  constructor
  · show p.asyncWaitList ++ _ = _
    rw [h.list,List.append_assoc]
  · show H.entries (H.add _ _).2 = _
    rw [H.entries_add,h.entries,List.map_append]
    rfl
  · show ((p.asyncWaitList ++ _).map _).Nodup
    rw [List.map_append,List.nodup_append]
    refine ⟨h.addresses,by simp,fun a ha b hb => ?_⟩
    obtain ⟨w,hw,rfl⟩ := List.mem_map.mp ha
    have hlt := h.allocated w hw
    simp at hb
    omega
  · show ((p.asyncWaitList ++ _).map _).Nodup
    rw [List.map_append,List.nodup_append]
    refine ⟨h.handles,by simp,fun a ha b hb => ?_⟩
    obtain ⟨w,hw,rfl⟩ := List.mem_map.mp ha
    simp at hb
    rintro rfl
    rw [← hb] at hfresh
    exact hfresh (h.issued w hw)
  · intro w hw
    show _ < p.nextAddress + 1
    cases List.mem_append.mp hw with
    | inl hw => exact Nat.lt_succ_of_lt (h.allocated w hw)
    | inr hw =>
      rw [List.mem_singleton.mp hw]
      exact Nat.lt_succ_self _
  · intro w hw
    show _ ∈ H.issued (H.add _ _).2
    rw [H.issued_add]
    cases List.mem_append.mp hw with
    | inl hw => exact List.mem_cons_of_mem _ (h.issued w hw)
    | inr hw =>
      rw [List.mem_singleton.mp hw]
      exact List.mem_cons_self

variable {w : AsyncWait F}

theorem filter_of_split {l₁ l₂ : List (AsyncWait F)}
    (h : ((l₁ ++ w :: l₂).map AsyncWait.address).Nodup) :
    (l₁ ++ w :: l₂).filter (fun x => decide (x.address ≠ w.address)) = l₁ ++ l₂ := by
  rw [List.map_append,List.map_cons] at h
  have hnot := (List.nodup_cons.mp (List.nodup_middle.mp h)).1
  rw [List.mem_append] at hnot
  have hkeep : ∀ l : List (AsyncWait F), w.address ∉ l.map AsyncWait.address →
      l.filter (fun x => decide (x.address ≠ w.address)) = l := by
    intro l hl
    apply List.filter_eq_self.mpr
    intro x hx
    have hne : x.address ≠ w.address := fun heq => hl (heq ▸ List.mem_map_of_mem hx)
    simpa using hne
  rw [List.filter_append,List.filter_cons_of_neg (by simp),hkeep l₁ fun h₁ => hnot (.inl h₁),
    hkeep l₂ fun h₂ => hnot (.inr h₂)]

theorem find_none (h : Waits p front rest) {handle : Handle}
    (hf : H.find p.asyncWaitMap handle = none) : handle ∉ rest.map AsyncWait.handle := by
  intro hm
  rw [← h.keys] at hm
  obtain ⟨l₁,v,l₂,heq,hl₁,_⟩ := HandleTable.split_of_mem h.nodup_keys hm
  rw [H.find_eq,heq,HandleTable.lookup_of_split hl₁] at hf
  cases hf

theorem find_some (h : Waits p front rest) {handle : Handle} {address : ℕ}
    (hf : H.find p.asyncWaitMap handle = some address) :
    ∃ r₁ w r₂, rest = r₁ ++ w :: r₂ ∧ w.handle = handle ∧ w.address = address := by
  have hm : handle ∈ (H.entries p.asyncWaitMap).map Prod.fst := by
    by_contra hnot
    rw [H.find_eq,HandleTable.lookup_none hnot] at hf
    cases hf
  obtain ⟨l₁,v,l₂,heq,hl₁,_⟩ := HandleTable.split_of_mem h.nodup_keys hm
  rw [H.find_eq,heq,HandleTable.lookup_of_split hl₁] at hf
  cases hf
  rw [h.entries] at heq
  obtain ⟨r₁,r,hrest,_,hr⟩ := List.map_eq_append_iff.mp heq
  obtain ⟨w,r₂,hcons,hw,_⟩ := List.map_eq_cons_iff.mp hr
  cases hw
  exact ⟨r₁,w,r₂,by rw [hrest,hcons],rfl,rfl⟩

theorem of_sublist (h : Waits p front rest) {q : Promise V E F H}
    {front' rest' : List (AsyncWait F)} (hlist : q.asyncWaitList = front' ++ rest')
    (hsub : q.asyncWaitList.Sublist p.asyncWaitList)
    (hentries : H.entries q.asyncWaitMap = rest'.map AsyncWait.entry)
    (hissued : H.issued q.asyncWaitMap = H.issued p.asyncWaitMap)
    (hnext : q.nextAddress = p.nextAddress) : Waits q front' rest' where
  list := hlist
  entries := hentries
  addresses := (hsub.map _).nodup h.addresses
  handles := (hsub.map _).nodup h.handles
  allocated w hw := by
    rw [hnext]
    exact h.allocated w (hsub.subset hw)
  issued w hw := by
    rw [hissued]
    exact h.issued w (hsub.subset hw)

theorem entries_erase {r₁ r₂ : List (AsyncWait F)} (h : Waits p front (r₁ ++ w :: r₂)) :
    H.entries (H.erase p.asyncWaitMap w.handle) = (r₁ ++ r₂).map AsyncWait.entry := by
  have hnd := h.nodup_keys
  rw [h.entries,List.map_append,List.map_cons] at hnd
  obtain ⟨h₁,h₂,_⟩ := HandleTable.nodup_of_split (h := w.handle) (v := w.address) hnd
  rw [H.entries_erase,h.entries,List.map_append,List.map_cons]
  show HandleTable.eraseHandle w.handle (_ ++ (w.handle,w.address) :: _) = _
  rw [HandleTable.eraseHandle_of_split h₁ h₂,List.map_append]

theorem cancel {r₁ r₂ : List (AsyncWait F)} (h : Waits p front (r₁ ++ w :: r₂)) :
    Waits { p.eraseWait w.address with asyncWaitMap := H.erase p.asyncWaitMap w.handle } front
      (r₁ ++ r₂) := by
  have hlist : (p.eraseWait w.address).asyncWaitList = front ++ (r₁ ++ r₂) := by
    have haddresses := h.addresses
    rw [h.list,← List.append_assoc] at haddresses
    show p.asyncWaitList.filter _ = _
    rw [h.list,← List.append_assoc,filter_of_split haddresses,List.append_assoc]
  exact h.of_sublist hlist List.filter_sublist h.entries_erase (H.issued_erase _ _) rfl

theorem take (h : Waits p [] (w :: rest)) :
    Waits { p with asyncWaitMap := H.erase p.asyncWaitMap w.handle } [w] rest :=
  have hsplit : Waits p [] ([] ++ w :: rest) := h
  h.of_sublist h.list (List.Sublist.refl _) hsplit.entries_erase (H.issued_erase _ _) rfl

theorem drop (h : Waits p [w] rest) : Waits (p.eraseWait w.address) [] rest := by
  have hlist : (p.eraseWait w.address).asyncWaitList = [] ++ rest := by
    have haddresses : (([] ++ w :: rest).map AsyncWait.address).Nodup := by
      rw [List.nil_append,← List.singleton_append,← h.list]
      exact h.addresses
    show p.asyncWaitList.filter _ = _
    rw [h.list]
    exact filter_of_split haddresses
  exact h.of_sublist hlist List.filter_sublist h.entries rfl rfl

end Waits

/-- No call is in the loop, unless it is the one given. -/
def OnlyInLoop (calls : List (PromisePc V E F)) (o : Option ℕ) : Prop :=
  ∀ j pc, o ≠ some j → calls[j]? = some pc → pc.inLoop = false

variable {calls : List (PromisePc V E F)}

theorem OnlyInLoop.enter {o : Option ℕ} (h : OnlyInLoop calls o) (request : PromiseRequest V E F) :
    OnlyInLoop (calls ++ [.entered request]) o := by
  intro j pc hj hpc
  rw [List.getElem?_append] at hpc
  split at hpc
  · exact h j pc hj hpc
  · have hmem := List.mem_of_getElem? hpc
    rw [List.mem_singleton.mp hmem]
    rfl

theorem OnlyInLoop.set {o o' : Option ℕ} {i : ℕ} {pc' : PromisePc V E F} (h : OnlyInLoop calls o)
    (hpc' : o' ≠ some i → pc'.inLoop = false) (ho : ∀ j, j ≠ i → o' ≠ some j → o ≠ some j) :
    OnlyInLoop (calls.set i pc') o' := by
  intro j pc hj hpc
  rw [List.getElem?_set] at hpc
  split at hpc
  · rename_i heq
    subst heq
    split at hpc
    · cases hpc
      exact hpc' hj
    · cases hpc
  · rename_i hne
    exact h j pc (ho j (Ne.symm hne) hj) hpc

theorem OnlyInLoop.weaken (h : OnlyInLoop calls none) (i : ℕ) :
    OnlyInLoop calls (some i) := fun j pc _ hpc => h j pc nofun hpc

/-- `claimed` are the handles whose handlers a completion is about to call. -/
inductive Stage : PromiseState → List (PromisePc V E F) → List (AsyncWait F) →
    List (AsyncWait F) → List Handle → Prop
  | pending {calls : List (PromisePc V E F)} {rest : List (AsyncWait F)}
      (honly : OnlyInLoop calls none) : Stage .initial calls [] rest []
  | notifying {calls : List (PromisePc V E F)} {rest : List (AsyncWait F)} {i : ℕ}
      {w : AsyncWait F} (hi : calls[i]? = some (.notifying w))
      (honly : OnlyInLoop calls (some i)) : Stage .completed calls [w] rest [w.handle]
  | notified {calls : List (PromisePc V E F)} {rest : List (AsyncWait F)} {i : ℕ}
      {w : AsyncWait F} (hi : calls[i]? = some (.notified w))
      (honly : OnlyInLoop calls (some i)) : Stage .completed calls [w] rest []
  | drained {calls : List (PromisePc V E F)} {front : List (AsyncWait F)}
      (honly : OnlyInLoop calls none) : Stage .completed calls front [] []

namespace Stage

variable {state : PromiseState} {calls : List (PromisePc V E F)}
  {front rest : List (AsyncWait F)} {claimed : List Handle} {i : ℕ} {pc pc' : PromisePc V E F}
  {w : AsyncWait F}

section

variable (h : Stage state calls front rest claimed)

include h

theorem enter (request : PromiseRequest V E F) :
    Stage state (calls ++ [.entered request]) front rest claimed := by
  cases h with
  | pending honly => exact .pending (honly.enter request)
  | notifying hi honly =>
    exact .notifying (List.getElem?_append_left (List.getElem?_eq_some_iff.mp hi).1 ▸ hi)
      (honly.enter request)
  | notified hi honly =>
    exact .notified (List.getElem?_append_left (List.getElem?_eq_some_iff.mp hi).1 ▸ hi)
      (honly.enter request)
  | drained honly => exact .drained (honly.enter request)

theorem move (hi : calls[i]? = some pc) (hpc : pc.inLoop = false) (hpc' : pc'.inLoop = false) :
    Stage state (calls.set i pc') front rest claimed := by
  cases h with
  | pending honly => exact .pending (honly.set (fun _ => hpc') fun _ _ h => h)
  | @notifying _ _ k w hk honly =>
    have hne : i ≠ k := by
      rintro rfl
      rw [hk] at hi
      cases hi
      cases hpc
    have hk' : (calls.set i pc')[k]? = some (.notifying w) := by
      rw [List.getElem?_set_ne hne]
      exact hk
    exact .notifying hk' (honly.set (fun _ => hpc') fun _ _ h => h)
  | @notified _ _ k w hk honly =>
    have hne : i ≠ k := by
      rintro rfl
      rw [hk] at hi
      cases hi
      cases hpc
    have hk' : (calls.set i pc')[k]? = some (.notified w) := by
      rw [List.getElem?_set_ne hne]
      exact hk
    exact .notified hk' (honly.set (fun _ => hpc') fun _ _ h => h)
  | drained honly => exact .drained (honly.set (fun _ => hpc') fun _ _ h => h)

theorem of_notifying (hi : calls[i]? = some (.notifying w)) :
    state = .completed ∧ front = [w] ∧ claimed = [w.handle] ∧ OnlyInLoop calls (some i) := by
  cases h with
  | pending honly => exact nomatch honly i _ nofun hi
  | drained honly => exact nomatch honly i _ nofun hi
  | @notifying _ _ k w' hk honly =>
    by_cases heq : k = i
    · subst heq
      rw [hi] at hk
      cases hk
      exact ⟨rfl,rfl,rfl,honly⟩
    · exact nomatch honly i _ (fun h => heq (Option.some.inj h)) hi
  | @notified _ _ k w' hk honly =>
    by_cases heq : k = i
    · subst heq
      rw [hi] at hk
      cases hk
    · exact nomatch honly i _ (fun h => heq (Option.some.inj h)) hi

theorem of_notified (hi : calls[i]? = some (.notified w)) :
    state = .completed ∧ front = [w] ∧ claimed = [] ∧ OnlyInLoop calls (some i) := by
  cases h with
  | pending honly => exact nomatch honly i _ nofun hi
  | drained honly => exact nomatch honly i _ nofun hi
  | @notifying _ _ k w' hk honly =>
    by_cases heq : k = i
    · subst heq
      rw [hi] at hk
      cases hk
    · exact nomatch honly i _ (fun h => heq (Option.some.inj h)) hi
  | @notified _ _ k w' hk honly =>
    by_cases heq : k = i
    · subst heq
      rw [hi] at hk
      cases hk
      exact ⟨rfl,rfl,rfl,honly⟩
    · exact nomatch honly i _ (fun h => heq (Option.some.inj h)) hi

end

theorem of_initial (h : Stage .initial calls front rest claimed) :
    front = [] ∧ claimed = [] ∧ OnlyInLoop calls none := by
  cases h with
  | pending honly => exact ⟨rfl,rfl,honly⟩

section

variable (h : Stage state calls front rest claimed)

include h

theorem settled (hstate : state = .completed)
    (hidle : ∀ (i : ℕ) pc, calls[i]? = some pc → pc.inLoop = false) :
    rest = [] ∧ claimed = [] := by
  cases h with
  | pending => cases hstate
  | notifying hi => exact nomatch hidle _ _ hi
  | notified hi => exact nomatch hidle _ _ hi
  | drained => exact ⟨rfl,rfl⟩

theorem claimed_iff (handle : Handle) :
    handle ∈ claimed ↔ ∃ (i : ℕ) (w : AsyncWait F),
      calls[i]? = some (.notifying w) ∧ w.handle = handle := by
  constructor
  · intro hm
    cases h with
    | @notifying _ _ i w hi => exact ⟨i,w,hi,(List.mem_singleton.mp hm).symm⟩
    | pending => cases hm
    | notified => cases hm
    | drained => cases hm
  · rintro ⟨i,w,hi,rfl⟩
    obtain ⟨_,_,rfl,_⟩ := h.of_notifying hi
    exact List.mem_singleton_self _

theorem with_rest (hne : rest ≠ []) (rest' : List (AsyncWait F)) :
    Stage state calls front rest' claimed := by
  cases h with
  | pending honly => exact .pending honly
  | notifying hi honly => exact .notifying hi honly
  | notified hi honly => exact .notified hi honly
  | drained => exact absurd rfl hne

end

theorem done (honly : OnlyInLoop calls (some i)) (value : PromiseReturn V) :
    Stage .completed (calls.set i (.returned value)) front [] [] :=
  .drained (honly.set (fun _ => rfl) fun _ hj _ heq => hj (Option.some.inj heq).symm)

theorem next (hi : calls[i]? = some pc) (honly : OnlyInLoop calls (some i)) :
    Stage .completed (calls.set i (.notifying w)) [w] rest [w.handle] := by
  have hlt := (List.getElem?_eq_some_iff.mp hi).1
  exact .notifying (List.getElem?_set_self hlt)
    (honly.set (fun h => absurd rfl h) fun _ _ h => h)

end Stage

namespace PromiseSystem

/-- Every handle that was ever added is accounted for. -/
structure Tracks (s : PromiseSystem V E F H) (front rest : List (AsyncWait F))
    (claimed : List Handle) : Prop where
  waits : Waits s.promise front rest
  stage : Stage s.promise.state s.calls front rest claimed
  distinct : s.added.Nodup
  issued : ∀ h ∈ s.added, h ∈ H.issued s.promise.asyncWaitMap
  balance : ∀ h, s.added.count h = (rest.map AsyncWait.handle).count h + claimed.count h +
    s.invoked.count h + s.cancelled.count h
  listed : ∀ w ∈ s.promise.asyncWaitList, .added w.handle w.handlerPtr ∈ s.log
  own : ∀ h f args, .invoked h f args ∈ s.log → .added h f ∈ s.log
  args : ∀ h f args, .invoked h f args ∈ s.log →
    s.promise.state = .completed ∧ args = .resultError s.promise.result s.promise.errorPtr
  serving : ∀ (i : ℕ) kind f, s.calls[i]? = some (.serving kind f) → s.promise.state = .completed

theorem tracks_initial : Tracks (initial : PromiseSystem V E F H) [] [] [] where
  waits := .initial
  stage := .pending (by intro j pc _ hpc; simp [initial] at hpc)
  distinct := List.nodup_nil
  issued := by simp [added,initial]
  balance h := by simp [added,invoked,cancelled,initial]
  listed := by simp [initial,Promise.initial]
  own := by simp [initial]
  args := by simp [initial]
  serving := by simp [initial]

section Steps

variable {s s' : PromiseSystem V E F H} {front rest : List (AsyncWait F)}
  {claimed : List Handle} {i : ℕ} {pc pc' : PromisePc V E F} {q : Promise V E F H}
  {w : AsyncWait F}

theorem added_append (s : PromiseSystem V E F H) (q : Promise V E F H)
    (calls : List (PromisePc V E F)) (events : List (PromiseEvent V E F)) :
    added ⟨q,calls,s.log ++ events⟩ = s.added ++ events.filterMap PromiseEvent.addedHandle := by
  simp [added]

theorem invoked_append (s : PromiseSystem V E F H) (q : Promise V E F H)
    (calls : List (PromisePc V E F)) (events : List (PromiseEvent V E F)) :
    invoked ⟨q,calls,s.log ++ events⟩ =
      s.invoked ++ events.filterMap PromiseEvent.invokedHandle := by
  simp [invoked]

theorem cancelled_append (s : PromiseSystem V E F H) (q : Promise V E F H)
    (calls : List (PromisePc V E F)) (events : List (PromiseEvent V E F)) :
    cancelled ⟨q,calls,s.log ++ events⟩ =
      s.cancelled ++ events.filterMap PromiseEvent.cancelledHandle := by
  simp [cancelled]

section

variable (h : Tracks s front rest claimed)

include h

theorem serving_set {calls : List (PromisePc V E F)} (hcalls : calls = s.calls.set i pc')
    (hpc' : ∀ kind f, pc' = .serving kind f → s.promise.state = .completed) :
    ∀ (j : ℕ) kind f, calls[j]? = some (.serving kind f) → s.promise.state = .completed := by
  intro j kind f hj
  rw [hcalls,List.getElem?_set] at hj
  split at hj
  · split at hj
    · exact hpc' kind f (Option.some.inj hj)
    · cases hj
  · exact h.serving j kind f hj

/-- A step that leaves the waits and what is stored alone. -/
theorem Tracks.quiet (hi : s.calls[i]? = some pc) (hpc : pc.inLoop = false)
    (hpc' : pc'.inLoop = false)
    (hserving : ∀ kind f, pc' = .serving kind f → s.promise.state = .completed)
    (hlist : q.asyncWaitList = s.promise.asyncWaitList)
    (hmap : q.asyncWaitMap = s.promise.asyncWaitMap) (hnext : q.nextAddress = s.promise.nextAddress)
    (hstate : q.state = s.promise.state) (hresult : q.result = s.promise.result)
    (herror : q.errorPtr = s.promise.errorPtr) {events : List (PromiseEvent V E F)}
    (hevents : ∀ e ∈ events, ∃ call f args, e = .served call f args) :
    Tracks (s.apply i ⟨q,pc',events⟩) front rest claimed := by
  have hnone : ∀ g : PromiseEvent V E F → Option Handle,
      (∀ call f args, g (.served call f args) = none) → events.filterMap g = [] := by
    intro g hg
    apply List.filterMap_eq_nil_iff.mpr
    intro e he
    obtain ⟨call,f,args,rfl⟩ := hevents e he
    exact hg call f args
  have hadded : (s.apply i ⟨q,pc',events⟩).added = s.added := by
    rw [apply,added_append,hnone _ fun _ _ _ => rfl,List.append_nil]
  have hinvoked : (s.apply i ⟨q,pc',events⟩).invoked = s.invoked := by
    rw [apply,invoked_append,hnone _ fun _ _ _ => rfl,List.append_nil]
  have hcancelled : (s.apply i ⟨q,pc',events⟩).cancelled = s.cancelled := by
    rw [apply,cancelled_append,hnone _ fun _ _ _ => rfl,List.append_nil]
  have hlog : ∀ {handle f args}, .invoked handle f args ∈ s.log ++ events →
      .invoked handle f args ∈ s.log := by
    intro handle f args hmem
    cases List.mem_append.mp hmem with
    | inl hmem => exact hmem
    | inr hmem =>
      obtain ⟨_,_,_,heq⟩ := hevents _ hmem
      cases heq
  constructor
  · exact h.waits.of_sublist (hlist.trans h.waits.list) (hlist ▸ List.Sublist.refl _)
      (by rw [apply,hmap]; exact h.waits.entries) (by rw [apply,hmap]) hnext
  · show Stage q.state _ _ _ _
    rw [hstate]
    exact h.stage.move hi hpc hpc'
  · rw [hadded]
    exact h.distinct
  · rw [hadded]
    show ∀ h ∈ _, h ∈ H.issued q.asyncWaitMap
    rw [hmap]
    exact h.issued
  · rw [hadded,hinvoked,hcancelled]
    exact h.balance
  · intro w hw
    exact List.mem_append_left _ (h.listed w (hlist ▸ hw))
  · intro handle f args hmem
    exact List.mem_append_left _ (h.own handle f args (hlog hmem))
  · intro handle f args hmem
    show q.state = _ ∧ args = .resultError q.result q.errorPtr
    rw [hstate,hresult,herror]
    exact h.args handle f args (hlog hmem)
  · show ∀ (j : ℕ) kind f, _ → q.state = _
    rw [hstate]
    exact serving_set h rfl hserving

theorem Tracks.add (hstate : s.promise.state = .initial) (kind : AsyncWaitKind) (f : F) :
    ∃ rest', Tracks (s.apply i (s.promise.addAsyncWait kind f)) front rest' claimed := by
  have hfresh := H.add_fresh s.promise.asyncWaitMap s.promise.nextAddress
  have hnew : (H.add s.promise.asyncWaitMap s.promise.nextAddress).1 ∉ s.added :=
    fun hm => hfresh (h.issued _ hm)
  have hstage := h.stage
  rw [hstate] at hstage
  obtain ⟨rfl,rfl,honly⟩ := hstage.of_initial
  have hwaits := h.waits.add kind f
  let new := (H.add s.promise.asyncWaitMap s.promise.nextAddress).1
  let t := s.apply i (s.promise.addAsyncWait kind f)
  have hadded : t.added = s.added ++ [new] := added_append s _ _ _
  have hinvoked : t.invoked = s.invoked := (invoked_append s _ _ _).trans (List.append_nil _)
  have hcancelled : t.cancelled = s.cancelled :=
    (cancelled_append s _ _ _).trans (List.append_nil _)
  refine ⟨rest ++ [⟨s.promise.nextAddress,kind,f,new⟩],?_⟩
  constructor
  · exact hwaits
  · show Stage s.promise.state _ _ _ _
    rw [hstate]
    exact .pending (honly.set (fun _ => rfl) fun _ _ h => h)
  · show t.added.Nodup
    rw [hadded,List.nodup_append]
    refine ⟨h.distinct,by simp,fun a ha b hb heq => ?_⟩
    rw [heq,List.mem_singleton.mp hb] at ha
    exact hnew ha
  · intro handle hm
    change handle ∈ t.added at hm
    show handle ∈ H.issued (H.add _ _).2
    rw [hadded] at hm
    rw [H.issued_add]
    cases List.mem_append.mp hm with
    | inl hm => exact List.mem_cons_of_mem _ (h.issued handle hm)
    | inr hm =>
      rw [List.mem_singleton.mp hm]
      exact List.mem_cons_self
  · intro handle
    have hbalance := h.balance handle
    show t.added.count handle = _ + _ + t.invoked.count handle + t.cancelled.count handle
    rw [hadded,hinvoked,hcancelled,List.map_append,List.count_append,List.count_append]
    show _ + [new].count handle = _ + [new].count handle + _ + _ + _
    omega
  · intro w hw
    cases List.mem_append.mp hw with
    | inl hw => exact List.mem_append_left _ (h.listed w hw)
    | inr hw =>
      rw [List.mem_singleton.mp hw]
      exact List.mem_append_right _ List.mem_cons_self
  · intro handle g args hm
    cases List.mem_append.mp hm with
    | inl hm => exact List.mem_append_left _ (h.own handle g args hm)
    | inr hm => cases List.mem_singleton.mp hm
  · intro handle g args hm
    cases List.mem_append.mp hm with
    | inl hm => exact h.args handle g args hm
    | inr hm => cases List.mem_singleton.mp hm
  · exact serving_set h rfl nofun

theorem Tracks.cancel {handle : Handle} {address : ℕ}
    (hfind : H.find s.promise.asyncWaitMap handle = some address) (hi : s.calls[i]? = some pc)
    (hpc : pc.inLoop = false) :
    ∃ rest', Tracks (s.apply i (s.promise.cancelWait handle)) front rest' claimed := by
  obtain ⟨r₁,w,r₂,rfl,rfl,rfl⟩ := h.waits.find_some hfind
  refine ⟨r₁ ++ r₂,?_⟩
  rw [Promise.cancelWait,hfind]
  let q : Promise V E F H := { s.promise.eraseWait w.address with
    asyncWaitMap := H.erase s.promise.asyncWaitMap w.handle }
  let t := s.apply i ⟨q,.returned (.bool true),[.cancelled w.handle]⟩
  have hadded : t.added = s.added := (added_append s q _ _).trans (List.append_nil _)
  have hinvoked : t.invoked = s.invoked := (invoked_append s q _ _).trans (List.append_nil _)
  have hcancelled : t.cancelled = s.cancelled ++ [w.handle] := cancelled_append s q _ _
  constructor
  · exact h.waits.cancel
  · exact (h.stage.with_rest (by simp) _).move hi hpc rfl
  · exact hadded ▸ h.distinct
  · intro handle hm
    show handle ∈ H.issued (H.erase _ _)
    rw [H.issued_erase]
    exact h.issued handle (hadded ▸ hm)
  · intro handle
    have hbalance := h.balance handle
    show t.added.count handle = _ + _ + t.invoked.count handle + t.cancelled.count handle
    rw [hadded,hinvoked,hcancelled]
    simp only [List.map_append,List.map_cons,List.count_append,List.count_cons,
      List.count_nil] at hbalance ⊢
    omega
  · intro x hx
    exact List.mem_append_left _ (h.listed x (List.mem_filter.mp hx).1)
  · intro handle g args hm
    cases List.mem_append.mp hm with
    | inl hm => exact List.mem_append_left _ (h.own handle g args hm)
    | inr hm => cases List.mem_singleton.mp hm
  · intro handle g args hm
    cases List.mem_append.mp hm with
    | inl hm => exact h.args handle g args hm
    | inr hm => cases List.mem_singleton.mp hm
  · exact serving_set h rfl nofun

theorem Tracks.notify (hi : s.calls[i]? = some (.notifying w)) :
    Tracks (s.apply i ⟨s.promise,.notified w,
      [.invoked w.handle w.handlerPtr (.resultError s.promise.result s.promise.errorPtr)]⟩)
      front rest [] := by
  obtain ⟨hstate,rfl,rfl,honly⟩ := h.stage.of_notifying hi
  have hlt := (List.getElem?_eq_some_iff.mp hi).1
  have hlisted := h.listed w (by rw [h.waits.list]; simp)
  let t := s.apply i ⟨s.promise,.notified w,
    [.invoked w.handle w.handlerPtr (.resultError s.promise.result s.promise.errorPtr)]⟩
  have hadded : t.added = s.added := (added_append s s.promise _ _).trans (List.append_nil _)
  have hinvoked : t.invoked = s.invoked ++ [w.handle] := invoked_append s s.promise _ _
  have hcancelled : t.cancelled = s.cancelled :=
    (cancelled_append s s.promise _ _).trans (List.append_nil _)
  constructor
  · exact h.waits
  · show Stage s.promise.state _ _ _ _
    rw [hstate]
    exact .notified (List.getElem?_set_self hlt)
      (honly.set (fun h => absurd rfl h) fun _ _ h => h)
  · exact hadded ▸ h.distinct
  · intro handle hm
    exact h.issued handle (hadded ▸ hm)
  · intro handle
    have hbalance := h.balance handle
    show t.added.count handle = _ + _ + t.invoked.count handle + t.cancelled.count handle
    rw [hadded,hinvoked,hcancelled,List.count_append,List.count_nil]
    omega
  · intro x hx
    exact List.mem_append_left _ (h.listed x hx)
  · intro handle g args hm
    cases List.mem_append.mp hm with
    | inl hm => exact List.mem_append_left _ (h.own handle g args hm)
    | inr hm =>
      cases List.mem_singleton.mp hm
      exact List.mem_append_left _ hlisted
  · intro handle g args hm
    cases List.mem_append.mp hm with
    | inl hm => exact h.args handle g args hm
    | inr hm =>
      cases List.mem_singleton.mp hm
      exact ⟨hstate,rfl⟩
  · exact serving_set h rfl nofun

end

/-- The loop goes on with the waits that `q` has left. -/
theorem Tracks.loop (h : Tracks s front rest []) (hi : s.calls[i]? = some pc)
    (honly : OnlyInLoop s.calls (some i)) (hq : Waits q [] rest) (hstate : q.state = .completed)
    (hissued : H.issued q.asyncWaitMap = H.issued s.promise.asyncWaitMap)
    (hsub : q.asyncWaitList ⊆ s.promise.asyncWaitList)
    (hargs : ∀ handle f args, .invoked handle f args ∈ s.log →
      args = .resultError q.result q.errorPtr) :
    ∃ front' rest' claimed', Tracks (s.apply i q.completeLoop) front' rest' claimed' := by
  have hlog : s.log ++ [] = s.log := List.append_nil _
  cases rest with
  | nil =>
    have hlist : q.asyncWaitList = [] := hq.list
    have hloop : q.completeLoop = ⟨q,.returned .void,[]⟩ := by
      unfold Promise.completeLoop
      rw [hlist]
    rw [hloop,apply]
    refine ⟨[],[],[],?_⟩
    rw [hlog]
    constructor
    · exact hq
    · show Stage q.state _ _ _ _
      rw [hstate]
      exact .done honly .void
    · exact h.distinct
    · intro handle hm
      show handle ∈ H.issued q.asyncWaitMap
      rw [hissued]
      exact h.issued handle hm
    · exact h.balance
    · intro w hw
      exact h.listed w (hsub hw)
    · exact h.own
    · intro handle f args hm
      exact ⟨hstate,hargs handle f args hm⟩
    · exact fun _ _ _ _ => hstate
  | cons w rest =>
    have hlist : q.asyncWaitList = w :: rest := hq.list
    have hloop : q.completeLoop =
        ⟨{ q with asyncWaitMap := H.erase q.asyncWaitMap w.handle },.notifying w,[]⟩ := by
      unfold Promise.completeLoop
      rw [hlist]
    rw [hloop,apply]
    refine ⟨[w],rest,[w.handle],?_⟩
    rw [hlog]
    constructor
    · exact hq.take
    · show Stage q.state _ _ _ _
      rw [hstate]
      exact .next hi honly
    · exact h.distinct
    · intro handle hm
      show handle ∈ H.issued (H.erase q.asyncWaitMap w.handle)
      rw [H.issued_erase,hissued]
      exact h.issued handle hm
    · intro handle
      have hbalance := h.balance handle
      show s.added.count handle = _ + _ + s.invoked.count handle + s.cancelled.count handle
      simp only [List.map_cons,List.count_cons,List.count_nil] at hbalance ⊢
      omega
    · intro x hx
      exact h.listed x (hsub hx)
    · exact h.own
    · intro handle f args hm
      exact ⟨hstate,hargs handle f args hm⟩
    · exact fun _ _ _ _ => hstate

section

variable (h : Tracks s front rest claimed)

include h

theorem Tracks.complete (hstate : s.promise.state = .initial) (hi : s.calls[i]? = some pc)
    (result : Option V) (errorPtr : Option E) :
    ∃ front' rest' claimed',
      Tracks (s.apply i (s.promise.complete result errorPtr)) front' rest' claimed' := by
  have hstage := h.stage
  rw [hstate] at hstage
  obtain ⟨rfl,rfl,honly⟩ := hstage.of_initial
  have hnone : ∀ handle f args, .invoked handle f args ∉ s.log := by
    intro handle f args hm
    have hcompleted := (h.args handle f args hm).1
    rw [hstate] at hcompleted
    cases hcompleted
  let q : Promise V E F H := { s.promise with result, errorPtr, state := .completed }
  have hq : ∀ syncWaitList : List SyncWait, Waits { q with syncWaitList } [] rest := fun _ =>
    h.waits.of_sublist h.waits.list (List.Sublist.refl _) h.waits.entries rfl rfl
  have hloop : ∀ syncWaitList : List SyncWait, ∃ front' rest' claimed',
      Tracks (s.apply i (Promise.completeLoop { q with syncWaitList })) front' rest' claimed' :=
    fun syncWaitList => h.loop hi (honly.weaken i) (hq syncWaitList) rfl rfl (fun _ hw => hw)
      fun handle f args hm => absurd hm (hnone handle f args)
  unfold Promise.complete
  rw [if_neg (by rw [hstate]; nofun)]
  dsimp only
  split
  · rename_i hempty
    have heq : Promise.completeLoop q = ⟨q,.returned .void,[]⟩ := by
      unfold Promise.completeLoop
      rw [show q.asyncWaitList = [] from hempty.2.2]
    rw [← heq]
    exact hloop s.promise.syncWaitList
  · exact hloop _

theorem Tracks.resume (hi : s.calls[i]? = some (.notified w)) :
    ∃ front' rest' claimed',
      Tracks (s.apply i (s.promise.eraseWait w.address).completeLoop) front' rest' claimed' := by
  obtain ⟨hstate,rfl,rfl,honly⟩ := h.stage.of_notified hi
  exact h.loop hi honly h.waits.drop hstate rfl (fun _ hw => (List.mem_filter.mp hw).1)
    fun handle f args hm => (h.args handle f args hm).2

theorem Tracks.throws (hi : s.calls[i]? = some (.notified w))
    (hlast : H.entries s.promise.asyncWaitMap = []) :
    Tracks { s with calls := s.calls.set i .threw } front [] [] := by
  obtain ⟨hstate,rfl,rfl,honly⟩ := h.stage.of_notified hi
  have hrest : rest = [] := by
    have hentries := h.waits.entries
    rw [hlast] at hentries
    exact List.map_eq_nil_iff.mp hentries.symm
  subst hrest
  constructor
  · exact h.waits
  · show Stage s.promise.state _ _ _ _
    rw [hstate]
    exact .drained (honly.set (fun _ => rfl) fun _ hj _ heq => hj (Option.some.inj heq).symm)
  · exact h.distinct
  · exact h.issued
  · exact h.balance
  · exact h.listed
  · exact h.own
  · exact h.args
  · exact serving_set h rfl nofun

/-- A step of call `i` keeps every handle accounted for. -/
theorem Tracks.advance (hi : s.calls[i]? = some pc) {o : PromiseOutcome V E F H}
    (ho : s.promise.advance i pc = some o) :
    ∃ front' rest' claimed', Tracks (s.apply i o) front' rest' claimed' := by
  cases pc with
  | entered request =>
    cases request with
    | wait kind f =>
      cases ho
      unfold Promise.wait
      split
      · rename_i hstate
        have hinitial : s.promise.state = .initial := by
          cases hs : s.promise.state with
          | initial => rfl
          | completed => exact absurd hs hstate
        obtain ⟨rest',h'⟩ := h.add (i := i) hinitial kind f
        exact ⟨front,rest',claimed,h'⟩
      · rename_i hstate
        exact ⟨front,rest,claimed,h.quiet hi rfl rfl (fun _ _ _ => not_not.mp hstate)
          rfl rfl rfl rfl rfl rfl (by nofun)⟩
    | cancelWait handle =>
      cases ho
      cases hfind : H.find s.promise.asyncWaitMap handle with
      | none =>
        unfold Promise.cancelWait
        rw [hfind]
        exact ⟨front,rest,claimed,
          h.quiet hi rfl (by rfl) (by nofun) rfl rfl rfl rfl rfl rfl (by nofun)⟩
      | some address =>
        obtain ⟨rest',h'⟩ := h.cancel hfind hi rfl
        exact ⟨front,rest',claimed,h'⟩
    | complete result errorPtr =>
      cases ho
      cases hstate : s.promise.state with
      | initial => exact h.complete hstate hi result errorPtr
      | completed =>
        unfold Promise.complete
        rw [if_pos hstate]
        exact ⟨front,rest,claimed,
          h.quiet hi rfl (by rfl) (by nofun) rfl rfl rfl rfl rfl rfl (by nofun)⟩
    | blockingWait =>
      cases ho
      have hloop : s.promise.blockingResult.inLoop = false := by
        unfold Promise.blockingResult
        split <;> rfl
      have hserve : ∀ kind f, s.promise.blockingResult ≠ .serving kind f := by
        intro kind f
        unfold Promise.blockingResult
        split <;> nofun
      unfold Promise.blockingWait
      split
      · let q : Promise V E F H := { s.promise with
          syncWaitList := s.promise.syncWaitList ++ [⟨i,false⟩] }
        exact ⟨front,rest,claimed,h.quiet (q := q) hi rfl (by rfl) (by nofun)
          rfl rfl rfl rfl rfl rfl (by nofun)⟩
      · exact ⟨front,rest,claimed,h.quiet hi rfl hloop
          (fun kind f heq => absurd heq (hserve kind f)) rfl rfl rfl rfl rfl rfl (by nofun)⟩
  | serving kind f =>
    cases ho
    refine ⟨front,rest,claimed,h.quiet hi rfl (by rfl) (by nofun) rfl rfl rfl rfl rfl rfl ?_⟩
    intro e he
    exact ⟨i,f,_,List.mem_singleton.mp he⟩
  | served =>
    cases ho
    exact ⟨front,rest,claimed,
      h.quiet hi rfl (by rfl) (by nofun) rfl rfl rfl rfl rfl rfl (by nofun)⟩
  | notifying w =>
    cases ho
    exact ⟨front,rest,[],h.notify hi⟩
  | notified w =>
    cases ho
    exact h.resume hi
  | blocked =>
    have hloop : s.promise.blockingResult.inLoop = false := by
      unfold Promise.blockingResult
      split <;> rfl
    have hserve : ∀ kind f, s.promise.blockingResult ≠ .serving kind f := by
      intro kind f
      unfold Promise.blockingResult
      split <;> nofun
    obtain ⟨_,hq⟩ := Option.ite_none_right_eq_some.mp ho
    cases hq
    let q : Promise V E F H := { s.promise with
      syncWaitList := s.promise.syncWaitList.erase ⟨i,true⟩ }
    exact ⟨front,rest,claimed,h.quiet (q := q) hi rfl hloop
      (fun kind f heq => absurd heq (hserve kind f)) rfl rfl rfl rfl rfl rfl (by nofun)⟩
  | returned value => cases ho
  | threw => cases ho

theorem Tracks.step {a : PromiseAction V E F} (hlast : ThrowsLast s a) (hs : s.step a = some s') :
    ∃ front' rest' claimed', Tracks s' front' rest' claimed' := by
  cases a with
  | call request =>
    cases hs
    refine ⟨front,rest,claimed,?_⟩
    constructor
    · exact h.waits
    · exact h.stage.enter request
    · exact h.distinct
    · exact h.issued
    · exact h.balance
    · exact h.listed
    · exact h.own
    · exact h.args
    · intro j kind f hj
      rw [List.getElem?_append] at hj
      split at hj
      · exact h.serving j kind f hj
      · cases List.mem_singleton.mp (List.mem_of_getElem? hj)
  | advance i =>
    unfold PromiseSystem.step at hs
    dsimp only at hs
    split at hs
    · cases hs
    · rename_i pc hi
      obtain ⟨o,ho,rfl⟩ := Option.map_eq_some_iff.mp hs
      exact h.advance hi ho
  | handlerThrows i =>
    unfold PromiseSystem.step at hs
    dsimp only at hs
    split at hs
    · rename_i hi
      cases hs
      have hquiet : Tracks (s.apply i ⟨s.promise,.threw,[]⟩) front rest claimed :=
        h.quiet hi rfl (by rfl) (by nofun) rfl rfl rfl rfl rfl rfl (by nofun)
      rw [apply] at hquiet
      refine ⟨front,rest,claimed,?_⟩
      simpa using hquiet
    · rename_i w hi
      cases hs
      exact ⟨front,[],[],h.throws hi (hlast i w rfl hi)⟩
    · cases hs

theorem Tracks.delivers : s.Delivers := by
  constructor
  · exact h.distinct
  · intro handle
    have hbalance := h.balance handle
    omega
  · intro hsettled handle
    have hbalance := h.balance handle
    obtain ⟨rfl,rfl⟩ := h.stage.settled hsettled.1 hsettled.2
    rw [List.map_nil,List.count_nil] at hbalance
    omega
  · exact h.own

theorem Tracks.registered_iff (handle : Handle) :
    s.Registered handle ↔ handle ∈ rest.map AsyncWait.handle := by
  have hbalance := h.balance handle
  have hdistinct := List.nodup_iff_count_le_one.mp h.distinct handle
  constructor
  · intro hreg
    have hadded := List.count_pos_iff.mpr hreg.added
    have hinvoked := List.count_eq_zero.mpr hreg.notInvoked
    have hcancelled := List.count_eq_zero.mpr hreg.notCancelled
    have hclaimed : claimed.count handle = 0 := by
      apply List.count_eq_zero.mpr
      intro hm
      obtain ⟨i,w,hi,hw⟩ := (h.stage.claimed_iff handle).mp hm
      exact hreg.notTaken i w hi hw
    exact List.count_pos_iff.mp (by omega)
  · intro hm
    have hrest := List.count_pos_iff.mpr hm
    constructor
    · exact List.count_pos_iff.mp (by omega)
    · exact List.count_eq_zero.mp (by omega)
    · exact List.count_eq_zero.mp (by omega)
    · intro i w hi hw
      have hclaimed := List.count_pos_iff.mpr ((h.stage.claimed_iff handle).mpr ⟨i,w,hi,hw⟩)
      omega

end

theorem step_advance (hi : s.calls[i]? = some pc) :
    s.step (.advance i) = (s.promise.advance i pc).map (s.apply i) := by
  unfold PromiseSystem.step
  dsimp only
  rw [hi]

theorem apply_get (hi : s.calls[i]? = some pc) (o : PromiseOutcome V E F H) :
    (s.apply i o).calls[i]? = some o.pc :=
  List.getElem?_set_self (List.getElem?_eq_some_iff.mp hi).1

theorem Tracks.cancels (h : Tracks s front rest claimed) : s.Cancels := by
  constructor
  intro i handle hi
  cases hfind : H.find s.promise.asyncWaitMap handle with
  | none =>
    have ho : s.promise.cancelWait handle = ⟨s.promise,.returned (.bool false),[]⟩ := by
      rw [Promise.cancelWait,hfind]
    have hnot := h.waits.find_none hfind
    refine ⟨false,s.apply i (s.promise.cancelWait handle),step_advance hi,?_,?_,?_⟩
    · rw [apply_get hi,ho]
    · rw [h.registered_iff]
      exact iff_of_false (by rintro ⟨⟩) hnot
    · rw [ho]
      exact cancelled_append s _ _ _
  | some address =>
    obtain ⟨r₁,w,r₂,rfl,rfl,rfl⟩ := h.waits.find_some hfind
    have ho : s.promise.cancelWait w.handle =
        ⟨{ s.promise.eraseWait w.address with
            asyncWaitMap := H.erase s.promise.asyncWaitMap w.handle },
          .returned (.bool true),[.cancelled w.handle]⟩ := by
      rw [Promise.cancelWait,hfind]
    refine ⟨true,s.apply i (s.promise.cancelWait w.handle),step_advance hi,?_,?_,?_⟩
    · rw [apply_get hi,ho]
    · rw [h.registered_iff]
      exact iff_of_true rfl (by simp)
    · rw [ho]
      exact cancelled_append s _ _ _

theorem advance_keeps {p : Promise V E F H} (hp : p.state = .completed)
    {o : PromiseOutcome V E F H} (ho : p.advance i pc = some o) :
    o.promise.state = .completed ∧ o.promise.result = p.result ∧
      o.promise.errorPtr = p.errorPtr := by
  have hloop : ∀ q : Promise V E F H, q.completeLoop.promise.state = q.state ∧
      q.completeLoop.promise.result = q.result ∧
      q.completeLoop.promise.errorPtr = q.errorPtr := by
    intro q
    unfold Promise.completeLoop
    split <;> exact ⟨rfl,rfl,rfl⟩
  cases pc with
  | entered request =>
    cases request with
    | wait kind f =>
      cases ho
      rw [Promise.wait,if_neg (not_not.mpr hp)]
      exact ⟨hp,rfl,rfl⟩
    | cancelWait handle =>
      cases ho
      unfold Promise.cancelWait
      split <;> exact ⟨hp,rfl,rfl⟩
    | complete result errorPtr =>
      cases ho
      rw [Promise.complete,if_pos hp]
      exact ⟨hp,rfl,rfl⟩
    | blockingWait =>
      cases ho
      rw [Promise.blockingWait,if_neg (not_not.mpr hp)]
      exact ⟨hp,rfl,rfl⟩
  | serving | served | notifying =>
    cases ho
    exact ⟨hp,rfl,rfl⟩
  | notified w =>
    cases ho
    obtain ⟨hstate,hresult,herror⟩ := hloop (p.eraseWait w.address)
    exact ⟨hstate.trans hp,hresult,herror⟩
  | blocked =>
    obtain ⟨_,hq⟩ := Option.ite_none_right_eq_some.mp ho
    cases hq
    exact ⟨hp,rfl,rfl⟩
  | returned | threw => cases ho

section

variable (h : Tracks s front rest claimed)

include h

theorem Tracks.completes : s.Completes := by
  constructor
  · intro hstate i result errorPtr hi
    rw [step_advance hi]
    show some (s.apply i (s.promise.complete result errorPtr)) = _
    rw [Promise.complete,if_pos hstate,apply,List.append_nil]
  · intro hstate a s' hs
    cases a with
    | call request =>
      cases hs
      exact ⟨hstate,rfl,rfl⟩
    | advance i =>
      cases hi : s.calls[i]? with
      | none =>
        rw [PromiseSystem.step,hi] at hs
        cases hs
      | some pc =>
        rw [step_advance hi] at hs
        obtain ⟨o,ho,rfl⟩ := Option.map_eq_some_iff.mp hs
        exact advance_keeps hstate ho
    | handlerThrows i =>
      unfold PromiseSystem.step at hs
      dsimp only at hs
      split at hs <;> cases hs <;> exact ⟨hstate,rfl,rfl⟩
  · exact h.args

theorem Tracks.serves : s.Serves := by
  constructor
  · intro hstate i kind f hi
    rw [step_advance hi]
    show some (s.apply i (s.promise.wait kind f)) = _
    rw [Promise.wait,if_neg (not_not.mpr hstate),apply,List.append_nil]
  · intro i kind f hi
    rw [step_advance hi]
    exact ⟨h.serving i kind f hi,rfl⟩
  · intro hstate i hi
    rw [step_advance hi]
    show some (s.apply i (s.promise.blockingWait i)) = _
    rw [Promise.blockingWait,if_neg (not_not.mpr hstate),apply,List.append_nil]

theorem Tracks.correct : s.Correct :=
  ⟨h.delivers,h.cancels,h.completes,h.serves⟩

theorem Tracks.strands {a : PromiseAction V E F} (hlast : ¬ ThrowsLast s a)
    (hs : s.step a = some s') : ¬ s'.Correct := by
  have hthrows : ∃ i w, a = .handlerThrows i ∧ s.calls[i]? = some (.notified w) ∧
      H.entries s.promise.asyncWaitMap ≠ [] := by
    by_contra hnot
    exact hlast fun i w ha hi => by_contra fun hne => hnot ⟨i,w,ha,hi,hne⟩
  obtain ⟨i,w,rfl,hi,hne⟩ := hthrows
  obtain ⟨hstate,rfl,rfl,honly⟩ := h.stage.of_notified hi
  unfold PromiseSystem.step at hs
  dsimp only at hs
  rw [hi] at hs
  cases hs
  intro hcorrect
  have hsettled : Settled { s with calls := s.calls.set i .threw } :=
    ⟨hstate,fun j pc hj => (honly.set (fun _ => rfl)
      fun _ hj _ heq => hj (Option.some.inj heq).symm : OnlyInLoop _ none) j pc nofun hj⟩
  cases rest with
  | nil => exact hne h.waits.entries
  | cons x rest =>
    have hexact : s.invoked.count x.handle + s.cancelled.count x.handle =
      s.added.count x.handle := hcorrect.delivers.exactlyOnce hsettled x.handle
    have hbalance := h.balance x.handle
    rw [List.map_cons,List.count_cons_self] at hbalance
    omega

end

end Steps

/-- Every run is correct up to its first handler that throws past other registered ones. -/
theorem correct_iff_throwsLast (as : List (PromiseAction V E F)) :
    Run.Always step Correct (initial : PromiseSystem V E F H) as ↔
      Run.Along step ThrowsLast (initial : PromiseSystem V E F H) as := by
  apply Run.always_iff_along (I := fun s => ∃ front rest claimed, Tracks s front rest claimed)
  · rintro s ⟨front,rest,claimed,h⟩
    exact h.correct
  · rintro s a s' ⟨front,rest,claimed,h⟩ hlast hs
    exact h.step hlast hs
  · rintro s a s' ⟨front,rest,claimed,h⟩ hlast hs
    exact h.strands hlast hs
  · exact ⟨[],[],[],tracks_initial⟩

def strandingRun : List (PromiseAction ℕ ℕ ℕ) :=
  [.call (.wait .noArgs 1),.call (.wait .noArgs 2),.call (.complete (some 7) none),
    .advance 0,.advance 1,.advance 2,.advance 2,.handlerThrows 2]

theorem throwingHandler_strands :
    ¬ Run.Always step Correct (initial : PromiseSystem ℕ ℕ ℕ (HandleTable.counting ℕ))
      strandingRun := by
  have hrun : ∃ s : PromiseSystem ℕ ℕ ℕ (HandleTable.counting ℕ),
      Run.exec step initial strandingRun = some s ∧ s.promise.state = .completed ∧
        s.calls = [.returned (.handle 1),.returned (.handle 2),.threw] ∧
        s.invoked = [1] ∧ s.cancelled = [] ∧ s.added = [1,2] := ⟨_,rfl,rfl,rfl,rfl,rfl,rfl⟩
  obtain ⟨s,hexec,hstate,hcalls,hinvoked,hcancelled,hadded⟩ := hrun
  intro h
  have hsettled : s.Settled := by
    constructor
    · exact hstate
    · intro i pc hi
      rw [hcalls] at hi
      have hm := List.mem_of_getElem? hi
      simp only [List.mem_cons,List.not_mem_nil,or_false] at hm
      rcases hm with rfl | rfl | rfl <;> rfl
  have hexact := (h.last hexec).delivers.exactlyOnce hsettled 2
  rw [hinvoked,hcancelled,hadded] at hexact
  exact absurd hexact (by decide)

end PromiseSystem
end Jancy.Rtl
