import Jancy.Rtl.Multicast

/-! What a multicast promises of every operation, and exactly which runs keep the promise. -/
namespace Jancy.Rtl

theorem take_set_last {T : Type} {l : List T} {i : ℕ} (hi : i < l.length) (p : T) :
    (l.set i p).take (i + 1) = l.take i ++ [p] := by
  rw [List.take_add_one,List.take_set_of_le (Nat.le_refl i),List.getElem?_set_self hi]
  rfl

theorem memmove_take {T : Type} (a b rest : List T) (p : T) :
    (memmove (a ++ p :: (b ++ rest)) a.length (a.length + 1) b.length).take
      (a.length + b.length) = a ++ b := by
  have hdrop : (a ++ p :: (b ++ rest)).drop (a.length + 1) = b ++ rest := by simp
  have hlen : (a ++ b).length = a.length + b.length := List.length_append
  simp only [memmove,List.take_left,hdrop]
  rw [← hlen,List.take_left]

theorem zipIdx_split {l₁ l₂ : List Handle} (h : Handle) :
    (l₁ ++ h :: l₂).zipIdx = l₁.zipIdx ++ (h,l₁.length) :: l₂.zipIdx (l₁.length + 1) := by
  rw [List.zipIdx_append,List.zipIdx_cons]
  simp

theorem zipIdx_pred (l : List Handle) (k : ℕ) :
    (l.zipIdx (k + 1)).map (fun e => (e.1,e.2 - 1)) = l.zipIdx k := by
  rw [List.zipIdx_succ,List.map_map]
  simp [Function.comp_def]

theorem zipIdx_keys (l : List Handle) (k : ℕ) : (l.zipIdx k).map Prod.fst = l :=
  List.zipIdx_map_fst k l

theorem renumber {l₁ l₂ : List Handle} {h : Handle} (h₁ : h ∉ l₁) (h₂ : h ∉ l₂) :
    HandleTable.eraseHandle h (HandleTable.mapAfter h (· - 1) (l₁ ++ h :: l₂).zipIdx) =
      (l₁ ++ l₂).zipIdx := by
  have hk₁ : h ∉ l₁.zipIdx.map Prod.fst := by rwa [zipIdx_keys]
  have hk₂ : h ∉ (l₂.zipIdx l₁.length).map Prod.fst := by rwa [zipIdx_keys]
  rw [zipIdx_split,HandleTable.mapAfter_of_split _ hk₁,zipIdx_pred,
    HandleTable.eraseHandle_of_split hk₁ hk₂,List.zipIdx_append]
  simp

section

variable {T : Type} {H : HandleTable ℕ}

/-- Array, count and handle table agree with what the callers have registered. -/
structure Tracks (m : Multicast T H) (registered : List (Handle × T)) (returned : List Handle) :
    Prop where
  nodup : (registered.map Prod.fst).Nodup
  count : m.count = registered.length
  items : m.items = registered.map Prod.snd
  table : m.table = (registered.map Prod.fst).zipIdx
  known : ∀ h ∈ registered.map Prod.fst, h ∈ returned
  issued : ∀ h ∈ returned, h ∈ H.issued m.getHandleTable

/-- The indices in the handle table are distinct and below `m_count`. -/
def IndicesOk (m : Multicast T H) : Prop :=
  (∀ e ∈ m.table, e.2 < m.count) ∧ (m.table.map Prod.snd).Nodup

theorem initial_tracks : Tracks (Multicast.initial : Multicast T H) [] [] where
  nodup := List.nodup_nil
  count := rfl
  items := rfl
  table := H.entries_new
  known _ hh := absurd hh List.not_mem_nil
  issued _ hh := absurd hh List.not_mem_nil

variable {r : List (Handle × T)} {m : Multicast T H} {ret : List Handle}

theorem Tracks.count_le (h : Tracks m r ret) :
    m.count ≤ m.ptr.length := by
  have hlen := congrArg List.length h.items
  rw [Multicast.items,List.length_take,List.length_map,← h.count] at hlen
  omega

theorem Tracks.indicesOk (h : Tracks m r ret) :
    IndicesOk m := by
  unfold IndicesOk
  rw [h.table,h.count]
  constructor
  · intro e he
    have := List.snd_lt_of_mem_zipIdx he
    simpa using this
  · rw [List.zipIdx_map_snd]
    exact List.nodup_range'

theorem Tracks.clear (h : Tracks m r ret) :
    Tracks m.clear [] ret where
  nodup := List.nodup_nil
  count := rfl
  items := by simp [Multicast.items,Multicast.clear]
  table := by
    unfold Multicast.table Multicast.getHandleTable Multicast.clear
    cases m.handleTable with
    | none => exact H.entries_new
    | some t => exact H.entries_clear t
  known _ hh := absurd hh List.not_mem_nil
  issued x hx := by
    have := h.issued x hx
    unfold Multicast.getHandleTable Multicast.clear at *
    cases ht : m.handleTable with
    | none => simpa [ht] using this
    | some t => simpa [ht,H.issued_clear] using this

variable [HandlerPtr T]

/-- A handler of a weak multicast dies with what its closure refers to; one without a closure
refers to nothing that could die. -/
def isLive (kind : FunctionPtrKind) (dead : List ℕ) (p : T) : Bool :=
  decide (kind ≠ .weak ∨ HandlerPtr.closure p = .null ∨
    strengthenClassPtr dead (HandlerPtr.closure p) ≠ .null)

/-- Removing a registered handle takes its handler out of the array and nothing else; removing a
stale one does nothing. -/
def RemovesExactly (s s' : MulticastSystem T H) (h : Handle) (out : Output T) : Prop :=
  (∀ l₁ p l₂, s.registered = l₁ ++ (h,p) :: l₂ → out = .removed p ∧
    s.multicast.items = l₁.map Prod.snd ++ p :: l₂.map Prod.snd ∧
    s'.multicast.items = l₁.map Prod.snd ++ l₂.map Prod.snd) ∧
  ((∀ p, (h,p) ∉ s.registered) → out = .removed HandlerPtr.zero ∧ s'.multicast = s.multicast)

/-- What the operation `a` has to do in the state `s`. A handle is returned once at most, so that
one which is not registered any more stays stale. -/
def StepCorrect (getAllocSize : ℕ → ℕ) (kind : FunctionPtrKind) (s : MulticastSystem T H)
    (a : MulticastAction T) : Prop :=
  let out := (s.perform getAllocSize kind a).1
  let s' := s.next getAllocSize kind a
  IndicesOk s'.multicast ∧
    match a with
    | .setHandler p | .addHandler p =>
        HandlerPtr.code p ≠ 0 → ∃ h, out = .handle h ∧ h ∉ s.returned
    | .removeHandler h => RemovesExactly s s' h out
    | .getSnapshot | .call =>
        out = .snapshot ((s.registered.map Prod.snd).filter (isLive kind s.dead))
    | _ => True

def SnapshotsWhole (kind : FunctionPtrKind) (s : MulticastSystem T H) (a : MulticastAction T) :
    Prop :=
  match a with
  | .getSnapshot | .call => kind = .weak →
      ∀ p ∈ s.multicast.items, strengthenClassPtr s.dead (HandlerPtr.closure p) ≠ .null
  | _ => True

instance (kind : FunctionPtrKind) (s : MulticastSystem T H) (a : MulticastAction T) :
    Decidable (SnapshotsWhole kind s a) := by
  unfold SnapshotsWhole
  cases a <;> infer_instance

theorem setCount_count (getAllocSize : ℕ → ℕ) (m : Multicast T H) (n : ℕ) :
    (m.setCount getAllocSize n).count = n := by
  unfold Multicast.setCount
  split <;> rfl

theorem setCount_handleTable (getAllocSize : ℕ → ℕ) (m : Multicast T H) (n : ℕ) :
    (m.setCount getAllocSize n).getHandleTable = m.getHandleTable := by
  unfold Multicast.setCount
  split <;> rfl

variable {getAllocSize : ℕ → ℕ}

theorem setCount_room (hAlloc : ∀ n, n ≤ getAllocSize n) (m : Multicast T H) (n : ℕ) :
    n ≤ (m.setCount getAllocSize n).ptr.length := by
  unfold Multicast.setCount
  split
  case isTrue hn => exact hn
  case isFalse hn =>
    have := hAlloc n
    simp
    omega

theorem setCount_take (hm : m.count ≤ m.ptr.length) (n : ℕ) :
    (m.setCount getAllocSize n).ptr.take m.count = m.items := by
  unfold Multicast.setCount
  split
  · rfl
  · have hlen : (m.ptr.take m.count).length = m.count := List.length_take_of_le hm
    rw [List.take_append_of_le_length (Nat.le_of_eq hlen.symm),List.take_take,Nat.min_self]
    rfl

theorem Tracks.addHandlerImpl (hAlloc : ∀ n, n ≤ getAllocSize n) (h : Tracks m r ret) (p : T) :
    Tracks (m.addHandlerImpl getAllocSize p).2
      (r ++ [((m.addHandlerImpl getAllocSize p).1,p)])
      ((m.addHandlerImpl getAllocSize p).1 :: ret) := by
  let t := m.getHandleTable
  let m₁ := m.setCount getAllocSize (m.count + 1)
  have ht : m₁.getHandleTable = t := setCount_handleTable _ m _
  have hroom : m.count < m₁.ptr.length := setCount_room hAlloc m (m.count + 1)
  have hhandle : (m.addHandlerImpl getAllocSize p).1 = (H.add t m.count).1 :=
    congrArg (fun t => (H.add t m.count).1) ht
  have hfresh : (H.add t m.count).1 ∉ r.map Prod.fst := fun hm =>
    H.add_fresh t m.count (h.issued _ (h.known _ hm))
  have htable : H.entries t = (r.map Prod.fst).zipIdx := h.table
  rw [hhandle]
  refine ⟨?_,?_,?_,?_,fun x hx => ?_,?_⟩
  · rw [List.map_append]
    exact List.nodup_append.mpr ⟨h.nodup,List.nodup_singleton _,fun a ha b hb => by
      rintro rfl
      exact hfresh (List.mem_singleton.mp hb ▸ ha)⟩
  · simp [Multicast.addHandlerImpl,setCount_count,h.count]
  · have hitems : (m.addHandlerImpl getAllocSize p).2.items = m₁.ptr.take m.count ++ [p] := by
      unfold Multicast.items Multicast.addHandlerImpl
      simp only [setCount_count]
      exact take_set_last hroom p
    rw [hitems,setCount_take h.count_le,h.items,List.map_append]
    rfl
  · have hentries : (m.addHandlerImpl getAllocSize p).2.table =
        H.entries (H.add t m.count).2 := congrArg (fun t => H.entries (H.add t m.count).2) ht
    rw [hentries,H.entries_add,htable,List.map_append,List.zipIdx_append,h.count]
    simp
  · rw [List.map_append,List.mem_append] at hx
    rcases hx with hx | hx
    · exact List.mem_cons_of_mem _ (h.known x hx)
    · exact List.mem_cons.mpr (.inl (List.mem_singleton.mp hx))
  · have hissued : H.issued (m.addHandlerImpl getAllocSize p).2.getHandleTable =
        H.issued (H.add t m.count).2 := congrArg (fun t => H.issued (H.add t m.count).2) ht
    intro x hx
    rw [hissued,H.issued_add]
    rcases List.mem_cons.mp hx with rfl | hx
    · exact List.mem_cons_self
    · exact List.mem_cons_of_mem _ (h.issued x hx)

theorem Tracks.setHandlerImpl (hAlloc : ∀ n, n ≤ getAllocSize n) (h : Tracks m r ret) (p : T) :
    Tracks (m.setHandlerImpl getAllocSize p).2 [((m.setHandlerImpl getAllocSize p).1,p)]
      ((m.setHandlerImpl getAllocSize p).1 :: ret) := by
  let m₁ := m.setCount getAllocSize 1
  have hroom : 0 < m₁.ptr.length := setCount_room hAlloc m 1
  have hissued : H.issued (m.setHandlerImpl getAllocSize p).2.getHandleTable =
      (m.setHandlerImpl getAllocSize p).1 :: H.issued m.getHandleTable := by
    have ht := setCount_handleTable getAllocSize m 1
    change H.issued (H.add (H.clear m₁.getHandleTable) 0).2 =
      (H.add (H.clear m₁.getHandleTable) 0).1 :: _
    rw [H.issued_add,H.issued_clear,ht]
  refine ⟨List.nodup_singleton _,setCount_count _ m 1,?_,?_,fun x hx => ?_,fun x hx => ?_⟩
  · unfold Multicast.items Multicast.setHandlerImpl
    simp only [setCount_count]
    exact take_set_last hroom p
  · unfold Multicast.table Multicast.setHandlerImpl
    simp [Multicast.getHandleTable,H.entries_add,H.entries_clear]
  · exact List.mem_cons.mpr (.inl (List.mem_singleton.mp hx))
  · rw [hissued]
    rcases List.mem_cons.mp hx with rfl | hx
    · exact List.mem_cons_self
    · exact List.mem_cons_of_mem _ (h.issued x hx)

theorem removeHandlerImpl_stale (h : Tracks m r ret) {handle : Handle}
    (hstale : handle ∉ r.map Prod.fst) :
    m.removeHandlerImpl handle = (HandlerPtr.zero,m) := by
  have hfind : ∀ t, m.handleTable = some t → H.find t handle = none := by
    intro t ht
    have hentries : H.entries t = (r.map Prod.fst).zipIdx := by
      have := h.table
      simpa [Multicast.table,Multicast.getHandleTable,ht] using this
    rw [H.find_eq,hentries]
    exact HandleTable.lookup_none (by rwa [zipIdx_keys])
  unfold Multicast.removeHandlerImpl
  split
  · rfl
  case h_2 t ht => rw [hfind t ht]

theorem removeHandlerImpl_registered {l₁ l₂ : List (Handle × T)} {handle : Handle} {p : T}
    (h : Tracks m (l₁ ++ (handle,p) :: l₂) ret) :
    (m.removeHandlerImpl handle).1 = p ∧
      Tracks (m.removeHandlerImpl handle).2 (l₁ ++ l₂) ret := by
  obtain ⟨h₁,h₂,hnd⟩ := HandleTable.nodup_of_split h.nodup
  have htable := h.table
  rw [List.map_append,List.map_cons] at htable
  obtain ⟨t,ht⟩ : ∃ t, m.handleTable = some t := by
    cases ht : m.handleTable with
    | some t => exact ⟨t,rfl⟩
    | none =>
      simp [Multicast.table,Multicast.getHandleTable,ht,H.entries_new] at htable
  have hentries : H.entries t = (l₁.map Prod.fst ++ handle :: l₂.map Prod.fst).zipIdx := by
    simpa [Multicast.table,Multicast.getHandleTable,ht] using htable
  have hfind : H.find t handle = some l₁.length := by
    rw [H.find_eq,hentries,zipIdx_split,HandleTable.lookup_of_split (by rwa [zipIdx_keys]),
      List.length_map]
  have hcount : m.count = l₁.length + 1 + l₂.length := by
    rw [h.count,List.length_append,List.length_cons]
    omega
  -- the array from the front: the handlers before, the handler itself, those after, the rest
  have hptr : m.ptr = l₁.map Prod.snd ++ p :: (l₂.map Prod.snd ++ m.ptr.drop m.count) := by
    have hitems := h.items
    rw [List.map_append,List.map_cons] at hitems
    calc m.ptr = m.items ++ m.ptr.drop m.count := (List.take_append_drop _ _).symm
      _ = _ := by rw [hitems,List.append_assoc,List.cons_append]
  have hmove : (memmove m.ptr l₁.length (l₁.length + 1) l₂.length).take
      (l₁.length + l₂.length) = l₁.map Prod.snd ++ l₂.map Prod.snd := by
    have := memmove_take (l₁.map Prod.snd) (l₂.map Prod.snd) (m.ptr.drop m.count) p
    simpa only [List.length_map,← hptr] using this
  have hremove : m.removeHandlerImpl handle =
      (m.ptr.getD l₁.length HandlerPtr.zero,
        { ptr := (memmove m.ptr l₁.length (l₁.length + 1) (m.count - l₁.length - 1)).set
            (m.count - 1) HandlerPtr.zero
          count := m.count - 1
          handleTable := some (H.erase (H.mapFollowing t handle (· - 1)) handle) }) := by
    unfold Multicast.removeHandlerImpl
    simp only [ht,hfind]
  have hrest : m.count - l₁.length - 1 = l₂.length := by omega
  have hlast : m.count - 1 = l₁.length + l₂.length := by omega
  rw [hremove,hrest,hlast]
  refine ⟨?_,hnd,?_,?_,?_,fun x hx => h.known x ?_,fun x hx => ?_⟩
  · rw [hptr,List.getD_eq_getElem?_getD,
      List.getElem?_append_right (Nat.le_of_eq (List.length_map _)),List.length_map,Nat.sub_self]
    rfl
  · exact List.length_append.symm
  · unfold Multicast.items
    rw [List.take_set_of_le (Nat.le_refl _),hmove,List.map_append]
  · change H.entries (H.erase (H.mapFollowing t handle (· - 1)) handle) = _
    rw [H.entries_erase,H.entries_mapFollowing,hentries,renumber h₁ h₂,List.map_append]
  · simp only [List.map_append,List.map_cons,List.mem_append,List.mem_cons] at hx ⊢
    tauto
  · change x ∈ H.issued (H.erase (H.mapFollowing t handle (· - 1)) handle)
    rw [H.issued_erase,H.issued_mapFollowing]
    have := h.issued x hx
    simpa [Multicast.getHandleTable,ht] using this

variable {kind : FunctionPtrKind}

theorem getSnapshot_whole {dead : List ℕ} (h : Tracks m r ret) (hw : kind = .weak →
      ∀ p ∈ m.items, strengthenClassPtr dead (HandlerPtr.closure p) ≠ .null) :
    m.getSnapshot kind dead = ((r.map Prod.snd).filter (isLive kind dead),m) := by
  have hall : (r.map Prod.snd).filter (isLive kind dead) = m.items := by
    rw [← h.items]
    refine List.filter_eq_self.mpr fun p hp => ?_
    by_cases hk : kind = .weak
    · simp [isLive,hw hk p hp]
    · simp [isLive,hk]
  unfold Multicast.getSnapshot
  rw [hall]
  split
  case isTrue hz => simp [Multicast.items,hz]
  case isFalse hz =>
    split
    case isTrue hk => rfl
    case isFalse hk =>
      have hkind : kind = .weak := by simpa using hk
      have halive : ((m.ptr.take m.count).filter fun p =>
          decide (strengthenClassPtr dead (HandlerPtr.closure p) ≠ .null)) = m.items :=
        List.filter_eq_self.mpr fun p hp => by simpa using hw hkind p hp
      have hlen : m.items.length = m.count := by
        rw [h.items,List.length_map,h.count]
      simp only [halive,hlen,ne_eq,not_true_eq_false,if_false]

theorem getSnapshot_compacts {dead : List ℕ} (h : Tracks m r ret) {p : T} (hp : p ∈ m.items)
    (hdead : strengthenClassPtr dead (HandlerPtr.closure p) = .null) :
    ¬ IndicesOk (m.getSnapshot .weak dead).2 := by
  let alive := (m.ptr.take m.count).filter fun p =>
    decide (strengthenClassPtr dead (HandlerPtr.closure p) ≠ .null)
  have hlen : m.items.length = m.count := by rw [h.items,List.length_map,h.count]
  have hfewer : alive.length < m.count := by
    rw [← hlen]
    exact List.length_filter_lt_length_iff_exists.mpr ⟨p,hp,by simp [hdead]⟩
  have hcount : (m.getSnapshot .weak dead).2.count = alive.length := by
    unfold Multicast.getSnapshot
    rw [if_neg (by omega),if_neg (by simp)]
    have hne : alive.length ≠ m.count := by omega
    exact congrArg (fun x : List T × Multicast T H => x.2.count) (if_pos hne)
  have htable : (m.getSnapshot .weak dead).2.table = m.table := by
    unfold Multicast.getSnapshot
    split
    · rfl
    · split
      · rfl
      · dsimp only
        split <;> rfl
  rintro ⟨hlt,-⟩
  rw [htable,h.table,hcount] at hlt
  have hpos : m.count - 1 < (r.map Prod.fst).length := by
    rw [List.length_map,← h.count]
    omega
  have hmem : ((r.map Prod.fst)[m.count - 1],m.count - 1) ∈ (r.map Prod.fst).zipIdx :=
    List.mk_mem_zipIdx_iff_getElem?.mpr (List.getElem?_eq_getElem hpos)
  have := hlt _ hmem
  dsimp only at this
  omega

/-- The invariant of a run whose snapshots are whole. -/
def SystemTracks (s : MulticastSystem T H) : Prop := Tracks s.multicast s.registered s.returned

theorem addHandlerImpl_fresh (getAllocSize : ℕ → ℕ) (h : Tracks m r ret) (p : T) :
    (m.addHandlerImpl getAllocSize p).1 ∉ ret := by
  intro hm
  have ht := setCount_handleTable getAllocSize m (m.count + 1)
  have hissued := h.issued _ hm
  rw [← ht] at hissued
  exact H.add_fresh _ _ hissued

theorem setHandlerImpl_fresh (getAllocSize : ℕ → ℕ) (h : Tracks m r ret) (p : T) :
    (m.setHandlerImpl getAllocSize p).1 ∉ ret := by
  intro hm
  have ht := setCount_handleTable getAllocSize m 1
  have hissued := h.issued _ hm
  rw [← ht,← H.issued_clear] at hissued
  exact H.add_fresh _ _ hissued

/-- A step that meets the condition does what it has to do and keeps the invariant. -/
theorem step_correct (hAlloc : ∀ n, n ≤ getAllocSize n) {s : MulticastSystem T H}
    {a : MulticastAction T} (h : SystemTracks s) (hw : SnapshotsWhole kind s a) :
    StepCorrect getAllocSize kind s a ∧ SystemTracks (s.next getAllocSize kind a) := by
  cases a with
  | setHandler p =>
    by_cases hp : HandlerPtr.code p = 0
    · have hnext : s.next getAllocSize kind (.setHandler p) =
          { s with multicast := s.multicast.clear, registered := [] } := by
        simp [MulticastSystem.next,MulticastSystem.perform,Multicast.setHandler,register,
          noteReturned,hp]
      have htracks : SystemTracks (s.next getAllocSize kind (.setHandler p)) := by
        rw [hnext]
        exact Tracks.clear h
      exact ⟨⟨htracks.indicesOk,fun hne => absurd hp hne⟩,htracks⟩
    · have hset : s.multicast.setHandler getAllocSize p =
          s.multicast.setHandlerImpl getAllocSize p := if_pos hp
      have htracks : SystemTracks (s.next getAllocSize kind (.setHandler p)) := by
        have := Tracks.setHandlerImpl hAlloc h p
        simpa [SystemTracks,MulticastSystem.next,MulticastSystem.perform,register,noteReturned,
          hp,hset] using this
      have hout : (s.perform getAllocSize kind (.setHandler p)).1 =
          .handle (s.multicast.setHandlerImpl getAllocSize p).1 :=
        congrArg (fun x : Handle × Multicast T H => Output.handle x.1) hset
      exact ⟨⟨htracks.indicesOk,fun _ => ⟨_,hout,setHandlerImpl_fresh getAllocSize h p⟩⟩,htracks⟩
  | addHandler p =>
    by_cases hp : HandlerPtr.code p = 0
    · have hnext : s.next getAllocSize kind (.addHandler p) = s := by
        simp [MulticastSystem.next,MulticastSystem.perform,Multicast.addHandler,register,
          noteReturned,hp]
      have htracks : SystemTracks (s.next getAllocSize kind (.addHandler p)) := hnext.symm ▸ h
      exact ⟨⟨htracks.indicesOk,fun hne => absurd hp hne⟩,htracks⟩
    · have hadd : s.multicast.addHandler getAllocSize p =
          s.multicast.addHandlerImpl getAllocSize p := if_pos hp
      have htracks : SystemTracks (s.next getAllocSize kind (.addHandler p)) := by
        have := Tracks.addHandlerImpl hAlloc h p
        simpa [SystemTracks,MulticastSystem.next,MulticastSystem.perform,register,noteReturned,
          hp,hadd] using this
      have hout : (s.perform getAllocSize kind (.addHandler p)).1 =
          .handle (s.multicast.addHandlerImpl getAllocSize p).1 :=
        congrArg (fun x : Handle × Multicast T H => Output.handle x.1) hadd
      exact ⟨⟨htracks.indicesOk,fun _ => ⟨_,hout,addHandlerImpl_fresh getAllocSize h p⟩⟩,htracks⟩
  | removeHandler handle =>
    by_cases hm : handle ∈ s.registered.map Prod.fst
    · obtain ⟨l₁,p,l₂,hr,h₁,h₂⟩ := HandleTable.split_of_mem h.nodup hm
      have hsplit : Tracks s.multicast (l₁ ++ (handle,p) :: l₂) s.returned := hr ▸ h
      obtain ⟨hp,hrest⟩ := removeHandlerImpl_registered hsplit
      have htracks : SystemTracks (s.next getAllocSize kind (.removeHandler handle)) := by
        simpa [SystemTracks,MulticastSystem.next,MulticastSystem.perform,register,noteReturned,
          hr,HandleTable.eraseHandle_of_split h₁ h₂] using hrest
      refine ⟨⟨htracks.indicesOk,fun k₁ q k₂ hk => ?_,fun hnot => ?_⟩,htracks⟩
      · have hsplit' : Tracks s.multicast (k₁ ++ (handle,q) :: k₂) s.returned := hk ▸ h
        obtain ⟨hq,hrest'⟩ := removeHandlerImpl_registered hsplit'
        refine ⟨congrArg Output.removed hq,?_,?_⟩
        · simpa using hsplit'.items
        · change (s.multicast.removeHandlerImpl handle).2.items = _
          simpa using hrest'.items
      · exact absurd (hr ▸ List.mem_append_right _ List.mem_cons_self) (hnot p)
    · have hstale := removeHandlerImpl_stale h hm
      have htracks : SystemTracks (s.next getAllocSize kind (.removeHandler handle)) := by
        simpa [SystemTracks,MulticastSystem.next,MulticastSystem.perform,register,noteReturned,
          hstale,HandleTable.eraseHandle_eq_self hm] using h
      refine ⟨⟨htracks.indicesOk,fun k₁ q k₂ hk => ?_,fun _ => ?_⟩,htracks⟩
      · exact absurd (by simp [hk]) hm
      · simp [MulticastSystem.next,MulticastSystem.perform,hstale]
  | clear =>
    have htracks : SystemTracks (s.next getAllocSize kind .clear) := Tracks.clear h
    exact ⟨⟨htracks.indicesOk,trivial⟩,htracks⟩
  | getSnapshot =>
    have hsnap := getSnapshot_whole h hw
    have htracks : SystemTracks (s.next getAllocSize kind .getSnapshot) := by
      simpa [SystemTracks,MulticastSystem.next,MulticastSystem.perform,register,noteReturned,
        hsnap] using h
    exact ⟨⟨htracks.indicesOk,by simp [MulticastSystem.perform,hsnap]⟩,htracks⟩
  | call =>
    have hsnap := getSnapshot_whole h hw
    have htracks : SystemTracks (s.next getAllocSize kind .call) := by
      simpa [SystemTracks,MulticastSystem.next,MulticastSystem.perform,register,noteReturned,
        hsnap] using h
    exact ⟨⟨htracks.indicesOk,by simp [MulticastSystem.perform,hsnap]⟩,htracks⟩
  | die box => exact ⟨⟨Tracks.indicesOk h,trivial⟩,h⟩

theorem step_incorrect {s : MulticastSystem T H} {a : MulticastAction T} (h : SystemTracks s)
    (hw : ¬ SnapshotsWhole kind s a) :
    ¬ StepCorrect getAllocSize kind s a := by
  rintro ⟨hok,-⟩
  cases a with
  | getSnapshot =>
    simp only [SnapshotsWhole,not_forall,not_not] at hw
    obtain ⟨rfl,p,hp,hdead⟩ := hw
    exact getSnapshot_compacts h hp hdead hok
  | call =>
    simp only [SnapshotsWhole,not_forall,not_not] at hw
    obtain ⟨rfl,p,hp,hdead⟩ := hw
    exact getSnapshot_compacts h hp hdead hok
  | setHandler p => exact hw trivial
  | addHandler p => exact hw trivial
  | removeHandler handle => exact hw trivial
  | clear => exact hw trivial
  | die box => exact hw trivial

end

end Jancy.Rtl
