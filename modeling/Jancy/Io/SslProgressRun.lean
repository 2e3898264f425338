import Jancy.Io.SocketLoopRun
import Jancy.Io.SslProgress

/-! Runs of an `SslSocket`: what is left of a pass becomes less with each call of `m_ssl`. -/
namespace Jancy.Io

variable {F α : Type} {H : HandleTable ℕ}

namespace SocketPc

/-- In one of the two loops of a pass. -/
def inLoops : SocketPc F → Bool
  | .receiving | .reading | .sending | .writing => true
  | _ => false

/-- On the way out. -/
def isLeaving : SocketPc F → Bool
  | .setting _ .exit | .notifying _ .exit | .ended => true
  | _ => false

end SocketPc

namespace SocketLoop

variable {s s' : SocketLoop F α H} {o : WaitOutcome F H} {next : LoopNext}
  {result : LoopResult α}

/-- How often the pass may still call `m_ssl`. -/
def left (s : SocketLoop F α H) : ℕ :=
  match s.thread with
  | .receiving => (if s.canReadSocket then s.room else 0) + if s.canWriteSocket then s.queued else 0
  | .reading => max 1 s.room + if s.canWriteSocket then s.queued else 0
  | .sending => if s.canWriteSocket then s.queued else 0
  | .writing => max 1 s.queued
  | _ => 0

/-- A request to close finds the thread awake, or is known to it. -/
def Heeds (s : SocketLoop F α H) : Prop :=
  s.closing = true → s.woken = true ∨ s.thread = .locking ∨ s.thread.isLeaving = true

/-- What a step of the thread does to these. -/
structure Moved (s s' : SocketLoop F α H) : Prop where
  left : s'.left ≤ s.left
  selects : s.thread.isEarly = true ∨ ∀ c, s.Selects c → s'.Selects c
  early : s'.thread.isEarly = true → s.thread.isEarly = true
  heeds : s.Heeds → s'.Heeds

theorem left_outside (h : s.thread.inLoops = false) : s.left = 0 := by
  unfold left
  split
  · next ht => rw [ht] at h; cases h
  · next ht => rw [ht] at h; cases h
  · next ht => rw [ht] at h; cases h
  · next ht => rw [ht] at h; cases h
  · rfl

theorem selects_of_flags (hr : s'.canReadSocket = true → s.canReadSocket = true)
    (hw : s'.canWriteSocket = true → s.canWriteSocket = true) (c : SocketCondition)
    (h : s.Selects c) : s'.Selects c := by
  cases c with
  | readable =>
    refine Bool.eq_false_iff.mpr fun ht => ?_
    rw [Selects,hr ht] at h
    cases h
  | writable =>
    refine Bool.eq_false_iff.mpr fun ht => ?_
    rw [Selects,hw ht] at h
    cases h

theorem Moved.outside (hloops : s'.thread.inLoops = false)
    (hr : s'.canReadSocket = true → s.canReadSocket = true)
    (hw : s'.canWriteSocket = true → s.canWriteSocket = true)
    (hearly : s'.thread.isEarly = true → s.thread.isEarly = true)
    (hheeds : s.Heeds → s'.Heeds) : Moved s s' where
  left := by rw [left_outside hloops]; exact Nat.zero_le _
  selects := Or.inr (selects_of_flags hr hw)
  early := hearly
  heeds := hheeds

theorem Moved.ofEarly (hearly : s.thread.isEarly = true) (hloops : s'.thread.inLoops = false)
    (hheeds : s.Heeds → s'.Heeds) : Moved s s' where
  left := by rw [left_outside hloops]; exact Nat.zero_le _
  selects := Or.inl hearly
  early := fun _ => hearly
  heeds := hheeds

theorem Heeds.mono (h : s.Heeds) (hnot : s.thread ≠ .locking) (hleaving : s.thread.isLeaving = false)
    (hclosing : s'.closing = s.closing) (hwoken : s.woken = true → s'.woken = true) :
    s'.Heeds := by
  intro hc
  rcases h (hclosing ▸ hc) with h | h | h
  · exact Or.inl (hwoken h)
  · exact absurd h hnot
  · rw [hleaving] at h
    cases h

theorem heeds_of_leaving (h : s.thread.isLeaving = true) : s.Heeds := fun _ => Or.inr (Or.inr h)

theorem notify_spec (s : SocketLoop F α H) (o : WaitOutcome F H) (next : LoopNext) :
    (s.notify o next).thread.inLoops = false ∧ (s.notify o next).closing = s.closing ∧
      (s.woken = true → (s.notify o next).woken = true) ∧
      (next = .exit → (s.notify o next).thread.isLeaving = true) ∧
      (next ≠ .enter → (s.notify o next).canReadSocket = s.canReadSocket ∧
        (s.notify o next).canWriteSocket = s.canWriteSocket) ∧
      (next = .loop ∨ next = .exit → (s.notify o next).thread.isEarly = false) := by
  unfold notify
  split
  · refine ⟨rfl,rfl,id,?_,fun _ => ⟨rfl,rfl⟩,?_⟩
    · rintro rfl
      rfl
    · rintro (rfl | rfl) <;> rfl
  · cases next with
    | handshake => exact ⟨rfl,rfl,id,nofun,fun _ => ⟨rfl,rfl⟩,by rintro (h | h) <;> cases h⟩
    | enter =>
      exact ⟨rfl,rfl,fun h => by simp [proceed,enterLoop,setBase,h],nofun,fun h => absurd rfl h,
        by rintro (h | h) <;> cases h⟩
    | loop => exact ⟨rfl,rfl,id,nofun,fun _ => ⟨rfl,rfl⟩,fun _ => rfl⟩
    | exit => exact ⟨rfl,rfl,id,fun _ => rfl,fun _ => ⟨rfl,rfl⟩,fun _ => rfl⟩

theorem exitWith_moved (s t : SocketLoop F α H) (events : Events)
    (hr : t.canReadSocket = true → s.canReadSocket = true)
    (hw : t.canWriteSocket = true → s.canWriteSocket = true) : Moved s (t.exitWith events) := by
  obtain ⟨hloops,-,-,hleaving,hflags,hearly⟩ := t.notify_spec (t.base.setEvents events) .exit
  obtain ⟨hread,hwrite⟩ := hflags nofun
  refine .outside hloops (fun h => hr ?_) (fun h => hw ?_) (fun h => ?_)
    fun _ => heeds_of_leaving (hleaving rfl)
  · rw [← hread]
    exact h
  · rw [← hwrite]
    exact h
  · have hfalse := hearly (Or.inr rfl)
    rw [exitWith,hfalse] at h
    cases h

theorem start_moved (hthread : s.thread = .starting) (hs : s.start = some s') : Moved s s' := by
  have hearly : s.thread.isEarly = true := by rw [hthread]; rfl
  unfold start at hs
  dsimp only at hs
  split_ifs at hs with hw hc
  · cases hs
    exact .ofEarly hearly rfl fun _ => heeds_of_leaving rfl
  · cases hs
    exact .ofEarly hearly rfl fun _ h => absurd h hc
  · cases hs
    exact .ofEarly hearly rfl fun _ h => absurd h hc
  · cases hs
    exact .ofEarly hearly rfl fun _ h => absurd h hc
  · cases hs
    exact .ofEarly hearly rfl fun _ => heeds_of_leaving rfl
  · cases hs
    exact .ofEarly hearly rfl fun _ h => absurd h hc
  · cases hs
    exact .ofEarly hearly rfl fun _ h => absurd h hc

theorem suspendLoop_moved (hthread : s.thread = .suspended) (hs : s.suspendLoop = some s') :
    Moved s s' := by
  have hearly : s.thread.isEarly = true := by rw [hthread]; rfl
  have hloops : s.thread.inLoops = false := by rw [hthread]; rfl
  unfold suspendLoop at hs
  split_ifs at hs with hc
  · cases hs
    exact .ofEarly hearly rfl fun _ => heeds_of_leaving rfl
  · cases hs
    exact .ofEarly hearly rfl fun _ h => absurd h hc
  · cases hs
    exact .ofEarly hearly hloops fun _ h => absurd h hc

theorem connectLoop_moved (hthread : s.thread = .connecting)
    (hs : s.connectLoop result = some s') : Moved s s' := by
  have hearly : s.thread.isEarly = true := by rw [hthread]; rfl
  have hloops : s.thread.inLoops = false := by rw [hthread]; rfl
  have hheeds : ∀ t : SocketLoop F α H, t.closing = s.closing → t.woken = s.woken → s.Heeds →
      t.Heeds := fun t hclosing hwoken h =>
    h.mono (by rw [hthread]; nofun) (by rw [hthread]; rfl) hclosing fun hw => hwoken.trans hw
  cases result with
  | completed =>
    cases hs
    exact .ofEarly hearly rfl (hheeds _ rfl rfl)
  | failed error =>
    cases hs
    exact .ofEarly hearly rfl (hheeds _ rfl rfl)
  | wouldBlock =>
    simp only [connectLoop] at hs
    split_ifs at hs with hw hc
    · cases hs
      exact .ofEarly hearly rfl fun _ => heeds_of_leaving rfl
    · cases hs
      exact .ofEarly hearly hloops fun _ h => absurd h hc
  | _ => cases hs

theorem sslHandshakeLoop_moved (hthread : s.thread = .handshaking)
    (hs : s.sslHandshakeLoop result = some s') : Moved s s' := by
  have hearly : s.thread.isEarly = true := by rw [hthread]; rfl
  have hloops : s.thread.inLoops = false := by rw [hthread]; rfl
  have hheeds : ∀ t : SocketLoop F α H, t.closing = s.closing → (s.woken = true → t.woken = true) →
      s.Heeds → t.Heeds := fun t hclosing hwoken h =>
    h.mono (by rw [hthread]; nofun) (by rw [hthread]; rfl) hclosing hwoken
  have hwait : (if s.closing then some { s with woken := false, thread := .ended }
      else some { s with woken := false }) = some s' → Moved s s' := by
    intro hs
    split_ifs at hs with hc
    · cases hs
      exact .ofEarly hearly rfl fun _ => heeds_of_leaving rfl
    · cases hs
      exact .ofEarly hearly hloops fun _ h => absurd h hc
  cases result with
  | completed =>
    cases hs
    obtain ⟨hloops,hclosing,hwoken,-⟩ := notify_spec
      (s.setActiveEvents (SocketEvent.tcpConnected ||| SslSocketEvent.sslHandshakeCompleted)) _ _
    exact .ofEarly hearly hloops (hheeds _ hclosing hwoken)
  | failed error =>
    cases hs
    exact .ofEarly hearly rfl (hheeds _ rfl id)
  | wantRead => exact hwait hs
  | wantWrite => exact hwait hs
  | _ => cases hs

theorem left_le (h : s.thread = .receiving) : s.left ≤ s.room + s.queued := by
  rw [left,h]
  dsimp only
  split_ifs <;> omega

theorem lock_left (s : SocketLoop F α H) : s.lock.left ≤ s.lock.room + s.lock.queued := by
  unfold lock
  split_ifs with hclosing hsuspended hacc
  · exact Nat.zero_le _
  · exact Nat.zero_le _
  · exact Nat.zero_le _
  · exact left_le rfl

theorem lock_spec (s : SocketLoop F α H) : s.lock.canReadSocket = s.canReadSocket ∧
    s.lock.canWriteSocket = s.canWriteSocket ∧ s.lock.thread.isEarly = false ∧ s.lock.Heeds ∧
      (s.closing = true → s.lock.thread = .ended) := by
  unfold lock
  split_ifs with hclosing hsuspended hacc
  · exact ⟨rfl,rfl,rfl,heeds_of_leaving rfl,fun _ => rfl⟩
  · exact ⟨rfl,rfl,rfl,fun h => absurd h hclosing,fun h => absurd h hclosing⟩
  · exact ⟨rfl,rfl,rfl,fun h => absurd h hclosing,fun h => absurd h hclosing⟩
  · exact ⟨rfl,rfl,rfl,fun h => absurd h hclosing,fun h => absurd h hclosing⟩

theorem addToReadBuffer_cases (d : AsyncIoDevice α) (p params : List α) :
    (p = [] ∧ d.addToReadBuffer p params = d) ∨
      ((d.addToReadBuffer p params).readBuffer = (d.readBuffer.write p).2 ∧
        (d.addToReadBuffer p params).writeBuffer = d.writeBuffer ∧
        (d.addToReadBuffer p params).writeOverflowBuffer = d.writeOverflowBuffer) := by
  unfold AsyncIoDevice.addToReadBuffer
  by_cases hskip : p = [] ∧ d.mode.keepReadBlockSize = false
  · rw [if_pos hskip]
    exact Or.inl ⟨hskip.1,rfl⟩
  · rw [if_neg hskip]
    exact Or.inr ⟨rfl,rfl,rfl⟩

theorem addToReadBuffer_room (s : SocketLoop F α H) (p params : List α) :
    (s.addToReadBuffer p params).room ≤ s.room - min 1 p.length := by
  show (s.device.addToReadBuffer p params).readBuffer.space ≤ s.device.readBuffer.space - _
  rcases addToReadBuffer_cases s.device p params with ⟨rfl,heq⟩ | ⟨heq,-,-⟩
  · rw [heq]
    exact le_rfl
  · rw [heq]
    simp only [CircularBuffer.space,CircularBuffer.write_data,CircularBuffer.write_bufferSize,
      List.length_append,List.length_take]
    omega

theorem addToReadBuffer_queued (s : SocketLoop F α H) (p params : List α) :
    (s.addToReadBuffer p params).queued = s.queued := by
  show _ + (s.device.addToReadBuffer p params).writeBuffer.data.length +
    (s.device.addToReadBuffer p params).writeOverflowBuffer.length = _
  rcases addToReadBuffer_cases s.device p params with ⟨-,heq⟩ | ⟨-,hbuffer,hoverflow⟩
  · rw [heq]
    rfl
  · rw [hbuffer,hoverflow]
    rfl

theorem getNextWriteBlock_length (d : AsyncIoDevice α) (block : Block α) :
    (d.getNextWriteBlock block).1.data.length +
        (d.getNextWriteBlock block).2.writeBuffer.data.length +
        (d.getNextWriteBlock block).2.writeOverflowBuffer.length ≤
      block.data.length + d.writeBuffer.data.length + d.writeOverflowBuffer.length := by
  unfold AsyncIoDevice.getNextWriteBlock
  split_ifs with hblock
  · exact le_rfl
  have hnone : block.data.length = 0 := by rw [not_not.mp hblock]; rfl
  split
  · show (d.writeBuffer.readAll.1 ++ d.writeOverflowBuffer).length +
      d.writeBuffer.readAll.2.data.length + 0 ≤ _
    rw [CircularBuffer.readAll_fst,CircularBuffer.readAll_data,List.length_append,List.length_nil]
    omega
  · next m rest hmeta =>
    dsimp only
    by_cases hshort : (d.writeBuffer.read m.dataSize).1.length < m.dataSize
    · rw [if_pos hshort]
      show (d.writeBuffer.data.take m.dataSize ++ d.writeOverflowBuffer.take _).length +
        (d.writeBuffer.data.drop m.dataSize).length + 0 ≤ _
      simp only [List.length_append,List.length_take,List.length_drop]
      omega
    · rw [if_neg hshort]
      show (d.writeBuffer.data.take m.dataSize).length +
        (d.writeBuffer.data.drop m.dataSize).length + d.writeOverflowBuffer.length ≤ _
      simp only [List.length_take,List.length_drop]
      omega

theorem takeBlock_spec (s : SocketLoop F α H) : s.takeBlock.queued ≤ s.queued ∧
    s.takeBlock.canReadSocket = s.canReadSocket ∧ s.takeBlock.canWriteSocket = s.canWriteSocket ∧
      s.takeBlock.closing = s.closing ∧ s.takeBlock.woken = s.woken := by
  unfold takeBlock
  split_ifs
  · exact ⟨getNextWriteBlock_length s.device s.block,rfl,rfl,rfl,rfl⟩
  · exact ⟨le_rfl,rfl,rfl,rfl,rfl⟩

theorem receive_moved (hthread : s.thread = .receiving) (hs : s.receive result = some s') :
    Moved s s' := by
  have hnot : s.thread ≠ .locking := by rw [hthread]; nofun
  have hleaving : s.thread.isLeaving = false := by rw [hthread]; rfl
  have hleft : s.left = (if s.canReadSocket then s.room else 0) +
      if s.canWriteSocket then s.queued else 0 := by rw [left,hthread]
  have hadd : ∀ p params, Moved s (s.addToReadBuffer p params) := by
    intro p params
    refine ⟨?_,Or.inr fun _ h => h,id,fun h => h.mono hnot hleaving rfl id⟩
    have hroom := s.addToReadBuffer_room p params
    have hqueued := s.addToReadBuffer_queued p params
    have hleft' : (s.addToReadBuffer p params).left =
        (if s.canReadSocket then (s.addToReadBuffer p params).room else 0) +
          if s.canWriteSocket then (s.addToReadBuffer p params).queued else 0 := by
      rw [left,show (s.addToReadBuffer p params).thread = .receiving from hthread]
      rfl
    rw [hleft,hleft',hqueued]
    split_ifs <;> omega
  have hstop : Moved s { s with canReadSocket := false } := by
    refine ⟨?_,Or.inr (selects_of_flags nofun id),id,fun h => h.mono hnot hleaving rfl id⟩
    rw [hleft,left,show ({ s with canReadSocket := false } : SocketLoop F α H).thread = .receiving
      from hthread]
    exact Nat.add_le_add_right (Nat.zero_le _) _
  have hfail : ∀ events, Moved s { s with thread := .failing events } := fun events =>
    .outside rfl id id nofun fun h => h.mono hnot hleaving rfl id
  have herror : ∀ error, Moved s (s.processTcpSendRecvErrno error) := by
    intro error
    unfold processTcpSendRecvErrno
    dsimp only
    split_ifs
    · exact hfail _
    · exact exitWith_moved s s _ id id
  unfold receive at hs
  by_cases hreceives : s.receives = true
  · rw [if_pos hreceives] at hs
    obtain ⟨hcan,hroom⟩ : s.canReadSocket = true ∧ 0 < s.room := by
      rw [receives,Bool.and_eq_true,Bool.not_eq_true'] at hreceives
      exact ⟨hreceives.1,s.device.readBuffer.not_isFull_iff.mp hreceives.2⟩
    split at hs
    · cases hs
      refine ⟨?_,Or.inr fun _ h => h,nofun,fun h => h.mono hnot hleaving rfl id⟩
      show max 1 s.room + (if s.canWriteSocket then s.queued else 0) ≤ _
      rw [hleft,if_pos hcan,Nat.max_eq_right hroom]
    · split_ifs at hs
      cases hs
      exact hadd _ _
    · cases hs
      exact hstop
    · cases hs
      exact exitWith_moved s s _ id id
    · cases hs
      exact herror _
    · split_ifs at hs
      cases hs
      exact hadd _ _
    · cases hs
      exact hstop
    · cases hs
      exact hfail _
    · cases hs
  · rw [if_neg hreceives] at hs
    cases hs
    refine ⟨?_,Or.inr fun _ h => h,nofun,fun h => h.mono hnot hleaving rfl id⟩
    rw [hleft]
    exact Nat.le_add_left _ _

/-- A call of `m_ssl.read` that does not ask to write brings the pass nearer to its end. -/
theorem sslRead_moved (hthread : s.thread = .reading) (hs : s.sslRead result = some s') :
    (result.asks ≠ some .writable → 1 + s'.left ≤ s.left) ∧
      (∀ c, s.Selects c → s'.Selects c) ∧ (∀ c, result.asks = some c → s'.Selects c) ∧
        s'.thread.isEarly = false ∧ (s.Heeds → s'.Heeds) := by
  have hnot : s.thread ≠ .locking := by rw [hthread]; rintro ⟨⟩
  have hleaving : s.thread.isLeaving = false := by rw [hthread]; rfl
  have hleft : s.left = max 1 s.room + if s.canWriteSocket then s.queued else 0 := by
    rw [left,hthread]
  have hout : ∀ events, 1 + ({ s with thread := .failing events } : SocketLoop F α H).left ≤
      s.left := by
    intro events
    rw [hleft]
    exact le_trans (le_max_left _ _) (Nat.le_add_right _ _)
  cases result with
  | received p params =>
    simp only [sslRead] at hs
    split_ifs at hs with hp
    cases hs
    refine ⟨fun _ => ?_,fun _ h => h,by rintro _ ⟨⟩,rfl,fun h => h.mono hnot hleaving rfl id⟩
    have hroom := s.addToReadBuffer_room p []
    have hqueued := s.addToReadBuffer_queued p []
    have hlength := List.length_pos_iff.mpr hp.1
    show 1 + ((if s.canReadSocket then (s.addToReadBuffer p []).room else 0) +
      if s.canWriteSocket then (s.addToReadBuffer p []).queued else 0) ≤ _
    rw [hleft,hqueued]
    split_ifs <;> omega
  | wantRead =>
    cases hs
    refine ⟨fun _ => ?_,selects_of_flags (by rintro ⟨⟩) id,?_,rfl,
      fun h => h.mono hnot hleaving rfl id⟩
    · rw [hleft]
      exact Nat.add_le_add (le_max_left _ _) (le_of_eq (Nat.zero_add _))
    · rintro _ ⟨⟩
      rfl
  | wantWrite =>
    cases hs
    refine ⟨fun h => absurd rfl h,selects_of_flags id (by rintro ⟨⟩),?_,rfl,
      fun h => h.mono hnot hleaving rfl id⟩
    rintro _ ⟨⟩
    rfl
  | disconnected =>
    cases hs
    exact ⟨fun _ => hout _,fun _ h => h,by rintro _ ⟨⟩,rfl,
      fun h => h.mono hnot hleaving rfl id⟩
  | failed error =>
    cases hs
    exact ⟨fun _ => hout _,fun _ h => h,by rintro _ ⟨⟩,rfl,
      fun h => h.mono hnot hleaving rfl id⟩
  | _ => cases hs

theorem removeSent_queued (s : SocketLoop F α H) (size : ℕ) :
    (s.removeSent size).queued = s.queued - min size s.block.data.length := by
  have hlength : (if size < s.block.data.length then s.block.data.drop size else []).length =
      s.block.data.length - size := by
    split_ifs with h
    · exact List.length_drop
    · rw [List.length_nil]
      omega
  unfold queued removeSent
  dsimp only
  rw [hlength]
  omega

theorem sslWrite_moved (hthread : s.thread = .writing) (hs : s.sslWrite result = some s') :
    ((∀ size, result = .sent size → 0 < size ∧ size ≤ s.block.data.length) →
        result.asks ≠ some .readable → 1 + s'.left ≤ s.left) ∧
      (∀ c, s.Selects c → s'.Selects c) ∧ (∀ c, result.asks = some c → s'.Selects c) ∧
        s'.thread.isEarly = false ∧ (s.Heeds → s'.Heeds) := by
  have hnot : s.thread ≠ .locking := by rw [hthread]; nofun
  have hleaving : s.thread.isLeaving = false := by rw [hthread]; rfl
  have hleft : s.left = max 1 s.queued := by rw [left,hthread]
  cases result with
  | sent size =>
    cases hs
    refine ⟨fun hsent _ => ?_,fun _ h => h,nofun,rfl,fun h => h.mono hnot hleaving rfl id⟩
    obtain ⟨hpos,hle⟩ := hsent size rfl
    have hblock : s.block.data.length ≤ s.queued := by
      unfold queued
      omega
    show 1 + (if s.canWriteSocket then (s.removeSent size).queued else 0) ≤ _
    rw [hleft,removeSent_queued]
    split_ifs <;> omega
  | wantRead =>
    cases hs
    refine ⟨fun _ h => absurd rfl h,selects_of_flags nofun id,?_,rfl,
      fun h => h.mono hnot hleaving rfl id⟩
    rintro _ ⟨⟩
    rfl
  | wantWrite =>
    cases hs
    refine ⟨fun _ _ => ?_,selects_of_flags id nofun,?_,rfl,fun h => h.mono hnot hleaving rfl id⟩
    · rw [hleft]
      exact le_max_left _ _
    · rintro _ ⟨⟩
      rfl
  | failed error =>
    cases hs
    refine ⟨fun _ _ => ?_,fun _ h => h,nofun,rfl,fun h => h.mono hnot hleaving rfl id⟩
    rw [hleft]
    exact le_max_left _ _
  | _ => cases hs

theorem endPass_moved (s t : SocketLoop F α H) (hnot : s.thread ≠ .locking)
    (hleaving : s.thread.isLeaving = false)
    (hr : t.canReadSocket = true → s.canReadSocket = true)
    (hw : t.canWriteSocket = true → s.canWriteSocket = true) (hclosing : t.closing = s.closing)
    (hwoken : t.woken = s.woken) : Moved s t.endPass := by
  unfold endPass
  split_ifs
  · obtain ⟨hloops,hclosing',hwoken',-,hflags,hearly⟩ :=
      t.notify_spec t.base.processWaitLists .loop
    obtain ⟨hread,hwrite⟩ := hflags nofun
    refine .outside hloops (fun h => hr ?_) (fun h => hw ?_) (fun h => ?_) fun h => ?_
    · rw [← hread]
      exact h
    · rw [← hwrite]
      exact h
    · rw [hearly (Or.inl rfl)] at h
      cases h
    · exact h.mono hnot hleaving (hclosing'.trans hclosing) fun h => hwoken' (hwoken.trans h)
  · exact .outside rfl hr hw nofun fun h => h.mono hnot hleaving hclosing fun h => hwoken.trans h

theorem send_moved (hthread : s.thread = .sending) (hs : s.send result = some s') :
    Moved s s' := by
  have hnot : s.thread ≠ .locking := by rw [hthread]; rintro ⟨⟩
  have hleaving : s.thread.isLeaving = false := by rw [hthread]; rfl
  have hleft : s.left = if s.canWriteSocket then s.queued else 0 := by rw [left,hthread]
  obtain ⟨hqueued,hread,hwrite,hclosing,hwoken⟩ := s.takeBlock_spec
  have hsame := s.takeBlock_same.1
  unfold send at hs
  generalize s.takeBlock = t at *
  dsimp only at hs
  have hheeds : ∀ u : SocketLoop F α H, u.closing = t.closing → u.woken = t.woken →
      s.Heeds → u.Heeds := fun u hc hw h =>
    h.mono hnot hleaving (hc.trans hclosing) fun h => hw.trans (hwoken.trans h)
  have hstay : ∀ (block : Block α) (canWriteSocket : Bool),
      block.data.length ≤ t.block.data.length → (canWriteSocket = true → t.canWriteSocket = true) →
        Moved s { t with block, canWriteSocket } := by
    intro block canWriteSocket hlength hcan
    refine ⟨?_,Or.inr (selects_of_flags (fun h => hread ▸ h) fun h => hwrite ▸ hcan h),
      fun h => hsame ▸ h,hheeds _ rfl rfl⟩
    have hthread' : ({ t with block, canWriteSocket } : SocketLoop F α H).thread = .sending :=
      hsame.trans hthread
    rw [hleft,left,hthread']
    dsimp only
    split_ifs with hnow hbefore
    · exact le_trans (Nat.add_le_add_right (Nat.add_le_add_right hlength _) _) hqueued
    · exact absurd (hwrite ▸ hcan hnow) hbefore
    · exact Nat.zero_le _
    · exact le_rfl
  have hsent : ∀ size, Moved s (t.removeSent size) := by
    intro size
    refine hstay _ t.canWriteSocket ?_ id
    dsimp only
    split_ifs
    · rw [List.length_drop]
      exact Nat.sub_le _ _
    · exact Nat.zero_le _
  have hfail : ∀ events, Moved s { t with thread := .failing events } := fun events =>
    .outside rfl (fun h => hread ▸ h) (fun h => hwrite ▸ h) (by rintro ⟨⟩)
    (hheeds _ rfl rfl)
  have hflags : (t.canReadSocket = true → s.canReadSocket = true) ∧
      (t.canWriteSocket = true → s.canWriteSocket = true) := ⟨fun h => hread ▸ h,fun h => hwrite ▸ h⟩
  by_cases hsends : t.sends = true
  · rw [if_pos hsends] at hs
    split at hs
    · next hkind =>
      cases hs
      refine ⟨?_,Or.inr (selects_of_flags hflags.1 hflags.2),by rintro ⟨⟩,hheeds _ rfl rfl⟩
      rw [sends,hkind,Bool.and_eq_true,Bool.not_eq_true',if_neg (by decide)] at hsends
      have hpos : 0 < t.queued := by
        have hlength : 0 < t.block.data.length :=
          List.length_pos_iff.mpr (List.isEmpty_eq_false_iff.mp hsends.2)
        unfold queued
        omega
      show max 1 t.queued ≤ _
      rw [hleft,if_pos (hflags.2 hsends.1),Nat.max_eq_right hpos]
      exact hqueued
    · cases hs
      exact hsent _
    · cases hs
      exact hstay _ false le_rfl (by rintro ⟨⟩)
    · cases hs
      unfold processTcpSendRecvErrno
      dsimp only
      split_ifs
      · exact hfail _
      · exact exitWith_moved s t _ hflags.1 hflags.2
    · cases hs
      exact hstay ⟨[],_⟩ t.canWriteSocket (Nat.zero_le _) id
    · cases hs
      exact hstay _ false le_rfl (by rintro ⟨⟩)
    · cases hs
      exact hfail _
    · cases hs
  · rw [if_neg hsends] at hs
    cases hs
    exact endPass_moved s t.updated hnot hleaving hflags.1 hflags.2 hclosing hwoken

theorem acceptLoop_moved (hthread : s.thread = .accepting) (hs : s.acceptLoop result = some s') :
    Moved s s' := by
  have hnot : s.thread ≠ .locking := by rw [hthread]; nofun
  have hleaving : s.thread.isLeaving = false := by rw [hthread]; rfl
  have hloops : s.thread.inLoops = false := by rw [hthread]; rfl
  unfold acceptLoop at hs
  split_ifs at hs
  · cases result with
    | accepted =>
      cases hs
      exact .outside hloops id id id fun h => h.mono hnot hleaving rfl id
    | wouldBlock =>
      cases hs
      exact .outside hloops nofun id id fun h => h.mono hnot hleaving rfl id
    | failed error =>
      cases hs
      exact .outside rfl id id nofun fun h => h.mono hnot hleaving rfl id
    | _ => cases hs
  · cases hs
    exact endPass_moved s s hnot hleaving id id rfl rfl
  · cases hs
    exact endPass_moved s (s.setActiveEvents _) hnot hleaving id id rfl rfl

theorem notify_moved (o : WaitOutcome F H) (hnot : s.thread ≠ .locking)
    (hearly : next = .enter ∨ next = .handshake → s.thread.isEarly = true)
    (hleaving : s.thread.isLeaving = decide (next = .exit)) : Moved s (s.notify o next) := by
  obtain ⟨hloops,hclosing,hwoken,hexit,hflags,hlate⟩ := s.notify_spec o next
  have hheeds : s.Heeds → (s.notify o next).Heeds := by
    intro h
    by_cases hnext : next = .exit
    · exact heeds_of_leaving (hexit hnext)
    · exact h.mono hnot (hleaving.trans (decide_eq_false hnext)) hclosing hwoken
  have hgoes : next = .loop ∨ next = .exit → Moved s (s.notify o next) := by
    intro h
    have hne : next ≠ .enter := by rcases h with rfl | rfl <;> nofun
    obtain ⟨hread,hwrite⟩ := hflags hne
    refine .outside hloops (fun h => hread ▸ h) (fun h => hwrite ▸ h) (fun he => ?_) hheeds
    rw [hlate h] at he
    cases he
  cases next with
  | handshake => exact .ofEarly (hearly (Or.inr rfl)) hloops hheeds
  | enter => exact .ofEarly (hearly (Or.inl rfl)) hloops hheeds
  | loop => exact hgoes (Or.inl rfl)
  | exit => exact hgoes (Or.inr rfl)

theorem threadStep_locking (h : s.thread = .locking) : s.threadStep result = some s.lock := by
  simp [threadStep,h]

theorem threadStep_reading (h : s.thread = .reading) :
    s.threadStep result = s.sslRead result := by simp [threadStep,h]

theorem threadStep_writing (h : s.thread = .writing) :
    s.threadStep result = s.sslWrite result := by simp [threadStep,h]

theorem threadStep_moved (hlocking : s.thread ≠ .locking) (hreading : s.thread ≠ .reading)
    (hwriting : s.thread ≠ .writing) (hs : s.threadStep result = some s') : Moved s s' := by
  unfold threadStep at hs
  split at hs
  · next h => exact start_moved h hs
  · next h => exact suspendLoop_moved h hs
  · next h => exact connectLoop_moved h hs
  · next h => exact sslHandshakeLoop_moved h hs
  · split at hs
    · cases hs
      exact .outside rfl id id nofun fun _ => heeds_of_leaving rfl
    · cases hs
  · next h => exact absurd h hlocking
  · next h => exact receive_moved h hs
  · next h => exact send_moved h hs
  · next h => exact absurd h hreading
  · next h => exact absurd h hwriting
  · next h => exact acceptLoop_moved h hs
  · next events next h =>
    cases hs
    refine notify_moved _ hlocking ?_ ?_
    · rw [h]
      rintro (rfl | rfl) <;> rfl
    · rw [h]
      cases next <;> rfl
  · cases hs
    exact exitWith_moved s s _ id id
  · next wait next h =>
    cases hs
    refine notify_moved _ hlocking ?_ ?_
    · rw [h]
      rintro (rfl | rfl) <;> rfl
    · rw [h]
      cases next <;> rfl
  · cases hs

/-- What a step of another thread leaves alone; a request to close wakes the thread. -/
structure Apart (s s' : SocketLoop F α H) : Prop where
  thread : s'.thread = s.thread
  canReadSocket : s'.canReadSocket = s.canReadSocket
  canWriteSocket : s'.canWriteSocket = s.canWriteSocket
  woken : s.woken = true → s'.woken = true
  closing : s'.closing = s.closing ∨ s'.woken = true

theorem locked_eq {t : SocketLoop F α H} (h : s.locked t = some s') : s' = t := by
  unfold locked at h
  split_ifs at h
  exact (Option.some.inj h).symm

theorem apart_of_same (hthread : s'.thread = s.thread) (hread : s'.canReadSocket = s.canReadSocket)
    (hwrite : s'.canWriteSocket = s.canWriteSocket) (hwoken : s.woken = true → s'.woken = true)
    (hclosing : s'.closing = s.closing) : Apart s s' :=
  ⟨hthread,hread,hwrite,hwoken,Or.inl hclosing⟩

theorem or_woken {c : Prop} [Decidable c] {woken : Bool} (h : woken = true) :
    (if c then true else woken) = true := by
  rw [h,ite_self]

theorem write_apart (s : SocketLoop F α H) (p params : List α) : Apart s (s.write p params) := by
  refine apart_of_same rfl rfl rfl (fun h => ?_) rfl
  show (if _ then s.woken else true) = true
  rw [h,ite_self]

theorem close_apart (s : SocketLoop F α H) : Apart s s.close := by
  unfold close
  split_ifs
  · exact ⟨rfl,rfl,rfl,fun _ => rfl,Or.inr rfl⟩
  · exact apart_of_same rfl rfl rfl id rfl

theorem act_apart {a : SocketAction F α} (ha : ∀ result, a ≠ .thread result)
    (hopen : a.opens = false) (hselect : ∀ readable writable, a ≠ .select readable writable)
    (hs : s.act a = some s') : Apart s s' := by
  cases a with
  | «open» kind mode isIncoming isSuspended => cases hopen
  | connect =>
    rw [locked_eq hs]
    unfold SocketLoop.connect
    split_ifs
    · exact apart_of_same rfl rfl rfl (fun _ => rfl) rfl
    · exact apart_of_same rfl rfl rfl id rfl
  | listen =>
    rw [locked_eq hs]
    unfold SocketLoop.listen
    split_ifs
    · exact apart_of_same rfl rfl rfl (fun _ => rfl) rfl
    · exact apart_of_same rfl rfl rfl id rfl
  | accept =>
    rw [locked_eq hs]
    unfold SocketLoop.accept
    split
    · exact apart_of_same rfl rfl rfl id rfl
    · exact apart_of_same rfl rfl rfl id rfl
    · exact apart_of_same rfl rfl rfl id rfl
  | read size =>
    rw [locked_eq hs]
    exact apart_of_same rfl rfl rfl or_woken rfl
  | write p params =>
    rw [locked_eq hs]
    exact write_apart s p params
  | setReadBufferSize size result =>
    rw [locked_eq hs]
    exact apart_of_same rfl rfl rfl or_woken rfl
  | setWriteBufferSize size result =>
    rw [locked_eq hs]
    exact apart_of_same rfl rfl rfl or_woken rfl
  | setReadBlockSize size =>
    rw [locked_eq hs]
    exact apart_of_same rfl rfl rfl or_woken rfl
  | setOptions mode =>
    change (if s.thread.isLocked then none else s.setOptions mode) = some s' at hs
    rw [ite_eq_iff] at hs
    obtain ⟨-,hs⟩ | ⟨-,hs⟩ := hs
    · cases hs
    unfold SocketLoop.setOptions at hs
    rw [ite_eq_iff] at hs
    obtain ⟨-,hs⟩ | ⟨-,hs⟩ := hs
    · cases hs
    · cases hs
      exact apart_of_same rfl rfl rfl or_woken rfl
  | unsuspend =>
    rw [locked_eq hs]
    exact apart_of_same rfl rfl rfl (fun _ => rfl) rfl
  | close =>
    rw [locked_eq hs]
    exact close_apart s
  | call request =>
    change s.call request = some s' at hs
    unfold SocketLoop.call at hs
    extract_lets isAllowed at hs
    split_ifs at hs
    cases hs
    exact apart_of_same rfl rfl rfl id rfl
  | advance i =>
    simp only [act,SocketLoop.advance] at hs
    split at hs
    · cases hs
    · split_ifs at hs
      obtain ⟨o,-,rfl⟩ := Option.map_eq_some_iff.mp hs
      exact apart_of_same rfl rfl rfl id rfl
  | timeout i =>
    simp only [act,SocketLoop.timeout] at hs
    split at hs
    · cases hs
      exact apart_of_same rfl rfl rfl id rfl
    · cases hs
  | select readable writable => exact absurd rfl (hselect readable writable)
  | thread result => exact absurd rfl (ha result)

theorem Apart.left (h : Apart s s') :
    s'.left ≤ s.left + (s'.room - s.room) + (s'.queued - s.queued) := by
  unfold SocketLoop.left
  rw [h.thread,h.canReadSocket,h.canWriteSocket]
  split
  · split_ifs <;> omega
  · split_ifs <;> omega
  · split_ifs <;> omega
  · omega
  · exact Nat.zero_le _

theorem Apart.heeds (h : Apart s s') (hs : s.Heeds) : s'.Heeds := by
  intro hc
  rw [h.thread]
  rcases h.closing with heq | hw
  · exact (hs (heq ▸ hc)).imp_left h.woken
  · exact Or.inl hw

theorem Apart.selects (h : Apart s s') (c : SocketCondition) (hs : s.Selects c) : s'.Selects c :=
  selects_of_flags (fun ht => h.canReadSocket ▸ ht) (fun ht => h.canWriteSocket ▸ ht) c hs

theorem select_spec {readable writable : Bool} (hs : s.select readable writable = some s') :
    s'.thread = .locking ∧ (s.Selects .readable → readable = false → s'.Selects .readable) ∧
      (s.Selects .writable → writable = false → s'.Selects .writable) := by
  unfold select at hs
  split_ifs at hs
  cases hs
  refine ⟨rfl,fun h hr => ?_,fun h hw => ?_⟩
  · show (s.canReadSocket || readable) = false
    rw [show s.canReadSocket = false from h,hr]
    rfl
  · show (s.canWriteSocket || writable) = false
    rw [show s.canWriteSocket = false from h,hw]
    rfl

theorem waitForEvents_spec {e : NetworkEvents} (hs : s.waitForEvents e = some s') :
    (s'.thread = .locking ∨ s'.thread.isLeaving = true) ∧ s'.thread.inLoops = false ∧
      s'.thread.isEarly = false ∧
      (s.Selects .readable → e.read.isSome = false → s'.Selects .readable) ∧
      (s.Selects .writable → e.write.isSome = false → s'.Selects .writable) := by
  have hleave : ∀ events, some (s.leave events) = some s' →
      (s'.thread = .locking ∨ s'.thread.isLeaving = true) ∧ s'.thread.inLoops = false ∧
        s'.thread.isEarly = false ∧
        (s.Selects .readable → e.read.isSome = false → s'.Selects .readable) ∧
        (s.Selects .writable → e.write.isSome = false → s'.Selects .writable) := by
    rintro events ⟨⟩
    exact ⟨Or.inr rfl,rfl,rfl,fun h _ => h,fun h _ => h⟩
  unfold waitForEvents at hs
  split_ifs at hs
  split at hs
  · exact hleave _ hs
  · exact hleave _ hs
  · dsimp only at hs
    split at hs
    · exact hleave _ hs
    · exact hleave _ hs
    · cases hs
      refine ⟨Or.inl rfl,rfl,rfl,fun h hr => ?_,fun h hw => ?_⟩
      · show (s.canReadSocket || e.read.isSome) = false
        rw [show s.canReadSocket = false from h,hr]
        rfl
      · show (s.canWriteSocket || e.write.isSome) = false
        rw [show s.canWriteSocket = false from h,hw]
        rfl

end SocketLoop

namespace SslLoop

open SocketLoop

variable {r r' : SslLoop F α H} {platform : Platform}

structure Inv (r : SslLoop F α H) : Prop where
  finite : r.sslCalls + r.socket.left ≤ r.work + r.added
  selects : ∀ c, r.readAsked = some c ∨ r.writeAsked = some c → r.socket.Selects c
  early : r.socket.thread.isEarly = true → r.readAsked = none ∧ r.writeAsked = none
  heeds : r.socket.Heeds

theorem initial_inv (readBlockSize : ℕ) (readBufferSize writeBufferSize : ℕ+) :
    (initial readBlockSize readBufferSize writeBufferSize : SslLoop F α H).Inv where
  finite := le_rfl
  selects := fun c h => by rcases h with h | h <;> cases h
  early := fun _ => ⟨rfl,rfl⟩
  heeds := heeds_of_leaving rfl

theorem still_some {readable writable : Bool} {asked : Option SocketCondition}
    {c : SocketCondition} (h : still readable writable asked = some c) :
    asked = some c ∧ (c = .readable → readable = false) ∧ (c = .writable → writable = false) := by
  cases asked with
  | none => cases h
  | some d =>
    cases d with
    | readable =>
      simp only [still] at h
      split_ifs at h with hr
      cases h
      exact ⟨rfl,fun _ => Bool.eq_false_iff.mpr hr,nofun⟩
    | writable =>
      simp only [still] at h
      split_ifs at h with hw
      cases h
      exact ⟨rfl,nofun,fun _ => Bool.eq_false_iff.mpr hw⟩

variable {s : SocketLoop F α H}

theorem Inv.woken (h : r.Inv) {readable writable : Bool} (hloops : s.thread.inLoops = false)
    (hearly : s.thread.isEarly = false) (hheeds : s.Heeds)
    (hread : r.socket.Selects .readable → readable = false → s.Selects .readable)
    (hwrite : r.socket.Selects .writable → writable = false → s.Selects .writable) :
    ({ r with
      socket := s
      readAsked := still readable writable r.readAsked
      writeAsked := still readable writable r.writeAsked } : SslLoop F α H).Inv where
  finite := by
    show r.sslCalls + s.left ≤ _
    rw [left_outside hloops]
    exact le_trans (Nat.add_le_add_left (Nat.zero_le _) _) h.finite
  selects := by
    have hkeeps : ∀ c asked, still readable writable asked = some c →
        (asked = some c → r.socket.Selects c) → s.Selects c := by
      intro c asked hc hs
      obtain ⟨hasked,hr,hw⟩ := still_some hc
      cases c with
      | readable => exact hread (hs hasked) (hr rfl)
      | writable => exact hwrite (hs hasked) (hw rfl)
    rintro c (hc | hc)
    · exact hkeeps c _ hc fun hs => h.selects c (Or.inl hs)
    · exact hkeeps c _ hc fun hs => h.selects c (Or.inr hs)
  early := fun he => by
    rw [show s.thread.isEarly = true from he] at hearly
    cases hearly
  heeds := hheeds

theorem Inv.moved (h : r.Inv) (hm : Moved r.socket s) :
    ({ r with socket := s } : SslLoop F α H).Inv where
  finite := le_trans (Nat.add_le_add_left hm.left _) h.finite
  selects := by
    intro c hc
    rcases hm.selects with he | hs
    · obtain ⟨hread,hwrite⟩ := h.early he
      rcases hc with hc | hc
      · cases hread.symm.trans hc
      · cases hwrite.symm.trans hc
    · exact hs c (h.selects c hc)
  early := fun he => h.early (hm.early he)
  heeds := hm.heeds h.heeds

theorem Inv.apart (h : r.Inv) (ha : Apart r.socket s) :
    ({ r with
      socket := s
      added := r.added + (s.room - r.socket.room) + (s.queued - r.socket.queued) } :
      SslLoop F α H).Inv where
  finite := by
    have hleft := ha.left
    have hfinite := h.finite
    show r.sslCalls + s.left ≤ r.work + (r.added + _ + _)
    omega
  selects := fun c hc => ha.selects c (h.selects c hc)
  early := fun he => h.early (ha.thread ▸ he)
  heeds := ha.heeds h.heeds

theorem Inv.thread (h : r.Inv) {result : LoopResult α} (hsends : Sends r (.act (.thread result)))
    (hok : StepOk r (.act (.thread result))) (hs : r.socket.threadStep result = some s) :
    (r.observe s (.act (.thread result))).Inv := by
  unfold observe
  dsimp only
  split
  · next hthread =>
    obtain rfl := Option.some.inj ((threadStep_locking hthread).symm.trans hs)
    obtain ⟨hread,hwrite,hearly,hheeds,-⟩ := r.socket.lock_spec
    refine ⟨?_,fun c hc => ?_,fun he => ?_,hheeds⟩
    · show 0 + _ ≤ _ + 0
      rw [Nat.zero_add,Nat.add_zero]
      exact r.socket.lock_left
    · exact selects_of_flags (fun ht => hread ▸ ht) (fun ht => hwrite ▸ ht) c (h.selects c hc)
    · cases hearly.symm.trans he
  · next hthread =>
    rw [threadStep_reading hthread] at hs
    obtain ⟨hleft,hkeeps,hasks,hearly,hheeds⟩ := sslRead_moved hthread hs
    have hcross : result.asks ≠ some .writable := by
      simpa only [StepOk,hthread] using hok
    refine ⟨?_,fun c hc => ?_,fun he => ?_,hheeds h.heeds⟩
    · have := hleft hcross
      have := h.finite
      show r.sslCalls + 1 + s.left ≤ r.work + r.added
      omega
    · rcases hc with hc | hc
      · exact hasks c hc
      · exact hkeeps c (h.selects c (Or.inr hc))
    · cases hearly.symm.trans he
  · next hthread =>
    rw [threadStep_writing hthread] at hs
    obtain ⟨hleft,hkeeps,hasks,hearly,hheeds⟩ := sslWrite_moved hthread hs
    have hcross : result.asks ≠ some .readable := by
      simpa only [StepOk,hthread] using hok
    have hsent : ∀ size, result = .sent size →
        0 < size ∧ size ≤ r.socket.block.data.length := by
      rintro size rfl
      exact hsends hthread
    refine ⟨?_,fun c hc => ?_,fun he => ?_,hheeds h.heeds⟩
    · have := hleft hsent hcross
      have := h.finite
      show r.sslCalls + 1 + s.left ≤ r.work + r.added
      omega
    · rcases hc with hc | hc
      · exact hkeeps c (h.selects c (Or.inl hc))
      · exact hasks c hc
    · cases hearly.symm.trans he
  · next hlocking hreading hwriting =>
    exact h.moved (threadStep_moved hlocking hreading hwriting hs)

theorem Inv.reached (h : r.Inv) (reached : Events) :
    ({ r with socket := { r.socket with reached } } : SslLoop F α H).Inv :=
  ⟨h.finite,h.selects,h.early,h.heeds⟩

theorem observe_reached (r : SslLoop F α H) (s : SocketLoop F α H) (a : SslAction F α)
    (reached : Events) : r.observe { s with reached } a =
      { r.observe s a with socket := { (r.observe s a).socket with reached } } := by
  unfold observe
  split
  · split
    · rfl
    · rfl
    · rfl
    · rfl
  · rfl
  · rfl
  · rfl
  · rfl

theorem Inv.opens (h : r.Inv) {kind : SocketKind} {mode : DeviceMode}
    {isIncoming isSuspended : Bool} (hs : r.socket.open' kind mode isIncoming isSuspended = some s) :
    ({ r with socket := s, readAsked := none, writeAsked := none } : SslLoop F α H).Inv := by
  unfold open' at hs
  split_ifs at hs
  cases hs
  refine ⟨?_,fun c hc => ?_,fun _ => ⟨rfl,rfl⟩,nofun⟩
  · exact le_trans (Nat.add_le_add_left (Nat.zero_le _) _) h.finite
  · rcases hc with hc | hc <;> cases hc

theorem Inv.step (h : r.Inv) {a : SslAction F α} (hsends : Sends r a) (hok : StepOk r a)
    (hs : step platform r a = some r') : r'.Inv := by
  unfold SslLoop.step at hs
  split_ifs at hs with hallows
  obtain ⟨s,hact,rfl⟩ := Option.map_eq_some_iff.mp hs
  cases a with
  | networkEvents e =>
    obtain ⟨hthread,hloops,hearly,hread,hwrite⟩ := waitForEvents_spec hact
    exact h.woken hloops hearly (fun _ => Or.inr hthread) hread hwrite
  | act a =>
    obtain ⟨t,ht,rfl⟩ := Option.map_eq_some_iff.mp hact
    rw [observe_reached]
    refine Inv.reached ?_ _
    by_cases hother : (∀ result, a ≠ .thread result) ∧ a.opens = false ∧
        ∀ readable writable, a ≠ .select readable writable
    · have hapart := h.apart (act_apart hother.1 hother.2.1 hother.2.2 ht)
      cases a with
      | thread result => exact absurd rfl (hother.1 result)
      | «open» kind mode isIncoming isSuspended => cases hother.2.1
      | select readable writable => exact absurd rfl (hother.2.2 readable writable)
      | _ => exact hapart
    cases a with
    | thread result => exact h.thread hsends hok ht
    | «open» kind mode isIncoming isSuspended => exact h.opens ht
    | select readable writable =>
      obtain ⟨hthread,hread,hwrite⟩ := select_spec ht
      have hheeds : t.Heeds := fun _ => Or.inr (Or.inl hthread)
      exact h.woken (by rw [hthread]; rfl) (by rw [hthread]; rfl) hheeds hread hwrite
    | _ => exact absurd ⟨nofun,rfl,nofun⟩ hother

theorem select_wakes (hthread : s.thread = .waiting) (hwoken : s.woken = true) :
    ∃ s', s.select false false = some s' ∧ s'.closing = s.closing := by
  unfold select
  rw [if_neg (by simp [hthread,SocketPc.isWaiting,hwoken])]
  exact ⟨_,rfl,rfl⟩

theorem waitForEvents_wakes (hthread : s.thread = .waiting) (hacc : s.isAccepting = false)
    (hwoken : s.woken = true) :
    ∃ s', s.waitForEvents ⟨none,none,none⟩ = some s' ∧ s'.closing = s.closing := by
  unfold waitForEvents
  rw [if_neg (by simp [hthread,SocketPc.isWaiting,hwoken,hacc])]
  refine ⟨{ s with woken := false, thread := .locking },?_,rfl⟩
  cases s.canReadSocket with
  | false => simp
  | true => simp

theorem Inv.progressing (h : r.Inv) : Progressing platform r where
  finite := le_trans (Nat.le_add_right _ _) h.finite
  selects := fun _ => h.selects
  notices := by
    intro hthread hacc hclosing
    have hwoken : r.socket.woken = true := by
      rcases h.heeds hclosing with hw | ht | ht
      · exact hw
      · rw [hthread] at ht
        cases ht
      · rw [hthread] at ht
        cases ht
    obtain ⟨s,hs,hsame⟩ : ∃ s, act r.socket (wakes platform : SslAction F α) = some s ∧
        s.closing = r.socket.closing := by
      cases platform with
      | posix =>
        obtain ⟨s,hs,hsame⟩ := select_wakes hthread hwoken
        exact ⟨_,congrArg (Option.map _) hs,hsame⟩
      | win => exact waitForEvents_wakes hthread hacc hwoken
    refine ⟨r.observe s (wakes platform),?_,?_⟩
    · have hallows : allows platform r.socket (wakes platform : SslAction F α) = true := by
        cases platform <;> rfl
      rw [SslLoop.step,if_pos hallows,hs]
      rfl
    · have hsocket : (r.observe s (wakes platform)).socket = s := by cases platform <;> rfl
      rw [hsocket]
      exact s.lock_spec.2.2.2.2 (hsame.trans hclosing)

/-- As long as no `m_ssl.read` asks to write and no `m_ssl.write` asks to read, every pass comes to
its end, and the thread waits for what it has been asked for. -/
theorem progressing_of_stepOk (platform : Platform) (readBlockSize : ℕ)
    (readBufferSize writeBufferSize : ℕ+) (as : List (SslAction F α))
    (hsends : Run.Along (step platform) Sends
      (initial readBlockSize readBufferSize writeBufferSize : SslLoop F α H) as)
    (hok : Run.Along (step platform) StepOk
      (initial readBlockSize readBufferSize writeBufferSize : SslLoop F α H) as) :
    Run.Always (step platform) (Progressing platform)
      (initial readBlockSize readBufferSize writeBufferSize : SslLoop F α H) as := by
  refine Run.always_of_along (C := fun r a => Sends r a ∧ StepOk r a)
    (fun _ h => Inv.progressing h) (fun _ _ _ hi hc hs => hi.step hc.1 hc.2 hs)
    (initial_inv _ _ _) (hsends.and hok)

/-- Up to the first pass of a connection that was accepted. -/
def opened : List (SslAction Unit ℕ) :=
  [.act (.open .ssl ⟨false,false,false,keeps_stream⟩ true false),.act (.thread .wouldBlock),
    .act (.thread .wouldBlock),.act (.thread .completed)]

theorem progressing_of_stepOk_read :
    Run.Always (step .posix) (Progressing .posix)
      (initial 16 16 16 : SslLoop Unit ℕ (.counting ℕ))
      (opened ++ [.act (.select false false),.act (.write [5,6] []),.act (.thread .wouldBlock),
        .act (.thread .wouldBlock),.act (.thread (.received [7] [])),.act (.thread .wouldBlock),
        .act (.thread .wantRead),.act (.thread .wouldBlock),.act (.thread .wouldBlock),
        .act (.thread (.sent 2)),.act (.thread .wouldBlock),.act (.select true false)]) := by
  refine progressing_of_stepOk .posix 16 16 16 _ ?_ ?_
  · exact .cons rfl trivial <| .cons rfl trivial <|
      .cons rfl trivial <| .cons rfl trivial <| .cons rfl trivial <|
      .cons rfl trivial <| .cons rfl trivial <| .cons rfl trivial <|
      .cons rfl trivial <| .cons rfl trivial <| .cons rfl trivial <|
      .cons rfl trivial <| .cons rfl trivial <|
      .cons rfl (fun _ => by decide) <| .cons rfl trivial <|
      .cons rfl trivial trivial
  · exact .cons rfl trivial <| .cons rfl trivial <|
      .cons rfl trivial <| .cons rfl trivial <| .cons rfl trivial <|
      .cons rfl trivial <| .cons rfl trivial <| .cons rfl trivial <|
      .cons rfl nofun <| .cons rfl trivial <| .cons rfl nofun <|
      .cons rfl trivial <| .cons rfl trivial <|
      .cons rfl nofun <| .cons rfl trivial <|
      .cons rfl trivial trivial

/-- `m_ssl.read` is called, and is to ask to write. -/
structure Spinning (r : SslLoop F α H) : Prop where
  thread : r.socket.thread = .reading
  kind : r.socket.kind = .ssl
  receives : r.socket.receives = true
  asked : r.readAsked ≠ none → some .writable = r.readAsked

/-- One more call, and the socket that is read is not waited for. -/
def round : List (SslAction F α) := [.act (.thread .wantWrite),.act (.thread .wouldBlock)]

theorem step_thread (platform : Platform) {result : LoopResult α}
    (hs : r.socket.threadStep result = some s) :
    SslLoop.step platform r (.act (.thread result)) = some (r.observe { s with
      reached := r.socket.reached ||| s.device.activeEvents &&& lasting }
        (.act (.thread result))) := by
  have hact : SslLoop.act r.socket (.act (.thread result)) = some { s with
      reached := r.socket.reached ||| s.device.activeEvents &&& lasting } :=
    congrArg (Option.map _) hs
  have hallows : allows platform r.socket (.act (.thread result)) = true := rfl
  rw [SslLoop.step,if_pos hallows,hact]
  rfl

/-- The loop goes on with the same call. -/
theorem Spinning.round (h : r.Spinning) (platform : Platform) :
    ∃ r', Run.exec (SslLoop.step platform) r SslLoop.round = some r' ∧ r'.Spinning ∧
      r'.sslCalls = r.sslCalls + 1 ∧ r'.work = r.work ∧ r'.added = r.added ∧
      Run.Along (SslLoop.step platform) Sends r SslLoop.round ∧
      Run.Along (SslLoop.step platform) Repeats r SslLoop.round := by
  have hcall := step_thread platform
    ((threadStep_reading h.thread).trans (rfl : r.socket.sslRead .wantWrite = _))
  have hobserved : ∀ s, r.observe s (.act (.thread .wantWrite)) = { r with
      socket := s, readAsked := some .writable, sslCalls := r.sslCalls + 1 } := by
    intro s
    simp only [observe,h.thread]
    rfl
  rw [hobserved] at hcall
  obtain ⟨t,ht,htsocket⟩ : ∃ t, SslLoop.step platform r (.act (.thread .wantWrite)) = some t ∧
      t = { r with
        socket := { r.socket with
          canWriteSocket := false
          thread := .receiving
          reached := r.socket.reached ||| r.socket.device.activeEvents &&& lasting }
        readAsked := some .writable
        sslCalls := r.sslCalls + 1 } := ⟨_,hcall,rfl⟩
  have hagain : t.socket.threadStep .wouldBlock = some { t.socket with thread := .reading } := by
    have hreceives : t.socket.receives = true := by
      rw [htsocket]
      exact h.receives
    have hkind : t.socket.kind = .ssl := by
      rw [htsocket]
      exact h.kind
    have hthread : t.socket.thread = .receiving := by rw [htsocket]
    simp [threadStep,hthread,SocketLoop.receive,hreceives,hkind]
  obtain ⟨t',hnext,heq⟩ : ∃ t', SslLoop.step platform t (.act (.thread .wouldBlock)) = some t' ∧
      t' = t.observe { t.socket with
        thread := .reading
        reached := t.socket.reached ||| t.socket.device.activeEvents &&& lasting }
          (.act (.thread .wouldBlock)) := ⟨_,step_thread platform hagain,rfl⟩
  refine ⟨t',?_,?_,?_,?_,?_,?_,?_⟩
  · rw [SslLoop.round,Run.exec_cons ht,Run.exec_cons hnext]
    rfl
  · subst heq htsocket
    exact ⟨rfl,h.kind,h.receives,fun _ => rfl⟩
  · subst heq htsocket
    rfl
  · subst heq htsocket
    rfl
  · subst heq htsocket
    rfl
  · exact .cons ht trivial (.cons hnext trivial trivial)
  · refine .cons ht ?_ (.cons hnext ?_ trivial)
    · simp only [Repeats,h.thread]
      exact h.asked
    · subst htsocket
      trivial

theorem Spinning.spins (h : r.Spinning) (platform : Platform) (n : ℕ) :
    ∃ (as : List (SslAction F α)) (r' : SslLoop F α H),
      Run.exec (SslLoop.step platform) r as = some r' ∧ r'.Spinning ∧
      r'.sslCalls = r.sslCalls + n ∧ r'.work = r.work ∧ r'.added = r.added ∧
      Run.Along (SslLoop.step platform) Sends r as ∧
      Run.Along (SslLoop.step platform) Repeats r as := by
  induction n with
  | zero => exact ⟨[],r,rfl,h,rfl,rfl,rfl,trivial,trivial⟩
  | succ n ih =>
    obtain ⟨as,t,hexec,ht,hcalls,hwork,hadded,hsends,hrepeats⟩ := ih
    obtain ⟨t',hexec',ht',hcalls',hwork',hadded',hsends',hrepeats'⟩ :=
      ht.round platform
    refine ⟨as ++ SslLoop.round,t',?_,ht',?_,hwork'.trans hwork,hadded'.trans hadded,
      hsends.append hexec hsends',hrepeats.append hexec hrepeats'⟩
    · rw [Run.exec_append hexec,hexec']
    · rw [hcalls',hcalls]
      rfl

/-- In a pass in which `m_ssl.read` asks to write there is no end to its calls. -/
theorem not_always_progressing :
    ¬∃ bound, ∀ as : List (SslAction Unit ℕ),
      Run.Along (step .posix) Sends (initial 16 16 16 : SslLoop Unit ℕ (.counting ℕ)) as →
      Run.Along (step .posix) Repeats (initial 16 16 16 : SslLoop Unit ℕ (.counting ℕ)) as →
      Run.Always (step .posix) (fun r => r.sslCalls ≤ bound + r.work + r.added)
        (initial 16 16 16 : SslLoop Unit ℕ (.counting ℕ)) as := by
  rintro ⟨bound,h⟩
  let first : List (SslAction Unit ℕ) := opened ++
    [.act (.select false false),.act (.thread .wouldBlock),.act (.thread .wouldBlock),.act .close]
  obtain ⟨r,hr,hcalls,hspins⟩ : ∃ r : SslLoop Unit ℕ (.counting ℕ),
      Run.exec (step .posix) (initial 16 16 16 : SslLoop Unit ℕ (.counting ℕ)) first = some r ∧
        r.work + r.added = 16 ∧ r.Spinning := ⟨_,rfl,rfl,⟨rfl,rfl,rfl,fun hne => absurd rfl hne⟩⟩
  obtain ⟨as,r',hexec,-,hcalls',hwork,hadded,hsends,hrepeats⟩ :=
    hspins.spins .posix (bound + 17)
  have hfirst : Run.exec (step .posix) (initial 16 16 16 : SslLoop Unit ℕ (.counting ℕ))
      (first ++ as) = some r' := by rw [Run.exec_append hr,hexec]
  have hle := (h (first ++ as) (Run.Along.append ?_ hr hsends)
    (Run.Along.append ?_ hr hrepeats)).last hfirst
  · rw [hcalls',hwork,hadded] at hle
    omega
  · exact .cons rfl trivial <| .cons rfl trivial <|
      .cons rfl trivial <| .cons rfl trivial <| .cons rfl trivial <|
      .cons rfl trivial <| .cons rfl trivial <| .cons rfl trivial trivial
  · exact .cons rfl trivial <| .cons rfl trivial <|
      .cons rfl trivial <| .cons rfl trivial <| .cons rfl trivial <|
      .cons rfl trivial <| .cons rfl trivial <| .cons rfl trivial trivial

end SslLoop
end Jancy.Io
