import Jancy.Io.AsyncIoDatagrams
import Jancy.Io.DatagramSocket

/-! Runs of a datagram socket: what is sent against what was accepted, and what is read against what
was received. -/
namespace Jancy.Io

/-- Places of the thread that the loop of a platform has. -/
def DatagramPc.runsOn (platform : Platform) : DatagramPc → Bool
  | .receiving | .sending => decide (platform = .posix)
  | .collecting | .checking | .submitting _ | .posting _ => decide (platform = .win)
  | _ => true

namespace DatagramSocket

variable {α : Type} {s s' : DatagramSocket α} {unsent : List (Block α)}

/-- A pass of the thread over the write buffer is going to come. -/
def Stirs (s : DatagramSocket α) : Prop :=
  s.woken = true ∨ s.suspended = true ∨
    match s.platform with
    | .posix => s.thread ≠ .waiting ∨ s.canWriteSocket = false
    | .win => s.isSendingSocket = true ∨
        match s.thread with
        | .waiting | .posting _ => False
        | .submitting _ => s.block.params ≠ []
        | _ => True

structure Sound (s : DatagramSocket α) : Prop where
  /-- accepted datagrams are sent in order, each once, as they are -/
  sent : s.sent <+: s.accepted
  /-- the thread does not wait for anything while there is one to send -/
  sentAll : s.thread = .waiting → ¬ s.Stirs → s.sent = s.accepted
  /-- received datagrams are read in order, each once, with their addresses -/
  returned : s.returned = s.owed

/-- A read has room for the datagram, and asks for an address only if there is one. No datagram is
written while the overflow of another one waits behind a main buffer with room. An empty one is
written only in front of a pass; it does not have to wait for the socket, and nothing is taken while
it is being sent. -/
def Careful (s : DatagramSocket α) : DatagramAction α → Prop
  | .readDatagram size hasAddress =>
      (hasAddress = true → s.device.isOpen = true ∧ s.device.readMetaList ≠ []) ∧
        (s.device.isOpen = true → ∀ m ∈ s.device.readMetaList.head?, m.dataSize ≤ size)
  | .writeDatagram p address => address.family = s.family → s.device.isOpen = true →
      s.device.writeBuffer.isFull = false →
        (p = [] → s.Stirs) ∧ (p ≠ [] → s.device.writeOverflowBuffer = [])
  | .thread result =>
      (result = .wouldBlock → s.thread = .sending → s.canWriteSocket = true → s.block.data = [] →
        ∀ m ∈ s.device.writeMetaList.head?, m.dataSize ≠ 0) ∧
      (s.thread = .locking → s.isSendingSocket = true → s.block.data = [] →
        s.device.writeMetaList = [])
  | _ => True

/-- The datagram that was taken and has not been sent. -/
def pending (s : DatagramSocket α) : List (Block α) :=
  match s.platform with
  | .posix => if s.block.data = [] then [] else [s.block]
  | .win =>
      match s.thread with
      | .submitting _ => if s.isSendingSocket = true ∨ s.block.params = [] then [] else [s.block]
      | _ => []

structure Inv (s : DatagramSocket α) (unsent : List (Block α)) : Prop where
  carries : Carries s.device s.unread unsent
  returned : s.returned = s.owed
  addressed : ∀ b ∈ s.accepted, b.params ≠ []
  order : s.sent <+: s.accepted
  runsOn : s.thread.runsOn s.platform = true
  isOpen : s.thread ≠ .ended → s.device.isOpen = true
  fresh : s.thread = .starting → s.canWriteSocket = false
  flow : s.thread ≠ .ended → s.accepted = s.sent ++ s.pending ++ unsent
  idle : s.thread ≠ .ended → s.isSendingSocket = false → s.pending = [] → s.block.data = []
  rest : s.thread ≠ .ended → ¬ s.Stirs → s.pending = [] ∧ unsent = []

theorem initial_inv {platform : Platform} {family readParallelism readBlockSize : ℕ}
    {readBufferSize writeBufferSize : ℕ+} {isSuspended : Bool} :
    Inv (initial platform family readParallelism readBlockSize readBufferSize writeBufferSize
      isSuspended : DatagramSocket α) [] where
  carries := .opened _ _
  returned := rfl
  addressed := nofun
  order := List.prefix_rfl
  runsOn := rfl
  isOpen _ := rfl
  fresh _ := rfl
  flow _ := by cases platform <;> rfl
  idle _ _ _ := rfl
  rest _ h := absurd (Or.inl rfl) h

theorem Inv.congr (h : s.Inv unsent) (hcarries : Carries s'.device s'.unread unsent)
    (hreturned : s'.returned = s'.owed)
    (hview : (s'.platform,s'.block.data,s'.accepted,s'.sent) =
      (s.platform,s.block.data,s.accepted,s.sent))
    (hrunsOn : s'.thread.runsOn s.platform = true) (hopen : s'.device.isOpen = s.device.isOpen)
    (hthread : s'.thread ≠ .ended → s.thread ≠ .ended)
    (hfresh : s'.thread = .starting → s'.canWriteSocket = false)
    (hpending : s'.thread ≠ .ended → s'.pending = s.pending)
    (hsending : s'.isSendingSocket = s.isSendingSocket)
    (hrest : s'.thread ≠ .ended → ¬ s'.Stirs → ¬ s.Stirs) : s'.Inv unsent := by
  simp only [Prod.mk.injEq] at hview
  obtain ⟨hplatform,hblock,haccepted,hsent⟩ := hview
  refine ⟨hcarries,hreturned,?_,?_,?_,fun hne => ?_,hfresh,fun hne => ?_,fun hne hs hnil => ?_,
    fun hne hstirs => ?_⟩
  · rw [haccepted]
    exact h.addressed
  · rw [hsent,haccepted]
    exact h.order
  · rw [hplatform]
    exact hrunsOn
  · rw [hopen]
    exact h.isOpen (hthread hne)
  · rw [haccepted,hsent,hpending hne]
    exact h.flow (hthread hne)
  · rw [hblock]
    rw [hsending] at hs
    rw [hpending hne] at hnil
    exact h.idle (hthread hne) hs hnil
  · rw [hpending hne]
    exact h.rest (hthread hne) (hrest hne hstirs)

variable {d : AsyncIoDevice α}

theorem Inv.over (h : s.Inv unsent) {left : List (Block α)} (hcarries : Carries d s.unread left)
    {block : Block α} :
    Inv { s with device := d, block, thread := .ended } left :=
  ⟨hcarries,h.returned,h.addressed,h.order,rfl,fun hne => absurd rfl hne,nofun,
    fun hne => absurd rfl hne,fun hne => absurd rfl hne,fun hne => absurd rfl hne⟩

theorem Inv.readDatagram (h : s.Inv unsent) {size : ℕ} {hasAddress : Bool}
    (hcare : s.Careful (.readDatagram size hasAddress)) :
    Inv ((s.readDatagram size hasAddress).2.return' (s.readDatagram size hasAddress).1
      (s.owedDatagram size hasAddress)) unsent := by
  have hdatagram : ¬ s.device.mode.datagram = false := by
    rw [h.carries.mode]
    exact Bool.noConfusion
  have hread : s.readDatagram size hasAddress =
      (⟨(s.device.bufferedRead size).1.result,(s.device.bufferedRead size).1.data,
          if hasAddress then some (s.device.bufferedRead size).1.params else none⟩,
        { s with
          device := (s.device.bufferedRead size).2
          woken := if s.device.isOpen then true else s.woken
          unread := if s.device.isOpen then s.unread.tail else s.unread }) := if_neg hdatagram
  rw [hread]
  obtain ⟨haddress,hroom⟩ := hcare
  cases ho : s.device.isOpen with
  | false =>
    have hclosed : s.device.bufferedRead size = (⟨none,[],[]⟩,s.device) := if_pos ho
    have howed : s.owedDatagram size hasAddress = ⟨none,[],none⟩ := if_pos ho
    have hnone : hasAddress = false := by
      by_contra hsome
      have := (haddress (by simpa using hsome)).1
      rw [ho] at this
      cases this
    rw [hclosed,howed,hnone]
    refine h.congr h.carries ?_ rfl h.runsOn rfl id h.fresh (fun _ => rfl) rfl fun _ => id
    show s.returned ++ _ = s.owed ++ _
    rw [h.returned]
    rfl
  | true =>
    obtain ⟨hcarries,hret,hopen⟩ := h.carries.read ho (hroom ho)
    have howed : s.owedDatagram size hasAddress =
        ⟨some ((s.unread.head?.elim [] Block.data).take size).length,
          (s.unread.head?.elim [] Block.data).take size,
          if hasAddress then some (s.unread.head?.elim [] Block.params) else none⟩ := by
      refine (if_neg (by simp [ho])).trans ?_
      cases hunread : s.unread with
      | nil =>
        have hnone : hasAddress = false := by
          by_contra hsome
          have := (haddress (by simpa using hsome)).2
          rw [h.carries.readMetas ho,hunread] at this
          exact this rfl
        simp [hnone]
      | cons b rest => rfl
    refine h.congr hcarries ?_ rfl h.runsOn (hopen.trans ho.symm) id h.fresh (fun _ => rfl) rfl
      fun _ hstirs => absurd (Or.inl rfl) hstirs
    show s.returned ++ [_] = s.owed ++ [_]
    rw [h.returned,howed,hret]
    rfl

theorem Inv.writeDatagram (h : s.Inv unsent) {p : List α} {address : SocketAddress α}
    (hcare : s.Careful (.writeDatagram p address)) :
    ∃ unsent', Inv (s.writeDatagram p address) unsent' := by
  unfold DatagramSocket.writeDatagram
  by_cases hrefused : s.device.mode.datagram = false ∨ address.family ≠ s.family
  · rw [if_pos hrefused]
    exact ⟨unsent,h⟩
  rw [if_neg hrefused]
  have hfamily : address.family = s.family := by
    by_contra hne
    exact hrefused (Or.inr hne)
  by_cases hnone : s.device.isOpen = false ∨ s.device.writeBuffer.isFull = true
  · -- nothing is accepted
    have hwrite := AsyncIoDevice.bufferedWrite_nothing p address.sockAddr hnone
    refine ⟨unsent,?_⟩
    simp only [if_pos hnone,hwrite.1,hwrite.2,if_true]
    exact h
  · obtain ⟨ho,hroom⟩ := not_or.mp hnone
    have ho : s.device.isOpen = true := by simpa using ho
    have hroom : s.device.writeBuffer.isFull = false := by simpa using hroom
    obtain ⟨hempty,hover⟩ := hcare hfamily ho hroom
    obtain ⟨hcarries,hresult⟩ := h.carries.write ho hroom p address.sockAddr hover
    have hopen : (s.device.bufferedWrite p address.sockAddr).2.isOpen = s.device.isOpen := by
      unfold AsyncIoDevice.bufferedWrite
      rw [if_neg (by simp [ho])]
      exact (BufferedRun.addToWriteBuffer_framed _ _ _).isOpen
    refine ⟨unsent ++ [⟨p,address.sockAddr⟩],?_⟩
    simp only [if_neg hnone,hresult,Option.getD_some]
    refine ⟨hcarries,h.returned,fun b hb => ?_,h.order.trans (List.prefix_append _ _),h.runsOn,
      fun hne => hopen.trans (h.isOpen hne),h.fresh,fun hne => ?_,h.idle,fun hne hstirs => ?_⟩
    · rcases List.mem_append.mp hb with hb | hb
      · exact h.addressed b hb
      · rw [List.mem_singleton.mp hb]
        exact address.sized
    · show s.accepted ++ _ = s.sent ++ s.pending ++ _
      rw [h.flow hne,List.append_assoc]
    · exfalso
      refine hstirs ?_
      by_cases hp : p = []
      · rcases hempty hp with hwoken | hothers
        · left
          show (if p.length = 0 then s.woken else true) = true
          rw [hwoken,ite_self]
        · exact Or.inr hothers
      · left
        show (if p.length = 0 then s.woken else true) = true
        rw [if_neg (by simpa using hp)]

theorem Inv.takeBlock (h : s.Inv unsent) (hne : s.thread ≠ .ended) (hnil : s.block.data = [])
    (hpending : s.pending = []) :
    Carries s.takeBlock.device s.unread unsent.tail ∧
      s.takeBlock.block = unsent.head?.getD ⟨[],[]⟩ ∧ s.takeBlock.device.isOpen = true ∧
      (s.takeBlock.block.params = [] ↔ unsent = []) ∧
      (unsent ≠ [] → unsent = s.takeBlock.block :: unsent.tail) := by
  obtain ⟨hcarries,hblock,hopen⟩ := h.carries.take (h.isOpen hne) hnil
  have hblock : s.takeBlock.block = unsent.head?.getD ⟨[],[]⟩ := hblock
  refine ⟨hcarries,hblock,hopen,?_,fun hsome => ?_⟩
  · rw [hblock]
    cases hunsent : unsent with
    | nil => exact iff_of_true rfl rfl
    | cons b rest =>
      have hflow := h.flow hne
      rw [hpending,List.append_nil,hunsent] at hflow
      have hb : b ∈ s.accepted := by
        rw [hflow]
        exact List.mem_append_right _ List.mem_cons_self
      exact iff_of_false (h.addressed b hb) (List.cons_ne_nil b rest)
  · rw [hblock]
    cases unsent with
    | nil => exact absurd rfl hsome
    | cons b rest => rfl

theorem takeBlock_same (hblock : s.block.data ≠ []) : s.takeBlock = s := by
  unfold DatagramSocket.takeBlock
  have hsame : s.device.getNextWriteBlock s.block = (s.block,s.device) := if_pos hblock
  rw [hsame]

theorem pending_posix (hp : s.platform = .posix) :
    s.pending = if s.block.data = [] then [] else [s.block] := by
  rw [pending,hp]

theorem pending_win (hp : s.platform = .win) (hthread : ∀ full, s.thread ≠ .submitting full) :
    s.pending = [] := by
  rw [pending,hp]
  cases hs : s.thread with
  | submitting full => exact absurd hs (hthread full)
  | _ => rfl

theorem pending_eq (hplatform : s'.platform = s.platform) (hblock : s'.block = s.block)
    (hthread : ∀ full, s.thread ≠ .submitting full)
    (hthread' : ∀ full, s'.thread ≠ .submitting full) : s'.pending = s.pending := by
  cases hp : s.platform with
  | posix => rw [pending_posix (hplatform.trans hp),pending_posix hp,hblock]
  | win => rw [pending_win (hplatform.trans hp) hthread',pending_win hp hthread]

variable {full : Bool}

theorem pending_submitting (hp : s.platform = .win) (hthread : s.thread = .submitting full) :
    s.pending = if s.isSendingSocket = true ∨ s.block.params = [] then [] else [s.block] := by
  rw [pending,hp,hthread]

theorem Inv.posix (h : s.Inv unsent) (hother : s.thread.runsOn .win = false) :
    s.platform = .posix := by
  have hruns := h.runsOn
  cases hp : s.platform with
  | win =>
    rw [hp,hother] at hruns
    cases hruns
  | posix => rfl

theorem Inv.win (h : s.Inv unsent) (hother : s.thread.runsOn .posix = false) :
    s.platform = .win := by
  have hruns := h.runsOn
  cases hp : s.platform with
  | win => rfl
  | posix =>
    rw [hp,hother] at hruns
    cases hruns

theorem stirs_posix (hp : s.platform = .posix)
    (h : s.thread ≠ .waiting ∨ s.canWriteSocket = false) : s.Stirs := by
  refine Or.inr (Or.inr ?_)
  rw [hp]
  exact h

theorem stirs_win (hp : s.platform = .win) : s.Stirs ↔ s.woken = true ∨ s.suspended = true ∨
    s.isSendingSocket = true ∨
      match s.thread with
      | .waiting | .posting _ => False
      | .submitting _ => s.block.params ≠ []
      | _ => True := by
  rw [Stirs,hp]

theorem Inv.posixStep (h : s.Inv unsent) (hp : s.platform = .posix) (hne : s.thread ≠ .ended)
    {unread : List (Block α)} {pc : DatagramPc} (canReadSocket canWriteSocket : Bool)
    (hcarries : Carries d unread unsent) (hopen : d.isOpen = s.device.isOpen)
    (hpc : pc.runsOn .posix = true) (hstart : pc ≠ .starting)
    (hstirs : pc ≠ .waiting ∨ canWriteSocket = false) :
    Inv { s with device := d, unread, canReadSocket, canWriteSocket, thread := pc } unsent := by
  obtain ⟨s',hs'⟩ : ∃ s' : DatagramSocket α, s' = { s with
    device := d, unread, canReadSocket, canWriteSocket, thread := pc } := ⟨_,rfl⟩
  have hp' : s'.platform = .posix := by rw [hs']; exact hp
  have hpending : s'.pending = s.pending := by
    rw [pending_posix hp',pending_posix hp,hs']
  have hthread : s'.Stirs := by
    refine stirs_posix hp' ?_
    rw [hs']
    exact hstirs
  rw [← hs']
  refine h.congr ?_ ?_ ?_ ?_ ?_ (fun _ => hne) ?_ (fun _ => hpending) ?_
    fun _ hno => absurd hthread hno
  all_goals rw [hs']
  · exact hcarries
  · exact h.returned
  · rw [hp]
    exact hpc
  · exact hopen
  · exact fun hs => absurd hs hstart

variable {result : SocketResult α}

section

variable (h : s.Inv unsent)

include h

theorem Inv.receive (hthread : s.thread = .receiving) (hs : s.receive result = some s') :
    s'.Inv unsent := by
  have hp : s.platform = .posix := h.posix (by rw [hthread]; rfl)
  have hne : s.thread ≠ .ended := by simp [hthread]
  have ho := h.isOpen hne
  simp only [DatagramSocket.receive] at hs
  by_cases hcan : s.canReadSocket = true ∧ s.device.readBuffer.isFull = false
  · rw [if_pos hcan] at hs
    cases result with
    | done => cases hs
    | received datagram =>
      simp only at hs
      split_ifs at hs
      cases hs
      have hopen := (BufferedRun.addToReadBuffer_framed s.device datagram.data datagram.params).1
      exact h.posixStep hp hne _ _ (h.carries.receive ho datagram) hopen (by rw [hthread]; rfl)
        (by simp [hthread]) (Or.inl (by simp [hthread]))
    | wouldBlock =>
      cases hs
      exact h.posixStep hp hne false _ h.carries rfl (by rw [hthread]; rfl) (by simp [hthread])
        (Or.inl (by simp [hthread]))
    | error =>
      cases hs
      exact h.over (h.carries.events _)
  · rw [if_neg hcan] at hs
    cases hs
    exact h.posixStep hp hne _ _ h.carries rfl rfl DatagramPc.noConfusion
      (Or.inl DatagramPc.noConfusion)

/-- The block that is there, or the first datagram if there is none. -/
theorem Inv.nextBlock (hp : s.platform = .posix) (hne : s.thread ≠ .ended) :
    ∃ rest, Carries s.takeBlock.device s.unread rest ∧ s.takeBlock.device.isOpen = true ∧
      ((s.takeBlock.block.params = [] ∧ s.takeBlock.block.data = [] ∧ rest = [] ∧
          s.accepted = s.sent) ∨
        s.takeBlock.block.params ≠ [] ∧ s.accepted = s.sent ++ s.takeBlock.block :: rest) ∧
      (s.block.data = [] → (∀ m ∈ s.device.writeMetaList.head?, m.dataSize ≠ 0) →
        s.takeBlock.block.params ≠ [] → s.takeBlock.block.data ≠ []) ∧
      (s.block.data ≠ [] → s.takeBlock.block.data ≠ []) := by
  have hflow := h.flow hne
  by_cases hblock : s.block.data = []
  · have hpending : s.pending = [] := by rw [pending_posix hp,if_pos hblock]
    obtain ⟨hcarries,htaken,hopen,hempty,hcons⟩ := h.takeBlock hne hblock hpending
    rw [hpending,List.append_nil] at hflow
    refine ⟨unsent.tail,hcarries,hopen,?_,fun _ hmetas hparams => ?_,fun hne => absurd hblock hne⟩
    · by_cases hnil : unsent = []
      · refine Or.inl ⟨hempty.mpr hnil,?_,by rw [hnil]; rfl,by rw [hflow,hnil,List.append_nil]⟩
        rw [htaken,hnil]
        rfl
      · refine Or.inr ⟨fun hparams => hnil (hempty.mp hparams),?_⟩
        rw [← hcons hnil]
        exact hflow
    · have hsome : unsent ≠ [] := fun hnil => hparams (hempty.mpr hnil)
      intro hdata
      have hhead := hmetas ⟨s.takeBlock.block.data.length,s.takeBlock.block.params⟩ (by
        rw [h.carries.metas (h.isOpen hne),hcons hsome]
        rfl)
      rw [hdata] at hhead
      exact hhead rfl
  · have hpending : s.pending = [s.block] := by rw [pending_posix hp,if_neg hblock]
    rw [takeBlock_same hblock]
    rw [hpending,List.append_assoc,List.singleton_append] at hflow
    refine ⟨unsent,h.carries,h.isOpen hne,Or.inr ⟨?_,hflow⟩,fun hnil => absurd hnil hblock,
      fun hne => hne⟩
    exact h.addressed s.block (by
      rw [hflow]
      exact List.mem_append_right _ List.mem_cons_self)

theorem Inv.sendTo (hthread : s.thread = .sending)
    (hcare : result = .wouldBlock → s.canWriteSocket = true → s.block.data = [] →
      ∀ m ∈ s.device.writeMetaList.head?, m.dataSize ≠ 0) (hs : s.sendTo result = some s') :
    ∃ unsent', s'.Inv unsent' := by
  have hp : s.platform = .posix := h.posix (by rw [hthread]; rfl)
  have hne : s.thread ≠ .ended := by simp [hthread]
  simp only [DatagramSocket.sendTo] at hs
  by_cases hcan : s.canWriteSocket = true
  swap
  · rw [if_neg hcan] at hs
    cases hs
    exact ⟨unsent,h.posixStep hp hne _ _ (h.carries.events _) rfl rfl DatagramPc.noConfusion
      (Or.inr (by simpa using hcan))⟩
  rw [if_pos hcan] at hs
  obtain ⟨rest,hcarries,hopen,hcases,hnew,hold⟩ := h.nextBlock hp hne
  have hpendingOf : ∀ s' : DatagramSocket α, s'.platform = s.platform →
      s'.pending = if s'.block.data = [] then [] else [s'.block] :=
    fun s' hp' => pending_posix (hp'.trans hp)
  rcases hcases with ⟨hparams,hdata,hrest,hflow⟩ | ⟨hparams,hflow⟩
  · rw [if_pos hparams] at hs
    cases hs
    have hpending : s.takeBlock.finish.pending = [] :=
      (hpendingOf s.takeBlock.finish rfl).trans (if_pos hdata)
    refine ⟨rest,hcarries.events _,h.returned,h.addressed,h.order,?_,fun _ => hopen,nofun,
      fun _ => ?_,fun _ _ _ => hdata,fun _ _ => ⟨hpending,hrest⟩⟩
    · show DatagramPc.runsOn _ .waiting = true
      rfl
    · rw [hpending,hrest,List.append_nil,List.append_nil]
      exact hflow
  · rw [if_neg hparams] at hs
    have hthread' : s.takeBlock.thread ≠ .waiting := by
      show s.thread ≠ .waiting
      simp [hthread]
    cases result with
    | received datagram => cases hs
    | error =>
      cases hs
      exact ⟨rest,h.over (hcarries.events _)⟩
    | done =>
      cases hs
      have hpending : s.takeBlock.handOver.clearBlock.pending = [] :=
        hpendingOf s.takeBlock.handOver.clearBlock rfl
      refine ⟨rest,hcarries,h.returned,h.addressed,?_,h.runsOn,fun _ => hopen,?_,fun _ => ?_,
        fun _ _ _ => rfl,fun _ hno => absurd (stirs_posix (s := s.takeBlock) hp (Or.inl hthread')) hno⟩
      · show s.sent ++ [s.takeBlock.block] <+: s.accepted
        exact ⟨rest,by rw [hflow]; simp⟩
      · intro hstart
        exact absurd (hthread.symm.trans hstart) DatagramPc.noConfusion
      · rw [hpending]
        show s.accepted = s.sent ++ [s.takeBlock.block] ++ [] ++ rest
        rw [hflow]
        simp
    | wouldBlock =>
      cases hs
      have hdata : s.takeBlock.block.data ≠ [] := by
        by_cases hblock : s.block.data = []
        · exact hnew hblock (hcare rfl hcan hblock) hparams
        · exact hold hblock
      have hpending : pending { s.takeBlock with canWriteSocket := false } =
          [s.takeBlock.block] :=
        (hpendingOf { s.takeBlock with canWriteSocket := false } rfl).trans (if_neg hdata)
      refine ⟨rest,hcarries,h.returned,h.addressed,h.order,h.runsOn,fun _ => hopen,fun _ => rfl,
        fun _ => ?_,fun _ _ hnil => ?_,
        fun _ hno => absurd (stirs_posix (s := { s.takeBlock with canWriteSocket := false }) hp
          (Or.inr rfl)) hno⟩
      · rw [hpending]
        show s.accepted = s.sent ++ [s.takeBlock.block] ++ rest
        rw [hflow,List.append_cons]
      · rw [hpending] at hnil
        cases hnil

theorem Inv.winStep (hp : s.platform = .win) (hne : s.thread ≠ .ended) {unread : List (Block α)}
    {pc : DatagramPc} {woken : Bool} {activeRecvs : List (Option (Block α))}
    (hcarries : Carries d unread unsent) (hopen : d.isOpen = s.device.isOpen)
    (hpc : pc.runsOn .win = true) (hstart : pc ≠ .starting) (hbefore : s.pending = [])
    (hafter : ∀ full, pc ≠ .submitting full) (hrest : pc = .waiting ∨ (∃ full, pc = .posting full) →
      woken = true ∨ s.suspended = true ∨ s.isSendingSocket = true ∨ ¬ s.Stirs) :
    Inv { s with device := d, unread, woken, activeRecvs, thread := pc } unsent := by
  obtain ⟨s',hs'⟩ : ∃ s' : DatagramSocket α, s' = { s with
    device := d, unread, woken, activeRecvs, thread := pc } := ⟨_,rfl⟩
  have hp' : s'.platform = .win := by rw [hs']; exact hp
  have hpending : s'.pending = s.pending := by
    rw [hbefore]
    refine pending_win hp' ?_
    rw [hs']
    exact hafter
  have hstirs : ¬ s'.Stirs → ¬ s.Stirs := by
    intro hno
    rw [stirs_win hp',hs'] at hno
    simp only [not_or] at hno
    by_cases hquiet : pc = .waiting ∨ ∃ full, pc = .posting full
    · rcases hrest hquiet with hk | hk | hk | hk
      · exact absurd hk hno.1
      · exact absurd hk hno.2.1
      · exact absurd hk hno.2.2.1
      · exact hk
    · exfalso
      cases pc with
      | waiting => exact hquiet (Or.inl rfl)
      | posting full => exact hquiet (Or.inr ⟨full,rfl⟩)
      | submitting full => exact hafter full rfl
      | starting | locking | receiving | sending | collecting | checking | ended =>
        exact hno.2.2.2 trivial
  rw [← hs']
  refine h.congr ?_ ?_ ?_ ?_ ?_ (fun _ => hne) ?_ (fun _ => hpending) ?_ fun _ => hstirs
  all_goals rw [hs']
  · exact hcarries
  · exact h.returned
  · rw [hp]
    exact hpc
  · exact hopen
  · exact fun hs => absurd hs hstart

theorem Inv.collect (hthread : s.thread = .collecting) (hs : s.collect result = some s') :
    s'.Inv unsent := by
  have hp : s.platform = .win := h.win (by rw [hthread]; rfl)
  have hne : s.thread ≠ .ended := by simp [hthread]
  have hbefore : s.pending = [] := pending_win hp (by simp [hthread])
  have hrest : ∀ {pc : DatagramPc} {P : Prop}, pc ≠ .waiting → (∀ full, pc ≠ .posting full) →
      pc = .waiting ∨ (∃ full, pc = .posting full) → P := by
    rintro pc P hw hpost (hk | ⟨full,hk⟩)
    · exact absurd hk hw
    · exact absurd hk (hpost full)
  simp only [DatagramSocket.collect] at hs
  split at hs
  · next datagram rest hrecvs =>
    cases result with
    | done =>
      cases hs
      have hopen := (BufferedRun.addToReadBuffer_framed s.device datagram.data datagram.params).1
      have hstep : Inv { s.addToReadBuffer datagram with
          activeRecvs := rest, thread := .collecting } unsent :=
        h.winStep hp hne (h.carries.receive (h.isOpen hne) datagram) hopen rfl
          DatagramPc.noConfusion hbefore (fun _ => DatagramPc.noConfusion)
          (hrest DatagramPc.noConfusion fun _ => DatagramPc.noConfusion)
      rw [← hthread] at hstep
      exact hstep
    | error =>
      cases hs
      exact h.over (h.carries.events _)
    | received datagram => cases hs
    | wouldBlock => cases hs
  · cases hs
    exact h.winStep hp hne h.carries rfl rfl DatagramPc.noConfusion hbefore
      (fun _ => DatagramPc.noConfusion)
      (hrest DatagramPc.noConfusion fun _ => DatagramPc.noConfusion)

theorem Inv.check (hthread : s.thread = .checking) (hs : s.check result = some s') :
    s'.Inv unsent := by
  have hp : s.platform = .win := h.win (by rw [hthread]; rfl)
  have hne : s.thread ≠ .ended := by simp [hthread]
  have hbefore : s.pending = [] := pending_win hp (by simp [hthread])
  have hflow := h.flow hne
  rw [hbefore] at hflow
  simp only [DatagramSocket.check] at hs
  by_cases hdone : s.isSendingSocket = true ∧ s.sendCompleted = true
  · rw [if_pos hdone] at hs
    cases result with
    | done =>
      cases hs
      have hpending : pending { s.clearBlock with
          sendCompleted := false, isSendingSocket := false, thread := .locking } = [] :=
        pending_win (s := { s.clearBlock with
          sendCompleted := false, isSendingSocket := false, thread := .locking }) hp
          fun _ => DatagramPc.noConfusion
      refine ⟨h.carries,h.returned,h.addressed,h.order,rfl,fun _ => h.isOpen hne,nofun,fun _ => ?_,
        fun _ _ _ => rfl,fun _ hno => absurd ?_ hno⟩
      · rw [hpending]
        exact hflow
      · exact (stirs_win (s := { s.clearBlock with
          sendCompleted := false, isSendingSocket := false, thread := .locking }) hp).mpr
            (Or.inr (Or.inr (Or.inr trivial)))
    | error =>
      cases hs
      exact h.over (h.carries.events _)
    | received datagram => cases hs
    | wouldBlock => cases hs
  · rw [if_neg hdone] at hs
    cases hs
    exact h.winStep hp hne h.carries rfl rfl DatagramPc.noConfusion hbefore
      (fun _ => DatagramPc.noConfusion) (by rintro (hk | ⟨full,hk⟩) <;> cases hk)

theorem Inv.submit (hthread : s.thread = .submitting full) (hs : s.submit full result = some s') :
    s'.Inv unsent := by
  have hp : s.platform = .win := h.win (by rw [hthread]; rfl)
  have hne : s.thread ≠ .ended := by simp [hthread]
  have hflow := h.flow hne
  rw [pending_submitting hp hthread] at hflow
  simp only [DatagramSocket.submit] at hs
  by_cases hsend : s.isSendingSocket = false ∧ s.block.params ≠ []
  · have hneither : ¬ (s.isSendingSocket = true ∨ s.block.params = []) := by
      rw [not_or]
      exact ⟨by simp [hsend.1],hsend.2⟩
    rw [if_neg hneither] at hflow
    rw [if_pos hsend] at hs
    cases result with
    | done =>
      cases hs
      have hpending : pending { s.handOver with
          isSendingSocket := true, thread := .posting full } = [] :=
        pending_win (s := { s.handOver with
          isSendingSocket := true, thread := .posting full }) hp fun _ => DatagramPc.noConfusion
      refine ⟨h.carries,h.returned,h.addressed,?_,?_,fun _ => h.isOpen hne,nofun,fun _ => ?_,
        fun _ hno => absurd hno Bool.noConfusion,fun _ hno => absurd ?_ hno⟩
      · show s.sent ++ [s.block] <+: s.accepted
        exact ⟨unsent,hflow.symm⟩
      · show DatagramPc.runsOn s.platform (.posting full) = true
        rw [hp]
        rfl
      · rw [hpending,List.append_nil]
        exact hflow
      · exact (stirs_win (s := { s.handOver with
          isSendingSocket := true, thread := .posting full }) hp).mpr
            (Or.inr (Or.inr (Or.inl rfl)))
    | error =>
      cases hs
      exact h.over (h.carries.events _)
    | received datagram => cases hs
    | wouldBlock => cases hs
  · have heither : s.isSendingSocket = true ∨ s.block.params = [] := by
      by_contra hno
      rw [not_or] at hno
      exact hsend ⟨by simpa using hno.1,hno.2⟩
    rw [if_neg hsend] at hs
    cases hs
    have hbefore : s.pending = [] := by rw [pending_submitting hp hthread,if_pos heither]
    refine h.winStep hp hne h.carries rfl rfl DatagramPc.noConfusion hbefore
      (fun _ => DatagramPc.noConfusion) fun _ => ?_
    rcases heither with hsending | hparams
    · exact Or.inr (Or.inr (Or.inl hsending))
    · by_cases hstirs : s.Stirs
      · rw [stirs_win hp,hthread] at hstirs
        rcases hstirs with hk | hk | hk | hk
        · exact Or.inl hk
        · exact Or.inr (Or.inl hk)
        · exact Or.inr (Or.inr (Or.inl hk))
        · exact absurd hparams hk
      · exact Or.inr (Or.inr (Or.inr hstirs))

theorem Inv.post (hthread : s.thread = .posting full) (hs : s.post full result = some s') :
    s'.Inv unsent := by
  have hp : s.platform = .win := h.win (by rw [hthread]; rfl)
  have hne : s.thread ≠ .ended := by simp [hthread]
  have hbefore : s.pending = [] := pending_win hp (by simp [hthread])
  have hrest : DatagramPc.waiting = .waiting ∨ (∃ full, DatagramPc.waiting = .posting full) →
      s.woken = true ∨ s.suspended = true ∨ s.isSendingSocket = true ∨ ¬ s.Stirs := by
    intro _
    by_cases hstirs : s.Stirs
    · rw [stirs_win hp,hthread] at hstirs
      rcases hstirs with hk | hk | hk | hk
      · exact Or.inl hk
      · exact Or.inr (Or.inl hk)
      · exact Or.inr (Or.inr (Or.inl hk))
      · exact hk.elim
    · exact Or.inr (Or.inr (Or.inr hstirs))
  simp only [DatagramSocket.post] at hs
  by_cases hroom : full = false ∧ s.activeRecvs.length < s.readParallelism
  · rw [if_pos hroom] at hs
    cases result with
    | done =>
      cases hs
      exact h.winStep hp hne h.carries rfl rfl DatagramPc.noConfusion hbefore
        (fun _ => DatagramPc.noConfusion) hrest
    | error =>
      cases hs
      exact h.over (h.carries.events _)
    | received datagram => cases hs
    | wouldBlock => cases hs
  · rw [if_neg hroom] at hs
    cases hs
    exact h.winStep hp hne h.carries rfl rfl DatagramPc.noConfusion hbefore
      (fun _ => DatagramPc.noConfusion) hrest

/-- The pass for Windows takes a block under its lock. -/
theorem Inv.lockWin (hp : s.platform = .win) (hthread : s.thread = .locking)
    (hcare : s.isSendingSocket = true → s.block.data = [] → s.device.writeMetaList = [])
    {events : Events} {block : Block α} (hblock : block = (s.setActiveEvents 0).takeBlock.block)
    (hd : d = { (s.setActiveEvents 0).takeBlock.device with activeEvents := events }) :
    ∃ unsent', Inv { s with device := d, block, thread := .submitting full } unsent' := by
  have hne : s.thread ≠ .ended := by simp [hthread]
  have hpending : s.pending = [] := pending_win hp (by simp [hthread])
  have hflow := h.flow hne
  rw [hpending,List.append_nil] at hflow
  have hzero : (s.setActiveEvents 0).Inv unsent :=
    h.congr (h.carries.events 0) h.returned rfl h.runsOn rfl id h.fresh (fun _ => rfl) rfl
      fun _ => id
  subst hblock hd
  obtain ⟨s',hs'⟩ : ∃ s' : DatagramSocket α, s' = { s with
    device := { (s.setActiveEvents 0).takeBlock.device with activeEvents := events }
    block := (s.setActiveEvents 0).takeBlock.block
    thread := .submitting full } := ⟨_,rfl⟩
  have hp' : s'.platform = .win := by rw [hs']; exact hp
  have hthread' : s'.thread = .submitting full := by rw [hs']
  have hwin := pending_submitting hp' hthread'
  have hstirs := stirs_win hp'
  rw [hs'] at hwin hstirs
  have hruns : DatagramPc.runsOn s.platform (.submitting full) = true := by rw [hp]; rfl
  by_cases hdata : s.block.data = []
  · obtain ⟨hcarries,htaken,hopen,hparams,hcons⟩ := hzero.takeBlock hne hdata hpending
    by_cases hsending : s.isSendingSocket = true
    · have hnil : unsent = [] := by
        have hmetas := h.carries.metas (h.isOpen hne)
        rw [hcare hsending hdata] at hmetas
        exact List.map_eq_nil_iff.mp hmetas.symm
      rw [if_pos (Or.inl hsending)] at hwin
      refine ⟨unsent.tail,hcarries.events _,h.returned,h.addressed,h.order,hruns,fun _ => hopen,
        nofun,fun _ => ?_,fun _ hno => ?_,fun _ hno => absurd ?_ hno⟩
      · rw [hwin,hnil]
        rw [hnil] at hflow
        simpa using hflow
      · exact absurd (hsending.symm.trans hno) Bool.noConfusion
      · exact hstirs.mpr (Or.inr (Or.inr (Or.inl hsending)))
    · by_cases hnil : unsent = []
      · have hempty := hparams.mpr hnil
        rw [if_pos (Or.inr hempty)] at hwin
        refine ⟨unsent.tail,hcarries.events _,h.returned,h.addressed,h.order,hruns,fun _ => hopen,
          nofun,fun _ => ?_,fun _ _ _ => ?_,fun _ _ => ⟨hwin,by rw [hnil]; rfl⟩⟩
        · rw [hwin,hnil]
          rw [hnil] at hflow
          simpa using hflow
        · show (s.setActiveEvents 0).takeBlock.block.data = []
          rw [htaken,hnil]
          rfl
      · have hsome : (s.setActiveEvents 0).takeBlock.block.params ≠ [] :=
          fun hk => hnil (hparams.mp hk)
        rw [if_neg (not_or.mpr ⟨hsending,hsome⟩)] at hwin
        refine ⟨unsent.tail,hcarries.events _,h.returned,h.addressed,h.order,hruns,fun _ => hopen,
          nofun,fun _ => ?_,fun _ _ hk => ?_,fun _ hno => absurd ?_ hno⟩
        · rw [hwin]
          show s.accepted = s.sent ++ [_] ++ unsent.tail
          rw [List.append_assoc,List.singleton_append,← hcons hnil]
          exact hflow
        · rw [hwin] at hk
          cases hk
        · exact hstirs.mpr (Or.inr (Or.inr (Or.inr hsome)))
  · -- a block is there only while it is being sent
    have hsending : s.isSendingSocket = true := by
      by_contra hno
      exact hdata (h.idle hne (by simpa using hno) hpending)
    have hsame : (s.setActiveEvents 0).takeBlock = s.setActiveEvents 0 := takeBlock_same hdata
    simp only [hsame] at hwin hstirs ⊢
    rw [if_pos (Or.inl hsending)] at hwin
    refine ⟨unsent,(h.carries.events 0).events _,h.returned,h.addressed,h.order,hruns,
      fun _ => h.isOpen hne,nofun,fun _ => ?_,fun _ hno => ?_,fun _ hno => absurd ?_ hno⟩
    · rw [hwin,List.append_nil]
      exact hflow
    · exact absurd (hsending.symm.trans hno) Bool.noConfusion
    · exact hstirs.mpr (Or.inr (Or.inr (Or.inl hsending)))

theorem Inv.lock (hthread : s.thread = .locking)
    (hcare : s.isSendingSocket = true → s.block.data = [] → s.device.writeMetaList = []) :
    ∃ unsent', s.lock.Inv unsent' := by
  have hne : s.thread ≠ .ended := by simp [hthread]
  unfold DatagramSocket.lock
  by_cases hclosing : s.closing = true
  · rw [if_pos hclosing]
    exact ⟨unsent,h.over h.carries⟩
  rw [if_neg hclosing]
  by_cases hsusp : s.suspended = true
  · rw [if_pos hsusp]
    exact ⟨unsent,h.congr h.carries h.returned rfl rfl rfl (fun _ => hne) nofun
      (fun _ => pending_eq rfl rfl (by simp [hthread]) fun _ => DatagramPc.noConfusion) rfl
      fun _ hno => absurd (Or.inr (Or.inl hsusp)) hno⟩
  rw [if_neg hsusp]
  cases hp : s.platform with
  | posix =>
    exact ⟨unsent,h.posixStep hp hne _ _ (h.carries.events 0) rfl rfl DatagramPc.noConfusion
      (Or.inl DatagramPc.noConfusion)⟩
  | win => exact h.lockWin hp hthread hcare rfl rfl

theorem Inv.start (hthread : s.thread = .starting) (hs : s.start = some s') :
    s'.Inv unsent := by
  have hne : s.thread ≠ .ended := by simp [hthread]
  simp only [DatagramSocket.start] at hs
  split_ifs at hs
  · cases hs
    exact h.over h.carries
  cases hs
  refine h.congr h.carries h.returned rfl rfl rfl (fun _ => hne) nofun
    (fun _ => pending_eq rfl rfl (by simp [hthread]) fun _ => DatagramPc.noConfusion) rfl
    fun _ hno => absurd ?_ hno
  cases hp : s.platform with
  | posix => exact stirs_posix rfl (Or.inr (h.fresh hthread))
  | win => exact Or.inl (by simp)

theorem Inv.select {readable writable : Bool} (hs : s.select readable writable = some s') :
    s'.Inv unsent := by
  unfold DatagramSocket.select at hs
  split_ifs at hs with hnot
  cases hs
  simp only [not_or,not_not] at hnot
  obtain ⟨hwin,hthread,-⟩ := hnot
  have hp : s.platform = .posix := by
    cases hp : s.platform with
    | win => exact absurd hp hwin
    | posix => rfl
  have hne : s.thread ≠ .ended := by simp [hthread]
  refine h.congr h.carries h.returned rfl rfl rfl (fun _ => hne) nofun
    (fun _ => pending_eq rfl rfl (by simp [hthread]) fun _ => DatagramPc.noConfusion) rfl
    fun _ hno => absurd (stirs_posix ?_ (Or.inl ?_)) hno
  · exact hp
  · exact DatagramPc.noConfusion

theorem Inv.wait (hthread : s.thread = .waiting) (hs : s.waitForMultipleObjects = some s') :
    s'.Inv unsent := by
  have hne : s.thread ≠ .ended := by simp [hthread]
  unfold waitForMultipleObjects at hs
  split_ifs at hs with hposix
  all_goals
    have hp : s.platform = .win := by
      cases hp : s.platform with
      | win => rfl
      | posix => exact absurd hp hposix
    cases hs
    exact h.winStep hp hne h.carries rfl rfl DatagramPc.noConfusion
      (pending_win hp (by simp [hthread])) (fun _ => DatagramPc.noConfusion)
      (by rintro (hk | ⟨full,hk⟩) <;> cases hk)

theorem Inv.threadStep (hcare : s.Careful (.thread result)) (hs : s.threadStep result = some s') :
    ∃ unsent', s'.Inv unsent' := by
  obtain ⟨hempty,htake⟩ := hcare
  unfold DatagramSocket.threadStep at hs
  cases hthread : s.thread with
  | starting =>
    simp only [hthread] at hs
    exact ⟨unsent,h.start hthread hs⟩
  | waiting =>
    simp only [hthread] at hs
    exact ⟨unsent,h.wait hthread hs⟩
  | locking =>
    simp only [hthread] at hs
    cases hs
    exact h.lock hthread (htake hthread)
  | receiving =>
    simp only [hthread] at hs
    exact ⟨unsent,h.receive hthread hs⟩
  | sending =>
    simp only [hthread] at hs
    exact h.sendTo hthread (fun hr => hempty hr hthread) hs
  | collecting =>
    simp only [hthread] at hs
    exact ⟨unsent,h.collect hthread hs⟩
  | checking =>
    simp only [hthread] at hs
    exact ⟨unsent,h.check hthread hs⟩
  | submitting full =>
    simp only [hthread] at hs
    exact ⟨unsent,h.submit hthread hs⟩
  | posting full =>
    simp only [hthread] at hs
    exact ⟨unsent,h.post hthread hs⟩
  | ended =>
    simp only [hthread] at hs
    cases hs

theorem Inv.step (a : DatagramAction α) (hcare : s.Careful a) (hs : s.step a = some s') :
    ∃ unsent', s'.Inv unsent' := by
  cases a with
  | readDatagram size hasAddress =>
    simp only [DatagramSocket.step] at hs
    split_ifs at hs
    cases hs
    exact ⟨unsent,h.readDatagram hcare⟩
  | writeDatagram p address =>
    simp only [DatagramSocket.step] at hs
    split_ifs at hs
    cases hs
    exact h.writeDatagram hcare
  | close =>
    simp only [DatagramSocket.step] at hs
    split_ifs at hs
    · cases hs
      exact ⟨unsent,h.congr h.carries h.returned rfl h.runsOn rfl id h.fresh (fun _ => rfl) rfl
        fun _ hno => absurd (Or.inl rfl) hno⟩
    · cases hs
      exact ⟨unsent,h⟩
  | closed =>
    simp only [DatagramSocket.step] at hs
    split_ifs at hs with hended
    cases hs
    refine ⟨unsent,h.carries.close _,h.returned,h.addressed,h.order,h.runsOn,?_,h.fresh,?_,?_,?_⟩
    all_goals exact fun hne => absurd hended.2 hne
  | unsuspend =>
    simp only [DatagramSocket.step] at hs
    split_ifs at hs
    cases hs
    exact ⟨unsent,h.congr h.carries h.returned rfl h.runsOn rfl id h.fresh (fun _ => rfl) rfl
      fun _ hno => absurd (Or.inl rfl) hno⟩
  | select readable writable => exact ⟨unsent,h.select hs⟩
  | thread result => exact h.threadStep hcare hs
  | recvCompleted i datagram =>
    simp only [DatagramSocket.step] at hs
    split_ifs at hs
    cases hs
    exact ⟨unsent,h.congr h.carries h.returned rfl h.runsOn rfl id h.fresh (fun _ => rfl) rfl
      fun _ => id⟩
  | sendCompleted =>
    simp only [DatagramSocket.step] at hs
    split_ifs at hs
    cases hs
    exact ⟨unsent,h.congr h.carries h.returned rfl h.runsOn rfl id h.fresh (fun _ => rfl) rfl
      fun _ => id⟩

theorem Inv.sound : s.Sound where
  sent := h.order
  sentAll hthread hno := by
    have hne : s.thread ≠ .ended := by simp [hthread]
    obtain ⟨hpending,hunsent⟩ := h.rest hne hno
    have hflow := h.flow hne
    rw [hpending,hunsent,List.append_nil,List.append_nil] at hflow
    exact hflow.symm
  returned := h.returned

end

/-- In every run whose steps are careful datagrams are sent and read in order, each once, whole and
with their addresses. -/
theorem datagrams_sound (platform : Platform) (family readParallelism readBlockSize : ℕ)
    (readBufferSize writeBufferSize : ℕ+) (isSuspended : Bool) {as : List (DatagramAction α)}
    (h : Run.Along step Careful (initial platform family readParallelism readBlockSize
      readBufferSize writeBufferSize isSuspended) as) :
    Run.Always step Sound (initial platform family readParallelism readBlockSize readBufferSize
      writeBufferSize isSuspended) as :=
  Run.always_of_along (I := fun s => ∃ unsent, Inv s unsent) (fun _ ⟨_,hi⟩ => hi.sound)
    (fun _ a _ ⟨_,hi⟩ hc hs => hi.step a hc hs) ⟨[],initial_inv⟩ h

/-- A datagram that has to wait for the socket, and one that is received and read. -/
theorem datagrams_sound_retried :
    Run.Always step Sound (initial .posix 2 1 8 4 4 false : DatagramSocket ℕ)
      [.writeDatagram [1,2] ⟨2,[9],by simp⟩,.thread .done,.select false true,.thread .done,
        .thread .done,.thread .wouldBlock,.thread .done,.select true true,.thread .done,
        .thread (.received ⟨[7],[9]⟩),.thread .wouldBlock,.thread .done,.thread .done,.thread .done,
        .readDatagram 4 true] :=
  datagrams_sound .posix 2 1 8 4 4 false <|
    .cons rfl (fun _ _ _ => ⟨nofun,fun _ => rfl⟩) <| .cons rfl ⟨nofun,nofun⟩ <|
    .cons rfl trivial <| .cons rfl ⟨nofun,nofun⟩ <| .cons rfl ⟨nofun,nofun⟩ <|
    .cons rfl ⟨fun _ _ _ _ m hm => by cases hm; decide,nofun⟩ <| .cons rfl ⟨nofun,nofun⟩ <|
    .cons rfl trivial <| .cons rfl ⟨nofun,nofun⟩ <| .cons rfl ⟨nofun,nofun⟩ <|
    .cons rfl ⟨nofun,nofun⟩ <| .cons rfl ⟨nofun,nofun⟩ <| .cons rfl ⟨nofun,nofun⟩ <|
    .cons rfl ⟨nofun,nofun⟩ <|
    .cons rfl ⟨fun _ => ⟨rfl,List.cons_ne_nil _ _⟩,fun _ m hm => by cases hm; decide⟩ trivial

/-- An empty datagram that has to wait for the socket is not sent. -/
theorem not_sound_empty_datagram :
    ¬ Run.Always step Sound (initial .posix 2 1 8 4 4 false : DatagramSocket ℕ)
      [.writeDatagram [] ⟨2,[9],by simp⟩,.thread .done,.select false true,.thread .done,
        .thread .done,.thread .wouldBlock,.thread .done,.select false true,.thread .done,
        .thread .done,.thread .done] := by
  intro h
  have hall := (h.last rfl).sentAll rfl (by
    rintro (hk | hk | hk | hk)
    · cases hk
    · cases hk
    · exact hk rfl
    · cases hk)
  exact absurd hall (by decide)

end DatagramSocket
end Jancy.Io
