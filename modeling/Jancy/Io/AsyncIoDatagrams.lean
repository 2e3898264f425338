import Jancy.Io.AsyncIoDeviceRun

/-! A device for datagrams against two queues of them. -/
namespace Jancy.Io

variable {α : Type}

/-- An open device holds the datagrams that were not read and those that were not sent. What
overflows from the write buffer belongs to one datagram, or to the last ones that have bytes. -/
structure Carries (d : AsyncIoDevice α) (unread unsent : List (Block α)) : Prop where
  run : BufferedRun.Inv ⟨d,.blocks unread,.blocks unsent,[],[]⟩
  mode : d.mode = .ofDatagram
  fits : ∀ l b r, unsent = l ++ b :: r →
    (BlockFifo.bytesOf (l ++ [b])).length ≤ d.writeBuffer.data.length ∨ BlockFifo.bytesOf r = []

theorem AsyncIoDevice.bufferedWrite_nothing {d : AsyncIoDevice α} (p params : List α)
    (hnone : d.isOpen = false ∨ d.writeBuffer.isFull = true) :
    (d.bufferedWrite p params).2 = d ∧ (d.bufferedWrite p params).1.result.getD 0 = 0 := by
  unfold AsyncIoDevice.bufferedWrite
  by_cases ho : d.isOpen = false
  · rw [if_pos ho]
    exact ⟨rfl,rfl⟩
  · rw [if_neg ho,addToWriteBuffer,if_pos (hnone.resolve_left ho)]
    exact ⟨rfl,rfl⟩

namespace Carries

variable {d : AsyncIoDevice α} {unread unsent : List (Block α)}

theorem opened (readSize writeSize : ℕ+) :
    Carries ((AsyncIoDevice.ofSizes readSize writeSize).open' .ofDatagram : AsyncIoDevice α) []
      [] where
  run := by
    have hinitial : (BufferedRun.initial readSize writeSize : BufferedRun α).Inv :=
      BufferedRun.initial_inv
    have h := hinitial.open .ofDatagram ⟨rfl,rfl,rfl⟩
    exact ⟨rfl,h.reads,h.writes,h.readKeeps,h.writeKeeps,h.readFull,h.writeOverflow⟩
  mode := rfl
  fits l b r h := by
    cases l
    · cases h
    · cases h

section

variable (h : Carries d unread unsent)

include h

theorem events (activeEvents : Events) :
    Carries { d with activeEvents } unread unsent :=
  ⟨⟨rfl,h.run.reads,h.run.writes,h.run.readKeeps,h.run.writeKeeps,h.run.readFull,
    h.run.writeOverflow⟩,h.mode,h.fits⟩

theorem close (platform : Platform) :
    Carries (d.close platform) unread unsent := by
  refine ⟨h.run.close,?_,?_⟩
  · cases platform <;> exact h.mode
  · cases platform <;> exact h.fits

theorem metas (ho : d.isOpen = true) :
    d.writeMetaList = unsent.map fun b => ⟨b.data.length,b.params⟩ := (h.run.writes ho).2

theorem readMetas (ho : d.isOpen = true) :
    d.readMetaList = unread.map fun b => ⟨b.data.length,b.params⟩ := (h.run.reads ho).2

theorem receive (ho : d.isOpen = true) (b : Block α) :
    Carries (d.addToReadBuffer b.data b.params) (unread ++ [b]) unsent := by
  have hrun := h.run.addToReadBuffer ho b.data b.params
  obtain ⟨-,hmode,-⟩ := BufferedRun.addToReadBuffer_framed d b.data b.params
  refine ⟨hrun,hmode.trans h.mode,?_⟩
  have hbuffer : (d.addToReadBuffer b.data b.params).writeBuffer = d.writeBuffer := by
    unfold AsyncIoDevice.addToReadBuffer
    split_ifs <;> rfl
  rw [hbuffer]
  exact h.fits

theorem read (ho : d.isOpen = true) {size : ℕ}
    (hroom : ∀ m ∈ d.readMetaList.head?, m.dataSize ≤ size) :
    Carries (d.bufferedRead size).2 unread.tail unsent ∧
      (d.bufferedRead size).1 = .ofBlock ⟨(unread.head?.elim [] Block.data).take size,
        unread.head?.elim [] Block.params⟩ ∧
      (d.bufferedRead size).2.isOpen = true := by
  have hdatagram : d.mode.datagram = true := by rw [h.mode]; rfl
  have hrun := h.run.bufferedRead ho size fun _ => hroom
  obtain ⟨-,hopen,hmode,-⟩ := BufferedRun.bufferedRead_open ho size
  have hret := hrun.returned
  have hbuffer : (d.bufferedRead size).2.writeBuffer = d.writeBuffer := by
    unfold AsyncIoDevice.bufferedRead
    rw [if_neg (by simp [ho])]
  have hqueue : ((BlockFifo.blocks unread).take true size).1 =
      ⟨(unread.head?.elim [] Block.data).take size,unread.head?.elim [] Block.params⟩ ∧
      ((BlockFifo.blocks unread).take true size).2 = .blocks unread.tail := by
    cases unread with
    | nil => exact ⟨by simp [BlockFifo.take],rfl⟩
    | cons b l => exact ⟨rfl,by simp [BlockFifo.take]⟩
  simp only [hdatagram,hqueue] at hrun hret
  refine ⟨⟨⟨rfl,hrun.reads,hrun.writes,hrun.readKeeps,hrun.writeKeeps,hrun.readFull,
    hrun.writeOverflow⟩,hmode.trans h.mode,?_⟩,?_,hopen⟩
  · rw [hbuffer]
    exact h.fits
  · exact List.singleton_injective hret

/-- A datagram is accepted as a whole, behind what there is. -/
theorem write (ho : d.isOpen = true) (hroom : d.writeBuffer.isFull = false) (p params : List α)
    (hover : p ≠ [] → d.writeOverflowBuffer = []) :
    Carries (d.bufferedWrite p params).2 unread (unsent ++ [⟨p,params⟩]) ∧
      (d.bufferedWrite p params).1.result = some p.length := by
  have hdatagram : d.mode.datagram = true := by rw [h.mode]; rfl
  have hput : BufferedRun.putBlock d p params = ⟨p,params⟩ := by
    simp [BufferedRun.putBlock,AsyncIoDevice.excess,hdatagram]
  have hseam : p.take d.writeBuffer.space ++ d.writeOverflowBuffer =
      d.writeOverflowBuffer ++ p.take d.writeBuffer.space := by
    by_cases hp : p = []
    · simp [hp]
    · simp [hover hp]
  have hrun := @BufferedRun.Inv.bufferedWrite α _ p params h.run ho hroom hseam
  have hresult := @AsyncIoDevice.addToWriteBuffer_result α d p params hroom
  have heq : d.bufferedWrite p params =
      (⟨some (d.addToWriteBuffer p params).1,[],[]⟩,(d.addToWriteBuffer p params).2) := by
    unfold AsyncIoDevice.bufferedWrite
    rw [if_neg (by simp [ho])]
  have hmain : (d.addToWriteBuffer p params).2.writeBuffer = (d.writeBuffer.write p).2 := by
    unfold AsyncIoDevice.addToWriteBuffer
    rw [hroom,if_neg Bool.false_ne_true]
  have hlonger : d.writeBuffer.data.length ≤
      (d.addToWriteBuffer p params).2.writeBuffer.data.length := by
    rw [hmain,CircularBuffer.write_data,List.length_append]
    omega
  rw [heq]
  simp only [hput] at hrun
  refine ⟨⟨hrun,?_,fun l b r hsplit => ?_⟩,?_⟩
  · exact (BufferedRun.addToWriteBuffer_framed d p params).mode.trans h.mode
  · rcases List.eq_nil_or_concat r with rfl | ⟨r',last,rfl⟩
    · exact Or.inr rfl
    · rw [List.concat_eq_append,← List.cons_append,← List.append_assoc] at hsplit
      obtain ⟨hunsent,hlast⟩ := List.append_inj' hsplit rfl
      cases hlast
      rcases h.fits l b r' hunsent with hle | hnil
      · exact Or.inl (hle.trans hlonger)
      · by_cases hp : p = []
        · refine Or.inr ?_
          rw [List.concat_eq_append,BlockFifo.bytesOf_append,hnil,hp]
          rfl
        · refine Or.inl (le_trans ?_ hlonger)
          have hheld := (h.run.writes ho).1
          have hheld : d.writeBuffer.data ++ d.writeOverflowBuffer = BlockFifo.bytesOf unsent := hheld
          rw [hover hp,List.append_nil,hunsent,List.append_cons,BlockFifo.bytesOf_append,hnil,
            List.append_nil] at hheld
          rw [hheld]
  · show some (d.addToWriteBuffer p params).1 = _
    rw [hresult]
    simp [AsyncIoDevice.excess,hdatagram]

/-- The first datagram is taken, or nothing. -/
theorem take (ho : d.isOpen = true) {block : Block α} (hblock : block.data = []) :
    Carries (d.getNextWriteBlock block).2 unread unsent.tail ∧
      (d.getNextWriteBlock block).1 = unsent.head?.getD ⟨[],[]⟩ ∧
      (d.getNextWriteBlock block).2.isOpen = true := by
  have hmetas := h.metas ho
  have hheld : d.writeBuffer.data ++ d.writeOverflowBuffer = BlockFifo.bytesOf unsent :=
    (h.run.writes ho).1
  have hseam : ∀ m ∈ d.writeMetaList.head?, m.dataSize ≤ d.writeBuffer.data.length ∨
      m.dataSize = d.writeBytesHeld.length := by
    intro m hm
    cases unsent with
    | nil =>
      rw [hmetas] at hm
      cases hm
    | cons b r =>
      rw [hmetas] at hm
      cases hm
      rcases h.fits [] b r rfl with hle | hnil
      · simp only [List.nil_append,BlockFifo.bytesOf_cons,BlockFifo.bytesOf_nil,
          List.append_nil] at hle
        exact Or.inl hle
      · refine Or.inr ?_
        rw [AsyncIoDevice.writeBytesHeld,hheld,BlockFifo.bytesOf_cons,hnil,List.append_nil]
  obtain ⟨hb,hholds⟩ := AsyncIoDevice.getNextWriteBlock_spec hblock (h.run.writes ho) hseam
  have hframed := BufferedRun.getNextWriteBlock_framed d block
  have hqueue : (BlockFifo.blocks unsent).takeBlock =
      (unsent.head?.getD ⟨[],[]⟩,.blocks unsent.tail) := by
    cases unsent
    · rfl
    · rfl
  rw [hqueue] at hb hholds
  have hmain : ∀ b r, unsent = b :: r →
      (d.getNextWriteBlock block).2.writeBuffer.data = d.writeBuffer.data.drop b.data.length := by
    rintro b r rfl
    unfold AsyncIoDevice.getNextWriteBlock
    rw [if_neg (not_not.mpr hblock),hmetas]
    simp only [List.map_cons]
    split_ifs <;> rfl
  refine ⟨⟨h.run.write hframed (by rfl) fun _ => hholds,hframed.mode.trans h.mode,
    fun l b r hsplit => ?_⟩,hb,hframed.isOpen.trans ho⟩
  cases unsent with
  | nil =>
    cases l
    · cases hsplit
    · cases hsplit
  | cons b₀ rest =>
    have hsplit : rest = l ++ b :: r := hsplit
    refine (h.fits (b₀ :: l) b r (by rw [hsplit]; rfl)).imp_left fun hle => ?_
    rw [hmain b₀ rest rfl,List.length_drop]
    rw [List.cons_append,BlockFifo.bytesOf_cons,List.length_append] at hle
    omega

end

end Carries
end Jancy.Io
