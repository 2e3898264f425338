import Jancy.Rt.WeakClosureRun

/-! The field that closures record for their this argument, and what collections and strong pointers
make of it. -/
namespace Jancy.Rt

open Jancy.Ct Holes

variable {T : Type}

namespace ClosureBox

/-- The index in the class type stands for the field with the this argument. For the closure of a
reactor that is its first field. -/
def RecordsThis : ClosureBox T → Prop
  | function capture => capture.object.DesignatesThis (type (function capture)).thisArgFieldIdx
  | property capture => capture.object.DesignatesThis (type (property capture)).thisArgFieldIdx
  | reactor m_reactor => (type (reactor (T := T) m_reactor)).thisArgFieldIdx = some 0

end ClosureBox

namespace Heap

/-- An object is alive if the last collection reached it and it is not being destructed, a closure
if its this object is alive. -/
inductive Alive (heap : Heap T) (flags : Flags) : ℕ → Prop where
  | object {a : ℕ} {marks : List GcMark} (hget : heap.boxes[a]? = some (.object false marks))
    (hmark : (flags a).classMark = true) : Alive heap flags a
  | closure {a : ℕ} {origin : ClosureBox T} (hget : heap.boxes[a]? = some (.closure origin))
    (hthis : ∀ iface, origin.thisObject = some iface → Alive heap flags iface) : Alive heap flags a

structure WeaklySound (heap : Heap T) : Prop where
  recorded : ∀ (a : ℕ) (origin : ClosureBox T), heap.boxes[a]? = some (.closure origin) →
    origin.RecordsThis
  collects : ∀ roots, (∀ mark ∈ roots, GcMark.ValidIn heap.boxes mark) →
    ∃ turns flags, heap.runMarkCycle turns (fun _ => .none) roots = .ok (flags,[]) ∧
      ∀ mark, heap.Holds flags mark ↔ Worklist.Required heap.le heap.needs roots mark
  strengthens : ∀ (flags : Flags) (a : ℕ) (origin : ClosureBox T),
    heap.boxes[a]? = some (.closure origin) →
      ((∀ iface, origin.thisObject = some iface → heap.Alive flags iface) →
        heap.strengthenClassPtr flags (some a) = .ok (some a)) ∧
      (¬ (∀ iface, origin.thisObject = some iface → heap.Alive flags iface) →
        heap.strengthenClassPtr flags (some a) = .ok none)

variable {origin : ClosureBox T} {heap : Heap T}

theorem strengthenClassPtr_closure (flags : Flags) {a idx : ℕ}
    (hget : heap.boxes[a]? = some (.closure origin)) (hidx : origin.type.thisArgFieldIdx = some idx)
    {ptrKind : ClassPtrKind} {p : Option ℕ}
    (hfield : origin.fields[idx]? = some (.classPtr ptrKind p)) :
    heap.strengthenClassPtr flags (some a) =
      match heap.strengthenClassPtr flags p with
      | .error stray => .error stray
      | .ok strengthened => .ok (if strengthened.isSome then some a else none) := by
  rw [strengthenClassPtr]
  split
  case h_1 origin' hget' =>
    obtain rfl : origin' = origin := by
      have heq := hget'.symm.trans hget
      simpa using heq
    split
    case h_1 hnone => simp [hidx] at hnone
    case h_2 idx' hidx' =>
      obtain rfl : idx' = idx := by
        have heq := hidx'.symm.trans hidx
        simpa using heq
      split
      case h_1 kind' p' hfield' =>
        have heq := hfield'.symm.trans hfield
        simp only [Option.some.injEq,FieldValue.classPtr.injEq] at heq
        obtain ⟨-,rfl⟩ := heq
        rfl
      case h_2 hnot => exact absurd hfield (hnot _ _)
  case h_2 hget' => simp [hget] at hget'
  case h_3 hnot _ => exact absurd hget (hnot _)

theorem strengthenClassPtr_stray (flags : Flags) {a idx : ℕ}
    (hget : heap.boxes[a]? = some (.closure origin)) (hidx : origin.type.thisArgFieldIdx = some idx)
    {value : FieldValue} (hfield : origin.fields[idx]? = some value)
    (hvalue : ∀ ptrKind p, value ≠ .classPtr ptrKind p) :
    heap.strengthenClassPtr flags (some a) = .error .notAnObject := by
  rw [strengthenClassPtr]
  split
  case h_1 origin' hget' =>
    obtain rfl : origin' = origin := by
      have heq := hget'.symm.trans hget
      simpa using heq
    split
    case h_1 hnone => simp [hidx] at hnone
    case h_2 idx' hidx' =>
      obtain rfl : idx' = idx := by
        have heq := hidx'.symm.trans hidx
        simpa using heq
      split
      case h_1 kind' p' hfield' =>
        have heq := hfield.symm.trans hfield'
        exact absurd (Option.some.inj heq) (hvalue _ _)
      case h_2 => rfl
  case h_2 hget' => simp [hget] at hget'
  case h_3 hnot _ => exact absurd hget (hnot _)

theorem strengthenClassPtr_object (flags : Flags) {a : ℕ} {destructing : Bool} {marks : List GcMark}
    (hget : heap.boxes[a]? = some (.object destructing marks)) :
    heap.strengthenClassPtr flags (some a) =
      .ok (if (flags a).classMark && !destructing then some a else none) := by
  rw [strengthenClassPtr]
  split
  case h_1 hget' => simp [hget] at hget'
  case h_2 destructing' marks' hget' =>
    have heq := hget'.symm.trans hget
    simp only [Option.some.injEq,Box.object.injEq] at heq
    rw [heq.1]
  case h_3 hnot => exact absurd hget (hnot _ _)

theorem strengthenClassPtr_alive (hthis : heap.CapturesThis) (flags : Flags) {a : ℕ} {b : Box T}
    (hget : heap.boxes[a]? = some b) (hclass : b.isClass = true) :
    (heap.Alive flags a → heap.strengthenClassPtr flags (some a) = .ok (some a)) ∧
      (¬ heap.Alive flags a → heap.strengthenClassPtr flags (some a) = .ok none) := by
  induction a using Nat.strongRecOn generalizing b with
  | ind a ih =>
    cases b with
    | data marks => simp [Box.isClass] at hclass
    | object destructing marks =>
      rw [strengthenClassPtr_object flags hget]
      constructor
      · intro halive
        cases halive with
        | object hget' hmark =>
          have heq := hget'.symm.trans hget
          simp only [Option.some.injEq,Box.object.injEq] at heq
          simp [hmark,← heq.1]
        | closure hget' => simp [hget] at hget'
      · intro hdead
        rw [if_neg]
        intro hcond
        rw [Bool.and_eq_true,Bool.not_eq_true'] at hcond
        exact hdead (.object (hcond.2 ▸ hget) hcond.1)
    | closure origin =>
      obtain ⟨idx,ptrKind,iface,hrecords⟩ := (hthis a origin hget).records
      have hmem := List.mem_of_getElem? hget
      have hfield := List.mem_of_getElem? hrecords.field_eq
      obtain ⟨b,hb,hbclass⟩ := heap.class_of_field origin ptrKind iface hmem hfield
      have hiface := ih iface (heap.older a origin ptrKind iface hget hfield) hb hbclass
      rw [strengthenClassPtr_closure flags hget hrecords.idx_eq hrecords.field_eq]
      constructor
      · intro halive
        have hifaceAlive : heap.Alive flags iface := by
          cases halive with
          | object hget' => simp [hget] at hget'
          | closure hget' hthisAlive =>
            have heq := hget'.symm.trans hget
            simp only [Option.some.injEq,Box.closure.injEq] at heq
            rw [heq] at hthisAlive
            exact hthisAlive iface hrecords.this_eq
        rw [hiface.1 hifaceAlive]
        rfl
      · intro hdead
        have hifaceDead : ¬ heap.Alive flags iface := by
          intro hifaceAlive
          apply hdead
          apply Alive.closure hget
          intro p hp
          rw [hrecords.this_eq,Option.some.injEq] at hp
          exact hp ▸ hifaceAlive
        rw [hiface.2 hifaceDead]
        rfl

theorem recordsThis_iff {capture : Capture T}
    (horigin : origin = .function capture ∨ origin = .property capture) :
    origin.RecordsThis ↔ ∃ i, capture.closure.thisArgIdx = some i ∧
      holes (capture.closure.argValueList.take i) = 0 := by
  have hiff := ClosureObject.designatesThis_nextIdx capture.create_eq capture.thisArg
  rcases horigin with rfl | rfl
  · exact hiff
  · exact hiff

theorem WeaklySound.capturesThis_capture (hsound : heap.WeaklySound) {a : ℕ}
    (hget : heap.boxes[a]? = some (.closure origin)) {capture : Capture T}
    (horigin : origin = .function capture ∨ origin = .property capture) :
    capture.CapturesThis := by
  obtain ⟨i,hthisArg,hfull⟩ := (recordsThis_iff horigin).mp (hsound.recorded a origin hget)
  obtain ⟨value,hslot⟩ := capture.thisArg i hthisArg
  obtain ⟨front,back,heq,hlength,-⟩ := Capture.fields_eq hfull hslot
  have hidx : origin.type.thisArgFieldIdx = some (i + 1) := by
    have hnext : ClosureClassType.nextIdx capture.object.thisArgIdx = some (i + 1) :=
      congrArg ClosureClassType.nextIdx hthisArg
    rcases horigin with rfl | rfl
    · exact hnext
    · exact hnext
  have hfields : origin.fields = .thinPtr :: capture.object.argFields := by
    rcases horigin with rfl | rfl <;> rfl
  have hfield : origin.fields[i + 1]? = some value := by
    rw [hfields,heq,← hlength]
    simp
  have hobject : origin.thisObject = capture.thisObject := by
    rcases horigin with rfl | rfl <;> rfl
  have hstrong : origin.thisObject = none →
      heap.strengthenClassPtr (fun _ => .none) (some a) = .ok (some a) := by
    intro hnone
    apply (hsound.strengthens (fun _ => .none) a origin hget).1
    intro iface hiface
    rw [hnone] at hiface
    cases hiface
  rw [hobject,Capture.thisObject,hthisArg] at hstrong
  simp only [hslot] at hstrong
  cases value with
  | thinPtr =>
    rw [strengthenClassPtr_stray (fun _ => .none) hget hidx hfield (by rintro _ _ ⟨⟩)] at hstrong
    cases hstrong rfl
  | value marks =>
    rw [strengthenClassPtr_stray (fun _ => .none) hget hidx hfield (by rintro _ _ ⟨⟩)] at hstrong
    cases hstrong rfl
  | classPtr ptrKind iface =>
    cases iface with
    | some p => exact ⟨i,ptrKind,p,hthisArg,hfull,hslot⟩
    | none =>
      rw [strengthenClassPtr_closure (fun _ => .none) hget hidx hfield,strengthenClassPtr] at hstrong
      cases hstrong rfl

/-- The closures of a heap are weakly sound exactly if each of them captured an object as its this
argument, behind no skipped argument. -/
theorem weaklySound_iff (heap : Heap T) : heap.WeaklySound ↔ heap.CapturesThis := by
  constructor
  · intro hsound a origin hget
    cases origin with
    | function capture => exact hsound.capturesThis_capture hget (.inl rfl)
    | property capture => exact hsound.capturesThis_capture hget (.inr rfl)
    | reactor m_reactor => trivial
  · intro hthis
    constructor
    case recorded =>
      intro a origin hget
      have hcaptures := hthis a origin hget
      cases origin with
      | function capture =>
        obtain ⟨i,-,-,hthisArg,hfull,-⟩ := hcaptures
        exact (recordsThis_iff (.inl rfl)).mpr ⟨i,hthisArg,hfull⟩
      | property capture =>
        obtain ⟨i,-,-,hthisArg,hfull,-⟩ := hcaptures
        exact (recordsThis_iff (.inr rfl)).mpr ⟨i,hthisArg,hfull⟩
      | reactor m_reactor => rfl
    case collects =>
      intro roots hroots
      exact Worklist.run_ends (marks hthis) (fun mark => by
        rw [Holds]
        cases heap.kind mark <;> simp [MarkKind.Set,BoxFlags.none]) hroots
    case strengthens =>
      intro flags a origin hget
      have halive := strengthenClassPtr_alive hthis flags hget rfl
      constructor
      · exact fun h => halive.1 (.closure hget h)
      · intro hnot
        apply halive.2
        intro h
        apply hnot
        cases h with
        | object hget' => simp [hget] at hget'
        | closure hget' hthisAlive =>
          have heq := hget'.symm.trans hget
          simp only [Option.some.injEq,Box.closure.injEq] at heq
          rwa [heq] at hthisAlive

/-- The closure of `f ~(1)`: it captured a number and no this argument. -/
def plainCapture : Capture Unit where
  closure := ⟨[],[some (.value [])],none⟩
  srcArgArray := [.value false]
  length_le := Nat.le_refl 1
  hasType := by
    intro i value type hslot htype
    cases i with
    | zero =>
      cases hslot
      cases htype
      exact fun _ => rfl
    | succ i => simp at hslot
  thisArg := nofun

def plainHeap : Heap Unit where
  boxes := [.closure (.function plainCapture)]
  valid := by
    intro box hbox mark hmark
    cases List.mem_singleton.mp hbox
    cases hmark
  class_of_field := by
    intro closure ptrKind iface hbox hfield
    cases List.mem_singleton.mp hbox
    simp [ClosureBox.fields,Capture.object,plainCapture,ClosureObject.closureArgs] at hfield
  older := by
    intro a closure ptrKind iface hbox hfield
    cases List.mem_singleton.mp (List.mem_of_getElem? hbox)
    simp [ClosureBox.fields,Capture.object,plainCapture,ClosureObject.closureArgs] at hfield

/-- Without a this argument the class type records the field of the function pointer, and
strengthening uses the function as an object. -/
theorem plainHeap_not_weaklySound :
    (ClosureBox.function plainCapture).type.thisArgFieldIdx = some 0 ∧
      plainHeap.strengthenClassPtr (fun _ => .none) (some 0) = .error .notAnObject ∧
      ¬ plainHeap.WeaklySound := by
  have hget : plainHeap.boxes[0]? = some (.closure (.function plainCapture)) := rfl
  refine ⟨rfl,strengthenClassPtr_stray (fun _ => .none) hget rfl rfl nofun,?_⟩
  intro hsound
  cases hsound.recorded 0 _ hget

end Heap

end Jancy.Rt
