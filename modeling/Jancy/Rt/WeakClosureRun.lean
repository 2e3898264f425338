import Jancy.Rt.WeakClosureMarks
import Mathlib.Algebra.Order.BigOperators.Group.Finset

/-! Weak closures over whole collections: what stays alive, and which closures can be strengthened
afterwards. -/
namespace Jancy.Rt

open Jancy.Ct Holes

variable {T : Type}

namespace Heap

/-- The flag that a mark is about. -/
inductive MarkKind where
  | classMark
  | dataMark
  | closureWeakMark
  | weakMark
  deriving DecidableEq

/-- A weak pointer to anything but a closure object of its kind is a simple one. -/
def kind (heap : Heap T) : GcMark → MarkKind
  | .markClass _ => .classMark
  | .markData _ => .dataMark
  | .weakMark _ => .weakMark
  | .weakFunctionPtr box =>
    match heap.boxes[box]? with
    | some (.closure closure) => if closure.isFunctionClosure then .closureWeakMark else .weakMark
    | _ => .weakMark
  | .weakPropertyPtr box =>
    match heap.boxes[box]? with
    | some (.closure closure) => if closure.isFunctionClosure then .weakMark else .closureWeakMark
    | _ => .weakMark

/-- The marks that a mark asks for by its purpose. -/
def needs (heap : Heap T) (mark : GcMark) : List GcMark :=
  match heap.kind mark,heap.boxes[mark.box]? with
  | .closureWeakMark,some (.closure closure) => closure.keptMarks mark.box
  | .classMark,some box => box.marks
  | .dataMark,some box => box.marks
  | _,_ => []

/-- The flags say that a mark of this kind was made. -/
def MarkKind.Set (flags : BoxFlags) : MarkKind → Prop
  | classMark => flags.classMark = true
  | dataMark => flags.dataMark = true
  | closureWeakMark => flags.classMark = true ∨ flags.closureWeakMark = true
  | weakMark => flags.weakMark = true

def MarkKind.set (flags : BoxFlags) : MarkKind → BoxFlags
  | classMark => flags.setClassMark
  | dataMark => flags.setDataMark
  | closureWeakMark => flags.setClosureWeakMark
  | weakMark => flags.setWeakMark

def Holds (heap : Heap T) (flags : Flags) (mark : GcMark) : Prop :=
  (heap.kind mark).Set (flags mark.box)

def le (heap : Heap T) (weaker stronger : GcMark) : Prop :=
  weaker.box = stronger.box ∧ (heap.kind weaker = heap.kind stronger ∨
    heap.kind weaker = .weakMark ∨ heap.kind stronger = .classMark)

/-- The flags of the box that are not set yet. -/
def unset (flags : BoxFlags) : ℕ :=
  (!flags.classMark).toNat + (!flags.dataMark).toNat + (!flags.closureWeakMark).toNat

def left (heap : Heap T) (flags : Flags) : ℕ :=
  ∑ box ∈ Finset.range heap.boxes.length, unset (flags box)

variable {heap : Heap T} {flags : Flags}

theorem left_update_lt {box : ℕ} {flags' : BoxFlags} (hbox : box < heap.boxes.length)
    (hlt : unset flags' < unset (flags box)) :
    heap.left (Function.update flags box flags') < heap.left flags := by
  apply Finset.sum_lt_sum
  · intro other _
    rcases eq_or_ne other box with rfl | hne
    · rw [Function.update_self]
      exact Nat.le_of_lt hlt
    · rw [Function.update_of_ne hne]
  · refine ⟨box,Finset.mem_range.mpr hbox,?_⟩
    rwa [Function.update_self]

theorem left_update_eq {box : ℕ} {flags' : BoxFlags} (heq : unset flags' = unset (flags box)) :
    heap.left (Function.update flags box flags') = heap.left flags := by
  apply Finset.sum_congr rfl
  intro other _
  rcases eq_or_ne other box with rfl | hne
  · rw [Function.update_self,heq]
  · rw [Function.update_of_ne hne]

theorem unset_set {flags : BoxFlags} {kind : MarkKind} (hkind : kind ≠ .weakMark)
    (hset : ¬ kind.Set flags) : unset (kind.set flags) < unset flags := by
  cases kind with
  | classMark =>
    rw [MarkKind.Set,Bool.not_eq_true] at hset
    simp only [unset,MarkKind.set,BoxFlags.setClassMark,hset]
    cases flags.dataMark <;> simp
  | dataMark =>
    rw [MarkKind.Set,Bool.not_eq_true] at hset
    simp [unset,MarkKind.set,BoxFlags.setDataMark,hset]
  | closureWeakMark =>
    rw [MarkKind.Set,not_or,Bool.not_eq_true,Bool.not_eq_true] at hset
    simp [unset,MarkKind.set,BoxFlags.setClosureWeakMark,hset.2]
  | weakMark => exact absurd rfl hkind

theorem set_kept {flags : BoxFlags} (kind : MarkKind) {other : MarkKind}
    (hother : other.Set flags) : other.Set (kind.set flags) := by
  cases kind with
  | classMark =>
    cases other with
    | closureWeakMark => exact .inl rfl
    | _ => rfl
  | dataMark =>
    cases other with
    | dataMark => rfl
    | weakMark => rfl
    | _ => exact hother
  | closureWeakMark =>
    cases other with
    | closureWeakMark => exact .inr rfl
    | weakMark => rfl
    | _ => exact hother
  | weakMark =>
    cases other with
    | weakMark => rfl
    | _ => exact hother

theorem set_self (flags : BoxFlags) (kind : MarkKind) : kind.Set (kind.set flags) := by
  cases kind with
  | closureWeakMark => exact .inr rfl
  | _ => rfl

theorem set_only {flags : BoxFlags} {kind other : MarkKind} (hother : other.Set (kind.set flags)) :
    other.Set flags ∨ other = kind ∨ other = .weakMark ∨ kind = .classMark := by
  cases kind with
  | classMark => exact .inr (.inr (.inr rfl))
  | dataMark =>
    cases other with
    | dataMark => exact .inr (.inl rfl)
    | weakMark => exact .inr (.inr (.inl rfl))
    | _ => exact .inl hother
  | closureWeakMark =>
    cases other with
    | closureWeakMark => exact .inr (.inl rfl)
    | weakMark => exact .inr (.inr (.inl rfl))
    | _ => exact .inl hother
  | weakMark =>
    cases other with
    | weakMark => exact .inr (.inl rfl)
    | _ => exact .inl hother

variable {mark : GcMark}

theorem holds_congr {flags flags' : Flags} (heq : flags' mark.box = flags mark.box) :
    heap.Holds flags' mark ↔ heap.Holds flags mark := by
  rw [Holds,Holds,heq]

theorem le_of_weakens {weaker stronger : GcMark} (h : weaker.Weakens stronger) :
    heap.le weaker stronger := by
  rcases h with rfl | ⟨box,rfl,rfl⟩
  · exact ⟨rfl,.inl rfl⟩
  · exact ⟨rfl,.inr (.inl rfl)⟩

theorem holds_weaker (heap : Heap T) (flags : Flags) (mark other : GcMark)
    (hmark : heap.Holds flags mark) (hle : heap.le other mark) : heap.Holds flags other := by
  obtain ⟨hbox,hkind⟩ := hle
  have hclass := (flags mark.box).class_data
  have hdata := (flags mark.box).data_weak
  have hclosure := (flags mark.box).closure_weak
  rw [Holds] at hmark ⊢
  rw [hbox]
  rcases hkind with heq | hweak | hstrong
  · rwa [heq]
  · rw [hweak]
    cases hkind : heap.kind mark <;> rw [hkind,MarkKind.Set] at hmark
    · exact hdata (hclass hmark)
    · exact hdata hmark
    · exact hmark.elim (fun h => hdata (hclass h)) hclosure
    · exact hmark
  · rw [hstrong,MarkKind.Set] at hmark
    cases heap.kind other
    · exact hmark
    · exact hclass hmark
    · exact .inl hmark
    · exact hdata (hclass hmark)

/-- Every closure on the heap captured an object as its this argument, and nothing in front of it
was skipped. -/
def CapturesThis (heap : Heap T) : Prop :=
  ∀ (a : ℕ) (closure : ClosureBox T), heap.boxes[a]? = some (.closure closure) →
    closure.CapturesThis

theorem needs_le (hthis : heap.CapturesThis) {mark other : GcMark} (hle : heap.le other mark)
    {next : GcMark} (hnext : next ∈ heap.needs other) :
    ∃ stronger ∈ heap.needs mark, heap.le next stronger := by
  obtain ⟨hbox,hkind⟩ := hle
  have hrefl : heap.le next next := ⟨rfl,.inl rfl⟩
  rw [needs,hbox] at hnext
  rcases hkind with heq | hweak | hstrong
  · rw [heq] at hnext
    exact ⟨next,hnext,hrefl⟩
  · rw [hweak] at hnext
    simp at hnext
  · rw [needs,hstrong]
    cases hget : heap.boxes[mark.box]? with
    | none =>
      rw [hget] at hnext
      cases hother : heap.kind other <;> simp [hother] at hnext
    | some box =>
      rw [hget] at hnext
      cases hother : heap.kind other with
      | classMark => exact ⟨next,by simpa [hother] using hnext,hrefl⟩
      | dataMark => exact ⟨next,by simpa [hother] using hnext,hrefl⟩
      | weakMark => simp [hother] at hnext
      | closureWeakMark =>
        cases box with
        | data marks => simp [hother] at hnext
        | object destructing marks => simp [hother] at hnext
        | closure origin =>
          obtain ⟨idx,ptrKind,iface,hrecords⟩ := (hthis _ origin hget).records
          rw [hother] at hnext
          obtain ⟨stronger,hmem,hweakens⟩ := hrecords.kept_weaken hnext
          exact ⟨stronger,hmem,le_of_weakens hweakens⟩

theorem visited_set (hthis : heap.CapturesThis) {asked : List GcMark}
    (hasked : ∀ next, next ∈ asked ↔ next ∈ heap.needs mark) :
    Worklist.Visited heap.Holds heap.le heap.needs flags mark
      (Function.update flags mark.box ((heap.kind mark).set (flags mark.box))) asked := by
  have hkept : ∀ other, heap.Holds flags other → heap.Holds
      (Function.update flags mark.box ((heap.kind mark).set (flags mark.box))) other := by
    intro other hother
    by_cases hbox : other.box = mark.box
    · rw [Holds,hbox,Function.update_self]
      rw [Holds,hbox] at hother
      exact set_kept _ hother
    · exact (holds_congr (Function.update_of_ne hbox _ _)).mpr hother
  have honly : ∀ other, heap.Holds
      (Function.update flags mark.box ((heap.kind mark).set (flags mark.box))) other →
        heap.Holds flags other ∨ heap.le other mark := by
    intro other hother
    by_cases hbox : other.box = mark.box
    · rw [Holds,hbox,Function.update_self] at hother
      rcases set_only hother with hold | hle
      · exact .inl (by rwa [Holds,hbox])
      · exact .inr ⟨hbox,hle⟩
    · exact .inl ((holds_congr (Function.update_of_ne hbox _ _)).mp hother)
  constructor
  case marked =>
    rw [Holds,Function.update_self]
    exact set_self _ _
  case kept => exact hkept
  case only => exact honly
  case asked_needed => exact fun next hnext => (hasked next).mp hnext
  case needed_asked =>
    intro other hother hnot next hnext
    rcases honly other hother with hold | hle
    · exact absurd hold hnot
    · obtain ⟨stronger,hmem,hle'⟩ := needs_le hthis hle hnext
      exact .inr ⟨stronger,(hasked stronger).mpr hmem,hle'⟩

def Spec (heap : Heap T) (flags : Flags) (mark : GcMark) : Prop :=
  (heap.Holds flags mark ∧ heap.mark flags mark = .ok (flags,[])) ∨
  ((heap.kind mark = .weakMark ∨ ¬ heap.Holds flags mark) ∧ ∃ asked,
    heap.mark flags mark =
      .ok (Function.update flags mark.box ((heap.kind mark).set (flags mark.box)),asked) ∧
    ∀ next, next ∈ asked ↔ next ∈ heap.needs mark)

theorem spec_markClass {box : ℕ} {b : Box T} (hget : heap.boxes[box]? = some b)
    (hclass : b.isClass = true) :
    heap.Spec flags (.markClass box) := by
  have hmark : heap.mark flags (.markClass box) =
      if (flags box).classMark then .ok (flags,[])
      else .ok (Function.update flags box (flags box).setClassMark,b.marks) := by
    cases b with
    | data marks => simp [Box.isClass] at hclass
    | object destructing marks => simp [mark,markClass,hget]
    | closure origin => simp [mark,markClass,hget]
  rw [Spec,hmark]
  by_cases hset : (flags box).classMark = true
  · exact .inl ⟨hset,if_pos hset⟩
  · refine .inr ⟨.inr hset,b.marks,if_neg hset,?_⟩
    intro next
    simp [needs,kind,GcMark.box,hget]

theorem spec_markData {box : ℕ} {b : Box T} (hget : heap.boxes[box]? = some b) :
    heap.Spec flags (.markData box) := by
  have hmark : heap.mark flags (.markData box) =
      if (flags box).dataMark then .ok (flags,[])
      else .ok (Function.update flags box (flags box).setDataMark,b.marks) := by
    simp [mark,markData,hget]
  rw [Spec,hmark]
  by_cases hset : (flags box).dataMark = true
  · exact .inl ⟨hset,if_pos hset⟩
  · refine .inr ⟨.inr hset,b.marks,if_neg hset,?_⟩
    intro next
    simp [needs,kind,GcMark.box,hget]

theorem spec_weakMark (hkind : heap.kind mark = .weakMark)
    (hmark : heap.mark flags mark = .ok (weakMark flags mark.box,[])) : heap.Spec flags mark := by
  refine .inr ⟨.inl hkind,[],?_,?_⟩
  · rw [hmark,hkind]
    rfl
  · intro next
    simp [needs,hkind]

theorem spec_closure (hthis : heap.CapturesThis) (mark : GcMark) {origin : ClosureBox T}
    (hget : heap.boxes[mark.box]? = some (.closure origin))
    (hkind : heap.kind mark = .closureWeakMark)
    (hmark : heap.mark flags mark = heap.weakMarkClosureClass flags mark.box origin) :
    heap.Spec flags mark := by
  obtain ⟨idx,ptrKind,iface,hrecords⟩ := (hthis _ origin hget).records
  have htype := ClosureBox.type_of_field hrecords.typed hrecords.field_eq
  rw [Spec,hmark,weakMarkClosureClass,hkind]
  simp only [hrecords.idx_eq,htype,hrecords.field_eq,Bool.or_eq_true]
  by_cases hset : (flags mark.box).classMark = true ∨ (flags mark.box).closureWeakMark = true
  · exact .inl ⟨by rwa [Holds,hkind],if_pos hset⟩
  · refine .inr ⟨.inr (by rwa [Holds,hkind]),_,if_neg hset,?_⟩
    intro next
    simp only [needs,hkind,hget]
    rw [hrecords.kept]

theorem mark_spec (hthis : heap.CapturesThis) (flags : Flags) (hvalid : mark.ValidIn heap.boxes) :
    heap.Spec flags mark := by
  cases mark with
  | markClass box =>
    obtain ⟨b,hget,hclass⟩ := hvalid
    exact spec_markClass hget hclass
  | markData box =>
    obtain ⟨b,hget⟩ := hvalid
    exact spec_markData hget
  | weakMark box => exact spec_weakMark rfl rfl
  | weakFunctionPtr box =>
    obtain ⟨b,hget,hclass⟩ := hvalid
    cases b with
    | data marks => simp [Box.isClass] at hclass
    | object destructing marks =>
      apply spec_weakMark
      · simp [kind,hget]
      · simp [Heap.mark,hget,GcMark.box]
    | closure origin =>
      by_cases hfunction : origin.isFunctionClosure = true
      · apply spec_closure hthis (.weakFunctionPtr box) hget
        · simp [kind,hget,hfunction]
        · simp [Heap.mark,hget,hfunction,GcMark.box]
      · apply spec_weakMark
        · simp [kind,hget,hfunction]
        · simp [Heap.mark,hget,hfunction,GcMark.box]
  | weakPropertyPtr box =>
    obtain ⟨b,hget,hclass⟩ := hvalid
    cases b with
    | data marks => simp [Box.isClass] at hclass
    | object destructing marks =>
      apply spec_weakMark
      · simp [kind,hget]
      · simp [Heap.mark,hget,GcMark.box]
    | closure origin =>
      by_cases hfunction : origin.isFunctionClosure = true
      · apply spec_weakMark
        · simp [kind,hget,hfunction]
        · simp [Heap.mark,hget,hfunction,GcMark.box]
      · apply spec_closure hthis (.weakPropertyPtr box) hget
        · simp [kind,hget,hfunction]
        · simp [Heap.mark,hget,hfunction,GcMark.box]

theorem valid_of_weakens {boxes : List (Box T)} {weaker stronger : GcMark}
    (h : weaker.Weakens stronger) (hvalid : stronger.ValidIn boxes) : weaker.ValidIn boxes := by
  rcases h with rfl | ⟨box,rfl,rfl⟩
  · exact hvalid
  · obtain ⟨b,hget,-⟩ := hvalid
    exact ⟨b,hget⟩

theorem needs_valid (hthis : heap.CapturesThis) (mark next : GcMark)
    (hnext : next ∈ heap.needs mark) : next.ValidIn heap.boxes := by
  rw [needs] at hnext
  split at hnext
  case h_1 origin _ hget =>
    obtain ⟨idx,ptrKind,iface,hrecords⟩ := (hthis _ origin hget).records
    obtain ⟨stronger,hmem,hweakens⟩ := hrecords.kept_weaken hnext
    exact valid_of_weakens hweakens
      (heap.valid (.closure origin) (List.mem_of_getElem? hget) stronger hmem)
  case h_2 box _ hget => exact heap.valid box (List.mem_of_getElem? hget) next hnext
  case h_3 box _ hget => exact heap.valid box (List.mem_of_getElem? hget) next hnext
  case h_4 => cases hnext

theorem box_lt (hvalid : mark.ValidIn heap.boxes) :
    mark.box < heap.boxes.length := by
  have hlt : ∀ {box : ℕ} {b : Box T}, heap.boxes[box]? = some b → box < heap.boxes.length :=
    fun hget => (List.getElem?_eq_some_iff.mp hget).1
  cases mark with
  | markClass box => exact hlt hvalid.choose_spec.1
  | weakFunctionPtr box => exact hlt hvalid.choose_spec.1
  | weakPropertyPtr box => exact hlt hvalid.choose_spec.1
  | markData box => exact hlt hvalid.choose_spec
  | weakMark box => exact hlt hvalid.choose_spec

theorem marks (hthis : heap.CapturesThis) :
    Worklist.Marks heap.mark heap.Holds heap.le heap.needs (GcMark.ValidIn heap.boxes) heap.left where
  refl mark := ⟨rfl,.inl rfl⟩
  weaker := holds_weaker heap
  needs_valid mark _ next hnext := needs_valid hthis mark next hnext
  visits := by
    intro flags mark hvalid
    rcases mark_spec hthis flags hvalid with ⟨hheld,hmark⟩ | ⟨hnew,asked,hmark,hasked⟩
    · exact ⟨flags,[],hmark,.already hheld,.inr ⟨rfl,rfl⟩⟩
    · refine ⟨_,asked,hmark,visited_set hthis hasked,?_⟩
      by_cases hkind : heap.kind mark = .weakMark
      · refine .inr ⟨?_,?_⟩
        · rw [hkind]
          exact left_update_eq rfl
        · have hnone : heap.needs mark = [] := by simp [needs,hkind]
          rw [hnone] at hasked
          exact List.eq_nil_iff_forall_not_mem.mpr fun next hnext =>
            List.not_mem_nil ((hasked next).mp hnext)
      · have hnot := hnew.resolve_left hkind
        exact .inl (left_update_lt (box_lt hvalid) (unset_set hkind hnot))

end Heap

end Jancy.Rt
