import Jancy.Rt.WeakClosure
import Mathlib.Data.List.Forall2

/-! What a collection keeps that reaches a closure only through weak pointers. -/
namespace Jancy.Rt

open Jancy.Ct Holes

variable {T : Type}

namespace GcMark

def box : GcMark → ℕ
  | markClass box => box
  | markData box => box
  | weakMark box => box
  | weakFunctionPtr closure => closure
  | weakPropertyPtr closure => closure

def Weakens (weaker stronger : GcMark) : Prop :=
  weaker = stronger ∨ ∃ box, weaker = .weakMark box ∧ stronger = .markClass box

end GcMark

namespace FieldValue

theorem weakMarks_weaken {value : FieldValue} {mark : GcMark} (h : mark ∈ value.weakMarks) :
    ∃ stronger ∈ value.marks, mark.Weakens stronger := by
  cases value with
  | thinPtr => simp [weakMarks] at h
  | value marks => simp [weakMarks] at h
  | classPtr ptrKind iface =>
    cases iface with
    | none => simp [weakMarks,classPtrMarks] at h
    | some p =>
      obtain rfl : mark = .weakMark p := by simpa [weakMarks,classPtrMarks] using h
      cases ptrKind with
      | normal => exact ⟨.markClass p,by simp [marks,classPtrMarks],.inr ⟨p,rfl,rfl⟩⟩
      | weak => exact ⟨.weakMark p,by simp [marks,classPtrMarks],.inl rfl⟩

end FieldValue

namespace Capture

def keptMarks (capture : Capture T) (box : ℕ) : List GcMark :=
  match capture.closure.thisArgIdx with
  | none => [.markClass box]
  | some i =>
    capture.closure.argValueList.zipIdx.flatMap fun slot =>
      match slot.1 with
      | none => []
      | some value => if slot.2 = i then value.weakMarks else value.marks

/-- The closure captures an object as its this argument, and nothing in front of it was skipped. -/
def CapturesThis (capture : Capture T) : Prop :=
  ∃ i ptrKind iface, capture.closure.thisArgIdx = some i ∧
    holes (capture.closure.argValueList.take i) = 0 ∧
    capture.closure.argValueList[i]? = some (some (.classPtr ptrKind (some iface)))

end Capture

namespace ClosureBox

def keptMarks (box : ℕ) : ClosureBox T → List GcMark
  | function capture => capture.keptMarks box
  | property capture => capture.keptMarks box
  | reactor m_reactor => [.weakMark m_reactor]

def CapturesThis : ClosureBox T → Prop
  | function capture => capture.CapturesThis
  | property capture => capture.CapturesThis
  | reactor _ => True

end ClosureBox

section Lists

variable {α : Type}

theorem exists_ne_iff (front back : List α) (item : α) (P : α → Prop) :
    (∃ k x, (front ++ item :: back)[k]? = some x ∧ k ≠ front.length ∧ P x) ↔
      ∃ x ∈ front ++ back, P x := by
  constructor
  · rintro ⟨k,x,hget,hne,hP⟩
    refine ⟨x,?_,hP⟩
    rcases Nat.lt_or_gt_of_ne hne with hlt | hgt
    · rw [List.getElem?_append_left hlt] at hget
      exact List.mem_append_left back (List.mem_of_getElem? hget)
    · rw [List.getElem?_append_right (Nat.le_of_lt hgt)] at hget
      obtain ⟨j,hj⟩ := Nat.exists_eq_add_of_lt hgt
      rw [show k - front.length = j + 1 by omega,List.getElem?_cons_succ] at hget
      exact List.mem_append_right front (List.mem_of_getElem? hget)
  · rintro ⟨x,hx,hP⟩
    rcases List.mem_append.mp hx with hfront | hback
    · obtain ⟨k,hk⟩ := List.mem_iff_getElem?.mp hfront
      have hlt : k < front.length := (List.getElem?_eq_some_iff.mp hk).1
      exact ⟨k,x,by rw [List.getElem?_append_left hlt,hk],Nat.ne_of_lt hlt,hP⟩
    · obtain ⟨k,hk⟩ := List.mem_iff_getElem?.mp hback
      refine ⟨front.length + (k + 1),x,?_,by omega,hP⟩
      rw [List.getElem?_append_right (Nat.le_add_right _ _),Nat.add_sub_cancel_left,
        List.getElem?_cons_succ,hk]

theorem split_at {l : List α} {i : ℕ} {item : α} (h : l[i]? = some item) :
    l = l.take i ++ item :: l.drop (i + 1) ∧ (l.take i).length = i := by
  obtain ⟨hlt,hget⟩ := List.getElem?_eq_some_iff.mp h
  refine ⟨?_,List.length_take_of_le (Nat.le_of_lt hlt)⟩
  rw [← hget,List.getElem_cons_drop,List.take_append_drop]

theorem filterMap_length_of_full {slots : List (Option α)} (h : holes slots = 0) :
    (slots.filterMap id).length = slots.length := by
  induction slots with
  | nil => rfl
  | cons slot slots ih =>
    cases slot with
    | none => simp at h
    | some a => simpa using ih (by simpa using h)

end Lists

namespace ClosureBox

/-- The fields have the types that the closure class has for them. -/
def Typed (closure : ClosureBox T) : Prop :=
  List.Forall₂ FieldValue.HasType closure.fields closure.type.fieldArray

theorem marks_of_hasType {value : FieldValue} {type : FieldType} (h : value.HasType type)
    (hroot : type.isGcRoot = false) : value.marks = [] := by
  cases value with
  | thinPtr => rfl
  | classPtr ptrKind iface => cases type <;> simp_all [FieldValue.HasType,FieldType.isGcRoot]
  | value marks =>
    cases type with
    | value isGcRoot => exact h hroot
    | thinPtr => simp [FieldValue.HasType] at h
    | classPtr => simp [FieldValue.HasType] at h

theorem mem_gcRootMarks {closure : ClosureBox T} (htyped : closure.Typed) {except : Option ℕ}
    {mark : GcMark} :
    mark ∈ closure.gcRootMarks except ↔
      ∃ k value, closure.fields[k]? = some value ∧ some k ≠ except ∧ mark ∈ value.marks := by
  rw [gcRootMarks,List.mem_flatMap]
  constructor
  · rintro ⟨⟨⟨type,value⟩,k⟩,hmem,hmark⟩
    obtain ⟨hzip,hcond⟩ := List.mem_filter.mp hmem
    have hget := List.mem_zipIdx_iff_getElem?.mp hzip
    rw [List.getElem?_zip_eq_some] at hget
    rw [Bool.and_eq_true,decide_eq_true_eq] at hcond
    exact ⟨k,value,hget.2,hcond.2,hmark⟩
  · rintro ⟨k,value,hvalue,hne,hmark⟩
    obtain ⟨hlt,hget⟩ := List.getElem?_eq_some_iff.mp hvalue
    have hlt' : k < closure.type.fieldArray.length := htyped.length_eq ▸ hlt
    have htype : value.HasType closure.type.fieldArray[k] := by
      have hk := List.forall₂_iff_get.mp htyped
      rw [← hget]
      exact hk.2 k hlt hlt'
    have hroot : closure.type.fieldArray[k].isGcRoot = true := by
      by_contra hnot
      rw [marks_of_hasType htype (by simpa using hnot)] at hmark
      cases hmark
    refine ⟨((closure.type.fieldArray[k],value),k),?_,hmark⟩
    rw [List.mem_filter]
    constructor
    · rw [List.mem_zipIdx_iff_getElem?,List.getElem?_zip_eq_some]
      exact ⟨List.getElem?_eq_getElem hlt',hvalue⟩
    · simp [hroot,hne]

theorem type_of_field {closure : ClosureBox T} (htyped : closure.Typed) {idx : ℕ}
    {ptrKind : ClassPtrKind} {iface : Option ℕ}
    (hfield : closure.fields[idx]? = some (.classPtr ptrKind iface)) :
    closure.type.fieldArray[idx]? = some .classPtr := by
  obtain ⟨hlt,hget⟩ := List.getElem?_eq_some_iff.mp hfield
  have hlt' : idx < closure.type.fieldArray.length := htyped.length_eq ▸ hlt
  have htype := (List.forall₂_iff_get.mp htyped).2 idx hlt hlt'
  rw [List.get_eq_getElem,List.get_eq_getElem,hget] at htype
  rw [List.getElem?_eq_getElem hlt']
  cases hcase : closure.type.fieldArray[idx] with
  | classPtr => rfl
  | thinPtr => simp [hcase,FieldValue.HasType] at htype
  | value isGcRoot => simp [hcase,FieldValue.HasType] at htype

structure Records (closure : ClosureBox T) (idx : ℕ) (ptrKind : ClassPtrKind) (iface : ℕ) :
    Prop where
  typed : closure.Typed
  idx_eq : closure.type.thisArgFieldIdx = some idx
  field_eq : closure.fields[idx]? = some (.classPtr ptrKind (some iface))
  this_eq : closure.thisObject = some iface
  kept : ∀ box mark, mark ∈ closure.keptMarks box ↔
    mark ∈ FieldValue.weakMarks (.classPtr ptrKind (some iface)) ++ closure.gcRootMarks (some idx)

end ClosureBox

namespace Capture

theorem forall₂_closureArgs {i : ℕ} {slots : List (Option FieldValue)} {argArray : List FieldType}
    (h : ∀ (k : ℕ) (value : FieldValue) (type : FieldType),
      slots[k]? = some (some value) → argArray[k]? = some type → value.HasType type) :
    List.Forall₂ FieldValue.HasType ((ClosureObject.closureArgs i slots argArray).map (·.2.2))
      ((ClosureObject.closureArgs i slots argArray).map (·.1)) := by
  induction slots generalizing i argArray with
  | nil => cases argArray <;> exact .nil
  | cons slot slots ih =>
    cases argArray with
    | nil => cases slot <;> exact .nil
    | cons arg argArray =>
      have hrest := @ih (i + 1) argArray fun k value type hslot htype =>
        h (k + 1) value type hslot htype
      cases slot with
      | none => exact hrest
      | some value => exact .cons (h 0 value arg rfl rfl) hrest

theorem argFields_eq (capture : Capture T) :
    capture.object.argFields = capture.closure.argValueList.filterMap id :=
  ClosureObject.closureArgs_fields capture.length_le

variable {capture : Capture T}

theorem mem_keptMarks {i : ℕ} (hidx : capture.closure.thisArgIdx = some i) {box : ℕ} {mark : GcMark} :
    mark ∈ capture.keptMarks box ↔ ∃ k value,
      capture.closure.argValueList[k]? = some (some value) ∧
        mark ∈ if k = i then value.weakMarks else value.marks := by
  simp only [keptMarks,hidx,List.mem_flatMap]
  constructor
  · rintro ⟨⟨slot,k⟩,hmem,hmark⟩
    cases slot with
    | none => simp at hmark
    | some value => exact ⟨k,value,List.mem_zipIdx_iff_getElem?.mp hmem,hmark⟩
  · rintro ⟨k,value,hslot,hmark⟩
    exact ⟨(some value,k),List.mem_zipIdx_iff_getElem?.mpr hslot,hmark⟩

/-- The captured values in front of the this argument, and those behind it. -/
def others (capture : Capture T) (i : ℕ) : List FieldValue :=
  (capture.closure.argValueList.take i).filterMap id ++
    (capture.closure.argValueList.drop (i + 1)).filterMap id

theorem mem_keptMarks_iff {i : ℕ} {this : FieldValue} (hidx : capture.closure.thisArgIdx = some i)
    (hslot : capture.closure.argValueList[i]? = some (some this)) {box : ℕ} {mark : GcMark} :
    mark ∈ capture.keptMarks box ↔
      mark ∈ this.weakMarks ∨ ∃ value ∈ capture.others i, mark ∈ value.marks := by
  have hsplit := split_at hslot
  have hothers : (∃ value ∈ capture.others i, mark ∈ value.marks) ↔
      ∃ k slot, capture.closure.argValueList[k]? = some slot ∧ k ≠ i ∧
        ∃ value, slot = some value ∧ mark ∈ value.marks := by
    have hne := exists_ne_iff (capture.closure.argValueList.take i)
      (capture.closure.argValueList.drop (i + 1)) (some this)
      (fun slot => ∃ value, slot = some value ∧ mark ∈ value.marks)
    rw [← hsplit.1,hsplit.2] at hne
    rw [hne,others,← List.filterMap_append]
    simp only [List.mem_filterMap,id]
    constructor
    · rintro ⟨value,⟨slot,hmem,hvalue⟩,hmark⟩
      exact ⟨slot,hmem,value,hvalue,hmark⟩
    · rintro ⟨slot,hmem,value,hvalue,hmark⟩
      exact ⟨value,⟨slot,hmem,hvalue⟩,hmark⟩
  rw [mem_keptMarks hidx,hothers]
  constructor
  · rintro ⟨k,value,hvalue,hmark⟩
    by_cases hk : k = i
    · subst hk
      rw [hslot,Option.some.injEq,Option.some.injEq] at hvalue
      rw [if_pos rfl,← hvalue] at hmark
      exact .inl hmark
    · rw [if_neg hk] at hmark
      exact .inr ⟨k,some value,hvalue,hk,value,rfl,hmark⟩
  · rintro (hmark | ⟨k,slot,hvalue,hk,value,rfl,hmark⟩)
    · exact ⟨i,this,hslot,by rwa [if_pos rfl]⟩
    · exact ⟨k,value,hvalue,by rwa [if_neg hk]⟩

theorem fields_eq {i : ℕ} {this : FieldValue}
    (hfull : holes (capture.closure.argValueList.take i) = 0)
    (hslot : capture.closure.argValueList[i]? = some (some this)) :
    ∃ front back, .thinPtr :: capture.object.argFields = front ++ this :: back ∧
      front.length = i + 1 ∧
      ∀ mark : GcMark, (∃ value ∈ front ++ back, mark ∈ value.marks) ↔
        ∃ value ∈ capture.others i, mark ∈ value.marks := by
  obtain ⟨hsplit,hlength⟩ := split_at hslot
  refine ⟨.thinPtr :: (capture.closure.argValueList.take i).filterMap id,
    (capture.closure.argValueList.drop (i + 1)).filterMap id,?_,?_,?_⟩
  · rw [argFields_eq,hsplit,List.filterMap_append,← hsplit]
    rfl
  · rw [List.length_cons,filterMap_length_of_full hfull,hlength]
  · intro mark
    constructor
    · rintro ⟨value,hmem,hmark⟩
      rcases List.mem_cons.mp hmem with rfl | hmem
      · cases hmark
      · exact ⟨value,hmem,hmark⟩
    · rintro ⟨value,hmem,hmark⟩
      exact ⟨value,List.mem_cons_of_mem _ hmem,hmark⟩

theorem CapturesThis.records (hthis : capture.CapturesThis) {closure : ClosureBox T}
    (htyped : closure.Typed) (hfields : closure.fields = .thinPtr :: capture.object.argFields)
    (hidx : closure.type.thisArgFieldIdx = ClosureClassType.nextIdx capture.closure.thisArgIdx)
    (hobject : closure.thisObject = capture.thisObject)
    (hkept : ∀ box, closure.keptMarks box = capture.keptMarks box) :
    ∃ idx ptrKind iface, closure.Records idx ptrKind iface := by
  obtain ⟨i,ptrKind,iface,hthisArg,hfull,hslot⟩ := hthis
  obtain ⟨front,back,heq,hlength,hothers⟩ := fields_eq hfull hslot
  refine ⟨i + 1,ptrKind,iface,htyped,?_,?_,?_,?_⟩
  · rw [hidx,hthisArg,ClosureClassType.nextIdx]
  · rw [hfields,heq,← hlength]
    simp
  · simp only [hobject,thisObject,hthisArg,hslot]
  · intro box mark
    rw [hkept,mem_keptMarks_iff hthisArg hslot,List.mem_append,ClosureBox.mem_gcRootMarks htyped,
      ← hothers,← exists_ne_iff _ _ (.classPtr ptrKind (some iface)),← heq,hlength,hfields]
    simp

end Capture

namespace ClosureBox

theorem typed (closure : ClosureBox T) : closure.Typed := by
  cases closure with
  | function capture => exact .cons trivial (Capture.forall₂_closureArgs capture.hasType)
  | property capture => exact .cons trivial (Capture.forall₂_closureArgs capture.hasType)
  | reactor m_reactor => exact .cons trivial (.cons (fun _ => rfl) .nil)

theorem CapturesThis.records {closure : ClosureBox T} (hthis : closure.CapturesThis) :
    ∃ idx ptrKind iface, closure.Records idx ptrKind iface := by
  cases closure with
  | function capture => exact Capture.CapturesThis.records hthis (typed _) rfl rfl rfl fun _ => rfl
  | property capture => exact Capture.CapturesThis.records hthis (typed _) rfl rfl rfl fun _ => rfl
  | reactor m_reactor =>
    refine ⟨0,.normal,m_reactor,typed _,rfl,rfl,rfl,?_⟩
    intro box mark
    simp [keptMarks,FieldValue.weakMarks,FieldValue.classPtrMarks,gcRootMarks,type,fields,
      ClosureClassType.createReactorClosureType,FieldType.isGcRoot]

theorem Records.kept_weaken {closure : ClosureBox T} {idx iface : ℕ} {ptrKind : ClassPtrKind}
    (hrecords : closure.Records idx ptrKind iface) {box : ℕ} {mark : GcMark}
    (hmark : mark ∈ closure.keptMarks box) :
    ∃ stronger ∈ closure.gcRootMarks none, mark.Weakens stronger := by
  rw [hrecords.kept,List.mem_append] at hmark
  rcases hmark with hweak | hother
  · obtain ⟨stronger,hmem,hle⟩ := FieldValue.weakMarks_weaken hweak
    exact ⟨stronger,(mem_gcRootMarks hrecords.typed).mpr ⟨idx,_,hrecords.field_eq,nofun,hmem⟩,hle⟩
  · obtain ⟨k,value,hvalue,-,hmem⟩ := (mem_gcRootMarks hrecords.typed).mp hother
    exact ⟨mark,(mem_gcRootMarks hrecords.typed).mpr ⟨k,value,hvalue,nofun,hmem⟩,.inl rfl⟩

end ClosureBox

end Jancy.Rt
