import Jancy.Ct.ClosureClass
import Jancy.Lib.Worklist

/-! Closure objects on the heap of the collector: marking what is reached through weak pointers to
them, and strengthening these pointers. -/
namespace Jancy.Rt

open Jancy.Ct

/-- What `markGcRoots` of one value does to the box that the value points to. -/
inductive GcMark where
  | markClass (box : ℕ)
  | markData (box : ℕ)
  | weakMark (box : ℕ)
  | weakFunctionPtr (closure : ℕ)
  | weakPropertyPtr (closure : ℕ)
  deriving DecidableEq

inductive ClassPtrKind where
  | normal
  | weak
  deriving DecidableEq

/-- The value of a field; a value of any other type is what it does when it is marked. -/
inductive FieldValue where
  | thinPtr
  | classPtr (ptrKind : ClassPtrKind) (iface : Option ℕ)
  | value (marks : List GcMark)

namespace FieldValue

def classPtrMarks : ClassPtrKind → Option ℕ → List GcMark
  | _,none => []
  | .normal,some box => [.markClass box]
  | .weak,some box => [.weakMark box]

def marks : FieldValue → List GcMark
  | thinPtr => []
  | classPtr ptrKind iface => classPtrMarks ptrKind iface
  | value marks => marks

def weakMarks : FieldValue → List GcMark
  | classPtr _ iface => classPtrMarks .weak iface
  | _ => []

def HasType : FieldValue → FieldType → Prop
  | thinPtr,.thinPtr => True
  | classPtr _ _,.classPtr => True
  | value marks,.value isGcRoot => isGcRoot = false → marks = []
  | _,_ => False

end FieldValue

/-- A closure that an object is created for: it is not too big, its values were cast to the types
of the parameters, and its this argument is one of its values. -/
structure Capture (T : Type) where
  closure : Closure T FieldValue
  srcArgArray : List FieldType
  length_le : closure.argValueList.length ≤ srcArgArray.length
  hasType : ∀ (i : ℕ) (value : FieldValue) (type : FieldType),
    closure.argValueList[i]? = some (some value) → srcArgArray[i]? = some type → value.HasType type
  thisArg : ∀ i, closure.thisArgIdx = some i → ∃ value, closure.argValueList[i]? =
    some (some value)

/-- The closure objects that the program creates, and the one of a reactor. -/
inductive ClosureBox (T : Type) where
  | function (capture : Capture T)
  | property (capture : Capture T)
  | reactor (m_reactor : ℕ)

namespace Capture

variable {T : Type}

/-- The object that `createClosureObject` makes. -/
def object (capture : Capture T) : ClosureObject FieldType FieldValue :=
  let args := ClosureObject.closureArgs 0 capture.closure.argValueList capture.srcArgArray
  ⟨args.map (·.1),args.map (·.2.1),args.map (·.2.2),capture.closure.thisArgIdx⟩

theorem create_eq (capture : Capture T) :
    ClosureObject.create capture.closure capture.srcArgArray = .ok capture.object :=
  if_neg (Nat.not_lt.mpr capture.length_le)

/-- The object that the this argument points to, if there is one. -/
def thisObject (capture : Capture T) : Option ℕ :=
  match capture.closure.thisArgIdx with
  | none => none
  | some i =>
    match capture.closure.argValueList[i]? with
    | some (some (.classPtr _ iface)) => iface
    | _ => none

end Capture

namespace ClosureBox

variable {T : Type}

def type : ClosureBox T → ClosureClassType
  | function capture => .getFunctionClosureClassType capture.object.argTypeArray
      capture.object.thisArgIdx
  | property capture => .getPropertyClosureClassType capture.object.argTypeArray
      capture.object.thisArgIdx
  | reactor _ => .createReactorClosureType

def fields : ClosureBox T → List FieldValue
  | function capture => .thinPtr :: capture.object.argFields
  | property capture => .thinPtr :: capture.object.argFields
  | reactor m_reactor => [.classPtr .normal (some m_reactor),.value []]

def thisObject : ClosureBox T → Option ℕ
  | function capture => capture.thisObject
  | property capture => capture.thisObject
  | reactor m_reactor => some m_reactor

def isFunctionClosure : ClosureBox T → Bool
  | property _ => false
  | _ => true

/-- The marks of the fields that hold references, without one of them. -/
def gcRootMarks (closure : ClosureBox T) (except : Option ℕ) : List GcMark :=
  ((closure.type.fieldArray.zip closure.fields).zipIdx.filter fun field =>
    field.1.1.isGcRoot && decide (some field.2 ≠ except)).flatMap fun field => field.1.2.marks

end ClosureBox

inductive Box (T : Type) where
  | data (marks : List GcMark)
  | object (destructing : Bool) (marks : List GcMark)
  | closure (origin : ClosureBox T)

namespace Box

variable {T : Type}

def isClass : Box T → Bool
  | data _ => false
  | _ => true

/-- The marks of everything that the box refers to. -/
def marks : Box T → List GcMark
  | .data marks => marks
  | .object _ marks => marks
  | .closure origin => origin.gcRootMarks none

end Box

def GcMark.ValidIn {T : Type} (boxes : List (Box T)) : GcMark → Prop
  | markClass box => ∃ b, boxes[box]? = some b ∧ b.isClass
  | markData box => ∃ b, boxes[box]? = some b
  | weakMark box => ∃ b, boxes[box]? = some b
  | weakFunctionPtr box => ∃ b, boxes[box]? = some b ∧ b.isClass
  | weakPropertyPtr box => ∃ b, boxes[box]? = some b ∧ b.isClass

/-- The boxes are numbered in the order of their allocation: what a closure captured is older than
the closure. -/
structure Heap (T : Type) where
  boxes : List (Box T)
  valid : ∀ box ∈ boxes, ∀ mark ∈ box.marks, mark.ValidIn boxes
  class_of_field : ∀ (closure : ClosureBox T) (ptrKind : ClassPtrKind) (iface : ℕ),
    .closure closure ∈ boxes → .classPtr ptrKind (some iface) ∈ closure.fields →
      ∃ b, boxes[iface]? = some b ∧ b.isClass
  older : ∀ (a : ℕ) (closure : ClosureBox T) (ptrKind : ClassPtrKind) (iface : ℕ),
    boxes[a]? = some (.closure closure) → .classPtr ptrKind (some iface) ∈ closure.fields → iface < a

structure BoxFlags where
  classMark : Bool
  dataMark : Bool
  weakMark : Bool
  closureWeakMark : Bool
  class_data : classMark = true → dataMark = true
  data_weak : dataMark = true → weakMark = true
  closure_weak : closureWeakMark = true → weakMark = true

namespace BoxFlags

theorem unmarked : false = true → false = true := id

def none : BoxFlags := ⟨false,false,false,false,unmarked,unmarked,unmarked⟩

/-- The flags that `markClass` leaves. -/
def setClassMark (flags : BoxFlags) : BoxFlags :=
  ⟨true,true,true,flags.closureWeakMark,fun _ => rfl,fun _ => rfl,fun _ => rfl⟩

def setDataMark (flags : BoxFlags) : BoxFlags :=
  ⟨flags.classMark,true,true,flags.closureWeakMark,fun _ => rfl,fun _ => rfl,fun _ => rfl⟩

def setWeakMark (flags : BoxFlags) : BoxFlags :=
  ⟨flags.classMark,flags.dataMark,true,flags.closureWeakMark,flags.class_data,fun _ => rfl,
    fun _ => rfl⟩

def setClosureWeakMark (flags : BoxFlags) : BoxFlags :=
  ⟨flags.classMark,flags.dataMark,true,true,flags.class_data,fun _ => rfl,fun _ => rfl⟩

end BoxFlags

/-- Something that is not an object was used as one. -/
inductive Stray where
  | notAnObject
  deriving DecidableEq

namespace Heap

variable {T : Type}

abbrev Flags := ℕ → BoxFlags

def markClass (heap : Heap T) (flags : Flags) (box : ℕ) : Except Stray (Flags × List GcMark) :=
  match heap.boxes[box]? with
  | none => .error .notAnObject
  | some (.data _) => .error .notAnObject
  | some b =>
    if (flags box).classMark then .ok (flags,[])
    else .ok (Function.update flags box (flags box).setClassMark,b.marks)

def markData (heap : Heap T) (flags : Flags) (box : ℕ) : Except Stray (Flags × List GcMark) :=
  match heap.boxes[box]? with
  | none => .error .notAnObject
  | some b =>
    if (flags box).dataMark then .ok (flags,[])
    else .ok (Function.update flags box (flags box).setDataMark,b.marks)

def weakMark (flags : Flags) (box : ℕ) : Flags :=
  Function.update flags box (flags box).setWeakMark

/-- The this argument is added as a weak pointer, the other fields as they are. -/
def weakMarkClosureClass (heap : Heap T) (flags : Flags) (box : ℕ) (closure : ClosureBox T) :
    Except Stray (Flags × List GcMark) :=
  if (flags box).classMark || (flags box).closureWeakMark then .ok (flags,[])
  else
    match closure.type.thisArgFieldIdx with
    | none => heap.markClass flags box
    | some thisArgFieldIdx =>
      match closure.type.fieldArray[thisArgFieldIdx]?,closure.fields[thisArgFieldIdx]? with
      | some .classPtr,some thisArg =>
        .ok (Function.update flags box (flags box).setClosureWeakMark,
          thisArg.weakMarks ++ closure.gcRootMarks (some thisArgFieldIdx))
      | _,_ => .error .notAnObject

def mark (heap : Heap T) (flags : Flags) : GcMark → Except Stray (Flags × List GcMark)
  | .markClass box => heap.markClass flags box
  | .markData box => heap.markData flags box
  | .weakMark box => .ok (weakMark flags box,[])
  | .weakFunctionPtr box =>
    match heap.boxes[box]? with
    | some (.closure closure) =>
      if closure.isFunctionClosure then heap.weakMarkClosureClass flags box closure
      else .ok (weakMark flags box,[])
    | _ => .ok (weakMark flags box,[])
  | .weakPropertyPtr box =>
    match heap.boxes[box]? with
    | some (.closure closure) =>
      if closure.isFunctionClosure then .ok (weakMark flags box,[])
      else heap.weakMarkClosureClass flags box closure
    | _ => .ok (weakMark flags box,[])

def runMarkCycle (heap : Heap T) : ℕ → Flags → List GcMark → Except Stray (Flags × List GcMark) :=
  Worklist.run heap.mark

theorem lt_of_field {heap : Heap T} {a : ℕ} {closure : ClosureBox T}
    (hbox : heap.boxes[a]? = some (.closure closure)) {idx : ℕ} {ptrKind : ClassPtrKind}
    {iface : Option ℕ} (hfield : closure.fields[idx]? = some (.classPtr ptrKind iface)) :
    iface.elim 0 (· + 1) < a + 1 := by
  cases iface with
  | none => exact Nat.succ_pos a
  | some p =>
    have hlt := heap.older a closure ptrKind p hbox (List.mem_of_getElem? hfield)
    simpa using hlt

/-- A closure, of a function or of a property, is as alive as what its field for the this argument
points to. -/
def strengthenClassPtr (heap : Heap T) (flags : Flags) : Option ℕ → Except Stray (Option ℕ)
  | none => .ok none
  | some iface =>
    match _hbox : heap.boxes[iface]? with
    | some (.closure closure) =>
      match closure.type.thisArgFieldIdx with
      | none => .ok (some iface)
      | some thisArgFieldIdx =>
        match _hfield : closure.fields[thisArgFieldIdx]? with
        | some (.classPtr _ p) =>
          match strengthenClassPtr heap flags p with
          | .error stray => .error stray
          | .ok strengthened => .ok (if strengthened.isSome then some iface else none)
        | _ => .error .notAnObject
    | some (.object destructing _) =>
      .ok (if (flags iface).classMark && !destructing then some iface else none)
    | _ => .error .notAnObject
  termination_by iface => iface.elim 0 (· + 1)
  decreasing_by exact lt_of_field _hbox _hfield

end Heap

end Jancy.Rt
